import Qwen3Asr.Library.Pieces
import Qwen3Asr.Library.Simulation
import Qwen3Asr.VadStream

/-! The chunks a session scores. However a stream is cut into pushes, the session scores the
consecutive chunks of the whole of it, up to the first one that fails. -/
namespace Qwen3Asr.VadChunks
open Library.Effect Library.Pieces Library.Simulation
open E2EVad VadStream FsmnVadSession

variable {Row Cache : Type}

def runSession (weights : FsmnVadWeights Row Cache) (pushes : List (List Int16)) :
    EStateM String (FsmnVadSession Cache) (List (Nat × Nat)) := do
  let segments ← pushAll weights pushes
  let more ← finishSegments weights
  return segments ++ more

def recording (weights : FsmnVadWeights Row Cache) : FsmnVadWeights Row (Cache × List (List Int16)) where
  fbank := weights.fbank
  forward feats chunk := do
    modify fun s => (s.1,s.2 ++ [chunk])
    zoom Prod.fst (fun caches s => (caches,s.2)) (weights.forward feats chunk)
  zeroCaches := (weights.zeroCaches,[])

def recorded (weights : FsmnVadWeights Row Cache) (minSilenceMs : Nat) (pushes : List (List Int16)) :
    EStateM.Result String (FsmnVadSession (Cache × List (List Int16))) (List (Nat × Nat)) :=
  runSession (recording weights) pushes (.new (recording weights) minSilenceMs)

def scoredChunks (weights : FsmnVadWeights Row Cache) (minSilenceMs : Nat) (pushes : List (List Int16)) :
    List (List Int16) := (after (recorded weights minSilenceMs pushes)).caches.2

/- The chunks of a stream: one after another, and what is left of it filled up with zeros. -/
def streamChunks (samples : List Int16) : List (List Int16) :=
  let rest := leftover FSMN_VAD_CHUNK_SIZE samples
  cut FSMN_VAD_CHUNK_SIZE (samples.length/FSMN_VAD_CHUNK_SIZE) samples ++ if rest = [] then [] else [padChunk rest]

def forwardAll (weights : FsmnVadWeights Row Cache) : List (List Int16) → EStateM String Cache Unit
  | [] => pure ()
  | chunk::rest => do
    let _ ← weights.forward (applyLfr lfrM lfrN (weights.fbank chunk)) chunk
    forwardAll weights rest

/- The chunks end in one that the network fails on, behind those it has scored. -/
def FailsOn (weights : FsmnVadWeights Row Cache) (caches : Cache) (chunks scored : List (List Int16)) (e : String) : Prop :=
  ∃ before chunk rest behind failed, chunks = before ++ chunk::rest ∧ scored = before ++ [chunk] ∧
    forwardAll weights before caches = .ok () behind ∧
    weights.forward (applyLfr lfrM lfrN (weights.fbank chunk)) chunk behind = .error e failed

section Buffer
variable {weights : FsmnVadWeights Row Cache} {s t : FsmnVadSession Cache}

theorem scoreInputShort {samples : List Int16} (short : samples.length < FSMN_VAD_CHUNK_SIZE) :
    scoreInput weights samples s = .ok [] {s with pending := samples} := by
  unfold scoreInput
  rw [Nat.div_eq_of_lt short,Nat.zero_mul,List.drop_zero]
  rfl

theorem scoreInputAppend (emptied : s.pending = []) (samples more : List Int16) :
    scoreInput weights (samples ++ more) s = match scoreInput weights samples s with
      | .ok segments t => (scoreInput weights (t.pending ++ more) >>= fun rest => pure (segments ++ rest)) {t with pending := []}
      | .error e t => .error e t := by
  induction count : samples.length/FSMN_VAD_CHUNK_SIZE generalizing samples s with
  | zero =>
    have short : samples.length < FSMN_VAD_CHUNK_SIZE := by
      unfold FSMN_VAD_CHUNK_SIZE at count ⊢
      omega
    have cleared : {s with pending := []} = s := by rw [← emptied]
    rw [scoreInputShort short]
    dsimp only
    rw [cleared]
    exact (congrFun (bind_pure _) s).symm
  | succ n ih =>
    have enough : FSMN_VAD_CHUNK_SIZE ≤ samples.length := by
      unfold FSMN_VAD_CHUNK_SIZE at count ⊢
      omega
    have first : (samples ++ more).take FSMN_VAD_CHUNK_SIZE = samples.take FSMN_VAD_CHUNK_SIZE :=
      List.take_append_of_le_length enough
    have behind : (samples ++ more).drop FSMN_VAD_CHUNK_SIZE = samples.drop FSMN_VAD_CHUNK_SIZE ++ more :=
      List.drop_append_of_le_length enough
    have rest : (samples.drop FSMN_VAD_CHUNK_SIZE).length/FSMN_VAD_CHUNK_SIZE = n := by
      unfold FSMN_VAD_CHUNK_SIZE at count ⊢
      rw [List.length_drop]
      omega
    obtain ⟨m,longer⟩ : ∃ m, (samples ++ more).length/FSMN_VAD_CHUNK_SIZE = m+1 := by
      refine ⟨(samples ++ more).length/FSMN_VAD_CHUNK_SIZE-1,?_⟩
      rw [List.length_append]
      unfold FSMN_VAD_CHUNK_SIZE at enough ⊢
      omega
    cases scored : scoreAndSegment weights (samples.take FSMN_VAD_CHUNK_SIZE) false s with
    | error e t => rw [scoreInputFailed count scored,scoreInputFailed longer (first ▸ scored)]
    | ok segments t =>
      rw [scoreInputNext count scored,scoreInputNext longer (first ▸ scored),behind]
      have ih := ih ((scoreKeepsPending scored).trans emptied) (samples.drop FSMN_VAD_CHUNK_SIZE) rest
      cases served : scoreInput weights (samples.drop FSMN_VAD_CHUNK_SIZE) t with
      | error e u =>
        rw [served] at ih
        rw [bindFailed served,bindFailed ih]
      | ok later u =>
        rw [served] at ih
        rw [bindThen served]
        change (scoreInput weights (samples.drop FSMN_VAD_CHUNK_SIZE ++ more) >>= _) t =
          (scoreInput weights (u.pending ++ more) >>= fun rest => pure (segments ++ later ++ rest)) {u with pending := []}
        cases last : scoreInput weights (u.pending ++ more) {u with pending := []} with
        | error e v => rw [bindFailed last,bindFailed (ih.trans (bindFailed last))]
        | ok end_ v =>
          rw [bindThen last,bindThen (ih.trans (bindThen last)),List.append_assoc]

theorem scoreInputWaits {samples : List Int16} {segments : List (Nat × Nat)}
    (scored : scoreInput weights samples s = .ok segments t) : t.pending = leftover FSMN_VAD_CHUNK_SIZE samples := by
  obtain ⟨_,u,_,last⟩ := bindOk.mp scored
  cases last
  rfl

theorem pushAllCons (push : List Int16) (pushes : List (List Int16)) : pushAll weights (push::pushes) =
    pushSamplesI16 weights push >>= fun segments => pushAll weights pushes >>= fun more => pure (segments ++ more) := by
  unfold pushAll
  rw [List.mapM_cons]
  simp only [bind_assoc,pure_bind,List.flatten_cons]

theorem pushAllBuffered (short : s.pending.length < FSMN_VAD_CHUNK_SIZE) (pushes : List (List Int16)) :
    pushAll weights pushes s = scoreInput weights (s.pending ++ pushes.flatten) {s with pending := []} := by
  induction pushes generalizing s with
  | nil =>
    rw [List.flatten_nil,List.append_nil,scoreInputShort short]
    rfl
  | cons push pushes ih =>
    rw [pushAllCons,List.flatten_cons,← List.append_assoc,scoreInputAppend rfl]
    cases scored : scoreInput weights (s.pending ++ push) {s with pending := []} with
    | error e t => exact bindFailed ((pushBuffered short push).trans scored)
    | ok segments t =>
      have waits : t.pending.length < FSMN_VAD_CHUNK_SIZE := by
        rw [scoreInputWaits scored]
        exact leftoverLength (by decide)
      rw [bindThen ((pushBuffered short push).trans scored)]
      dsimp only
      cases later : scoreInput weights (t.pending ++ pushes.flatten) {t with pending := []} with
      | error e u => rw [bindFailed later,bindFailed ((ih waits).trans later)]
      | ok more u => rw [bindThen later,bindThen ((ih waits).trans later)]

def scoreStream (weights : FsmnVadWeights Row Cache) (samples : List Int16) :
    EStateM String (FsmnVadSession Cache) (List (Nat × Nat)) := do
  let segments ← scoreInput weights samples
  let more ← finishSegments weights
  return segments ++ more

theorem runStream (emptied : s.pending = []) (pushes : List (List Int16)) :
    runSession weights pushes s = scoreStream weights pushes.flatten s := by
  have short : s.pending.length < FSMN_VAD_CHUNK_SIZE := by rw [emptied]; decide
  have cleared : {s with pending := []} = s := by rw [← emptied]
  have pushed : pushAll weights pushes s = _ := pushAllBuffered short pushes
  rw [emptied,List.nil_append,cleared] at pushed
  unfold runSession scoreStream
  cases scored : scoreInput weights pushes.flatten s with
  | error e t => rw [bindFailed scored,bindFailed (pushed.trans scored)]
  | ok segments t => rw [bindThen scored,bindThen (pushed.trans scored)]

end Buffer

section Recording
variable {weights : FsmnVadWeights Row Cache} {s : FsmnVadSession (Cache × List (List Int16))}

def unrecorded (s : FsmnVadSession (Cache × List (List Int16))) : FsmnVadSession Cache := {s with caches := s.caches.1}

theorem scoreAlike (chunk : List Int16) (isFinal : Bool) :
    Alike unrecorded (scoreAndSegment (recording weights) chunk isFinal) (scoreAndSegment weights chunk isFinal) := by
  refine alikeBind (fun s => ?_) fun scores s => ⟨_,_,rfl,rfl,rfl⟩
  unfold frameScores zoom
  dsimp only [recording,unrecorded]
  rw [bindThen (modifyRun _ _)]
  unfold zoom
  dsimp only
  cases weights.forward (applyLfr lfrM lfrN (weights.fbank chunk)) chunk s.caches.1 with
  | ok scores caches => exact ⟨scores,_,rfl,rfl,rfl⟩
  | error e caches => exact ⟨_,rfl,rfl⟩

theorem fullAlike (n : Nat) (samples : List Int16) : Alike unrecorded (scoreFull (recording weights) n samples) (scoreFull weights n samples) := by
  induction n generalizing samples with
  | zero => exact alikePure []
  | succ n ih => exact alikeBind (scoreAlike _ false) fun _ => alikeBind (ih _) fun _ => alikePure _

theorem finishAlike : Alike unrecorded (finishSegments (recording weights)) (finishSegments weights) := by
  intro s
  by_cases empty : s.pending = []
  · change Simulates unrecorded _ ((if s.pending = [] then _ else _ : EStateM _ _ _) s)
      ((if s.pending = [] then _ else _ : EStateM _ _ _) (unrecorded s))
    rw [if_pos empty,if_pos empty]
    exact ⟨_,_,rfl,rfl,rfl⟩
  · change Simulates unrecorded _ ((if s.pending = [] then _ else _ : EStateM _ _ _) s)
      ((if s.pending = [] then _ else _ : EStateM _ _ _) (unrecorded s))
    rw [if_neg empty,if_neg empty]
    exact scoreAlike _ true {s with pending := []}

theorem streamAlike (samples : List Int16) : Alike unrecorded (scoreStream (recording weights) samples) (scoreStream weights samples) :=
  alikeBind (alikeBind (fullAlike _ _) fun _ => alikeBind (fun _ => ⟨_,_,rfl,rfl,rfl⟩) fun _ => alikePure _)
    fun _ => alikeBind finishAlike fun _ => alikePure _

theorem forwardAppend {weights : FsmnVadWeights Row Cache} (before rest : List (List Int16)) :
    forwardAll weights (before ++ rest) = forwardAll weights before >>= fun _ => forwardAll weights rest := by
  induction before with
  | nil => rfl
  | cons chunk before ih =>
    rw [List.cons_append,forwardAll,forwardAll,ih,bind_assoc]

theorem failsBefore {weights : FsmnVadWeights Row Cache} {caches : Cache} {first scored : List (List Int16)} {e : String}
    (fails : FailsOn weights caches first scored e) (rest : List (List Int16)) :
    FailsOn weights caches (first ++ rest) scored e := by
  obtain ⟨before,chunk,more,behind,failed,rfl,listed⟩ := fails
  exact ⟨before,chunk,more ++ rest,behind,failed,List.append_assoc _ _ _,listed⟩

theorem failsBehind {weights : FsmnVadWeights Row Cache} {caches t : Cache} {first rest scored : List (List Int16)} {e : String}
    (ran : forwardAll weights first caches = .ok () t) (fails : FailsOn weights t rest scored e) :
    FailsOn weights caches (first ++ rest) (first ++ scored) e := by
  obtain ⟨before,chunk,more,behind,failed,rfl,rfl,passed,stopped⟩ := fails
  refine ⟨first ++ before,chunk,more,behind,failed,(List.append_assoc _ _ _).symm,(List.append_assoc _ _ _).symm,?_,stopped⟩
  rw [forwardAppend,bindThen ran]
  exact passed

theorem failsAll {weights : FsmnVadWeights Row Cache} {caches : Cache} {chunks scored : List (List Int16)} {e : String}
    (fails : FailsOn weights caches chunks scored e) : ∃ t, forwardAll weights chunks caches = .error e t := by
  obtain ⟨before,chunk,more,behind,failed,rfl,_,passed,stopped⟩ := fails
  rw [forwardAppend,bindThen passed,forwardAll,bindFailed stopped]
  exact ⟨failed,rfl⟩

/- What has been scored when a computation ends: all of the chunks, or those up to the one the network fails on. -/
def Scores {α : Type} (weights : FsmnVadWeights Row Cache) (chunks : List (List Int16))
    (s : FsmnVadSession (Cache × List (List Int16))) : EStateM.Result String (FsmnVadSession (Cache × List (List Int16))) α → Prop
  | .ok _ t => t.caches.2 = s.caches.2 ++ chunks ∧ forwardAll weights chunks s.caches.1 = .ok () t.caches.1
  | .error e t => ∃ scored, t.caches.2 = s.caches.2 ++ scored ∧ FailsOn weights s.caches.1 chunks scored e

theorem scoresNone {α : Type} (a : α) {t : FsmnVadSession (Cache × List (List Int16))} (kept : t.caches = s.caches) :
    Scores weights [] s (.ok a t) := by
  refine ⟨?_,?_⟩
  · rw [kept,List.append_nil]
  · rw [kept]
    rfl

theorem scoresBind {α β : Type} {x : EStateM String (FsmnVadSession (Cache × List (List Int16))) α}
    {f : α → EStateM String (FsmnVadSession (Cache × List (List Int16))) β} {first rest : List (List Int16)}
    (head : Scores weights first s (x s)) (tail : ∀ a t, x s = .ok a t → Scores weights rest t (f a t)) :
    Scores weights (first ++ rest) s ((x >>= f) s) := by
  cases ran : x s with
  | error e t =>
    rw [ran] at head
    obtain ⟨scored,grown,fails⟩ := head
    rw [bindFailed ran]
    exact ⟨scored,grown,failsBefore fails rest⟩
  | ok a t =>
    rw [ran] at head
    obtain ⟨grown,passed⟩ := head
    have behind := tail a t ran
    rw [bindThen ran]
    cases last : f a t with
    | error e u =>
      rw [last] at behind
      obtain ⟨scored,longer,fails⟩ := behind
      exact ⟨first ++ scored,by rw [longer,grown,List.append_assoc],failsBehind passed fails⟩
    | ok b u =>
      rw [last] at behind
      obtain ⟨longer,through⟩ := behind
      refine ⟨by rw [longer,grown,List.append_assoc],?_⟩
      rw [forwardAppend,bindThen passed]
      exact through

theorem scoreScores (chunk : List Int16) (isFinal : Bool) :
    Scores weights [chunk] s (scoreAndSegment (recording weights) chunk isFinal s) := by
  have framed : Scores weights [chunk] s (frameScores (recording weights) chunk s) := by
    unfold frameScores zoom
    dsimp only [recording]
    rw [bindThen (modifyRun _ _)]
    unfold zoom
    dsimp only
    cases ran : weights.forward (applyLfr lfrM lfrN (weights.fbank chunk)) chunk s.caches.1 with
    | ok scores caches => exact ⟨rfl,bindThen ran⟩
    | error e caches => exact ⟨[chunk],rfl,[],chunk,[],s.caches.1,caches,rfl,rfl,rfl,ran⟩
  have segmented := scoresBind framed (f := fun scores => segment scores chunk isFinal) fun scores t _ =>
    scoresNone (s := t) _ rfl
  rw [List.append_nil] at segmented
  exact segmented

theorem fullScores (n : Nat) (samples : List Int16) :
    Scores weights (cut FSMN_VAD_CHUNK_SIZE n samples) s (scoreFull (recording weights) n samples s) := by
  induction n generalizing samples s with
  | zero => exact scoresNone [] rfl
  | succ n ih =>
    refine scoresBind (scoreScores _ false) fun segments t _ => ?_
    have rest := scoresBind (ih (samples.drop FSMN_VAD_CHUNK_SIZE) (s := t)) fun more u _ =>
      scoresNone (segments ++ more) (rfl : u.caches = u.caches)
    rw [List.append_nil] at rest
    exact rest

theorem finishScores : Scores weights (if s.pending = [] then [] else [padChunk s.pending]) s
    (finishSegments (recording weights) s) := by
  change Scores weights _ s ((if s.pending = [] then _ else _ : EStateM _ _ _) s)
  by_cases empty : s.pending = []
  · rw [if_pos empty,if_pos empty]
    exact scoresNone _ rfl
  · rw [if_neg empty,if_neg empty]
    exact scoreScores (s := {s with pending := []}) _ true

theorem streamScores (samples : List Int16) :
    Scores weights (streamChunks samples) s (scoreStream (recording weights) samples s) := by
  have input : Scores weights (cut FSMN_VAD_CHUNK_SIZE (samples.length/FSMN_VAD_CHUNK_SIZE) samples) s
      (scoreInput (recording weights) samples s) := by
    have scored : Scores weights _ s (scoreFull (recording weights) _ samples s) :=
      fullScores (samples.length/FSMN_VAD_CHUNK_SIZE) samples
    have full := scoresBind scored
      (f := fun segments => do
        modify fun s => {s with pending := leftover FSMN_VAD_CHUNK_SIZE samples}
        return segments) fun segments t _ => scoresNone segments rfl
    rw [List.append_nil] at full
    exact full
  refine scoresBind input fun segments t scored => ?_
  have finished : Scores weights _ t (finishSegments (recording weights) t) := finishScores
  have last := scoresBind finished (f := fun more => pure (segments ++ more))
    fun more u _ => scoresNone (segments ++ more) rfl
  rw [List.append_nil,scoreInputWaits scored] at last
  exact last

end Recording

section Split
variable {weights : FsmnVadWeights Row Cache}

theorem chunkLengths (samples : List Int16) : ∀ chunk ∈ streamChunks samples, chunk.length = FSMN_VAD_CHUNK_SIZE := by
  intro chunk inside
  have short : (leftover FSMN_VAD_CHUNK_SIZE samples).length < FSMN_VAD_CHUNK_SIZE := leftoverLength (by decide)
  rcases List.mem_append.mp inside with whole | last
  · exact cutLengths (Nat.div_mul_le_self _ _) chunk whole
  · split at last
    · cases last
    · obtain rfl := List.mem_singleton.mp last
      rw [padChunk,List.length_append,List.length_replicate]
      omega

theorem chunksFlatten (samples : List Int16) :
    ∃ zeros < FSMN_VAD_CHUNK_SIZE, (streamChunks samples).flatten = samples ++ List.replicate zeros 0 := by
  have whole : (cut FSMN_VAD_CHUNK_SIZE (samples.length/FSMN_VAD_CHUNK_SIZE) samples).flatten ++
      leftover FSMN_VAD_CHUNK_SIZE samples = samples := cutLeftover samples
  unfold streamChunks
  dsimp only
  rw [List.flatten_append]
  split
  next empty =>
    rw [empty] at whole
    exact ⟨0,by decide,by rw [List.flatten_nil,whole,List.replicate_zero,List.append_nil]⟩
  next some_ =>
    have positive := List.length_pos_iff.mpr some_
    refine ⟨FSMN_VAD_CHUNK_SIZE-(leftover FSMN_VAD_CHUNK_SIZE samples).length,Nat.sub_lt (by decide) positive,?_⟩
    rw [List.flatten_singleton,padChunk,← List.append_assoc,whole]

theorem failsPrefix {caches : Cache} {chunks scored : List (List Int16)} {e : String}
    (fails : FailsOn weights caches chunks scored e) : scored <+: chunks := by
  obtain ⟨before,chunk,rest,_,_,rfl,rfl,_⟩ := fails
  exact ⟨rest,by rw [List.append_assoc,List.singleton_append]⟩

/-- However a stream is cut into pushes, a session scores its consecutive chunks, each once, the last one filled up with
zeros. Where the network scores them all the session returns and has scored them all; where it fails on one, the session
ends with its error and has scored those up to that one. -/
theorem splitScoresAlike (weights : FsmnVadWeights Row Cache) (minSilenceMs : Nat) (pushes pushes' : List (List Int16))
    (same : pushes.flatten = pushes'.flatten) :
    scoredChunks weights minSilenceMs pushes = scoredChunks weights minSilenceMs pushes' ∧
    runSession weights pushes (.new weights minSilenceMs) = runSession weights pushes' (.new weights minSilenceMs) ∧
    outcome (recorded weights minSilenceMs pushes) = outcome (runSession weights pushes (.new weights minSilenceMs)) ∧
    scoredChunks weights minSilenceMs pushes <+: streamChunks pushes.flatten ∧
    ((returned (forwardAll weights (streamChunks pushes.flatten) weights.zeroCaches)).isSome →
      (returned (runSession weights pushes (.new weights minSilenceMs))).isSome) ∧
    ((returned (runSession weights pushes (.new weights minSilenceMs))).isSome →
      scoredChunks weights minSilenceMs pushes = streamChunks pushes.flatten) ∧
    (∀ e, outcome (runSession weights pushes (.new weights minSilenceMs)) = .error e →
      FailsOn weights weights.zeroCaches (streamChunks pushes.flatten) (scoredChunks weights minSilenceMs pushes) e) ∧
    (∀ chunk ∈ streamChunks pushes.flatten, chunk.length = FSMN_VAD_CHUNK_SIZE) ∧
    ∃ zeros < FSMN_VAD_CHUNK_SIZE, (streamChunks pushes.flatten).flatten = pushes.flatten ++ List.replicate zeros 0 := by
  have run (pushes : List (List Int16)) : recorded weights minSilenceMs pushes =
      scoreStream (recording weights) pushes.flatten (.new (recording weights) minSilenceMs) := runStream rfl pushes
  have alike : outcome (recorded weights minSilenceMs pushes) =
      outcome (runSession weights pushes (.new weights minSilenceMs)) := by
    rw [run,runStream rfl]
    exact (simulatesOutcome (streamAlike pushes.flatten (.new (recording weights) minSilenceMs)) fun _ _ _ same => same).1
  have again : scoredChunks weights minSilenceMs pushes = scoredChunks weights minSilenceMs pushes' := by
    unfold scoredChunks
    rw [run,run,same]
  have listed := @streamScores Row Cache weights (.new (recording weights) minSilenceMs) pushes.flatten
  refine ⟨again,by rw [runStream rfl,runStream rfl,same],alike,?_⟩
  rw [← alike]
  rw [← run] at listed
  have some_ : (returned (runSession weights pushes (.new weights minSilenceMs))).isSome =
      (returned (recorded weights minSilenceMs pushes)).isSome := by
    rw [returnedOutcome,returnedOutcome,alike]
  rw [some_]
  unfold scoredChunks
  cases ended : recorded weights minSilenceMs pushes with
  | ok segments t =>
    rw [ended] at listed
    have scored : t.caches.2 = streamChunks pushes.flatten := listed.1
    exact ⟨scored ▸ List.prefix_refl _,fun _ => rfl,fun _ => scored,fun e failed => (by cases failed),
      chunkLengths _,chunksFlatten _⟩
  | error e t =>
    rw [ended] at listed
    obtain ⟨scored,grown,fails⟩ := listed
    have grown : t.caches.2 = scored := grown
    have stopped := failsAll fails
    obtain rfl := grown
    refine ⟨failsPrefix fails,fun some_ => ?_,fun some_ => (by cases some_),fun e failed => ?_,chunkLengths _,chunksFlatten _⟩
    · obtain ⟨u,stopped⟩ := stopped
      have zero : (FsmnVadSession.new (recording weights) minSilenceMs).caches.1 = weights.zeroCaches := rfl
      rw [← zero,stopped] at some_
      cases some_
    · cases failed
      exact fails

theorem countingForwards (chunks : List (List Int16)) : forwardAll countingWeights chunks () = .ok () () := by
  induction chunks with
  | nil => rfl
  | cons chunk rest ih => exact ih

/- A push that ends one sample before a chunk does, and one that goes two samples on. -/
theorem twoSplitsScoreAlike :
    [List.replicate 511 (0 : Int16),List.replicate 3 0].flatten = [List.replicate 514 0].flatten ∧
    scoredChunks countingWeights 800 [List.replicate 511 0,List.replicate 3 0] =
      scoredChunks countingWeights 800 [List.replicate 514 0] ∧
    scoredChunks countingWeights 800 [List.replicate 511 0,List.replicate 3 0] =
      [List.replicate 512 0,padChunk (List.replicate 2 0)] := by
  have same : [List.replicate 511 (0 : Int16),List.replicate 3 0].flatten = [List.replicate 514 0].flatten := by
    rw [List.flatten_cons,List.flatten_singleton,List.flatten_singleton,List.replicate_append_replicate]
  have chunks : streamChunks [List.replicate 511 (0 : Int16),List.replicate 3 0].flatten =
      [List.replicate 512 0,padChunk (List.replicate 2 0)] := by decide +kernel
  obtain ⟨alike,_,_,_,returns,all,_⟩ := splitScoresAlike countingWeights 800 [List.replicate 511 0,List.replicate 3 0]
    [List.replicate 514 0] same
  have forwarded := countingForwards (streamChunks [List.replicate 511 (0 : Int16),List.replicate 3 0].flatten)
  have some_ : (returned (forwardAll countingWeights
      (streamChunks [List.replicate 511 (0 : Int16),List.replicate 3 0].flatten) countingWeights.zeroCaches)).isSome := by
    rw [show countingWeights.zeroCaches = () from rfl,forwarded]
    rfl
  exact ⟨same,alike,(all (returns some_)).trans chunks⟩

end Split
end Qwen3Asr.VadChunks
