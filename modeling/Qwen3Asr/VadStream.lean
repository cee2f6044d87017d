import Mathlib.Algebra.GroupWithZero.Nat
import Qwen3Asr.E2EVadChunks
import Qwen3Asr.Library.Effect

/-! The streaming session of the detector. Samples wait until they fill a chunk, and every chunk
is framed on its own; the filter bank, the network and the decision per frame are parameters. -/
namespace Qwen3Asr.VadStream
open Library.Effect Library.Word
open E2EVad E2EVadModel E2EVadChunks

def FSMN_VAD_CHUNK_SIZE : Nat := 512
def FSMN_VAD_FRAME_SHIFT_SAMPLES : Nat := 160
def FSMN_VAD_FRAME_LENGTH_SAMPLES : Nat := 400

def lfrM : Nat := 5
def lfrN : Nat := 1

/- `forward` gives the decision of each frame of a chunk and moves the caches on. -/
structure FsmnVadWeights (Row Cache : Type) where
  fbank : List Int16 → List Row
  forward : List (List Row) → List Int16 → EStateM String Cache (List FrameState)
  zeroCaches : Cache

structure FsmnVadSession (Cache : Type) where
  caches : Cache
  e2e : E2EVadModel
  minSilenceMs : Nat
  pending : List Int16

variable {Row Cache : Type}

/- Each row is joined with those around it, the first and the last repeated at the ends. -/
def applyLfr (lfrM lfrN : Nat) (fbank : List Row) : List (List Row) := match fbank with
  | [] => []
  | first::rest =>
    let padded := List.replicate ((lfrM-1)/2) first ++ fbank
    (List.range ((fbank.length+lfrN-1)/lfrN)).map fun i =>
      let frame := (padded.drop (i*lfrN)).take lfrM
      frame ++ List.replicate (lfrM-frame.length) (rest.getLastD first)

def splitFullChunks (samples : List Int16) : List Int16 × List Int16 :=
  let fullLen := samples.length/FSMN_VAD_CHUNK_SIZE*FSMN_VAD_CHUNK_SIZE
  (samples.take fullLen,samples.drop fullLen)

def padChunk (pending : List Int16) : List Int16 :=
  pending ++ List.replicate (FSMN_VAD_CHUNK_SIZE-pending.length) 0

namespace FsmnVadSession

def new (weights : FsmnVadWeights Row Cache) (minSilenceMs : Nat) : FsmnVadSession Cache where
  caches := weights.zeroCaches
  e2e := .new {}
  minSilenceMs
  pending := []

def frameScores (weights : FsmnVadWeights Row Cache) (chunk : List Int16) :
    EStateM String (FsmnVadSession Cache) (List FrameState) :=
  zoom FsmnVadSession.caches (fun caches s => {s with caches})
    (weights.forward (applyLfr lfrM lfrN (weights.fbank chunk)) chunk)

def segment (scores : List FrameState) (chunk : List Int16) (isFinal : Bool) :
    EStateM String (FsmnVadSession Cache) (List (Nat × Nat)) := do
  let s ← get
  let (segments,e2e) := s.e2e.detectChunk scores chunk.length isFinal (asI32 s.minSilenceMs)
  set {s with e2e}
  return segments

def scoreAndSegment (weights : FsmnVadWeights Row Cache) (chunk : List Int16) (isFinal : Bool) :
    EStateM String (FsmnVadSession Cache) (List (Nat × Nat)) := do
  let scores ← frameScores weights chunk
  segment scores chunk isFinal

def fillPending (weights : FsmnVadWeights Row Cache) (samples : List Int16) :
    EStateM String (FsmnVadSession Cache) (List (Nat × Nat) × List Int16) := do
  let s ← get
  if s.pending = [] then return ([],samples) else
    let needed := FSMN_VAD_CHUNK_SIZE-s.pending.length
    let take := min needed samples.length
    let pending := s.pending ++ samples.take take
    let input := samples.drop take
    if pending.length = FSMN_VAD_CHUNK_SIZE then
      set {s with pending := []}
      let segments ← scoreAndSegment weights pending false
      return (segments,input)
    else
      set {s with pending}
      return ([],input)

def scoreFull (weights : FsmnVadWeights Row Cache) : Nat → List Int16 →
    EStateM String (FsmnVadSession Cache) (List (Nat × Nat))
  | 0, _ => return []
  | n+1, samples => do
    let segments ← scoreAndSegment weights (samples.take FSMN_VAD_CHUNK_SIZE) false
    let more ← scoreFull weights n (samples.drop FSMN_VAD_CHUNK_SIZE)
    return segments ++ more

def pushSamplesI16 (weights : FsmnVadWeights Row Cache) (samples : List Int16) :
    EStateM String (FsmnVadSession Cache) (List (Nat × Nat)) := do
  let (segments,input) ← fillPending weights samples
  let (fullChunks,tail) := splitFullChunks input
  let more ← scoreFull weights (fullChunks.length/FSMN_VAD_CHUNK_SIZE) fullChunks
  modify fun s => {s with pending := s.pending ++ tail}
  return segments ++ more

def finishSegments (weights : FsmnVadWeights Row Cache) :
    EStateM String (FsmnVadSession Cache) (List (Nat × Nat)) := do
  let s ← get
  if s.pending = [] then
    let (segments,e2e) := s.e2e.finalizeStreaming (asI32 s.minSilenceMs)
    set {s with e2e}
    return segments
  else
    set {s with pending := []}
    scoreAndSegment weights (padChunk s.pending) true

def pushAll (weights : FsmnVadWeights Row Cache) (pushes : List (List Int16)) :
    EStateM String (FsmnVadSession Cache) (List (Nat × Nat)) := do
  let segments ← pushes.mapM (pushSamplesI16 weights)
  return segments.flatten

/- The frame counter at the end of a session, as the last call has it before it resets. -/
def finishClock (weights : FsmnVadWeights Row Cache) : EStateM String (FsmnVadSession Cache) Int := do
  let s ← get
  if s.pending = [] then return s.e2e.frmCnt else
    let scores ← frameScores weights (padChunk s.pending)
    return (s.e2e.computeScores scores).frmCnt

end FsmnVadSession
open FsmnVadSession

section Chunks
variable {weights : FsmnVadWeights Row Cache} {s t : FsmnVadSession Cache}

theorem scoreFullTake (n : Nat) (samples : List Int16) :
    scoreFull weights n samples = scoreFull weights n (samples.take (n*FSMN_VAD_CHUNK_SIZE)) := by
  induction n generalizing samples with
  | zero => rfl
  | succ n ih =>
    have first : (samples.take ((n+1)*FSMN_VAD_CHUNK_SIZE)).take FSMN_VAD_CHUNK_SIZE = samples.take FSMN_VAD_CHUNK_SIZE := by
      rw [List.take_take,Nat.min_eq_left (Nat.le_mul_of_pos_left _ (Nat.succ_pos n))]
    have rest : (samples.take ((n+1)*FSMN_VAD_CHUNK_SIZE)).drop FSMN_VAD_CHUNK_SIZE =
        (samples.drop FSMN_VAD_CHUNK_SIZE).take (n*FSMN_VAD_CHUNK_SIZE) := by
      rw [List.drop_take,Nat.succ_mul,Nat.add_sub_cancel]
    unfold scoreFull
    rw [first,rest,← ih]

theorem scoreKeepsPending {chunk : List Int16} {isFinal : Bool} {segments : List (Nat × Nat)}
    (scored : scoreAndSegment weights chunk isFinal s = .ok segments t) : t.pending = s.pending := by
  obtain ⟨scores,u,framed,segmented⟩ := bindOk.mp scored
  obtain ⟨caches,_,rfl⟩ := zoomOk.mp framed
  cases segmented
  rfl

theorem fullKeepsPending (n : Nat) {samples : List Int16} {segments : List (Nat × Nat)}
    (scored : scoreFull weights n samples s = .ok segments t) : t.pending = s.pending := by
  induction n generalizing samples segments s with
  | zero => cases scored; rfl
  | succ n ih =>
    obtain ⟨_,u,first,scored⟩ := bindOk.mp scored
    obtain ⟨_,v,rest,last⟩ := bindOk.mp scored
    cases last
    exact (ih rest).trans (scoreKeepsPending first)

theorem splitScores (input : List Int16) : scoreFull weights
    ((splitFullChunks input).1.length/FSMN_VAD_CHUNK_SIZE) (splitFullChunks input).1 =
      scoreFull weights (input.length/FSMN_VAD_CHUNK_SIZE) input := by
  have within : input.length/FSMN_VAD_CHUNK_SIZE*FSMN_VAD_CHUNK_SIZE ≤ input.length := Nat.div_mul_le_self _ _
  have count : (splitFullChunks input).1.length/FSMN_VAD_CHUNK_SIZE = input.length/FSMN_VAD_CHUNK_SIZE := by
    rw [splitFullChunks,List.length_take,Nat.min_eq_left within]
    exact Nat.mul_div_cancel _ (by decide)
  rw [count]
  exact (scoreFullTake _ input).symm

def scoreInput (weights : FsmnVadWeights Row Cache) (input : List Int16) :
    EStateM String (FsmnVadSession Cache) (List (Nat × Nat)) := do
  let segments ← scoreFull weights (input.length/FSMN_VAD_CHUNK_SIZE) input
  modify fun s => {s with pending := input.drop (input.length/FSMN_VAD_CHUNK_SIZE*FSMN_VAD_CHUNK_SIZE)}
  return segments

theorem pushFilled {samples input : List Int16} {segments : List (Nat × Nat)} (emptied : t.pending = [])
    (filled : fillPending weights samples s = .ok (segments,input) t) :
    pushSamplesI16 weights samples s = (scoreInput weights input >>= fun more => pure (segments ++ more)) t := by
  have pushed : pushSamplesI16 weights samples s = _ := bindThen filled
  unfold scoreInput
  rw [pushed]
  dsimp only
  rw [splitScores,bind_assoc]
  cases scored : scoreFull weights (input.length/FSMN_VAD_CHUNK_SIZE) input t with
  | error e u => rw [bindFailed scored,bindFailed scored]
  | ok more u =>
    have kept : u.pending = [] := (fullKeepsPending _ scored).trans emptied
    rw [bindThen scored,bindThen scored]
    change EStateM.Result.ok _ {u with pending := u.pending ++ _} = _
    rw [kept]
    rfl

theorem scoreInputNext {input : List Int16} {n : Nat} {segments : List (Nat × Nat)}
    (count : input.length/FSMN_VAD_CHUNK_SIZE = n+1)
    (scored : scoreAndSegment weights (input.take FSMN_VAD_CHUNK_SIZE) false s = .ok segments t) :
    scoreInput weights input s = (scoreInput weights (input.drop FSMN_VAD_CHUNK_SIZE) >>= fun more =>
      pure (segments ++ more)) t := by
  have rest : (input.drop FSMN_VAD_CHUNK_SIZE).length/FSMN_VAD_CHUNK_SIZE = n := by
    unfold FSMN_VAD_CHUNK_SIZE at count ⊢
    rw [List.length_drop]
    omega
  have tail : input.drop ((n+1)*FSMN_VAD_CHUNK_SIZE) = (input.drop FSMN_VAD_CHUNK_SIZE).drop (n*FSMN_VAD_CHUNK_SIZE) := by
    rw [List.drop_drop,Nat.succ_mul,Nat.add_comm]
  unfold scoreInput
  rw [count,rest,tail,scoreFull]
  simp only [bind_assoc,pure_bind]
  exact bindThen scored

theorem scoreInputFailed {input : List Int16} {n : Nat} {e : String}
    (count : input.length/FSMN_VAD_CHUNK_SIZE = n+1)
    (failed : scoreAndSegment weights (input.take FSMN_VAD_CHUNK_SIZE) false s = .error e t) :
    scoreInput weights input s = .error e t := by
  unfold scoreInput
  rw [count,scoreFull,bind_assoc]
  exact bindFailed failed

theorem chunkFilled {pending samples : List Int16} (short : pending.length < FSMN_VAD_CHUNK_SIZE)
    (enough : FSMN_VAD_CHUNK_SIZE-pending.length ≤ samples.length) :
    (pending ++ samples).take FSMN_VAD_CHUNK_SIZE = pending ++ samples.take (FSMN_VAD_CHUNK_SIZE-pending.length) ∧
    (pending ++ samples).drop FSMN_VAD_CHUNK_SIZE = samples.drop (FSMN_VAD_CHUNK_SIZE-pending.length) ∧
    (pending ++ samples).length/FSMN_VAD_CHUNK_SIZE =
      (samples.drop (FSMN_VAD_CHUNK_SIZE-pending.length)).length/FSMN_VAD_CHUNK_SIZE+1 := by
  have long : (pending ++ samples).length =
      (samples.drop (FSMN_VAD_CHUNK_SIZE-pending.length)).length+FSMN_VAD_CHUNK_SIZE := by
    rw [List.length_append,List.length_drop]
    omega
  refine ⟨?_,?_,?_⟩
  · rw [List.take_append,List.take_of_length_le (Nat.le_of_lt short)]
  · rw [List.drop_append,List.drop_of_length_le (Nat.le_of_lt short),List.nil_append]
  · rw [long]
    exact Nat.add_div_right _ (by decide)

/-- A push cuts the samples that waited and the new ones into chunks together. -/
theorem pushBuffered (short : s.pending.length < FSMN_VAD_CHUNK_SIZE) (samples : List Int16) :
    pushSamplesI16 weights samples s = scoreInput weights (s.pending ++ samples) {s with pending := []} := by
  by_cases empty : s.pending = []
  · have cleared : {s with pending := []} = s := by rw [← empty]
    have filled : fillPending weights samples s = .ok ([],samples) s := by
      change (if s.pending = [] then _ else _ : EStateM _ _ _) s = _
      rw [if_pos empty]
      rfl
    rw [pushFilled empty filled,cleared,empty]
    exact congrFun (bind_pure _) s
  · by_cases enough : FSMN_VAD_CHUNK_SIZE-s.pending.length ≤ samples.length
    · obtain ⟨chunk,rest,count⟩ := chunkFilled short enough
      have full : (s.pending ++ samples.take (FSMN_VAD_CHUNK_SIZE-s.pending.length)).length = FSMN_VAD_CHUNK_SIZE := by
        rw [List.length_append,List.length_take]
        omega
      have filled : fillPending weights samples s =
          (do
            let segments ← scoreAndSegment weights ((s.pending ++ samples).take FSMN_VAD_CHUNK_SIZE) false
            return (segments,(s.pending ++ samples).drop FSMN_VAD_CHUNK_SIZE) :
              EStateM String (FsmnVadSession Cache) _) {s with pending := []} := by
        change (if s.pending = [] then _ else if _ then _ else _ : EStateM _ _ _) s = _
        rw [if_neg empty,Nat.min_eq_left enough,if_pos full,chunk,rest]
        rfl
      rw [← rest] at count
      cases scored : scoreAndSegment weights ((s.pending ++ samples).take FSMN_VAD_CHUNK_SIZE) false
        {s with pending := []} with
      | error e t =>
        have failed : fillPending weights samples s = .error e t := filled.trans (bindFailed scored)
        rw [scoreInputFailed count scored]
        exact bindFailed failed
      | ok segments t =>
        have served : fillPending weights samples s = .ok (segments,(s.pending ++ samples).drop FSMN_VAD_CHUNK_SIZE) t :=
          filled.trans (bindThen scored)
        rw [pushFilled (scoreKeepsPending scored) served,scoreInputNext count scored]
    · have fits : (s.pending ++ samples).length < FSMN_VAD_CHUNK_SIZE := by
        rw [List.length_append]
        omega
      have none : (s.pending ++ samples).length/FSMN_VAD_CHUNK_SIZE = 0 := Nat.div_eq_of_lt fits
      have filled : fillPending weights samples s = .ok ([],[]) {s with pending := s.pending ++ samples} := by
        have partly : (s.pending ++ samples).length ≠ FSMN_VAD_CHUNK_SIZE := Nat.ne_of_lt fits
        change (if s.pending = [] then _ else if _ then _ else _ : EStateM _ _ _) s = _
        rw [if_neg empty,Nat.min_eq_right (by omega),List.take_length,if_neg partly,List.drop_length]
        rfl
      have waits : pushSamplesI16 weights samples s = .ok [] {s with pending := s.pending ++ samples ++ []} :=
        bindThen filled
      unfold scoreInput
      rw [waits,none,List.append_nil (s.pending ++ samples)]
      rfl

end Chunks

section Clock
variable {weights : FsmnVadWeights Row Cache} {s t : FsmnVadSession Cache} {total : Nat} {segments : List (Nat × Nat)}

def fbankFrames (n : Nat) : Nat :=
  if n < FSMN_VAD_FRAME_LENGTH_SAMPLES then 0
  else (n-FSMN_VAD_FRAME_LENGTH_SAMPLES)/FSMN_VAD_FRAME_SHIFT_SAMPLES+1

structure Framing (weights : FsmnVadWeights Row Cache) : Prop where
  fbank : ∀ samples, (weights.fbank samples).length = fbankFrames samples.length
  forward : ∀ feats chunk caches scores after, weights.forward feats chunk caches = .ok scores after →
    scores.length = feats.length

theorem lfrLength (rows : List Row) : (applyLfr lfrM lfrN rows).length = rows.length := by
  cases rows <;> simp [applyLfr,lfrN]

theorem frameScoresLength (framing : Framing weights) {chunk : List Int16} {scores : List FrameState}
    (scored : frameScores weights chunk s = .ok scores t) :
    scores.length = fbankFrames chunk.length ∧ t.e2e = s.e2e := by
  obtain ⟨caches,forwarded,rfl⟩ := zoomOk.mp scored
  have length := framing.forward _ _ _ _ _ forwarded
  rw [lfrLength,framing.fbank] at length
  exact ⟨length,rfl⟩

theorem commonCount (m : E2EVadModel) (scores : List FrameState) (samples : Nat) (maxEndSilenceMs : Int) :
    (m.detectChunk scores samples false maxEndSilenceMs).2.frmCnt = m.frmCnt+scores.length := by
  obtain ⟨count,_⟩ := enteredCount m scores samples maxEndSilenceMs
  have detected : ((entered m scores samples maxEndSilenceMs).detectCommonFrames scores).frmCnt =
      (entered m scores samples maxEndSilenceMs).frmCnt := by
    unfold detectCommonFrames
    split
    · rfl
    · exact congrArg Prod.fst (loopKeeps scores false scores.length _)
  exact detected.trans count

theorem chunkFrames : fbankFrames FSMN_VAD_CHUNK_SIZE = 1 := rfl

theorem scoreCount (framing : Framing weights) {chunk : List Int16} (full : chunk.length = FSMN_VAD_CHUNK_SIZE)
    (scored : scoreAndSegment weights chunk false s = .ok segments t) : t.e2e.frmCnt = s.e2e.frmCnt+1 := by
  obtain ⟨scores,u,framed,segmented⟩ := bindOk.mp scored
  obtain ⟨length,same⟩ := frameScoresLength framing framed
  rw [full,chunkFrames] at length
  cases segmented
  change (u.e2e.detectChunk scores chunk.length false _).2.frmCnt = _
  rw [commonCount,same,length]
  rfl

theorem fullCount (framing : Framing weights) (n : Nat) {samples : List Int16}
    (long : n*FSMN_VAD_CHUNK_SIZE ≤ samples.length) (scored : scoreFull weights n samples s = .ok segments t) :
    t.e2e.frmCnt = s.e2e.frmCnt+n := by
  induction n generalizing samples segments s with
  | zero => cases scored; exact (Int.add_zero _).symm
  | succ n ih =>
    rw [Nat.succ_mul] at long
    obtain ⟨_,u,first,scored⟩ := bindOk.mp scored
    obtain ⟨_,v,rest,last⟩ := bindOk.mp scored
    cases last
    have head := scoreCount framing (List.length_take_of_le (by omega)) first
    have tail := ih (by rw [List.length_drop]; omega) rest
    omega

structure Clock (s : FsmnVadSession Cache) (total : Nat) : Prop where
  count : s.e2e.frmCnt = (total/FSMN_VAD_CHUNK_SIZE : Nat)
  waiting : s.pending.length = total%FSMN_VAD_CHUNK_SIZE

theorem pushClock (framing : Framing weights) (clock : Clock s total) {samples : List Int16}
    (pushed : pushSamplesI16 weights samples s = .ok segments t) : Clock t (total+samples.length) := by
  obtain ⟨count,waiting⟩ := clock
  have short : s.pending.length < FSMN_VAD_CHUNK_SIZE := by rw [waiting]; exact Nat.mod_lt _ (by decide)
  rw [pushBuffered short] at pushed
  obtain ⟨_,u,scored,last⟩ := bindOk.mp pushed
  have counted := fullCount framing _ (Nat.div_mul_le_self _ _) scored
  cases last
  have length : (s.pending ++ samples).length = total%FSMN_VAD_CHUNK_SIZE+samples.length := by
    rw [List.length_append,waiting]
  rw [length] at counted
  refine ⟨?_,?_⟩
  · change u.e2e.frmCnt = _
    dsimp only at counted
    unfold FSMN_VAD_CHUNK_SIZE at *
    omega
  · change ((s.pending ++ samples).drop _).length = _
    rw [List.length_drop,length]
    unfold FSMN_VAD_CHUNK_SIZE
    omega

theorem pushesClock (framing : Framing weights) {pushes : List (List Int16)} {outputs : List (List (Nat × Nat))}
    (chain : Chain (pushSamplesI16 weights) pushes s outputs t) (clock : Clock s total) :
    Clock t (total+(pushes.map List.length).sum) := by
  induction chain generalizing total with
  | nil s => exact clock
  | cons head _ ih =>
    have rest := ih (pushClock framing clock head)
    rw [List.map_cons,List.sum_cons,← Nat.add_assoc]
    exact rest

theorem finishCount (framing : Framing weights) (clock : Clock s total) {frames : Int}
    (finished : finishClock weights s = .ok frames t) :
    frames = ((total+FSMN_VAD_CHUNK_SIZE-1)/FSMN_VAD_CHUNK_SIZE : Nat) := by
  obtain ⟨count,waiting⟩ := clock
  obtain ⟨_,_,here,finished⟩ := bindOk.mp finished
  cases here
  by_cases empty : s.pending = []
  · rw [if_pos empty] at finished
    cases finished
    rw [empty,List.length_nil] at waiting
    unfold FSMN_VAD_CHUNK_SIZE at *
    omega
  · rw [if_neg empty] at finished
    obtain ⟨scores,u,framed,last⟩ := bindOk.mp finished
    obtain ⟨length,_⟩ := frameScoresLength framing framed
    have some := List.length_pos_iff.mpr empty
    have padded : (padChunk s.pending).length = FSMN_VAD_CHUNK_SIZE := by
      have short : total%FSMN_VAD_CHUNK_SIZE < FSMN_VAD_CHUNK_SIZE := Nat.mod_lt _ (by decide)
      rw [padChunk,List.length_append,List.length_replicate]
      omega
    rw [padded,chunkFrames] at length
    cases last
    dsimp only [computeScores]
    unfold FSMN_VAD_CHUNK_SIZE at *
    omega

def streamClock (weights : FsmnVadWeights Row Cache) (pushes : List (List Int16)) :
    EStateM String (FsmnVadSession Cache) Int := do
  let _ ← pushAll weights pushes
  finishClock weights

def streamFrames (weights : FsmnVadWeights Row Cache) (minSilenceMs : Nat) (pushes : List (List Int16)) :
    Except String Int := match streamClock weights pushes (.new weights minSilenceMs) with
  | .ok frames _ => .ok frames
  | .error e _ => .error e

theorem newClock (weights : FsmnVadWeights Row Cache) (minSilenceMs : Nat) : Clock (.new weights minSilenceMs) 0 :=
  ⟨rfl,rfl⟩

theorem streamCount (framing : Framing weights) {minSilenceMs : Nat} {pushes : List (List Int16)} {frames : Int}
    (ran : streamFrames weights minSilenceMs pushes = .ok frames) :
    frames = (((pushes.map List.length).sum+FSMN_VAD_CHUNK_SIZE-1)/FSMN_VAD_CHUNK_SIZE : Nat) := by
  unfold streamFrames at ran
  split at ran <;> cases ran
  next clocked =>
  obtain ⟨_,u,pushed,finished⟩ := bindOk.mp clocked
  obtain ⟨_,v,each,last⟩ := bindOk.mp pushed
  cases last
  have clock := pushesClock framing (mapMChain.mp each) (newClock weights minSilenceMs)
  rw [Nat.zero_add] at clock
  exact finishCount framing clock finished

/- The offline count of the samples, up to the zeros that may pad the final chunk. -/
def ClockAgrees (samples : Nat) (frames : Int) : Prop :=
  fbankFrames samples ≤ frames ∧
  frames ≤ fbankFrames ((samples+FSMN_VAD_CHUNK_SIZE-1)/FSMN_VAD_CHUNK_SIZE*FSMN_VAD_CHUNK_SIZE)

/-- The frame counter of a session is the clock of its audio exactly if it has fewer than 720
samples: each chunk of 512 samples is framed on its own and counts as one frame. -/
theorem clockAgreesIffShort (framing : Framing weights) (minSilenceMs : Nat) (pushes : List (List Int16)) (frames : Int)
    (enough : 400 ≤ (pushes.map List.length).sum) (ran : streamFrames weights minSilenceMs pushes = .ok frames) :
    ClockAgrees (pushes.map List.length).sum frames ↔ (pushes.map List.length).sum < 720 := by
  have count := streamCount framing ran
  generalize (pushes.map List.length).sum = total at *
  subst count
  have offline : fbankFrames total = (total-400)/160+1 := if_neg (by unfold FSMN_VAD_FRAME_LENGTH_SAMPLES; omega)
  have padded : fbankFrames ((total+511)/512*512) = ((total+511)/512*512-400)/160+1 :=
    if_neg (by unfold FSMN_VAD_FRAME_LENGTH_SAMPLES; omega)
  change fbankFrames total ≤ (((total+511)/512 : Nat) : Int) ∧
    (((total+511)/512 : Nat) : Int) ≤ fbankFrames ((total+511)/512*512) ↔ total < 720
  rw [offline,padded]
  omega

def countingWeights : FsmnVadWeights Unit Unit where
  fbank samples := List.replicate (fbankFrames samples.length) ()
  forward feats _ := return feats.map fun _ => .sil
  zeroCaches := ()

theorem countingFraming : Framing countingWeights where
  fbank _ := List.length_replicate
  forward feats chunk caches scores after forwarded := by
    cases forwarded
    exact List.length_map _

theorem shortStreamAgrees : streamFrames countingWeights 800 [List.replicate 300 0,List.replicate 400 0] = .ok 2 ∧
    (ClockAgrees ([List.replicate 300 (0 : Int16),List.replicate 400 0].map List.length).sum 2 ↔
      ([List.replicate 300 (0 : Int16),List.replicate 400 0].map List.length).sum < 720) := by
  have ran : streamFrames countingWeights 800 [List.replicate 300 0,List.replicate 400 0] = .ok 2 := by decide +kernel
  have enough : 400 ≤ ([List.replicate 300 (0 : Int16),List.replicate 400 0].map List.length).sum := by
    simp only [List.map_cons,List.map_nil,List.length_replicate]
    decide
  exact ⟨ran,clockAgreesIffShort countingFraming 800 [List.replicate 300 0,List.replicate 400 0] 2 enough ran⟩

/- Two chunks advance two frames; their 1024 samples are four. -/
theorem twoChunksFallBehind : streamFrames countingWeights 800 [List.replicate 1024 0] = .ok 2 ∧
    ¬ClockAgrees (([List.replicate 1024 (0 : Int16)].map List.length).sum) 2 := by
  refine ⟨by decide +kernel,fun agrees => ?_⟩
  simp only [List.map_cons,List.map_nil,List.length_replicate] at agrees
  exact absurd agrees.1 (by decide)

end Clock
end Qwen3Asr.VadStream
