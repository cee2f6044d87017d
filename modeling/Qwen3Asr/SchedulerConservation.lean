import Qwen3Asr.BlockConservation
import Qwen3Asr.SchedulerRules

/-! Conservation of blocks over a call of the scheduler. The blocks held are those of the
running slots, whatever fails, until a prefill fails with blocks taken. -/
namespace Qwen3Asr.SchedulerConservation
open Library.Effect Library.Word Library.Loop Library.Scatter
open BlockManager PagedMetadata BatchEngine DecodeOutcome PrefillOutcome SlotFate
open BlockOwnership BlockConservation Scheduler SchedulerTurn SchedulerRules

variable {φ : Type} {run : ContinuousRun φ} {numBlocks : Nat}

abbrev requestIds (s : LoopState φ) : List Nat := (entries s).map (·.slot.requestId)

def Covered (numBlocks : Nat) (s : LoopState φ) : Prop := Owns numBlocks (requestIds s) s.runtime.manager

/- The wave let in next fails its prefill with blocks taken. -/
def AdmissionLeaks (run : ContinuousRun φ) (s : LoopState φ) : Prop :=
  (nextWave run s).1 ≠ [] ∧
  ∃ ids masks audio, prefillInputs run ((nextWave run s).1.map Prod.fst) = .ok ((ids,masks),audio) ∧
    PrefillLeaks run.thinker ids masks (some audio) ⟨run.maxNewTokens,run.eosTokenIds,s.nextRequestId⟩ s.runtime

def TurnLeaks (run : ContinuousRun φ) (s : LoopState φ) : Prop :=
  ∃ decoded, decodeGroups run (groupsOf (freeFinishedRunning s)) (freeFinishedRunning s) = .ok () decoded ∧
    AdmissionLeaks run (settled run decoded)

theorem idAt {s : LoopState φ} {i : Nat} {entry : RunningSlot} (found : EntryAt s i entry) :
    entry.slot.requestId ∈ requestIds s :=
  List.mem_map.mpr ⟨entry,List.mem_filterMap.mpr ⟨_,List.mem_of_getElem? found,rfl⟩,rfl⟩

theorem atId {s : LoopState φ} {k : Nat} (inside : k ∈ requestIds s) :
    ∃ i entry, EntryAt s i entry ∧ entry.slot.requestId = k := by
  obtain ⟨entry,member,rfl⟩ := List.mem_map.mp inside
  obtain ⟨_,there,same⟩ := List.mem_filterMap.mp member
  obtain ⟨i,found⟩ := List.mem_iff_getElem?.mp there
  cases same
  exact ⟨i,entry,found,rfl⟩

theorem coveredFree {s : LoopState φ} (covered : Covered numBlocks s) : Covered numBlocks (freeFinishedRunning s) := by
  refine ownsFreeMany covered fun k inside out => ?_
  obtain ⟨i,entry,found,rfl⟩ := atId inside
  have live : done entry = false := by
    rw [← Bool.not_eq_true]
    intro ended
    have member : entry ∈ s.running.filterMap id := List.mem_filterMap.mpr ⟨_,List.mem_of_getElem? found,rfl⟩
    exact out (List.mem_map_of_mem (List.mem_filter.mpr ⟨member,ended⟩))
  have kept : EntryAt (freeFinishedRunning s) i entry := by
    unfold EntryAt freeFinishedRunning
    simp only [List.getElem?_map]
    rw [found]
    simp [Option.filter,live]
  exact idAt kept

theorem limitIds (s : LoopState φ) (maxNewTokens : Nat) : requestIds (finishAtLimit maxNewTokens s) = requestIds s := by
  unfold requestIds entries finishAtLimit
  dsimp only
  induction s.running with
  | nil => rfl
  | cons entry running ih =>
    cases entry with
    | none => simpa using ih
    | some entry => simpa [limitId] using ih

theorem coveredLimit {s : LoopState φ} {maxNewTokens : Nat} (covered : Covered numBlocks s) :
    Covered numBlocks (finishAtLimit maxNewTokens s) := by
  unfold Covered
  rw [limitIds]
  exact covered

theorem groupSlotsKnown {s : LoopState φ} {slotIndices : List Nat} {slots : List PagedDecodeSlot}
    (reads : List.Forall₂ (fun slotIdx slot => slotAt s.running slotIdx = some slot) slotIndices slots) :
    ∀ slot ∈ slots, slot.requestId ∈ requestIds s := by
  intro slot inside
  obtain ⟨_,_,read⟩ := pairedSource reads inside
  obtain ⟨entry,found,rfl⟩ := slotAtSome.mp read
  exact idAt found

/- A group's step keeps every slot its request, so it keeps the blocks covered even when it fails. -/
theorem coveredGroup (run : ContinuousRun φ) {group : Nat × List Nat} {s : LoopState φ} (once : group.2.Nodup)
    (covered : Covered numBlocks s) : Covered numBlocks (after (decodeGroup run group s)) := by
  have stable := ownsStable numBlocks (requestIds s)
  cases outcome : decodeGroup run group s with
  | ok _ t =>
    obtain ⟨g⟩ := groupOk outcome
    have runtime : t.runtime = g.runtime := congrArg LoopState.runtime g.same
    have kept : Owns numBlocks (requestIds s) g.runtime.manager :=
      withinOk (decodeSlotsStable stable run.thinker group.1 run.maxNewTokens run.eosTokenIds
        (groupSlotsKnown g.read)) g.engine covered
    have places := groupEntries (R := fun entry entry' => entry'.slot.requestId = entry.slot.requestId) g once
      (decodedIds g.decoded) (fun _ _ same => same) fun _ => rfl
    have ids : ∀ k ∈ requestIds s, k ∈ requestIds t := by
      intro k inside
      obtain ⟨i,entry,found,rfl⟩ := atId inside
      obtain ⟨_,there,related⟩ := pairedAt places found
      cases related with
      | some same => exact same ▸ idAt there
    change Owns numBlocks (requestIds t) t.runtime.manager
    rw [runtime]
    exact ownsMono kept ids
  | error e t =>
    unfold decodeGroup at outcome
    rcases bindError.mp outcome with got | ⟨_,_,same,outcome⟩
    · cases got
    cases same
    rcases bindError.mp outcome with gather | ⟨slots,_,gather,outcome⟩
    · obtain ⟨_,rfl⟩ := attemptError.mp gather
      exact covered
    obtain ⟨gathered,rfl⟩ := attemptOk.mp gather
    rcases bindError.mp outcome with decode | ⟨_,_,_,outcome⟩
    · obtain ⟨r,failed,rfl⟩ := zoomError.mp decode
      have reads := (exceptMapM.mp gathered).imp fun _ _ found => okOrOk.mp found
      exact withinError (decodeSlotsStable stable run.thinker group.1 run.maxNewTokens run.eosTokenIds
        (groupSlotsKnown reads)) failed covered
    · cases outcome

theorem coveredGroups (run : ContinuousRun φ) {groups : List (Nat × List Nat)} {s : LoopState φ} (once : ∀ group ∈ groups, group.2.Nodup)
    (covered : Covered numBlocks s) : Covered numBlocks (after (decodeGroups run groups s)) := by
  induction groups generalizing s with
  | nil => exact covered
  | cons group groups ih =>
    have first := coveredGroup run (once _ List.mem_cons_self) covered
    unfold decodeGroups
    rw [afterBind]
    cases outcome : decodeGroup run group s with
    | ok _ t =>
      rw [outcome] at first
      exact ih (fun other inside => once other (List.mem_cons_of_mem _ inside)) first
    | error e t =>
      rw [outcome] at first
      exact first

theorem coveredWave {wave : List (Nat × Nat)} {s t : LoopState φ} (once : (wave.map Prod.snd).Nodup)
    (free : ∀ slotIdx ∈ wave.map Prod.snd, s.running[slotIdx]? = some none) (covered : Covered numBlocks s)
    (w : WaveOk run wave s t) : Covered numBlocks t := by
  have width : w.ids.length = wave.length := by
    rw [(padWaveOk (prefillInputsOk w.inputs).1).1,List.length_map]
  have stable := ownsStable numBlocks (requestIds s ++ (List.range wave.length).map (s.nextRequestId+·))
  have kept := withinOk (prefillStable stable run.thinker (some w.audio) fun i bound =>
    List.mem_append_right _ (List.mem_map.mpr ⟨i,List.mem_range.mpr (width ▸ bound),rfl⟩)) w.prefill
    (ownsMono covered fun _ inside => List.mem_append_left _ inside)
  change Owns numBlocks (requestIds t) t.runtime.manager
  rw [waveRuntime w]
  refine ownsMono kept fun k inside => ?_
  rcases List.mem_append.mp inside with before | entering
  · obtain ⟨i,entry,found,rfl⟩ := atId before
    exact idAt (waveKeeps w once free found)
  · obtain ⟨n,bound,rfl⟩ := List.mem_map.mp entering
    have inWave : n < wave.length := List.mem_range.mp bound
    have row : n < w.state.rows.length := Nat.lt_of_lt_of_le inWave (placeWaveOk w.placed).1
    have found := List.getElem?_eq_getElem row
    have entered := idAt (waveEntered w once free (List.getElem?_eq_getElem inWave) found)
    change w.state.rows[n].requestId ∈ requestIds t at entered
    rwa [waveRowId w found] at entered

theorem coveredAdmission {s : LoopState φ} (covered : Covered numBlocks s) (clean : ¬ AdmissionLeaks run s) :
    Covered numBlocks (after (admitNext run (nextWave run s).1 {s with waiting := (nextWave run s).2})) := by
  unfold admitNext
  split
  · exact covered
  · rename_i some
    obtain ⟨once,free⟩ := nextWavePlaces run s
    cases outcome : prefillWave run (nextWave run s).1 {s with waiting := (nextWave run s).2} with
    | ok _ t =>
      obtain ⟨w⟩ := waveOk outcome
      exact coveredWave (s := {s with waiting := (nextWave run s).2}) once free covered w
    | error e t =>
      obtain ⟨running,same | ⟨ids,masks,audio,inputs,failed⟩⟩ := waveFailed outcome
      · change Owns numBlocks ((t.running.filterMap id).map (·.slot.requestId)) t.runtime.manager
        rw [running,same]
        exact covered
      · have unchanged := prefillUnchanged failed fun leaks => clean ⟨some,ids,masks,audio,inputs,leaks⟩
        change Owns numBlocks ((t.running.filterMap id).map (·.slot.requestId)) t.runtime.manager
        rw [running,unchanged]
        exact covered

theorem turnAfter (run : ContinuousRun φ) (s : LoopState φ) : after (turn run s) =
    match decodeGroups run (groupsOf (freeFinishedRunning s)) (freeFinishedRunning s) with
    | .ok _ decoded => after (admitNext run (nextWave run (settled run decoded)).1
        {settled run decoded with waiting := (nextWave run (settled run decoded)).2})
    | .error _ t => t := by
  unfold turn groupsOf
  rw [afterBind,modifyRun]
  dsimp only
  rw [afterBind,getRun]
  dsimp only
  rw [afterBind]
  cases decodeGroups run (groupRunningByDecodeStep (activeSteps (freeFinishedRunning s).running))
      (freeFinishedRunning s) with
  | error e t => rfl
  | ok _ decoded =>
    dsimp only
    rw [afterBind,modifyRun]
    dsimp only
    rw [afterBind,modifyRun]
    dsimp only
    rw [afterBind,getRun]
    dsimp only
    rw [afterBind,modifyRun]
    dsimp only
    rw [afterBind]
    unfold settled
    cases admitNext run (nextWave run (freeFinishedRunning (finishAtLimit run.maxNewTokens decoded))).1 _ with
    | error e u => rfl
    | ok _ u =>
      dsimp only
      rw [afterBind,getRun]
      dsimp only
      split
      · rfl
      · split <;> rfl

theorem coveredSettled {s decoded : LoopState φ} (covered : Covered numBlocks s)
    (ok : decodeGroups run (groupsOf (freeFinishedRunning s)) (freeFinishedRunning s) = .ok () decoded) :
    Covered numBlocks (settled run decoded) := by
  have groups := coveredGroups run (groupsOnce (freeFinishedRunning s)) (coveredFree covered)
  rw [ok] at groups
  exact coveredFree (coveredLimit groups)

theorem coveredTurn {s : LoopState φ} (covered : Covered numBlocks s) (clean : ¬ TurnLeaks run s) :
    Covered numBlocks (after (turn run s)) := by
  have groups := coveredGroups run (groupsOnce (freeFinishedRunning s)) (coveredFree covered)
  rw [turnAfter]
  cases outcome : decodeGroups run (groupsOf (freeFinishedRunning s)) (freeFinishedRunning s) with
  | error e t =>
    rw [outcome] at groups
    exact groups
  | ok _ decoded =>
    exact coveredAdmission (coveredSettled covered outcome) fun leaks => clean ⟨decoded,outcome,leaks⟩

/- A turn that leaks fails, and leaves an entry that no slot owns. -/
theorem leaksLeft {s : LoopState φ} (covered : Covered numBlocks s) (apart : Apart s) (leaks : TurnLeaks run s) :
    (∀ goesOn t, turn run s ≠ .ok goesOn t) ∧
    ∃ k ∈ (after (turn run s)).runtime.manager.requestBlocks, k ∉ requestIds (after (turn run s)) := by
  obtain ⟨decoded,ok,some,ids,masks,audio,inputs,leak⟩ := leaks
  obtain ⟨e,r,failed⟩ := leak.1
  have wave : prefillWave run (nextWave run (settled run decoded)).1
      {settled run decoded with waiting := (nextWave run (settled run decoded)).2} = .error e
      {settled run decoded with
        runtime := r
        nextRequestId := (settled run decoded).nextRequestId+(nextWave run (settled run decoded)).1.length
        waiting := (nextWave run (settled run decoded)).2} :=
    bindError.mpr (.inr ⟨_,_,rfl,bindError.mpr (.inr ⟨(),_,rfl,bindError.mpr (.inr ⟨_,_,attemptOk.mpr ⟨inputs,rfl⟩,
      bindError.mpr (.inl (zoomError.mpr ⟨r,failed,rfl⟩))⟩)⟩)⟩)
  constructor
  · intro goesOn t done
    obtain ⟨taken⟩ := turnOk done
    have same := taken.groups
    rw [ok] at same
    obtain rfl : decoded = taken.decoded := by simpa using same
    rcases taken.wave with ⟨none,_⟩ | ⟨_,placed⟩
    · exact some none
    · rw [wave] at placed
      cases placed
  · have settledApart : Apart (settled run decoded) :=
      keptSettled (apartKept run fun _ _ => True) (everyTrivial _ _) apart ok
    have settledCovered := coveredSettled covered ok
    have fresh (i : Nat) : (settled run decoded).nextRequestId+i ∉ requestIds (settled run decoded) := fun inside => by
      obtain ⟨j,entry,found,same⟩ := atId inside
      have := settledApart.fresh j entry found
      omega
    obtain ⟨i,held⟩ := prefillLeft settledCovered.size
      (fun i inside => fresh i (settledCovered.listed _ inside)) failed leak
    have admitted : admitNext run (nextWave run (settled run decoded)).1 =
        prefillWave run (nextWave run (settled run decoded)).1 := by
      unfold admitNext
      rw [if_neg some]
    have ends := turnAfter run s
    rw [ok] at ends
    dsimp only at ends
    rw [admitted,wave] at ends
    rw [ends]
    exact ⟨_,held,fresh i⟩

theorem releaseCovered {s : LoopState φ} (covered : Covered numBlocks s) :
    Pooled numBlocks (freeAllRunning s).runtime.manager :=
  ownsPooled (ownsFreeMany covered fun _ inside out => absurd inside out)

theorem bodyExit {s : LoopState φ} {out : Outcome φ} (last : body run s = .exit out) :
    out.2 = freeAllRunning (after (turn run s)) := by
  unfold body at last
  cases outcome : turn run s with
  | ok goesOn t =>
    rw [outcome] at last
    cases goesOn with
    | true => cases last
    | false => cases last; rfl
  | error e t =>
    rw [outcome] at last
    cases last
    rfl

theorem loopPooled {s : LoopState φ} {fuel : Nat} {out : Outcome φ} (covered : Covered numBlocks s)
    (apart : Apart s) (done : Library.Loop.run (body run) fuel s = some out) :
    Pooled numBlocks out.2.runtime.manager ↔ ∀ t, Reaches (body run) s t → ¬ TurnLeaks run t := by
  have kept {t : LoopState φ} (reached : Reaches (body run) s t) : Covered numBlocks t ∧ Apart t :=
    invariant (fun t u (inv : Covered numBlocks t ∧ Apart t) next => by
      have ok := bodyNext.mp next
      have next := coveredTurn inv.1 fun leaks => (leaksLeft inv.1 inv.2 leaks).1 _ _ ok
      rw [ok] at next
      exact ⟨next,keptTurn (apartKept run fun _ _ => True) (everyTrivial _ _) inv.2 ok⟩) reached ⟨covered,apart⟩
  constructor
  · intro pooled t reached leaks
    obtain ⟨never,k,held,stranger⟩ := leaksLeft (kept reached).1 (kept reached).2 leaks
    cases last : body run t with
    | next u => exact never _ _ (bodyNext.mp last)
    | exit out' =>
      obtain ⟨n,exits⟩ := exitRun reached last
      rw [runUnique done exits,bodyExit last] at pooled
      have left : k ∈ (freeAllRunning (after (turn run t))).runtime.manager.requestBlocks :=
        freeManyKeys.mpr ⟨stranger,held⟩
      rw [pooled.empty] at left
      exact AList.notMem_empty k left
  · intro clean
    obtain ⟨t,reached,last⟩ := runExit done
    rw [bodyExit last]
    exact releaseCovered (coveredTurn (kept reached).1 (clean t reached))

/-- A call gives every block back unless a prefill fails with blocks taken, or in a batch
that is not continuous a step does. -/
theorem poolRestored (numBlocks : Nat) (r : PagedCacheRuntime φ) (pooled : Pooled numBlocks r.manager) :
    (∀ run nextRequestId fuel result, runContinuousPrepared run nextRequestId r fuel = some result →
      (Pooled numBlocks result.2.2.manager ↔
        ∀ s t, enter run nextRequestId r = .loop s → Reaches (body run) s t → ¬ TurnLeaks run t)) ∧
    ∀ thinker inputIds attentionMask audioFeatures config,
      Pooled numBlocks (after (pagedBatchRun thinker inputIds attentionMask audioFeatures config r)).manager ↔
        ¬ RunLeaks thinker inputIds attentionMask audioFeatures config r := by
  have batch := fun thinker inputIds attentionMask (audioFeatures : Option (List φ)) config =>
    batchRunPooled pooled thinker inputIds attentionMask audioFeatures config
  exact ⟨fun run nextRequestId fuel result done => by
    unfold runContinuousPrepared at done
    cases entered : enter run nextRequestId r with
    | returned early =>
      rw [entered] at done
      cases done
      have same : result.2.2 = r := by
        unfold enter at entered
        dsimp only at entered
        split at entered
        · cases entered; rfl
        split at entered
        · cases entered; rfl
        split at entered <;> cases entered
        rfl
      rw [same]
      exact ⟨fun _ s t loops => (by cases loops),fun _ => pooled⟩
    | loop s =>
      rw [entered] at done
      obtain ⟨out,exits,rfl⟩ := Option.map_eq_some_iff.mp done
      obtain rfl : s = initial run nextRequestId r := by
        unfold enter at entered
        dsimp only at entered
        split at entered <;> try contradiction
        split at entered <;> try contradiction
        split at entered <;> try contradiction
        cases entered
        rfl
      have apart := apartInitial run nextRequestId r
      have covered : Covered numBlocks (initial run nextRequestId r) := pooledOwns pooled _
      have loop := loopPooled covered apart exits
      exact ⟨fun full s t same reached => by cases same; exact loop.mp full t reached,
        fun clean => loop.mpr fun t reached => clean _ t rfl reached⟩,batch⟩

def failingRow : ContinuousRun Unit where
  maxNumSeqs := 1
  thinker := ⟨9,false,fun _ _ => .error "forward failed"⟩
  prepared := [⟨[7],[1]⟩]
  audioFeatures := []
  maxNewTokens := 4
  eosTokenIds := [2]
  padId := 0

def twoBlocks : PagedCacheRuntime Unit := ⟨⟨8,3,24,false⟩,new 3 8,[]⟩

theorem twoBlocksPooled : Pooled 3 twoBlocks.manager := ⟨by decide,List.Perm.refl _,rfl⟩

theorem poolRestoredOneRow : ∃ result,
    runContinuousPrepared {failingRow with thinker := ⟨9,false,fun _ _ => .ok fun _ _ => 2⟩} 0 twoBlocks 3 =
      some result ∧
    (Pooled 3 result.2.2.manager ↔ ∀ s t,
      enter {failingRow with thinker := ⟨9,false,fun _ _ => .ok fun _ _ => 2⟩} 0 twoBlocks = .loop s →
      Reaches (body {failingRow with thinker := ⟨9,false,fun _ _ => .ok fun _ _ => 2⟩}) s t →
      ¬ TurnLeaks {failingRow with thinker := ⟨9,false,fun _ _ => .ok fun _ _ => 2⟩} t) := by
  have returns : (runContinuousPrepared
      {failingRow with thinker := ⟨9,false,fun _ _ => .ok fun _ _ => 2⟩} 0 twoBlocks 3).isSome = true := by
    decide +kernel
  obtain ⟨result,done⟩ := Option.isSome_iff_exists.mp returns
  exact ⟨result,done,(poolRestored 3 twoBlocks twoBlocksPooled).1 _ 0 3 result done⟩

/-- The prefill of the first wave fails: the block its row was given is never freed. -/
theorem failedPrefillKeepsBlock : newRuntime 3 8 false = .ok twoBlocks ∧ Pooled 3 twoBlocks.manager ∧
    (∃ result, runContinuousPrepared failingRow 0 twoBlocks 1 = some result ∧ ¬ Pooled 3 result.2.2.manager) ∧
    ¬ Pooled 3 (after (pagedBatchRun failingRow.thinker [[7]] [[1]] none ⟨4,[2],0⟩ twoBlocks)).manager := by
  have short {m : PagedBlockManager} (one : m.free.length = 1) : ¬ Pooled 3 m := fun full => by
    have two := full.free.length_eq
    rw [one] at two
    cases two
  have scheduled : ((runContinuousPrepared failingRow 0 twoBlocks 1).any fun result =>
      result.2.2.manager.free.length = 1) = true := by decide +kernel
  have batch : (after (pagedBatchRun failingRow.thinker [[7]] [[1]] none ⟨4,[2],0⟩ twoBlocks)).manager.free.length =
      1 := by decide +kernel
  obtain ⟨result,done,one⟩ := (Option.any_eq_true _ _).mp scheduled
  exact ⟨rfl,twoBlocksPooled,⟨result,done,short (of_decide_eq_true one)⟩,short batch⟩

end Qwen3Asr.SchedulerConservation
