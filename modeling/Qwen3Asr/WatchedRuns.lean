import Qwen3Asr.GreedyRefinement

/-! A run over one model as a run over another one, which answers the same calls where the first one does. -/
namespace Qwen3Asr.WatchedRuns
open Library.Effect Library.Word Library.Loop
open BlockManager PagedMetadata BatchEngine DecodeOutcome PrefillOutcome Scheduler SchedulerTurn SchedulerRules GreedyRefinement

variable {φ : Type}

section Engine
variable {thinker : Thinker φ} {forward : List (ForwardCall φ) → ForwardCall φ → Except String (Nat → Nat → Nat)}
  {guard : List (ForwardCall φ) → Prop}

def Answers (thinker : Thinker φ) (guard : List (ForwardCall φ) → Prop)
    (forward : List (ForwardCall φ) → ForwardCall φ → Except String (Nat → Nat → Nat)) : Prop :=
  ∀ history call logits, thinker.forward history call = .ok logits → guard (call::history) → forward history call = .ok logits

def allowed (guard : List (ForwardCall φ) → Prop) (r : PagedCacheRuntime φ) : Prop := guard r.history

theorem runForwardFollows (answers : Answers thinker guard forward) (call : ForwardCall φ) (r : PagedCacheRuntime φ) :
    Follows (allowed guard) (runForward thinker call) (runForward {thinker with forward} call) r := by
  intro logits t ok good
  obtain ⟨answered,rfl⟩ := runForwardOk.mp ok
  exact runForwardOk.mpr ⟨answers _ _ _ answered good,rfl⟩

theorem decodeForwardFollows (answers : Answers thinker guard forward) (rows : List PagedBatchRow) (blockTables : List (List Nat))
    (step : Nat) (r : PagedCacheRuntime φ) : Follows (allowed guard) (decodeForward thinker rows blockTables step)
      (decodeForward {thinker with forward} rows blockTables step) r := by
  unfold decodeForward
  refine followsAfter fun _ _ _ => followsAfter fun _ _ _ => followsAfter fun _ _ _ => ?_
  refine followsBefore (runForwardFollows answers _ _) fun _ _ _ _ last good => ?_
  cases last
  exact good

theorem decodeSlotsFollows (answers : Answers thinker guard forward) (slots : List PagedDecodeSlot) (step maxNewTokens : Nat)
    (eosTokenIds : List Nat) (r : PagedCacheRuntime φ) :
    Follows (allowed guard) (pagedBatchDecodeSlotsAtStep thinker slots step maxNewTokens eosTokenIds)
      (pagedBatchDecodeSlotsAtStep {thinker with forward} slots step maxNewTokens eosTokenIds) r := by
  unfold pagedBatchDecodeSlotsAtStep
  split
  · exact followsRefl _ _ _
  split
  · exact followsRefl _ _ _
  split
  · exact followsRefl _ _ _
  split
  · exact followsRefl _ _ _
  refine followsAfter fun granted _ _ => ?_
  split
  · exact followsRefl _ _ _
  refine followsAfter fun _ _ _ => ?_
  dsimp only
  split
  · exact followsRefl _ _ _
  refine followsAfter fun _ _ _ => followsAfter fun _ _ _ => followsBefore (decodeForwardFollows answers _ _ _ _) ?_
  intro _ _ _ _ last good
  cases last
  exact good

theorem prefillFollows (answers : Answers thinker guard forward) (inputIds attentionMask : List (List Nat))
    (audioFeatures : Option (List φ)) (config : PagedBatchConfig) (r : PagedCacheRuntime φ) :
    Follows (allowed guard) (pagedBatchPrefill thinker inputIds attentionMask audioFeatures config)
      (pagedBatchPrefill {thinker with forward} inputIds attentionMask audioFeatures config) r := by
  unfold pagedBatchPrefill
  refine followsAfter fun _ _ _ => followsAfter fun _ _ _ => followsAfter fun _ _ _ => followsAfter fun _ _ _ => ?_
  refine followsAfter fun _ _ _ => followsBefore (runForwardFollows answers _ _) fun _ _ _ _ rest good => ?_
  obtain ⟨_,_,gather,rest⟩ := bindOk.mp rest
  obtain ⟨_,rfl⟩ := attemptOk.mp gather
  obtain ⟨_,_,trim,rest⟩ := bindOk.mp rest
  obtain ⟨_,_,rfl⟩ := managerMutOk.mp trim
  cases rest
  exact good

end Engine

section Scheduler
variable {run : ContinuousRun φ} {forward : List (ForwardCall φ) → ForwardCall φ → Except String (Nat → Nat → Nat)}
  {guard : List (ForwardCall φ) → Prop} {s t : LoopState φ}

def moved (run : ContinuousRun φ) (forward : List (ForwardCall φ) → ForwardCall φ → Except String (Nat → Nat → Nat)) :
    ContinuousRun φ := {run with thinker := {run.thinker with forward}}

theorem groupFollows (run : ContinuousRun φ) (forward : List (ForwardCall φ) → ForwardCall φ → Except String (Nat → Nat → Nat))
    (answers : Answers run.thinker guard forward) {group : Nat × List Nat}
    (ok : decodeGroup run group s = .ok () t) (good : guard t.runtime.history) : decodeGroup (moved run forward) group s = .ok () t := by
  refine (?_ : Follows (fun u : LoopState φ => guard u.runtime.history) (decodeGroup run group) (decodeGroup (moved run forward) group) s) () t ok good
  unfold decodeGroup
  refine followsAfter fun _ _ _ => followsAfter fun slots _ _ => followsBefore ?_ ?_
  · exact followsZoom (decodeSlotsFollows answers _ _ _ _ _) fun _ good => good
  · intro _ _ _ _ last good
    cases last
    exact good

theorem waveFollows (answers : Answers run.thinker guard forward) {wave : List (Nat × Nat)}
    (ok : prefillWave run wave s = .ok () t) (good : guard t.runtime.history) : prefillWave (moved run forward) wave s = .ok () t := by
  refine (?_ : Follows (fun u : LoopState φ => guard u.runtime.history) (prefillWave run wave) (prefillWave (moved run forward) wave) s) () t ok good
  unfold prefillWave
  refine followsAfter fun _ _ _ => followsAfter fun _ _ _ => followsAfter fun _ _ _ => followsBefore ?_ ?_
  · exact followsZoom (prefillFollows answers _ _ _ _ _) fun _ good => good
  · intro _ _ _ _ last good
    obtain ⟨_,_,place,last⟩ := bindOk.mp last
    obtain ⟨_,rfl⟩ := attemptOk.mp place
    cases last
    exact good

theorem admitOver (manager : PagedBlockManager) (capacity maxSlots : Nat) (slots : List (Option RunningSlot × Nat))
    (used running : Nat) (waiting : List Nat) : admitWave (moved run forward) manager capacity maxSlots slots used running waiting =
      admitWave run manager capacity maxSlots slots used running waiting := by
  induction slots generalizing used running waiting with
  | nil => rfl
  | cons slot slots ih =>
    obtain ⟨_ | _,_⟩ := slot
    · cases waiting with
      | nil => rfl
      | cons clientIndex waiting =>
        unfold admitWave
        dsimp only
        rw [ih]
        rfl
    · exact ih used running waiting

theorem waveOver (s : LoopState φ) : nextWave (moved run forward) s = nextWave run s := admitOver ..

theorem groupsFollow (answers : Answers run.thinker guard forward) {Q : Nat × List Nat → LoopState φ → Prop}
    {Inv : LoopState φ → Prop} (kept : Kept run Q Inv) (good : ∀ u, Inv u → guard u.runtime.history)
    {groups : List (Nat × List Nat)} (ready : Ready groups s) (every : EveryGroup run Q groups s) (start : Inv s)
    (ok : decodeGroups run groups s = .ok () t) : decodeGroups (moved run forward) groups s = .ok () t := by
  induction groups generalizing s with
  | nil => exact ok
  | cons group groups ih =>
    obtain ⟨_,u,first,rest⟩ := bindOk.mp ok
    obtain ⟨meets,later⟩ := every
    rw [first] at later
    have here := kept.group group s u (ready.each _ List.mem_cons_self) meets start first
    exact bindOk.mpr ⟨(),u,groupFollows run forward answers first (good u here),ih (readyRest ready first) later here rest⟩

theorem turnFollows (run : ContinuousRun φ) (forward : List (ForwardCall φ) → ForwardCall φ → Except String (Nat → Nat → Nat))
    (answers : Answers run.thinker guard forward) {Q : Nat × List Nat → LoopState φ → Prop}
    {Inv : LoopState φ → Prop} (kept : Kept run Q Inv) (good : ∀ u, Inv u → guard u.runtime.history)
    (every : EveryTurnGroup run Q s) (start : Inv s) {goesOn : Bool} (ok : turn run s = .ok goesOn t) :
    turn (moved run forward) s = .ok goesOn t := by
  have last := keptTurn kept every start ok
  unfold turn at ok ⊢
  simp only [waveOver]
  obtain ⟨_,_,freed,ok⟩ := bindOk.mp ok
  cases freed
  obtain ⟨_,_,got,ok⟩ := bindOk.mp ok
  cases got
  obtain ⟨_,decoded,groups,ok⟩ := bindOk.mp ok
  obtain ⟨_,_,limited,ok⟩ := bindOk.mp ok
  cases limited
  obtain ⟨_,_,freed,ok⟩ := bindOk.mp ok
  cases freed
  obtain ⟨_,_,got,ok⟩ := bindOk.mp ok
  cases got
  obtain ⟨_,_,queued,ok⟩ := bindOk.mp ok
  cases queued
  obtain ⟨_,u,admits,ok⟩ := bindOk.mp ok
  have same : u = t := by
    obtain ⟨_,_,got,tail⟩ := bindOk.mp ok
    cases got
    split at tail
    · cases tail
      rfl
    split at tail
    · cases tail
    · cases tail
      rfl
  subst same
  have decodes := groupsFollow answers kept good (groupsReady _) every (kept.free s start) groups
  have follows : admitNext (moved run forward) (nextWave run (settled run decoded)).1
      {settled run decoded with waiting := (nextWave run (settled run decoded)).2} = .ok () u := by
    unfold admitNext at admits ⊢
    split
    · rename_i none_
      have none_ : (nextWave run (freeFinishedRunning (finishAtLimit run.maxNewTokens decoded))).1 = [] := none_
      rwa [if_pos none_] at admits
    · rename_i some_
      have some_ : (nextWave run (freeFinishedRunning (finishAtLimit run.maxNewTokens decoded))).1 ≠ [] := some_
      rw [if_neg some_] at admits
      exact waveFollows answers admits (good _ last)
  exact bindOk.mpr ⟨_,_,rfl,bindOk.mpr ⟨_,_,rfl,bindOk.mpr ⟨(),decoded,decodes,bindOk.mpr ⟨_,_,rfl,bindOk.mpr ⟨_,_,rfl,
    bindOk.mpr ⟨_,_,rfl,bindOk.mpr ⟨_,_,rfl,bindOk.mpr ⟨(),u,follows,ok⟩⟩⟩⟩⟩⟩⟩⟩

theorem everyOver (answers : Answers {run.thinker with forward} (fun _ => True) run.thinker.forward)
    {Q : Nat × List Nat → LoopState φ → Prop} {groups : List (Nat × List Nat)} (every : EveryGroup run Q groups s) :
    EveryGroup (moved run forward) Q groups s := by
  induction groups generalizing s with
  | nil => trivial
  | cons group groups ih =>
    obtain ⟨meets,later⟩ := every
    unfold EveryGroup
    refine ⟨meets,?_⟩
    cases done : decodeGroup (moved run forward) group s with
    | ok u t =>
      have back : decodeGroup run group s = .ok () t :=
        groupFollows (moved run forward) run.thinker.forward answers done trivial
      rw [back] at later
      exact ih later
    | error _ _ => trivial

theorem reachesBack (answers : Answers {run.thinker with forward} (fun _ => True) run.thinker.forward)
    (reached : Reaches (body (moved run forward)) s t) : Reaches (body run) s t := by
  induction reached with
  | refl => exact .refl
  | tail _ last ih =>
    have kept : Kept (moved run forward) (fun _ _ => True) (fun _ => True) := ⟨by simp,by simp,by simp,by simp⟩
    have back := turnFollows (moved run forward) run.thinker.forward answers kept (fun _ _ => trivial)
      (everyTrivial _ _) trivial (bodyNext.mp last)
    exact ih.tail (bodyNext.mpr back)

/-- A run in which every call is answered the same is the same run. -/
theorem runFollows (answers : Answers run.thinker guard forward) {Q : Nat × List Nat → LoopState φ → Prop}
    {Inv : LoopState φ → Prop} (kept : Kept run Q Inv) (good : ∀ u, Inv u → guard u.runtime.history)
    {nextRequestId : Nat} {r : PagedCacheRuntime φ} (start : Inv (initial run nextRequestId r))
    (every : ∀ u, Reaches (body run) (initial run nextRequestId r) u → EveryTurnGroup run Q u)
    {fuel : Nat} {outputs : List (List Nat)} {left : Nat × PagedCacheRuntime φ}
    (returns : runContinuousPrepared run nextRequestId r fuel = some (.ok outputs,left)) :
    runContinuousPrepared (moved run forward) nextRequestId r fuel = some (.ok outputs,left) := by
  have entry : enter (moved run forward) nextRequestId r = enter run nextRequestId r := rfl
  unfold runContinuousPrepared at returns ⊢
  rw [entry]
  cases entered : enter run nextRequestId r with
  | returned result =>
    rw [entered] at returns
    exact returns
  | loop s =>
    rw [entered] at returns
    obtain ⟨⟨result,u⟩,exits,same⟩ := Option.map_eq_some_iff.mp returns
    cases same
    refine Option.map_eq_some_iff.mpr ⟨_,runAlong (fun v => Inv v ∧ Reaches (body run) (initial run nextRequestId r) v) ?_ ?_ ?_ exits,rfl⟩
    · rintro v w ⟨inv,reached⟩ next
      have turned := bodyNext.mp next
      exact ⟨bodyNext.mpr (turnFollows run forward answers kept good (every v reached) inv turned),
        keptTurn kept (every v reached) inv turned,reached.tail next⟩
    · rintro v ⟨inv,reached⟩ exit
      obtain ⟨w,turned,rfl,rfl⟩ := bodyExitOk exit
      unfold body
      rw [turnFollows run forward answers kept good (every v reached) inv turned]
    · unfold enter at entered
      dsimp only at entered
      split at entered <;> try contradiction
      split at entered <;> try contradiction
      split at entered <;> try contradiction
      cases entered
      exact ⟨start,.refl⟩

end Scheduler

end Qwen3Asr.WatchedRuns
