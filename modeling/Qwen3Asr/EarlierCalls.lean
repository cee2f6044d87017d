import Qwen3Asr.Library.Simulation
import Qwen3Asr.WatchedRuns

/-! The scheduler hands the calls made before a run to the model and looks at none of them itself. A run behind
earlier calls is the run, from a clear record, over the model as it answers behind them. -/
namespace Qwen3Asr.EarlierCalls
open Library.Effect Library.Simulation Library.Loop
open BlockManager PagedMetadata BatchEngine Scheduler SchedulerTurn SchedulerRules GreedyRefinement WatchedRuns

variable {φ : Type} (older : List (ForwardCall φ))

def resumed (thinker : Thinker φ) : Thinker φ :=
  {thinker with forward := fun history call => thinker.forward (history ++ older) call}

def runResumed (run : ContinuousRun φ) : ContinuousRun φ := moved run (resumed older run.thinker).forward

def behind (r : PagedCacheRuntime φ) : PagedCacheRuntime φ := {r with history := r.history ++ older}

def stateBehind (s : LoopState φ) : LoopState φ := {s with runtime := behind older s.runtime}

section Engine
variable (thinker : Thinker φ)

theorem managerAlike {α : Type} (x : Managed α) : Alike (behind older) (managerMut x) (managerMut x) :=
  alikeZoom (alikeRefl x) (fun _ => rfl) fun _ _ => rfl

theorem forwardAlike (call : ForwardCall φ) :
    Alike (behind older) (runForward (resumed older thinker) call) (runForward thinker call) := by
  intro r
  unfold runForward
  dsimp only [resumed,behind]
  cases thinker.forward (r.history ++ older) call with
  | ok logits => exact ⟨logits,_,rfl,rfl,rfl⟩
  | error e => exact ⟨_,rfl,rfl⟩

theorem decodeForwardAlike (rows : List PagedBatchRow) (blockTables : List (List Nat)) (step : Nat) :
    Alike (behind older) (decodeForward (resumed older thinker) rows blockTables step)
      (decodeForward thinker rows blockTables step) :=
  alikeBind (alikeAttempt _) fun _ => alikeGet fun _ => alikeBind (alikeAttempt _) fun _ =>
    alikeBind (forwardAlike older thinker _) fun _ => alikePure _

theorem decodeSlotsAlike (slots : List PagedDecodeSlot) (step maxNewTokens : Nat) (eosTokenIds : List Nat) :
    Alike (behind older) (pagedBatchDecodeSlotsAtStep (resumed older thinker) slots step maxNewTokens eosTokenIds)
      (pagedBatchDecodeSlotsAtStep thinker slots step maxNewTokens eosTokenIds) := by
  unfold pagedBatchDecodeSlotsAtStep
  split
  · exact alikePure _
  split
  · exact alikePure _
  split
  · exact alikeThrow _
  split
  · exact alikePure _
  refine alikeBind (managerAlike older _) fun granted => ?_
  split
  · exact alikePure _
  refine alikeBind (managerAlike older _) fun _ => ?_
  dsimp only
  split
  · exact alikePure _
  exact alikeGet fun _ => alikeBind (alikeAttempt _) fun _ =>
    alikeBind (decodeForwardAlike older thinker _ _ _) fun _ => alikePure _

theorem prefillAlike (inputIds attentionMask : List (List Nat)) (audioFeatures : Option (List φ)) (config : PagedBatchConfig) :
    Alike (behind older) (pagedBatchPrefill (resumed older thinker) inputIds attentionMask audioFeatures config)
      (pagedBatchPrefill thinker inputIds attentionMask audioFeatures config) :=
  alikeBind (alikeAttempt _) fun _ => alikeBind (managerAlike older _) fun _ => alikeGet fun _ =>
    alikeBind (alikeAttempt _) fun _ => alikeBind (alikeAttempt _) fun _ => alikeBind (forwardAlike older thinker _) fun _ =>
    alikeBind (alikeAttempt _) fun _ => alikeBind (managerAlike older _) fun _ => alikePure _

end Engine

section Scheduler
variable (run : ContinuousRun φ)

theorem runtimeAlike {α : Type} {x y : Engine φ α} (alike : Alike (behind older) x y) :
    Alike (stateBehind older) (runtimeMut x) (runtimeMut y) := alikeZoom alike (fun _ => rfl) fun _ _ => rfl

theorem groupAlike (group : Nat × List Nat) :
    Alike (stateBehind older) (decodeGroup (runResumed older run) group) (decodeGroup run group) :=
  alikeGet fun _ => alikeBind (alikeAttempt _) fun _ =>
    alikeBind (runtimeAlike older (decodeSlotsAlike older run.thinker _ _ _ _)) fun _ => alikeModify fun _ => rfl

theorem groupsAlike (groups : List (Nat × List Nat)) :
    Alike (stateBehind older) (decodeGroups (runResumed older run) groups) (decodeGroups run groups) := by
  induction groups with
  | nil => exact alikePure ()
  | cons group groups ih => exact alikeBind (groupAlike older run group) fun _ => ih

theorem waveAlike (wave : List (Nat × Nat)) :
    Alike (stateBehind older) (prefillWave (runResumed older run) wave) (prefillWave run wave) :=
  alikeGet fun _ => alikeBind (alikeModify fun _ => rfl) fun _ => alikeBind (alikeAttempt _) fun _ =>
    alikeBind (runtimeAlike older (prefillAlike older run.thinker _ _ _ _)) fun _ =>
    alikeBind (alikeAttempt _) fun _ => alikeModify fun _ => rfl

theorem waveResumed (s : LoopState φ) : nextWave (runResumed older run) s = nextWave run (stateBehind older s) :=
  waveOver s

theorem turnAlike : Alike (stateBehind older) (turn (runResumed older run)) (turn run) := by
  refine alikeBind (alikeModify fun _ => rfl) fun _ => alikeGet fun s => alikeBind (groupsAlike older run _) fun _ =>
    alikeBind (alikeModify fun _ => rfl) fun _ => alikeBind (alikeModify fun _ => rfl) fun _ => alikeGet fun u => ?_
  simp only [waveResumed]
  exact alikeBind (alikeModify fun _ => rfl) fun _ => alikeBind (alikeIf (alikePure ()) (waveAlike older run _)) fun _ =>
    alikeGet fun v => alikeIf (alikePure false) (alikeIf (alikeThrow _) (alikePure true))

theorem bodyNextBehind {s t : LoopState φ} (next : body (runResumed older run) s = .next t) :
    body run (stateBehind older s) = .next (stateBehind older t) :=
  bodyNext.mpr (alikeOk (turnAlike older run) (bodyNext.mp next))

theorem reachesBehind {s t : LoopState φ} (reached : Reaches (body (runResumed older run)) s t) :
    Reaches (body run) (stateBehind older s) (stateBehind older t) := by
  induction reached with
  | refl => exact .refl
  | tail _ last ih => exact ih.tail (bodyNextBehind older run last)

theorem everyBehind {Q Q' : Nat × List Nat → LoopState φ → Prop} (back : ∀ group s, Q group (stateBehind older s) → Q' group s)
    {groups : List (Nat × List Nat)} {s : LoopState φ} (every : EveryGroup run Q groups (stateBehind older s)) :
    EveryGroup (runResumed older run) Q' groups s := by
  induction groups generalizing s with
  | nil => trivial
  | cons group groups ih =>
    obtain ⟨meets,later⟩ := every
    refine ⟨back group s meets,?_⟩
    cases done : decodeGroup (runResumed older run) group s with
    | ok _ t =>
      rw [alikeOk (groupAlike older run group) done] at later
      exact ih later
    | error _ _ => trivial

theorem grantedBehind {nextRequestId : Nat} {r : PagedCacheRuntime φ}
    (granted : ∀ s, Reaches (body run) (initial run nextRequestId (behind older r)) s → EveryTurnGroup run (NoneRefused run) s)
    (s : LoopState φ) (reached : Reaches (body (runResumed older run)) (initial (runResumed older run) nextRequestId r) s) :
    EveryTurnGroup (runResumed older run) (NoneRefused (runResumed older run)) s := by
  have every : EveryGroup run (NoneRefused run) (groupsOf (freeFinishedRunning s)) (stateBehind older (freeFinishedRunning s)) :=
    granted _ (reachesBehind older run reached)
  exact everyBehind older run (fun _ _ none_ => none_) every

def returnedBehind (returned : Returned φ) : Returned φ := (returned.1,returned.2.1,behind older returned.2.2)

theorem loopBehind (fuel : Nat) (s : LoopState φ) :
    Library.Loop.run (body run) fuel (stateBehind older s) =
      (Library.Loop.run (body (runResumed older run)) fuel s).map fun (result,t) => (result,stateBehind older t) := by
  induction fuel generalizing s with
  | zero => rfl
  | succ fuel ih =>
    unfold Library.Loop.run body
    cases turned : turn (runResumed older run) s with
    | ok goesOn t =>
      rw [alikeOk (turnAlike older run) turned]
      cases goesOn with
      | true => exact ih t
      | false => rfl
    | error e t =>
      rw [alikeError (turnAlike older run) turned]
      rfl

theorem enterBehind (nextRequestId : Nat) (r : PagedCacheRuntime φ) : enter run nextRequestId (behind older r) =
    match enter (runResumed older run) nextRequestId r with
    | .returned result => .returned (returnedBehind older result)
    | .loop s => .loop (stateBehind older s) := by
  rw [show enter (runResumed older run) nextRequestId r = enter run nextRequestId r from rfl]
  unfold enter
  dsimp only
  split_ifs <;> rfl

/-- A run behind earlier calls returns what it returns from a clear record, over the model behind those calls. -/
theorem runBehind (nextRequestId : Nat) (r : PagedCacheRuntime φ) (fuel : Nat) :
    runContinuousPrepared run nextRequestId (behind older r) fuel =
      (runContinuousPrepared (runResumed older run) nextRequestId r fuel).map (returnedBehind older) := by
  unfold runContinuousPrepared
  rw [enterBehind]
  cases enter (runResumed older run) nextRequestId r with
  | returned result => rfl
  | loop s =>
    dsimp only
    rw [loopBehind,Option.map_map,Option.map_map]
    rfl

end Scheduler

end Qwen3Asr.EarlierCalls
