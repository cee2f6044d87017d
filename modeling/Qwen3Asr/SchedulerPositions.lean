import Qwen3Asr.SchedulerRules

/-! The position every running slot decodes at. As long as no step skips a refused slot,
the counter of decode steps is the number of tokens generated, and the calls made for the
slot fill its cache at consecutive positions. -/
namespace Qwen3Asr.SchedulerPositions
open Library.Effect Library.Loop
open BlockManager PagedMetadata BatchEngine DecodeOutcome PrefillOutcome CallHistory SlotFate
open Scheduler SchedulerTurn SchedulerRules

variable {φ : Type} {run : ContinuousRun φ}

structure Consecutive (r : PagedCacheRuntime φ) (slot : PagedDecodeSlot) : Prop where
  step : slot.decodeStep = slot.generated.length
  decoded : (decodeRows slot.requestId r.history).map DecodeRow.token = slot.generated
  placed : ∀ k row, (decodeRows slot.requestId r.history)[k]? = some row →
    AtPosition r.cache r.manager slot.requestId (slot.promptLenUsize+k) row

structure Placed (r : PagedCacheRuntime φ) (entry : RunningSlot) : Prop where
  lengths : entry.slot.promptLenI64 = entry.slot.promptLenUsize
  live : entry.slot.finished = false → Consecutive r entry.slot

/- No slot of the group is refused its block while all those granted theirs end. -/
def NoneSkipped (run : ContinuousRun φ) (group : Nat × List Nat) (s : LoopState φ) : Prop :=
  ¬ SkipsRefused run.eosTokenIds run.maxNewTokens group.1 (groupSlots s group) s.runtime.manager

theorem consecutiveUntouched {r t : PagedCacheRuntime φ} {slot : PagedDecodeSlot}
    (untouched : Untouched slot.requestId r t) (consecutive : Consecutive r slot) : Consecutive t slot where
  step := consecutive.step
  decoded := by
    rw [untouchedRows untouched]
    exact consecutive.decoded
  placed k row found := by
    rw [untouchedRows untouched] at found
    rw [untouched.cache]
    exact positionGrows untouched.grows (consecutive.placed k row found)

theorem consecutiveFed {thinker : Thinker φ} {step nextId : Nat} {slot : PagedDecodeSlot}
    {r t : PagedCacheRuntime φ} (fed : Fed thinker step slot r t nextId) (here : slot.decodeStep = step)
    (lengths : slot.promptLenI64 = slot.promptLenUsize) (consecutive : Consecutive r slot) :
    Consecutive t {slot with
      generated := slot.generated ++ [slot.nextId], nextId, decodeStep := slot.decodeStep+1} where
  step := by
    have before := consecutive.step
    simp [before]
  decoded := by
    rw [answeredRows fed.toAnswered,List.map_append,consecutive.decoded,List.map_singleton,fed.token]
  placed k row found := by
    have count : (decodeRows slot.requestId r.history).length = step := by
      rw [← List.length_map,consecutive.decoded,← consecutive.step,here]
    rw [answeredRows fed.toAnswered] at found
    rw [fed.cache]
    rcases Nat.lt_or_ge k step with before | past
    · rw [List.getElem?_append_left (by omega)] at found
      exact positionGrows fed.grows (consecutive.placed k row found)
    · rw [List.getElem?_append_right (by omega),List.getElem?_singleton] at found
      split at found <;> try contradiction
      rename_i last
      cases found
      obtain rfl : k = step := by omega
      exact fed.placed lengths

instance (run : ContinuousRun φ) (group : Nat × List Nat) (s : LoopState φ) : Decidable (NoneSkipped run group s) :=
  inferInstanceAs (Decidable (¬ _))

theorem placedRule (run : ContinuousRun φ) : EntryRule run (NoneSkipped run) Placed where
  untouched r t entry placed untouched :=
    ⟨placed.lengths,fun live => consecutiveUntouched untouched (placed.live live)⟩
  limit r entry placed := by
    unfold limitEntry
    split
    · exact ⟨placed.lengths,fun live => by cases live⟩
    · exact placed
  fate group s t entry slot' none placed live fate := by
    obtain ⟨unfinished,here⟩ := atStepLive live
    cases fate with
    | waits untouched => exact ⟨placed.lengths,fun live => consecutiveUntouched untouched (placed.live live)⟩
    | limit _ => exact ⟨placed.lengths,fun live => by cases live⟩
    | ended _ => exact ⟨placed.lengths,fun live => by cases live⟩
    | skipped skips => exact absurd skips none
    | advanced nextId _ _ fed =>
      exact ⟨placed.lengths,fun _ => consecutiveFed fed here placed.lengths (placed.live unfinished)⟩
  prefilled wave s t w k clientIndex slotIdx row place found := by
    obtain ⟨p⟩ := prefillOk w.prefill
    obtain ⟨_,called,lens,each⟩ := prefilledRow p
    obtain ⟨prompt,table,_,made⟩ := each k row found
    have listed : row.requestId ∈ p.prefilled.call.requestIds := by
      have bound : k < w.ids.length := by
        rw [← (prefilledRow p).1]
        exact (List.getElem?_eq_some_iff.mp found).1
      rw [called,made]
      exact List.mem_map.mpr ⟨k,List.mem_range.mpr bound,rfl⟩
    have rows : decodeRows row.requestId t.runtime.history = [] := by
      rw [waveHistory w p,decodeRows,if_pos listed,lens]
      rfl
    exact {
      lengths := by
        change row.promptLenI64 = row.promptLenUsize
        rw [made]
      live := fun _ => {
        step := rfl
        decoded := by
          change (decodeRows row.requestId _).map _ = _
          rw [rows]
          rfl
        placed := fun k' row' there => by
          change (decodeRows row.requestId _)[k']? = _ at there
          rw [rows] at there
          cases there}}

/-- In every state reached without a skip, each unfinished slot has counted as many steps as
it has tokens, and its next token goes to the position after theirs. -/
theorem stepsMatchTokens (run : ContinuousRun φ) (nextRequestId : Nat) (runtime : PagedCacheRuntime φ)
    {s : LoopState φ}
    (reached : ReachesVia (EveryTurnGroup run (NoneSkipped run)) (body run) (initial run nextRequestId runtime) s) :
    ∀ entry ∈ entries s, entry.slot.finished = false → Consecutive s.runtime entry.slot := by
  intro entry inside live
  obtain ⟨_,there,same⟩ := List.mem_filterMap.mp inside
  obtain ⟨i,found⟩ := List.mem_iff_getElem?.mp there
  cases same
  have tracked := keptReached (trackedKept (placedRule run)) reached (trackedInitial _ run nextRequestId runtime)
  exact (tracked.each i entry found).live live

def twoRows : ContinuousRun Unit where
  maxNumSeqs := 2
  thinker := ⟨9,false,fun _ call => .ok fun row _ => if row = 1 ∧ call.positionIds[row]? = some [8] then 2 else 5⟩
  prepared := [⟨List.replicate 8 7,List.replicate 8 1⟩,⟨[7],[1]⟩]
  audioFeatures := []
  maxNewTokens := 20
  eosTokenIds := [2]
  padId := 0

def fourBlocks : PagedCacheRuntime Unit := ⟨⟨8,5,40,false⟩,new 5 8,[]⟩

theorem stepsMatchTokensTwoRows : ∃ s,
    ReachesVia (EveryTurnGroup twoRows (NoneSkipped twoRows)) (body twoRows) (initial twoRows 0 fourBlocks) s ∧
    (∃ entry ∈ entries s, entry.slot.finished = false ∧ entry.slot.generated.length = 8) ∧
    ∀ entry ∈ entries s, entry.slot.finished = false → Consecutive s.runtime entry.slot := by
  have taken : ((steps (body twoRows) 9 (initial twoRows 0 fourBlocks)).any fun s => decide
      (∃ entry ∈ entries s, entry.slot.finished = false ∧ entry.slot.generated.length = 8)) = true := by
    decide +kernel
  have none : ∀ m < 9, (steps (body twoRows) m (initial twoRows 0 fourBlocks)).all (fun s => decide
      (EveryTurnGroup twoRows (NoneSkipped twoRows) s)) = true := by decide +kernel
  obtain ⟨s,nine,some⟩ := (Option.any_eq_true _ _).mp taken
  have reached := stepsVia (P := EveryTurnGroup twoRows (NoneSkipped twoRows)) nine fun m u less there => by
    have all := none m less
    rw [there] at all
    exact of_decide_eq_true all
  exact ⟨s,reached,of_decide_eq_true some,stepsMatchTokens twoRows 0 fourBlocks reached⟩

/-- At the ninth step the first row is refused a block and the second ends: the first row
counts the step without a token, and its ninth token goes past the position it belongs to. -/
theorem refusedRowSkipsPosition : newRuntime 5 8 false = .ok fourBlocks ∧
    (∃ s, Reaches (body twoRows) (initial twoRows 0 fourBlocks) s ∧ ∃ entry ∈ entries s,
      entry.slot.finished = false ∧ entry.slot.decodeStep = 9 ∧ entry.slot.generated.length = 8) ∧
    ∃ s, Reaches (body twoRows) (initial twoRows 0 fourBlocks) s ∧ ∃ entry ∈ entries s,
      entry.slot.finished = false ∧ entry.slot.promptLenUsize = 8 ∧
      ((decodeRows entry.slot.requestId s.runtime.history).map DecodeRow.position)[8]? = some [17] := by
  have skipped : ((steps (body twoRows) 10 (initial twoRows 0 fourBlocks)).any fun s => decide
      (∃ entry ∈ entries s, entry.slot.finished = false ∧ entry.slot.decodeStep = 9 ∧
        entry.slot.generated.length = 8)) = true := by decide +kernel
  have decoded : ((steps (body twoRows) 11 (initial twoRows 0 fourBlocks)).any fun s => decide
      (∃ entry ∈ entries s, entry.slot.finished = false ∧ entry.slot.promptLenUsize = 8 ∧
        ((decodeRows entry.slot.requestId s.runtime.history).map DecodeRow.position)[8]? = some [17])) = true := by
    decide +kernel
  obtain ⟨s,ten,counted⟩ := (Option.any_eq_true _ _).mp skipped
  obtain ⟨t,eleven,moved⟩ := (Option.any_eq_true _ _).mp decoded
  exact ⟨rfl,⟨s,stepsReach ten,of_decide_eq_true counted⟩,⟨t,stepsReach eleven,of_decide_eq_true moved⟩⟩

end Qwen3Asr.SchedulerPositions
