import Qwen3Asr.GreedyRefinement

/-! The batch that is not continuous generates the same greedy decodes, and so agrees with
continuous batching on the same rows. -/
namespace Qwen3Asr.BatchRefinement
open Library.Effect Library.Loop Library.Greedy
open BlockManager PagedMetadata BatchEngine DecodeOutcome PrefillOutcome PromptColumns CallHistory SlotFate RowOracle
open Scheduler SchedulerTurn SchedulerRules GreedyRefinement

variable {φ : Type}

def asSlot (step : Nat) (row : PagedBatchRow) : PagedDecodeSlot := {row with decodeStep := step}

def asPair (step : Nat) (row : PagedBatchRow) : PagedDecodeSlot × Bool := (asSlot step row,!row.finished)

def takenRows (eosTokenIds : List Nat) (step : Nat) (rows : List PagedBatchRow) : List (PagedDecodeSlot × Bool) :=
  (rows.map (asPair step)).map (takeSlotToken eosTokenIds)

section Taken
variable (eosTokenIds : List Nat) (step : Nat)

theorem takeRowTaken (row : PagedBatchRow) :
    (takeSlotToken eosTokenIds (asPair step row)).1.toPagedBatchRow = takeRowToken eosTokenIds row ∧
      (takeSlotToken eosTokenIds (asPair step row)).2 = !(takeRowToken eosTokenIds row).finished := by
  unfold takeRowToken asPair
  cases live : row.finished with
  | true => exact ⟨rfl,by simp [takeSlotToken,live]⟩
  | false => exact ⟨rfl,rfl⟩

theorem takenMap (rows : List PagedBatchRow) :
    (takenRows eosTokenIds step rows).map (·.1.toPagedBatchRow) = rows.map (takeRowToken eosTokenIds) := by
  rw [takenRows,List.map_map,List.map_map]
  exact List.map_congr_left fun row _ => (takeRowTaken eosTokenIds step row).1

theorem takenFlags (rows : List PagedBatchRow) :
    ∀ p ∈ takenRows eosTokenIds step rows, p.2 = !p.1.finished := by
  intro p inside
  obtain ⟨_,there,rfl⟩ := List.mem_map.mp inside
  obtain ⟨row,_,rfl⟩ := List.mem_map.mp there
  obtain ⟨same,flag⟩ := takeRowTaken eosTokenIds step row
  rw [flag,← same]

theorem flaggedRows {taken : List (PagedDecodeSlot × Bool)} (flags : ∀ p ∈ taken, p.2 = !p.1.finished) :
    (taken.map (·.1.toPagedBatchRow)).filter (!·.finished) = flagged taken := by
  unfold flagged
  rw [List.filter_map]
  exact congrArg _ (List.filter_congr fun p inside => (flags p inside).symm)

theorem setNextAdvance {taken : List (PagedDecodeSlot × Bool)} (flags : ∀ p ∈ taken, p.2 = !p.1.finished)
    (next : List Nat) : setNext (taken.map (·.1.toPagedBatchRow)) next =
      (advance taken next).map PagedDecodeSlot.toPagedBatchRow := by
  induction taken generalizing next with
  | nil => rfl
  | cons p taken ih =>
    obtain ⟨slot,flag⟩ := p
    have first := flags _ List.mem_cons_self
    have rest := ih fun p inside => flags p (List.mem_cons_of_mem _ inside)
    dsimp only at first
    subst first
    cases live : slot.finished with
    | true => cases next <;> simp [setNext,advance,live,rest]
    | false => cases next <;> simp [setNext,advance,live,rest]

end Taken

inductive Stepped (thinker : Thinker φ) (state : PagedBatchState) (r : PagedCacheRuntime φ) :
    Bool → PagedBatchState → PagedCacheRuntime φ → Prop where
  | idle (done : allFinished state = true ∨ state.maxNewTokens ≤ state.decodeStep) :
      Stepped thinker state r false state r
  | ended (rows : List PagedBatchRow) (state' : PagedBatchState) (t : PagedCacheRuntime φ)
      (below : state.decodeStep < state.maxNewTokens)
      (tables : List.Forall₂ (fun row row' => ∃ blockTable, row' = {row with blockTable}) state.rows rows)
      (none : flagged (takenRows state.eosTokenIds state.decodeStep rows) = [])
      (made : state' = {state with
        rows := (takenRows state.eosTokenIds state.decodeStep rows).map (·.1.toPagedBatchRow)
        decodeStep := state.decodeStep+1}) :
      Stepped thinker state r (!allFinished state') state' t
  | forwarded (rows : List PagedBatchRow) (state' : PagedBatchState) (t : PagedCacheRuntime φ)
      (blockTables : List (List Nat)) (call : ForwardCall φ) (logits : Nat → Nat → Nat)
      (below : state.decodeStep < state.maxNewTokens)
      (tables : List.Forall₂ (fun row row' => ∃ blockTable, row' = {row with blockTable}) state.rows rows)
      (forward : Forwarded thinker (flagged (takenRows state.eosTokenIds state.decodeStep rows)) blockTables
        state.decodeStep r call logits)
      (made : state' = {state with
        rows := (advance (takenRows state.eosTokenIds state.decodeStep rows)
          ((List.range (flagged (takenRows state.eosTokenIds state.decodeStep rows)).length).map
            (logits · 0))).map PagedDecodeSlot.toPagedBatchRow
        decodeStep := state.decodeStep+1})
      (calls : t.history = call::r.history) :
      Stepped thinker state r (!allFinished state') state' t

theorem zipTables {rows : List PagedBatchRow} {blockTables : List (List Nat)}
    (counted : rows.length = blockTables.length) :
    List.Forall₂ (fun row row' => ∃ blockTable, row' = {row with blockTable}) rows
      (rows.zipWith (fun row blockTable => {row with blockTable}) blockTables) := by
  induction rows generalizing blockTables with
  | nil => exact .nil
  | cons row rows ih =>
    cases blockTables with
    | nil => cases counted
    | cons blockTable blockTables => exact .cons ⟨blockTable,rfl⟩ (ih (Nat.succ.inj counted))

theorem decodeStepOk {thinker : Thinker φ} {state state' : PagedBatchState} {r t : PagedCacheRuntime φ}
    {continued : Bool} (ok : pagedBatchDecodeStep thinker state r = .ok (continued,state') t) :
    Stepped thinker state r continued state' t := by
  unfold pagedBatchDecodeStep at ok
  split at ok
  · rename_i all
    cases ok
    exact .idle (.inl all)
  split at ok
  · rename_i past
    cases ok
    exact .idle (.inr past)
  rename_i past
  have below : state.decodeStep < state.maxNewTokens := Nat.lt_of_not_le past
  obtain ⟨_,_,allocate,ok⟩ := bindOk.mp ok
  obtain ⟨m,_,rfl⟩ := managerMutOk.mp allocate
  obtain ⟨_,_,same,ok⟩ := bindOk.mp ok
  cases same
  obtain ⟨blockTables,_,tables,ok⟩ := bindOk.mp ok
  obtain ⟨read,rfl⟩ := attemptOk.mp tables
  obtain ⟨_,_,trimmed,ok⟩ := bindOk.mp ok
  obtain ⟨_,trim,rfl⟩ := managerMutOk.mp trimmed
  cases trim
  have counted : state.rows.length = blockTables.length := by
    simpa using (exceptMapM.mp read).length_eq
  have placed := zipTables counted
  have flags := takenFlags state.eosTokenIds state.decodeStep
    (state.rows.zipWith (fun row blockTable => {row with blockTable}) blockTables)
  rw [← takenMap state.eosTokenIds state.decodeStep,flaggedRows flags] at ok
  split at ok
  · rename_i none
    cases ok
    exact .ended _ _ _ below placed none rfl
  · obtain ⟨next,_,last,ok⟩ := bindOk.mp ok
    obtain ⟨call,logits,forward,rfl,rfl⟩ := decodeForwardOk last
    cases ok
    exact .forwarded _ _ _ _ call logits below placed
      ⟨forward.ids,forward.columns,forward.positions,forward.metadata,forward.answered⟩
      (by rw [setNextAdvance flags]) rfl

section Batch
variable (thinker : Thinker φ) (choose : List (Column φ) → List Nat → Nat) (eosTokenIds : List Nat)
  (maxNewTokens requestIdBase : Nat) (prompts : List (List (Column φ)))

structure RowsServed (step : Nat) (rows : List PagedBatchRow) (r : PagedCacheRuntime φ) : Prop where
  counted : rows.length = prompts.length
  ids : rows.map PagedBatchRow.requestId = (List.range rows.length).map (requestIdBase+·)
  refines : List.Forall₂ (fun row prompt => Refines thinker choose eosTokenIds maxNewTokens prompt r (asSlot step row))
    rows prompts

end Batch

section Steps
variable {thinker : Thinker φ} {choose : List (Column φ) → List Nat → Nat} {eosTokenIds : List Nat}
  {maxNewTokens requestIdBase : Nat} {prompts : List (List (Column φ))} {r t : PagedCacheRuntime φ}

theorem refinesTable {prompt : List (Column φ)} {step : Nat} {row : PagedBatchRow} (blockTable : List Nat)
    (refines : Refines thinker choose eosTokenIds maxNewTokens prompt r (asSlot step row)) :
    Refines thinker choose eosTokenIds maxNewTokens prompt r (asSlot step {row with blockTable}) where
  live unfinished := by
    have generating := refines.live unfinished
    exact ⟨generating.prompted,generating.decoded,generating.step,generating.next,generating.underway⟩
  ended := refines.ended

theorem rowsTables {step : Nat} {rows rows' : List PagedBatchRow}
    (tables : List.Forall₂ (fun row row' => ∃ blockTable, row' = {row with blockTable}) rows rows')
    (served : RowsServed thinker choose eosTokenIds maxNewTokens requestIdBase prompts step rows r) :
    RowsServed thinker choose eosTokenIds maxNewTokens requestIdBase prompts step rows' r where
  counted := tables.length_eq ▸ served.counted
  ids := by
    rw [← tables.length_eq,← served.ids]
    clear served
    induction tables with
    | nil => rfl
    | cons head _ ih =>
      obtain ⟨_,rfl⟩ := head
      rw [List.map_cons,ih,List.map_cons]
  refines := by
    have refines := served.refines
    clear served
    induction tables generalizing prompts with
    | nil => exact refines
    | cons head _ ih =>
      obtain ⟨blockTable,rfl⟩ := head
      cases refines with
      | cons first rest => exact .cons (refinesTable blockTable first) (ih rest)

theorem pairsHere (step : Nat) (rows : List PagedBatchRow) :
    ∀ p ∈ rows.map (asPair step), p.2 = true → atStep step p.1 = true := by
  intro p inside live
  obtain ⟨row,_,rfl⟩ := List.mem_map.mp inside
  simpa [atStep,asPair,asSlot] using live

/- A row kept, ended or moved on by the step refines the same decode one step later. -/
theorem refinesServed (rowWise : RowWise thinker choose) {prompt : List (Column φ)} {step : Nat}
    (below : step < maxNewTokens) {row : PagedBatchRow} {slot' : PagedDecodeSlot} {active : List PagedBatchRow}
    {blockTables : List (List Nat)} {call : ForwardCall φ} {logits : Nat → Nat → Nat}
    (forward : Forwarded thinker active blockTables step r call logits) (calls : t.history = call::r.history)
    (once : (active.map PagedBatchRow.requestId).Nodup)
    (refines : Refines thinker choose eosTokenIds maxNewTokens prompt r (asSlot step row))
    (served : Served eosTokenIds active logits (asPair step row) slot') :
    Refines thinker choose eosTokenIds maxNewTokens prompt t (asSlot (step+1) slot'.toPagedBatchRow) := by
  generalize same : asPair step row = pair at served
  cases served with
  | waits slot =>
    obtain ⟨rfl,dead⟩ : asSlot step row = slot' ∧ row.finished = true := by simpa [asPair] using same
    exact ⟨fun live => absurd dead (by simpa [asSlot] using live),refines.ended⟩
  | ended slot stop =>
    obtain ⟨rfl,live⟩ : asSlot step row = slot ∧ row.finished = false := by simpa [asPair] using same
    have decoded := generatingStopped (refines.live live) stop
    exact ⟨fun no => (by cases no),fun _ => decoded⟩
  | advanced slot k goes found =>
    obtain ⟨rfl,live⟩ : asSlot step row = slot ∧ row.finished = false := by simpa [asPair] using same
    exact refinesFed rowWise (refines.live live) live below goes (forwardedAnswered forward calls once found)

theorem servedId {active : List PagedBatchRow} {logits : Nat → Nat → Nat} {p : PagedDecodeSlot × Bool}
    {slot' : PagedDecodeSlot} (served : Served eosTokenIds active logits p slot') :
    slot'.requestId = p.1.requestId := by
  cases served <;> rfl

theorem activeIds {step : Nat} {rows : List PagedBatchRow}
    (served : RowsServed thinker choose eosTokenIds maxNewTokens requestIdBase prompts step rows r) :
    ((flagged (takenRows eosTokenIds step rows)).map PagedBatchRow.requestId).Nodup := by
  have sublist : List.Sublist _ ((takenRows eosTokenIds step rows).map (·.1.requestId)) := flaggedIds
  have all : (takenRows eosTokenIds step rows).map (·.1.requestId) = rows.map PagedBatchRow.requestId := by
    rw [takenRows,takenIds,List.map_map]
    rfl
  rw [all,served.ids] at sublist
  exact sublist.nodup (List.nodup_range.map fun _ _ same => Nat.add_left_cancel same)

theorem rowsMoved {step : Nat} {rows : List PagedBatchRow} {slots : List PagedDecodeSlot}
    (served : RowsServed thinker choose eosTokenIds maxNewTokens requestIdBase prompts step rows r)
    (moved : List.Forall₂ (fun row slot' => slot'.requestId = row.requestId ∧ ∀ prompt,
      Refines thinker choose eosTokenIds maxNewTokens prompt r (asSlot step row) →
      Refines thinker choose eosTokenIds maxNewTokens prompt t (asSlot (step+1) slot'.toPagedBatchRow)) rows slots) :
    RowsServed thinker choose eosTokenIds maxNewTokens requestIdBase prompts (step+1)
      (slots.map PagedDecodeSlot.toPagedBatchRow) t where
  counted := by
    rw [List.length_map,← moved.length_eq]
    exact served.counted
  ids := by
    rw [List.length_map,← moved.length_eq,← served.ids]
    clear served
    induction moved with
    | nil => rfl
    | cons head _ ih => exact List.cons_eq_cons.mpr ⟨head.1,ih⟩
  refines := by
    have refines := served.refines
    clear served
    induction moved generalizing prompts with
    | nil => cases refines; exact .nil
    | cons head _ ih =>
      cases refines with
      | cons first rest => exact .cons (head.2 _ first) (ih rest)

theorem endedMoved {step : Nat} {rows : List PagedBatchRow} (none : flagged (takenRows eosTokenIds step rows) = []) :
    List.Forall₂ (fun row slot' => slot'.requestId = row.requestId ∧ ∀ prompt,
      Refines thinker choose eosTokenIds maxNewTokens prompt r (asSlot step row) →
      Refines thinker choose eosTokenIds maxNewTokens prompt t (asSlot (step+1) slot'.toPagedBatchRow)) rows
      ((takenRows eosTokenIds step rows).map Prod.fst) := by
  rw [takenRows,List.map_map,List.map_map,List.forall₂_map_right_iff]
  refine List.forall₂_same.mpr fun row inside => ⟨takeSlotTokenId _,fun prompt refines => ?_⟩
  have inactive := flaggedNil.mp none _ (List.mem_map_of_mem (List.mem_map_of_mem inside))
  cases live : row.finished with
  | true =>
    have same : takeSlotToken eosTokenIds (asPair step row) = (asSlot step row,false) := by
      simp [takeSlotToken,asPair,live]
    rw [Function.comp_apply,Function.comp_apply,same]
    exact ⟨fun no => absurd live (by simpa [asSlot] using no),refines.ended⟩
  | false =>
    have pair : asPair step row = (asSlot step row,true) := by simp [asPair,live]
    rw [Function.comp_apply,Function.comp_apply,pair]
    rw [pair] at inactive
    rcases takenServed eosTokenIds (show (asSlot step row).finished = false from live) with ⟨stop,same⟩ | ⟨_,same⟩
    · have decoded := generatingStopped (refines.live live) stop
      rw [same]
      exact ⟨fun no => (by cases no),fun _ => decoded⟩
    · rw [same] at inactive
      cases inactive

/- One step of the batch; when it is the last, nothing is left to decode. -/
theorem steppedServed (rowWise : RowWise thinker choose) {state state' : PagedBatchState} {continued : Bool}
    (served : RowsServed thinker choose state.eosTokenIds state.maxNewTokens requestIdBase prompts
      state.decodeStep state.rows r) (stepped : Stepped thinker state r continued state' t) :
    RowsServed thinker choose state.eosTokenIds state.maxNewTokens requestIdBase prompts
      state'.decodeStep state'.rows t ∧
    state'.eosTokenIds = state.eosTokenIds ∧ state'.maxNewTokens = state.maxNewTokens ∧
    (continued = true → state'.decodeStep = state.decodeStep+1) ∧
    (continued = false → allFinished state' = true ∨ state'.maxNewTokens ≤ state'.decodeStep) := by
  cases stepped with
  | idle done => exact ⟨served,rfl,rfl,fun yes => (by cases yes),fun _ => done⟩
  | ended rows _ _ below tables none made =>
    have moved := rowsMoved (t := t) (rowsTables tables served) (endedMoved none)
    rw [List.map_map] at moved
    subst made
    exact ⟨moved,rfl,rfl,fun _ => rfl,fun no => .inl (by simpa using no)⟩
  | forwarded rows _ _ blockTables call logits below tables forward made calls =>
    have placed := rowsTables tables served
    have pairs := forwardedSlots state.eosTokenIds (pairsHere state.decodeStep rows) logits
    rw [List.forall₂_map_left_iff] at pairs
    have moved := rowsMoved (t := t) placed (pairs.imp fun row slot' related => ⟨servedId related,fun prompt refines =>
      refinesServed rowWise below forward calls (activeIds placed) refines related⟩)
    subst made
    exact ⟨moved,rfl,rfl,fun _ => rfl,fun no => .inl (by simpa using no)⟩

theorem runStepsServed (rowWise : RowWise thinker choose) {turns : Nat} {state state' : PagedBatchState}
    (enough : state.maxNewTokens ≤ turns+state.decodeStep)
    (served : RowsServed thinker choose state.eosTokenIds state.maxNewTokens requestIdBase prompts
      state.decodeStep state.rows r) (ok : runSteps thinker turns state r = .ok state' t) :
    RowsServed thinker choose state.eosTokenIds state.maxNewTokens requestIdBase prompts
      state'.decodeStep state'.rows t ∧ (allFinished state' = true ∨ state.maxNewTokens ≤ state'.decodeStep) := by
  induction turns generalizing state r with
  | zero =>
    cases ok
    exact ⟨served,.inr (by omega)⟩
  | succ turns ih =>
    unfold runSteps at ok
    split at ok
    · rename_i busy
      obtain ⟨⟨continued,next⟩,u,stepOk,ok⟩ := bindOk.mp ok
      obtain ⟨after,eos,limit,goesOn,stops⟩ := steppedServed rowWise served (decodeStepOk stepOk)
      dsimp only at ok
      split at ok
      · rename_i more
        have counted := goesOn more
        have rest := ih (by omega) (eos ▸ limit ▸ after) ok
        rwa [eos,limit] at rest
      · rename_i last
        cases ok
        exact ⟨after,limit ▸ stops (by simpa using last)⟩
    · rename_i idle
      cases ok
      refine ⟨served,?_⟩
      rw [Bool.and_eq_true,not_and_or] at idle
      rcases idle with past | all
      · exact .inr (by simpa using past)
      · exact .inl (by simpa using all)

theorem rowsDone {step : Nat} {rows : List PagedBatchRow} (all : ∀ row ∈ rows, row.finished = true ∨ maxNewTokens ≤ step)
    (served : RowsServed thinker choose eosTokenIds maxNewTokens requestIdBase prompts step rows r) :
    rows.map PagedBatchRow.generated = prompts.map (greedyDecode choose eosTokenIds maxNewTokens) := by
  have refines := served.refines
  clear served
  induction refines with
  | nil => rfl
  | @cons row prompt _ _ first _ ih =>
    have rest := ih fun other inside => all other (List.mem_cons_of_mem _ inside)
    have here : row.generated = greedyDecode choose eosTokenIds maxNewTokens prompt := by
      cases live : row.finished with
      | true => exact first.ended live
      | false =>
        have past : maxNewTokens ≤ step := by simpa [live] using all row List.mem_cons_self
        exact generatingFull (first.live live) past
    exact List.cons_eq_cons.mpr ⟨here,rest⟩

end Steps

theorem prefillServed {thinker : Thinker φ} {choose : List (Column φ) → List Nat → Nat}
    (rowWise : RowWise thinker choose) {inputIds attentionMask prompts : List (List Nat)} {audio : List φ}
    {config : PagedBatchConfig} {r t : PagedCacheRuntime φ} {state : PagedBatchState}
    (counted : inputIds.length = prompts.length)
    (pads : List.Forall₂ (Pads thinker.audioTokenId) (inputIds.zip attentionMask) prompts)
    (p : PrefillOk thinker inputIds attentionMask (some audio) config r state t) :
    RowsServed thinker choose config.eosTokenIds config.maxNewTokens config.requestIdBase
      (mergeRows thinker.audioTokenId audio 0 prompts) 0 state.rows t := by
  have rows := (prefilledRow p).1
  have columns := mergeRowsLength thinker.audioTokenId audio 0 prompts
  have each (k : Nat) (bound : k < state.rows.length)
      (inside : k < (mergeRows thinker.audioTokenId audio 0 prompts).length) :
      state.rows[k].requestId = config.requestIdBase+k ∧ state.rows[k].generated = [] ∧
        Refines thinker choose config.eosTokenIds config.maxNewTokens
          (mergeRows thinker.audioTokenId audio 0 prompts)[k] t (asSlot 0 state.rows[k]) :=
    refinesPrefilled rowWise p pads (List.getElem?_eq_getElem bound) (List.getElem?_eq_getElem inside)
  exact {
    counted := by omega
    ids := List.ext_getElem (by simp) fun k bound _ => by
      have row := each k (by simpa using bound) (by rw [List.length_map] at bound; omega)
      simpa using row.1
    refines := List.forall₂_iff_get.mpr ⟨by omega,fun k bound inside => (each k bound inside).2.2⟩}

/-- A batch that returns has decoded every prompt greedily. -/
theorem batchGreedy {thinker : Thinker φ} {choose : List (Column φ) → List Nat → Nat} (rowWise : RowWise thinker choose)
    {inputIds attentionMask prompts : List (List Nat)} {audio : List φ} {config : PagedBatchConfig}
    {r t : PagedCacheRuntime φ} {outputs : List (List Nat)} (counted : inputIds.length = prompts.length)
    (pads : List.Forall₂ (Pads thinker.audioTokenId) (inputIds.zip attentionMask) prompts)
    (ok : pagedBatchRun thinker inputIds attentionMask (some audio) config r = .ok outputs t) :
    outputs = (mergeRows thinker.audioTokenId audio 0 prompts).map
      (greedyDecode choose config.eosTokenIds config.maxNewTokens) := by
  unfold pagedBatchRun at ok
  split at ok
  · rename_i empty
    cases ok
    obtain rfl : prompts = [] := List.eq_nil_of_length_eq_zero (by omega)
    rfl
  split at ok
  · rename_i zero
    cases ok
    have same : (mergeRows thinker.audioTokenId audio 0 prompts).map
        (greedyDecode choose config.eosTokenIds config.maxNewTokens) =
          (mergeRows thinker.audioTokenId audio 0 prompts).map fun _ => [] := by
      rw [zero]
      rfl
    rw [same,List.map_const',mergeRowsLength,counted]
  obtain ⟨_,u,_,ok⟩ := bindOk.mp ok
  obtain ⟨state,v,prefill,ok⟩ := bindOk.mp ok
  obtain ⟨last,w,steps,ok⟩ := bindOk.mp ok
  obtain ⟨_,_,_,ok⟩ := bindOk.mp ok
  cases ok
  obtain ⟨p⟩ := prefillOk prefill
  have start : RowsServed thinker choose state.eosTokenIds state.maxNewTokens config.requestIdBase
      (mergeRows thinker.audioTokenId audio 0 prompts) state.decodeStep state.rows v := by
    rw [p.decodeStep,p.maxNewTokens,p.eosTokenIds]
    exact prefillServed rowWise counted pads p
  obtain ⟨served,stopped⟩ := runStepsServed rowWise (by rw [p.maxNewTokens]; omega) start steps
  rw [← p.maxNewTokens,← p.eosTokenIds]
  refine rowsDone (fun row inside => ?_) served
  rcases stopped with all | past
  · exact .inl (List.all_eq_true.mp all row inside)
  · exact .inr past

/-- Continuous batching without a refused block returns the greedy decode of every prompt, each
client admitted once under its own request, and agrees with the batch on the same prompts. -/
theorem continuousRefinesGreedy (run : ContinuousRun φ) (choose : List (Column φ) → List Nat → Nat)
    (prompts : List (List Nat)) (nextRequestId : Nat) (r : PagedCacheRuntime φ)
    (rowWise : RowWise run.thinker choose) (prepared : Prepared run prompts)
    (none : ∀ s, Reaches (body run) (initial run nextRequestId r) s → EveryTurnGroup run (NoneRefused run) s) :
    ∀ fuel outputs left, runContinuousPrepared run nextRequestId r fuel = some (.ok outputs,left) →
      outputs.length = run.prepared.length ∧
      outputs = (clientPrompts run prompts).map (greedyDecode choose run.eosTokenIds run.maxNewTokens) ∧
      (run.maxNewTokens ≠ 0 →
        admitted left.2.history = admitted r.history ++ List.range' nextRequestId run.prepared.length) ∧
      (∀ s, Reaches (body run) (initial run nextRequestId r) s →
        ∀ entry ∈ entries s, entry.slot.requestId = nextRequestId+entry.clientIndex) ∧
      ∀ inputIds attentionMask requestIdBase r' outputs' t', inputIds.length = prompts.length →
        List.Forall₂ (Pads run.thinker.audioTokenId) (inputIds.zip attentionMask) prompts →
        pagedBatchRun run.thinker inputIds attentionMask (some run.audioFeatures)
          ⟨run.maxNewTokens,run.eosTokenIds,requestIdBase⟩ r' = .ok outputs' t' → outputs' = outputs := by
  intro fuel outputs left returns
  obtain ⟨decoded,admits⟩ := continuousGreedy rowWise prepared none returns
  subst decoded
  refine ⟨goalsLength choose prepared,rfl,admits,fun s reached entry inside => ?_,
    fun _ _ _ _ _ _ counted pads ok => batchGreedy rowWise counted pads ok⟩
  have kept := servedKept rowWise prepared nextRequestId (admitted r.history)
  obtain ⟨_,served⟩ := keptReached kept (reachesVia none reached) ⟨0,servedInitial choose run nextRequestId r⟩
  obtain ⟨_,there,same⟩ := List.mem_filterMap.mp inside
  obtain ⟨i,found⟩ := List.mem_iff_getElem?.mp there
  cases same
  exact served.own i entry found

/- A model that reads each row's prompt and tokens back from the calls it was fed. -/
def rowReader (audioTokenId : Nat) (choose : List (Column φ) → List Nat → Nat) : Thinker φ where
  audioTokenId
  usePackedCudaPrefill := false
  forward history call := .ok fun row _ => match call.requestIds[row]? with
    | some requestId => choose (promptOf false requestId (call::history))
      ((decodeRows requestId (call::history)).map DecodeRow.token)
    | none => 0

theorem rowReaderRowWise (audioTokenId : Nat) (choose : List (Column φ) → List Nat → Nat) :
    RowWise (rowReader audioTokenId choose) choose := by
  intro history call logits answered requestId listed
  cases answered
  have row : (answerOf false call requestId).1 = call.requestIds.idxOf requestId := by
    unfold answerOf
    split <;> rfl
  change (match call.requestIds[(answerOf false call requestId).1]? with
    | some requestId => _
    | none => 0) = _
  rw [row,List.getElem?_idxOf listed]
  rfl

def countingUp (prompt : List (Column Unit)) (generated : List Nat) : Nat := prompt.length+generated.length

def twoPrompts : ContinuousRun Unit where
  maxNumSeqs := 1
  thinker := rowReader 9 countingUp
  prepared := [⟨[7,0],[1,0]⟩,⟨[7,7],[1,1]⟩]
  audioFeatures := []
  maxNewTokens := 4
  eosTokenIds := [5]
  padId := 0

def eightBlocks : PagedCacheRuntime Unit := ⟨⟨8,9,72,false⟩,new 9 8,[]⟩

theorem continuousRefinesGreedyTwoPrompts : ∃ outputs left,
    runContinuousPrepared twoPrompts 0 eightBlocks 12 = some (.ok outputs,left) ∧
    outputs = [[1,2,3,4],[2,3,4]] ∧ admitted left.2.history = [0,1] ∧
    outputs = (clientPrompts twoPrompts [[7],[7,7]]).map (greedyDecode countingUp [5] 4) ∧
    ∀ outputs' t', pagedBatchRun twoPrompts.thinker [[7,0],[7,7]] [[1,0],[1,1]] (some []) ⟨4,[5],0⟩ eightBlocks =
      .ok outputs' t' → outputs' = outputs := by
  have returns : ((runContinuousPrepared twoPrompts 0 eightBlocks 12).any fun result => match result.1 with
      | .ok outputs => outputs = [[1,2,3,4],[2,3,4]]
      | .error _ => false) = true := by decide +kernel
  have halts : (steps (body twoPrompts) 12 (initial twoPrompts 0 eightBlocks)).isNone = true := by decide +kernel
  have granted : ∀ m < 12, (steps (body twoPrompts) m (initial twoPrompts 0 eightBlocks)).all (fun s => decide
      (EveryTurnGroup twoPrompts (NoneRefused twoPrompts) s)) = true := by decide +kernel
  obtain ⟨⟨result,left⟩,done,listed⟩ := (Option.any_eq_true _ _).mp returns
  cases result with
  | error e => cases listed
  | ok outputs =>
    have pads : List.Forall₂ (Pads 9) [([7,0],[1,0]),([7,7],[1,1])] [[7],[7,7]] :=
      .cons ⟨[0],by decide,rfl,rfl⟩ (.cons ⟨[],by decide,rfl,rfl⟩ .nil)
    have prepared : Prepared twoPrompts [[7],[7,7]] :=
      ⟨.cons ⟨[0],by decide,rfl,rfl⟩ (.cons ⟨[],by decide,rfl,rfl⟩ .nil),by decide⟩
    obtain ⟨_,decoded,admits,_,agrees⟩ := continuousRefinesGreedy twoPrompts countingUp [[7],[7,7]] 0 eightBlocks
      (rowReaderRowWise 9 countingUp) prepared (fun s reached => reachedWithin (Option.isNone_iff_eq_none.mp halts)
        (fun m t less taken => by
          have all := granted m less
          rw [taken] at all
          exact of_decide_eq_true all) reached) 12 outputs left done
    exact ⟨outputs,left,done,of_decide_eq_true listed,admits (by decide),decoded,
      fun outputs' t' ok => agrees [[7,0],[7,7]] [[1,0],[1,1]] 0 eightBlocks outputs' t' rfl pads ok⟩

end Qwen3Asr.BatchRefinement
