import Qwen3Asr.BatchEngine

/-! What one decode step does to its slots and to the cache runtime. -/
namespace Qwen3Asr.DecodeOutcome
open Library.Effect Library.Word
open BlockManager PagedMetadata PromptPositions BatchEngine

variable {φ : Type}

def tokensWanted (slot : PagedDecodeSlot) : Nat := slot.promptLenUsize+slot.generated.length+1

structure Forwarded (thinker : Thinker φ) (rows : List PagedBatchRow) (blockTables : List (List Nat))
    (step : Nat) (r : PagedCacheRuntime φ) (call : ForwardCall φ) (logits : Nat → Nat → Nat) : Prop where
  ids : call.requestIds = rows.map PagedBatchRow.requestId
  columns : call.columns = rows.map fun row => [⟨row.generated.getLastD row.nextId,none⟩]
  positions : positionIdsForStep (rows.map PagedBatchRow.promptLenI64) step = .ok call.positionIds
  metadata : decodeMetadataForBatchStep r.cache blockTables (rows.map PagedBatchRow.promptLenUsize) step =
    .ok call.metadata
  answered : thinker.forward r.history call = .ok logits

theorem runForwardOk {thinker : Thinker φ} {call : ForwardCall φ} {r t : PagedCacheRuntime φ}
    {logits : Nat → Nat → Nat} : runForward thinker call r = .ok logits t ↔
      thinker.forward r.history call = .ok logits ∧ t = {r with history := call::r.history} := by
  unfold runForward
  cases thinker.forward r.history call <;> simp [eq_comm]

theorem decodeForwardOk {thinker : Thinker φ} {rows : List PagedBatchRow} {blockTables : List (List Nat)}
    {step : Nat} {r t : PagedCacheRuntime φ} {next : List Nat}
    (ok : decodeForward thinker rows blockTables step r = .ok next t) :
    ∃ call logits, Forwarded thinker rows blockTables step r call logits ∧
      next = (List.range rows.length).map (logits · 0) ∧ t = {r with history := call::r.history} := by
  unfold decodeForward at ok
  obtain ⟨positions,_,first,ok⟩ := bindOk.mp ok
  obtain ⟨placed,rfl⟩ := attemptOk.mp first
  obtain ⟨_,_,same,ok⟩ := bindOk.mp ok
  cases same
  obtain ⟨metadata,_,second,ok⟩ := bindOk.mp ok
  obtain ⟨built,rfl⟩ := attemptOk.mp second
  obtain ⟨logits,_,third,ok⟩ := bindOk.mp ok
  obtain ⟨answered,rfl⟩ := runForwardOk.mp third
  cases ok
  exact ⟨_,logits,⟨rfl,rfl,placed,built,answered⟩,rfl,rfl⟩

theorem managerMutOk {α : Type} {x : Managed α} {r t : PagedCacheRuntime φ} {a : α} :
    managerMut x r = .ok a t ↔ ∃ m, x r.manager = .ok a m ∧ {r with manager := m} = t := zoomOk

theorem allocateNextOk {step : Nat} {slot : PagedDecodeSlot} {m t : PagedBlockManager} {granted : Bool}
    (ok : allocateNext step slot m = .ok granted t) :
    (granted = true → atStep step slot = true ∧
      tryAllocateSlots slot.requestId (tokensWanted slot) m = .ok true t) ∧
    (granted = false → t = m ∧
      (atStep step slot = true → tokensWanted slot < 2^64 ∧
        slotsAvailableFor m slot.requestId (tokensWanted slot) = false)) := by
  unfold allocateNext at ok
  split at ok
  · rename_i here
    obtain ⟨numTokens,_,count,ok⟩ := bindOk.mp ok
    obtain ⟨counted,rfl⟩ := attemptOk.mp count
    simp only [okOrOk,Option.bind_eq_some_iff,checkedAddSome] at counted
    obtain ⟨_,⟨_,rfl⟩,fits,rfl⟩ := counted
    refine ⟨fun yes => ⟨here,yes ▸ ok⟩,fun no => ?_⟩
    subst no
    have same : t = m := by
      rcases tryAllocateCases m slot.requestId (tokensWanted slot) with ⟨_,h⟩ | ⟨_,h⟩ | ⟨_,_,h⟩
      all_goals
        change tryAllocateSlots slot.requestId (tokensWanted slot) m = _ at ok
        rw [ok] at h
        cases h
      rfl
    subst same
    exact ⟨rfl,fun _ => ⟨fits,(refusedIff _ _ _).mp ok⟩⟩
  · rename_i away
    cases ok
    exact ⟨fun yes => Bool.noConfusion yes,fun _ => ⟨rfl,fun here => absurd here away⟩⟩

inductive Decoded (thinker : Thinker φ) (slots : List PagedDecodeSlot) (step maxNewTokens : Nat)
    (eosTokenIds : List Nat) (r : PagedCacheRuntime φ) : List PagedDecodeSlot → PagedCacheRuntime φ → Prop where
  | idle (away : ∀ slot ∈ slots, atStep step slot = false) :
      Decoded thinker slots step maxNewTokens eosTokenIds r slots r
  | limit (past : maxNewTokens ≤ step) :
      Decoded thinker slots step maxNewTokens eosTokenIds r (slots.map ({· with finished := true})) r
  | refused (granted : List Bool) (m : PagedBlockManager) (below : step < maxNewTokens)
      (some : eosTokenIds ≠ []) (asked : Chain (allocateNext step) slots r.manager granted m)
      (none : granted.any id = false) :
      Decoded thinker slots step maxNewTokens eosTokenIds r slots {r with manager := m}
  | ended (granted : List Bool) (m : PagedBlockManager) (below : step < maxNewTokens)
      (asked : Chain (allocateNext step) slots r.manager granted m) (served : granted.any id = true)
      (none : flagged ((slots.zip granted).map (takeSlotToken eosTokenIds)) = []) :
      Decoded thinker slots step maxNewTokens eosTokenIds r
        (((slots.zip granted).map (takeSlotToken eosTokenIds)).map (skipStep step ·.1))
        {r with manager := trimEnded eosTokenIds (flagged (slots.zip granted)) m}
  | forwarded (granted : List Bool) (m : PagedBlockManager) (blockTables : List (List Nat))
      (call : ForwardCall φ) (logits : Nat → Nat → Nat) (below : step < maxNewTokens)
      (asked : Chain (allocateNext step) slots r.manager granted m)
      (some : flagged ((slots.zip granted).map (takeSlotToken eosTokenIds)) ≠ [])
      (read : blockTablesFor (trimEnded eosTokenIds (flagged (slots.zip granted)) m)
        ((flagged ((slots.zip granted).map (takeSlotToken eosTokenIds))).map PagedBatchRow.requestId) =
          .ok blockTables)
      (forward : Forwarded thinker (flagged ((slots.zip granted).map (takeSlotToken eosTokenIds)))
        blockTables step r call logits) :
      Decoded thinker slots step maxNewTokens eosTokenIds r
        (advance ((slots.zip granted).map (takeSlotToken eosTokenIds))
          ((List.range (flagged ((slots.zip granted).map (takeSlotToken eosTokenIds))).length).map (logits · 0)))
        {r with
          manager := trimEnded eosTokenIds (flagged (slots.zip granted)) m
          history := call::r.history}

theorem decodeSlotsOk {thinker : Thinker φ} {slots slots' : List PagedDecodeSlot} {step maxNewTokens : Nat}
    {eosTokenIds : List Nat} {r t : PagedCacheRuntime φ}
    (ok : pagedBatchDecodeSlotsAtStep thinker slots step maxNewTokens eosTokenIds r = .ok slots' t) :
    Decoded thinker slots step maxNewTokens eosTokenIds r slots' t := by
  unfold pagedBatchDecodeSlotsAtStep at ok
  split at ok
  · rename_i empty
    cases ok
    exact .idle (by simp [empty])
  split at ok
  · rename_i past
    cases ok
    exact .limit past
  split at ok
  · cases ok
  split at ok
  · rename_i away
    cases ok
    exact .idle (by simpa using away)
  rename_i past some _
  have below : step < maxNewTokens := Nat.lt_of_not_le past
  obtain ⟨granted,_,ask,ok⟩ := bindOk.mp ok
  obtain ⟨m,chained,rfl⟩ := managerMutOk.mp ask
  have asked := mapMChain.mp chained
  split at ok
  · rename_i none
    cases ok
    exact .refused granted m below some asked (by simpa using none)
  rename_i served
  obtain ⟨_,_,trimmed,ok⟩ := bindOk.mp ok
  obtain ⟨_,trim,rfl⟩ := managerMutOk.mp trimmed
  cases trim
  split at ok
  · rename_i none
    cases ok
    exact .ended granted m below asked (by simpa using served) none
  rename_i active
  obtain ⟨_,_,same,ok⟩ := bindOk.mp ok
  cases same
  obtain ⟨blockTables,_,tables,ok⟩ := bindOk.mp ok
  obtain ⟨read,rfl⟩ := attemptOk.mp tables
  obtain ⟨next,_,last,ok⟩ := bindOk.mp ok
  obtain ⟨call,logits,forward,rfl,rfl⟩ := decodeForwardOk last
  cases ok
  exact .forwarded granted m blockTables call logits below asked active read
    ⟨forward.ids,forward.columns,forward.positions,forward.metadata,forward.answered⟩

theorem atStepLive {step : Nat} {slot : PagedDecodeSlot} (here : atStep step slot = true) :
    slot.finished = false ∧ slot.decodeStep = step := by
  simpa [atStep] using here

theorem chainGranted {step : Nat} {slots : List PagedDecodeSlot} {m t : PagedBlockManager} {granted : List Bool}
    (asked : Chain (allocateNext step) slots m granted t) :
    ∀ p ∈ slots.zip granted, p.2 = true → atStep step p.1 = true := by
  induction asked with
  | nil => simp
  | cons head _ ih =>
    intro p inside
    rcases List.mem_cons.mp inside with rfl | inside
    · exact fun yes => ((allocateNextOk head).1 yes).1
    · exact ih p inside

theorem chainRefused {step : Nat} {slots : List PagedDecodeSlot} {m t : PagedBlockManager} {granted : List Bool}
    (asked : Chain (allocateNext step) slots m granted t) (none : granted.any id = false) :
    t = m ∧ ∀ slot ∈ slots, atStep step slot = true → tokensWanted slot < 2^64 ∧
      slotsAvailableFor m slot.requestId (tokensWanted slot) = false := by
  induction asked with
  | nil => exact ⟨rfl,by simp⟩
  | cons head _ ih =>
    simp only [List.any_cons,id_eq,Bool.or_eq_false_iff] at none
    obtain ⟨refused,none⟩ := none
    obtain ⟨rfl,starved⟩ := (allocateNextOk head).2 refused
    obtain ⟨rfl,others⟩ := ih none
    refine ⟨rfl,fun slot inside => ?_⟩
    rcases List.mem_cons.mp inside with rfl | inside
    · exact starved
    · exact others slot inside

theorem zipGranted {step : Nat} {slots : List PagedDecodeSlot} {m t : PagedBlockManager} {granted : List Bool}
    (asked : Chain (allocateNext step) slots m granted t) : (slots.zip granted).map Prod.fst = slots := by
  rw [List.map_fst_zip]
  exact Nat.le_of_eq (chainLength asked).symm

theorem takenServed (eosTokenIds : List Nat) {slot : PagedDecodeSlot} (live : slot.finished = false) :
    (eosTokenIds.contains slot.nextId = true ∧
      takeSlotToken eosTokenIds (slot,true) = ({slot with finished := true},false)) ∨
    (eosTokenIds.contains slot.nextId = false ∧
      takeSlotToken eosTokenIds (slot,true) = ({slot with generated := slot.generated ++ [slot.nextId]},true)) := by
  cases ended : eosTokenIds.contains slot.nextId with
  | true => exact .inl ⟨rfl,by simp only [takeSlotToken,takeToken,ended]; rfl⟩
  | false => exact .inr ⟨rfl,by simp only [takeSlotToken,takeToken,ended]; simp [live]⟩

theorem flaggedNil {slots : List (PagedDecodeSlot × Bool)} :
    flagged slots = [] ↔ ∀ p ∈ slots, p.2 = false := by
  simp [flagged,List.filter_eq_nil_iff]

theorem someGranted {slots : List PagedDecodeSlot} {granted : List Bool}
    (counted : granted.length = slots.length) (served : granted.any id = true) :
    ∃ p ∈ slots.zip granted, p.2 = true := by
  obtain ⟨g,inside,yes⟩ := List.any_eq_true.mp served
  obtain ⟨i,bound,rfl⟩ := List.getElem_of_mem inside
  have zipped : i < (slots.zip granted).length := by simp; omega
  exact ⟨(slots.zip granted)[i],List.getElem_mem zipped,by simpa using yes⟩

theorem someActive {eosTokenIds : List Nat} {pairs : List (PagedDecodeSlot × Bool)}
    (some : flagged (pairs.map (takeSlotToken eosTokenIds)) ≠ []) : ∃ p ∈ pairs, p.2 = true := by
  rw [Ne,flaggedNil] at some
  push Not at some
  obtain ⟨q,there,active⟩ := some
  obtain ⟨p,inside,rfl⟩ := List.mem_map.mp there
  refine ⟨p,inside,?_⟩
  obtain ⟨slot,granted⟩ := p
  cases granted with
  | false => exact absurd rfl active
  | true => rfl

/-- Each active slot gets the token of its own row of the forward pass. -/
theorem advanceRelated {taken : List (PagedDecodeSlot × Bool)} {next : List Nat}
    (counted : next.length = (flagged taken).length) :
    List.Forall₂ (fun (p : PagedDecodeSlot × Bool) (slot : PagedDecodeSlot) =>
      (p.2 = true ∧ ∃ k n : Nat, (flagged taken)[k]? = some p.1.toPagedBatchRow ∧ next[k]? = some n ∧
        slot = {p.1 with nextId := n, decodeStep := p.1.decodeStep+1}) ∨
      (p.2 = false ∧ slot = p.1)) taken (advance taken next) := by
  induction taken generalizing next with
  | nil => exact .nil
  | cons p taken ih =>
    obtain ⟨slot,flag⟩ := p
    cases flag with
    | false =>
      have same : flagged ((slot,false)::taken) = flagged taken := by simp [flagged]
      rw [same] at counted ⊢
      have tail := ih counted
      cases next <;> exact .cons (.inr ⟨rfl,rfl⟩) tail
    | true =>
      have same : flagged ((slot,true)::taken) = slot.toPagedBatchRow :: flagged taken := by simp [flagged]
      rw [same] at counted ⊢
      cases next with
      | nil => simp at counted
      | cons n next =>
        refine .cons (.inl ⟨rfl,0,n,rfl,rfl,rfl⟩) ?_
        have tail := ih (show next.length = (flagged taken).length by simpa using counted)
        refine List.Forall₂.imp (fun p slot' related => ?_) tail
        rcases related with ⟨yes,k,n',row,token,made⟩ | other
        · exact .inl ⟨yes,k+1,n',by simpa using row,by simpa using token,made⟩
        · exact .inr other

/- A step in which every served slot ends: the others at the step count it all the same. -/
inductive Ending (eosTokenIds : List Nat) (step : Nat) : PagedDecodeSlot × Bool → PagedDecodeSlot → Prop where
  | ended (slot : PagedDecodeSlot) (stop : eosTokenIds.contains slot.nextId = true) :
      Ending eosTokenIds step (slot,true) {slot with finished := true}
  | skipped (slot : PagedDecodeSlot) : Ending eosTokenIds step (slot,false) (skipStep step slot)

theorem endedSlots {eosTokenIds : List Nat} {step : Nat} {pairs : List (PagedDecodeSlot × Bool)}
    (here : ∀ p ∈ pairs, p.2 = true → atStep step p.1 = true)
    (none : flagged (pairs.map (takeSlotToken eosTokenIds)) = []) :
    List.Forall₂ (Ending eosTokenIds step) pairs
      ((pairs.map (takeSlotToken eosTokenIds)).map (skipStep step ·.1)) := by
  rw [flaggedNil] at none
  rw [List.map_map,List.forall₂_map_right_iff]
  refine List.forall₂_same.mpr fun p inside => ?_
  obtain ⟨slot,granted⟩ := p
  cases granted with
  | false => exact .skipped slot
  | true =>
    have live := (atStepLive (here _ inside rfl)).1
    have inactive := none _ (List.mem_map_of_mem inside)
    simp only [Function.comp_apply]
    rcases takenServed eosTokenIds live with ⟨stop,same⟩ | ⟨_,same⟩
    · rw [same]
      exact .ended slot stop
    · rw [same] at inactive
      cases inactive

/- A step with a forward pass: the served slots end or advance, the others wait. -/
inductive Served (eosTokenIds : List Nat) (active : List PagedBatchRow) (logits : Nat → Nat → Nat) :
    PagedDecodeSlot × Bool → PagedDecodeSlot → Prop where
  | waits (slot : PagedDecodeSlot) : Served eosTokenIds active logits (slot,false) slot
  | ended (slot : PagedDecodeSlot) (stop : eosTokenIds.contains slot.nextId = true) :
      Served eosTokenIds active logits (slot,true) {slot with finished := true}
  | advanced (slot : PagedDecodeSlot) (k : Nat) (goes : eosTokenIds.contains slot.nextId = false)
      (row : active[k]? = some {slot.toPagedBatchRow with generated := slot.generated ++ [slot.nextId]}) :
      Served eosTokenIds active logits (slot,true)
        {slot with
          generated := slot.generated ++ [slot.nextId]
          nextId := logits k 0
          decodeStep := slot.decodeStep+1}

theorem forwardedSlots (eosTokenIds : List Nat) {step : Nat} {pairs : List (PagedDecodeSlot × Bool)}
    (here : ∀ p ∈ pairs, p.2 = true → atStep step p.1 = true) (logits : Nat → Nat → Nat) :
    List.Forall₂ (Served eosTokenIds (flagged (pairs.map (takeSlotToken eosTokenIds))) logits) pairs
      (advance (pairs.map (takeSlotToken eosTokenIds))
        ((List.range (flagged (pairs.map (takeSlotToken eosTokenIds))).length).map (logits · 0))) := by
  have counted : ((List.range (flagged (pairs.map (takeSlotToken eosTokenIds))).length).map (logits · 0)).length =
      (flagged (pairs.map (takeSlotToken eosTokenIds))).length := by simp
  have related := advanceRelated counted
  generalize advance _ _ = slots' at related ⊢
  rw [List.forall₂_map_left_iff] at related
  have each := List.forall₂_iff_zip.mp related
  refine List.forall₂_iff_zip.mpr ⟨each.1,fun {p slot'} inside => ?_⟩
  have granted := here p (List.of_mem_zip inside).1
  obtain ⟨slot,flag⟩ := p
  cases flag with
  | false =>
    rcases each.2 inside with ⟨yes,_⟩ | ⟨_,rfl⟩
    · cases yes
    · exact .waits _
  | true =>
    have live := (atStepLive (granted rfl)).1
    have made := each.2 inside
    rcases takenServed eosTokenIds live with ⟨stop,same⟩ | ⟨goes,same⟩
    · rw [same] at made
      rcases made with ⟨yes,_⟩ | ⟨_,rfl⟩
      · cases yes
      · exact .ended slot stop
    · rw [same] at made
      rcases made with ⟨_,k,n,row,token,rfl⟩ | ⟨no,_⟩
      · simp only [List.getElem?_map,Option.map_eq_some_iff] at token
        obtain ⟨k',index,rfl⟩ := token
        obtain rfl : k = k' := by
          have := List.getElem?_eq_some_iff.mp index
          simpa using this.2
        exact .advanced slot k goes row
      · cases no

theorem decodedIds {thinker : Thinker φ} {slots slots' : List PagedDecodeSlot} {step maxNewTokens : Nat}
    {eosTokenIds : List Nat} {r t : PagedCacheRuntime φ}
    (decoded : Decoded thinker slots step maxNewTokens eosTokenIds r slots' t) :
    List.Forall₂ (fun slot slot' => slot'.requestId = slot.requestId) slots slots' := by
  cases decoded with
  | idle _ => exact List.forall₂_same.mpr fun _ _ => rfl
  | limit _ =>
    rw [List.forall₂_map_right_iff]
    exact List.forall₂_same.mpr fun _ _ => rfl
  | refused _ _ _ _ _ _ => exact List.forall₂_same.mpr fun _ _ => rfl
  | ended granted _ _ asked _ none =>
    have pairs := endedSlots (chainGranted asked) none
    have split := zipGranted asked
    rw [← split,List.forall₂_map_left_iff,split]
    exact pairs.imp fun p slot' ending => by
      cases ending with
      | ended _ _ => rfl
      | skipped _ => unfold skipStep; split <;> rfl
  | forwarded granted _ _ _ logits _ asked _ _ _ =>
    have pairs := forwardedSlots eosTokenIds (chainGranted asked) logits
    have split := zipGranted asked
    rw [← split,List.forall₂_map_left_iff,split]
    exact pairs.imp fun p slot' served => by cases served <;> rfl

theorem decodedLength {thinker : Thinker φ} {slots slots' : List PagedDecodeSlot} {step maxNewTokens : Nat}
    {eosTokenIds : List Nat} {r t : PagedCacheRuntime φ}
    (decoded : Decoded thinker slots step maxNewTokens eosTokenIds r slots' t) : slots.length = slots'.length :=
  (decodedIds decoded).length_eq

end Qwen3Asr.DecodeOutcome
