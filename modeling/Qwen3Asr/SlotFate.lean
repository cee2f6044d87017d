import Qwen3Asr.CallHistory

/-! What one decode step makes of each slot of a group: it waits, ends, is skipped, or
advances by the token of its own row. -/
namespace Qwen3Asr.SlotFate
open Library.Effect Library.Word
open BlockManager PagedMetadata PromptPositions BatchEngine DecodeOutcome CallHistory

variable {φ : Type}

def grants (step : Nat) : List PagedDecodeSlot → PagedBlockManager → List Bool
  | [], _ => []
  | slot::slots, m =>
    if atStep step slot && slotsAvailableFor m slot.requestId (tokensWanted slot) then
      true :: grants step slots (after (tryAllocateSlots slot.requestId (tokensWanted slot) m))
    else false :: grants step slots m

theorem chainGrants {step : Nat} {slots : List PagedDecodeSlot} {m t : PagedBlockManager} {granted : List Bool}
    (asked : Chain (allocateNext step) slots m granted t) : granted = grants step slots m := by
  induction asked with
  | nil => rfl
  | @cons slot given slots granted m u t head _ ih =>
    have cases' := allocateNextOk head
    unfold grants
    cases given with
    | true =>
      obtain ⟨here,ok⟩ := cases'.1 rfl
      have available : slotsAvailableFor m slot.requestId (tokensWanted slot) = true := by
        rw [← Bool.not_eq_false,← refusedIff,ok]
        simp
      rw [if_pos (by rw [here,available]; rfl),ok,ih]
      rfl
    | false =>
      obtain ⟨rfl,refused⟩ := cases'.2 rfl
      rw [if_neg ?_,ih]
      intro both
      obtain ⟨here,available⟩ := Bool.and_eq_true_iff.mp both
      rw [(refused here).2] at available
      cases available

/- Below the limit some slot at the step is refused its block, some are granted theirs, and
the pending token of every granted one ends it. -/
def SkipsRefused (eosTokenIds : List Nat) (maxNewTokens step : Nat) (slots : List PagedDecodeSlot)
    (m : PagedBlockManager) : Prop :=
  step < maxNewTokens ∧
  (∃ p ∈ slots.zip (grants step slots m), p.2 = true) ∧
  (∀ p ∈ slots.zip (grants step slots m), p.2 = true → eosTokenIds.contains p.1.nextId = true) ∧
  ∃ p ∈ slots.zip (grants step slots m), p.2 = false ∧ atStep step p.1 = true

instance (eosTokenIds : List Nat) (maxNewTokens step : Nat) (slots : List PagedDecodeSlot)
    (m : PagedBlockManager) : Decidable (SkipsRefused eosTokenIds maxNewTokens step slots m) :=
  inferInstanceAs (Decidable (_ ∧ _ ∧ _ ∧ _))

structure Answered (thinker : Thinker φ) (slot : PagedDecodeSlot) (r t : PagedCacheRuntime φ) (nextId : Nat) where
  call : ForwardCall φ
  calls : t.history = call::r.history
  decodes : call.metadata.queryLens = none
  listed : slot.requestId ∈ call.requestIds
  logits : Nat → Nat → Nat
  answered : thinker.forward r.history call = .ok logits
  picked : nextId = logits (call.requestIds.idxOf slot.requestId) 0
  token : (decodeRowAt call (call.requestIds.idxOf slot.requestId)).token = slot.nextId

def forwardedAnswered {thinker : Thinker φ} {active : List PagedBatchRow} {blockTables : List (List Nat)}
    {step : Nat} {r t : PagedCacheRuntime φ} {call : ForwardCall φ} {logits : Nat → Nat → Nat}
    (forward : Forwarded thinker active blockTables step r call logits) (calls : t.history = call::r.history)
    (once : (active.map PagedBatchRow.requestId).Nodup) {k : Nat} {slot : PagedDecodeSlot}
    (row : active[k]? = some {slot.toPagedBatchRow with generated := slot.generated ++ [slot.nextId]}) :
    Answered thinker slot r t (logits k 0) :=
  have listed : call.requestIds[k]? = some slot.requestId := by
    rw [forward.ids,List.getElem?_map,row]
    rfl
  have index : call.requestIds.idxOf slot.requestId = k := idxOfGet (forward.ids ▸ once) listed
  {
    call, calls, decodes := decodeQueryLens forward.metadata
    listed := List.mem_of_getElem? listed
    logits, answered := forward.answered, picked := by rw [index]
    token := by
      rw [index,forwardedToken forward row]
      simp}

structure Fed (thinker : Thinker φ) (step : Nat) (slot : PagedDecodeSlot) (r t : PagedCacheRuntime φ)
    (nextId : Nat) extends Answered thinker slot r t nextId where
  placed : slot.promptLenI64 = slot.promptLenUsize → AtPosition r.cache t.manager slot.requestId
    (slot.promptLenUsize+step) (decodeRowAt call (call.requestIds.idxOf slot.requestId))
  cache : t.cache = r.cache
  grows : table r.manager slot.requestId <+: table t.manager slot.requestId

theorem answeredRows {thinker : Thinker φ} {slot : PagedDecodeSlot} {r t : PagedCacheRuntime φ} {nextId : Nat}
    (fed : Answered thinker slot r t nextId) : decodeRows slot.requestId t.history =
      decodeRows slot.requestId r.history ++ [decodeRowAt fed.call (fed.call.requestIds.idxOf slot.requestId)] := by
  rw [fed.calls,decodeRows,if_pos fed.listed,fed.decodes]
  rfl

theorem answeredPrompt {thinker : Thinker φ} {slot : PagedDecodeSlot} {r t : PagedCacheRuntime φ} {nextId : Nat}
    (fed : Answered thinker slot r t nextId) (packed : Bool) :
    promptOf packed slot.requestId t.history = promptOf packed slot.requestId r.history := by
  rw [fed.calls,promptOf,if_pos fed.listed,fed.decodes]

inductive Fate (thinker : Thinker φ) (eosTokenIds : List Nat) (maxNewTokens step : Nat)
    (slots : List PagedDecodeSlot) (r t : PagedCacheRuntime φ) : PagedDecodeSlot → PagedDecodeSlot → Prop where
  | waits (slot : PagedDecodeSlot) (untouched : Untouched slot.requestId r t) :
      Fate thinker eosTokenIds maxNewTokens step slots r t slot slot
  | limit (slot : PagedDecodeSlot) (past : maxNewTokens ≤ step) :
      Fate thinker eosTokenIds maxNewTokens step slots r t slot {slot with finished := true}
  | ended (slot : PagedDecodeSlot) (stop : eosTokenIds.contains slot.nextId = true) :
      Fate thinker eosTokenIds maxNewTokens step slots r t slot {slot with finished := true}
  | skipped (slot : PagedDecodeSlot) (skips : SkipsRefused eosTokenIds maxNewTokens step slots r.manager) :
      Fate thinker eosTokenIds maxNewTokens step slots r t slot {slot with decodeStep := slot.decodeStep+1}
  | advanced (slot : PagedDecodeSlot) (nextId : Nat) (below : step < maxNewTokens)
      (goes : eosTokenIds.contains slot.nextId = false) (fed : Fed thinker step slot r t nextId) :
      Fate thinker eosTokenIds maxNewTokens step slots r t slot
        {slot with generated := slot.generated ++ [slot.nextId], nextId, decodeStep := slot.decodeStep+1}

section Active
variable {eosTokenIds : List Nat} {pairs : List (PagedDecodeSlot × Bool)}

@[simp] theorem takeSlotTokenId (p : PagedDecodeSlot × Bool) :
    (takeSlotToken eosTokenIds p).1.requestId = p.1.requestId := by
  obtain ⟨slot,granted⟩ := p
  cases granted with
  | false => rfl
  | true => simp only [takeSlotToken,takeToken,if_true]; split <;> rfl

theorem flaggedIds {slots : List (PagedDecodeSlot × Bool)} :
    ((flagged slots).map PagedBatchRow.requestId).Sublist (slots.map (·.1.requestId)) := by
  unfold flagged
  rw [List.map_map]
  exact List.filter_sublist.map _

theorem takenIds : ((pairs.map (takeSlotToken eosTokenIds)).map (·.1.requestId)) = pairs.map (·.1.requestId) := by
  rw [List.map_map]
  exact List.map_congr_left fun p _ => takeSlotTokenId p

theorem idOnce (once : (pairs.map (·.1.requestId)).Nodup) {p q : PagedDecodeSlot × Bool} (left : p ∈ pairs)
    (right : q ∈ pairs) (same : p.1.requestId = q.1.requestId) : p = q :=
  List.inj_on_of_nodup_map once left right same

theorem activeMember {requestId : Nat}
    (inside : requestId ∈ (flagged (pairs.map (takeSlotToken eosTokenIds))).map PagedBatchRow.requestId) :
    ∃ p ∈ pairs, p.2 = true ∧ p.1.requestId = requestId := by
  obtain ⟨row,there,rfl⟩ := List.mem_map.mp inside
  obtain ⟨q,kept,rfl⟩ := List.mem_map.mp there
  obtain ⟨taken,active⟩ := List.mem_filter.mp kept
  obtain ⟨⟨slot,granted⟩,member,rfl⟩ := List.mem_map.mp taken
  cases granted with
  | false => cases active
  | true => exact ⟨_,member,rfl,(takeSlotTokenId _).symm⟩

end Active

theorem allocateNextGrows {step : Nat} {slot : PagedDecodeSlot} {m t : PagedBlockManager} {granted : Bool}
    (ok : allocateNext step slot m = .ok granted t) (j : Nat) : table m j <+: table t j := by
  cases granted with
  | true => exact tryAllocateGrows ((allocateNextOk ok).1 rfl).2 j
  | false =>
    rw [((allocateNextOk ok).2 rfl).1]

theorem trimKeeps {eosTokenIds : List Nat} {step : Nat} {slots : List PagedDecodeSlot} {granted : List Bool}
    {m t : PagedBlockManager} (asked : Chain (allocateNext step) slots m granted t) {j : Nat}
    (stays : ∀ p ∈ slots.zip granted, p.2 = true → p.1.requestId = j → eosTokenIds.contains p.1.nextId = false) :
    table m j <+: table (trimEnded eosTokenIds (flagged (slots.zip granted)) t) j := by
  rw [tableTrimEnded]
  · exact chainGrows (fun _ _ _ _ ok => allocateNextGrows ok) asked j
  · intro row inside same
    obtain ⟨p,kept,rfl⟩ := List.mem_map.mp inside
    obtain ⟨there,given⟩ := List.mem_filter.mp kept
    exact stays p there given same

section Decoded
variable {thinker : Thinker φ} {eosTokenIds : List Nat} {maxNewTokens step : Nat}
  {slots slots' : List PagedDecodeSlot} {r t : PagedCacheRuntime φ}

theorem decodedUntouched (decoded : Decoded thinker slots step maxNewTokens eosTokenIds r slots' t)
    {requestId : Nat} (out : requestId ∉ slots.map (·.requestId)) : Untouched requestId r t := by
  have stranger {granted : List Bool} : ∀ p ∈ slots.zip granted, p.1.requestId ≠ requestId := by
    intro p inside same
    exact out (List.mem_map.mpr ⟨p.1,(List.of_mem_zip inside).1,same⟩)
  cases decoded with
  | idle _ => exact untouchedRefl _ _
  | limit _ => exact untouchedRefl _ _
  | refused granted m _ _ asked _ =>
    exact untouchedManager (chainGrows (fun _ _ _ _ ok => allocateNextGrows ok) asked _)
  | ended granted m _ asked _ _ =>
    exact untouchedManager (trimKeeps asked fun p inside _ same => absurd same (stranger p inside))
  | forwarded granted m blockTables call logits _ asked _ read forward =>
    have grows : table r.manager requestId <+: table (trimEnded eosTokenIds _ m) requestId :=
      trimKeeps asked fun p inside _ same => absurd same (stranger p inside)
    have absent : requestId ∉ call.requestIds := by
      rw [forward.ids]
      intro inside
      obtain ⟨p,there,_,same⟩ := activeMember inside
      exact stranger p there same
    exact untouchedCall absent grows

theorem pairIds {granted : List Bool} {m : PagedBlockManager}
    (asked : Chain (allocateNext step) slots r.manager granted m) (once : (slots.map (·.requestId)).Nodup) :
    ((slots.zip granted).map (·.1.requestId)).Nodup := by
  have split : (slots.zip granted).map (·.1.requestId) = ((slots.zip granted).map Prod.fst).map (·.requestId) := by
    rw [List.map_map]
    rfl
  rwa [split,zipGranted asked]

/-- What a step of the engine makes of each slot at the step. -/
theorem decodedFates (decoded : Decoded thinker slots step maxNewTokens eosTokenIds r slots' t)
    (here : ∀ slot ∈ slots, atStep step slot = true) (once : (slots.map (·.requestId)).Nodup) :
    List.Forall₂ (Fate thinker eosTokenIds maxNewTokens step slots r t) slots slots' := by
  cases decoded with
  | idle away =>
    exact List.forall₂_same.mpr fun slot inside => by
      have live := here slot inside
      rw [away slot inside] at live
      cases live
  | limit past =>
    rw [List.forall₂_map_right_iff]
    exact List.forall₂_same.mpr fun slot _ => .limit slot past
  | refused granted m _ _ asked _ =>
    exact List.forall₂_same.mpr fun slot _ =>
      .waits slot (untouchedManager (chainGrows (fun _ _ _ _ ok => allocateNextGrows ok) asked _))
  | ended granted m below asked served none =>
    have pairs := endedSlots (chainGranted asked) none
    have skips (p : PagedDecodeSlot × Bool) (inside : p ∈ slots.zip granted) (refused : p.2 = false) :
        SkipsRefused eosTokenIds maxNewTokens step slots r.manager := by
      unfold SkipsRefused
      rw [← chainGrants asked]
      have ends (p : PagedDecodeSlot × Bool) (inside : p ∈ slots.zip granted) (given : p.2 = true) :
          eosTokenIds.contains p.1.nextId = true := by
        have inactive := flaggedNil.mp none _ (List.mem_map_of_mem inside)
        obtain ⟨slot,_⟩ := p
        cases given
        rcases takenServed eosTokenIds (atStepLive (here slot (List.of_mem_zip inside).1)).1 with
          ⟨stop,_⟩ | ⟨_,same⟩
        · exact stop
        · rw [same] at inactive
          cases inactive
      exact ⟨below,someGranted (chainLength asked) served,ends,p,inside,refused,here _ (List.of_mem_zip inside).1⟩
    have fates := (List.forall₂_and_left _ _).mpr ⟨fun p inside =>
      And.intro (skips p inside) (here _ (List.of_mem_zip inside).1),pairs⟩
    have split := zipGranted asked
    rw [← split,List.forall₂_map_left_iff,split]
    exact fates.imp fun p slot' both => by
      obtain ⟨⟨skips,live⟩,ending⟩ := both
      cases ending with
      | ended slot stop => exact .ended slot stop
      | skipped slot =>
        rw [skipStep,if_pos live]
        exact .skipped slot (skips rfl)
  | forwarded granted m blockTables call logits below asked nonempty read forward =>
    have ids := pairIds asked once
    have pairs := forwardedSlots eosTokenIds (chainGranted asked) logits
    have fates := (List.forall₂_and_left _ _).mpr ⟨fun _ inside => inside,pairs⟩
    have split := zipGranted asked
    have active : ((flagged ((slots.zip granted).map (takeSlotToken eosTokenIds))).map
        PagedBatchRow.requestId).Nodup := by
      have sublist : List.Sublist _ (((slots.zip granted).map (takeSlotToken eosTokenIds)).map (·.1.requestId)) :=
        flaggedIds
      rw [takenIds] at sublist
      exact sublist.nodup ids
    have grows (p : PagedDecodeSlot × Bool) (inside : p ∈ slots.zip granted)
        (goes : p.2 = true → eosTokenIds.contains p.1.nextId = false) :
        table r.manager p.1.requestId <+:
          table (trimEnded eosTokenIds (flagged (slots.zip granted)) m) p.1.requestId :=
      trimKeeps asked fun q there given same => by
        cases idOnce ids there inside same
        exact goes given
    rw [← split,List.forall₂_map_left_iff,split]
    exact fates.imp fun p slot' both => by
      obtain ⟨inside,served⟩ := both
      cases served with
      | waits slot =>
        have absent : slot'.requestId ∉ call.requestIds := by
          rw [forward.ids]
          intro member
          obtain ⟨q,there,given,same⟩ := activeMember member
          rw [idOnce ids there inside same] at given
          cases given
        exact .waits slot' (untouchedCall absent (grows _ inside fun given => by cases given))
      | ended slot stop => exact .ended slot stop
      | advanced slot k goes row =>
        have listed : call.requestIds[k]? = some slot.requestId := by
          rw [forward.ids,List.getElem?_map,row]
          rfl
        have index : call.requestIds.idxOf slot.requestId = k := idxOfGet (forward.ids ▸ active) listed
        exact .advanced slot _ below goes {
          toAnswered := forwardedAnswered forward rfl active row
          placed := fun same => by
            have fed := forwardedRow forward read row same
            change AtPosition _ _ _ _ (decodeRowAt call (call.requestIds.idxOf slot.requestId))
            rw [index]
            exact fed
          cache := rfl
          grows := grows _ inside fun _ => goes}

end Decoded

end Qwen3Asr.SlotFate
