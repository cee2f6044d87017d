import Qwen3Asr.Library.Greedy
import Qwen3Asr.PromptColumns
import Qwen3Asr.SlotFate

/-! A model that picks the token of each row from the row's own prompt and tokens, and the
slots decoded with it: each generates the greedy decode of its prompt. -/
namespace Qwen3Asr.RowOracle
open Library.Effect Library.Word Library.Greedy
open BlockManager PagedMetadata PromptPositions BatchEngine PrefillOutcome PromptColumns CallHistory SlotFate

variable {φ : Type}

def answerOf (packed : Bool) (call : ForwardCall φ) (requestId : Nat) : Nat × Nat :=
  match call.metadata.queryLens with
  | some lens => answerAt packed lens (call.requestIds.idxOf requestId)
  | none => (call.requestIds.idxOf requestId,0)

/- The token picked for a row depends on its valid prompt and the tokens decoded for it alone. -/
def RowWise (thinker : Thinker φ) (choose : List (Column φ) → List Nat → Nat) : Prop :=
  ∀ history call logits, thinker.forward history call = .ok logits → ∀ requestId ∈ call.requestIds,
    logits (answerOf thinker.usePackedCudaPrefill call requestId).1
        (answerOf thinker.usePackedCudaPrefill call requestId).2 =
      choose (promptOf thinker.usePackedCudaPrefill requestId (call::history))
        ((decodeRows requestId (call::history)).map DecodeRow.token)

section Decode
variable (thinker : Thinker φ) (choose : List (Column φ) → List Nat → Nat) (eosTokenIds : List Nat)
  (maxNewTokens : Nat)

def greedyDecode (prompt : List (Column φ)) : List Nat :=
  greedy (choose prompt) (eosTokenIds.contains ·) maxNewTokens

structure Generating (prompt : List (Column φ)) (r : PagedCacheRuntime φ) (slot : PagedDecodeSlot) : Prop where
  prompted : promptOf thinker.usePackedCudaPrefill slot.requestId r.history = prompt
  decoded : (decodeRows slot.requestId r.history).map DecodeRow.token = slot.generated
  step : slot.decodeStep = slot.generated.length
  next : slot.nextId = choose prompt slot.generated
  underway : Underway (choose prompt) (eosTokenIds.contains ·) maxNewTokens slot.generated

structure Refines (prompt : List (Column φ)) (r : PagedCacheRuntime φ) (slot : PagedDecodeSlot) : Prop where
  live : slot.finished = false → Generating thinker choose eosTokenIds maxNewTokens prompt r slot
  ended : slot.finished = true → slot.generated = greedyDecode choose eosTokenIds maxNewTokens prompt

end Decode

section Slots
variable {thinker : Thinker φ} {choose : List (Column φ) → List Nat → Nat} {eosTokenIds : List Nat}
  {maxNewTokens : Nat} {prompt : List (Column φ)} {r t : PagedCacheRuntime φ} {slot : PagedDecodeSlot}

theorem refinesUntouched (untouched : Untouched slot.requestId r t)
    (refines : Refines thinker choose eosTokenIds maxNewTokens prompt r slot) :
    Refines thinker choose eosTokenIds maxNewTokens prompt t slot where
  live unfinished := by
    have generating := refines.live unfinished
    exact {
      prompted := (untouchedPrompt untouched).trans generating.prompted
      decoded := by
        rw [untouchedRows untouched]
        exact generating.decoded
      step := generating.step
      next := generating.next
      underway := generating.underway}
  ended := refines.ended

theorem generatingStopped (generating : Generating thinker choose eosTokenIds maxNewTokens prompt r slot)
    (stop : eosTokenIds.contains slot.nextId = true) :
    slot.generated = greedyDecode choose eosTokenIds maxNewTokens prompt :=
  greedyStopped generating.underway (generating.next ▸ stop)

theorem generatingFull (generating : Generating thinker choose eosTokenIds maxNewTokens prompt r slot)
    (past : maxNewTokens ≤ slot.decodeStep) :
    slot.generated = greedyDecode choose eosTokenIds maxNewTokens prompt :=
  greedyFull generating.underway (generating.step ▸ past)

theorem refinesFinished (done : slot.generated = greedyDecode choose eosTokenIds maxNewTokens prompt) :
    Refines thinker choose eosTokenIds maxNewTokens prompt r {slot with finished := true} :=
  ⟨fun live => (by cases live),fun _ => done⟩

theorem refinesFed (rowWise : RowWise thinker choose) {nextId : Nat}
    (generating : Generating thinker choose eosTokenIds maxNewTokens prompt r slot)
    (unfinished : slot.finished = false) (below : slot.decodeStep < maxNewTokens)
    (goes : eosTokenIds.contains slot.nextId = false) (fed : Answered thinker slot r t nextId) :
    Refines thinker choose eosTokenIds maxNewTokens prompt t {slot with
      generated := slot.generated ++ [slot.nextId], nextId, decodeStep := slot.decodeStep+1} where
  live _ := by
    have prompted := (answeredPrompt fed thinker.usePackedCudaPrefill).trans generating.prompted
    have decoded : (decodeRows slot.requestId t.history).map DecodeRow.token =
        slot.generated ++ [slot.nextId] := by
      rw [answeredRows fed,List.map_append,generating.decoded,List.map_singleton,fed.token]
    have answer := rowWise _ _ _ fed.answered _ fed.listed
    rw [← fed.calls,prompted,decoded,answerOf,fed.decodes] at answer
    have before := generating.step
    have next := generating.next
    exact {
      prompted, decoded
      step := by simp [before]
      next := fed.picked.trans answer
      underway := by
        rw [next]
        rw [next] at goes
        exact underwayNext generating.underway (before ▸ below) goes}
  ended done := by
    rw [unfinished] at done
    cases done

theorem refinesPrefilled (rowWise : RowWise thinker choose) {inputIds attentionMask prompts : List (List Nat)}
    {audio : List φ} {config : PagedBatchConfig} {state : PagedBatchState}
    (p : PrefillOk thinker inputIds attentionMask (some audio) config r state t)
    (pads : List.Forall₂ (Pads thinker.audioTokenId) (inputIds.zip attentionMask) prompts) {k : Nat}
    {row : PagedBatchRow} (found : state.rows[k]? = some row)
    (asked : (mergeRows thinker.audioTokenId audio 0 prompts)[k]? = some prompt) :
    row.requestId = config.requestIdBase+k ∧ row.generated = [] ∧
    Refines thinker choose config.eosTokenIds maxNewTokens prompt t {row with decodeStep := 0} := by
  obtain ⟨lengths,called,lens,each⟩ := prefilledRow p
  obtain ⟨_,_,_,made⟩ := each k row found
  have bound : k < inputIds.length := by
    rw [← lengths]
    exact (List.getElem?_eq_some_iff.mp found).1
  have listed : p.prefilled.call.requestIds[k]? = some (config.requestIdBase+k) := by
    rw [called,List.getElem?_map,List.getElem?_range bound]
    rfl
  have once : p.prefilled.call.requestIds.Nodup := by
    rw [called]
    exact List.nodup_range.map fun _ _ same => Nat.add_left_cancel same
  have index := idxOfGet once listed
  have member := List.mem_of_getElem? listed
  have history : t.history = p.prefilled.call::r.history := congrArg PagedCacheRuntime.history p.runtime
  have prompted : promptOf thinker.usePackedCudaPrefill (config.requestIdBase+k) t.history = prompt := by
    rw [history,promptOf,if_pos member,lens,index]
    exact prefillColumns (promptRowsPads p.checked pads) p.call asked
  have decoded : decodeRows (config.requestIdBase+k) t.history = [] := by
    rw [history,decodeRows,if_pos member,lens]
    rfl
  have answer := rowWise _ _ _ p.answered _ member
  rw [← history,prompted,decoded,answerOf,lens,index] at answer
  rw [made]
  refine ⟨rfl,rfl,fun _ => ⟨prompted,by rw [decoded]; rfl,rfl,answer,underwayNil _ _ _⟩,fun stop => ?_⟩
  have first := answer ▸ stop
  exact greedyStopped (underwayNil _ _ _) first

end Slots

end Qwen3Asr.RowOracle
