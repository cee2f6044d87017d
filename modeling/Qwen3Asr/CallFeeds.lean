import Qwen3Asr.CallSlots
import Qwen3Asr.EagerRows
import Qwen3Asr.VarlenParams

/-! What the calls of the engine feed: a packed prefill its prompts end to end, a decode step one token
a row, each at the position it has among the tokens of its request. -/
namespace Qwen3Asr.CallFeeds
open Library.Holding Library.Effect Library.Word Library.Packing
open BlockManager PagedMetadata PromptPositions BatchEngine DecodeOutcome PrefillOutcome PromptColumns CallHistory
open DecodeMetadata PrefillMetadata VarlenParams EagerRows CacheWriters CallSlots

variable {φ : Type}

section History

structure PromptFed (call : ForwardCall φ) (lens : List Nat) : Prop where
  counted : lens.length = call.requestIds.length
  positive : ∀ len ∈ lens, 0 < len
  columns : ∃ row, call.columns = [row] ∧ row.length = lens.sum
  positions : call.positionIds = [(lens.map fun len => (List.range len).map fun p : Nat => (p:Int)).flatten]
  slots : padSlotId ∉ call.metadata.slotMapping
  tables : call.metadata.blockTables.length = lens.length
  totals : call.metadata.cuSeqlensKv = some (starts lens)
  params : call.metadata.prefillFlashParams =
    some ⟨maxOf lens,some (starts lens),maxOf lens,some (starts lens),lens.any (1 < ·)⟩

structure DecodeFed (older : List (ForwardCall φ)) (call : ForwardCall φ) : Prop where
  nonempty : call.requestIds ≠ []
  columns : ∃ tokens : List Nat, tokens.length = call.requestIds.length ∧ call.columns = tokens.map fun token => [⟨token,none⟩]
  positions : call.positionIds = call.requestIds.map fun requestId => [(tokensFed requestId older : Int)]
  slots : padSlotId ∉ call.metadata.slotMapping
  tables : call.metadata.blockTables.length = call.requestIds.length
  contexts : call.metadata.contextLens.length = call.requestIds.length
  longest : ∀ len ∈ call.metadata.contextLens, len ≤ call.metadata.maxContextLen

def CallFed (older : List (ForwardCall φ)) (call : ForwardCall φ) : Prop :=
  match call.metadata.queryLens with
  | some lens => PromptFed call lens
  | none => DecodeFed older call

def WellFed : List (ForwardCall φ) → Prop
  | [] => True
  | call::older => CallFed older call ∧ WellFed older

def AllAnswered (thinker : Thinker φ) : List (ForwardCall φ) → Prop
  | [] => True
  | call::older => (∃ logits, thinker.forward older call = .ok logits) ∧ AllAnswered thinker older

end History

section Prompts
variable {thinker : Thinker φ} {lens : List Nat}

theorem embedsShape {rows : List (List Nat)} {audioFeatures : Option (List φ)} {placeholderCount : Nat}
    {columns : List (List (Column φ))} (ok : inputsEmbedsWithAudioFeatures thinker rows audioFeatures placeholderCount = .ok columns) :
    columns.map List.length = rows.map List.length := by
  have plain : (embedTokens (φ := φ) rows).map List.length = rows.map List.length := by simp [embedTokens,Function.comp_def]
  unfold inputsEmbedsWithAudioFeatures at ok
  split at ok
  · cases ok
    exact plain
  · unfold mergeAudioFeatures at ok
    dsimp only at ok
    split at ok <;> try contradiction
    split at ok <;> try contradiction
    split at ok
    · cases ok
      exact plain
    · cases ok
      exact mergeRowsLengths _ _ _ _

theorem longestWithin : maxOf lens ≤ lens.sum := by
  unfold maxOf
  cases found : lens.max? with
  | none => exact Nat.zero_le _
  | some longest => exact List.le_sum_of_mem (List.max?_mem found)

theorem varlenMade {varlen : Varlen} (built : buildVarlenMetadata (some lens) (some lens) = .ok varlen) :
    varlen.cuSeqlensKv = some (starts lens) ∧
    varlen.prefillFlashParams = some ⟨maxOf lens,some (starts lens),maxOf lens,some (starts lens),lens.any (1 < ·)⟩ := by
  have small := (varlenFits.mp ⟨varlen,built⟩).1
  have longest : maxOf lens < 2^32 := Nat.lt_of_le_of_lt longestWithin small
  have words : u32TryFrom (maxOf lens) = some (maxOf lens) := u32TryFromSome.mpr ⟨longest,rfl⟩
  have cu := cumulativeGoes small
  simp only [buildVarlenMetadata,exceptBind,exceptMapSome] at built
  obtain ⟨_,⟨cuQ,q,rfl⟩,_,⟨cuKv,kv,rfl⟩,made⟩ := built
  rw [cu] at q kv
  cases q
  cases kv
  rw [← Except.ok.inj made]
  refine ⟨rfl,?_⟩
  simp [newPrefill,words]

theorem promptFront {inputIds attentionMask : List (List Nat)} {config : PagedBatchConfig} {seqLen : Nat}
    {rows : List PromptRow} (ok : promptRows inputIds attentionMask config = .ok (seqLen,rows)) :
    ∀ row ∈ rows, row.len ≤ row.ids.length ∧ row.len ≤ row.mask.length ∧ ∀ m ∈ row.mask.take row.len, m ≠ 0 := by
  intro row inside
  have valid := (promptRowsOk ok).2 row inside
  obtain ⟨front,pads,mask,nonzero,zero⟩ := rightPaddedParts.mp (rowsPadded ok row inside)
  have counted : row.len = front.length := by rw [valid,mask,validLenAppend nonzero zero]
  have masked : row.len ≤ row.mask.length := by
    rw [mask,List.length_append,counted]
    omega
  refine ⟨?_,masked,by rw [mask,counted,List.take_left]; exact nonzero⟩
  obtain ⟨_,_,masks,ids,_,⟨_,rfl⟩ | ⟨_,same,normalized,normal,rfl⟩⟩ := promptRowsParts ok
  · obtain ⟨p,there,rfl⟩ := List.mem_map.mp inside
    obtain ⟨left,right⟩ := List.of_mem_zip there
    dsimp only at masked ⊢
    rw [masks _ right] at masked
    rwa [ids _ left]
  · obtain ⟨out,there,rfl⟩ := List.mem_map.mp inside
    unfold normalizeBatchForPagedPrefill at normal
    rw [if_neg (not_not.mpr same)] at normal
    obtain ⟨⟨⟨rowIds,rowMask⟩,k⟩,source,made⟩ := pairedSource (exceptMapM.mp normal) there
    obtain ⟨within,equal⟩ := normalizedRow made
    obtain ⟨left,right⟩ := List.of_mem_zip (List.mem_of_getElem? (List.mem_zipIdx_iff_getElem?.mp source))
    have tokens : (validIds rowIds rowMask).length = validLen rowMask := by
      rw [validIds,List.length_map,← List.countP_eq_length_filter,validPairs ((ids _ left).trans (masks _ right).symm)]
    rw [equal]
    simp [tokens]

theorem packedPositionsOk {rows : List PromptRow} {positionIds : List (List Int)} {deltas : List Int}
    (front : ∀ row ∈ rows, row.len ≤ row.ids.length ∧ row.len ≤ row.mask.length ∧ ∀ m ∈ row.mask.take row.len, m ≠ 0)
    (ok : getRopeIndex (rows.map PromptRow.mask) = .ok (positionIds,deltas)) :
    (positionIds.zip rows).map (fun p => p.1.take p.2.len) = (rows.map PromptRow.len).map fun len =>
      (List.range len).map fun p : Nat => (p:Int) := by
  have made : positionIds = rows.map fun row => ropeRow row.mask := by
    unfold getRopeIndex at ok
    dsimp only at ok
    split at ok <;> try contradiction
    cases ok
    exact List.map_map
  have pairs : (rows.map fun row => ropeRow row.mask).zip rows = rows.map fun row => (ropeRow row.mask,row) := by
    have both := List.zip_map' (f := fun row : PromptRow => ropeRow row.mask) (g := id) (l := rows)
    rwa [List.map_id] at both
  rw [made,pairs,List.map_map,List.map_map]
  exact List.map_congr_left fun row inside => ropeTake (front row inside).2.1 (front row inside).2.2

end Prompts

section Calls
variable {thinker : Thinker φ} {inputIds attentionMask : List (List Nat)} {audioFeatures : Option (List φ)}
  {config : PagedBatchConfig} {r t : PagedCacheRuntime φ} {state : PagedBatchState}

theorem positionIdsLength {promptLens : List Int} {step : Nat} {positionIds : List (List Int)}
    (ok : positionIdsForStep promptLens step = .ok positionIds) : positionIds.length = promptLens.length := by
  unfold positionIdsForStep at ok
  split at ok <;> try contradiction
  obtain ⟨_,_,each⟩ := exceptBind.mp ok
  simpa using (exceptMapM.mp each).length_eq.symm

/- A packed prefill lays the prompts end to end. -/
theorem prefillFed (packed : thinker.usePackedCudaPrefill = true)
    (p : PrefillOk thinker inputIds attentionMask audioFeatures config r state t) :
    PromptFed p.prefilled.call (p.rows.map PromptRow.len) := by
  have ids := (prefilledRow p).2.1
  have front := promptFront p.checked
  have made := p.call
  unfold prefillCall at made
  dsimp only at made
  obtain ⟨⟨positionIds,deltas⟩,rope,made⟩ := exceptBind.mp made
  dsimp only at made
  rw [if_pos packed] at made
  unfold packedPrefillCall at made
  dsimp only at made
  obtain ⟨packedAudio,_,made⟩ := exceptBind.mp made
  obtain ⟨columns,embedded,made⟩ := exceptBind.mp made
  obtain ⟨metadata,built,made⟩ := exceptBind.mp made
  obtain ⟨_,_,made⟩ := exceptBind.mp made
  obtain ⟨_,_,made⟩ := exceptBind.mp made
  have positive := packedPositive built
  obtain ⟨fits,varlen,lengths,rfl⟩ := (packedOk positive).mp built
  obtain ⟨totals,params⟩ := varlenMade lengths
  have shape := embedsShape embedded
  have positions := packedPositionsOk front rope
  have same := Except.ok.inj made
  have called : p.prefilled.call = _ := (congrArg Prefilled.call same).symm
  rw [called] at ids ⊢
  dsimp only at ids
  refine {
    counted := ?_, positive, columns := ?_, positions := ?_, slots := ?_, tables := ?_, totals, params}
  all_goals dsimp only
  · rw [ids]
    simp [(promptRowsOk p.checked).1]
  · obtain ⟨row,rfl⟩ := List.length_eq_one_iff.mp (by simpa using congrArg List.length shape)
    refine ⟨row,rfl,?_⟩
    have size : row.length = ((p.rows.map fun row => row.ids.take row.len).flatten).length := by simpa using shape
    rw [size,List.length_flatten,List.map_map]
    refine congrArg List.sum (List.map_congr_left fun row inside => ?_)
    simp [(front row inside).1]
  · exact congrArg (fun rows => [List.flatten rows]) positions
  · intro inside
    obtain ⟨row,there,member⟩ := List.mem_flatten.mp inside
    obtain ⟨_,_,rfl⟩ := List.mem_map.mp there
    obtain ⟨position,_,same⟩ := List.mem_map.mp member
    exact slotNeverPad position same
  · simp [packedMetadata,paddedTables,fits.tables]

theorem decodeFed {active : List PagedBatchRow} {blockTables : List (List Nat)} {step : Nat} {call : ForwardCall φ}
    {logits : Nat → Nat → Nat} (forward : Forwarded thinker active blockTables step r call logits) (some_ : active ≠ [])
    (fed : ∀ row ∈ active, row.promptLenI64 = row.promptLenUsize ∧ tokensFed row.requestId r.history = row.promptLenUsize+step) :
    DecodeFed r.history call := by
  obtain ⟨slots,contexts,tables,_⟩ := decodeMetadataLengths forward.metadata
  obtain ⟨_,_,row,entries,same⟩ := decodeMetadataParts forward.metadata
  refine ⟨?_,⟨active.map fun row => row.generated.getLastD row.nextId,?_,?_⟩,?_,?_,?_,?_,?_⟩
  · rw [forward.ids]
    simpa using some_
  · simp [forward.ids]
  · rw [forward.columns,List.map_map]
    rfl
  · refine List.ext_getElem? fun i => ?_
    rw [forward.ids,List.map_map,List.getElem?_map]
    cases found : active[i]? with
    | none =>
      have long : call.positionIds.length = active.length := by
        simpa using positionIdsLength forward.positions
      exact List.getElem?_eq_none (long ▸ List.getElem?_eq_none_iff.mp found)
    | some row =>
      obtain ⟨lengths,counted⟩ := fed row (List.mem_of_getElem? found)
      have position := positionIdsAt forward.positions
        (show (active.map PagedBatchRow.promptLenI64)[i]? = some row.promptLenI64 by simp [found])
      rw [position,lengths]
      simp [counted]
  · intro inside
    obtain ⟨i,there⟩ := List.mem_iff_getElem?.mp inside
    have bound : i < (active.map PagedBatchRow.promptLenUsize).length := slots ▸ (List.getElem?_eq_some_iff.mp there).1
    obtain ⟨slot,here,placed,_⟩ := decodeMetadataRow forward.metadata (List.getElem?_eq_getElem bound)
    cases there.symm.trans here
    obtain ⟨table,_,placed⟩ := exceptBind.mp placed
    obtain ⟨b,_,_,_,negative⟩ := slotInTableOk.mp placed
    rw [padSlotId] at negative
    omega
  · rw [tables,forward.ids]
    simp
  · rw [contexts,forward.ids]
    simp
  · intro len inside
    rw [same] at inside ⊢
    exact List.le_max?_getD_of_mem inside

end Calls

end Qwen3Asr.CallFeeds
