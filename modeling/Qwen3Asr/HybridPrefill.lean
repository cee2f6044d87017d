import Qwen3Asr.EagerDecode
import Qwen3Asr.PagedRebuild
import Qwen3Asr.PrefillMetadata
import Qwen3Asr.PrefillOutcome

/-! A batch prefilled into the paged cache and decoded over a rebuilt one. The prefill puts the valid
tokens of every row in front; the decode loop goes on with the mask the batch came with. -/
namespace Qwen3Asr.HybridPrefill
open Library Library.Effect Library.Word Library.Packing Library.CausalStack Tensor
open PagedMetadata PromptPositions BatchEngine KvCache EagerThinker EagerRows BatchPrefill EagerGeneration EagerDecode
open PrefillMetadata PrefillOutcome PagedRebuild

variable {φ : Type}

section Prompts
variable {inputIds attentionMask : List (List Nat)} {config : PagedBatchConfig} {seqLen i : Nat} {rows : List PromptRow}

structure Fronted (seqLen : Nat) (ids mask : List Nat) (row : PromptRow) : Prop where
  len : row.len = validLen mask
  width : row.mask.length = seqLen
  valid : ∀ c, c < row.len → ∃ m, row.mask[c]? = some m ∧ m ≠ 0
  ids : row.ids.take row.len = validIds ids mask

theorem frontedPadded {ids mask : List Nat} (same : ids.length = mask.length) (padded : attentionMaskIsRightPadded mask = true) :
    Fronted mask.length ids mask ⟨ids,mask,validLen mask⟩ := by
  obtain ⟨valid,pads,rfl,nonzero,zero⟩ := rightPaddedParts.mp padded
  have len := validLenAppend nonzero zero
  rw [List.length_append] at same
  refine ⟨rfl,rfl,fun c inside => ?_,?_⟩
  · dsimp only at inside ⊢
    rw [len] at inside
    rw [List.getElem?_append_left inside]
    exact ⟨valid[c],List.getElem?_eq_getElem inside,nonzero _ (List.getElem_mem inside)⟩
  · have zipped : ids.zip (valid ++ pads) = (ids.take valid.length).zip valid ++ (ids.drop valid.length).zip pads := by
      conv_lhs => rw [← List.take_append_drop valid.length ids]
      exact List.zip_append (by rw [List.length_take]; omega)
    have kept : ((ids.take valid.length).zip valid).filter (·.2 ≠ 0) = (ids.take valid.length).zip valid :=
      List.filter_eq_self.mpr fun p inside => decide_eq_true (nonzero p.2 (List.of_mem_zip inside).2)
    have dropped : ((ids.drop valid.length).zip pads).filter (·.2 ≠ 0) = [] :=
      List.filter_eq_nil_iff.mpr fun p inside => by simpa using zero p.2 (List.of_mem_zip inside).2
    dsimp only
    rw [len,validIds,zipped,List.filter_append,kept,dropped,List.append_nil,
      List.map_fst_zip (by rw [List.length_take]; omega)]

theorem frontedCompacted {ids mask : List Nat} (within : validLen mask ≤ seqLen) (same : ids.length = mask.length) :
    Fronted seqLen ids mask ⟨validIds ids mask ++ List.replicate (seqLen-validLen mask) (padIdOf ids mask),
      List.replicate (validLen mask) 1 ++ List.replicate (seqLen-validLen mask) 0,validLen mask⟩ := by
  refine ⟨rfl,by simp; omega,fun c inside => ⟨1,?_,Nat.one_ne_zero⟩,?_⟩
  · have bound : c < (List.replicate (validLen mask) 1).length := by simpa using inside
    rw [List.getElem?_append_left bound,List.getElem?_eq_getElem bound,List.getElem_replicate]
  · have counted : (validIds ids mask).length = validLen mask := by
      rw [validIds,List.length_map,← List.countP_eq_length_filter,validPairs same]
    rw [← counted,List.take_left]

theorem promptRowAt (ok : promptRows inputIds attentionMask config = .ok (seqLen,rows)) {row : PromptRow}
    (found : rows[i]? = some row) :
    ∃ ids mask, inputIds[i]? = some ids ∧ attentionMask[i]? = some mask ∧ mask.length = seqLen ∧ Fronted seqLen ids mask row := by
  obtain ⟨_,_,masks,widths,_,⟨padded,rfl⟩ | ⟨_,same,normalized,normal,rfl⟩⟩ := promptRowsParts ok
  · rw [List.getElem?_map] at found
    obtain ⟨⟨ids,mask⟩,there,rfl⟩ := Option.map_eq_some_iff.mp found
    obtain ⟨left,right⟩ := List.getElem?_zip_eq_some.mp there
    have width := masks mask (List.mem_of_getElem? right)
    have all := List.all_eq_true.mp padded mask (List.mem_of_getElem? right)
    have fronted := frontedPadded ((widths ids (List.mem_of_getElem? left)).trans width.symm) all
    rw [width] at fronted
    exact ⟨ids,mask,left,right,width,fronted⟩
  · rw [List.getElem?_map] at found
    obtain ⟨out,there,rfl⟩ := Option.map_eq_some_iff.mp found
    unfold normalizeBatchForPagedPrefill at normal
    rw [if_neg (not_not.mpr same)] at normal
    obtain ⟨⟨⟨ids,mask⟩,k⟩,source,made⟩ := pairedFrom (exceptMapM.mp normal) there
    rw [List.getElem?_zipIdx] at source
    obtain ⟨pair,zipped,here⟩ := Option.map_eq_some_iff.mp source
    cases here
    obtain ⟨left,right⟩ := List.getElem?_zip_eq_some.mp zipped
    have width := masks mask (List.mem_of_getElem? right)
    have idWidth := widths ids (List.mem_of_getElem? left)
    obtain ⟨_,rfl⟩ := normalizedRow made
    have first : (inputIds.map List.length).headD 0 = seqLen := by
      cases inputIds with
      | nil => cases left
      | cons row rest => exact widths row List.mem_cons_self
    rw [first]
    exact ⟨ids,mask,left,right,width,frontedCompacted (width ▸ validLenLe mask) (idWidth.trans width.symm)⟩

end Prompts

section Columns
variable {audioTokenId : Nat}

theorem mergeRowIds {audio : List φ} {offset : Nat} {row : List Nat} :
    (mergeRow audioTokenId audio offset row).map Column.id = row := by
  induction row generalizing offset with
  | nil => rfl
  | cons id row ih =>
    rw [mergeRow]
    split <;> rw [List.map_cons,ih]

theorem mergeRowsIds {audio : List φ} {offset : Nat} {rows : List (List Nat)} :
    (mergeRows audioTokenId audio offset rows).map (List.map Column.id) = rows := by
  induction rows generalizing offset with
  | nil => rfl
  | cons row rows ih => rw [mergeRows,List.map_cons,mergeRowIds,ih]

theorem embedTokensIds {rows : List (List Nat)} : (embedTokens rows : List (List (Column φ))).map (List.map Column.id) = rows := by
  have each (row : List Nat) : (row.map fun id => (⟨id,none⟩ : Column φ)).map Column.id = row := by
    rw [List.map_map]
    exact List.map_id row
  rw [embedTokens,List.map_map]
  exact (List.map_congr_left fun row _ => each row).trans (List.map_id rows)

theorem inputsEmbedsIds {thinker : Thinker φ} {rows : List (List Nat)} {audioFeatures : Option (List φ)} {count : Nat}
    {columns : List (List (Column φ))} (ok : inputsEmbedsWithAudioFeatures thinker rows audioFeatures count = .ok columns) :
    columns.map (List.map Column.id) = rows := by
  unfold inputsEmbedsWithAudioFeatures at ok
  split at ok
  · cases ok
    exact embedTokensIds
  · unfold mergeAudioFeatures at ok
    dsimp only at ok
    split at ok <;> try contradiction
    split at ok <;> try contradiction
    split at ok
    · cases ok
      exact embedTokensIds
    · cases ok
      exact mergeRowsIds

end Columns

section Slots
variable {cache : PagedKvCache} {blockTables masks : List (List Nat)} {metadata : PagedInputMetadata} {seqLen i c : Nat}

theorem maskSlots (ok : inputMetadataFromAttentionMasks cache blockTables masks = .ok metadata)
    (widths : ∀ mask ∈ masks, mask.length = seqLen) {mask table : List Nat} {m : Nat} (here : masks[i]? = some mask)
    (own : blockTables[i]? = some table) (column : mask[c]? = some m) (holds : m ≠ 0) :
    ∃ slot, slotInTable "sequence" cache.blockSize cache.numBlocks i table c = .ok slot ∧
      metadata.slotMapping[i*seqLen+c]? = some slot := by
  obtain ⟨slots,read⟩ := maskedRead ok
  obtain ⟨_,row,found,each⟩ := read.row here own
  have indexed : mask.zipIdx[c]? = some (m,c) := by
    rw [List.getElem?_zipIdx,column,Option.map_some,Nat.zero_add]
  obtain ⟨slot,there,made⟩ := pairedAt (exceptMapM.mp each) indexed
  unfold maskedSlot at made
  dsimp only at made
  rw [if_neg holds] at made
  have lengths : slots.map List.length = List.replicate slots.length seqLen := by
    refine List.eq_replicate_iff.mpr ⟨List.length_map _,fun n inside => ?_⟩
    obtain ⟨row,member,rfl⟩ := List.mem_map.mp inside
    obtain ⟨k,found⟩ := List.mem_iff_getElem?.mp member
    have bound : k < masks.length := read.rows ▸ (List.getElem?_eq_some_iff.mp found).1
    have left := List.getElem?_eq_getElem bound
    obtain ⟨_,row',found',each⟩ := read.row left (List.getElem?_eq_getElem (read.tables ▸ bound))
    obtain rfl := Option.some.inj (found.symm.trans found')
    rw [← (exceptMapM.mp each).length_eq,List.length_zipIdx,widths _ (List.mem_of_getElem? left)]
  refine ⟨slot,made,?_⟩
  rw [read.slotMapping]
  refine flattenPlace.mpr ⟨i,row,c,found,there,?_⟩
  rw [offset,lengths,startReplicate _ _ _ (Nat.le_of_lt (List.getElem?_eq_some_iff.mp found).1)]

end Slots

/- The cache write puts key and value of a column at its slot: the block, and the offset in it. -/
structure Written {α : Type} [Zero α] (cache : PagedKvCache) (slotMapping : List Int) (seqLen : Nat) (shape : CacheShape)
    (layer : CacheLayer α) (token : Nat → Nat → Entry α) : Prop extends LayerShaped shape layer where
  blockSize : shape.blockSize = cache.blockSize
  numBlocks : shape.numBlocks = cache.numBlocks
  dims : ∀ i c, (token i c).1.dims = [shape.kvHeads,shape.headDim] ∧ (token i c).2.dims = [shape.kvHeads,shape.headDim]
  keys : ∀ {i c b o h e : Nat}, c < seqLen → slotMapping[i*seqLen+c]? = some ((b*shape.blockSize+o : Nat) : Int) →
    b < shape.numBlocks → o < shape.blockSize → h < shape.kvHeads → e < shape.headDim →
    layer.keyCache.get [b,h,e/shape.pack,o,e%shape.pack] = (token i c).1.get [h,e]
  values : ∀ {i c b o h e : Nat}, c < seqLen → slotMapping[i*seqLen+c]? = some ((b*shape.blockSize+o : Nat) : Int) →
    b < shape.numBlocks → o < shape.blockSize → h < shape.kvHeads → e < shape.headDim →
    layer.valueCache.get [b,h,e,o] = (token i c).2.get [h,e]

section Prefilled
variable {thinker : Thinker φ} {inputIds attentionMask : List (List Nat)} {audioFeatures : Option (List φ)}
  {config : PagedBatchConfig} {r t : PagedCacheRuntime φ} {state : PagedBatchState} {i : Nat}

theorem paddedCall {cache : PagedKvCache} {requestIds : List Nat} {blockTables : List (List Nat)} {seqLen : Nat}
    {rows : List PromptRow} {prefilled : Prefilled φ} (metal : thinker.usePackedCudaPrefill = false)
    (ok : prefillCall thinker cache requestIds blockTables seqLen rows audioFeatures = .ok prefilled) :
    ∃ metadata, inputMetadataFromAttentionMasks cache blockTables (rows.map PromptRow.mask) = .ok metadata ∧
      prefilled.call.metadata.slotMapping = metadata.slotMapping ∧
      prefilled.call.columns.map (List.map Column.id) = rows.map PromptRow.ids := by
  unfold prefillCall at ok
  dsimp only at ok
  obtain ⟨⟨positionIds,_⟩,_,ok⟩ := exceptBind.mp ok
  rw [if_neg (by simp [metal])] at ok
  obtain ⟨columns,embedded,ok⟩ := exceptBind.mp ok
  obtain ⟨metadata,built,ok⟩ := exceptBind.mp ok
  obtain ⟨_,_,ok⟩ := exceptBind.mp ok
  obtain ⟨_,_,ok⟩ := exceptBind.mp ok
  cases ok
  refine ⟨metadata,built,?_,inputsEmbedsIds embedded⟩
  dsimp only
  split <;> rfl

theorem rowParts (p : PrefillOk thinker inputIds attentionMask audioFeatures config r state t) {entry : PagedBatchRow}
    (found : state.rows[i]? = some entry) : ∃ prompt, p.rows[i]? = some prompt ∧
      p.blockTables[i]? = some entry.blockTable ∧ entry.promptLenUsize = prompt.len := by
  rw [p.made,prefilledRows,List.getElem?_map] at found
  obtain ⟨⟨⟨requestId,blockTable⟩,⟨⟨prompt,promptLen⟩,at_⟩⟩,zipped,rfl⟩ := Option.map_eq_some_iff.mp found
  obtain ⟨left,right⟩ := List.getElem?_zip_eq_some.mp zipped
  obtain ⟨_,table⟩ := List.getElem?_zip_eq_some.mp left
  obtain ⟨pair,_⟩ := List.getElem?_zip_eq_some.mp right
  exact ⟨prompt,(List.getElem?_zip_eq_some.mp pair).1,table,rfl⟩

theorem promptPositive (p : PrefillOk thinker inputIds attentionMask audioFeatures config r state t)
    (metal : thinker.usePackedCudaPrefill = false) {prompt : PromptRow} (found : p.rows[i]? = some prompt) : 0 < prompt.len := by
  obtain ⟨_,_,promptLens⟩ := prefillCallOk (promptRowsOk p.checked).2 p.call
  have gathered := p.gathered
  unfold lastLogits at gathered
  rw [if_neg (by simp [metal])] at gathered
  unfold gatherLastLogitsForPromptLens at gathered
  split at gathered <;> try contradiction
  have lens : p.prefilled.promptLens.zipIdx[i]? = some ((prompt.len : Int),i) := by
    rw [promptLens,List.getElem?_zipIdx,List.getElem?_map,List.getElem?_map,found]
    simp
  obtain ⟨_,_,made⟩ := pairedAt (exceptMapM.mp gathered) lens
  dsimp only at made
  split at made <;> try contradiction
  omega

variable {α : Type} [Zero α] {shape : CacheShape} {layer : CacheLayer α} {token : Nat → Nat → Entry α}

/- The blocks of every row hold its tokens once the call has written them. -/
theorem writtenStored (p : PrefillOk thinker inputIds attentionMask audioFeatures config r state t)
    (metal : thinker.usePackedCudaPrefill = false) (sized : 0 < r.cache.blockSize)
    (written : Written r.cache p.prefilled.call.metadata.slotMapping p.seqLen shape layer token) :
    LayerStored shape layer p.seqLen state.rows token := by
  obtain ⟨metadata,built,slots,_⟩ := paddedCall metal p.call
  rw [slots] at written
  have fronted {k : Nat} {row : PromptRow} (found : p.rows[k]? = some row) := promptRowAt p.checked found
  have widths : ∀ mask ∈ p.rows.map PromptRow.mask, mask.length = p.seqLen := by
    intro mask inside
    obtain ⟨row,member,rfl⟩ := List.mem_map.mp inside
    obtain ⟨k,found⟩ := List.mem_iff_getElem?.mp member
    obtain ⟨_,_,_,_,_,front⟩ := fronted found
    exact front.width
  have slotAt {k c : Nat} {entry : PagedBatchRow} (found : state.rows[k]? = some entry) (valid : c < entry.promptLenUsize) :
      c < p.seqLen ∧ SlotFits r.cache entry.blockTable c ∧
        metadata.slotMapping[k*p.seqLen+c]? = some (slotValue r.cache entry.blockTable c) := by
    obtain ⟨prompt,there,own,len⟩ := rowParts p found
    obtain ⟨_,_,_,_,_,front⟩ := fronted there
    obtain ⟨m,column,holds⟩ := front.valid c (len ▸ valid)
    have masked : (p.rows.map PromptRow.mask)[k]? = some prompt.mask := by rw [List.getElem?_map,there]; rfl
    obtain ⟨slot,made,mapped⟩ := maskSlots built widths masked own column holds
    obtain ⟨fits,rfl⟩ := slotChecked.mp made
    exact ⟨front.width ▸ (List.getElem?_eq_some_iff.mp column).1,fits,mapped⟩
  have placed {k c : Nat} {entry : PagedBatchRow} (found : state.rows[k]? = some entry) (valid : c < entry.promptLenUsize) :
      c < p.seqLen ∧ metadata.slotMapping[k*p.seqLen+c]? =
        some ((entry.blockTable.getD (c/shape.blockSize) 0*shape.blockSize+c%shape.blockSize : Nat) : Int) ∧
        entry.blockTable.getD (c/shape.blockSize) 0 < shape.numBlocks := by
    obtain ⟨within,fits,mapped⟩ := slotAt found valid
    have block := fits.block
    rw [slotValue,← written.blockSize] at mapped
    rw [← written.blockSize,← written.numBlocks] at block
    exact ⟨within,mapped,block⟩
  have wide : 0 < shape.blockSize := written.blockSize ▸ sized
  refine ⟨written.toLayerShaped,fun k entry found => ?_,fun k entry found => ?_⟩
  · exact {
      dims := fun c _ => written.dims k c
      granted := by
        rw [written.blockSize]
        exact blocksGranted fun position valid => (slotAt found valid).2.1
      blocks := fun b inside => by
        obtain ⟨j,bound,rfl⟩ := List.mem_take_iff_getElem.mp inside
        have before : j*shape.blockSize < entry.promptLenUsize := by
          by_contra past
          have few : entry.promptLenUsize ⌈/⌉ shape.blockSize ≤ j :=
            (ceilDiv_le_iff_le_mul wide).mpr (by rw [Nat.mul_comm]; exact Nat.not_lt.mp past)
          omega
        have fits := (slotAt found before).2.1.block
        rw [← written.blockSize,Nat.mul_div_cancel _ wide,← written.numBlocks] at fits
        rwa [← List.getElem_eq_getD 0] at fits
      key := fun c h e valid head part => by
        obtain ⟨within,mapped,block⟩ := placed found valid
        exact written.keys within mapped block (Nat.mod_lt _ wide) head part
      value := fun c h e valid head part => by
        obtain ⟨within,mapped,block⟩ := placed found valid
        exact written.values within mapped block (Nat.mod_lt _ wide) head part}
  · obtain ⟨prompt,there,_,len⟩ := rowParts p found
    obtain ⟨_,_,_,_,_,front⟩ := fronted there
    have some := promptPositive p metal there
    refine ⟨len ▸ some,?_⟩
    obtain ⟨within,_⟩ := slotAt (c := entry.promptLenUsize-1) found (by omega)
    omega

end Prefilled

end Qwen3Asr.HybridPrefill
