import Qwen3Asr.BatchEngine
import Qwen3Asr.CausalMask

/-! The mask of paged prefill over gathered keys. It is made as wide as the prompts and cut to the
longest of them from the right, while the gathered keys of a row start at its first column. -/
namespace Qwen3Asr.PrefillMask
open Library.Effect Library.Word
open PagedMetadata PromptPositions BatchEngine CausalMask

section Code

def promptWidth (masks : List (List Nat)) : Nat := (masks.map List.length).headD 0

/- The allowed positions of every query; masks have one entry on the axis for heads, which is left out. -/
def causalMaskOf (attentionMask : Option (List (List Nat))) (batchSize seqLen : Nat) :
    Except String (List (List (List Bool))) :=
  if seqLen = 0 then .ok (List.replicate batchSize []) else
  match attentionMask with
  | none => .ok (List.replicate batchSize ((List.range seqLen).map fun q => (List.range seqLen).map fun k => decide (k ≤ q)))
  | some m =>
    if m.length ≠ batchSize ∨ ∃ row ∈ m, row.length ≠ seqLen then
      .error s!"attention_mask dims mismatch: expected=({batchSize},{seqLen}), got=({m.length},{promptWidth m})"
    else .ok (makeCausalMask m seqLen)

def adjustKvMask (mask : List (List (List Bool))) (kvSeqLen : Nat) : List (List (List Bool)) :=
  mask.map fun queries => queries.map fun keys =>
    if kvSeqLen < keys.length then keys.drop (keys.length-kvSeqLen) else keys

def maskToCut (metadata : PagedInputMetadata) (batch seqLen : Nat) : Except String (List (List (List Bool))) :=
  match metadata.prefillAttentionMask with
  | some mask => .ok mask
  | none => causalMaskOf metadata.tokenAttentionMask batch seqLen

def pagedPrefillAttentionMask (metadata : PagedInputMetadata) (kvLens : List Nat) (batch seqLen : Nat) :
    Except String (Option (List (List (List Bool)))) := do
  let maxKv := maxOf kvLens
  if metadata.prefillCausalOnly then .ok none else
  let mask ← maskToCut metadata batch seqLen
  .ok (some (adjustKvMask mask maxKv))

end Code

/- The metadata of a padded prefill: as it is built, or with the mask the batch engine makes beforehand. -/
inductive PrefillMetadata (cache : PagedKvCache) (blockTables masks : List (List Nat)) : PagedInputMetadata → Prop where
  | built {metadata} (ok : inputMetadataFromAttentionMasks cache blockTables masks = .ok metadata) :
    PrefillMetadata cache blockTables masks metadata
  | prepared {metadata} (ok : inputMetadataFromAttentionMasks cache blockTables masks = .ok metadata) :
    PrefillMetadata cache blockTables masks (if metadata.prefillCausalOnly then metadata
      else {metadata with prefillAttentionMask := some (makeCausalMask masks (promptWidth masks))})

section Alignment

def Attends (mask : Option (List (List (List Bool)))) (i t j : Nat) : Prop :=
  match mask with
  | none => j ≤ t
  | some allowed => Sees allowed i t j

/- Over keys of width `maxKv`, each valid query attends to the valid keys up to its own. -/
structure Aligned (masks : List (List Nat)) (maxKv : Nat) (mask : Option (List (List (List Bool)))) : Prop where
  width : ∀ allowed, mask = some allowed → ∀ queries ∈ allowed, ∀ keys ∈ queries, keys.length = maxKv
  attends : ∀ {i row t j}, masks[i]? = some row → t < validLen row → j < maxKv →
    (Attends mask i t j ↔ j ≤ t ∧ j < validLen row)

def MaskAligned (masks : List (List Nat)) (metadata : PagedInputMetadata) : Prop :=
  ∃ kvLens mask, metadata.kvLens = some kvLens ∧
    pagedPrefillAttentionMask metadata kvLens masks.length (promptWidth masks) = .ok mask ∧ Aligned masks (maxOf kvLens) mask

end Alignment

section Built
variable {cache : PagedKvCache} {blockTables masks : List (List Nat)} {metadata : PagedInputMetadata}

structure MaskSource (masks : List (List Nat)) (metadata : PagedInputMetadata) : Prop where
  filled : masks ≠ []
  wide : promptWidth masks ≠ 0
  widths : ∀ row ∈ masks, row.length = promptWidth masks
  tokens : metadata.tokenAttentionMask = some masks
  kvLens : metadata.kvLens = some (masks.map validLen)
  causal : metadata.prefillCausalOnly = (masks.map validLen).all (· = promptWidth masks)

theorem maskSource (ok : inputMetadataFromAttentionMasks cache blockTables masks = .ok metadata) :
    MaskSource masks metadata ∧ metadata.prefillAttentionMask = none := by
  obtain ⟨slots,read⟩ := maskedRead ok
  refine ⟨⟨read.filled,read.wide,fun row inside => ?_,read.tokens,read.kvLens,read.causal⟩,read.unset⟩
  obtain ⟨i,found⟩ := List.mem_iff_getElem?.mp inside
  have bound : i < blockTables.length := read.tables ▸ (List.getElem?_eq_some_iff.mp found).1
  exact (read.row found (List.getElem?_eq_getElem bound)).1

theorem maskMade (given : PrefillMetadata cache blockTables masks metadata) : MaskSource masks metadata ∧
    ∀ kvLens, pagedPrefillAttentionMask metadata kvLens masks.length (promptWidth masks) =
      .ok (if metadata.prefillCausalOnly then none
        else some (adjustKvMask (makeCausalMask masks (promptWidth masks)) (maxOf kvLens))) := by
  cases given with
  | built ok =>
    obtain ⟨source,unset⟩ := maskSource ok
    refine ⟨source,fun kvLens => ?_⟩
    unfold pagedPrefillAttentionMask
    dsimp only
    split
    · rfl
    · have made : maskToCut metadata masks.length (promptWidth masks) = .ok (makeCausalMask masks (promptWidth masks)) := by
        unfold maskToCut
        rw [unset]
        dsimp only
        unfold causalMaskOf
        rw [if_neg source.wide,source.tokens]
        dsimp only
        rw [if_neg]
        rintro (other | ⟨row,inside,other⟩)
        · exact other rfl
        · exact other (source.widths row inside)
      exact exceptBind.mpr ⟨_,made,rfl⟩
  | @prepared metadata ok =>
    obtain ⟨source,_⟩ := maskSource ok
    split
    · next causal =>
      refine ⟨source,fun kvLens => ?_⟩
      unfold pagedPrefillAttentionMask
      dsimp only
      rw [if_pos causal]
    · next masked =>
      refine ⟨⟨source.filled,source.wide,source.widths,source.tokens,source.kvLens,source.causal⟩,fun kvLens => ?_⟩
      unfold pagedPrefillAttentionMask
      dsimp only
      rw [if_neg masked]
      rfl

end Built

section Columns
variable {masks : List (List Nat)} {row : List Nat} {width maxKv i t j : Nat}

/- In the mask that is cut, a column stands for the one as far right as the cut is wide. -/
theorem adjustedSees (found : masks[i]? = some row) (query : t < width) (fits : maxKv ≤ width) (key : j < maxKv) :
    Sees (adjustKvMask (makeCausalMask masks width) maxKv) i t j ↔
      width-maxKv+j ≤ t ∧ row.getD (width-maxKv+j) 0 ≠ 0 := by
  have keys : (adjustKvMask (makeCausalMask masks width) maxKv)[i]?.bind (·[t]?) =
      some (((List.range width).map fun k => decide (k ≤ t) && decide (row.getD k 0 ≠ 0)).drop (width-maxKv)) := by
    simp only [adjustKvMask,makeCausalMask,List.getElem?_map,found,Option.map_some,Option.bind_some,List.getElem?_range query]
    simp only [List.length_map,List.length_range]
    split
    · rfl
    · have whole : width-maxKv = 0 := by omega
      rw [whole,List.drop_zero]
  have column : (((List.range width).map fun k => decide (k ≤ t) && decide (row.getD k 0 ≠ 0)).drop (width-maxKv))[j]? =
      some (decide (width-maxKv+j ≤ t) && decide (row.getD (width-maxKv+j) 0 ≠ 0)) := by
    rw [List.getElem?_drop,List.getElem?_map,List.getElem?_range (by omega)]
    rfl
  constructor
  · rintro ⟨queries,row',rows,here,seen⟩
    rw [rows,Option.bind_some,here] at keys
    cases keys
    rw [column] at seen
    simpa using seen
  · rintro ⟨causal,holds⟩
    obtain ⟨queries,rows,here⟩ := Option.bind_eq_some_iff.mp keys
    exact ⟨queries,_,rows,here,by rw [column,decide_eq_true causal,decide_eq_true holds]; rfl⟩

theorem adjustedWidth (fits : maxKv ≤ width) : ∀ queries ∈ adjustKvMask (makeCausalMask masks width) maxKv,
    ∀ keys ∈ queries, keys.length = maxKv := by
  intro queries rows keys inside
  simp only [adjustKvMask,makeCausalMask,List.map_map] at rows
  obtain ⟨row,_,rfl⟩ := List.mem_map.mp rows
  simp only [Function.comp_apply,List.map_map] at inside
  obtain ⟨q,_,rfl⟩ := List.mem_map.mp inside
  simp only [Function.comp_apply,List.length_map,List.length_range]
  split
  · rw [List.length_drop,List.length_map,List.length_range]
    omega
  · rw [List.length_map,List.length_range]
    omega

theorem paddedHolds (padded : attentionMaskIsRightPadded row = true) : row.getD j 0 ≠ 0 ↔ j < validLen row := by
  obtain ⟨valid,pads,rfl,nonzero,zero⟩ := rightPaddedParts.mp padded
  rw [validLenAppend nonzero zero,List.getD_eq_getElem?_getD]
  rcases Nat.lt_or_ge j valid.length with inside | past
  · rw [List.getElem?_append_left inside,List.getElem?_eq_getElem inside]
    exact iff_of_true (nonzero _ (List.getElem_mem inside)) inside
  · rw [List.getElem?_append_right past]
    refine iff_of_false (not_not.mpr ?_) (by omega)
    cases found : pads[j-valid.length]? with
    | none => rfl
    | some m => exact zero m (List.mem_of_getElem? found)

end Columns

section Claims
variable {cache : PagedKvCache} {blockTables masks : List (List Nat)} {metadata : PagedInputMetadata}

theorem longestWithin (source : MaskSource masks metadata) : maxOf (masks.map validLen) ≤ promptWidth masks := by
  have filled : masks.map validLen ≠ [] := by simpa using source.filled
  obtain ⟨longest,found⟩ := Option.isSome_iff_exists.mp (List.isSome_max?_of_ne_nil filled)
  obtain ⟨row,inside,same⟩ := List.mem_map.mp (List.max?_mem found)
  have width := source.widths row inside
  have counted : validLen row ≤ row.length := List.countP_le_length
  rw [maxOf,found,Option.getD_some]
  omega

/-- The mask of a right-padded prefill fits the gathered keys exactly where a prompt fills the width. -/
theorem maskAlignedIff (given : PrefillMetadata cache blockTables masks metadata)
    (padded : attentionMasksAreRightPadded masks = true) (valid : ∀ row ∈ masks, 0 < validLen row) :
    MaskAligned masks metadata ↔ maxOf (masks.map validLen) = promptWidth masks := by
  obtain ⟨source,made⟩ := maskMade given
  have fits := longestWithin source
  have rowPadded : ∀ row ∈ masks, attentionMaskIsRightPadded row = true := List.all_eq_true.mp padded
  constructor
  · rintro ⟨kvLens,mask,lens,ok,aligned⟩
    cases lens.symm.trans source.kvLens
    rw [made] at ok
    split at ok
    · next causal =>
      rw [source.causal,List.all_eq_true] at causal
      obtain ⟨row,inside⟩ := List.exists_mem_of_ne_nil _ source.filled
      have full := of_decide_eq_true (causal _ (List.mem_map_of_mem inside))
      have below : validLen row ≤ maxOf (masks.map validLen) := List.le_max?_getD_of_mem (List.mem_map_of_mem inside)
      omega
    · cases ok
      obtain ⟨row,inside⟩ := List.exists_mem_of_ne_nil _ source.filled
      obtain ⟨i,found⟩ := List.mem_iff_getElem?.mp inside
      have some := valid row inside
      have below : validLen row ≤ maxOf (masks.map validLen) := List.le_max?_getD_of_mem (List.mem_map_of_mem inside)
      have width := source.widths row inside
      have counted : validLen row ≤ row.length := List.countP_le_length
      -- the first query attends to the first key only if no column is cut off
      have first := (aligned.attends (t := 0) (j := 0) found some (by omega)).mpr ⟨Nat.le_refl 0,some⟩
      have uncut := ((adjustedSees found (by omega) fits (by omega)).mp first).1
      omega
  · intro full
    refine ⟨_,_,source.kvLens,made _,fun allowed same => ?_,fun {i row t j} found query key => ?_⟩
    · split at same
      · cases same
      · cases same
        exact adjustedWidth fits
    · have inside := List.mem_of_getElem? found
      have width := source.widths row inside
      have counted : validLen row ≤ row.length := List.countP_le_length
      split
      · next causal =>
        rw [source.causal,List.all_eq_true] at causal
        have whole := of_decide_eq_true (causal _ (List.mem_map_of_mem inside))
        exact ⟨fun order => ⟨order,by omega⟩,And.left⟩
      · refine (adjustedSees found (by omega) fits key).trans ?_
        rw [full,Nat.sub_self,Nat.zero_add,paddedHolds (rowPadded row inside)]

end Claims

section Batches

def smallCache : PagedKvCache := ⟨8,4,32,false⟩

def fullRow : List (List Nat) := [[1,1,1],[1,1,0]]

def shortRow : List (List Nat) := [[1,1,0]]

theorem fullRowAligned : ∃ metadata, inputMetadataFromAttentionMasks smallCache [[1],[2]] fullRow = .ok metadata ∧
    MaskAligned fullRow metadata := by
  have made : (inputMetadataFromAttentionMasks smallCache [[1],[2]] fullRow).isOk = true := by decide
  obtain ⟨metadata,ok⟩ := exceptIsOk.mp made
  exact ⟨metadata,ok,(maskAlignedIff (.built ok) (by decide) (by decide)).mpr (by decide)⟩

/- The first of two tokens in three columns is left no key at all, and the second one its first. -/
theorem shortRowMisaligned : ∃ metadata, inputMetadataFromAttentionMasks smallCache [[1]] shortRow = .ok metadata ∧
    pagedPrefillAttentionMask metadata [2] 1 3 = .ok (some [[[false,false],[true,false],[true,false]]]) ∧
    ¬ MaskAligned shortRow metadata := by
  have made : (inputMetadataFromAttentionMasks smallCache [[1]] shortRow).map
      (fun metadata => (metadata.kvLens,pagedPrefillAttentionMask metadata [2] 1 3)) =
      .ok (some [2],.ok (some [[[false,false],[true,false],[true,false]]])) := rfl
  obtain ⟨metadata,ok⟩ : ∃ metadata, inputMetadataFromAttentionMasks smallCache [[1]] shortRow = .ok metadata :=
    exceptIsOk.mp (by decide)
  rw [ok] at made
  obtain ⟨lens,mask⟩ := Prod.mk.inj (Except.ok.inj made)
  refine ⟨metadata,ok,mask,fun ⟨kvLens,found,there,same,aligned⟩ => ?_⟩
  cases lens.symm.trans there
  cases mask.symm.trans same
  have first := (@Aligned.attends _ _ _ aligned 0 [1,1,0] 0 0 rfl (by decide) (by decide)).mpr ⟨by decide,by decide⟩
  obtain ⟨queries,keys,rows,here,seen⟩ := first
  cases rows
  cases here
  cases seen

end Batches

end Qwen3Asr.PrefillMask
