import Qwen3Asr.DecodeMetadata
import Qwen3Asr.PromptPositions

/-! Normalized prompt rows and the two constructors of their prefill metadata: the padded
one reads masks, the packed one lengths. -/
namespace Qwen3Asr.PrefillMetadata
open Library.Word Library.Effect PagedMetadata PromptPositions DecodeMetadata

/- The copying loop of the normalization: a valid token goes to the next free index. -/
def copyValid (pairs : List (Nat × Nat)) (row : List Nat × List Nat × Nat) : List Nat × List Nat × Nat :=
  pairs.foldl (fun (rowIds,rowMask,writeIdx) (id,m) =>
    if m ≠ 0 then (rowIds.set writeIdx id,rowMask.set writeIdx 1,writeIdx+1)
    else (rowIds,rowMask,writeIdx)) row

theorem setNext {done : List Nat} {room pad value : Nat} (some : 0 < room) :
    (done ++ List.replicate room pad).set done.length value =
      (done ++ [value]) ++ List.replicate (room-1) pad := by
  obtain ⟨room,rfl⟩ := Nat.exists_eq_add_one.mpr some
  simp [List.replicate_succ]

theorem copyValidFrom (pairs : List (Nat × Nat)) (ids mask : List Nat) (room pad : Nat)
    (same : ids.length = mask.length) (enough : pairs.countP (·.2 ≠ 0) ≤ room) :
    copyValid pairs (ids ++ List.replicate room pad,mask ++ List.replicate room 0,ids.length) =
      (ids ++ ((pairs.filter (·.2 ≠ 0)).map Prod.fst ++ List.replicate (room-pairs.countP (·.2 ≠ 0)) pad),
        mask ++ (List.replicate (pairs.countP (·.2 ≠ 0)) 1 ++ List.replicate (room-pairs.countP (·.2 ≠ 0)) 0),
        ids.length+pairs.countP (·.2 ≠ 0)) := by
  induction pairs generalizing ids mask room with
  | nil => simp [copyValid]
  | cons pair pairs ih =>
    obtain ⟨id,m⟩ := pair
    unfold copyValid at ih ⊢
    rw [List.foldl_cons]
    by_cases valid : m ≠ 0
    · have count : ((id,m)::pairs).countP (·.2 ≠ 0) = pairs.countP (·.2 ≠ 0)+1 := by simp [valid]
      have kept : ((id,m)::pairs).filter (·.2 ≠ 0) = (id,m)::pairs.filter (·.2 ≠ 0) := by simp [valid]
      rw [count] at enough
      have rest := ih (ids ++ [id]) (mask ++ [1]) (room-1) (by simp [same]) (by omega)
      have left : room-1-pairs.countP (·.2 ≠ 0) = room-(pairs.countP (·.2 ≠ 0)+1) := by omega
      rw [List.length_append,List.length_singleton,left] at rest
      simp only [if_pos valid]
      rw [setNext (by omega),same,setNext (by omega),← same,rest,count,kept]
      simp [List.replicate_succ,Nat.add_assoc,Nat.add_comm 1]
    · have count : ((id,m)::pairs).countP (·.2 ≠ 0) = pairs.countP (·.2 ≠ 0) := by simp [valid]
      have kept : ((id,m)::pairs).filter (·.2 ≠ 0) = pairs.filter (·.2 ≠ 0) := by simp [valid]
      rw [count] at enough ⊢
      simp only [if_neg valid]
      rw [ih ids mask room same enough,kept]

theorem validPairs {ids mask : List Nat} (same : ids.length = mask.length) :
    (ids.zip mask).countP (·.2 ≠ 0) = validLen mask := by
  unfold validLen
  have masks : (ids.zip mask).map Prod.snd = mask := List.map_snd_zip (by omega)
  conv_rhs => rw [← masks,List.countP_map]
  rfl

structure Compacted (seqLen : Nat) (row : List Nat × List Nat) (out : List Nat × List Nat × Nat) : Prop where
  len : out.2.2 = validLen row.2
  ids : out.1 = validIds row.1 row.2 ++ List.replicate (seqLen-out.2.2) (padIdOf row.1 row.2)
  mask : out.2.1 = List.replicate out.2.2 1 ++ List.replicate (seqLen-out.2.2) 0
  copied : out = copyValid (row.1.zip row.2)
    (List.replicate seqLen (padIdOf row.1 row.2),List.replicate seqLen 0,0)

theorem compacts {seqLen : Nat} {ids mask : List Nat} (width : ids.length = seqLen) (same : mask.length = seqLen) :
    Compacted seqLen (ids,mask) (validIds ids mask ++ List.replicate (seqLen-validLen mask) (padIdOf ids mask),
      List.replicate (validLen mask) 1 ++ List.replicate (seqLen-validLen mask) 0,validLen mask) where
  len := rfl
  ids := rfl
  mask := rfl
  copied := by
    have counted := validPairs (width.trans same.symm)
    have enough : validLen mask ≤ seqLen := same ▸ List.countP_le_length
    have copied := copyValidFrom (ids.zip mask) [] [] seqLen (padIdOf ids mask) rfl (counted ▸ enough)
    rw [counted] at copied
    simp only [List.nil_append,List.length_nil,Nat.zero_add] at copied
    exact copied.symm

theorem normalizes {inputIds attentionMask : List (List Nat)} {seqLen : Nat}
    (count : inputIds.length = attentionMask.length) (ids : ∀ row ∈ inputIds, row.length = seqLen)
    (masks : ∀ mask ∈ attentionMask, mask.length = seqLen) (valid : ∀ mask ∈ attentionMask, 0 < validLen mask) :
    ∃ normalized, normalizeBatchForPagedPrefill inputIds attentionMask = .ok normalized ∧
      List.Forall₂ (Compacted seqLen) (inputIds.zip attentionMask) normalized := by
  refine ⟨(inputIds.zip attentionMask).map fun row =>
    (validIds row.1 row.2 ++ List.replicate (seqLen-validLen row.2) (padIdOf row.1 row.2),
      List.replicate (validLen row.2) 1 ++ List.replicate (seqLen-validLen row.2) 0,validLen row.2),?_,
    List.forall₂_map_right_iff.mpr (List.forall₂_same.mpr fun row inside =>
      compacts (ids _ (List.of_mem_zip inside).1) (masks _ (List.of_mem_zip inside).2))⟩
  unfold normalizeBatchForPagedPrefill
  rw [if_neg (not_not.mpr count)]
  refine exceptMapM.mpr (List.forall₂_iff_get.mpr ⟨by simp,fun i bound _ => ?_⟩)
  have inside : i < inputIds.length := by
    rw [List.length_zipIdx,List.length_zip] at bound
    omega
  have width := ids _ (List.getElem_mem inside)
  have same := masks _ (List.getElem_mem (show i < attentionMask.length by omega))
  have some := valid _ (List.getElem_mem (show i < attentionMask.length by omega))
  have fits : validLen attentionMask[i] ≤ seqLen := same ▸ List.countP_le_length
  have first : (inputIds.map List.length).headD 0 = seqLen := by
    cases inputIds with
    | nil => cases inside
    | cons row rows => exact ids row List.mem_cons_self
  simp only [List.get_eq_getElem,List.getElem_zipIdx,List.getElem_zip,List.getElem_map,Nat.zero_add,first]
  rw [if_neg (by omega),if_neg (by omega)]

section Slots
variable (cache : PagedKvCache) (table : List Nat)

def slotValue (position : Nat) : Int :=
  (table.getD (position/cache.blockSize) 0*cache.blockSize+position%cache.blockSize : Nat)

structure SlotFits (position : Nat) : Prop where
  granted : position/cache.blockSize < table.length
  block : table.getD (position/cache.blockSize) 0 < cache.numBlocks
  word : table.getD (position/cache.blockSize) 0*cache.blockSize+position%cache.blockSize < 2^63

variable {cache table}

theorem slotChecked {word : String} {seq position : Nat} {slot : Int} :
    slotInTable word cache.blockSize cache.numBlocks seq table position = .ok slot ↔
      SlotFits cache table position ∧ slotValue cache table position = slot := by
  rw [slotInTableOk]
  constructor
  · rintro ⟨b,found,below,fits,rfl⟩
    have entry : table.getD (position/cache.blockSize) 0 = b := by simp [List.getD_eq_getElem?_getD,found]
    exact ⟨⟨(List.getElem?_eq_some_iff.mp found).1,entry ▸ below,entry ▸ fits⟩,by rw [slotValue,entry]⟩
  · rintro ⟨fits,rfl⟩
    have granted := fits.granted
    have entry : table.getD (position/cache.blockSize) 0 = table[position/cache.blockSize] :=
      (List.getElem_eq_getD 0).symm
    exact ⟨_,List.getElem?_eq_getElem granted,entry ▸ fits.block,entry ▸ fits.word,by rw [slotValue,entry]⟩

theorem slotNeverPad (position : Nat) : slotValue cache table position ≠ padSlotId := by
  unfold slotValue padSlotId
  omega

theorem maskedOnes {seq len : Nat} {out : List Int} :
    (List.replicate len 1).zipIdx.mapM (maskedSlot cache seq table) = .ok out ↔
      (∀ position < len, SlotFits cache table position) ∧ (List.range len).map (slotValue cache table) = out := by
  have positions : (List.replicate len 1).zipIdx = (List.range len).map (1,·) :=
    List.ext_getElem (by simp) fun i _ _ => by simp
  rw [positions,List.mapM_map,exceptMapChecked (P := SlotFits cache table) (g := slotValue cache table)]
  · simp
  · exact fun position _ slot => slotChecked

theorem maskedZeros (seq len room : Nat) :
    ((List.replicate room 0).zipIdx len).mapM (maskedSlot cache seq table) =
      .ok (List.replicate room padSlotId) :=
  exceptMapM.mpr (List.forall₂_iff_get.mpr ⟨by simp,fun i _ _ => by simp [maskedSlot]⟩)

theorem maskedRow {seq len room : Nat} {out : List Int} :
    (List.replicate len 1 ++ List.replicate room 0).zipIdx.mapM (maskedSlot cache seq table) = .ok out ↔
      (∀ position < len, SlotFits cache table position) ∧
        (List.range len).map (slotValue cache table) ++ List.replicate room padSlotId = out := by
  rw [List.zipIdx_append,List.mapM_append,List.length_replicate,Nat.zero_add,maskedZeros]
  simp only [exceptBind,maskedOnes]
  constructor
  · rintro ⟨_,⟨fits,rfl⟩,_,rest,same⟩
    cases rest
    cases same
    exact ⟨fits,rfl⟩
  · rintro ⟨fits,rfl⟩
    exact ⟨_,⟨fits,rfl⟩,_,rfl,rfl⟩

/- The last position of a row already needs every block the packed constructor asks for. -/
theorem blocksGranted {len : Nat} (fits : ∀ position < len, SlotFits cache table position) :
    len ⌈/⌉ cache.blockSize ≤ table.length := by
  rcases Nat.eq_zero_or_pos len with rfl | some
  · simp
  rcases Nat.eq_zero_or_pos cache.blockSize with none | wide
  · simp [none]
  have last := (fits (len-1) (by omega)).granted
  have sum : len+cache.blockSize-1 = len-1+cache.blockSize := by omega
  rw [Nat.ceilDiv_eq_add_pred_div,sum,Nat.add_div_right _ wide]
  exact last

end Slots

section Constructors
variable (cache : PagedKvCache) (blockTables : List (List Nat)) (lens : List Nat)

structure PrefillFits : Prop where
  rows : lens.length ≠ 0
  tables : blockTables.length = lens.length
  blocks : maxBlocks blockTables ≠ 0
  slots : ∀ p ∈ lens.zip blockTables, ∀ position < p.1, SlotFits cache p.2 position
  ids : ∀ table ∈ blockTables, ∀ blockId ∈ table, blockId < 2^32
  contexts : ∀ len ∈ lens, len < 2^32

def paddedTables : List (List Nat) :=
  blockTables.map fun table => table ++ List.replicate (maxBlocks blockTables-table.length) 0

def rowSlots (p : Nat × List Nat) : List Int := (List.range p.1).map (slotValue cache p.2)

def maskMetadata (seqLen : Nat) (masks : List (List Nat)) (varlen : Varlen) : PagedInputMetadata where
  slotMapping := ((lens.zip blockTables).map fun p =>
    rowSlots cache p ++ List.replicate (seqLen-p.1) padSlotId).flatten
  blockTables := paddedTables blockTables
  contextLens := lens
  maxContextLen := maxOf lens
  tokenAttentionMask := some masks
  prefillAttentionMask := none
  prefillCausalOnly := lens.all (· = seqLen)
  queryLens := some lens
  kvLens := some lens
  prefillFlashParams := varlen.prefillFlashParams
  cuSeqlensQ := varlen.cuSeqlensQ
  cuSeqlensKv := varlen.cuSeqlensKv
  maxQueryLen := varlen.maxQueryLen
  maxKvLen := varlen.maxKvLen

def packedMetadata (varlen : Varlen) : PagedInputMetadata where
  slotMapping := ((lens.zip blockTables).map (rowSlots cache)).flatten
  blockTables := paddedTables blockTables
  contextLens := lens
  maxContextLen := maxOf lens
  tokenAttentionMask := none
  prefillAttentionMask := none
  prefillCausalOnly := true
  queryLens := some lens
  kvLens := some lens
  prefillFlashParams := varlen.prefillFlashParams
  cuSeqlensQ := varlen.cuSeqlensQ
  cuSeqlensKv := varlen.cuSeqlensKv
  maxQueryLen := varlen.maxQueryLen
  maxKvLen := varlen.maxKvLen

variable {cache blockTables lens}

theorem totalTokensOk {total : Nat} (positive : ∀ len ∈ lens, 0 < len) (fits : total+lens.sum < 2^64) :
    totalTokens total lens = .ok (total+lens.sum) := by
  induction lens generalizing total with
  | nil => rfl
  | cons len rest ih =>
    rw [List.sum_cons,← Nat.add_assoc] at fits ⊢
    have head := positive len List.mem_cons_self
    have tail : totalTokens (total+len) rest = .ok (total+len+rest.sum) :=
      ih (fun len inside => positive len (List.mem_cons_of_mem _ inside)) fits
    unfold totalTokens
    rw [if_neg (by omega)]
    exact exceptBind.mpr ⟨_,okOrOk.mpr (checkedAddSome.mpr ⟨by omega,rfl⟩),tail⟩

theorem packedRows {slots : List (List Int)} :
    (lens.zip blockTables).zipIdx.mapM (fun ((len,table),seq) => do
      let slots ← (List.range len).mapM
        (slotForBlockTablePosition blockTables cache.blockSize cache.numBlocks seq)
      let neededBlocks := len ⌈/⌉ cache.blockSize
      if table.length < neededBlocks then
        .error s!"paged block table too short for packed prefill: seq={seq} len={len} have={table.length} need={neededBlocks}"
      else .ok slots) = .ok slots ↔
    (∀ p ∈ lens.zip blockTables, ∀ position < p.1, SlotFits cache p.2 position) ∧
      (lens.zip blockTables).map (rowSlots cache) = slots := by
  refine exceptMapIdxChecked fun (len,table) seq found out => ?_
  have own : blockTables[seq]? = some table := (List.getElem?_zip_eq_some.mp found).2
  have placed (slots : List Int) : (List.range len).mapM
      (slotForBlockTablePosition blockTables cache.blockSize cache.numBlocks seq) = .ok slots ↔
        (∀ position ∈ List.range len, SlotFits cache table position) ∧
          (List.range len).map (slotValue cache table) = slots :=
    exceptMapChecked fun position _ slot => (slotForBlockTablePositionOk own).trans slotChecked
  simp only [exceptBind,placed,List.mem_range]
  constructor
  · rintro ⟨_,⟨fits,rfl⟩,last⟩
    split at last <;> try contradiction
    cases last
    exact ⟨fits,rfl⟩
  · rintro ⟨fits,rfl⟩
    exact ⟨_,⟨fits,rfl⟩,if_neg (Nat.not_lt.mpr (blocksGranted fits))⟩

theorem packedOk {metadata : PagedInputMetadata} (positive : ∀ len ∈ lens, 0 < len) :
    inputMetadataFromQueryLens cache blockTables lens = .ok metadata ↔ PrefillFits cache blockTables lens ∧
      ∃ varlen, buildVarlenMetadata (some lens) (some lens) = .ok varlen ∧
        packedMetadata cache blockTables lens varlen = metadata := by
  unfold inputMetadataFromQueryLens
  dsimp only
  constructor
  · intro ok
    split at ok <;> try contradiction
    rename_i rows
    split at ok <;> try contradiction
    rename_i tables
    split at ok <;> try contradiction
    rename_i blocks
    obtain ⟨_,_,ok⟩ := exceptBind.mp ok
    obtain ⟨_,placed,ok⟩ := exceptBind.mp ok
    obtain ⟨slots,rfl⟩ := packedRows.mp placed
    obtain ⟨_,hostOk,ok⟩ := exceptBind.mp ok
    obtain ⟨ids,rfl⟩ := blockTableHostOk.mp hostOk
    obtain ⟨_,contextsOk,ok⟩ := exceptBind.mp ok
    obtain ⟨contexts,rfl⟩ := contextLensOk.mp contextsOk
    obtain ⟨varlen,built,ok⟩ := exceptBind.mp ok
    exact ⟨⟨rows,not_not.mp tables,blocks,slots,ids,contexts⟩,varlen,built,Except.ok.inj ok⟩
  · rintro ⟨fits,varlen,built,rfl⟩
    have total : 0+lens.sum < 2^64 := by
      have := (varlenFits.mp ⟨varlen,built⟩).1
      omega
    rw [if_neg fits.rows,if_neg (not_not.mpr fits.tables),if_neg fits.blocks]
    exact exceptBind.mpr ⟨_,totalTokensOk positive total,exceptBind.mpr ⟨_,packedRows.mpr ⟨fits.slots,rfl⟩,
      exceptBind.mpr ⟨_,blockTableHostOk.mpr ⟨fits.ids,rfl⟩,exceptBind.mpr ⟨_,contextLensOk.mpr ⟨fits.contexts,rfl⟩,
      exceptBind.mpr ⟨varlen,built,rfl⟩⟩⟩⟩⟩

def rightPadded (seqLen len : Nat) : List Nat := List.replicate len 1 ++ List.replicate (seqLen-len) 0

theorem maskedRows {seqLen : Nat} (within : ∀ len ∈ lens, len ≤ seqLen) {rows : List (List Int × Nat)} :
    ((lens.map (rightPadded seqLen)).zip blockTables).zipIdx.mapM (fun ((row,table),seq) =>
      if row.length ≠ seqLen then
        Except.error s!"attention_mask row len mismatch: expected={seqLen}, got={row.length}"
      else do
        let slots ← row.zipIdx.mapM (maskedSlot cache seq table)
        let contextLen ← contextLenU32 (validLen row)
        .ok (slots,contextLen)) = .ok rows ↔
    (∀ p ∈ lens.zip blockTables, (∀ position < p.1, SlotFits cache p.2 position) ∧ p.1 < 2^32) ∧
      (lens.zip blockTables).map (fun p => (rowSlots cache p ++ List.replicate (seqLen-p.1) padSlotId,p.1)) = rows := by
  rw [List.zip_map_left,List.zipIdx_map,List.mapM_map]
  refine exceptMapIdxChecked fun (len,table) seq found out => ?_
  have inside : len ≤ seqLen := within len (List.of_mem_zip (List.mem_of_getElem? found)).1
  have width : (rightPadded seqLen len).length = seqLen := by
    rw [rightPadded,List.length_append,List.length_replicate,List.length_replicate]
    omega
  have valid : validLen (rightPadded seqLen len) = len := by
    simp [rightPadded,validLen,List.countP_append,List.countP_replicate]
  dsimp only [Function.comp_apply,Prod.map,id]
  rw [if_neg (not_not.mpr width),valid]
  simp only [rightPadded,exceptBind,maskedRow,contextLenU32,okOrOk,u32TryFromSome]
  constructor
  · rintro ⟨_,⟨fits,rfl⟩,_,⟨narrow,rfl⟩,last⟩
    exact ⟨⟨fits,narrow⟩,Except.ok.inj last⟩
  · rintro ⟨⟨fits,narrow⟩,rfl⟩
    exact ⟨_,⟨fits,rfl⟩,_,⟨narrow,rfl⟩,rfl⟩

theorem masksOk {seqLen : Nat} (positive : ∀ len ∈ lens, 0 < len) (within : ∀ len ∈ lens, len ≤ seqLen)
    {metadata : PagedInputMetadata} :
    inputMetadataFromAttentionMasks cache blockTables (lens.map (rightPadded seqLen)) = .ok metadata ↔
      PrefillFits cache blockTables lens ∧
      ∃ varlen, buildVarlenMetadata (some lens) (some lens) = .ok varlen ∧
        maskMetadata cache blockTables lens seqLen (lens.map (rightPadded seqLen)) varlen = metadata := by
  have width (len : Nat) (inside : len ∈ lens) : (rightPadded seqLen len).length = seqLen := by
    have := within len inside
    rw [rightPadded,List.length_append,List.length_replicate,List.length_replicate]
    omega
  have valid : (lens.map (rightPadded seqLen)).map validLen = lens := by
    have each : validLen ∘ rightPadded seqLen = id := funext fun len => by
      simp [rightPadded,validLen,List.countP_append,List.countP_replicate]
    rw [List.map_map,each,List.map_id]
  have first (some : lens.length ≠ 0) :
      ((lens.map (rightPadded seqLen)).map List.length).headD 0 = seqLen ∧ seqLen ≠ 0 := by
    cases lens with
    | nil => exact absurd rfl some
    | cons len rest =>
      have head := positive len List.mem_cons_self
      have fits := within len List.mem_cons_self
      exact ⟨width len List.mem_cons_self,by omega⟩
  have firsts (tables : blockTables.length = lens.length) : (lens.zip blockTables).map Prod.fst = lens :=
    List.map_fst_zip (by omega)
  have slotLists : ((lens.zip blockTables).map fun p =>
      (rowSlots cache p ++ List.replicate (seqLen-p.1) padSlotId,p.1)).flatMap Prod.fst =
        ((lens.zip blockTables).map fun p => rowSlots cache p ++ List.replicate (seqLen-p.1) padSlotId).flatten := by
    rw [List.flatMap_def,List.map_map]
    rfl
  have contextLens (tables : blockTables.length = lens.length) : ((lens.zip blockTables).map fun p =>
      (rowSlots cache p ++ List.replicate (seqLen-p.1) padSlotId,p.1)).map Prod.snd = lens := by
    rw [List.map_map]
    exact firsts tables
  unfold inputMetadataFromAttentionMasks
  dsimp only
  rw [List.length_map,valid]
  constructor
  · intro ok
    split at ok <;> try contradiction
    rename_i rows
    rw [(first rows).1] at ok
    split at ok <;> try contradiction
    rename_i tables
    split at ok <;> try contradiction
    split at ok <;> try contradiction
    rename_i blocks
    obtain ⟨_,placed,ok⟩ := exceptBind.mp ok
    obtain ⟨slots,rfl⟩ := (maskedRows within).mp placed
    obtain ⟨_,hostOk,ok⟩ := exceptBind.mp ok
    obtain ⟨ids,rfl⟩ := blockTableHostOk.mp hostOk
    obtain ⟨varlen,built,ok⟩ := exceptBind.mp ok
    have tables := not_not.mp tables
    rw [slotLists,contextLens tables] at ok
    have contexts : ∀ len ∈ lens, len < 2^32 := by
      intro len inside
      rw [← firsts tables] at inside
      obtain ⟨p,member,rfl⟩ := List.mem_map.mp inside
      exact (slots p member).2
    exact ⟨⟨rows,tables,blocks,fun p member => (slots p member).1,ids,contexts⟩,varlen,built,Except.ok.inj ok⟩
  · rintro ⟨fits,varlen,built,rfl⟩
    have checks : ∀ p ∈ lens.zip blockTables, (∀ position < p.1, SlotFits cache p.2 position) ∧ p.1 < 2^32 :=
      fun p member => ⟨fits.slots p member,fits.contexts _ (List.of_mem_zip member).1⟩
    have placed := (maskedRows within).mpr ⟨checks,rfl⟩
    rw [if_neg fits.rows,if_neg (not_not.mpr fits.tables),(first fits.rows).1,if_neg (first fits.rows).2,
      if_neg fits.blocks,placed]
    refine exceptBind.mpr ⟨_,rfl,exceptBind.mpr ⟨_,blockTableHostOk.mpr ⟨fits.ids,rfl⟩,
      exceptBind.mpr ⟨varlen,built,?_⟩⟩⟩
    rw [slotLists,contextLens fits.tables]
    rfl

end Constructors

structure RowSlots (cache : PagedKvCache) (seqLen : Nat) (p : Nat × List Nat) (row : List Int) : Prop where
  width : row.length = seqLen
  positions : List.Forall₂ (fun position slot =>
    slotInTable "sequence" cache.blockSize cache.numBlocks 0 p.2 position = .ok slot)
    (List.range p.1) (row.filter (· ≠ padSlotId))

structure SamePrefill (cache : PagedKvCache) (blockTables : List (List Nat)) (lens : List Nat) (seqLen : Nat)
    (padded packed : PagedInputMetadata) : Prop where
  slotMapping : padded.slotMapping.filter (· ≠ padSlotId) = packed.slotMapping
  rows : ∃ rows, padded.slotMapping = rows.flatten ∧
    List.Forall₂ (RowSlots cache seqLen) (lens.zip blockTables) rows
  blockTables : padded.blockTables = packed.blockTables
  contextLens : padded.contextLens = packed.contextLens
  maxContextLen : padded.maxContextLen = packed.maxContextLen
  queryLens : padded.queryLens = packed.queryLens
  kvLens : padded.kvLens = packed.kvLens
  cuSeqlensQ : padded.cuSeqlensQ = packed.cuSeqlensQ
  cuSeqlensKv : padded.cuSeqlensKv = packed.cuSeqlensKv
  maxQueryLen : padded.maxQueryLen = packed.maxQueryLen
  maxKvLen : padded.maxKvLen = packed.maxKvLen
  prefillFlashParams : padded.prefillFlashParams = packed.prefillFlashParams

theorem paddingDropped (cache : PagedKvCache) (p : Nat × List Nat) (room : Nat) :
    (rowSlots cache p ++ List.replicate room padSlotId).filter (· ≠ padSlotId) = rowSlots cache p := by
  have kept : (rowSlots cache p).filter (· ≠ padSlotId) = rowSlots cache p :=
    List.filter_eq_self.mpr fun slot inside => by
      obtain ⟨position,_,rfl⟩ := List.mem_map.mp inside
      exact decide_eq_true (slotNeverPad position)
  rw [List.filter_append,kept]
  simp

theorem samePrefill {cache : PagedKvCache} {blockTables : List (List Nat)} {lens : List Nat} {seqLen : Nat}
    (positive : ∀ len ∈ lens, 0 < len) (within : ∀ len ∈ lens, len ≤ seqLen) {padded packed : PagedInputMetadata}
    (masks : inputMetadataFromAttentionMasks cache blockTables (lens.map (rightPadded seqLen)) = .ok padded)
    (queries : inputMetadataFromQueryLens cache blockTables lens = .ok packed) :
    SamePrefill cache blockTables lens seqLen padded packed := by
  obtain ⟨fits,varlen,built,rfl⟩ := (masksOk positive within).mp masks
  obtain ⟨_,_,again,rfl⟩ := (packedOk positive).mp queries
  obtain rfl := Except.ok.inj (built.symm.trans again)
  have dropped : (fun p => (rowSlots cache p ++ List.replicate (seqLen-p.1) padSlotId).filter (· ≠ padSlotId)) =
      rowSlots cache := funext fun p => paddingDropped cache p (seqLen-p.1)
  have row (p : Nat × List Nat) (member : p ∈ lens.zip blockTables) :
      RowSlots cache seqLen p (rowSlots cache p ++ List.replicate (seqLen-p.1) padSlotId) := {
    width := by
      have := within _ (List.of_mem_zip member).1
      simp only [rowSlots,List.length_append,List.length_map,List.length_range,List.length_replicate]
      omega
    positions := by
      rw [paddingDropped]
      exact List.forall₂_map_right_iff.mpr (List.forall₂_same.mpr fun position inside =>
        slotChecked.mpr ⟨fits.slots p member position (List.mem_range.mp inside),rfl⟩)}
  exact {
    slotMapping := by
      rw [maskMetadata,List.filter_flatten,List.map_map]
      exact congrArg (fun f => ((lens.zip blockTables).map f).flatten) dropped
    rows := ⟨_,rfl,List.forall₂_map_right_iff.mpr (List.forall₂_same.mpr row)⟩
    blockTables := rfl, contextLens := rfl, maxContextLen := rfl, queryLens := rfl, kvLens := rfl
    cuSeqlensQ := rfl, cuSeqlensKv := rfl, maxQueryLen := rfl, maxKvLen := rfl, prefillFlashParams := rfl}

/-- Normalizing a batch compacts its rows stably, and on the result the padded constructor
returns exactly when the packed one does, with the same metadata but for the padding. -/
theorem prefillMetadataAgrees {inputIds attentionMask : List (List Nat)} {seqLen : Nat}
    (count : inputIds.length = attentionMask.length) (ids : ∀ row ∈ inputIds, row.length = seqLen)
    (masks : ∀ mask ∈ attentionMask, mask.length = seqLen) (valid : ∀ mask ∈ attentionMask, 0 < validLen mask) :
    ∃ normalized, normalizeBatchForPagedPrefill inputIds attentionMask = .ok normalized ∧
      List.Forall₂ (Compacted seqLen) (inputIds.zip attentionMask) normalized ∧
      ∀ (cache : PagedKvCache) (blockTables : List (List Nat)),
        ((∃ padded, inputMetadataFromAttentionMasks cache blockTables (normalized.map (·.2.1)) = .ok padded) ↔
          ∃ packed, inputMetadataFromQueryLens cache blockTables (normalized.map (·.2.2)) = .ok packed) ∧
        ∀ padded packed,
          inputMetadataFromAttentionMasks cache blockTables (normalized.map (·.2.1)) = .ok padded →
          inputMetadataFromQueryLens cache blockTables (normalized.map (·.2.2)) = .ok packed →
          SamePrefill cache blockTables (normalized.map (·.2.2)) seqLen padded packed := by
  obtain ⟨normalized,ok,compacted⟩ := normalizes count ids masks valid
  have each (out : List Nat × List Nat × Nat) (inside : out ∈ normalized) :
      0 < out.2.2 ∧ out.2.2 ≤ seqLen ∧ out.2.1 = rightPadded seqLen out.2.2 := by
    obtain ⟨p,there,row⟩ := pairedSource compacted inside
    have member := (List.of_mem_zip there).2
    have len : out.2.2 = validLen p.2 := row.len
    have most : validLen p.2 ≤ seqLen := masks _ member ▸ List.countP_le_length
    exact ⟨by rw [len]; exact valid _ member,by rw [len]; exact most,row.mask⟩
  have rows : normalized.map (·.2.1) = (normalized.map (·.2.2)).map (rightPadded seqLen) := by
    rw [List.map_map]
    exact List.map_congr_left fun out inside => (each out inside).2.2
  have positive : ∀ len ∈ normalized.map (·.2.2), 0 < len :=
    List.forall_mem_map.mpr fun out inside => (each out inside).1
  have within : ∀ len ∈ normalized.map (·.2.2), len ≤ seqLen :=
    List.forall_mem_map.mpr fun out inside => (each out inside).2.1
  refine ⟨normalized,ok,compacted,fun cache blockTables => ⟨?_,fun padded packed made queries => ?_⟩⟩
  · rw [rows]
    simp only [masksOk positive within,packedOk positive]
    constructor
    · rintro ⟨_,fits,varlen,built,_⟩
      exact ⟨_,fits,varlen,built,rfl⟩
    · rintro ⟨_,fits,varlen,built,_⟩
      exact ⟨_,fits,varlen,built,rfl⟩
  · rw [rows] at made
    exact samePrefill positive within made queries

/- Scattered and left padding, rows of two lengths over blocks of two tokens. -/
theorem prefillMetadataAgreesTwoRows : ∃ normalized,
    normalizeBatchForPagedPrefill [[7,0,8,9],[0,0,5,6]] [[1,0,1,1],[0,0,1,1]] = .ok normalized ∧
    List.Forall₂ (Compacted 4) [([7,0,8,9],[1,0,1,1]),([0,0,5,6],[0,0,1,1])] normalized ∧
    ∃ padded packed,
      inputMetadataFromAttentionMasks ⟨2,8,16,false⟩ [[3,4],[6]] (normalized.map (·.2.1)) = .ok padded ∧
      inputMetadataFromQueryLens ⟨2,8,16,false⟩ [[3,4],[6]] (normalized.map (·.2.2)) = .ok packed ∧
      SamePrefill ⟨2,8,16,false⟩ [[3,4],[6]] (normalized.map (·.2.2)) 4 padded packed := by
  have count : [[7,0,8,9],[0,0,5,6]].length = [[1,0,1,1],[0,0,1,1]].length := rfl
  have ids : ∀ row ∈ [[7,0,8,9],[0,0,5,6]], row.length = 4 := by simp
  obtain ⟨normalized,ok,compacted,agrees⟩ := prefillMetadataAgrees count ids (by simp) (by decide)
  obtain ⟨returns,same⟩ := agrees ⟨2,8,16,false⟩ [[3,4],[6]]
  obtain rfl : [([7,8,9,0],[1,1,1,0],3),([5,6,0,0],[1,1,0,0],2)] = normalized := Except.ok.inj ok
  obtain ⟨packed,queries⟩ : ∃ packed, inputMetadataFromQueryLens ⟨2,8,16,false⟩ [[3,4],[6]] [3,2] = .ok packed :=
    exceptIsOk.mp rfl
  obtain ⟨padded,masks⟩ := returns.mpr ⟨packed,queries⟩
  exact ⟨_,ok,compacted,padded,packed,masks,queries,same padded packed masks queries⟩

end Qwen3Asr.PrefillMetadata
