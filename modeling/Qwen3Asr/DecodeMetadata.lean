import Mathlib.Algebra.BigOperators.Group.List.Basic
import Qwen3Asr.PagedMetadata

/-! Decode metadata prepared for many steps at once is, step by step, the metadata
the plain constructors make: for a batch of block tables and for a single request. -/
namespace Qwen3Asr.DecodeMetadata
open Library.Word Library.Effect PagedMetadata

structure DType where
  name : String
  sizeInBytes : Nat

/- A cache whose sequences own consecutive blocks, as `new_inner` builds it. -/
structure SequenceCache extends PagedKvCache where
  numBlocksPerSequence : Nat
  batchSize : Nat
  maxTokens : Nat
  blockTableHost : List Nat
  capacity : maxTokens = numBlocks*blockSize
  host : blockTableHost = List.range numBlocks

def newInner (numLayers numKvHeads headDim blockSize numBlocks numBlocksPerSequence batchSize
    maxTokensPerSequence : Nat) (dtype : DType) (cudaGraph : Bool) : Except String SequenceCache := do
  if numLayers = 0 then .error "paged kv cache requires at least one layer" else
  if numKvHeads = 0 then .error "paged kv cache requires at least one kv head" else
  if headDim = 0 then .error "paged kv cache requires non-zero head_dim" else
  if blockSize = 0 then .error "paged kv cache requires non-zero block_size" else
  if batchSize = 0 then .error "paged kv cache requires non-zero batch_size" else
  if maxTokensPerSequence = 0 then .error "paged kv cache requires non-zero max_tokens" else
  if numBlocks = 0 then .error "paged kv cache requires non-zero num_blocks" else
  if dtype.sizeInBytes = 0 ∨ 16%dtype.sizeInBytes ≠ 0 then
    .error s!"unsupported paged kv cache dtype: {dtype.name}" else
  let keyPack := 16/dtype.sizeInBytes
  if headDim%keyPack ≠ 0 then
    .error s!"head_dim must be divisible by key cache pack size: head_dim={headDim} pack={keyPack}" else
  let _ ← okOr (checkedMul numBlocks blockSize) "paged kv cache token capacity overflow"
  let _ ← (List.range numBlocks).mapM fun idx =>
    okOr (u32TryFrom idx) s!"block index overflows u32: {idx}"
  .ok ⟨⟨blockSize,numBlocks,maxTokensPerSequence,cudaGraph⟩,numBlocksPerSequence,batchSize,
    numBlocks*blockSize,List.range numBlocks,rfl,rfl⟩

def slotForSequencePosition (cache : SequenceCache) (sequence position : Nat) : Except String Int := do
  if cache.batchSize ≤ sequence then
    .error s!"sequence exceeds paged kv cache batch: sequence={sequence} batch={cache.batchSize}" else
  if cache.maxTokensPerSequence ≤ position then
    .error s!"position exceeds paged kv cache capacity: position={position} max_tokens_per_sequence={cache.maxTokensPerSequence}" else
  let base ← okOr ((checkedMul sequence cache.numBlocksPerSequence).bind (checkedMul · cache.blockSize))
    "slot sequence base overflow"
  let slot ← okOr (checkedAdd base position) "slot position overflow"
  okOr (i64TryFrom slot) s!"slot overflows i64: {slot}"

def slotForPosition (cache : SequenceCache) (position : Nat) : Except String Int :=
  slotForSequencePosition cache 0 position

def slotMappingForRange (cache : SequenceCache) (start len : Nat) : Except String (List Int) := do
  let endPosition ← okOr (checkedAdd start len) "slot range overflow"
  if cache.maxTokens < endPosition then
    .error s!"slot range exceeds paged kv cache capacity: start={start} len={len} max_tokens={cache.maxTokens}"
  else (List.range' start (endPosition-start)).mapM (slotForPosition cache)

def blockTablesTensor (cache : SequenceCache) : List (List Nat) := [cache.blockTableHost]

def contextLensTensor (cache : SequenceCache) (contextLen : Nat) : Except String (List Nat) := do
  if cache.maxTokens < contextLen then
    .error s!"context length exceeds paged kv cache capacity: context_len={contextLen} max_tokens={cache.maxTokens}"
  else
    let len ← contextLenU32 contextLen
    .ok [len]

def inputMetadataForRange (cache : SequenceCache) (start len contextLen : Nat) :
    Except String PagedInputMetadata := do
  let queryLens := some [len]
  let kvLens := some [contextLen]
  let varlen ← buildVarlenMetadata queryLens kvLens
  let slotMapping ← slotMappingForRange cache start len
  let contextLens ← contextLensTensor cache contextLen
  .ok {
    slotMapping, blockTables := blockTablesTensor cache, contextLens
    maxContextLen := contextLen, tokenAttentionMask := none, prefillAttentionMask := none
    prefillCausalOnly := false, queryLens, kvLens, prefillFlashParams := varlen.prefillFlashParams
    cuSeqlensQ := varlen.cuSeqlensQ, cuSeqlensKv := varlen.cuSeqlensKv
    maxQueryLen := varlen.maxQueryLen, maxKvLen := varlen.maxKvLen}

/- Narrowing the two tensors at a step reads one entry of each. -/
def decodeMetadataForSteps (cache : SequenceCache) (promptLen steps : Nat) :
    Except String (List PagedInputMetadata) := do
  let endPosition ← okOr (checkedAdd promptLen steps) "decode metadata range overflow"
  if cache.maxTokens < endPosition then
    .error s!"decode metadata range exceeds paged kv cache capacity: prompt_len={promptLen} steps={steps} max_tokens={cache.maxTokens}"
  else
    let slots ← (List.range' promptLen (endPosition-promptLen)).mapM (slotForPosition cache)
    let contexts ← (List.range' (promptLen+1) steps).mapM contextLenU32
    .ok ((slots.zip contexts).zipIdx.map fun ((slot,context),step) => {
      slotMapping := [slot], blockTables := blockTablesTensor cache, contextLens := [context]
      maxContextLen := promptLen+step+1, tokenAttentionMask := none, prefillAttentionMask := none
      prefillCausalOnly := false, queryLens := none, kvLens := none, prefillFlashParams := none
      cuSeqlensQ := none, cuSeqlensKv := none, maxQueryLen := none, maxKvLen := none})

structure SameDecode (entry expected : PagedInputMetadata) : Prop where
  slotMapping : entry.slotMapping = expected.slotMapping
  blockTables : entry.blockTables = expected.blockTables
  contextLens : entry.contextLens = expected.contextLens
  maxContextLen : entry.maxContextLen = expected.maxContextLen

theorem varlenFits {queryLens kvLens : List Nat} :
    (∃ varlen, buildVarlenMetadata (some queryLens) (some kvLens) = .ok varlen) ↔
      queryLens.sum < 2^32 ∧ kvLens.sum < 2^32 := by
  have fits (lengths : List Nat) :
      (∃ out, cumulativeSeqlensFromLengths lengths = .ok out) ↔ lengths.sum < 2^32 := by
    rw [← Nat.zero_add lengths.sum,← cumulativeFits (by decide)]
    simp [cumulativeSeqlensFromLengths,exceptBind]
  rw [← fits,← fits]
  simp only [buildVarlenMetadata,exceptBind,exceptMapSome]
  constructor
  · rintro ⟨_,_,⟨cuQ,q,_⟩,_,⟨cuKv,kv,_⟩,_⟩
    exact ⟨⟨cuQ,q⟩,⟨cuKv,kv⟩⟩
  · rintro ⟨⟨cuQ,q⟩,⟨cuKv,kv⟩⟩
    exact ⟨_,_,⟨cuQ,q,rfl⟩,_,⟨cuKv,kv,rfl⟩,rfl⟩

section Batch
variable {cache : PagedKvCache} {blockTables : List (List Nat)} {promptLens : List Nat}

theorem stepInRange {steps step : Nat} {all : List PagedInputMetadata} {entry : PagedInputMetadata}
    (ok : decodeMetadataForBatchSteps cache blockTables promptLens steps = .ok all)
    (found : all[step]? = some entry) :
    decodeMetadataForBatchStep cache blockTables promptLens step = .ok entry := by
  obtain ⟨nonempty,lengths,wide,host,hostOk,rows,each,rfl⟩ := decodeStepsOk.mp ok
  have inside : step < rows.length := by simpa using (List.getElem?_eq_some_iff.mp found).1
  have size : steps = rows.length := by simpa using each.length_eq
  have first := List.forall₂_take (step+1) each
  rw [List.take_range,Nat.min_eq_left (by omega)] at first
  refine decodeStepOk.mpr ⟨(rows.take (step+1)).map (stepMetadata host),
    decodeStepsOk.mpr ⟨nonempty,lengths,wide,host,hostOk,_,first,rfl⟩,?_⟩
  simpa [List.getElem?_take_of_lt] using found

theorem rowSlots {step : Nat} {row : List (Int × Nat)} (lengths : promptLens.length = blockTables.length)
    (entries : promptLens.zipIdx.mapM (decodeEntry cache blockTables step) = .ok row) :
    (blockTables.zip (promptLens.map (·+step))).zipIdx.mapM (fun ((table,start),seq) => do
      let endPosition ← okOr (checkedAdd start 1) "slot range overflow"
      (List.range' start (endPosition-start)).mapM
        (slotInTable "sequence" cache.blockSize cache.numBlocks seq table)) = .ok (row.map ([·.1])) := by
  have pairs := exceptMapM.mp entries
  have size : row.length = promptLens.length := by simpa using pairs.length_eq.symm
  refine exceptMapM.mpr (List.forall₂_iff_get.mpr ⟨by simp [lengths,size],fun seq bound inside => ?_⟩)
  have here : seq < promptLens.length := by simpa [size] using inside
  have entry := (List.forall₂_iff_get.mp pairs).2 seq (by simpa using here) (by omega)
  simp only [List.get_eq_getElem,List.getElem_zipIdx,Nat.zero_add] at entry
  change decodeEntry _ _ _ (promptLens[seq],seq) = .ok (row[seq].1,row[seq].2) at entry
  obtain ⟨slotOk,_,fits⟩ := decodeEntryOk entry
  have placed := slotInTableOk.mp ((slotForBlockTablePositionOk
    (List.getElem?_eq_getElem (show seq < blockTables.length by omega))).mp slotOk)
  have next : checkedAdd (promptLens[seq]+step) 1 = some (promptLens[seq]+step+1) :=
    checkedAddSome.mpr ⟨by omega,rfl⟩
  simp only [List.get_eq_getElem,List.getElem_zipIdx,List.getElem_zip,List.getElem_map,Nat.zero_add]
  refine exceptBind.mpr ⟨_,okOrOk.mpr next,exceptMapM.mpr ?_⟩
  rw [Nat.add_sub_cancel_left]
  exact .cons (slotInTableOk.mpr placed) .nil

theorem rowContexts {step : Nat} {row : List (Int × Nat)}
    (entries : promptLens.zipIdx.mapM (decodeEntry cache blockTables step) = .ok row) :
    (promptLens.map (·+step+1)).mapM contextLenU32 = .ok (row.map Prod.snd) := by
  have pairs := exceptMapM.mp entries
  have size : row.length = promptLens.length := by simpa using pairs.length_eq.symm
  have each (seq : Nat) (here : seq < promptLens.length) (inside : seq < row.length) :
      row[seq].2 = promptLens[seq]+step+1 ∧ promptLens[seq]+step+1 < 2^32 := by
    have entry := (List.forall₂_iff_get.mp pairs).2 seq (by simpa using here) inside
    simp only [List.get_eq_getElem,List.getElem_zipIdx,Nat.zero_add] at entry
    change decodeEntry _ _ _ (promptLens[seq],seq) = .ok (row[seq].1,row[seq].2) at entry
    exact (decodeEntryOk entry).2
  have same : promptLens.map (·+step+1) = row.map Prod.snd :=
    List.ext_getElem (by simp [size]) fun seq left right => by
      simpa using (each seq (by simpa using left) (by simpa using right)).1.symm
  have fits : ∀ len ∈ promptLens.map (·+step+1), len < 2^32 := by
    intro len inside
    obtain ⟨_,member,rfl⟩ := List.mem_map.mp inside
    obtain ⟨seq,here,rfl⟩ := List.getElem_of_mem member
    exact (each seq here (by omega)).2
  exact contextLensOk.mpr ⟨fits,same⟩

theorem stepAgrees {step : Nat} {entry : PagedInputMetadata}
    (ok : decodeMetadataForBatchStep cache blockTables promptLens step = .ok entry)
    {expected : Except String PagedInputMetadata}
    (plain : inputMetadataFromBlockTables cache blockTables (promptLens.map (·+step)) 1
      (promptLens.map (·+step+1)) = expected) :
    ((∃ metadata, expected = .ok metadata) ↔ (promptLens.map (·+step+1)).sum < 2^32) ∧
    ∀ metadata, expected = .ok metadata → entry.slotMapping = metadata.slotMapping ∧
      (cache.cudaGraph = false → entry.blockTables = metadata.blockTables) ∧
      entry.contextLens = metadata.contextLens ∧ entry.maxContextLen = metadata.maxContextLen := by
  obtain ⟨all,steps,_⟩ := decodeStepOk.mp ok
  obtain ⟨nonempty,_,wide,_⟩ := decodeStepsOk.mp steps
  obtain ⟨lengths,hostOk,row,entries,same⟩ := decodeMetadataParts ok
  obtain ⟨ids,host⟩ := blockTableHostOk.mp hostOk
  obtain ⟨_,contexts⟩ := contextLensOk.mp (rowContexts entries)
  have narrowed : blockTableHost blockTables (maxBlocks blockTables) =
      .ok (blockTables.map fun table => table ++ List.replicate (maxBlocks blockTables-table.length) 0) :=
    blockTableHostOk.mpr ⟨ids,rfl⟩
  unfold inputMetadataFromBlockTables at plain
  dsimp only at plain
  rw [if_neg nonempty,if_neg (by simp [lengths]),if_neg wide,rowSlots lengths entries,narrowed,
    rowContexts entries] at plain
  have fits : (∃ varlen, buildVarlenMetadata (some (List.replicate blockTables.length 1))
      (some (promptLens.map (·+step+1))) = .ok varlen) ↔ (promptLens.map (·+step+1)).sum < 2^32 := by
    have least := List.length_le_sum_of_one_le (promptLens.map (·+step+1)) fun len inside => by
      obtain ⟨_,_,rfl⟩ := List.mem_map.mp inside
      omega
    simp only [List.length_map,lengths] at least
    rw [varlenFits,List.sum_replicate,smul_eq_mul,Nat.mul_one]
    exact ⟨And.right,fun total => ⟨by omega,total⟩⟩
  rw [← fits]
  simp only [bind,Except.bind] at plain
  cases built : buildVarlenMetadata (some (List.replicate blockTables.length 1))
      (some (promptLens.map (·+step+1))) with
  | error e =>
    simp only [built] at plain
    subst plain
    simp
  | ok varlen =>
    simp only [built] at plain
    subst plain
    refine ⟨by simp,fun metadata made => ?_⟩
    cases made
    rw [same]
    have slots : row.map Prod.fst = (row.map ([·.1])).flatten := by
      rw [List.map_eq_flatMap,List.flatMap_def]
    have tables (plainCols : cache.cudaGraph = false) : entry.blockTables =
        blockTables.map fun table => table ++ List.replicate (maxBlocks blockTables-table.length) 0 := by
      rw [← host,decodeTableCols,plainCols]
      rfl
    exact ⟨slots,tables,rfl,congrArg maxOf contexts.symm⟩

end Batch

theorem slotOfRange {cache : SequenceCache} {start : Nat} {slot : Int} (bound : start+1 ≤ cache.maxTokens)
    (word : start+1 < 2^64) (ok : slotForPosition cache start = .ok slot) :
    slotMappingForRange cache start 1 = .ok [slot] := by
  unfold slotMappingForRange
  refine exceptBind.mpr ⟨_,okOrOk.mpr (checkedAddSome.mpr ⟨word,rfl⟩),?_⟩
  rw [if_neg (by omega),Nat.add_sub_cancel_left]
  exact exceptMapM.mpr (.cons ok .nil)

theorem rangeAgrees {cache : SequenceCache} {promptLen steps : Nat} {all : List PagedInputMetadata}
    (ok : decodeMetadataForSteps cache promptLen steps = .ok all) :
    all.length = steps ∧ ∀ step entry, all[step]? = some entry → ∃ metadata,
      inputMetadataForRange cache (promptLen+step) 1 (promptLen+step+1) = .ok metadata ∧
        SameDecode entry metadata := by
  unfold decodeMetadataForSteps at ok
  obtain ⟨_,endPosition,ok⟩ := exceptBind.mp ok
  obtain ⟨word,rfl⟩ := checkedAddSome.mp (okOrOk.mp endPosition)
  split at ok <;> try contradiction
  rename_i room
  rw [Nat.add_sub_cancel_left] at ok
  obtain ⟨slots,placed,ok⟩ := exceptBind.mp ok
  obtain ⟨contexts,narrowed,ok⟩ := exceptBind.mp ok
  cases ok
  have pairs := exceptMapM.mp placed
  obtain ⟨fits,rfl⟩ := contextLensOk.mp narrowed
  have size : slots.length = steps := by simpa using pairs.length_eq.symm
  refine ⟨by simp [size],fun step entry found => ?_⟩
  have bound : step < steps := by simpa [size] using (List.getElem?_eq_some_iff.mp found).1
  have slotOk := (List.forall₂_iff_get.mp pairs).2 step (by simpa using bound) (by omega)
  simp only [List.get_eq_getElem,List.getElem_range',Nat.one_mul] at slotOk
  have context : promptLen+step+1 < 2^32 := fits _ (List.mem_range'_1.mpr (by omega))
  have made : entry = {
      slotMapping := [slots[step]], blockTables := blockTablesTensor cache, contextLens := [promptLen+step+1]
      maxContextLen := promptLen+step+1, tokenAttentionMask := none, prefillAttentionMask := none
      prefillCausalOnly := false, queryLens := none, kvLens := none, prefillFlashParams := none
      cuSeqlensQ := none, cuSeqlensKv := none, maxQueryLen := none, maxKvLen := none} := by
    have inside : step < slots.length := by omega
    have context : promptLen+1+step = promptLen+step+1 := by omega
    simpa [inside,bound,context] using found.symm
  obtain ⟨varlen,built⟩ : ∃ varlen, buildVarlenMetadata (some [1]) (some [promptLen+step+1]) = .ok varlen :=
    varlenFits.mpr ⟨by decide,by simpa using context⟩
  have contexts : contextLensTensor cache (promptLen+step+1) = .ok [promptLen+step+1] := by
    unfold contextLensTensor
    rw [if_neg (by omega)]
    exact exceptBind.mpr ⟨_,okOrOk.mpr (u32TryFromSome.mpr ⟨context,rfl⟩),rfl⟩
  refine ⟨_,exceptBind.mpr ⟨varlen,built,exceptBind.mpr ⟨_,slotOfRange (by omega) (by omega) slotOk,
    exceptBind.mpr ⟨_,contexts,rfl⟩⟩⟩,?_⟩
  rw [made]
  exact ⟨rfl,rfl,rfl,rfl⟩

/-- Every step prepared ahead is the plain constructor's for its positions. For a batch the
constructor returns exactly when the context lengths, which it also adds up, sum to a `u32`. -/
theorem decodeAgreesPerStep :
    (∀ (cache : PagedKvCache) (blockTables : List (List Nat)) (promptLens : List Nat) (steps : Nat)
      (all : List PagedInputMetadata), decodeMetadataForBatchSteps cache blockTables promptLens steps = .ok all →
      all.length = steps ∧ ∀ step entry, all[step]? = some entry →
        decodeMetadataForBatchStep cache blockTables promptLens step = .ok entry ∧
        ∀ expected, inputMetadataFromBlockTables cache blockTables (promptLens.map (·+step)) 1
            (promptLens.map (·+step+1)) = expected →
          ((∃ metadata, expected = .ok metadata) ↔ (promptLens.map (·+step+1)).sum < 2^32) ∧
          ∀ metadata, expected = .ok metadata → entry.slotMapping = metadata.slotMapping ∧
            (cache.cudaGraph = false → entry.blockTables = metadata.blockTables) ∧
            entry.contextLens = metadata.contextLens ∧ entry.maxContextLen = metadata.maxContextLen) ∧
    (∀ (cache : PagedKvCache) (blockTables : List (List Nat)) (promptLens : List Nat) (step : Nat)
      (entry : PagedInputMetadata), decodeMetadataForBatchStep cache blockTables promptLens step = .ok entry →
      ∃ all, decodeMetadataForBatchSteps cache blockTables promptLens (step+1) = .ok all ∧
        all[step]? = some entry) ∧
    ∀ (cache : SequenceCache) (promptLen steps : Nat) (all : List PagedInputMetadata),
      decodeMetadataForSteps cache promptLen steps = .ok all →
      all.length = steps ∧ ∀ step entry, all[step]? = some entry → ∃ metadata,
        inputMetadataForRange cache (promptLen+step) 1 (promptLen+step+1) = .ok metadata ∧
          SameDecode entry metadata := by
  refine ⟨fun cache blockTables promptLens steps all ok => ⟨?_,fun step entry found => ?_⟩,
    fun cache blockTables promptLens step entry ok => decodeStepOk.mp ok,
    fun cache promptLen steps all ok => rangeAgrees ok⟩
  · obtain ⟨_,_,_,_,_,rows,each,rfl⟩ := decodeStepsOk.mp ok
    simpa using each.length_eq.symm
  · have here := stepInRange ok found
    exact ⟨here,fun expected plain => stepAgrees here plain⟩

/- Two rows that fill 2^31 positions of one block: the lengths no longer sum to a `u32`. -/
theorem longContextsOnlyAhead :
    (∃ all, decodeMetadataForBatchSteps ⟨2^31,1,2^31,false⟩ [[0],[0]] [2^31-1,2^31-1] 1 = .ok all) ∧
    ∀ metadata, inputMetadataFromBlockTables ⟨2^31,1,2^31,false⟩ [[0],[0]] [2^31-1,2^31-1] 1 [2^31,2^31] ≠
      .ok metadata := by
  have refused : (inputMetadataFromBlockTables ⟨2^31,1,2^31,false⟩ [[0],[0]] [2^31-1,2^31-1] 1
      [2^31,2^31]).isOk = false := rfl
  refine ⟨exceptIsOk.mp rfl,fun metadata made => ?_⟩
  rw [made] at refused
  cases refused

end Qwen3Asr.DecodeMetadata
