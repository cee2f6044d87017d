import Mathlib.Algebra.Order.Floor.Div
import Qwen3Asr.Library.Effect
import Qwen3Asr.Library.Word

/-! Slot mappings, block tables and context lengths handed to paged attention.
A tensor is the list of its entries, a matrix the list of its rows. -/
namespace Qwen3Asr.PagedMetadata
open Library.Word Library.Effect

def padSlotId : Int := -1

structure PagedKvCache where
  blockSize : Nat
  numBlocks : Nat
  maxTokensPerSequence : Nat
  /-- The crate is built with its `cuda-graph` feature. -/
  cudaGraph : Bool
  deriving DecidableEq, Repr

structure FlashParams where
  maxQ : Nat
  cumulativeSeqlensQ : Option (List Nat)
  maxK : Nat
  cumulativeSeqlensK : Option (List Nat)
  causal : Bool
  deriving DecidableEq, Repr

structure PagedInputMetadata where
  slotMapping : List Int
  blockTables : List (List Nat)
  contextLens : List Nat
  maxContextLen : Nat
  tokenAttentionMask : Option (List (List Nat))
  prefillAttentionMask : Option (List (List (List Bool)))
  prefillCausalOnly : Bool
  queryLens : Option (List Nat)
  kvLens : Option (List Nat)
  prefillFlashParams : Option FlashParams
  cuSeqlensQ : Option (List Nat)
  cuSeqlensKv : Option (List Nat)
  maxQueryLen : Option Nat
  maxKvLen : Option Nat
  deriving DecidableEq, Repr

def maxOf (lengths : List Nat) : Nat := lengths.max?.getD 0

def cumulativeFrom (total : Nat) : List Nat → Except String (List Nat)
  | [] => .ok []
  | len::rest => do
    let lenU32 ← okOr (u32TryFrom len) s!"sequence length overflows u32: {len}"
    let total ← okOr (u32TryFrom (total+lenU32)) "cumulative sequence length overflow"
    let tail ← cumulativeFrom total rest
    .ok (total::tail)

def cumulativeSeqlensFromLengths (lengths : List Nat) : Except String (List Nat) := do
  let out ← cumulativeFrom 0 lengths
  .ok (0::out)

def newPrefill (maxQ : Option Nat) (cumulativeSeqlensQ : Option (List Nat)) (maxK : Option Nat)
    (cumulativeSeqlensK : Option (List Nat)) (causal : Bool) : Option FlashParams := do
  let maxQ ← maxQ
  let maxQ ← u32TryFrom maxQ
  let maxK ← maxK
  let maxK ← u32TryFrom maxK
  some ⟨maxQ,cumulativeSeqlensQ,maxK,cumulativeSeqlensK,causal⟩

/- The entry of one table for a token position. The builders word the error of a
missing entry with `seq` or with `sequence`. -/
def slotInTable (word : String) (blockSize numBlocks seq : Nat) (table : List Nat) (position : Nat) :
    Except String Int := do
  let blockIdx := position/blockSize
  let offset := position%blockSize
  let blockId ← okOr table[blockIdx]?
    s!"missing block table entry: {word}={seq} block_idx={blockIdx} position={position} block_size={blockSize} table_len={table.length} table={table}"
  if numBlocks ≤ blockId then
    .error s!"block id exceeds paged cache capacity: block_id={blockId} num_blocks={numBlocks}"
  else
    let slot ← okOr ((checkedMul blockId blockSize).bind (checkedAdd · offset))
      "paged slot mapping overflow"
    okOr (i64TryFrom slot) s!"paged slot overflows i64: {slot}"

def slotForBlockTablePosition (blockTables : List (List Nat)) (blockSize numBlocks seq position : Nat) :
    Except String Int := do
  let table ← okOr blockTables[seq]? s!"missing block table for sequence {seq}"
  slotInTable "seq" blockSize numBlocks seq table position

structure Varlen where
  prefillFlashParams : Option FlashParams
  cuSeqlensQ : Option (List Nat)
  cuSeqlensKv : Option (List Nat)
  maxQueryLen : Option Nat
  maxKvLen : Option Nat

def buildVarlenMetadata (queryLens kvLens : Option (List Nat)) : Except String Varlen := do
  let cuSeqlensQ ← queryLens.mapM cumulativeSeqlensFromLengths
  let cuSeqlensKv ← kvLens.mapM cumulativeSeqlensFromLengths
  let maxQueryLen := queryLens.map maxOf
  let maxKvLen := kvLens.map maxOf
  let causal := queryLens.any (fun lens => lens.any (fun len => 1 < len))
  .ok ⟨newPrefill maxQueryLen cuSeqlensQ maxKvLen cuSeqlensKv causal,
    cuSeqlensQ,cuSeqlensKv,maxQueryLen,maxKvLen⟩

def blockTableHost (blockTables : List (List Nat)) (maxBlocks : Nat) : Except String (List (List Nat)) :=
  blockTables.mapM fun table => do
    let ids ← table.mapM fun blockId => okOr (u32TryFrom blockId) s!"block id overflows u32: {blockId}"
    .ok (ids ++ List.replicate (maxBlocks-table.length) 0)

def contextLenU32 (contextLen : Nat) : Except String Nat :=
  okOr (u32TryFrom contextLen) s!"context length overflows u32: {contextLen}"

def maxBlocks (blockTables : List (List Nat)) : Nat := maxOf (blockTables.map List.length)

def inputMetadataFromBlockTables (cache : PagedKvCache) (blockTables : List (List Nat))
    (starts : List Nat) (len : Nat) (contextLens : List Nat) : Except String PagedInputMetadata := do
  let batch := blockTables.length
  if batch = 0 then .error "paged metadata batch must be non-empty" else
  if starts.length ≠ batch ∨ contextLens.length ≠ batch then
    .error s!"paged metadata batch mismatch: block_tables={batch} starts={starts.length} context_lens={contextLens.length}" else
  let maxBlocks := maxBlocks blockTables
  if maxBlocks = 0 then .error "paged metadata requires at least one block per sequence" else
  let slots ← (blockTables.zip starts).zipIdx.mapM fun ((table,start),seq) => do
    let endPosition ← okOr (checkedAdd start len) "slot range overflow"
    (List.range' start (endPosition-start)).mapM
      (slotInTable "sequence" cache.blockSize cache.numBlocks seq table)
  let host ← blockTableHost blockTables maxBlocks
  let contextHost ← contextLens.mapM contextLenU32
  let queryLens := some (List.replicate batch len)
  let kvLens := some contextLens
  let varlen ← buildVarlenMetadata queryLens kvLens
  .ok {
    slotMapping := slots.flatten, blockTables := host, contextLens := contextHost
    maxContextLen := maxOf contextLens, tokenAttentionMask := none, prefillAttentionMask := none
    prefillCausalOnly := false, queryLens, kvLens, prefillFlashParams := varlen.prefillFlashParams
    cuSeqlensQ := varlen.cuSeqlensQ, cuSeqlensKv := varlen.cuSeqlensKv
    maxQueryLen := varlen.maxQueryLen, maxKvLen := varlen.maxKvLen}

def maskedSlot (cache : PagedKvCache) (seq : Nat) (table : List Nat) : Nat × Nat → Except String Int :=
  fun (mask,position) =>
    if mask = 0 then .ok padSlotId
    else slotInTable "sequence" cache.blockSize cache.numBlocks seq table position

def validLen (mask : List Nat) : Nat := mask.countP (· ≠ 0)

def inputMetadataFromAttentionMasks (cache : PagedKvCache) (blockTables attentionMasks : List (List Nat)) :
    Except String PagedInputMetadata := do
  let batch := attentionMasks.length
  if batch = 0 then .error "paged metadata batch must be non-empty" else
  if blockTables.length ≠ batch then
    .error s!"paged metadata batch mismatch: block_tables={blockTables.length} attention_masks={batch}" else
  let seqLen := (attentionMasks.map List.length).headD 0
  if seqLen = 0 then .error "attention mask rows must be non-empty" else
  let maxBlocks := maxBlocks blockTables
  if maxBlocks = 0 then .error "paged metadata requires at least one block per sequence" else
  let rows ← (attentionMasks.zip blockTables).zipIdx.mapM fun ((row,table),seq) =>
    if row.length ≠ seqLen then
      .error s!"attention_mask row len mismatch: expected={seqLen}, got={row.length}"
    else do
      let slots ← row.zipIdx.mapM (maskedSlot cache seq table)
      let contextLen ← contextLenU32 (validLen row)
      .ok (slots,contextLen)
  let host ← blockTableHost blockTables maxBlocks
  let lens := attentionMasks.map validLen
  let queryLens := some lens
  let kvLens := some lens
  let varlen ← buildVarlenMetadata queryLens kvLens
  .ok {
    slotMapping := rows.flatMap Prod.fst, blockTables := host, contextLens := rows.map Prod.snd
    maxContextLen := maxOf lens, tokenAttentionMask := some attentionMasks, prefillAttentionMask := none
    prefillCausalOnly := lens.all (· = seqLen), queryLens, kvLens
    prefillFlashParams := varlen.prefillFlashParams
    cuSeqlensQ := varlen.cuSeqlensQ, cuSeqlensKv := varlen.cuSeqlensKv
    maxQueryLen := varlen.maxQueryLen, maxKvLen := varlen.maxKvLen}

def totalTokens (total : Nat) : List Nat → Except String Nat
  | [] => .ok total
  | len::rest =>
    if len = 0 then .error "packed prefill query length must be non-zero" else do
      let total ← okOr (checkedAdd total len) "packed prefill token count overflow"
      totalTokens total rest

def inputMetadataFromQueryLens (cache : PagedKvCache) (blockTables : List (List Nat))
    (queryLensIn : List Nat) : Except String PagedInputMetadata := do
  let batch := queryLensIn.length
  if batch = 0 then .error "paged metadata batch must be non-empty" else
  if blockTables.length ≠ batch then
    .error s!"paged metadata batch mismatch: block_tables={blockTables.length} query_lens={batch}" else
  let maxBlocks := maxBlocks blockTables
  if maxBlocks = 0 then .error "paged metadata requires at least one block per sequence" else
  let _ ← totalTokens 0 queryLensIn
  let slots ← (queryLensIn.zip blockTables).zipIdx.mapM fun ((len,table),seq) => do
    let slots ← (List.range len).mapM
      (slotForBlockTablePosition blockTables cache.blockSize cache.numBlocks seq)
    let neededBlocks := len ⌈/⌉ cache.blockSize
    if table.length < neededBlocks then
      .error s!"paged block table too short for packed prefill: seq={seq} len={len} have={table.length} need={neededBlocks}"
    else .ok slots
  let host ← blockTableHost blockTables maxBlocks
  let contextHost ← queryLensIn.mapM contextLenU32
  let queryLens := some queryLensIn
  let kvLens := some queryLensIn
  let varlen ← buildVarlenMetadata queryLens kvLens
  .ok {
    slotMapping := slots.flatten, blockTables := host, contextLens := contextHost
    maxContextLen := maxOf queryLensIn, tokenAttentionMask := none, prefillAttentionMask := none
    prefillCausalOnly := true, queryLens, kvLens, prefillFlashParams := varlen.prefillFlashParams
    cuSeqlensQ := varlen.cuSeqlensQ, cuSeqlensKv := varlen.cuSeqlensKv
    maxQueryLen := varlen.maxQueryLen, maxKvLen := varlen.maxKvLen}

def cudaGraphContextBucketTokens : Nat := 256

def cudaGraphBlockBucket (blockSize : Nat) : Nat := max (cudaGraphContextBucketTokens ⌈/⌉ blockSize) 1

def bucketBlockTableCols (blocks blockSize : Nat) : Nat :=
  let blockBucket := cudaGraphBlockBucket blockSize
  if blocks = 0 then blockBucket else max blocks.nextPowerOfTwo blockBucket

def decodeTableCols (cache : PagedKvCache) (rawMaxBlocks : Nat) : Nat :=
  if cache.cudaGraph then bucketBlockTableCols rawMaxBlocks cache.blockSize else rawMaxBlocks

def decodeEntry (cache : PagedKvCache) (blockTables : List (List Nat)) (step : Nat) :
    Nat × Nat → Except String (Int × Nat) := fun (promptLen,seq) => do
  let position ← okOr (checkedAdd promptLen step) "batch decode slot position overflow"
  let contextLen ← okOr (checkedAdd position 1) "batch decode context length overflow"
  if cache.maxTokensPerSequence < contextLen then
    .error s!"batch decode context length exceeds paged kv cache sequence capacity: context_len={contextLen} max_tokens_per_sequence={cache.maxTokensPerSequence}"
  else
    let slot ← slotForBlockTablePosition blockTables cache.blockSize cache.numBlocks seq position
    let contextLen ← contextLenU32 contextLen
    .ok (slot,contextLen)

def decodeMetadataForBatchSteps (cache : PagedKvCache) (blockTables : List (List Nat))
    (promptLens : List Nat) (steps : Nat) : Except String (List PagedInputMetadata) := do
  let batch := blockTables.length
  if batch = 0 then .error "paged batch decode metadata requires at least one sequence" else
  if promptLens.length ≠ batch then
    .error s!"paged batch decode metadata mismatch: block_tables={batch} prompt_lens={promptLens.length}" else
  let rawMaxBlocks := maxBlocks blockTables
  if rawMaxBlocks = 0 then
    .error "paged batch decode metadata requires at least one block per sequence" else
  let host ← blockTableHost blockTables (decodeTableCols cache rawMaxBlocks)
  let rows ← (List.range steps).mapM fun step =>
    promptLens.zipIdx.mapM (decodeEntry cache blockTables step)
  .ok (rows.map fun row => {
    slotMapping := row.map Prod.fst, blockTables := host, contextLens := row.map Prod.snd
    maxContextLen := maxOf (row.map Prod.snd), tokenAttentionMask := none, prefillAttentionMask := none
    prefillCausalOnly := false, queryLens := none, kvLens := none, prefillFlashParams := none
    cuSeqlensQ := none, cuSeqlensKv := none, maxQueryLen := none, maxKvLen := none})

def decodeMetadataForBatchStep (cache : PagedKvCache) (blockTables : List (List Nat))
    (promptLens : List Nat) (step : Nat) : Except String PagedInputMetadata := do
  let all ← decodeMetadataForBatchSteps cache blockTables promptLens (step+1)
  okOr all[step]? s!"paged batch decode metadata missing step {step}"

theorem slotInTableOk {word : String} {blockSize numBlocks seq position : Nat} {table : List Nat} {slot : Int} :
    slotInTable word blockSize numBlocks seq table position = .ok slot ↔
      ∃ b, table[position/blockSize]? = some b ∧ b < numBlocks ∧
        b*blockSize+position%blockSize < 2^63 ∧ slot = (b*blockSize+position%blockSize : Nat) := by
  unfold slotInTable
  simp only [exceptBind,okOrOk]
  constructor
  · rintro ⟨b,found,ok⟩
    split at ok <;> try contradiction
    rename_i below
    simp only [exceptBind,okOrOk,Option.bind_eq_some_iff,checkedMulSome,checkedAddSome,
      i64TryFromSome] at ok
    obtain ⟨_,⟨_,⟨_,rfl⟩,_,rfl⟩,fits,rfl⟩ := ok
    exact ⟨b,found,by omega,fits,rfl⟩
  · rintro ⟨b,found,below,fits,rfl⟩
    refine ⟨b,found,?_⟩
    rw [if_neg (by omega)]
    simp only [exceptBind,okOrOk,Option.bind_eq_some_iff,checkedMulSome,checkedAddSome,
      i64TryFromSome]
    exact ⟨_,⟨_,⟨by omega,rfl⟩,by omega,rfl⟩,fits,rfl⟩

theorem slotForBlockTablePositionOk {blockTables : List (List Nat)} {blockSize numBlocks seq position : Nat}
    {slot : Int} {table : List Nat} (found : blockTables[seq]? = some table) :
    slotForBlockTablePosition blockTables blockSize numBlocks seq position = .ok slot ↔
      slotInTable "seq" blockSize numBlocks seq table position = .ok slot := by
  simp [slotForBlockTablePosition,exceptBind,okOrOk,found]

theorem cumulativeFits {total : Nat} {lengths : List Nat} (below : total < 2^32) :
    (∃ out, cumulativeFrom total lengths = .ok out) ↔ total+lengths.sum < 2^32 := by
  induction lengths generalizing total with
  | nil => simpa [cumulativeFrom] using below
  | cons len rest ih =>
    simp only [cumulativeFrom,exceptBind,okOrOk,u32TryFromSome,List.sum_cons]
    constructor
    · rintro ⟨_,_,⟨_,rfl⟩,_,⟨fits,rfl⟩,out,tail,_⟩
      have more := (ih fits).mp ⟨out,tail⟩
      omega
    · intro fits
      obtain ⟨out,tail⟩ : ∃ out, cumulativeFrom (total+len) rest = .ok out := (ih (by omega)).mpr (by omega)
      exact ⟨_,len,⟨by omega,rfl⟩,_,⟨by omega,rfl⟩,out,tail,rfl⟩

def stepMetadata (host : List (List Nat)) (row : List (Int × Nat)) : PagedInputMetadata where
  slotMapping := row.map Prod.fst
  blockTables := host
  contextLens := row.map Prod.snd
  maxContextLen := maxOf (row.map Prod.snd)
  tokenAttentionMask := none
  prefillAttentionMask := none
  prefillCausalOnly := false
  queryLens := none
  kvLens := none
  prefillFlashParams := none
  cuSeqlensQ := none
  cuSeqlensKv := none
  maxQueryLen := none
  maxKvLen := none

theorem decodeStepsOk {cache : PagedKvCache} {blockTables : List (List Nat)} {promptLens : List Nat}
    {steps : Nat} {all : List PagedInputMetadata} :
    decodeMetadataForBatchSteps cache blockTables promptLens steps = .ok all ↔
      blockTables.length ≠ 0 ∧ promptLens.length = blockTables.length ∧ maxBlocks blockTables ≠ 0 ∧
      ∃ host, blockTableHost blockTables (decodeTableCols cache (maxBlocks blockTables)) = .ok host ∧
        ∃ rows, List.Forall₂ (fun step row => promptLens.zipIdx.mapM (decodeEntry cache blockTables step) = .ok row)
          (List.range steps) rows ∧ rows.map (stepMetadata host) = all := by
  unfold decodeMetadataForBatchSteps
  dsimp only
  constructor
  · intro ok
    split at ok <;> try contradiction
    rename_i nonempty
    split at ok <;> try contradiction
    rename_i lengths
    split at ok <;> try contradiction
    rename_i wide
    obtain ⟨host,hostOk,ok⟩ := exceptBind.mp ok
    obtain ⟨rows,each,ok⟩ := exceptBind.mp ok
    exact ⟨nonempty,not_not.mp lengths,wide,host,hostOk,rows,exceptMapM.mp each,Except.ok.inj ok⟩
  · rintro ⟨nonempty,lengths,wide,host,hostOk,rows,each,rfl⟩
    rw [if_neg nonempty,if_neg (not_not.mpr lengths),if_neg wide]
    exact exceptBind.mpr ⟨host,hostOk,exceptBind.mpr ⟨rows,exceptMapM.mpr each,rfl⟩⟩

theorem decodeStepOk {cache : PagedKvCache} {blockTables : List (List Nat)} {promptLens : List Nat}
    {step : Nat} {metadata : PagedInputMetadata} :
    decodeMetadataForBatchStep cache blockTables promptLens step = .ok metadata ↔
      ∃ all, decodeMetadataForBatchSteps cache blockTables promptLens (step+1) = .ok all ∧
        all[step]? = some metadata := by
  simp only [decodeMetadataForBatchStep,exceptBind,okOrOk]

theorem decodeMetadataParts {cache : PagedKvCache} {blockTables : List (List Nat)} {promptLens : List Nat}
    {step : Nat} {metadata : PagedInputMetadata}
    (ok : decodeMetadataForBatchStep cache blockTables promptLens step = .ok metadata) :
    promptLens.length = blockTables.length ∧
    blockTableHost blockTables (decodeTableCols cache (maxBlocks blockTables)) = .ok metadata.blockTables ∧
    ∃ row, promptLens.zipIdx.mapM (decodeEntry cache blockTables step) = .ok row ∧
      metadata = stepMetadata metadata.blockTables row := by
  obtain ⟨all,steps,last⟩ := decodeStepOk.mp ok
  obtain ⟨_,lengths,_,host,hostOk,rows,each,rfl⟩ := decodeStepsOk.mp steps
  simp only [List.getElem?_map,Option.map_eq_some_iff] at last
  obtain ⟨row,atStep,rfl⟩ := last
  obtain ⟨n,there,related⟩ := pairedFrom each atStep
  obtain ⟨_,rfl⟩ := List.getElem?_eq_some_iff.mp there
  exact ⟨lengths,hostOk,row,by simpa using related,rfl⟩

theorem decodeQueryLens {cache : PagedKvCache} {blockTables : List (List Nat)} {promptLens : List Nat}
    {step : Nat} {metadata : PagedInputMetadata}
    (ok : decodeMetadataForBatchStep cache blockTables promptLens step = .ok metadata) :
    metadata.queryLens = none := by
  obtain ⟨_,_,_,_,same⟩ := decodeMetadataParts ok
  rw [same]
  rfl

theorem decodeEntryOk {cache : PagedKvCache} {blockTables : List (List Nat)}
    {step promptLen seq contextLen : Nat} {slot : Int}
    (ok : decodeEntry cache blockTables step (promptLen,seq) = .ok (slot,contextLen)) :
    slotForBlockTablePosition blockTables cache.blockSize cache.numBlocks seq (promptLen+step) = .ok slot ∧
      contextLen = promptLen+step+1 ∧ promptLen+step+1 < 2^32 := by
  unfold decodeEntry at ok
  simp only [exceptBind,okOrOk,checkedAddSome] at ok
  obtain ⟨_,⟨_,rfl⟩,_,⟨_,rfl⟩,ok⟩ := ok
  split at ok <;> try contradiction
  simp only [exceptBind,contextLenU32,okOrOk,u32TryFromSome] at ok
  obtain ⟨_,slotOk,_,⟨fits,rfl⟩,same⟩ := ok
  cases same
  exact ⟨slotOk,rfl,fits⟩

/-- One decode step of a batch: row by row, the slot of position `prompt + step`
and the context length up to and including it. -/
theorem decodeMetadataRow {cache : PagedKvCache} {blockTables : List (List Nat)} {promptLens : List Nat}
    {step : Nat} {metadata : PagedInputMetadata}
    (ok : decodeMetadataForBatchStep cache blockTables promptLens step = .ok metadata)
    {seq promptLen : Nat} (found : promptLens[seq]? = some promptLen) :
    ∃ slot, metadata.slotMapping[seq]? = some slot ∧
      slotForBlockTablePosition blockTables cache.blockSize cache.numBlocks seq (promptLen+step) = .ok slot ∧
      metadata.contextLens[seq]? = some (promptLen+step+1) := by
  obtain ⟨_,_,row,entries,same⟩ := decodeMetadataParts ok
  rw [same]
  have pairs := exceptMapM.mp entries
  have size : row.length = promptLens.length := by simpa using pairs.length_eq.symm
  obtain ⟨bound,rfl⟩ := List.getElem?_eq_some_iff.mp found
  have inside : seq < row.length := by omega
  have related := (List.forall₂_iff_get.mp pairs).2 seq (by simpa using bound) inside
  simp only [List.get_eq_getElem,List.getElem_zipIdx,Nat.zero_add] at related
  change decodeEntry _ _ _ (promptLens[seq],seq) = .ok (row[seq].1,row[seq].2) at related
  obtain ⟨slotOk,context,_⟩ := decodeEntryOk related
  exact ⟨row[seq].1,by simp [stepMetadata,inside],slotOk,by simp [stepMetadata,inside,context]⟩

theorem decodeMetadataLengths {cache : PagedKvCache} {blockTables : List (List Nat)} {promptLens : List Nat}
    {step : Nat} {metadata : PagedInputMetadata}
    (ok : decodeMetadataForBatchStep cache blockTables promptLens step = .ok metadata) :
    metadata.slotMapping.length = promptLens.length ∧ metadata.contextLens.length = promptLens.length ∧
      metadata.blockTables.length = promptLens.length ∧ promptLens.length = blockTables.length := by
  obtain ⟨lengths,hostOk,row,entries,same⟩ := decodeMetadataParts ok
  have size : row.length = promptLens.length := by simpa using (exceptMapM.mp entries).length_eq.symm
  have rows : metadata.blockTables.length = promptLens.length := by
    rw [← (exceptMapM.mp hostOk).length_eq,lengths]
  rw [same]
  exact ⟨by simp [stepMetadata,size],by simp [stepMetadata,size],rows,lengths⟩

theorem contextLensOk {contextLens host : List Nat} :
    contextLens.mapM contextLenU32 = .ok host ↔ (∀ len ∈ contextLens, len < 2^32) ∧ contextLens = host := by
  have each (len out : Nat) : contextLenU32 len = .ok out ↔ len < 2^32 ∧ len = out := by
    rw [contextLenU32,okOrOk,u32TryFromSome]
  rw [exceptMapChecked fun len _ => each len,List.map_id']

theorem blockTableHostOk {blockTables host : List (List Nat)} {cols : Nat} :
    blockTableHost blockTables cols = .ok host ↔ (∀ table ∈ blockTables, ∀ blockId ∈ table, blockId < 2^32) ∧
      blockTables.map (fun table => table ++ List.replicate (cols-table.length) 0) = host := by
  unfold blockTableHost
  refine exceptMapChecked fun table _ row => ?_
  have each (blockId out : Nat) :
      okOr (u32TryFrom blockId) s!"block id overflows u32: {blockId}" = .ok out ↔ blockId < 2^32 ∧ blockId = out := by
    rw [okOrOk,u32TryFromSome]
  rw [exceptBind]
  constructor
  · rintro ⟨ids,kept,same⟩
    obtain ⟨fits,rfl⟩ := (exceptMapChecked fun blockId _ => each blockId).mp kept
    exact ⟨fits,by simpa using same⟩
  · rintro ⟨fits,rfl⟩
    exact ⟨table,(exceptMapChecked fun blockId _ => each blockId).mpr ⟨fits,List.map_id' _⟩,rfl⟩

theorem blockTableHostRow {blockTables host : List (List Nat)} {cols : Nat}
    (ok : blockTableHost blockTables cols = .ok host) {seq : Nat} {table : List Nat}
    (found : blockTables[seq]? = some table) :
    host[seq]? = some (table ++ List.replicate (cols-table.length) 0) := by
  obtain ⟨_,rfl⟩ := blockTableHostOk.mp ok
  simp [found]

structure MaskedRead (cache : PagedKvCache) (blockTables masks : List (List Nat)) (metadata : PagedInputMetadata)
    (slots : List (List Int)) : Prop where
  filled : masks ≠ []
  tables : blockTables.length = masks.length
  wide : (masks.map List.length).headD 0 ≠ 0
  row : ∀ {i : Nat} {mask table : List Nat}, masks[i]? = some mask → blockTables[i]? = some table →
    mask.length = (masks.map List.length).headD 0 ∧
    ∃ row, slots[i]? = some row ∧ mask.zipIdx.mapM (maskedSlot cache i table) = .ok row
  rows : slots.length = masks.length
  slotMapping : metadata.slotMapping = slots.flatten
  tokens : metadata.tokenAttentionMask = some masks
  unset : metadata.prefillAttentionMask = none
  causal : metadata.prefillCausalOnly = (masks.map validLen).all (· = (masks.map List.length).headD 0)
  queryLens : metadata.queryLens = some (masks.map validLen)
  kvLens : metadata.kvLens = some (masks.map validLen)

theorem maskedRead {cache : PagedKvCache} {blockTables masks : List (List Nat)} {metadata : PagedInputMetadata}
    (ok : inputMetadataFromAttentionMasks cache blockTables masks = .ok metadata) :
    ∃ slots, MaskedRead cache blockTables masks metadata slots := by
  unfold inputMetadataFromAttentionMasks at ok
  dsimp only at ok
  split at ok <;> try contradiction
  rename_i filled
  split at ok <;> try contradiction
  rename_i tables
  split at ok <;> try contradiction
  rename_i wide
  split at ok <;> try contradiction
  obtain ⟨rows,placed,ok⟩ := exceptBind.mp ok
  obtain ⟨_,_,ok⟩ := exceptBind.mp ok
  obtain ⟨_,_,ok⟩ := exceptBind.mp ok
  cases ok
  have tables := not_not.mp tables
  have pairs := exceptMapM.mp placed
  refine ⟨rows.map Prod.fst,fun none => filled (by rw [none]; rfl),tables,wide,fun {i mask table} here own => ?_,?_,
    List.flatMap_def,rfl,rfl,rfl,rfl,rfl⟩
  · have entry : (masks.zip blockTables).zipIdx[i]? = some ((mask,table),i) := by
      have both : (masks.zip blockTables)[i]? = some (mask,table) := List.getElem?_zip_eq_some.mpr ⟨here,own⟩
      rw [List.getElem?_zipIdx,both,Option.map_some,Nat.zero_add]
    obtain ⟨row,found,made⟩ := pairedAt pairs entry
    dsimp only at made
    split at made <;> try contradiction
    rename_i same
    obtain ⟨slots,each,made⟩ := exceptBind.mp made
    obtain ⟨_,_,made⟩ := exceptBind.mp made
    cases made
    exact ⟨not_not.mp same,slots,by rw [List.getElem?_map,found]; rfl,each⟩
  · rw [List.length_map,← pairs.length_eq,List.length_zipIdx,List.length_zip,tables,Nat.min_self]

end Qwen3Asr.PagedMetadata
