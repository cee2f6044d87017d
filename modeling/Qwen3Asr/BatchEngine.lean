import Qwen3Asr.BlockManager
import Qwen3Asr.PromptPositions

/-! The paged batch engine. Logits are the token their argmax picks, by row and
column; the model that computes them is a parameter that sees every forward call
made so far, since the calls leave their keys and values in the cache. -/
namespace Qwen3Asr.BatchEngine
open Library.Effect Library.Word
open BlockManager PagedMetadata PromptPositions

structure Column (φ : Type) where
  id : Nat
  audio : Option φ
  deriving DecidableEq, Repr

/- The inputs of one forward pass. The pass reads `requestIds` only through the
block tables of its metadata. -/
structure ForwardCall (φ : Type) where
  requestIds : List Nat
  positionIds : List (List Int)
  columns : List (List (Column φ))
  metadata : PagedInputMetadata
  deriving DecidableEq

structure Thinker (φ : Type) where
  audioTokenId : Nat
  /-- The device is CUDA and packed prefill is not disabled. -/
  usePackedCudaPrefill : Bool
  forward : List (ForwardCall φ) → ForwardCall φ → Except String (Nat → Nat → Nat)

structure PagedCacheRuntime (φ : Type) where
  cache : PagedKvCache
  manager : PagedBlockManager
  /-- Forward calls the cache tensors have seen, newest first. -/
  history : List (ForwardCall φ)
  deriving DecidableEq

variable {φ : Type}

def newRuntime (numBlocks blockSize : Nat) (cudaGraph : Bool) : Except String (PagedCacheRuntime φ) :=
  if blockSize ≠ 8 ∧ blockSize ≠ 16 ∧ blockSize ≠ 32 then
    .error s!"paged cache block size must be 8, 16, or 32; got {blockSize}"
  else if numBlocks ≤ 1 then .error "paged cache requires at least 2 blocks including null block"
  else .ok ⟨⟨blockSize,numBlocks,numBlocks*blockSize,cudaGraph⟩,new numBlocks blockSize,[]⟩

abbrev Engine (φ : Type) := EStateM String (PagedCacheRuntime φ)

def managerMut {α : Type} (x : Managed α) : Engine φ α :=
  zoom PagedCacheRuntime.manager (fun m runtime => {runtime with manager := m}) x

def runForward (thinker : Thinker φ) (call : ForwardCall φ) : Engine φ (Nat → Nat → Nat) := fun runtime =>
  let seen := {runtime with history := call::runtime.history}
  match thinker.forward runtime.history call with
  | .ok logits => .ok logits seen
  | .error e => .error e seen

structure PagedBatchConfig where
  maxNewTokens : Nat
  eosTokenIds : List Nat
  requestIdBase : Nat
  deriving DecidableEq, Repr

structure PagedBatchRow where
  requestId : Nat
  promptLenUsize : Nat
  promptLenI64 : Int
  blockTable : List Nat
  nextId : Nat
  generated : List Nat
  finished : Bool
  deriving DecidableEq, Repr

structure PagedBatchState where
  seqLen : Nat
  rows : List PagedBatchRow
  decodeStep : Nat
  maxNewTokens : Nat
  eosTokenIds : List Nat
  deriving DecidableEq, Repr

def allFinished (state : PagedBatchState) : Bool := state.rows.all PagedBatchRow.finished

structure PagedDecodeSlot extends PagedBatchRow where
  decodeStep : Nat
  deriving DecidableEq, Repr

def fromPrefillState (state : PagedBatchState) (row : Nat) : Except String PagedDecodeSlot := do
  let r ← okOr state.rows[row]? s!"missing request_id for row {row}"
  .ok {r with generated := [], decodeStep := 0}

def pagedBatchFreeSlots (requestIds : List Nat) : Engine φ Unit :=
  managerMut (modify (freeMany · requestIds))

def trimEnded (eosTokenIds : List Nat) (rows : List PagedBatchRow) (m : PagedBlockManager) : PagedBlockManager :=
  rows.foldl (fun m row =>
    if eosTokenIds.contains row.nextId then
      trimRequestToNumTokens m row.requestId (row.promptLenUsize+row.generated.length)
    else m) m

section Prefill

def narrow {α : Type} (xs : List α) (start len : Nat) : Except String (List α) :=
  if start+len ≤ xs.length then .ok ((xs.drop start).take len)
  else .error s!"narrow invalid args start + len > dim_len: {start} {len} {xs.length}"

def countAudioPlaceholdersBatch (rows : List (List Nat)) (audioTokenId : Nat) : Nat :=
  (rows.map (·.count audioTokenId)).sum

/- Placeholders take the features in row-major order; `offset` counts those before the column. -/
def mergeRow (audioTokenId : Nat) (audio : List φ) : Nat → List Nat → List (Column φ)
  | _, [] => []
  | offset, id::row =>
    if id = audioTokenId then ⟨id,audio[offset]?⟩ :: mergeRow audioTokenId audio (offset+1) row
    else ⟨id,none⟩ :: mergeRow audioTokenId audio offset row

def mergeRows (audioTokenId : Nat) (audio : List φ) : Nat → List (List Nat) → List (List (Column φ))
  | _, [] => []
  | offset, row::rows =>
    mergeRow audioTokenId audio offset row ::
      mergeRows audioTokenId audio (offset+row.count audioTokenId) rows

def embedTokens (rows : List (List Nat)) : List (List (Column φ)) := rows.map (·.map (⟨·,none⟩))

def mergeAudioFeatures (rows : List (List Nat)) (audioTokenId : Nat) (audio : List φ)
    (placeholderCount : Nat) : Except String (List (List (Column φ))) :=
  let total := (rows.map List.length).sum
  if total < placeholderCount then
    .error s!"audio placeholder count exceeds total tokens: placeholders={placeholderCount} total_tokens={total}"
  else if placeholderCount ≠ audio.length then
    .error s!"audio placeholder count mismatch: placeholders={placeholderCount}, audio_features.shape[0]={audio.length}"
  else if placeholderCount = 0 then .ok (embedTokens rows)
  else .ok (mergeRows audioTokenId audio 0 rows)

def inputsEmbedsWithAudioFeatures (thinker : Thinker φ) (rows : List (List Nat))
    (audioFeatures : Option (List φ)) (placeholderCount : Nat) : Except String (List (List (Column φ))) :=
  match audioFeatures with
  | none => .ok (embedTokens rows)
  | some audio => mergeAudioFeatures rows thinker.audioTokenId audio placeholderCount

def makeCausalMask (tokenMask : List (List Nat)) (seqLen : Nat) : List (List (List Bool)) :=
  tokenMask.map fun mask => (List.range seqLen).map fun q =>
    (List.range seqLen).map fun k => k ≤ q && mask.getD k 0 ≠ 0

structure PromptRow where
  ids : List Nat
  mask : List Nat
  len : Nat
  deriving DecidableEq, Repr

/- The checks on the rows, then the rows right-padded. A batch with fewer masks
than rows is an index panic in the source; masks past the last row go on to the call. -/
def promptRows (inputIds attentionMask : List (List Nat)) (config : PagedBatchConfig) :
    Except String (Nat × List PromptRow) := do
  let batch := inputIds.length
  if batch = 0 then .error "paged batch prefill requires at least one row" else
  if config.eosTokenIds = [] then .error "eos_token_ids is empty" else
  let seqLen := (inputIds.map List.length).headD 0
  if seqLen = 0 then .error "input_ids rows are empty" else
  let _ ← inputIds.zipIdx.mapM fun (row,i) =>
    if row.length ≠ seqLen then
      .error s!"paged batch input_ids[{i}] length mismatch: expected={seqLen}, got={row.length}"
    else .ok ()
  let _ ← attentionMask.zipIdx.mapM fun (row,i) =>
    if row.length ≠ seqLen then
      .error s!"paged batch attention_mask[{i}] length mismatch: expected={seqLen}, got={row.length}"
    else .ok ()
  if attentionMasksAreRightPadded attentionMask then
    if attentionMask.length < inputIds.length then .error "index out of bounds"
    else .ok (seqLen,(inputIds.zip attentionMask).map fun (ids,mask) => ⟨ids,mask,validLen mask⟩)
  else
    let rows ← normalizeBatchForPagedPrefill inputIds attentionMask
    .ok (seqLen,rows.map fun (ids,mask,len) => ⟨ids,mask,len⟩)

def allocatePrompts (config : PagedBatchConfig) (rows : List PromptRow) : Managed (List Nat) :=
  rows.zipIdx.mapM fun (row,i) => do
    let requestId := config.requestIdBase+i
    allocateSlots requestId row.len
    pure requestId

def packAudio (audioTokenId : Nat) (audio : List φ) : Nat → List (List Nat) → Except String (List φ × Nat)
  | offset, [] => .ok ([],offset)
  | offset, row::rows => do
    let rowAudioTokens := row.count audioTokenId
    let part ← if 0 < rowAudioTokens then narrow audio offset rowAudioTokens else .ok []
    let (parts,last) ← packAudio audioTokenId audio (offset+rowAudioTokens) rows
    .ok (part ++ parts,last)

structure Prefilled (φ : Type) where
  call : ForwardCall φ
  seqLen : Nat
  promptLens : List Int

def packFeatures (audioTokenId : Nat) (packed : List (List Nat)) (placeholderCount : Nat) :
    Option (List φ) → Except String (Option (List φ))
  | none => .ok none
  | some audio => do
    let (parts,audioOffset) ← packAudio audioTokenId audio 0 packed
    if audioOffset ≠ placeholderCount then
      .error s!"packed prefill audio token mismatch: packed={audioOffset} placeholders={placeholderCount}"
    else .ok (if parts = [] then none else some parts)

def packedPrefillCall (thinker : Thinker φ) (cache : PagedKvCache) (requestIds : List Nat)
    (blockTables : List (List Nat)) (rows : List PromptRow) (audioFeatures : Option (List φ))
    (placeholderCount : Nat) (positionIds : List (List Int)) : Except String (Prefilled φ) := do
  let packed := rows.map fun row => row.ids.take row.len
  let packedAudio ← packFeatures thinker.audioTokenId packed placeholderCount audioFeatures
  let columns ← inputsEmbedsWithAudioFeatures thinker [packed.flatten] packedAudio placeholderCount
  let packedPositions := ((positionIds.zip rows).map fun (positions,row) => positions.take row.len).flatten
  let metadata ← inputMetadataFromQueryLens cache blockTables (rows.map PromptRow.len)
  let queryLens ← okOr metadata.queryLens "packed prefill metadata missing query_lens"
  let promptLens ← queryLens.mapM fun len => okOr (i64TryFrom len) s!"query_len overflows i64: {len}"
  .ok ⟨⟨requestIds,[packedPositions],columns,metadata⟩,packed.flatten.length,promptLens⟩

def paddedPrefillCall (thinker : Thinker φ) (cache : PagedKvCache) (requestIds : List Nat)
    (blockTables : List (List Nat)) (rows : List PromptRow) (audioFeatures : Option (List φ))
    (placeholderCount seqLen : Nat) (positionIds : List (List Int)) : Except String (Prefilled φ) := do
  let columns ← inputsEmbedsWithAudioFeatures thinker (rows.map PromptRow.ids) audioFeatures placeholderCount
  let masks := rows.map PromptRow.mask
  let metadata ← inputMetadataFromAttentionMasks cache blockTables masks
  let metadata :=
    if metadata.prefillCausalOnly then metadata
    else {metadata with prefillAttentionMask := some (makeCausalMask masks seqLen)}
  let queryLens ← okOr metadata.queryLens "paged prefill metadata missing query_lens"
  let promptLens ← queryLens.mapM fun len => okOr (i64TryFrom len) s!"query_len overflows i64: {len}"
  .ok ⟨⟨requestIds,positionIds,columns,metadata⟩,seqLen,promptLens⟩

def gatherPacked (totalTokens offset : Nat) : List (Int × Nat) → Except String (List (Nat × Nat) × Nat)
  | [] => .ok ([],offset)
  | (lenI64,i)::rest =>
    if lenI64 ≤ 0 then .error s!"prompt length must be > 0 at batch index {i}: {lenI64}"
    else do
      let len := lenI64.toNat
      let idx ← okOr (checkedAdd offset (len-1)) s!"packed gather index overflow at batch index {i}"
      if totalTokens ≤ idx then
        .error s!"packed prompt length exceeds logits: batch_index={i} idx={idx} total_tokens={totalTokens}"
      else
        let _ ← okOr (u32TryFrom idx) s!"packed gather index overflows u32 at batch index {i}: {idx}"
        let offset ← okOr (checkedAdd offset len) s!"packed prompt offset overflow at batch index {i}"
        let (indices,last) ← gatherPacked totalTokens offset rest
        .ok ((0,idx)::indices,last)

def gatherLastLogitsForPackedPromptLens (totalTokens : Nat) (promptLens : List Int) :
    Except String (List (Nat × Nat)) := do
  let (indices,offset) ← gatherPacked totalTokens 0 promptLens.zipIdx
  if offset ≠ totalTokens then
    .error s!"packed prompt total mismatch: lens_total={offset} logits_total={totalTokens}"
  else .ok indices

def prefillCall (thinker : Thinker φ) (cache : PagedKvCache) (requestIds : List Nat)
    (blockTables : List (List Nat)) (seqLen : Nat) (rows : List PromptRow)
    (audioFeatures : Option (List φ)) : Except String (Prefilled φ) := do
  let placeholderCount := if audioFeatures.isSome then
    countAudioPlaceholdersBatch (rows.map PromptRow.ids) thinker.audioTokenId else 0
  let (positionIds,_) ← getRopeIndex (rows.map PromptRow.mask)
  if thinker.usePackedCudaPrefill then
    packedPrefillCall thinker cache requestIds blockTables rows audioFeatures placeholderCount positionIds
  else
    paddedPrefillCall thinker cache requestIds blockTables rows audioFeatures placeholderCount seqLen positionIds

/- Masks without a row count among the lengths and masks of the batch, which then never match its tensors. -/
def spareMasks (thinker : Thinker φ) (blockTables : List (List Nat)) (rows : List PromptRow)
    (spare : List (List Nat)) (audioFeatures : Option (List φ)) : Except String (Prefilled φ) := do
  let batch := rows.length
  let placeholderCount := if audioFeatures.isSome then
    countAudioPlaceholdersBatch (rows.map PromptRow.ids) thinker.audioTokenId else 0
  let _ ← getRopeIndex (rows.map PromptRow.mask)
  if thinker.usePackedCudaPrefill then
    let packed := rows.map fun row => row.ids.take row.len
    let totalTokens := ((rows.map PromptRow.len) ++ spare.map validLen).sum
    let packedAudio ← packFeatures thinker.audioTokenId packed placeholderCount audioFeatures
    if packed.flatten.length ≠ totalTokens then
      .error s!"shape mismatch: {packed.flatten.length} elements for [1, {totalTokens}]"
    else
      let _ ← inputsEmbedsWithAudioFeatures thinker [packed.flatten] packedAudio placeholderCount
      .error s!"narrow invalid args start + len > dim_len: {batch} 1 {batch}"
  else
    let _ ← inputsEmbedsWithAudioFeatures thinker (rows.map PromptRow.ids) audioFeatures placeholderCount
    .error s!"paged metadata batch mismatch: block_tables={blockTables.length} attention_masks={batch+spare.length}"

def prefillCallWithMasks (thinker : Thinker φ) (cache : PagedKvCache) (requestIds : List Nat)
    (blockTables : List (List Nat)) (seqLen : Nat) (rows : List PromptRow) (spare : List (List Nat))
    (audioFeatures : Option (List φ)) : Except String (Prefilled φ) :=
  if spare = [] then prefillCall thinker cache requestIds blockTables seqLen rows audioFeatures
  else spareMasks thinker blockTables rows spare audioFeatures

def lastLogits (thinker : Thinker φ) (batch : Nat) (prefilled : Prefilled φ) : Except String (List (Nat × Nat)) :=
  if thinker.usePackedCudaPrefill then
    gatherLastLogitsForPackedPromptLens prefilled.seqLen prefilled.promptLens
  else gatherLastLogitsForPromptLens batch prefilled.seqLen prefilled.promptLens

def prefilledRows (eosTokenIds : List Nat) (logits : Nat → Nat → Nat) (requestIds : List Nat)
    (blockTables : List (List Nat)) (rows : List PromptRow) (promptLens : List Int)
    (last : List (Nat × Nat)) : List PagedBatchRow :=
  ((requestIds.zip blockTables).zip ((rows.zip promptLens).zip last)).map
    fun ((requestId,blockTable),((row,promptLenI64),at')) =>
      let nextId := logits at'.1 at'.2
      {requestId, promptLenUsize := row.len, promptLenI64, blockTable, nextId
       generated := [], finished := eosTokenIds.contains nextId}

def pagedBatchPrefill (thinker : Thinker φ) (inputIds attentionMask : List (List Nat))
    (audioFeatures : Option (List φ)) (config : PagedBatchConfig) : Engine φ PagedBatchState := do
  let (seqLen,rows) ← attempt (promptRows inputIds attentionMask config)
  let requestIds ← managerMut (allocatePrompts config rows)
  let runtime ← get
  let blockTables ← attempt (blockTablesFor runtime.manager requestIds)
  let prefilled ← attempt (prefillCallWithMasks thinker runtime.cache requestIds blockTables seqLen rows
    (attentionMask.drop inputIds.length) audioFeatures)
  let logits ← runForward thinker prefilled.call
  let last ← attempt (lastLogits thinker rows.length prefilled)
  let rows := prefilledRows config.eosTokenIds logits requestIds blockTables rows prefilled.promptLens last
  managerMut (modify (trimEnded config.eosTokenIds rows))
  pure {seqLen, rows, decodeStep := 0, maxNewTokens := config.maxNewTokens, eosTokenIds := config.eosTokenIds}

end Prefill

section Decode

def takeToken (eosTokenIds : List Nat) (row : PagedBatchRow) : PagedBatchRow :=
  if eosTokenIds.contains row.nextId then {row with finished := true}
  else {row with generated := row.generated ++ [row.nextId]}

def decodeForward (thinker : Thinker φ) (rows : List PagedBatchRow) (blockTables : List (List Nat))
    (step : Nat) : Engine φ (List Nat) := do
  let columns := rows.map fun row => [Column.mk (row.generated.getLastD row.nextId) none]
  let positionIds ← attempt (positionIdsForStep (rows.map PagedBatchRow.promptLenI64) step)
  let runtime ← get
  let metadata ← attempt (decodeMetadataForBatchStep runtime.cache blockTables
    (rows.map PagedBatchRow.promptLenUsize) step)
  let logits ← runForward thinker ⟨rows.map PagedBatchRow.requestId,positionIds,columns,metadata⟩
  pure ((List.range rows.length).map (logits · 0))

def atStep (step : Nat) (slot : PagedDecodeSlot) : Bool := !slot.finished && slot.decodeStep = step

def allocateNext (step : Nat) (slot : PagedDecodeSlot) : Managed Bool :=
  if atStep step slot then do
    let numTokens ← attempt (okOr
      ((checkedAdd slot.promptLenUsize slot.generated.length).bind (checkedAdd · 1))
      "paged slot token count overflow")
    tryAllocateSlots slot.requestId numTokens
  else pure false

/- A slot and whether it was granted its blocks; the flag left says whether it goes into the forward pass. -/
def takeSlotToken (eosTokenIds : List Nat) : PagedDecodeSlot × Bool → PagedDecodeSlot × Bool
  | (slot,granted) =>
    if granted then
      let row := takeToken eosTokenIds slot.toPagedBatchRow
      ({slot with toPagedBatchRow := row},!row.finished)
    else (slot,false)

def skipStep (step : Nat) (slot : PagedDecodeSlot) : PagedDecodeSlot :=
  if atStep step slot then {slot with decodeStep := slot.decodeStep+1} else slot

def advance : List (PagedDecodeSlot × Bool) → List Nat → List PagedDecodeSlot
  | (slot,true)::rest, nextId::next => {slot with nextId, decodeStep := slot.decodeStep+1} :: advance rest next
  | (slot,_)::rest, next => slot :: advance rest next
  | [], _ => []

def flagged (slots : List (PagedDecodeSlot × Bool)) : List PagedBatchRow :=
  (slots.filter Prod.snd).map (·.1.toPagedBatchRow)

/- The index lists of the source are flags beside the slots they select. -/
def pagedBatchDecodeSlotsAtStep (thinker : Thinker φ) (slots : List PagedDecodeSlot)
    (step maxNewTokens : Nat) (eosTokenIds : List Nat) : Engine φ (List PagedDecodeSlot) := do
  if slots = [] then pure slots else
  if maxNewTokens ≤ step then pure (slots.map ({· with finished := true})) else
  if eosTokenIds = [] then throw "eos_token_ids is empty" else
  if !slots.any (atStep step) then pure slots else
  let granted ← managerMut (slots.mapM (allocateNext step))
  if !granted.any id then pure slots else
  let taken := (slots.zip granted).map (takeSlotToken eosTokenIds)
  managerMut (modify (trimEnded eosTokenIds (flagged (slots.zip granted))))
  let active := flagged taken
  if active = [] then pure (taken.map (skipStep step ·.1)) else
  let runtime ← get
  let blockTables ← attempt (blockTablesFor runtime.manager (active.map PagedBatchRow.requestId))
  let next ← decodeForward thinker active blockTables step
  pure (advance taken next)

def allocateRow (step : Nat) (row : PagedBatchRow) : Managed Unit :=
  if row.finished then pure () else do
    let numTokens ← attempt (okOr ((checkedAdd row.promptLenUsize step).bind (checkedAdd · 1))
      "paged batch token count overflow")
    allocateSlots row.requestId numTokens

def takeRowToken (eosTokenIds : List Nat) (row : PagedBatchRow) : PagedBatchRow :=
  if row.finished then row else takeToken eosTokenIds row

def setNext : List PagedBatchRow → List Nat → List PagedBatchRow
  | [], _ => []
  | row::rows, next =>
    if row.finished then row :: setNext rows next else match next with
      | [] => row :: setNext rows []
      | nextId::next => {row with nextId} :: setNext rows next

/- A row is unfinished past the first test, so the source's empty batch does not arise there. -/
def pagedBatchDecodeStep (thinker : Thinker φ) (state : PagedBatchState) : Engine φ (Bool × PagedBatchState) := do
  if allFinished state then pure (false,state) else
  if state.maxNewTokens ≤ state.decodeStep then pure (false,state) else
  let step := state.decodeStep
  let _ ← managerMut (state.rows.mapM (allocateRow step))
  let runtime ← get
  let blockTables ← attempt (blockTablesFor runtime.manager (state.rows.map PagedBatchRow.requestId))
  let rows := state.rows.zipWith (fun row blockTable => {row with blockTable}) blockTables
  managerMut (modify (trimEnded state.eosTokenIds (rows.filter (!·.finished))))
  let rows := rows.map (takeRowToken state.eosTokenIds)
  let active := rows.filter (!·.finished)
  if active = [] then
    let state := {state with rows, decodeStep := step+1}
    pure (!allFinished state,state)
  else
    let next ← decodeForward thinker active (active.map PagedBatchRow.blockTable) step
    let state := {state with rows := setNext rows next, decodeStep := step+1}
    pure (!allFinished state,state)

/- A step that goes on raises `decodeStep`, so `maxNewTokens` turns are all there can be. -/
def runSteps (thinker : Thinker φ) : Nat → PagedBatchState → Engine φ PagedBatchState
  | 0, state => pure state
  | turns+1, state =>
    if state.decodeStep < state.maxNewTokens && !allFinished state then do
      let (continued,state) ← pagedBatchDecodeStep thinker state
      if continued then runSteps thinker turns state else pure state
    else pure state

def pagedBatchRun (thinker : Thinker φ) (inputIds attentionMask : List (List Nat))
    (audioFeatures : Option (List φ)) (config : PagedBatchConfig) : Engine φ (List (List Nat)) := do
  let batch := inputIds.length
  if batch = 0 then pure [] else
  if config.maxNewTokens = 0 then pure (List.replicate batch []) else
  managerMut (modify (freeMany · ((List.range batch).map (config.requestIdBase+·))))
  let state ← pagedBatchPrefill thinker inputIds attentionMask audioFeatures config
  let state ← runSteps thinker config.maxNewTokens state
  managerMut (modify (freeMany · (state.rows.map PagedBatchRow.requestId)))
  pure (state.rows.map PagedBatchRow.generated)

end Decode

end Qwen3Asr.BatchEngine
