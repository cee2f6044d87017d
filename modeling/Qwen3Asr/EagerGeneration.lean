import Qwen3Asr.BatchPrefill

/-! Greedy decoding on the eager path: whole prompts again for every token, one prompt over a
key/value cache, and a batch over one cache. -/
namespace Qwen3Asr.EagerGeneration
open Library Library.Effect Library.Word
open PagedMetadata PromptPositions BatchEngine KvCache EagerThinker BatchPrefill

variable {φ η κ : Type}

def tokenColumn {α : Type} (tokens : List α) : Grid α where
  rows := tokens.map fun token => [token]
  width := 1
  rectangular row inside := by
    obtain ⟨token,_,rfl⟩ := List.mem_map.mp inside
    rfl

def firstPick (logits : Grid Nat) : List Nat := logits.rows.map (·.headD 0)

def lastPick (logits : Grid Nat) : Nat := (logits.rows.headD []).getD (logits.width-1) 0

def positionIdsForDecodeStepsBatch (promptLens : List Int) (maxSteps : Nat) :
    Except String (List (List (List Int))) :=
  (List.range maxSteps).mapM (positionIdsForStep promptLens)

def positionIdsForDecodeSteps (promptLen : Int) (maxSteps : Nat) : Except String (List (List (List Int))) :=
  positionIdsForDecodeStepsBatch [promptLen] maxSteps

def singleChecks (inputIds attentionMask eosTokenIds : List Nat) : Except String Unit :=
  if inputIds = [] then .error "input_ids is empty" else
  if attentionMask.length ≠ inputIds.length then
    .error s!"attention_mask length mismatch: expected={inputIds.length}, got={attentionMask.length}" else
  if eosTokenIds = [] then .error "eos_token_ids is empty" else .ok ()

def placeholdersOf (thinker : CausalThinker φ η κ) (audioFeatures : Option (List φ)) (inputIds : List Nat) : Nat :=
  if audioFeatures.isSome then inputIds.count thinker.audioTokenId else 0

section Plain
variable (thinker : CausalThinker φ η κ) (audioFeatures : Option (List φ)) (placeholderCount : Nat)
  (eosTokenIds : List Nat)

def generateFrom : Nat → List Nat → List Nat → List Nat → Except String (List Nat)
  | 0, _, _, generated => .ok generated
  | left+1, ids, attn, generated => do
    let inputIds ← tensor ids.length [ids]
    let attentionMask ← tensor ids.length [attn]
    let logits ← forwardWithAudioFeatures thinker inputIds attentionMask audioFeatures placeholderCount
    let nextId := lastPick logits
    if eosTokenIds.contains nextId then .ok generated
    else generateFrom left (ids ++ [nextId]) (attn ++ [1]) (generated ++ [nextId])

def greedyGenerate (inputIds attentionMask : List Nat) (audioFeatures : Option (List φ)) (maxNewTokens : Nat)
    (eosTokenIds : List Nat) : Except String (List Nat) := do
  singleChecks inputIds attentionMask eosTokenIds
  if maxNewTokens = 0 then .ok [] else
  generateFrom thinker audioFeatures (placeholdersOf thinker audioFeatures inputIds) eosTokenIds maxNewTokens
    inputIds attentionMask []

end Plain

section Cached
variable (thinker : CausalThinker φ η κ) (dense : Bool) (eosTokenIds : List Nat)

structure CachedColumns (κ : Type) where
  cache : KVCache κ
  attentionMaskTotal : Grid Nat

/- One token for every row. An unpadded prompt is decoded without a mask, any other with a column of ones more. -/
def decodeColumn (positionIds : List (List Int)) (tokens : List Nat) (columns : CachedColumns κ) :
    Except String (List Nat × CachedColumns κ) := do
  let embeds := (tokenColumn tokens).map fun id => thinker.embed ⟨id,none⟩
  let positionIds ← tensor 1 positionIds
  if dense then
    let (logits,cache) ← forwardDecodeOneWithoutPadding thinker positionIds embeds columns.cache
    .ok (firstPick logits,{columns with cache})
  else
    let attentionMaskTotal := Grid.append columns.attentionMaskTotal (tokenColumn (tokens.map fun _ => 1))
    let (logits,cache) ← forwardEmbedsWithKvCache thinker attentionMaskTotal positionIds embeds columns.cache
    .ok (firstPick logits,⟨cache,attentionMaskTotal⟩)

def generateCachedFrom (positionIds : List (List (List Int))) :
    Nat → Nat → Nat → List Nat → CachedColumns κ → Except String (List Nat)
  | 0, _, _, generated, _ => .ok generated
  | left+1, step, nextId, generated, columns => do
    if eosTokenIds.contains nextId then .ok generated else
    let positionIdsNew ← okOr positionIds[step]? s!"missing single-seq decode position ids for step {step}"
    let (next,columns) ← decodeColumn thinker dense positionIdsNew [nextId] columns
    generateCachedFrom positionIds left (step+1) (next.headD 0) (generated ++ [nextId]) columns

def greedyGenerateCached (inputIds attentionMask : List Nat) (audioFeatures : Option (List φ)) (maxNewTokens : Nat) :
    Except String (List Nat) := do
  singleChecks inputIds attentionMask eosTokenIds
  if maxNewTokens = 0 then .ok [] else
  let seqLen := inputIds.length
  let cache ← kvCacheForGeneration thinker seqLen maxNewTokens
  let ids ← tensor seqLen [inputIds]
  let mask ← tensor seqLen [attentionMask]
  let (logits,cache) ← fullPrefill thinker ids mask audioFeatures cache
  let promptLen ← promptLenFromLeftPaddedMask attentionMask seqLen
  let positionIds ← positionIdsForDecodeSteps promptLen maxNewTokens
  generateCachedFrom thinker (attentionMaskIsDense attentionMask) eosTokenIds positionIds maxNewTokens 0
    (lastPick logits) [] ⟨cache,mask⟩

end Cached

section Batch
variable (thinker : CausalThinker φ η κ)

structure EagerRow where
  nextId : Nat
  generated : List Nat
  finished : Bool
  deriving DecidableEq, Repr

def takePending (eosTokenIds : List Nat) (row : EagerRow) : EagerRow × Nat :=
  let eosFillId := eosTokenIds.headD 0
  if row.finished then (row,eosFillId) else
  if eosTokenIds.contains row.nextId then ({row with finished := true},eosFillId)
  else ({row with generated := row.generated ++ [row.nextId]},row.nextId)

def pendingRows (next : List Nat) (rows : List EagerRow) : List EagerRow :=
  List.zipWith (fun row nextId => {row with nextId}) rows next

def generateRowsFrom (dense : Bool) (eosTokenIds : List Nat) (positionIds : List (List (List Int))) :
    Nat → Nat → List EagerRow → CachedColumns κ → Except String (List EagerRow)
  | 0, _, rows, _ => .ok rows
  | left+1, step, rows, columns => do
    if rows.all EagerRow.finished then .ok rows else
    let taken := rows.map (takePending eosTokenIds)
    let positionIdsNew ← okOr positionIds[step]? s!"missing eager batch decode position ids for step {step}"
    let (next,columns) ← decodeColumn thinker dense positionIdsNew (taken.map Prod.snd) columns
    generateRowsFrom dense eosTokenIds positionIds left (step+1) (pendingRows next (taken.map Prod.fst)) columns

def decodePrefilled (attentionMask : Grid Nat) (opts : GreedyGenerateBatchOpts φ) (prefilled : EagerPrefilled κ) :
    Except String (List (List Nat)) := do
  let rows := prefilled.nextIds.map fun nextId => ⟨nextId,[],opts.eosTokenIds.contains nextId⟩
  let positionIds ← positionIdsForDecodeStepsBatch prefilled.promptLens opts.maxNewTokens
  let rows ← generateRowsFrom thinker (attentionMasksAreDense attentionMask.rows) opts.eosTokenIds positionIds
    opts.maxNewTokens 0 rows ⟨prefilled.cache,attentionMask⟩
  .ok (rows.map EagerRow.generated)

def batchChecks (inputIds attentionMask : List (List Nat)) (eosTokenIds : List Nat) : Except String (Grid Nat × Grid Nat) := do
  let batch := inputIds.length
  if attentionMask.length ≠ batch then
    .error s!"attention_mask batch mismatch: expected={batch}, got={attentionMask.length}" else
  let seqLen := (inputIds.headD []).length
  if seqLen = 0 then .error "input_ids rows are empty" else
  if eosTokenIds = [] then .error "eos_token_ids is empty" else
  let _ ← inputIds.zipIdx.mapM fun (row,i) =>
    if row.length ≠ seqLen then
      .error s!"input_ids[{i}] length mismatch: expected={seqLen}, got={row.length}"
    else .ok ()
  let _ ← attentionMask.zipIdx.mapM fun (row,i) =>
    if row.length ≠ seqLen then
      .error s!"attention_mask[{i}] length mismatch: expected={seqLen}, got={row.length}"
    else .ok ()
  let ids ← tensor seqLen inputIds
  let mask ← tensor seqLen attentionMask
  .ok (ids,mask)

/- The eager path of the batch entry point; the templates outlive the call. -/
def greedyGenerateCachedBatch (inputIds attentionMask : List (List Nat)) (opts : GreedyGenerateBatchOpts φ) :
    EStateM String (Templates κ) (List (List Nat)) := do
  if inputIds = [] then pure [] else
  let (ids,mask) ← attempt (batchChecks inputIds attentionMask opts.eosTokenIds)
  if opts.maxNewTokens = 0 then pure (List.replicate inputIds.length []) else
  let prefilled ← prefillBatch thinker ids mask opts
  attempt (decodePrefilled thinker mask opts prefilled)

end Batch

end Qwen3Asr.EagerGeneration
