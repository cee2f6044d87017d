import Qwen3Asr.CallSlots
import Qwen3Asr.EagerThinker
import Qwen3Asr.VarlenParams

/-! The text model over a paged cache on CUDA: a packed prefill of several prompts, and a decode step of
one token a row. The kernels are parameters, and one value stands for a key and its value. -/
namespace Qwen3Asr.PagedLayers
open Library.Effect Library.Word Library.Packing Library.CausalStack
open PagedMetadata BatchEngine VarlenParams CacheWriters EagerThinker

/- `μ` is the cache of one layer, `κ` a key, `ρ` a query and `ω` what a query attends to. -/
structure Kernels (μ κ ρ ω : Type) where
  reshapeAndCache : List κ → μ → List Int → Except String μ
  gatherKvCache : μ → List (List Nat) → List Nat → Except String (List κ)
  pagedAttention : List ρ → μ → List (List Nat) → List Nat → Nat → Except String (List ω)
  flashAttn : List ρ → List κ → Bool → Except String (List ω)
  flashAttnVarlen : List ρ → List κ → List Nat → List Nat → Nat → Nat → Bool → Except String (List ω)
  /-- One query over the keys left to it. -/
  softmax : ρ → List κ → ω
  zero : ω

structure TextLayer (η κ ρ ω : Type) where
  query : η → Int → ρ
  project : η → Int → κ
  /-- The rest of the layer, with the residual. -/
  finish : η → ω → η

structure PagedThinker (φ η μ κ ρ ω : Type) where
  audioTokenId : Nat
  usePackedCudaPrefill : Bool
  /-- Flash attention is built in, and the hidden states are in half precision. -/
  flash : Bool
  embed : Column φ → η
  layers : List (TextLayer η κ ρ ω)
  deep : layers ≠ []
  pick : η → Nat
  kernels : Kernels μ κ ρ ω
  /-- Attention of a padded prefill, over the queries of its rows. -/
  prefillFallback : List ρ → μ → PagedInputMetadata → List Nat → Nat → Nat → Except String (List ω)
  /-- The caches as they are allocated. -/
  allocated : List μ

variable {φ η μ κ ρ ω : Type}

section Attention
variable (kernels : Kernels μ κ ρ ω)

def queryTotal (total : Nat) : List Nat → Except String Nat
  | [] => .ok total
  | len::rest =>
    if len = 0 then .error "flash varlen query length must be non-zero" else do
      let total ← okOr (checkedAdd total len) "flash varlen query length overflow"
      queryTotal total rest

def queryChunks (q : List ρ) : List (Nat × Nat) → Except String (List ρ)
  | [] => .ok []
  | (len,row)::rest =>
    if 1 ≤ row then .error s!"flash varlen query row exceeds q batch: row={row} batch=1"
    else if q.length < len then
      .error s!"flash varlen query length exceeds padded q_len: row={row} len={len} q_len={q.length}"
    else do
      let tail ← queryChunks q rest
      .ok (q.take len ++ tail)

def padRows (zero : ω) (qLen : Nat) : List ω → List Nat → List ω
  | _, [] => []
  | out, len::rest => out.take len ++ List.replicate (qLen-len) zero ++ padRows zero qLen (out.drop len) rest

def flashAttnDispatch (q : List ρ) (k : List κ) (flashParams : Option FlashParams) : Except String (List ω) :=
  match flashParams with
  | some ⟨maxQ,some cuQ,maxK,some cuK,causal⟩ => do
    let queryLens ← sequenceLengthsFromCu cuQ
    let totalQ ← queryTotal 0 queryLens
    if q.length = totalQ then kernels.flashAttnVarlen q k cuQ cuK maxQ maxK causal else do
      let packed ← queryChunks q queryLens.zipIdx
      let out ← kernels.flashAttnVarlen packed k cuQ cuK maxQ maxK causal
      .ok (padRows kernels.zero q.length out queryLens)
  | _ => kernels.flashAttn q k ((flashParams.map FlashParams.causal).getD true)

def runAttentionNoflash (q : List ρ) (k : List κ) (causal : Bool) : Except String (List ω) :=
  if causal && decide (1 < q.length) then
    if q.length ≠ k.length then .error s!"cannot broadcast the causal mask: q_len={q.length} k_len={k.length}"
    else .ok (q.mapIdx fun t q => kernels.softmax q (k.take (t+1)))
  else .ok (q.map fun q => kernels.softmax q k)

/- A batch of one, without a mask. The packed varlen path is not taken on CUDA. -/
def runAttention (flash : Bool) (q : List ρ) (k : List κ) (flashParams : Option FlashParams) : Except String (List ω) :=
  if flash then flashAttnDispatch kernels q k flashParams
  else runAttentionNoflash kernels q k ((flashParams.map FlashParams.causal).getD true)

end Attention

section Forward
variable (thinker : PagedThinker φ η μ κ ρ ω)

abbrev OverCaches (μ : Type) := EStateM String (List μ)

def writeKeys (metadata : PagedInputMetadata) (layerIdx : Nat) (keys : List κ) : OverCaches μ μ := do
  let caches ← get
  let cache ← attempt (okOr caches[layerIdx]? s!"paged kv cache layer out of range: {layerIdx}")
  let cache ← attempt (thinker.kernels.reshapeAndCache keys cache metadata.slotMapping)
  set (caches.set layerIdx cache)
  pure cache

def forwardPagedLayer (metadata : PagedInputMetadata) (batch seqLen : Nat) (positions : List Int)
    (layer : TextLayer η κ ρ ω) (layerIdx : Nat) (hidden : List η) : OverCaches μ (List η) := do
  let q := List.zipWith layer.query hidden positions
  let k := List.zipWith layer.project hidden positions
  let _ ← attempt (okOr (checkedMul batch seqLen) "paged attention token count overflow")
  let cache ← writeKeys thinker metadata layerIdx k
  let attn ← if seqLen = 1 then
      attempt (thinker.kernels.pagedAttention q cache metadata.blockTables metadata.contextLens metadata.maxContextLen)
    else do
      let kvLens ← attempt (okOr metadata.kvLens "paged metadata missing kv_lens")
      attempt (thinker.prefillFallback q cache metadata kvLens batch seqLen)
  pure (List.zipWith layer.finish hidden attn)

def forwardPackedPrefillLayer (metadata : PagedInputMetadata) (positions : List Int)
    (layer : TextLayer η κ ρ ω) (layerIdx : Nat) (hidden : List η) : OverCaches μ (List η) := do
  let queryLens ← attempt (okOr metadata.queryLens "packed prefill missing query_lens")
  if queryLens.sum ≠ hidden.length then
    throw s!"packed prefill token mismatch: hidden={hidden.length} query_lens_total={queryLens.sum}" else
  let q := List.zipWith layer.query hidden positions
  let k := List.zipWith layer.project hidden positions
  let cache ← writeKeys thinker metadata layerIdx k
  let cuKv ← attempt (okOr metadata.cuSeqlensKv "packed prefill missing cu_seqlens_kv")
  let gathered ← attempt (thinker.kernels.gatherKvCache cache metadata.blockTables cuKv)
  let attn ← attempt (runAttention thinker.kernels thinker.flash q gathered metadata.prefillFlashParams)
  pure (List.zipWith layer.finish hidden attn)

def runLayers (step : TextLayer η κ ρ ω → Nat → List η → OverCaches μ (List η)) :
    List (TextLayer η κ ρ ω) → Nat → List η → OverCaches μ (List η)
  | [], _, hidden => pure hidden
  | layer::layers, layerIdx, hidden => do
    let hidden ← step layer layerIdx hidden
    runLayers step layers (layerIdx+1) hidden

def rotary (columns : List (Column φ)) (positionIds : List (List Int)) : Except String (List Int) :=
  if positionIds.flatten.length ≠ columns.length then .error "shape mismatch: position_ids and inputs_embeds"
  else .ok positionIds.flatten

def forwardWithPagedCache (call : ForwardCall φ) : OverCaches μ (List η) := do
  let columns := call.columns.flatten
  let positions ← attempt (rotary columns call.positionIds)
  let batch := call.columns.length
  let seqLen := (call.columns.headD []).length
  runLayers (forwardPagedLayer thinker call.metadata batch seqLen positions) thinker.layers 0 (columns.map thinker.embed)

def forwardPackedPrefillWithPagedCache (call : ForwardCall φ) : OverCaches μ (List η) := do
  let columns := call.columns.flatten
  if call.columns.length ≠ 1 then throw s!"packed prefill expects inputs_embeds batch=1, got {call.columns.length}" else
  let positions ← attempt (rotary columns call.positionIds)
  runLayers (forwardPackedPrefillLayer thinker call.metadata positions) thinker.layers 0 (columns.map thinker.embed)

/- A prefill carries query lengths, a decode step does not. -/
def forwardHidden (call : ForwardCall φ) : OverCaches μ (List η) :=
  if thinker.usePackedCudaPrefill && call.metadata.queryLens.isSome then forwardPackedPrefillWithPagedCache thinker call
  else forwardWithPagedCache thinker call

def forwardOver (call : ForwardCall φ) : OverCaches μ (Nat → Nat → Nat) := do
  let hidden ← forwardHidden thinker call
  let seqLen := (call.columns.headD []).length
  pure fun row column => ((hidden.map thinker.pick).getD (row*seqLen+column) 0)

/- What the calls made so far leave in the caches, also those that failed. -/
def cachesAfter (history : List (ForwardCall φ)) : List μ :=
  history.foldr (fun call caches => after (forwardOver thinker call caches)) thinker.allocated

def overPagedCache : Thinker φ where
  audioTokenId := thinker.audioTokenId
  usePackedCudaPrefill := thinker.usePackedCudaPrefill
  forward history call := match forwardOver thinker call (cachesAfter thinker history) with
    | .ok logits _ => .ok logits
    | .error e _ => .error e

def causalLayer (layer : TextLayer η κ ρ ω) : Layer η Int κ where
  project := layer.project
  attend h p keys := layer.finish h (thinker.kernels.softmax (layer.query h p) keys)

def causal : CausalThinker φ η κ where
  audioTokenId := thinker.audioTokenId
  embed := thinker.embed
  layers := thinker.layers.map (causalLayer thinker)
  deep := by simpa using thinker.deep
  pick := thinker.pick

end Forward

end Qwen3Asr.PagedLayers
