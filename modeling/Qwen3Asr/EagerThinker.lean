import Qwen3Asr.CausalMask
import Qwen3Asr.KvCache
import Qwen3Asr.Library.CausalStack
import Qwen3Asr.PromptColumns

/-! The thinker with explicit attention masks, run whole or over a key/value cache. Embedding,
layers and head are parameters; a layer attends to the keys its mask leaves. -/
namespace Qwen3Asr.EagerThinker
open Library Library.Effect Library.Word Library.CausalStack
open PagedMetadata PromptPositions BatchEngine PromptColumns CausalMask KvCache

structure CausalThinker (φ η κ : Type) where
  audioTokenId : Nat
  /-- The embedding of a token, or the audio feature in its place. -/
  embed : Column φ → η
  layers : List (Layer η Int κ)
  deep : layers ≠ []
  /-- The token that the logits of a column pick. -/
  pick : η → Nat

variable {φ η κ : Type}

def tensor {α : Type} (width : Nat) (rows : List (List α)) : Except String (Grid α) :=
  okOr (Grid.ofRows width rows) "shape mismatch: rows differ in length"

def tokenMask (mask : Grid Nat) : TokenMask := ⟨mask.rows,mask.width,mask.rectangular⟩

/- A lookup past the features fails; it happens when the ids hold more placeholders than were counted. -/
def inputsEmbeds (thinker : CausalThinker φ η κ) (inputIds : Grid Nat) (audioFeatures : Option (List φ))
    (placeholderCount : Nat) : Except String (Grid η) :=
  match audioFeatures with
  | none => .ok (inputIds.map fun id => thinker.embed ⟨id,none⟩)
  | some audio => do
    let columns ← mergeAudioFeatures inputIds.rows thinker.audioTokenId audio placeholderCount
    if placeholderCount ≠ 0 ∧ audio.length < countAudioPlaceholdersBatch inputIds.rows thinker.audioTokenId then
      .error "invalid index in embedding" else
    let columns ← tensor inputIds.width columns
    .ok (columns.map thinker.embed)

def ropePositions (attentionMask : Grid Nat) : Except String (Grid Int) := do
  let (positionIds,_) ← getRopeIndex attentionMask.rows
  tensor attentionMask.width positionIds

section Attention

def allowedKeys (allowed : Option (List (List (List Bool)))) (i t : Nat) (keys : List κ) : List κ :=
  match allowed with
  | none => keys
  | some allowed => visible ((allowed.getD i []).getD t []) keys

def attention (layer : Layer η Int κ) (allowed : Option (List (List (List Bool)))) (keys : Grid κ)
    (positionIds : Grid Int) (hidden : Grid η) : Grid η :=
  (Grid.zipWith Prod.mk hidden positionIds).mapIdx fun i t (h,p) =>
    layer.attend h p (allowedKeys allowed i t (keys.rows.getD i []))

/- Parameters of a varlen kernel are made where several columns are new, and dropped under an explicit mask. -/
def makeFlashParams (batch seqLen kvLen : Nat) : Except String Unit :=
  if seqLen ≤ 1 then .ok () else do
  let _ ← cumulativeSeqlensFromLengths (List.replicate batch seqLen)
  let _ ← cumulativeSeqlensFromLengths (List.replicate batch kvLen)
  .ok ()

def forwardLayers (allowed : List (List (List Bool))) (positionIds : Grid Int) :
    List (Layer η Int κ) → Grid η → Except String (Grid η)
  | [], hidden => .ok hidden
  | layer::layers, hidden => do
    let key := Grid.zipWith layer.project hidden positionIds
    makeFlashParams hidden.rows.length hidden.width hidden.width
    forwardLayers allowed positionIds layers (attention layer (some allowed) key positionIds hidden)

def forwardCachedLayers (allowed : Option (List (List (List Bool)))) (positionIds : Grid Int) :
    List (Layer η Int κ) → Nat → Grid η → KVCache κ → Except String (Grid η × KVCache κ)
  | [], _, hidden, cache => .ok (hidden,cache)
  | layer::layers, layerIdx, hidden, cache => do
    let (keys,cache) ← update cache layerIdx (Grid.zipWith layer.project hidden positionIds)
    makeFlashParams hidden.rows.length hidden.width (cache.seqLen+hidden.width)
    forwardCachedLayers allowed positionIds layers (layerIdx+1)
      (attention layer allowed keys positionIds hidden) cache

end Attention

section Forward
variable (thinker : CausalThinker φ η κ)

/- Logits are the tokens they pick. -/
def forwardWithAudioFeatures (inputIds attentionMask : Grid Nat) (audioFeatures : Option (List φ))
    (placeholderCount : Nat) : Except String (Grid Nat) := do
  let embeds ← inputsEmbeds thinker inputIds audioFeatures placeholderCount
  let positionIds ← ropePositions attentionMask
  if attentionMask.rows.length ≠ embeds.rows.length ∨ attentionMask.width ≠ embeds.width then
    .error s!"attention_mask dims mismatch: expected=({embeds.rows.length},{embeds.width}), got=({attentionMask.rows.length},{attentionMask.width})"
  else
  let hidden ← forwardLayers (makeCausalMask attentionMask.rows embeds.width) positionIds thinker.layers embeds
  .ok (hidden.map thinker.pick)

def forwardEmbedsWithKvCache (attentionMask : Grid Nat) (positionIds : Grid Int) (embeds : Grid η)
    (cache : KVCache κ) : Except String (Grid Nat × KVCache κ) := do
  let batch := embeds.rows.length
  if attentionMask.rows.length ≠ batch then
    .error s!"attention_mask batch mismatch: expected={batch}, got={attentionMask.rows.length}" else
  if attentionMask.width ≠ cache.seqLen+embeds.width then
    .error s!"attention_mask total_len mismatch vs cache: total_len={attentionMask.width} cache_len={cache.seqLen} new_len={embeds.width}"
  else
  let allowed ← makeCausalMaskCached (some (tokenMask attentionMask)) batch cache.seqLen embeds.width
  let (hidden,cache) ← forwardCachedLayers (some allowed) positionIds thinker.layers 0 embeds cache
  .ok (hidden.map thinker.pick,cache)

def forwardDecodeOneWithoutPadding (positionIds : Grid Int) (embeds : Grid η) (cache : KVCache κ) :
    Except String (Grid Nat × KVCache κ) := do
  if embeds.width ≠ 1 then .error s!"decode-one fast path expects seq_len=1, got={embeds.width}" else
  let (hidden,cache) ← forwardCachedLayers none positionIds thinker.layers 0 embeds cache
  .ok (hidden.map thinker.pick,cache)

end Forward

section Masks
variable {i t : Nat} {row : List Nat} {keys : List κ}

def holdsBits (row : List Nat) : List Bool := row.map fun m => decide (m ≠ 0)

theorem allowedCached {mask : TokenMask} {batch cacheLen newLen : Nat} {allowed : List (List (List Bool))}
    (ok : makeCausalMaskCached (some mask) batch cacheLen newLen = .ok allowed) (found : mask.rows[i]? = some row)
    (query : t < newLen) :
    allowedKeys (some allowed) i t keys = visible ((holdsBits row).take (cacheLen+t+1)) keys := by
  obtain ⟨_,width,rfl⟩ := cachedOk ok (by omega)
  have length := mask.rectangular row (List.mem_of_getElem? found)
  have bits : List.zipWith (fun a m => a && decide (m ≠ 0))
      ((List.range (cacheLen+newLen)).map fun kv => decide (kv ≤ cacheLen+t)) row =
      (holdsBits row).mapIdx fun j b => decide (j < cacheLen+t+1) && b := by
    refine List.ext_getElem? fun j => ?_
    rcases Nat.lt_or_ge j row.length with inside | past
    · have column : j < cacheLen+newLen := by omega
      simp only [ne_eq,decide_not,List.length_zipWith,List.length_map,List.length_range,lt_inf_iff,column,inside,and_self,
        getElem?_pos,List.getElem_zipWith,List.getElem_map,List.getElem_range,Nat.lt_succ_iff,holdsBits,List.length_mapIdx,
        List.getElem_mapIdx]
    · simp [holdsBits,past]
  rw [← visibleCausal,← bits]
  simp [allowedKeys,List.getD_eq_getElem?_getD,found,List.getElem?_range' query]

theorem allowedPlain {masks : List (List Nat)} {seqLen : Nat} (found : masks[i]? = some row)
    (width : row.length = seqLen) (query : t < seqLen) :
    allowedKeys (some (makeCausalMask masks seqLen)) i t keys = visible ((holdsBits row).take (t+1)) keys := by
  have bits : ((List.range seqLen).map fun k => decide (k ≤ t) && decide (row.getD k 0 ≠ 0)) =
      (holdsBits row).mapIdx fun j b => decide (j < t+1) && b := by
    refine List.ext_getElem? fun j => ?_
    rcases Nat.lt_or_ge j row.length with inside | past
    · have column : j < seqLen := by omega
      simp only [List.getD_eq_getElem?_getD,ne_eq,decide_not,List.length_map,List.length_range,column,getElem?_pos,
        List.getElem_map,List.getElem_range,inside,Option.getD_some,Nat.lt_succ_iff,holdsBits,List.length_mapIdx,
        List.getElem_mapIdx]
    · simp [holdsBits,past,(show seqLen ≤ j by omega)]
  rw [← visibleCausal,← bits]
  simp [allowedKeys,makeCausalMask,List.getD_eq_getElem?_getD,found,query]

end Masks

end Qwen3Asr.EagerThinker
