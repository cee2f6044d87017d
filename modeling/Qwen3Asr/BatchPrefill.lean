import Mathlib.Logic.Function.Basic
import Qwen3Asr.EagerRows

/-! Prefill of an eager batch. Rows that share their columns up to the first audio placeholder
resume from a cache of these columns, kept by the ids of the prefix since an earlier batch. -/
namespace Qwen3Asr.BatchPrefill
open Library Library.Effect Library.Word
open PagedMetadata PromptPositions BatchEngine KvCache EagerThinker

section Prefix

def audioPosition (audioTokenId : Nat) (ids attn : List Nat) : Option Nat :=
  (ids.zip attn).findIdx? fun (id,m) => m ≠ 0 ∧ id = audioTokenId

def sharesPrefix (audioTokenId : Nat) (first : List Nat) (prefixLen : Nat) (row : List Nat × List Nat) : Bool :=
  match audioPosition audioTokenId row.1 row.2 with
  | none => false
  | some rowPrefixLen => rowPrefixLen = prefixLen ∧ prefixLen ≤ row.1.length ∧ prefixLen ≤ row.2.length ∧
      row.1.take prefixLen = first.take prefixLen ∧ ∀ m ∈ row.2.take prefixLen, m ≠ 0

def commonAudioPrefixLen (inputIds attentionMask : List (List Nat)) (audioTokenId : Nat) : Nat :=
  if inputIds.length ≤ 1 ∨ inputIds.length ≠ attentionMask.length then 0 else
  match inputIds, attentionMask with
  | first::rest, firstAttn::restAttn =>
    match audioPosition audioTokenId first firstAttn with
    | none => 0
    | some prefixLen =>
      if prefixLen < 8 then 0 else
      if ¬ (rest.zip restAttn).all (sharesPrefix audioTokenId first prefixLen) then 0 else
      if ∃ m ∈ firstAttn.take prefixLen, m = 0 then 0 else prefixLen
  | _, _ => 0

end Prefix

variable {φ η κ : Type}

def kvCacheForGeneration (thinker : CausalThinker φ η κ) (seqLen maxNewTokens : Nat) : Except String (KVCache κ) := do
  let maxSeqLen ← okOr (checkedAdd seqLen maxNewTokens) "kv cache capacity overflow"
  .ok (withMaxSeqLen thinker.layers.length maxSeqLen)

def promptLenFromLeftPaddedMask (attentionMask : List Nat) (seqLen : Nat) : Except String Int :=
  if attentionMask.length ≠ seqLen then
    .error s!"attention_mask length mismatch: expected={seqLen}, got={attentionMask.length}"
  else
    let sum := validLen attentionMask
    okOr (i64TryFrom sum) s!"attention_mask length overflows i64: sum={sum}"

def promptLensFromAttentionMasks (attentionMask : List (List Nat)) (seqLen : Nat) : Except String (List Int) :=
  attentionMask.zipIdx.mapM fun (row,i) => match promptLenFromLeftPaddedMask row seqLen with
    | .ok len => .ok len
    | .error e => .error s!"failed to compute prompt length for attention_mask[{i}]: {e}"

structure GreedyGenerateBatchOpts (φ : Type) where
  audioFeatures : Option (List φ)
  maxNewTokens : Nat
  eosTokenIds : List Nat

abbrev Templates (κ : Type) := List Nat → Option (KVCache κ)

structure EagerPrefilled (κ : Type) where
  cache : KVCache κ
  promptLens : List Int
  nextIds : List Nat

section Prefill
variable (thinker : CausalThinker φ η κ) (inputIds attentionMask : Grid Nat) (audioFeatures : Option (List φ))

def placeholders (rows : List (List Nat)) : Nat :=
  if audioFeatures.isSome then countAudioPlaceholdersBatch rows thinker.audioTokenId else 0

def fullPrefill (cache : KVCache κ) : Except String (Grid Nat × KVCache κ) := do
  let embeds ← inputsEmbeds thinker inputIds audioFeatures (placeholders thinker audioFeatures inputIds.rows)
  let positionIds ← ropePositions attentionMask
  forwardEmbedsWithKvCache thinker attentionMask positionIds embeds cache

def remainderPrefill (prefixLen : Nat) (prefixCache : KVCache κ) : Except String (Grid Nat × KVCache κ) := do
  let cache ← replicateBatch prefixCache inputIds.rows.length
  let remLen := inputIds.width-prefixLen
  let remInputIds := inputIds.columns prefixLen remLen
  let remEmbeds ← inputsEmbeds thinker remInputIds audioFeatures (placeholders thinker audioFeatures remInputIds.rows)
  let fullPositionIds ← ropePositions attentionMask
  forwardEmbedsWithKvCache thinker attentionMask (fullPositionIds.columns prefixLen remLen) remEmbeds cache

def prefixLenOf : Nat :=
  if audioFeatures.isSome then commonAudioPrefixLen inputIds.rows attentionMask.rows thinker.audioTokenId else 0

def prefixIdsOf : List Nat :=
  (inputIds.rows.headD []).take (prefixLenOf thinker inputIds attentionMask audioFeatures)

def nextIdsAt (logits : Grid Nat) (promptLens : List Int) : Except String (List Nat) := do
  let last ← gatherLastLogitsForPromptLens logits.rows.length logits.width promptLens
  .ok (last.map fun (i,t) => (logits.rows.getD i []).getD t 0)

def cachedPrefix (templates : Templates κ) : Option (KVCache κ) :=
  if 0 < prefixLenOf thinker inputIds attentionMask audioFeatures then
    templates (prefixIdsOf thinker inputIds attentionMask audioFeatures)
  else none

def resumedPrefill (prefixCache : KVCache κ) (promptLens : List Int) : Except String (EagerPrefilled κ) := do
  let prefixLen := prefixLenOf thinker inputIds attentionMask audioFeatures
  let (logits,cache) ← remainderPrefill thinker inputIds attentionMask audioFeatures prefixLen prefixCache
  let prefixLenI64 ← okOr (i64TryFrom prefixLen) s!"effective prefix_len overflows i64: {prefixLen}"
  let nextIds ← nextIdsAt logits (promptLens.map (· - prefixLenI64))
  .ok ⟨cache,promptLens,nextIds⟩

def storePrefix (cache : KVCache κ) : EStateM String (Templates κ) Unit :=
  let prefixLen := prefixLenOf thinker inputIds attentionMask audioFeatures
  if 0 < prefixLen then do
    let prefixCache ← attempt (row0PrefixTemplate cache prefixLen)
    modify (Function.update · (prefixIdsOf thinker inputIds attentionMask audioFeatures) (some prefixCache))
  else pure ()

def wholePrefill (cache : KVCache κ) (promptLens : List Int) : EStateM String (Templates κ) (EagerPrefilled κ) := do
  let (logits,cache) ← attempt (fullPrefill thinker inputIds attentionMask audioFeatures cache)
  storePrefix thinker inputIds attentionMask audioFeatures cache
  let nextIds ← attempt (nextIdsAt logits promptLens)
  pure ⟨cache,promptLens,nextIds⟩

def prefillBatch (opts : GreedyGenerateBatchOpts φ) : EStateM String (Templates κ) (EagerPrefilled κ) := do
  let cache ← attempt (kvCacheForGeneration thinker inputIds.width opts.maxNewTokens)
  let promptLens ← attempt (promptLensFromAttentionMasks attentionMask.rows inputIds.width)
  let templates ← get
  match cachedPrefix thinker inputIds attentionMask opts.audioFeatures templates with
  | some prefixCache => attempt (resumedPrefill thinker inputIds attentionMask opts.audioFeatures prefixCache promptLens)
  | none => wholePrefill thinker inputIds attentionMask opts.audioFeatures cache promptLens

end Prefill

end Qwen3Asr.BatchPrefill
