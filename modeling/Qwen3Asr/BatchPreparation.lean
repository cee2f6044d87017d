import Mathlib.Algebra.Order.Floor.Div
import Mathlib.Data.List.Sort
import Mathlib.GroupTheory.GroupAction.Ring
import Qwen3Asr.AudioNormalize
import Qwen3Asr.FeatureExtractor
import Qwen3Asr.Library.Rowwise
import Qwen3Asr.PromptBuilder

/-! A group of chunks is prepared together, decoded in smaller batches of rows of like length, and the
texts put back in the order of the chunks. The encoder and the decoder of tokens are one parameter. -/
namespace Qwen3Asr.BatchPreparation
open Library.Effect Library.Rowwise Library.Word
open PagedMetadata AudioNormalize FeatureExtractor Scheduler PromptBuilder

variable {K : Type} [Field K] [LinearOrder K]

structure PreparedRow (K : Type) extends PreparedInputs, Features K

inductive FeaturePaddingMode where
  | feature
  | waveform
  | waveformFull
  deriving DecidableEq, Repr

section Features
variable (logMel : List K → Nat → K)

def extractFeaturesWithPaddedWaveformLen (wav : List K) (paddedLen : Nat) : Except String (Features K) :=
  if paddedLen < wav.length then
    .error s!"padded waveform length {paddedLen} is shorter than waveform length {wav.length}" else
  let framesTotal := paddedLen/hopLength
  let frames := if wav = [] then 0 else min (wav.length ⌈/⌉ hopLength) framesTotal
  if frames = 0 then .ok ⟨List.replicate featureSize [],[]⟩
  else .ok ⟨extractLogMelFrames logMel (wav ++ List.replicate (paddedLen-wav.length) 0) frames,List.replicate frames 1⟩

def padMelRow (i frames pad rowIdx : Nat) (row : List K) : Except String (List K) :=
  if row.length ≠ frames then
    .error s!"features[{i}].input_features[{rowIdx}] len mismatch: expected={frames}, got={row.length}"
  else .ok (row ++ List.replicate pad 0)

def padFeatures (maxFrames i : Nat) (f : Features K) : Except String (Features K) := do
  match f.inputFeatures with
  | [] => .error s!"features[{i}] has no mel rows"
  | first::_ =>
    let frames := first.length
    if f.featureAttentionMask.length ≠ frames then
      .error s!"features[{i}] mask len mismatch: mask={f.featureAttentionMask.length} frames={frames}" else
    if maxFrames < frames then .error s!"features[{i}] frames {frames} exceeds max_frames {maxFrames}" else
    let pad := maxFrames-frames
    if pad = 0 then .ok f else
    let rows ← f.inputFeatures.zipIdx.mapM fun (row,rowIdx) => padMelRow i frames pad rowIdx row
    .ok ⟨rows,f.featureAttentionMask ++ List.replicate pad 0⟩

def padFeatureBatchToMaxFrames (features : List (Features K)) : Except String (List (Features K)) :=
  let maxFrames := maxOf (features.filterMap fun f => f.inputFeatures.head?.map List.length)
  features.zipIdx.mapM fun (f,i) => padFeatures maxFrames i f

def extractFeaturesWithFeaturePadding (wavs : List (List K)) : Except String (List (Features K)) :=
  padFeatureBatchToMaxFrames (wavs.map (extractFeatures logMel))

def extractFeaturesWithWaveformPadding (wavs : List (List K)) : Except String (List (Features K)) := do
  let maxSamples := maxOf (wavs.map List.length)
  let feats ← wavs.mapM fun wav => extractFeaturesWithPaddedWaveformLen logMel wav maxSamples
  padFeatureBatchToMaxFrames feats

def extractFeaturesWithFullWaveformPadding (wavs : List (List K)) : Except String (List (Features K)) :=
  let maxSamples := maxOf (wavs.map List.length)
  wavs.mapM fun wav =>
    let padded := wav ++ List.replicate (maxSamples-wav.length) 0
    let f := extractFeatures logMel padded
    let framesTotal := padded.length/hopLength
    if f.featureAttentionMask.length ≠ framesTotal then
      .error s!"internal error: feature_attention_mask len {f.featureAttentionMask.length} != frames_total {framesTotal}"
    else .ok {f with
      featureAttentionMask := (List.range framesTotal).map fun i => if i*hopLength < wav.length then 1 else 0}

end Features

structure Processor (K : Type) where
  tokenizer : Tokenizer
  codec : AudioCodec K
  logMel : List K → Nat → K
  mode : FeaturePaddingMode
  varlen : Bool
  /-- Features and their lengths, prompts and their masks, a row each. -/
  generate : List (List (List K)) → List Nat → List (List Nat) → List (List Nat) → Except String (List (List Nat))
  decode : List Nat → Except String String

section Preparation
variable (processor : Processor K)

def extracted (wavs : List (List K)) : Except String (List (Features K)) :=
  if processor.varlen then padFeatureBatchToMaxFrames (wavs.map (extractFeatures processor.logMel)) else
  match processor.mode with
  | .feature => extractFeaturesWithFeaturePadding processor.logMel wavs
  | .waveform => extractFeaturesWithWaveformPadding processor.logMel wavs
  | .waveformFull => extractFeaturesWithFullWaveformPadding processor.logMel wavs

/- Prompts are padded to the longest of the batch, unless it is prepared for continuous batching. -/
def prepareItems (items : List (String × AudioInput K)) : Except String (List (PreparedRow K)) := do
  if items = [] then .ok [] else
  let wavs ← items.mapM fun (_,audio) => normalizeAudioInput processor.codec audio
  let _ ← processor.tokenizer.tokenToId "<|endoftext|>"
  let _ ← processor.tokenizer.tokenToId audioPad
  let feats ← extracted processor wavs
  let rows ← prepareBatch processor.tokenizer (!processor.varlen)
    ((items.zip feats).map fun ((prompt,_),f) => (prompt,f.featureAttentionMask))
  .ok ((rows.zip feats).map fun (row,f) => {row with
    inputFeatures := f.inputFeatures, featureAttentionMask := f.featureAttentionMask})

end Preparation

section Stacking

def stackRow (allowVariableFrames : Bool) (mel frames i : Nat) (p : PreparedRow K) : Except String (List (List K)) :=
  if p.inputFeatures.length ≠ mel then
    if allowVariableFrames then
      .error s!"prepared[{i}].input_features mel mismatch after feature padding: expected={mel}, got={p.inputFeatures.length}"
    else .error s!"prepared[{i}].input_features mel mismatch: expected={mel}, got={p.inputFeatures.length}"
  else if !allowVariableFrames ∧ p.featureAttentionMask.length ≠ frames then
    .error s!"prepared[{i}].feature_attention_mask len mismatch: expected={frames}, got={p.featureAttentionMask.length}"
  else p.inputFeatures.mapM fun row =>
    if allowVariableFrames then
      if frames < row.length then
        .error s!"prepared[{i}].input_features row len exceeds max frames: max={frames}, got={row.length}"
      else .ok (row ++ List.replicate (frames-row.length) 0)
    else if row.length ≠ frames then
      .error s!"prepared[{i}].input_features row len mismatch: expected={frames}, got={row.length}"
    else .ok row

def stackFeaturesInner (prepared : List (PreparedRow K)) (allowVariableFrames : Bool) :
    Except String (List (List (List K)) × List Nat) := do
  match prepared with
  | [] => .error "prepared is empty"
  | first::_ =>
    let mel := if allowVariableFrames then maxOf (prepared.map (·.inputFeatures.length)) else first.inputFeatures.length
    if mel = 0 then .error "prepared input_features has zero mel bins" else
    let frames ← if allowVariableFrames then
        .ok (maxOf (prepared.flatMap fun p => p.inputFeatures.map List.length))
      else okOr (first.inputFeatures.head?.map List.length) "prepared input_features missing first row"
    let features ← prepared.zipIdx.mapM fun (p,i) => stackRow allowVariableFrames mel frames i p
    .ok (features,prepared.map (realFrames ·.featureAttentionMask))

end Stacking

section Generation
variable (processor : Processor K)

def groupRows (countCap : Nat) : List (PreparedRow K × Nat) → Nat → Nat → List (PreparedRow K × Nat) →
    List (List (PreparedRow K × Nat))
  | [], _, _, [] => []
  | current, _, _, [] => [current]
  | [], _, _, item::rest =>
    let len := preparedPromptLen item.1.toPreparedInputs
    groupRows countCap [item] len len rest
  | current, currentMin, currentMax, item::rest =>
    let len := preparedPromptLen item.1.toPreparedInputs
    let nextMax := max currentMax len
    if countCap ≤ current.length ∨ saturatingMul currentMin 4 ⌈/⌉ 3 < nextMax ∨ 256 < nextMax-currentMin then
      current::groupRows countCap [item] len len rest
    else groupRows countCap (current ++ [item]) currentMin nextMax rest

def repaddedRow (padId groupMax : Nat) (src : PreparedRow K) : PreparedRow K :=
  let len := preparedPromptLen src.toPreparedInputs
  {src with
    inputIds := src.inputIds.take len ++ List.replicate (groupMax-len) padId
    attentionMask := List.replicate len 1 ++ List.replicate (groupMax-len) 0}

def repadded (padId : Nat) (group : List (PreparedRow K × Nat)) : List (Nat × PreparedRow K) :=
  let groupMax := maxOf (group.map fun item => preparedPromptLen item.1.toPreparedInputs)
  group.map fun item => (item.2,repaddedRow padId groupMax item.1)

/- The source sorts with `sort_unstable_by_key`, which leaves rows of one length in any order. Here they keep
theirs; `RegroupedRows.RebatchesTo` takes any order of them. -/
def rebatchPreparedInputs (prepared : List (PreparedRow K)) (padId maxBatchSize : Nat) :
    List (List (Nat × PreparedRow K)) :=
  let countCap := if maxBatchSize = 0 then max prepared.length 1 else maxBatchSize
  let order := prepared.zipIdx.insertionSort fun a b =>
    preparedPromptLen a.1.toPreparedInputs ≤ preparedPromptLen b.1.toPreparedInputs
  (groupRows countCap [] 0 0 order).map (repadded padId)

def generateMicroBatch (out : List (Option String)) (batch : List (Nat × PreparedRow K)) :
    Except String (List (Option String)) := do
  let rows := batch.map Prod.snd
  let (inputFeatures,featureLens) ← stackFeaturesInner rows processor.varlen
  let genIds ← processor.generate inputFeatures featureLens (rows.map (·.inputIds)) (rows.map (·.attentionMask))
  if genIds.length ≠ rows.length then
    .error s!"internal error: generated micro-batch size mismatch: expected={rows.length}, got={genIds.length}"
  else (batch.zip genIds).foldlM (fun out (entry,ids) => do
    let raw ← processor.decode ids
    .ok (out.set entry.1 (some raw))) out

def generateRawPreparedBatch (maxBatchSize : Nat) (prepared : List (PreparedRow K)) : Except String (List String) := do
  if prepared.length = 0 then .ok [] else
  let effectiveMaxBatch := if maxBatchSize = 0 then max prepared.length 1 else maxBatchSize
  let padId ← processor.tokenizer.tokenToId "<|endoftext|>"
  let out ← (rebatchPreparedInputs prepared padId effectiveMaxBatch).foldlM (generateMicroBatch processor)
    (List.replicate prepared.length none)
  readSlots (fun i => s!"missing generated text {i}") out

end Generation

section Lengths
variable {processor : Processor K}

omit [LinearOrder K] in
theorem paddedLength {features padded : List (Features K)} (ok : padFeatureBatchToMaxFrames features = .ok padded) :
    padded.length = features.length :=
  (mapMLength ok).trans List.length_zipIdx

theorem extractedLength {wavs : List (List K)} {feats : List (Features K)} (ok : extracted processor wavs = .ok feats) :
    feats.length = wavs.length := by
  unfold extracted at ok
  split at ok
  · exact (paddedLength ok).trans (List.length_map _)
  · split at ok
    · exact (paddedLength ok).trans (List.length_map _)
    · obtain ⟨extracts,each,ok⟩ := exceptBind.mp ok
      exact (paddedLength ok).trans (mapMLength each)
    · exact mapMLength ok

theorem prepareBatchLength {tokenizer : Tokenizer} {padToBatchMax : Bool} {items : List (String × List Nat)}
    {rows : List PreparedInputs} (ok : prepareBatch tokenizer padToBatchMax items = .ok rows) : rows.length = items.length := by
  unfold prepareBatch at ok
  split at ok
  · rename_i empty
    cases ok
    simp [empty]
  · obtain ⟨_,_,ok⟩ := exceptBind.mp ok
    obtain ⟨_,_,ok⟩ := exceptBind.mp ok
    obtain ⟨inputIds,encoded,ok⟩ := exceptBind.mp ok
    exact (mapMLength ok).trans (mapMLength encoded)

theorem prepareLength {items : List (String × AudioInput K)} {prepared : List (PreparedRow K)}
    (ok : prepareItems processor items = .ok prepared) : prepared.length = items.length := by
  unfold prepareItems at ok
  split at ok
  · rename_i empty
    cases ok
    simp [empty]
  · obtain ⟨wavs,normalized,ok⟩ := exceptBind.mp ok
    obtain ⟨_,_,ok⟩ := exceptBind.mp ok
    obtain ⟨_,_,ok⟩ := exceptBind.mp ok
    obtain ⟨feats,features,ok⟩ := exceptBind.mp ok
    obtain ⟨rows,batched,ok⟩ := exceptBind.mp ok
    obtain rfl := Except.ok.inj ok
    have wavsCounted := mapMLength normalized
    have featsCounted := extractedLength features
    have rowsCounted := prepareBatchLength batched
    simp only [List.length_map,List.length_zip] at rowsCounted ⊢
    omega

end Lengths

end Qwen3Asr.BatchPreparation
