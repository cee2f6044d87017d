import Qwen3Asr.AudioEncoder
import Qwen3Asr.AudioNormalize
import Qwen3Asr.FeatureExtractor

/-! Streaming transcription: buffered audio is consumed chunk by chunk; each chunk re-feeds all audio so
far, or a window of it, behind a prompt that ends in a prefix of the text decoded before. -/
namespace Qwen3Asr.Streaming
open Library Library.Effect Library.Word
open FeatureExtractor AudioEncoder AudioNormalize PromptBuilder

/- What a stream is started with; the tokenizer, the decoder and the parser of its output are parameters. -/
structure StreamSetup (K η : Type) where
  logMel : List K → Nat → K
  tower : AudioTower K η
  /-- The frames of `audio_window_sec`. -/
  audioWindowFrames : Except String (Option Nat)
  encode : String → Except String (List Nat)
  decode : List Nat → Except String String
  generateIds : List Nat → List Nat → List η → Except String (List Nat)
  parseAsrOutput : String → String × String
  audioTokenId : Nat
  promptRaw : String
  chunkSizeSamples : Nat
  chunkPositive : 0 < chunkSizeSamples
  unfixedChunkNum : Nat
  unfixedTokenNum : Nat
  textWindowTokens : Option Nat

structure AudioFeaturesCache (K η : Type) where
  frames : Nat
  wavLenSamples : Nat
  compressedMaxLog : WithBot K
  audioFeatures : List η

structure AudioState (K η : Type) where
  features : StreamingFeatureExtractor K K
  audioCache : Option (AudioFeaturesCache K η)

def recomputeFromForStreamAppend (cacheFrames segmentFrames : Nat) : Nat :=
  if segmentFrames = 0 then 0 else (cacheFrames-1)/segmentFrames*segmentFrames

variable {K η : Type}

section Features
variable [Field K] [LinearOrder K] (setup : StreamSetup K η)

def framesRangeForStep (framesTotal : Nat) : Except String (Nat × Nat) := do
  match ← setup.audioWindowFrames with
  | none => .ok (0,framesTotal)
  | some windowFrames =>
    if framesTotal = 0 then .ok (0,0) else
    .ok (framesTotal-max (min windowFrames framesTotal) 1,framesTotal)

def featureDims (features : StreamingFeatureExtractor K K) : Except String (Nat × Nat) := do
  let mel := features.inputFeatures.length
  if mel = 0 then .error "internal error: empty input_features" else
  let frames := (features.inputFeatures.headD []).length
  let _ ← features.inputFeatures.zipIdx.mapM fun (row,i) =>
    if row.length ≠ frames then
      .error s!"internal error: input_features row {i} length mismatch: expected={frames} got={row.length}"
    else .ok ()
  let maskLen := features.featureAttentionMask.length
  if maskLen ≠ frames then
    .error s!"internal error: feature_attention_mask length mismatch: expected={frames} got={maskLen}"
  else .ok (mel,frames)

def buildFeatureTensors (features : StreamingFeatureExtractor K K) (start stop : Nat) :
    Except String (Grid K × Nat) := do
  let (mel,framesTotal) ← featureDims features
  if stop < start then .error s!"invalid feature range: start {start} > end {stop}" else
  if framesTotal < stop then .error s!"invalid feature range: end {stop} > frames_total {framesTotal}" else
  let frames := stop-start
  let _ ← okOr (checkedMul mel frames) s!"input_features size overflow: mel={mel} frames={frames}"
  let tensor ← okOr (Grid.ofRows frames (features.inputFeatures.map fun row => (row.drop start).take frames))
    "internal error: input_features slice out of bounds"
  .ok (tensor,((features.featureAttentionMask.drop start).take frames).countP (· ≠ 0))

def computeAudioFeatures (features : StreamingFeatureExtractor K K) (start stop : Nat) : Except String (List η) := do
  let (inputFeatures,featureLen) ← buildFeatureTensors features start stop
  forwardWithLens setup.tower inputFeatures featureLen

def audioCacheSegmentFrames : Except String (Option Nat) := do
  if ¬ setup.tower.useFlashAttn then .ok none else
  let windowFrames ← okOr (checkedMul setup.tower.nWindow 2) "audio_config.n_window overflows when doubled"
  if windowFrames = 0 then .error "audio_config.n_window must be > 0" else
  let ratio := setup.tower.nWindowInfer/windowFrames
  if ratio = 0 then .ok none else
  let segmentFrames ← okOr (checkedMul windowFrames ratio)
    s!"audio segment_frames overflow: window_frames={windowFrames} ratio={ratio}"
  if segmentFrames = 0 then .ok none else .ok (some segmentFrames)

def expectRows (when_ : String) (expectedTokens : Nat) (audioFeatures : List η) : Except String (List η) :=
  if audioFeatures.length ≠ expectedTokens then
    .error s!"internal error: audio_features length mismatch{when_}: expected={expectedTokens} got={audioFeatures.length}"
  else .ok audioFeatures

def resumedFeatures (features : StreamingFeatureExtractor K K) (cache : AudioFeaturesCache K η)
    (recomputeFrom framesTotal : Nat) : Except String (List η) := do
  if framesTotal < recomputeFrom then
    .error s!"internal error: recompute_from {recomputeFrom} > frames_total {framesTotal}" else
  let prefixTokens := featExtractOutputLength recomputeFrom
  if cache.audioFeatures.length < prefixTokens then
    .error s!"internal error: prefix_tokens {prefixTokens} exceed cached_tokens {cache.audioFeatures.length}" else
  let tail ← computeAudioFeatures setup features recomputeFrom framesTotal
  .ok (cache.audioFeatures.take prefixTokens ++ tail)

def freshFeatures (state : AudioState K η) (segmentFrames framesTotal : Nat) : Except String (List η) :=
  match state.audioCache with
  | none => computeAudioFeatures setup state.features 0 framesTotal
  | some cache =>
    if cache.compressedMaxLog ≠ state.features.compressedMaxLog ∨ framesTotal < cache.frames then
      computeAudioFeatures setup state.features 0 framesTotal
    else
      let recomputeFrom := recomputeFromForStreamAppend cache.frames segmentFrames
      if recomputeFrom = 0 then computeAudioFeatures setup state.features 0 framesTotal
      else resumedFeatures setup state.features cache recomputeFrom framesTotal

def cacheHit (state : AudioState K η) (framesTotal : Nat) : Option (List η) :=
  match state.audioCache with
  | none => none
  | some cache =>
    if cache.frames = framesTotal ∧ cache.wavLenSamples = state.features.wav.length ∧
        cache.compressedMaxLog = state.features.compressedMaxLog then some cache.audioFeatures else none

def stepRange (features : StreamingFeatureExtractor K K) : Except String (Nat × (Nat × Nat)) := do
  let (_,framesTotal) ← featureDims features
  if framesTotal = 0 then .error "internal error: empty features (frames_total=0)" else
  let (start,stop) ← framesRangeForStep setup framesTotal
  if stop-start = 0 then .error "internal error: frames_window is 0" else .ok (framesTotal,start,stop)

def audioFeaturesForStep : EStateM String (AudioState K η) (List η) := do
  let state ← get
  let (framesTotal,start,stop) ← attempt (stepRange setup state.features)
  let expectedTokens := featExtractOutputLength (stop-start)
  if start ≠ 0 ∨ stop ≠ framesTotal then
    -- Frames are counted from the window's start, so that tokens of earlier steps are not at their place.
    modify ({· with audioCache := none})
    let audioFeatures ← attempt (computeAudioFeatures setup state.features start stop)
    attempt (expectRows " (windowed)" expectedTokens audioFeatures)
  else
  match ← attempt (audioCacheSegmentFrames setup) with
  | none => do
    let audioFeatures ← attempt (computeAudioFeatures setup state.features start stop)
    attempt (expectRows "" expectedTokens audioFeatures)
  | some segmentFrames =>
  match cacheHit state framesTotal with
  | some audioFeatures => pure audioFeatures
  | none => do
    let audioFeatures ← attempt (freshFeatures setup state segmentFrames framesTotal)
    let audioFeatures ← attempt (expectRows " after caching" expectedTokens audioFeatures)
    let cache := ⟨framesTotal,state.features.wav.length,state.features.compressedMaxLog,audioFeatures⟩
    modify ({· with audioCache := some cache})
    pure audioFeatures

end Features

structure AsrTranscription where
  language : String
  text : String
  deriving DecidableEq, Repr

structure RollingTextState where
  committed : String
  tailIds : List Nat
  keepTailTokens : Nat

/- What the decode steps work on. The steps taken are listed for the statements: the audio each was
fed and the prefix text it was given. -/
structure DecodeState (K η : Type) extends AudioState K η where
  chunkId : Nat
  rawDecoded : String
  rollingText : Option RollingTextState
  last : Option AsrTranscription
  steps : List (List K × String)

structure AsrStream (K η : Type) extends DecodeState K η where
  buffer : List K
  bufferOffset : Nat

abbrev Decoding (K η : Type) := EStateM String (DecodeState K η)
abbrev Pushing (K η : Type) := EStateM String (AsrStream K η)

def replacement : Char := Char.ofNat 0xFFFD

section Prefixes
variable (setup : StreamSetup K η)

/- Tokens are dropped from the end until none is cut inside a character. -/
def rollback (ids : List Nat) : Nat → Except String (List Nat × String)
  | 0 => .ok ([],"")
  | endIdx+1 => do
    let text ← setup.decode (ids.take (endIdx+1))
    if replacement ∈ text.toList then rollback ids endIdx else .ok (ids.take (endIdx+1),text)

/- At the end of a stream one token is kept at least. -/
def finishRollback (ids : List Nat) : Except String (List Nat × String) := do
  let endIdx := ids.length-setup.unfixedTokenNum
  let endIdx := if endIdx = 0 ∧ ids ≠ [] then 1 else endIdx
  if ids.take endIdx = [] then .ok ([],"") else
  let text ← setup.decode (ids.take endIdx)
  .ok (ids.take endIdx,text)

def buildPrefix (st : DecodeState K η) : Except String String := do
  if st.chunkId < setup.unfixedChunkNum then .ok "" else
  let curIds ← setup.encode st.rawDecoded
  let (_,text) ← rollback setup curIds (curIds.length-setup.unfixedTokenNum)
  .ok text

def buildFinishPrefix (st : DecodeState K η) : Except String String := do
  if st.chunkId < setup.unfixedChunkNum then .ok "" else
  let curIds ← setup.encode st.rawDecoded
  let (_,text) ← finishRollback setup curIds
  .ok text

def buildPrefixWindowed (st : DecodeState K η) (rolling : RollingTextState) : Except String (List Nat × String) :=
  if st.chunkId < setup.unfixedChunkNum then .ok ([],"")
  else rollback setup rolling.tailIds (rolling.tailIds.length-setup.unfixedTokenNum)

def buildFinishPrefixWindowed (st : DecodeState K η) (rolling : RollingTextState) : Except String (List Nat × String) :=
  if st.chunkId < setup.unfixedChunkNum then .ok ([],"") else finishRollback setup rolling.tailIds

def committing (rolling : RollingTextState) : Nat → Except String RollingTextState
  | 0 => .ok rolling
  | n+1 => do
    let text ← setup.decode (rolling.tailIds.take (n+1))
    if text.toList.getLast? = some replacement then committing rolling n
    else .ok {rolling with committed := rolling.committed ++ text, tailIds := rolling.tailIds.drop (n+1)}

def maybeCommitWindowedText : Decoding K η Unit := do
  let st ← get
  match st.rollingText with
  | none => pure ()
  | some rolling =>
    if st.chunkId < setup.unfixedChunkNum ∨ rolling.tailIds.length ≤ rolling.keepTailTokens then pure () else do
    let rolling ← attempt (committing setup rolling (rolling.tailIds.length-rolling.keepTailTokens))
    modify ({· with rollingText := some rolling})

end Prefixes

section Decoding
variable [Field K] [LinearOrder K] (setup : StreamSetup K η)

def generateForStep (prefixStr : String) : Decoding K η (List Nat) := do
  modify fun st => {st with steps := st.steps ++ [(st.features.wav,prefixStr)]}
  let audioFeatures ← zoom DecodeState.toAudioState (fun audio st => {st with toAudioState := audio})
    (audioFeaturesForStep setup)
  let baseIds ← attempt (setup.encode (setup.promptRaw ++ prefixStr))
  let inputIds := expandAudioPadIdsFirst baseIds setup.audioTokenId audioFeatures.length
  attempt (setup.generateIds inputIds (List.replicate inputIds.length 1) audioFeatures)

def transcription (raw : String) : AsrTranscription :=
  let (language,text) := setup.parseAsrOutput raw
  ⟨language,text⟩

def decodeStep (prefixStr : String) : Decoding K η AsrTranscription := do
  let genIds ← generateForStep setup prefixStr
  let genText ← attempt (setup.decode genIds)
  let rawDecoded := prefixStr ++ genText
  let tx := transcription setup rawDecoded
  modify fun st => {st with rawDecoded, last := some tx, chunkId := saturatingAdd st.chunkId 1}
  pure tx

def decodeStepWindowedWithPrefix (prefixIds : List Nat) (prefixStr : String) : Decoding K η AsrTranscription := do
  let genIds ← generateForStep setup prefixStr
  let st ← get
  match st.rollingText with
  | none => throw "internal error: decode_step_windowed_with_prefix without rolling_text"
  | some rolling =>
  let rolling := {rolling with tailIds := prefixIds ++ genIds}
  modify fun st => {st with rollingText := some rolling, chunkId := saturatingAdd st.chunkId 1}
  maybeCommitWindowedText setup
  let st ← get
  match st.rollingText with
  | none => throw "internal error: missing rolling_text"
  | some rolling =>
  let tailText ← attempt (setup.decode rolling.tailIds)
  let tx := transcription setup (rolling.committed ++ tailText)
  modify ({· with last := some tx})
  pure tx

def clearUnfixed (st : DecodeState K η) : DecodeState K η :=
  if st.chunkId < setup.unfixedChunkNum then
    {st with rollingText := st.rollingText.map fun rolling => {rolling with committed := "", tailIds := []}}
  else st

def decodeWith (plain : DecodeState K η → Except String String)
    (windowed : DecodeState K η → RollingTextState → Except String (List Nat × String)) : Decoding K η AsrTranscription := do
  let st ← get
  match st.rollingText with
  | some _ => do
    modify (clearUnfixed setup)
    let st ← get
    match st.rollingText with
    | none => throw "internal error: missing rolling_text"
    | some rolling =>
      let (prefixIds,prefixStr) ← attempt (windowed st rolling)
      decodeStepWindowedWithPrefix setup prefixIds prefixStr
  | none => do
    let prefixStr ← attempt (plain st)
    decodeStep setup prefixStr

def appendFeatures (samples : List K) : Decoding K η Unit :=
  zoom (·.features) (fun features st => {st with features}) (appendSamples setup.logMel samples)

end Decoding

section Pushing
variable [Field K] [LinearOrder K] (setup : StreamSetup K η) (codec : AudioCodec K)

def decoding {α : Type} (x : Decoding K η α) : Pushing K η α :=
  zoom AsrStream.toDecodeState (fun decode st => {st with toDecodeState := decode}) x

/- The chunks in the buffer; every turn takes one sample at least. -/
def pushLoop : Nat → Option AsrTranscription → Pushing K η (Option AsrTranscription)
  | 0, out => pure out
  | fuel+1, out => do
    let st ← get
    if st.buffer.length-st.bufferOffset < setup.chunkSizeSamples then pure out else
    let endOffset := st.bufferOffset+setup.chunkSizeSamples
    if st.buffer.length < endOffset then throw "internal error: buffer slice out of bounds" else
    decoding (appendFeatures setup ((st.buffer.drop st.bufferOffset).take setup.chunkSizeSamples))
    modify ({· with bufferOffset := endOffset})
    let tx ← decoding (decodeWith setup (buildPrefix setup) (buildPrefixWindowed setup))
    pushLoop fuel (some tx)

def compacted (st : AsrStream K η) : AsrStream K η :=
  if 0 < st.bufferOffset then {st with buffer := st.buffer.drop st.bufferOffset, bufferOffset := 0} else st

def pushSamples (wav : List K) : Pushing K η (Option AsrTranscription) :=
  if wav = [] then pure none else do
  modify fun st => {st with buffer := st.buffer ++ wav}
  let st ← get
  if st.buffer.length < st.bufferOffset then
    throw s!"internal error: buffer_offset {st.bufferOffset} > buffer.len {st.buffer.length}"
  else
  let out ← pushLoop setup st.buffer.length none
  modify compacted
  pure out

def pushAudioChunk (chunk : AudioInput K) : Pushing K η (Option AsrTranscription) := do
  let wav ← attempt (normalizeAudioInput codec chunk)
  pushSamples setup wav

def finish : Pushing K η AsrTranscription := do
  let st ← get
  if st.buffer.length < st.bufferOffset then
    throw s!"internal error: buffer_offset {st.bufferOffset} > buffer.len {st.buffer.length}"
  else
  let tail := st.buffer.drop st.bufferOffset
  if tail = [] then pure (st.last.getD ⟨"",""⟩) else
  decoding (appendFeatures setup tail)
  modify ({· with buffer := [], bufferOffset := 0})
  let _ ← decoding (decodeWith setup (buildFinishPrefix setup) (buildFinishPrefixWindowed setup))
  let st ← get
  pure (st.last.getD ⟨"",""⟩)

def startStream : Except String (AsrStream K η) := do
  if setup.textWindowTokens = some 0 then .error "text_window_tokens must be > 0" else
  let rollingText := setup.textWindowTokens.map fun n => ⟨"",[],max n (max (saturatingAdd setup.unfixedTokenNum 1) 1)⟩
  .ok ⟨⟨⟨newExtractor,none⟩,0,"",rollingText,none,[]⟩,[],0⟩

end Pushing

end Qwen3Asr.Streaming
