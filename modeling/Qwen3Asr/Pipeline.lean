import Mathlib.Algebra.Order.Floor.Div
import Mathlib.Algebra.Order.Ring.Unbundled.Rat
import Mathlib.Data.List.Sort
import Qwen3Asr.Library.Word
import Qwen3Asr.MediaData

/-! The offline pipeline: voice activity is detected, merged and padded into slices for recognition,
and the annotations of each slice are shifted back. Detection and recognition are parameters. -/
namespace Qwen3Asr.Pipeline
open Library.Word MediaData

def ASR_VAD_CONTEXT_PAD_MS : Nat := 500
def FULL_WAVEFORM_COVERAGE_GAP_MS : Nat := 20

structure VadOptions where
  threshold : ℚ
  minSpeechMs : Nat
  minSilenceMs : Nat
  mergeMaxGapMs : Nat
  mergeMaxSegmentMs : Nat
  deriving DecidableEq, Repr

structure VadSegment where
  range : TimeRange
  probability : ℚ
  deriving DecidableEq, Repr

structure AsrModel (Options : Type) where
  transcribe : Waveform → Options → Except String Timeline
  transcribeBatch : List Waveform → Options → Except String (List Timeline)

structure OfflinePipeline (Options : Type) where
  vad : Option (Waveform → VadOptions → Except String (List VadSegment))
  asr : AsrModel Options

structure VadPrepared where
  speechAnnotations : List Annotation
  segments : List VadSegment
  slices : List Waveform
  deriving DecidableEq, Repr

inductive VadPreparation where
  | disabled
  | noSpeech
  | fullSpeech (speechAnnotations : List Annotation)
  | speech (prepared : VadPrepared)
  deriving DecidableEq, Repr

section Waveform

def frameCount (waveform : Waveform) : Nat :=
  if waveform.channels = 0 then 0 else waveform.samples.length/waveform.channels

/- The duration rounded up. A double holds it without an error while it holds a thousand times the frames. -/
def audioEnd (waveform : Waveform) : Nat :=
  if waveform.sampleRate = 0 ∨ waveform.channels = 0 then 0
  else (frameCount waveform*1000) ⌈/⌉ waveform.sampleRate

/- A slice index out of order panics. -/
def sliceMs (waveform : Waveform) (startMs endMs : Nat) : Except String Waveform :=
  if endMs ≤ startMs ∨ waveform.sampleRate = 0 ∨ waveform.channels = 0 then
    .ok {waveform with samples := []}
  else
    let startFrame := saturatingMul startMs waveform.sampleRate/1000
    let endFrame := min (saturatingMul endMs waveform.sampleRate ⌈/⌉ 1000) (frameCount waveform)
    let start := min (saturatingMul startFrame waveform.channels) waveform.samples.length
    let stop := min (saturatingMul endFrame waveform.channels) waveform.samples.length
    if stop < start then .error s!"slice index starts at {start} but ends at {stop}"
    else .ok {waveform with samples := (waveform.samples.drop start).take (stop-start)}

end Waveform

section Preparation

def mergeFrom (maxGapMs maxSegmentMs : Nat) (last : VadSegment) : List VadSegment → List VadSegment
  | [] => [last]
  | segment::segments =>
    let gap := segment.range.start-last.range.stop
    let mergedDuration := segment.range.stop-last.range.start
    if gap ≤ maxGapMs ∧ mergedDuration ≤ maxSegmentMs then
      mergeFrom maxGapMs maxSegmentMs
        ⟨⟨last.range.start,max last.range.stop segment.range.stop⟩,max last.probability segment.probability⟩ segments
    else last::mergeFrom maxGapMs maxSegmentMs segment segments

def Earlier (a b : VadSegment) : Prop :=
  a.range.start < b.range.start ∨ a.range.start = b.range.start ∧ a.range.stop ≤ b.range.stop

instance : DecidableRel Earlier := fun _ _ => inferInstanceAs (Decidable (_ ∨ _))

def mergeVadSegmentsForAsr (segments : List VadSegment) (maxGapMs maxSegmentMs : Nat) : List VadSegment :=
  if segments = [] ∨ maxGapMs = 0 ∨ maxSegmentMs = 0 then segments else
  match segments.insertionSort Earlier with
  | [] => []
  | first::rest => mergeFrom maxGapMs maxSegmentMs first rest

def paddedAsrRange (waveform : Waveform) (segment : VadSegment) : TimeRange where
  start := segment.range.start-ASR_VAD_CONTEXT_PAD_MS
  stop := min (saturatingAdd segment.range.stop ASR_VAD_CONTEXT_PAD_MS) (audioEnd waveform)

def coversFullWaveform (waveform : Waveform) : List VadSegment → Bool
  | [segment] => segment.range.start ≤ FULL_WAVEFORM_COVERAGE_GAP_MS ∧
      audioEnd waveform ≤ saturatingAdd segment.range.stop FULL_WAVEFORM_COVERAGE_GAP_MS
  | _ => false

def speechAnnotation (segment : VadSegment) : Annotation := ⟨segment.range,.final,.model "vad",none,.speech⟩

def asrSegments (waveform : Waveform) (vadOptions : VadOptions) (segments : List VadSegment) : List VadSegment :=
  (mergeVadSegmentsForAsr segments vadOptions.mergeMaxGapMs vadOptions.mergeMaxSegmentMs).map fun segment =>
    {segment with range := paddedAsrRange waveform segment}

variable {Options : Type} (pipeline : OfflinePipeline Options)

def prepareVadStage (waveform : Waveform) (vadOptions : VadOptions) : Except String VadPreparation := do
  match pipeline.vad with
  | none => .ok .disabled
  | some detect =>
    let segments ← detect waveform vadOptions
    if segments = [] then .ok .noSpeech else
    let speechAnnotations := segments.map speechAnnotation
    let asrSegments := asrSegments waveform vadOptions segments
    if coversFullWaveform waveform asrSegments then .ok (.fullSpeech speechAnnotations) else
    let slices ← asrSegments.mapM fun segment => sliceMs waveform segment.range.start segment.range.stop
    .ok (.speech ⟨speechAnnotations,asrSegments,slices⟩)

end Preparation

section Transcription

def offsetAnnotations (annotations : List Annotation) (offset : Nat) : List Annotation :=
  annotations.map fun a =>
    {a with range := ⟨saturatingAdd a.range.start offset,saturatingAdd a.range.stop offset⟩}

variable {Options : Type} (pipeline : OfflinePipeline Options)

/- Slices without a timeline of their own, and timelines without a slice, are dropped. -/
def transcribePrepared (prepared : VadPrepared) (options : Options) : Except String (List Annotation) := do
  let asrTimelines ← pipeline.asr.transcribeBatch prepared.slices options
  .ok (prepared.speechAnnotations ++ (prepared.segments.zip asrTimelines).flatMap fun (segment,asrTimeline) =>
    offsetAnnotations asrTimeline.annotations segment.range.start)

def transcribeWithVadOptions (waveform : Waveform) (options : Options) (vadOptions : VadOptions) : Except String Timeline := do
  let timeline := newTimeline "offline_audio"
  match ← prepareVadStage pipeline waveform vadOptions with
  | .speech prepared =>
    let annotations ← transcribePrepared pipeline prepared options
    .ok {timeline with annotations}
  | .fullSpeech speechAnnotations =>
    let asrTimeline ← pipeline.asr.transcribe waveform options
    .ok {timeline with annotations := speechAnnotations ++ asrTimeline.annotations}
  | .noSpeech => .ok timeline
  | .disabled =>
    let asrTimeline ← pipeline.asr.transcribe waveform options
    .ok {timeline with annotations := asrTimeline.annotations}

end Transcription

end Qwen3Asr.Pipeline
