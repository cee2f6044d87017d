import Mathlib.Data.List.Sort
import Mathlib.Data.Rat.Defs

/-! Waveforms, annotations and timelines: the data the pipelines hand on. Milliseconds are
naturals below 2^64; generated ids are left out. -/
namespace Qwen3Asr.MediaData

structure Waveform where
  samples : List ℚ
  sampleRate : Nat
  channels : Nat
  deriving DecidableEq, Repr

structure TimeRange where
  start : Nat
  stop : Nat
  deriving DecidableEq, Repr

def TimeRange.duration (range : TimeRange) : Nat := range.stop-range.start

inductive AnnotationStatus where
  | partialResult | final | revised | deleted
  deriving DecidableEq, Repr

inductive AnnotationSource where
  | user
  | model (name : String)
  | stage (name : String)
  | system
  deriving DecidableEq, Repr

structure Token where
  text : String
  range : Option TimeRange
  confidence : Option ℚ
  deriving DecidableEq, Repr

structure TextSegment where
  text : String
  tokens : List Token
  language : Option String
  deriving DecidableEq, Repr

structure HotwordMatch where
  text : String
  normalized : Option String
  deriving DecidableEq, Repr

structure Diagnostic where
  code : String
  message : String
  component : Option String
  deriving DecidableEq, Repr

inductive AnnotationPayload where
  | speech
  | silence
  | token (token : Token)
  | segment (segment : TextSegment)
  | sentence (segment : TextSegment)
  | speaker (id : String)
  | language (tag : String)
  | hotword (found : HotwordMatch)
  | acousticEvent (label : String)
  | diagnostic (diagnostic : Diagnostic)
  deriving DecidableEq, Repr

structure Annotation where
  range : TimeRange
  status : AnnotationStatus
  source : AnnotationSource
  confidence : Option ℚ
  payload : AnnotationPayload
  deriving DecidableEq, Repr

structure Timeline where
  mediaId : String
  duration : Option Nat
  annotations : List Annotation
  deriving DecidableEq, Repr

def newTimeline (mediaId : String) : Timeline := ⟨mediaId,none,[]⟩

structure Transcript where
  text : String
  language : Option String
  segments : List TextSegment
  deriving DecidableEq, Repr

def isWhitespace (c : Char) : Bool :=
  let n := c.toNat
  (9 ≤ n ∧ n ≤ 13) ∨ n = 0x20 ∨ n = 0x85 ∨ n = 0xA0 ∨ n = 0x1680 ∨ (0x2000 ≤ n ∧ n ≤ 0x200A) ∨ n = 0x2028 ∨
    n = 0x2029 ∨ n = 0x202F ∨ n = 0x205F ∨ n = 0x3000

def trim (text : String) : String :=
  String.ofList ((text.toList.dropWhile isWhitespace).reverse.dropWhile isWhitespace).reverse

def textSegment : AnnotationPayload → Option TextSegment
  | .segment segment => some segment
  | .sentence segment => some segment
  | _ => none

def finalAnnotations (timeline : Timeline) : List Annotation :=
  timeline.annotations.filter (·.status = .final)

/- Final texts in the order of their starts; equal starts keep their order. -/
def transcript (timeline : Timeline) : Transcript :=
  let found := (finalAnnotations timeline).filterMap fun noted =>
    (textSegment noted.payload).map fun segment => (noted.range.start,segment)
  let segments := (found.insertionSort fun a b => a.1 ≤ b.1).map Prod.snd
  let texts := (segments.map fun segment => trim segment.text).filter (· ≠ "")
  ⟨" ".intercalate texts,segments.findSome? TextSegment.language,segments⟩

end Qwen3Asr.MediaData
