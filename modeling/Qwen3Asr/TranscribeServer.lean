import Qwen3Asr.MediaData

/-! The HTTP handler of `/transcribe`. The pipeline behind it is a parameter; the measured
times and the throughput computed from them are left out. -/
namespace Qwen3Asr.TranscribeServer
open MediaData

inductive AudioSource where
  | path (path : String)
  | url (url : String)
  | base64 (encoded : String)
  | bytes (bytes : List Nat)
  | waveform (waveform : Waveform)
  deriving DecidableEq, Repr

structure AudioInputDto where
  url : Option String
  b64Str : Option String
  deriving DecidableEq, Repr

structure TranscribeInput where
  index : Nat
  source : AudioSource
  deriving DecidableEq, Repr

structure TranscribeItemOutcome where
  index : Nat
  result : Except String Timeline
  badComponent : Option String

structure TextResult where
  mono : String
  left : String
  right : String
  deriving DecidableEq, Repr, Inhabited

structure SentenceResult where
  text : String
  startTime : Nat
  endTime : Nat
  duration : Nat
  channel : String
  sentenceIndex : Nat
  deriving DecidableEq, Repr

structure SpentDetails where
  loader : ℚ
  detector : ℚ
  recognizer : ℚ
  sentencizer : ℚ
  deriving DecidableEq, Repr, Inhabited

structure InferenceData where
  serviceId : String
  spentSeconds : ℚ
  spentDetails : SpentDetails
  text : TextResult
  sentences : List SentenceResult
  isBad : Bool
  badReason : Option String
  badComponent : Option String
  deriving DecidableEq, Repr

def fromTimeline (serviceId : String) (timeline : Timeline) : InferenceData where
  serviceId
  spentSeconds := 0
  spentDetails := ⟨0,0,0,0⟩
  text := ⟨(transcript timeline).text,"",""⟩
  sentences :=
    let found := (finalAnnotations timeline).filterMap fun noted =>
      (textSegment noted.payload).map fun segment => (noted.range,segment)
    found.zipIdx.map fun ((range,segment),sentenceIndex) =>
      ⟨segment.text,range.start,range.stop,range.duration,"mono",sentenceIndex⟩
  isBad := false
  badReason := none
  badComponent := none

def errorData (component reason : String) : InferenceData where
  serviceId := ""
  spentSeconds := 0
  spentDetails := ⟨0,0,0,0⟩
  text := ⟨"","",""⟩
  sentences := []
  isBad := true
  badReason := some reason
  badComponent := some component

def validationError : InferenceData := errorData "loader" "必须提供 url 或 b64_str 之一"

def sourceOf (input : AudioInputDto) : Option AudioSource := match input.url with
  | some url => some (.url url)
  | none => input.b64Str.map .base64

/- The loop over the request: the inputs with a source keep their index, an input without
one leaves an error. -/
def validate (index : Nat) : List AudioInputDto → List TranscribeInput × List InferenceData
  | [] => ([],[])
  | input::rest =>
    let (inputs,errors) := validate (index+1) rest
    match sourceOf input with
    | some source => (⟨index,source⟩::inputs,errors)
    | none => (inputs,validationError::errors)

def outcomeData (outcome : TranscribeItemOutcome) : InferenceData := match outcome.result with
  | .ok timeline => fromTimeline "" timeline
  | .error reason => errorData (outcome.badComponent.getD "recognizer") reason

abbrev TranscribeMany := List TranscribeInput → List TranscribeItemOutcome

def handleTranscribe (transcribeMany : TranscribeMany) (inputs : List AudioInputDto) : List InferenceData :=
  let (valid,validationErrors) := validate 0 inputs
  validationErrors ++ (transcribeMany valid).map outcomeData

/- What the handler relies on: one outcome for every input given, in their order. -/
def OnePerInput (transcribeMany : TranscribeMany) : Prop :=
  ∀ inputs, (transcribeMany inputs).map TranscribeItemOutcome.index = inputs.map TranscribeInput.index

def Answers (transcribeMany : TranscribeMany) (inputs : List AudioInputDto) (i : Nat) (data : InferenceData) : Prop :=
  match inputs[i]? with
  | none => False
  | some input => match sourceOf input with
    | none => data = validationError
    | some _ => ∃ outcome ∈ transcribeMany (validate 0 inputs).1, outcome.index = i ∧ data = outcomeData outcome

def InRequestOrder (transcribeMany : TranscribeMany) (inputs : List AudioInputDto) (data : List InferenceData) : Prop :=
  data.length = inputs.length ∧ ∀ i entry, data[i]? = some entry → Answers transcribeMany inputs i entry

def SourcelessFirst (inputs : List AudioInputDto) : Prop :=
  inputs.Pairwise fun earlier later => (sourceOf earlier).isSome → (sourceOf later).isSome

instance (inputs : List AudioInputDto) : Decidable (SourcelessFirst inputs) :=
  inferInstanceAs (Decidable (List.Pairwise _ _))

theorem validateParts (index : Nat) (inputs : List AudioInputDto) :
    (validate index inputs).2 = List.replicate (inputs.countP (sourceOf · = none)) validationError ∧
    (validate index inputs).1.length = inputs.countP (sourceOf · ≠ none) := by
  induction inputs generalizing index with
  | nil => exact ⟨rfl,rfl⟩
  | cons input rest ih =>
    obtain ⟨errors,valid⟩ := ih (index+1)
    unfold validate
    dsimp only
    cases found : sourceOf input <;> simp [found,errors,valid,List.replicate_succ]

theorem validateSorted {inputs : List AudioInputDto} (sorted : SourcelessFirst inputs) (index : Nat) :
    (validate index inputs).1.map TranscribeInput.index =
      (List.range' index inputs.length).drop (inputs.countP (sourceOf · = none)) := by
  induction inputs generalizing index with
  | nil => rfl
  | cons input rest ih =>
    obtain ⟨first,sorted⟩ := List.pairwise_cons.mp sorted
    have tail := ih sorted (index+1)
    unfold validate
    dsimp only
    cases found : sourceOf input with
    | none => simpa [found,List.range'_succ] using tail
    | some source =>
      have none : rest.countP (sourceOf · = none) = 0 := by
        rw [List.countP_eq_zero]
        intro later inside missing
        have := first later inside (by simp [found])
        simp_all
      rw [none] at tail
      simpa [found,none,List.range'_succ] using tail

theorem sourceAt {inputs : List AudioInputDto} (sorted : SourcelessFirst inputs) {i : Nat} {input : AudioInputDto}
    (found : inputs[i]? = some input) : sourceOf input = none ↔ i < inputs.countP (sourceOf · = none) := by
  induction inputs generalizing i with
  | nil => cases found
  | cons first rest ih =>
    obtain ⟨later,sorted⟩ := List.pairwise_cons.mp sorted
    cases here : sourceOf first with
    | none =>
      cases i with
      | zero => cases found; simp [here]
      | succ i => simpa [here] using ih sorted found
    | some source =>
      have all : ∀ input ∈ first::rest, sourceOf input ≠ none := by
        intro input inside missing
        rcases List.mem_cons.mp inside with rfl | inside
        · rw [here] at missing
          cases missing
        · have present := later input inside (by rw [here]; rfl)
          rw [missing] at present
          cases present
      have none : (first::rest).countP (sourceOf · = none) = 0 :=
        List.countP_eq_zero.mpr fun input inside => by simpa using all input inside
      have own := all input (List.mem_of_getElem? found)
      rw [none]
      simp [own]

theorem responseAt (transcribeMany : TranscribeMany) (inputs : List AudioInputDto) :
    handleTranscribe transcribeMany inputs =
      List.replicate (inputs.countP (sourceOf · = none)) validationError ++
        (transcribeMany (validate 0 inputs).1).map outcomeData := by
  rw [← (validateParts 0 inputs).1]
  rfl

theorem responseLength {transcribeMany : TranscribeMany} (each : OnePerInput transcribeMany)
    (inputs : List AudioInputDto) : (handleTranscribe transcribeMany inputs).length = inputs.length := by
  have answered := congrArg List.length (each (validate 0 inputs).1)
  rw [List.length_map,List.length_map,(validateParts 0 inputs).2] at answered
  rw [responseAt,List.length_append,List.length_replicate,List.length_map,answered]
  have split := List.length_eq_countP_add_countP (sourceOf · = none) (l := inputs)
  simpa using split.symm

theorem sortedInOrder {transcribeMany : TranscribeMany} (each : OnePerInput transcribeMany)
    {inputs : List AudioInputDto} (sorted : SourcelessFirst inputs) :
    InRequestOrder transcribeMany inputs (handleTranscribe transcribeMany inputs) := by
  refine ⟨responseLength each inputs,fun i entry found => ?_⟩
  have bound : i < inputs.length := by
    rw [← responseLength each inputs]
    exact (List.getElem?_eq_some_iff.mp found).1
  have input := List.getElem?_eq_getElem bound
  have source := sourceAt sorted input
  unfold Answers
  rw [input]
  rw [responseAt] at found
  dsimp only
  by_cases early : i < inputs.countP (sourceOf · = none)
  · rw [List.getElem?_append_left (by simpa using early)] at found
    rw [source.mpr early]
    exact List.eq_of_mem_replicate (List.mem_of_getElem? found)
  · rw [List.getElem?_append_right (by simpa using Nat.le_of_not_lt early),List.length_replicate] at found
    obtain ⟨outcome,place,rfl⟩ := by simpa using found
    have index := congrArg (·[i-inputs.countP (sourceOf · = none)]?) ((each _).trans (validateSorted sorted 0))
    have later : inputs.countP (sourceOf · = none)+(i-inputs.countP (sourceOf · = none)) = i := by omega
    simp only [List.getElem?_map,place,List.getElem?_drop,later,List.getElem?_range' bound] at index
    obtain ⟨_,present⟩ := Option.ne_none_iff_exists'.mp (mt source.mp early)
    rw [present]
    exact ⟨outcome,List.mem_of_getElem? place,by simpa using index,rfl⟩

def silent : TranscribeMany := fun inputs => inputs.map fun input => ⟨input.index,.ok (newTimeline ""),none⟩

theorem silentEach : OnePerInput silent := by
  intro inputs
  rw [silent,List.map_map]
  rfl

theorem silentAt {inputs : List AudioInputDto} {i : Nat} {entry : InferenceData}
    (found : (handleTranscribe silent inputs)[i]? = some entry) :
    entry.isBad = true ↔ i < inputs.countP (sourceOf · = none) := by
  rw [responseAt] at found
  by_cases early : i < inputs.countP (sourceOf · = none)
  · rw [List.getElem?_append_left (by simpa using early)] at found
    obtain rfl := List.eq_of_mem_replicate (List.mem_of_getElem? found)
    exact iff_of_true rfl early
  · rw [List.getElem?_append_right (by simpa using Nat.le_of_not_lt early)] at found
    have member := List.mem_of_getElem? found
    simp only [silent,List.map_map,List.mem_map] at member
    obtain ⟨_,_,rfl⟩ := member
    exact iff_of_false Bool.false_ne_true early

theorem inOrderSorted {inputs : List AudioInputDto}
    (ordered : InRequestOrder silent inputs (handleTranscribe silent inputs)) : SourcelessFirst inputs := by
  obtain ⟨length,answers⟩ := ordered
  have entryAt (i : Nat) (bound : i < inputs.length) : ∃ entry, Answers silent inputs i entry ∧
      (entry.isBad = true ↔ i < inputs.countP (sourceOf · = none)) := by
    have found := List.getElem?_eq_getElem (show i < (handleTranscribe silent inputs).length by omega)
    exact ⟨_,answers i _ found,silentAt found⟩
  refine List.pairwise_iff_getElem.mpr fun i j before bound less present => ?_
  obtain ⟨first,firstAnswers,firstBad⟩ := entryAt i before
  obtain ⟨second,secondAnswers,secondBad⟩ := entryAt j bound
  obtain ⟨source,some⟩ := Option.isSome_iff_exists.mp present
  cases missing : sourceOf inputs[j] with
  | some source => rfl
  | none =>
    simp only [Answers,List.getElem?_eq_getElem bound,missing] at secondAnswers
    simp only [Answers,List.getElem?_eq_getElem before,some] at firstAnswers
    obtain ⟨outcome,member,_,rfl⟩ := firstAnswers
    have good : (outcomeData outcome).isBad = false := by
      obtain ⟨_,_,rfl⟩ := List.mem_map.mp member
      rfl
    rw [good] at firstBad
    rw [secondAnswers] at secondBad
    have late := mt firstBad.mpr Bool.false_ne_true
    have early := secondBad.mp rfl
    omega

/-- The response keeps the order of the request, whatever the pipeline answers, exactly for the
requests whose inputs without a source come first; its length is always that of the request. -/
theorem responseOrder (inputs : List AudioInputDto) :
    (∀ transcribeMany, OnePerInput transcribeMany →
      (handleTranscribe transcribeMany inputs).length = inputs.length) ∧
    ((∀ transcribeMany, OnePerInput transcribeMany →
      InRequestOrder transcribeMany inputs (handleTranscribe transcribeMany inputs)) ↔ SourcelessFirst inputs) :=
  ⟨fun _ each => responseLength each inputs,fun ordered => inOrderSorted (ordered silent silentEach),
    fun sorted _ each => sortedInOrder each sorted⟩

/- A url and then an empty input: the error of the second is the answer to the first. -/
theorem errorsComeFirst : OnePerInput silent ∧
    (handleTranscribe silent [⟨some "a.wav",none⟩,⟨none,none⟩])[0]? = some validationError ∧
    ¬ InRequestOrder silent [⟨some "a.wav",none⟩,⟨none,none⟩]
      (handleTranscribe silent [⟨some "a.wav",none⟩,⟨none,none⟩]) := by
  refine ⟨silentEach,rfl,fun ordered => ?_⟩
  have sorted := inOrderSorted ordered
  revert sorted
  decide

end Qwen3Asr.TranscribeServer
