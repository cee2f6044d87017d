import Qwen3Asr.PipelineOutcomes

/-! The timelines of a transcription in stages. As long as no segment overtakes one of its job that was stashed, a job
that succeeds has the timeline of the synchronous path. -/
namespace Qwen3Asr.PipelineTimelines
open Library.Lanes Library.Machine
open MediaData Pipeline TranscribeServer InputDedup TranscribeBatch SegmentLedger RecognitionLine
open TranscribePipeline PipelineLine PipelineProgress PipelineOutcomes

section Synchronous
variable {Options : Type} {pipeline : OfflinePipeline Options} {f : Waveform → Timeline} {prepared : VadPrepared} {index : Nat}

theorem assembledPrepared {options : Options}
    (heard : pipeline.asr.transcribeBatch prepared.slices options = .ok (prepared.slices.map f)) :
    transcribePrepared pipeline prepared options =
      .ok (assembled prepared.speechAnnotations f (speechSegments index prepared)).annotations := by
  have slices : ∀ (items : List (VadSegment × Waveform)) (n : Nat), (items.zipIdx n).flatMap (fun item =>
      offsetAnnotations (f item.1.2).annotations item.1.1.range.start) =
      items.flatMap fun item => offsetAnnotations (f item.2).annotations item.1.range.start := by
    intro items
    induction items with
    | nil => exact fun _ => rfl
    | cons item items ih => exact fun n => by simp [List.zipIdx_cons,ih]
  have heardIn : (speechSegments index prepared).flatMap (fun segment => offsetAnnotations (f segment.waveform).annotations segment.offset) =
      (prepared.segments.zip (prepared.slices.map f)).flatMap fun heard =>
        offsetAnnotations heard.2.annotations heard.1.range.start := by
    rw [speechSegments,List.flatMap_map,List.zip_map_right,List.flatMap_map]
    exact slices _ 0
  unfold transcribePrepared
  rw [heard]
  simp only [assembled,heardIn]
  rfl

theorem assembledSync {options : Options} {vadOptions : VadOptions} {waveform : Waveform}
    (stage : prepareVadStage pipeline waveform vadOptions = .ok (.speech prepared))
    (heard : pipeline.asr.transcribeBatch prepared.slices options = .ok (prepared.slices.map f)) :
    transcribeWithVadOptions pipeline waveform options vadOptions =
      .ok (assembled prepared.speechAnnotations f (speechSegments index prepared)) := by
  unfold transcribeWithVadOptions
  rw [stage]
  change (transcribePrepared pipeline prepared options >>= fun annotations =>
    Except.ok {newTimeline "offline_audio" with annotations}) = _
  rw [assembledPrepared heard]
  rfl

end Synchronous

section Runs
variable {Options : Type} {p : AsyncTranscribePipeline Options} {uniqueInputs : List TranscribeInput} {s : State}
  {actions : List (Action Options)} {f : Waveform → Timeline}

/- No segment overtakes another of its job. -/
def InStep (s : State) (action : Action Options) : Prop := ¬ Overtakes s action

theorem runInStep (distinct : (uniqueInputs.map TranscribeInput.index).Nodup) (heard : ∀ action ∈ actions, HeardIn (Pointwise f) p action)
    (inStep : Along (step p uniqueInputs.length) InStep (started uniqueInputs) actions)
    (ran : run (step p uniqueInputs.length) (started uniqueInputs) actions = some s) :
    Turns (fun xs ys => xs.Perm ys ∧ SameSegments xs ys) FitsIndex (Pointwise f) (opened (messagesOf p uniqueInputs)) (lineOf p s)
      (failedBatches p uniqueInputs actions) := by
  refine runTurns distinct (fun s action both => both.2) (fun s action both xs ys ordered => ?_) (alongBoth inStep heard) ran
  exact ⟨ordered.1,ordered.2 both.1⟩

theorem outcomeAnswered {outcome : TranscribeItemOutcome} (inside : outcome ∈ s.outcomes) :
    outcome.result ∈ resultsFor outcome.index (lineOf p s).answered := by
  have given : answerOf outcome ∈ (lineOf p s).answered := by simp [lineOf,List.mem_map_of_mem inside]
  exact List.mem_map.mpr ⟨answerOf outcome,memLane.mpr ⟨given,rfl⟩,rfl⟩

/-- In a run whose segments overtake none of their job that is stashed, every job with segments that succeeds has the
timeline of the synchronous path. -/
theorem timelinesInOrder (p : AsyncTranscribePipeline Options) (f : Waveform → Timeline) (uniqueInputs : List TranscribeInput)
    (distinct : (uniqueInputs.map TranscribeInput.index).Nodup) (actions : List (Action Options)) (s : State)
    (heard : ∀ action ∈ actions, HeardIn (Pointwise f) p action)
    (inStep : Along (step p uniqueInputs.length) InStep (started uniqueInputs) actions)
    (ran : run (step p uniqueInputs.length) (started uniqueInputs) actions = some s) :
    ∀ outcome ∈ s.outcomes, ∀ timeline, outcome.result = .ok timeline →
      ∀ input ∈ uniqueInputs, input.index = outcome.index → ∀ waveform prepared, p.load input.source = .ok waveform →
        prepareVadStage p.offline waveform p.vadOptions = .ok (.speech prepared) →
        ∀ asr : AsrModel Options, asr.transcribeBatch prepared.slices p.asrOptions = .ok (prepared.slices.map f) →
          transcribeWithVadOptions {p.offline with asr} waveform p.asrOptions p.vadOptions = .ok timeline := by
  intro outcome inside timeline ok input there same waveform prepared load stage asr slices
  have turns := runInStep distinct heard inStep ran
  have fed := feedInside (p := p) distinct there
  have answered := outcomeAnswered (p := p) inside
  rw [ok,← same] at answered
  have split : inputGroup p input = (speechSegments input.index prepared).map segmentMessage := by
    simp [inputGroup,loaderMessage,load,loadedGroup,vadMessages,stage,speechCut input.index waveform (preparedSpeech stage).2]
  have feed : Feed input.index prepared.speechAnnotations (speechSegments input.index prepared) :=
    speechFeed (preparedSpeech stage).1 (preparedSpeech stage).2
  rw [split] at fed
  have inOrder := turnsInOrder fitsIndex turns feed fed
  have owed := turnsOwed fitsIndex (turnsSame turns fun _ _ both => both.1) feed.some_ fed feed.count
  rw [inOrderTimeline inOrder owed answered]
  exact @assembledSync _ {p.offline with asr} f prepared input.index _ _ _ stage slices

theorem alongNone {capacity : Nat} (none_ : Action.takeMessage ∉ actions) : Along (step p capacity) InStep s actions := by
  induction actions generalizing s with
  | nil => trivial
  | cons action actions ih =>
    rw [List.mem_cons,not_or] at none_
    refine ⟨?_,fun t _ => ih none_.2⟩
    cases action <;> first | exact absurd rfl none_.1 | exact id

def threeSegments : List VadSegment := [⟨⟨1000,2000⟩,1⟩,⟨⟨6000,7000⟩,1⟩,⟨⟨11000,12000⟩,1⟩]

def heardWord (_ : Waveform) : Timeline := {newTimeline "asr" with annotations := [⟨⟨0,1000⟩,.final,.model "asr",none,.speech⟩]}

def wordModel : AsrModel Unit := ⟨fun waveform _ => .ok (heardWord waveform),fun waveforms _ => .ok (waveforms.map heardWord)⟩

def staged (stageBuffer : Nat) (positive : 0 < stageBuffer) : AsyncTranscribePipeline Unit where
  load source := match source with
    | .waveform waveform => .ok waveform
    | _ => .error "not found"
  offline := ⟨some fun waveform _ => .ok (if waveform.samples.isEmpty then [] else threeSegments),wordModel⟩
  asrOptions := ()
  vadOptions := ⟨1/2,0,0,0,0⟩
  stageBuffer
  positive

def spoken : Waveform := ⟨[0,0,1,0,0,0,1,0,0,0,0,1,0,0,0],1,1⟩

theorem spokenStage : prepareVadStage (staged 1 (by decide)).offline spoken (staged 1 (by decide)).vadOptions =
    .ok (.speech ⟨threeSegments.map speechAnnotation,asrSegments spoken ⟨1/2,0,0,0,0⟩ threeSegments,
      [⟨[0,0,1],1,1⟩,⟨[0,1,0],1,1⟩,⟨[0,1,0],1,1⟩]⟩) := by decide +kernel

def threeInputs : List TranscribeInput := [⟨0,.waveform ⟨[],1,1⟩⟩,⟨1,.waveform spoken⟩,⟨2,.url "missing"⟩]

theorem wordsHeard {words : List (Action Unit)} {p : AsyncTranscribePipeline Unit}
    (only : ∀ action ∈ words, ∀ asr, action = .runBatch asr → asr = wordModel) :
    ∀ action ∈ words, HeardIn (Pointwise heardWord) p action := by
  intro action inside
  cases action with
  | runBatch asr =>
    intro segments timelines ok _
    rw [only _ inside asr rfl] at ok
    cases ok
    rw [List.map_map]
    rfl
  | _ => trivial

def oneByOne : List (Action Unit) :=
  [.spawnLoaderTask,.joinLoaderTask 0,.sendLoaded,.receiveLoaded,.prepareVad 0,.sendMessage 0,.recvAsrMessage,
    .runBatch wordModel,.sendResult,.recvResult,.joinVadTask 0,.spawnLoaderTask,.joinLoaderTask 0,.sendLoaded,.receiveLoaded,.prepareVad 0,
    .sendMessage 0,.recvAsrMessage,.runBatch wordModel,.sendMessage 0,.recvAsrMessage,.runBatch wordModel,
    .sendMessage 0,.recvAsrMessage,.runBatch wordModel,.sendResult,.recvResult]

theorem timelinesInOrderOne : ∃ s timeline, run (step (staged 1 (by decide)) 3) (started threeInputs) oneByOne = some s ∧
    ⟨1,.ok timeline,none⟩ ∈ s.outcomes ∧
    transcribeWithVadOptions (staged 1 (by decide)).offline spoken () ⟨1/2,0,0,0,0⟩ = .ok timeline := by
  have ends : (run (step (staged 1 (by decide)) 3) (started threeInputs) oneByOne).isSome := rfl
  obtain ⟨s,ran⟩ := Option.isSome_iff_exists.mp ends
  have handed : ∃ timeline, (⟨1,.ok timeline,none⟩ : TranscribeItemOutcome) ∈ ((run (step (staged 1 (by decide)) 3)
      (started threeInputs) oneByOne).get ends).outcomes := ⟨_,List.mem_cons_of_mem _ List.mem_cons_self⟩
  obtain ⟨timeline,inside⟩ := handed
  simp only [ran,Option.get_some] at inside
  refine ⟨s,timeline,ran,inside,?_⟩
  exact timelinesInOrder (staged 1 (by decide)) heardWord threeInputs (by decide) oneByOne s
    (wordsHeard (by simp [oneByOne])) (alongNone (by simp [oneByOne])) ran _ inside timeline rfl ⟨1,.waveform spoken⟩
    (by simp [threeInputs]) rfl spoken _ rfl spokenStage wordModel rfl

/- The second segment is stashed behind the first, and the third is taken from the channel ahead of it. -/
def overtaking : List (Action Unit) :=
  [.spawnLoaderTask,.spawnLoaderTask,.joinLoaderTask 0,.sendLoaded,.receiveLoaded,
    .spawnLoaderTask,.joinLoaderTask 0,.sendLoaded,.receiveLoaded,.prepareVad 0,.sendMessage 0,.recvAsrMessage,
    .prepareVad 1,.sendMessage 1,.takeMessage,.sendMessage 1,.takeMessage,.joinVadTask 0,.joinLoaderTask 0,.sendLoaded,
    .receiveLoaded,.forwardOutcome,.takeMessage,.sendResult,.runBatch wordModel,.sendResult,.recvAsrMessage,.sendMessage 0,
    .takeMessage,.runBatch wordModel,.recvAsrMessage,.joinVadTask 0,.stopCollecting,.runBatch wordModel,.sendResult,
    .recvResult,.recvResult,.recvResult,.finishAsr]

theorem segmentsOvertaken : ∃ s timeline, run (step (staged 2 (by decide)) 3) (started threeInputs) overtaking = some s ∧
    Complete s ∧ ⟨1,.ok timeline,none⟩ ∈ s.outcomes ∧ (∀ action ∈ overtaking, HeardIn (Pointwise heardWord) (staged 2 (by decide)) action) ∧
    transcribeWithVadOptions (staged 2 (by decide)).offline spoken () ⟨1/2,0,0,0,0⟩ ≠ .ok timeline := by
  refine ⟨_,_,rfl,rfl,List.mem_cons_of_mem _ (List.mem_cons_of_mem _ List.mem_cons_self),wordsHeard (by simp [overtaking]),?_⟩
  decide +kernel

end Runs

end Qwen3Asr.PipelineTimelines
