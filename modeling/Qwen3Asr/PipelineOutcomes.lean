import Qwen3Asr.PipelineProgress

/-! The outcomes of a transcription in stages. An input whose segments fail in several batches is answered once
for each of them; every other input is answered once. -/
namespace Qwen3Asr.PipelineOutcomes
open Library Library.Effect Library.Lanes Library.Machine
open MediaData Pipeline TranscribeServer InputDedup TranscribeBatch SegmentLedger RecognitionLine TranscribePipeline PipelineLine PipelineProgress

section Feeds
variable {Options : Type} {p : AsyncTranscribePipeline Options} {input : TranscribeInput}

theorem mergeSome (maxGapMs maxSegmentMs : Nat) (last : VadSegment) (segments : List VadSegment) :
    mergeFrom maxGapMs maxSegmentMs last segments ≠ [] := by
  induction segments generalizing last with
  | nil => simp [mergeFrom]
  | cons segment segments ih =>
    unfold mergeFrom
    dsimp only
    split
    · exact ih _
    · simp

theorem asrSegmentsSome {waveform : Waveform} {vadOptions : VadOptions} {segments : List VadSegment} (some_ : segments ≠ []) :
    asrSegments waveform vadOptions segments ≠ [] := by
  unfold asrSegments mergeVadSegmentsForAsr
  rw [Ne,List.map_eq_nil_iff]
  split
  · exact some_
  · split
    · next none_ =>
      have lengths := congrArg List.length none_
      rw [List.length_insertionSort] at lengths
      exact absurd (List.length_eq_zero_iff.mp lengths) some_
    · exact mergeSome _ _ _ _

theorem preparedSpeech {pipeline : OfflinePipeline Options} {waveform : Waveform} {vadOptions : VadOptions} {prepared : VadPrepared}
    (ok : prepareVadStage pipeline waveform vadOptions = .ok (.speech prepared)) :
    prepared.segments ≠ [] ∧ prepared.segments.length = prepared.slices.length := by
  unfold prepareVadStage at ok
  split at ok
  · cases ok
  · next detect _ =>
    obtain ⟨segments,_,ok⟩ := exceptBind.mp ok
    split at ok
    · cases ok
    · next none_ =>
      dsimp only at ok
      split at ok
      · cases ok
      · obtain ⟨slices,cut,made⟩ := exceptBind.mp ok
        cases made
        exact ⟨asrSegmentsSome none_,(exceptMapM.mp cut).length_eq⟩

def speechSegments (index : Nat) (prepared : VadPrepared) : List AsrSegmentJob :=
  (prepared.segments.zip prepared.slices).zipIdx.map fun ((segment,waveform),segmentIndex) =>
    ⟨index,if segmentIndex = 0 then prepared.speechAnnotations else [],segmentIndex,prepared.segments.length,
      segment.range.start,waveform⟩

theorem speechCut (index : Nat) (waveform : Waveform) {prepared : VadPrepared} (same : prepared.segments.length = prepared.slices.length) :
    speechJobToSegments ⟨index,.speech prepared,waveform⟩ = .ok (speechSegments index prepared) := by
  simp [speechJobToSegments,same,speechSegments]

theorem speechAt {index n : Nat} {prepared : VadPrepared} {segment : AsrSegmentJob}
    (found : (speechSegments index prepared)[n]? = some segment) :
    segment.speechAnnotations = if n = 0 then prepared.speechAnnotations else [] := by
  rw [speechSegments,List.getElem?_map] at found
  obtain ⟨item,there,rfl⟩ := Option.map_eq_some_iff.mp found
  rw [List.getElem?_zipIdx] at there
  obtain ⟨_,_,rfl⟩ := Option.map_eq_some_iff.mp there
  simp

theorem speechFeed {index : Nat} {prepared : VadPrepared} (some_ : prepared.segments ≠ [])
    (same : prepared.segments.length = prepared.slices.length) :
    Feed index prepared.speechAnnotations (speechSegments index prepared) := by
  have length : (speechSegments index prepared).length = prepared.segments.length := by simp [speechSegments,← same]
  refine ⟨fun none_ => ?_,fun segment inside => ?_,fun segment inside => ?_,fun segment found => ?_,fun segment inside => ?_⟩
  · rw [none_] at length
    exact some_ (List.length_eq_zero_iff.mp length.symm)
  · obtain ⟨_,_,rfl⟩ := List.mem_map.mp inside
    rfl
  · rw [length]
    obtain ⟨_,_,rfl⟩ := List.mem_map.mp inside
    rfl
  · rw [List.head?_eq_getElem?] at found
    exact speechAt found
  · obtain ⟨n,found⟩ := List.mem_iff_getElem?.mp inside
    rw [List.getElem?_tail] at found
    exact speechAt found

theorem vadIndex {job : LoadedJob} : ∀ message ∈ vadMessages p job, messageIndex message = job.index := by
  unfold vadMessages
  intro message inside
  split at inside
  · rw [List.mem_singleton.mp inside]
    rfl
  · next prepared _ =>
    split at inside
    · next segments cut =>
      simp only [speechJobToSegments] at cut
      split_ifs at cut
      cases cut
      simp only [List.mem_map] at inside
      obtain ⟨_,⟨_,_,rfl⟩,rfl⟩ := inside
      rfl
    · rw [List.mem_singleton.mp inside]
      rfl
  · rw [List.mem_singleton.mp inside]
    rfl

theorem inputIndex : ∀ message ∈ inputGroup p input, messageIndex message = input.index := by
  unfold inputGroup loaderMessage
  cases p.load input.source with
  | error error => exact fun message inside => by rw [List.mem_singleton.mp inside]; rfl
  | ok waveform => exact vadIndex

theorem inputFeed (p : AsyncTranscribePipeline Options) (input : TranscribeInput) : (∃ message, inputGroup p input = [message] ∧ Direct message ∧
      ∀ job, message = jobMessage job → ¬ IsSpeech job) ∨
    ∃ waveform prepared, p.load input.source = .ok waveform ∧
      prepareVadStage p.offline waveform p.vadOptions = .ok (.speech prepared) ∧
      inputGroup p input = (speechSegments input.index prepared).map segmentMessage ∧
      Feed input.index prepared.speechAnnotations (speechSegments input.index prepared) := by
  unfold inputGroup loaderMessage
  cases p.load input.source with
  | error error => exact .inl ⟨_,rfl,trivial,fun _ wrong => nomatch wrong⟩
  | ok waveform =>
    dsimp only [loadedGroup]
    unfold vadMessages
    cases stage : prepareVadStage p.offline waveform p.vadOptions with
    | error error => exact .inl ⟨_,rfl,trivial,fun _ wrong => nomatch wrong⟩
    | ok preparation =>
      cases preparation with
      | speech prepared =>
        obtain ⟨some_,same⟩ := preparedSpeech stage
        simp only [speechCut input.index waveform same]
        exact .inr ⟨waveform,prepared,rfl,stage,rfl,speechFeed some_ same⟩
      | disabled => exact .inl ⟨_,rfl,trivial,fun job same => by cases same; rintro ⟨_,wrong⟩; cases wrong⟩
      | noSpeech => exact .inl ⟨_,rfl,trivial,fun job same => by cases same; rintro ⟨_,wrong⟩; cases wrong⟩
      | fullSpeech _ => exact .inl ⟨_,rfl,trivial,fun job same => by cases same; rintro ⟨_,wrong⟩; cases wrong⟩

end Feeds

section Runs
variable {Options : Type} {p : AsyncTranscribePipeline Options} {capacity : Nat} {uniqueInputs : List TranscribeInput} {s t : State}
  {actions : List (Action Options)}

def messagesOf (p : AsyncTranscribePipeline Options) (uniqueInputs : List TranscribeInput) : List Message :=
  (uniqueInputs.map (inputGroup p)).flatten

theorem lineStarted : lineOf p (started uniqueInputs) = opened (messagesOf p uniqueInputs) := rfl

theorem readyStarted (distinct : (uniqueInputs.map TranscribeInput.index).Nodup) : Ready p (started uniqueInputs) where
  apart := List.pairwise_cons.mpr ⟨fun _ _ _ none_ => (by cases none_),apartGroups (fun _ => inputIndex) distinct⟩
  whole job inside := by
    rw [lineStarted] at inside
    obtain ⟨group,there,held⟩ := List.mem_flatten.mp inside
    obtain ⟨input,_,rfl⟩ := List.mem_map.mp there
    rcases inputFeed p input with ⟨message,alone,_,whole⟩ | ⟨_,_,_,_,split,_⟩
    · rw [alone,List.mem_singleton] at held
      exact whole job held.symm
    · rw [split] at held
      obtain ⟨_,_,wrong⟩ := List.mem_map.mp held
      cases wrong
  keyed _ _ none_ := nomatch none_

def failedBatches (p : AsyncTranscribePipeline Options) (uniqueInputs : List TranscribeInput) (actions : List (Action Options)) :
    List (List Nat) :=
  observed (step p uniqueInputs.length) (failing p) (started uniqueInputs) actions

/-- A run of the stages is a run of the line. -/
theorem runTurns {Same : List Message → List Message → Prop} {Heard : List AsrSegmentJob → Except String (List Timeline) → Prop}
    {allowed : State → Action Options → Prop} (distinct : (uniqueInputs.map TranscribeInput.index).Nodup)
    (heard : ∀ s action, allowed s action → HeardIn Heard p action)
    (same : ∀ s action, allowed s action → ∀ xs ys, Ordered (Overtakes s action) xs ys → Same xs ys)
    (along : Along (step p uniqueInputs.length) allowed (started uniqueInputs) actions)
    (ran : run (step p uniqueInputs.length) (started uniqueInputs) actions = some s) :
    Turns Same FitsIndex Heard (opened (messagesOf p uniqueInputs)) (lineOf p s) (failedBatches p uniqueInputs actions) := by
  have whole := invariantObserved
    (fun s seen => Ready p s ∧ Turns Same FitsIndex Heard (opened (messagesOf p uniqueInputs)) (lineOf p s) seen)
    (fun s seen action t free inv ran => ⟨stepReady inv.1 ran,
      .turn inv.2 (turnSame (stepTurn inv.1 (heard s action free) ran).1 (same s action free))⟩)
    ⟨readyStarted distinct,.none_⟩ along ran
  exact whole.2

end Runs

section Outcomes
variable {Options : Type} {p : AsyncTranscribePipeline Options} {uniqueInputs : List TranscribeInput} {s : State}
  {actions : List (Action Options)} {i : Nat}

theorem runSound (distinct : (uniqueInputs.map TranscribeInput.index).Nodup)
    (ran : run (step p uniqueInputs.length) (started uniqueInputs) actions = some s) : Sound p s := by
  have start : Sound p (started uniqueInputs) := by
    refine ⟨readyStarted distinct,?_,?_,?_⟩
    · exact fun (done : AsrWorker.receiving = .done) => by cases done
    · exact fun _ _ (sending : AsrWorker.receiving = .sending _ _) => by cases sending
    · exact fun (joining : VadWorker.receiving = .joining) => by cases joining
  exact invariant (fun s action t sound ran => stepSound sound ran) start ran

theorem runAny (distinct : (uniqueInputs.map TranscribeInput.index).Nodup)
    (ran : run (step p uniqueInputs.length) (started uniqueInputs) actions = some s) :
    Turns List.Perm FitsIndex (fun _ _ => True) (opened (messagesOf p uniqueInputs)) (lineOf p s)
      (failedBatches p uniqueInputs actions) := by
  have free : Along (step p uniqueInputs.length) (fun _ _ => True) (started uniqueInputs) actions := alongAll fun _ _ => trivial
  refine runTurns distinct (fun s action _ => ?_) (fun s action _ xs ys both => both.1) free ran
  cases action <;> first | exact fun _ => trivial | trivial

theorem feedInside {input : TranscribeInput} (distinct : (uniqueInputs.map TranscribeInput.index).Nodup) (inside : input ∈ uniqueInputs) :
    lane messageIndex input.index (messagesOf p uniqueInputs) = inputGroup p input :=
  laneGroups (fun _ => inputIndex) distinct inside

theorem feedOutside (missing : i ∉ uniqueInputs.map TranscribeInput.index) : lane messageIndex i (messagesOf p uniqueInputs) = [] :=
  laneMissing (fun _ => inputIndex) missing

theorem fitsIndex : ∀ message answer, FitsIndex message answer → answer.1 = messageIndex message := fun _ _ fits => fits

theorem countResults (answers : List Answer) : (resultsFor i answers).length = (answers.map Prod.fst).count i := by
  rw [resultsFor,lane,List.length_map,← List.countP_eq_length_filter,List.count,List.countP_map]
  rfl

theorem completeDone (complete : Complete s) : s.asrWorker = .done ∧ s.results = [] := by
  unfold Complete at complete
  split at complete
  · next done => exact ⟨done,complete⟩
  · exact complete.elim

theorem completeAnswered (complete : Complete s) : (lineOf p s).answered = s.outcomes.map answerOf := by
  obtain ⟨done,none_⟩ := completeDone complete
  simp [lineOf,done,none_,workerOutcomes]

/-- Every index is answered once, or once for each failed batch with its segments. -/
theorem answersCounted (distinct : (uniqueInputs.map TranscribeInput.index).Nodup)
    (ran : run (step p uniqueInputs.length) (started uniqueInputs) actions = some s) (complete : Complete s) (i : Nat) :
    (s.outcomes.map TranscribeItemOutcome.index).count i =
      if i ∈ uniqueInputs.map TranscribeInput.index then max 1 (failuresOf i (failedBatches p uniqueInputs actions)) else 0 := by
  have turns := runAny distinct ran
  have empty : (lineOf p s).waiting = [] := endedWaiting (completeDone complete).1 (runSound distinct ran).ended
  have counted : (resultsFor i (lineOf p s).answered).length = (s.outcomes.map TranscribeItemOutcome.index).count i := by
    rw [countResults,completeAnswered complete,List.map_map]
    rfl
  rw [← counted]
  split
  · next inside =>
    obtain ⟨input,there,rfl⟩ := List.mem_map.mp inside
    have fed := feedInside (p := p) distinct there
    rcases inputFeed p input with ⟨message,alone,direct,_⟩ | ⟨_,prepared,_,_,split,feed⟩
    · rw [alone] at fed
      obtain ⟨served,unfailed⟩ := turnsServed fitsIndex turns (i := input.index) (by simpa [fed] using direct)
      rw [(servedEnd served empty).1,unfailed,fed]
      rfl
    · exact owedEnd (turnsOwed fitsIndex turns feed.some_ (fed.trans split) feed.count) empty
  · next missing =>
    have fed := feedOutside (p := p) missing
    obtain ⟨served,_⟩ := turnsServed fitsIndex turns (i := i) (by simp [fed])
    rw [(servedEnd served empty).1,fed]
    rfl

theorem failuresInside (distinct : (uniqueInputs.map TranscribeInput.index).Nodup)
    (ran : run (step p uniqueInputs.length) (started uniqueInputs) actions = some s)
    (failed : 0 < failuresOf i (failedBatches p uniqueInputs actions)) : i ∈ uniqueInputs.map TranscribeInput.index := by
  by_contra missing
  have fed := feedOutside (p := p) missing
  obtain ⟨_,unfailed⟩ := turnsServed fitsIndex (runAny distinct ran) (i := i) (by simp [fed])
  omega

theorem failuresErrors (distinct : (uniqueInputs.map TranscribeInput.index).Nodup)
    (ran : run (step p uniqueInputs.length) (started uniqueInputs) actions = some s) (complete : Complete s)
    {outcome : TranscribeItemOutcome} (inside : outcome ∈ s.outcomes)
    (failed : 0 < failuresOf outcome.index (failedBatches p uniqueInputs actions)) : IsError outcome.result := by
  have turns := runAny distinct ran
  have handed : outcome.result ∈ resultsFor outcome.index (lineOf p s).answered := by
    rw [completeAnswered complete]
    exact List.mem_map.mpr ⟨answerOf outcome,memLane.mpr ⟨List.mem_map_of_mem inside,rfl⟩,rfl⟩
  obtain ⟨input,there,same⟩ := List.mem_map.mp (failuresInside distinct ran failed)
  have fed := feedInside (p := p) distinct there
  rw [same] at fed
  rcases inputFeed p input with ⟨message,alone,direct,_⟩ | ⟨_,prepared,_,_,split,feed⟩
  · rw [alone] at fed
    obtain ⟨_,unfailed⟩ := turnsServed fitsIndex turns (i := outcome.index) (by simpa [fed] using direct)
    omega
  · exact owedErrors (turnsOwed fitsIndex turns feed.some_ (fed.trans split) feed.count) failed _ handed

end Outcomes

section Calls
variable {Options : Type} {p : AsyncTranscribePipeline Options} {files : Files} {inputs : List TranscribeInput}
  {actions : List (Action Options)} {outcomes : List TranscribeItemOutcome} {s : State}

def OneEach (inputs : List TranscribeInput) (outcomes : List TranscribeItemOutcome) : Prop :=
  outcomes.Pairwise (fun a b => a.index < b.index) ∧
  (outcomes.map TranscribeItemOutcome.index).Perm (inputs.map TranscribeInput.index)

theorem uniqueDistinct (files : Files) (distinct : (inputs.map TranscribeInput.index).Nodup) :
    ((deduplicateTranscribeInputs files inputs).uniqueInputs.map TranscribeInput.index).Nodup ∧
    ∀ p ∈ (deduplicateTranscribeInputs files inputs).duplicateIndices,
      p.1 ∉ (deduplicateTranscribeInputs files inputs).uniqueInputs.map TranscribeInput.index := by
  have whole := (splitWhole files inputs).indices.nodup_iff.mpr distinct
  obtain ⟨unique,_,apart⟩ := List.nodup_append.mp whole
  exact ⟨unique,fun p inside found => apart p.1 found p.1 (List.mem_map_of_mem inside) rfl⟩

theorem uniqueSome (some_ : inputs ≠ []) : (deduplicateTranscribeInputs files inputs).uniqueInputs ≠ [] := by
  obtain ⟨input,inside⟩ := List.exists_mem_of_ne_nil _ some_
  have spec := splitWhole files inputs
  rcases spec.each input inside with ⟨kept,_⟩ | duplicate
  · exact List.ne_nil_of_mem kept
  · rcases spec.kept _ duplicate with ⟨_,absent⟩ | kept
    · cases absent
    · obtain ⟨first,there,_⟩ := List.mem_map.mp kept
      exact List.ne_nil_of_mem there

theorem oneEach (distinct : (inputs.map TranscribeInput.index).Nodup)
    (answered : (outcomes.map TranscribeItemOutcome.index).Perm
      ((deduplicateTranscribeInputs files inputs).uniqueInputs.map TranscribeInput.index)) :
    OneEach inputs (expandDuplicateOutcomes outcomes (deduplicateTranscribeInputs files inputs).duplicateIndices) := by
  have indices := expandedIndices answered
  refine ⟨?_,(expandedPerm.map _).trans indices⟩
  rw [expandAll]
  exact sortedStrictly (indices.nodup_iff.mpr distinct)

/- The unique inputs are answered once each just when no batch but one failed with an input. -/
theorem answeredOnce (distinct : (inputs.map TranscribeInput.index).Nodup)
    (ran : run (step p (deduplicateTranscribeInputs files inputs).uniqueInputs.length)
      (started (deduplicateTranscribeInputs files inputs).uniqueInputs) actions = some s) (complete : Complete s) :
    OneEach inputs (expandDuplicateOutcomes s.outcomes (deduplicateTranscribeInputs files inputs).duplicateIndices) ↔
      ∀ i, failuresOf i (failedBatches p (deduplicateTranscribeInputs files inputs).uniqueInputs actions) ≤ 1 := by
  obtain ⟨unique,_⟩ := uniqueDistinct files distinct
  have counted := answersCounted unique ran complete
  constructor
  · rintro ⟨increasing,_⟩ i
    by_contra more
    have inside := failuresInside unique ran (i := i) (by omega)
    have twice := counted i
    rw [if_pos inside] at twice
    have once : ((expandDuplicateOutcomes s.outcomes (deduplicateTranscribeInputs files inputs).duplicateIndices).map
        TranscribeItemOutcome.index).Nodup := List.pairwise_map.mpr (increasing.imp Nat.ne_of_lt)
    have whole := (expandedPerm.map TranscribeItemOutcome.index).nodup_iff.mp once
    rw [List.map_append] at whole
    have atMost := List.nodup_iff_count_le_one.mp (List.nodup_append.mp whole).1 i
    omega
  · intro few
    refine oneEach distinct (List.perm_iff_count.mpr fun i => ?_)
    rw [counted i]
    split
    · next inside =>
      rw [List.count_eq_one_of_mem unique inside]
      have one := few i
      omega
    · next missing => rw [List.count_eq_zero_of_not_mem missing]

theorem singleIndex (asr : AsrModel Options) (input : TranscribeInput) : (transcribeSingle p asr input).index = input.index := by
  unfold transcribeSingle
  split <;> rfl

/-- A call gives every input one outcome, in increasing order, just when no input has segments in two failed batches,
and an input with a failed batch has an error. A call of several inputs always comes to its end: its steps are bounded,
and some step is possible as long as it is not complete. -/
theorem outcomesOnce (p : AsyncTranscribePipeline Options) (files : Files) (inputs : List TranscribeInput)
    (distinct : (inputs.map TranscribeInput.index).Nodup) :
    let uniqueInputs := (deduplicateTranscribeInputs files inputs).uniqueInputs
    (∀ actions outcomes, TranscribeMany p files inputs actions outcomes →
      (OneEach inputs outcomes ↔ ∀ i, failuresOf i (failedBatches p uniqueInputs actions) ≤ 1) ∧
      ∀ outcome ∈ outcomes, 0 < failuresOf outcome.index (failedBatches p uniqueInputs actions) → IsError outcome.result) ∧
    (inputs ≠ [] → ∃ most, ∀ actions s, run (step p uniqueInputs.length) (started uniqueInputs) actions = some s →
      actions.length ≤ most ∧ (Complete s ∨ ∃ action t, step p uniqueInputs.length s action = some t)) := by
  intro uniqueInputs
  obtain ⟨unique,apart⟩ := uniqueDistinct files distinct
  have silent : ∀ i, failuresOf i (failedBatches p uniqueInputs []) = 0 := fun _ => rfl
  refine ⟨fun actions outcomes called => ?_,fun some_ => ⟨work p (started uniqueInputs),fun actions s ran => ?_⟩⟩
  · cases called with
    | empty none_ =>
      subst none_
      exact ⟨⟨fun _ i => (silent i).le.trans (Nat.zero_le 1),fun _ => ⟨.nil,.refl _⟩⟩,fun _ inside => (by cases inside)⟩
    | single asr input one =>
      have answered : ([transcribeSingle p asr input].map TranscribeItemOutcome.index).Perm
          ((deduplicateTranscribeInputs files inputs).uniqueInputs.map TranscribeInput.index) := by
        rw [one,List.map_singleton,singleIndex]
        rfl
      refine ⟨⟨fun _ i => (silent i).le.trans (Nat.zero_le 1),fun _ => oneEach distinct answered⟩,fun outcome _ failed => ?_⟩
      exact absurd failed (by rw [silent]; exact Nat.lt_irrefl 0)
    | staged _ s _ _ ran complete =>
      refine ⟨answeredOnce distinct ran complete,fun outcome inside failed => ?_⟩
      rcases List.mem_append.mp (expandedPerm.mem_iff.mp inside) with own_ | duplicate
      · exact failuresErrors unique ran complete own_ failed
      · obtain ⟨q,there,made⟩ := List.mem_filterMap.mp duplicate
        obtain ⟨_,_,rfl⟩ := Option.map_eq_some_iff.mp made
        exact absurd (failuresInside unique ran failed) (apart q there)
  · have capacity : 0 < uniqueInputs.length := List.length_pos_of_ne_nil (uniqueSome some_)
    exact ⟨runBounded ran,neverStuck (runSound unique ran) capacity⟩

def twoSegments : List VadSegment := [⟨⟨1000,2000⟩,1⟩,⟨⟨6000,7000⟩,1⟩]

def noFiles : Files := ⟨fun _ => none,fun _ => 0⟩

def deaf : AsrModel Unit := ⟨fun _ _ => .error "out of memory",fun _ _ => .error "out of memory"⟩

def hearing : AsrModel Unit := ⟨fun _ _ => .ok (newTimeline "asr"),fun waveforms _ => .ok (waveforms.map fun _ => newTimeline "asr")⟩

def narrow : AsyncTranscribePipeline Unit where
  load source := match source with
    | .waveform waveform => .ok waveform
    | _ => .error "not found"
  offline := ⟨some fun _ _ => .ok twoSegments,deaf⟩
  asrOptions := ()
  vadOptions := ⟨1/2,0,0,0,0⟩
  stageBuffer := 1
  positive := by decide

def twoInputs : List TranscribeInput := [⟨0,.waveform ⟨[0,1,0,0,0,0,1,0,0,0],1,1⟩⟩,⟨1,.url "missing"⟩]

/- The first segment fails; something happens to the second one; then the second input fails to load. -/
def firstFails (second : List (Action Unit)) : List (Action Unit) :=
  [.spawnLoaderTask,.joinLoaderTask 0,.sendLoaded,.receiveLoaded,.prepareVad 0,
    .sendMessage 0,.recvAsrMessage,.runBatch deaf,.sendResult,.recvResult,.sendMessage 0,.recvAsrMessage] ++ second ++
  [.joinVadTask 0,.spawnLoaderTask,.joinLoaderTask 0,.sendLoaded,.receiveLoaded,.forwardOutcome,.recvAsrMessage,
    .sendResult,.recvResult,.finishAsr]

def afterFailure (second : List (Action Unit)) : Option State := run (step narrow 2) (started twoInputs) (firstFails second)

theorem twoUnique : deduplicateTranscribeInputs noFiles twoInputs = ⟨twoInputs,[]⟩ := by decide +kernel

theorem afterCalled (second : List (Action Unit)) (ends : (afterFailure second).isSome)
    (complete : Complete ((afterFailure second).get ends)) : TranscribeMany narrow noFiles twoInputs (firstFails second)
      (expandDuplicateOutcomes ((afterFailure second).get ends).outcomes []) := by
  have ran : run (step narrow 2) (started twoInputs) (firstFails second) = some ((afterFailure second).get ends) :=
    (Option.some_get ends).symm
  have called := @TranscribeMany.staged Unit narrow noFiles twoInputs (firstFails second) ((afterFailure second).get ends)
    (by decide) (by rw [twoUnique]; decide) (by rw [twoUnique]; exact ran) complete
  rwa [twoUnique] at called

theorem outcomesOnceLate : ∃ outcomes, TranscribeMany narrow noFiles twoInputs (firstFails [.runBatch hearing]) outcomes ∧
    OneEach twoInputs outcomes := by
  have called := afterCalled [.runBatch hearing] rfl (rfl : ((afterFailure [.runBatch hearing]).get rfl).results = [])
  have failed : failedBatches narrow (deduplicateTranscribeInputs noFiles twoInputs).uniqueInputs (firstFails [.runBatch hearing]) = [[0]] := by
    rw [twoUnique]
    rfl
  refine ⟨_,called,((outcomesOnce narrow noFiles twoInputs (by decide)).1 _ _ called).1.mpr fun i => ?_⟩
  rw [failed]
  exact List.countP_le_length

/- Both batches with segments of the first input fail. -/
theorem bothFailed : ∃ outcomes,
    TranscribeMany narrow noFiles twoInputs (firstFails [.runBatch deaf,.sendResult,.recvResult]) outcomes ∧
    outcomes.map TranscribeItemOutcome.index = [0,0,1] ∧ ¬OneEach twoInputs outcomes := by
  have indices : (expandDuplicateOutcomes ((afterFailure [.runBatch deaf,.sendResult,.recvResult]).get rfl).outcomes []).map
      TranscribeItemOutcome.index = [0,0,1] := by decide +kernel
  refine ⟨_,afterCalled _ rfl (rfl : ((afterFailure [.runBatch deaf,.sendResult,.recvResult]).get rfl).results = []),indices,?_⟩
  intro each
  have counts := each.2.length_eq
  rw [indices] at counts
  cases counts

end Calls

end Qwen3Asr.PipelineOutcomes
