import Qwen3Asr.PipelineTimelines

/-! The batches of the offline pipeline with stages. Segments are put together as on the server; whole waveforms
keep their preparation, so that their speech is found again by the index of the job. -/
namespace Qwen3Asr.OfflineBatch
open Library.Effect
open MediaData Pipeline TranscribeBatch SegmentLedger RecognitionLine

inductive StageResult where
  | ready (index : Nat) (timeline : Timeline)
  | failed (index : Nat) (error : String)
  deriving DecidableEq, Repr

def stageAnswer : StageResult → Answer
  | .ready index timeline => (index,.ok timeline)
  | .failed index error => (index,.error error)

def stageIndex (result : StageResult) : Nat := (stageAnswer result).1

section Segments
variable {Options : Type} (pipeline : OfflinePipeline Options)

def runSegmentAsrInference (segments : List AsrSegmentJob) (asrOptions : Options) : Except String (List Timeline) :=
  pipeline.asr.transcribeBatch (segments.map AsrSegmentJob.waveform) asrOptions

def finishSegment (state : SegmentAsrState) (segment : AsrSegmentJob) (asrTimeline : Timeline) :
    SegmentAsrState × List StageResult :=
  match state segment.jobIndex with
  | none => (state,[])
  | some job =>
    let annotations := job.timeline.annotations ++ offsetAnnotations asrTimeline.annotations segment.offset
    let job := {job with timeline := {job.timeline with annotations}, segmentsDone := job.segmentsDone+1}
    if job.segmentCount ≤ job.segmentsDone then
      (Function.update state segment.jobIndex none,[.ready job.index job.timeline])
    else (Function.update state segment.jobIndex (some job),[])

def finishSegments : SegmentAsrState → List (AsrSegmentJob × Timeline) → SegmentAsrState × List StageResult
  | state, [] => (state,[])
  | state, (segment,asrTimeline)::rest =>
    let (state,completed) := finishSegment state segment asrTimeline
    let (state,later) := finishSegments state rest
    (state,completed ++ later)

/- The order of the source's hash set is not fixed. -/
def failJobs (reason : String) : SegmentAsrState → List Nat → SegmentAsrState × List StageResult
  | state, [] => (state,[])
  | state, jobIndex::affected => match state jobIndex with
    | none => failJobs reason state affected
    | some job =>
      let (state,later) := failJobs reason (Function.update state jobIndex none) affected
      (state,.failed job.index reason::later)

def finishSegmentAsrBatch (state : SegmentAsrState) (segments : List AsrSegmentJob) (batch : Except String (List Timeline)) :
    SegmentAsrState × List StageResult :=
  if segments = [] then (state,[]) else
  let affected := (segments.map AsrSegmentJob.jobIndex).dedup
  match batch with
  | .ok timelines =>
    if timelines.length = segments.length then finishSegments state (segments.zip timelines)
    else failJobs s!"ASR segment batch returned {timelines.length} timelines for {segments.length} segments" state affected
  | .error error => failJobs error state affected

end Segments

section Jobs
variable {Options : Type} (pipeline : OfflinePipeline Options)

structure SortedJobs where
  results : List StageResult
  rawJobs : List AsrJob
  preparedJobs : List AsrJob
  fullSpeechAnnotations : List (Nat × List Annotation)

def sortJobs : List AsrJob → SortedJobs
  | [] => ⟨[],[],[],[]⟩
  | job::jobs =>
    let sorted := sortJobs jobs
    match job.prepared with
    | .speech _ => {sorted with preparedJobs := job::sorted.preparedJobs}
    | .noSpeech => {sorted with results := .ready job.index (newTimeline "offline_audio")::sorted.results}
    | .fullSpeech speechAnnotations => {sorted with
        rawJobs := job::sorted.rawJobs
        fullSpeechAnnotations := (job.index,speechAnnotations)::sorted.fullSpeechAnnotations}
    | .disabled => {sorted with rawJobs := job::sorted.rawJobs}

def runRawAsrJobsBatch (jobs : List AsrJob) (asrOptions : Options) : List StageResult :=
  match pipeline.asr.transcribeBatch (jobs.map AsrJob.waveform) asrOptions with
  | .ok timelines =>
    if timelines.length = jobs.length then List.zipWith (fun job timeline => .ready job.index timeline) jobs timelines
    else jobs.map fun job => .failed job.index s!"ASR batch returned {timelines.length} timelines for {jobs.length} jobs"
  | .error error => jobs.map fun job => .failed job.index error

/- The annotations of the speech stand before those of its recognition. -/
def withSpeech (fullSpeechAnnotations : List (Nat × List Annotation)) : StageResult → StageResult
  | .ready index timeline => match fullSpeechAnnotations.find? fun entry => entry.1 = index with
    | some (_,annotations) => .ready index {timeline with annotations := annotations ++ timeline.annotations}
    | none => .ready index timeline
  | .failed index error => .failed index error

def segmentJobs : List AsrJob → List AsrSegmentJob × List StageResult
  | [] => ([],[])
  | job::jobs =>
    let (segments,failed) := segmentJobs jobs
    match speechJobToSegments job with
    | .ok own => (own ++ segments,failed)
    | .error error => (segments,.failed 0 error::failed)

def runPreparedJobs (jobs : List AsrJob) (asrOptions : Options) : List StageResult :=
  let (segments,failed) := segmentJobs jobs
  let state := prepareSegmentJobState (fun _ => none) segments
  failed ++ (finishSegmentAsrBatch state segments (runSegmentAsrInference pipeline segments asrOptions)).2

def runAsrJobsBatch (jobs : List AsrJob) (asrOptions : Options) : List StageResult :=
  let sorted := sortJobs jobs
  let raw := if sorted.rawJobs = [] then [] else
    (runRawAsrJobsBatch pipeline sorted.rawJobs asrOptions).map (withSpeech sorted.fullSpeechAnnotations)
  let prepared := if sorted.preparedJobs = [] then [] else runPreparedJobs pipeline sorted.preparedJobs asrOptions
  (sorted.results ++ raw ++ prepared).insertionSort fun a b => stageIndex a ≤ stageIndex b

end Jobs

section Agreement
variable {state : SegmentAsrState} {segments : List AsrSegmentJob} {batch : Except String (List Timeline)}

theorem finishedSame (items : List (AsrSegmentJob × Timeline)) : ∀ state,
    (finishSegments state items).1 = (TranscribeBatch.finishSegments state (items.map fun item => (targetOf item.1,item.2))).1 ∧
    (finishSegments state items).2.map stageAnswer =
      (TranscribeBatch.finishSegments state (items.map fun item => (targetOf item.1,item.2))).2.map answerOf := by
  induction items with
  | nil => exact fun state => ⟨rfl,rfl⟩
  | cons item items ih =>
    intro state
    have one : (finishSegment state item.1 item.2).1 =
          (TranscribeBatch.finishSegment state item.1.jobIndex item.1.offset item.2).1 ∧
        (finishSegment state item.1 item.2).2.map stageAnswer =
          (TranscribeBatch.finishSegment state item.1.jobIndex item.1.offset item.2).2.map answerOf := by
      unfold finishSegment TranscribeBatch.finishSegment
      cases state item.1.jobIndex with
      | none => exact ⟨rfl,rfl⟩
      | some job =>
        dsimp only
        split <;> exact ⟨rfl,rfl⟩
    obtain ⟨here,completed⟩ := one
    obtain ⟨left,results⟩ := ih (finishSegment state item.1 item.2).1
    rw [here] at left results
    refine ⟨(congrArg (fun state => (finishSegments state items).1) here).trans left,?_⟩
    change ((finishSegment state item.1 item.2).2 ++ (finishSegments (finishSegment state item.1 item.2).1 items).2).map stageAnswer =
      ((TranscribeBatch.finishSegment state item.1.jobIndex item.1.offset item.2).2 ++ _).map answerOf
    rw [List.map_append,List.map_append,completed,here,results]
    rfl

theorem failedSame (reason : String) (affected : List Nat) : ∀ state,
    (failJobs reason state affected).1 = (TranscribeBatch.failJobs reason state affected).1 ∧
    (failJobs reason state affected).2.map stageAnswer = (TranscribeBatch.failJobs reason state affected).2.map answerOf := by
  induction affected with
  | nil => exact fun state => ⟨rfl,rfl⟩
  | cons jobIndex affected ih =>
    intro state
    unfold failJobs TranscribeBatch.failJobs
    cases state jobIndex with
    | none => exact ih state
    | some job =>
      obtain ⟨left,results⟩ := ih (Function.update state jobIndex none)
      exact ⟨left,congrArg _ results⟩

/-- A batch of segments does here what it does on the server. -/
theorem segmentsSame (state : SegmentAsrState) (segments : List AsrSegmentJob) (batch : Except String (List Timeline)) :
    let finished := finishSegmentAsrBatch (prepareSegmentJobState state segments) segments batch
    finished.1 = (recognizeSegments state segments batch).1 ∧
    finished.2.map stageAnswer = (recognizeSegments state segments batch).2.map answerOf := by
  intro finished
  unfold finished finishSegmentAsrBatch recognizeSegments TranscribeBatch.finishSegmentAsrBatch
  split_ifs with none_
  · exact ⟨rfl,rfl⟩
  cases batch with
  | error error => exact failedSame error _ _
  | ok timelines =>
    simp only [Except.map,List.length_map]
    split_ifs with same
    · have items : (segments.map targetOf).zip timelines = (segments.zip timelines).map fun item => (targetOf item.1,item.2) := by
        rw [List.zip_map_left]
        rfl
      rw [items]
      exact finishedSame _ _
    · exact failedSame _ _ _

end Agreement

section Direct
variable {Options : Type} {pipeline : OfflinePipeline Options} {asrOptions : Options} {jobs : List AsrJob} {job : AsrJob}
  {result : AsrJob → StageResult}

def speechOf (job : AsrJob) : List (Nat × List Annotation) := match job.prepared with
  | .fullSpeech speechAnnotations => [(job.index,speechAnnotations)]
  | _ => []

def stageResult (result : AsrJob → StageResult) (job : AsrJob) : StageResult := match job.prepared with
  | .noSpeech => .ready job.index (newTimeline "offline_audio")
  | _ => withSpeech (speechOf job) (result job)

theorem stageSilent (silent : job.prepared = .noSpeech) : stageResult result job = .ready job.index (newTimeline "offline_audio") := by
  simp [stageResult,silent]

theorem stageLoud (loud : job.prepared ≠ .noSpeech) : stageResult result job = withSpeech (speechOf job) (result job) := by
  unfold stageResult
  split
  · next silent => exact absurd silent loud
  · rfl

theorem speechIndex : ∀ entry ∈ speechOf job, entry.1 = job.index := by
  unfold speechOf
  split <;> simp

theorem preparedNone (direct : ∀ job ∈ jobs, ¬ IsSpeech job) : (sortJobs jobs).preparedJobs = [] := by
  induction jobs with
  | nil => rfl
  | cons job jobs ih =>
    obtain ⟨own,rest⟩ := List.forall_mem_cons.mp direct
    unfold sortJobs
    dsimp only
    split <;> try exact ih rest
    next prepared speech => exact absurd ⟨prepared,speech⟩ own

theorem speechSorted : (sortJobs jobs).fullSpeechAnnotations = jobs.flatMap speechOf := by
  induction jobs with
  | nil => rfl
  | cons job jobs ih =>
    rw [sortJobs,List.flatMap_cons,← ih]
    unfold speechOf
    cases job.prepared <;> rfl

theorem foundOwn (distinct : (jobs.map AsrJob.index).Nodup) (inside : job ∈ jobs) :
    (jobs.flatMap speechOf).find? (fun entry => entry.1 = job.index) = (speechOf job).find? fun entry => entry.1 = job.index := by
  induction jobs with
  | nil => cases inside
  | cons first jobs ih =>
    obtain ⟨other,rest⟩ := List.nodup_cons.mp distinct
    rw [List.flatMap_cons,List.find?_append]
    rcases List.mem_cons.mp inside with rfl | later
    · have none_ : (jobs.flatMap speechOf).find? (fun entry => entry.1 = job.index) = none := by
        rw [List.find?_eq_none]
        intro entry there same
        obtain ⟨owner,held,own⟩ := List.mem_flatMap.mp there
        have index := (speechIndex entry own).symm.trans (of_decide_eq_true same)
        exact other (index ▸ List.mem_map_of_mem held)
      rw [none_,Option.or_none]
    · have none_ : (speechOf first).find? (fun entry => entry.1 = job.index) = none := by
        rw [List.find?_eq_none]
        intro entry own same
        have index := (speechIndex entry own).symm.trans (of_decide_eq_true same)
        exact other (index ▸ List.mem_map_of_mem later)
      rw [none_,Option.none_or]
      exact ih rest later

theorem withSpeechFound {xs ys : List (Nat × List Annotation)} {result : StageResult}
    (same : xs.find? (fun entry => entry.1 = stageIndex result) = ys.find? fun entry => entry.1 = stageIndex result) :
    withSpeech xs result = withSpeech ys result := by
  cases result with
  | failed => rfl
  | ready index timeline =>
    unfold withSpeech
    dsimp only
    rw [show xs.find? (fun entry => entry.1 = index) = _ from same]
    rfl

/- Every job that is not heard has its result at once, every other one among the raw jobs. -/
theorem sortedPerm (direct : ∀ job ∈ jobs, ¬ IsSpeech job) (raw each : AsrJob → StageResult)
    (silent : ∀ job ∈ jobs, job.prepared = .noSpeech → each job = .ready job.index (newTimeline "offline_audio"))
    (loud : ∀ job ∈ jobs, job.prepared ≠ .noSpeech → each job = raw job) :
    ((sortJobs jobs).results ++ (sortJobs jobs).rawJobs.map raw).Perm (jobs.map each) := by
  induction jobs with
  | nil => exact .refl _
  | cons job jobs ih =>
    have rest := ih (fun job inside => direct job (List.mem_cons_of_mem _ inside))
      (fun job inside => silent job (List.mem_cons_of_mem _ inside)) fun job inside => loud job (List.mem_cons_of_mem _ inside)
    have here := @List.mem_cons_self _ job jobs
    unfold sortJobs
    dsimp only
    rw [List.map_cons]
    cases prepared : job.prepared with
    | speech detected => exact absurd ⟨detected,prepared⟩ (direct job here)
    | noSpeech =>
      rw [silent job here prepared]
      exact rest.cons _
    | fullSpeech speechAnnotations =>
      rw [loud job here (by simp [prepared])]
      exact List.perm_middle.trans (rest.cons _)
    | disabled =>
      rw [loud job here (by simp [prepared])]
      exact List.perm_middle.trans (rest.cons _)

theorem rawInside : ∀ job ∈ (sortJobs jobs).rawJobs, job ∈ jobs ∧ job.prepared ≠ .noSpeech := by
  induction jobs with
  | nil => exact fun _ inside => (by cases inside)
  | cons first jobs ih =>
    have later : ∀ job ∈ (sortJobs jobs).rawJobs, job ∈ first::jobs ∧ job.prepared ≠ .noSpeech :=
      fun job inside => ⟨List.mem_cons_of_mem _ (ih job inside).1,(ih job inside).2⟩
    unfold sortJobs
    dsimp only
    cases prepared : first.prepared with
    | speech detected => exact later
    | noSpeech => exact later
    | fullSpeech speechAnnotations => exact List.forall_mem_cons.mpr ⟨⟨List.mem_cons_self,by simp [prepared]⟩,later⟩
    | disabled => exact List.forall_mem_cons.mpr ⟨⟨List.mem_cons_self,by simp [prepared]⟩,later⟩

theorem rawHolds (inside : job ∈ jobs) (direct : ¬ IsSpeech job) (loud : job.prepared ≠ .noSpeech) : job ∈ (sortJobs jobs).rawJobs := by
  induction jobs with
  | nil => cases inside
  | cons first jobs ih =>
    unfold sortJobs
    dsimp only
    rcases List.mem_cons.mp inside with rfl | later
    · cases prepared : job.prepared with
      | speech detected => exact absurd ⟨detected,prepared⟩ direct
      | noSpeech => exact absurd prepared loud
      | fullSpeech speechAnnotations => exact List.mem_cons_self
      | disabled => exact List.mem_cons_self
    · have found := ih later
      cases first.prepared with
      | speech detected => exact found
      | noSpeech => exact found
      | fullSpeech speechAnnotations => exact List.mem_cons_of_mem _ found
      | disabled => exact List.mem_cons_of_mem _ found

theorem batchSorted (direct : ∀ job ∈ jobs, ¬ IsSpeech job) : (runAsrJobsBatch pipeline jobs asrOptions).Perm
    ((sortJobs jobs).results ++ if (sortJobs jobs).rawJobs = [] then [] else
      (runRawAsrJobsBatch pipeline (sortJobs jobs).rawJobs asrOptions).map (withSpeech (jobs.flatMap speechOf))) := by
  unfold runAsrJobsBatch
  simp only [preparedNone direct,if_true,List.append_nil,speechSorted]
  exact List.perm_insertionSort _ _

theorem batchPerm (direct : ∀ job ∈ jobs, ¬ IsSpeech job) (distinct : (jobs.map AsrJob.index).Nodup)
    (index : ∀ job, stageIndex (result job) = job.index) (raw : (sortJobs jobs).rawJobs ≠ [] →
      runRawAsrJobsBatch pipeline (sortJobs jobs).rawJobs asrOptions = (sortJobs jobs).rawJobs.map result) :
    (runAsrJobsBatch pipeline jobs asrOptions).Perm (jobs.map (stageResult result)) := by
  have recognized : (if (sortJobs jobs).rawJobs = [] then [] else
      (runRawAsrJobsBatch pipeline (sortJobs jobs).rawJobs asrOptions).map (withSpeech (jobs.flatMap speechOf))) =
      (sortJobs jobs).rawJobs.map fun job => withSpeech (speechOf job) (result job) := by
    split_ifs with none_
    · rw [none_]
      rfl
    · rw [raw none_,List.map_map]
      refine List.map_congr_left fun job inside => withSpeechFound ?_
      rw [index job]
      exact foundOwn distinct (rawInside job inside).1
  refine (batchSorted direct).trans ?_
  rw [recognized]
  exact sortedPerm direct _ _ (fun job _ silent => stageSilent silent) fun job _ loud => stageLoud loud

theorem rawCount (jobs : List AsrJob) : (runRawAsrJobsBatch pipeline jobs asrOptions).length = jobs.length := by
  unfold runRawAsrJobsBatch
  split
  · split
    · next same => simp [same]
    · simp
  · simp

theorem jobsCount (direct : ∀ job ∈ jobs, ¬ IsSpeech job) : (runAsrJobsBatch pipeline jobs asrOptions).length = jobs.length := by
  have sorted := (sortedPerm direct _ (stageResult fun job => .failed job.index "") (fun job _ silent => stageSilent silent)
    fun job _ loud => stageLoud loud).length_eq
  rw [(batchSorted direct).length_eq]
  simp only [List.length_append,List.length_map] at sorted ⊢
  rw [← sorted]
  split_ifs with none_
  · simp [none_]
  · rw [List.length_map,rawCount]

end Direct

section Heard
variable {Options : Type} (asr : AsrModel Options) (options : Options)

/- Recognition is a function of the waveform: a batch succeeds just when each of its waveforms does, with their timelines. -/
def PointwiseAsr : Prop := ∀ waveforms timelines, waveforms ≠ [] →
  (asr.transcribeBatch waveforms options = .ok timelines ↔
    List.Forall₂ (fun waveform timeline => asr.transcribe waveform options = .ok timeline) waveforms timelines)

def Understood (waveform : Waveform) : Prop := ∃ timeline, asr.transcribe waveform options = .ok timeline

def timelineOf (waveform : Waveform) : Timeline := match asr.transcribe waveform options with
  | .ok timeline => timeline
  | .error _ => newTimeline "offline_audio"

end Heard

section Pointwise
variable {Options : Type} {pipeline : OfflinePipeline Options} {asrOptions : Options} {jobs : List AsrJob}
  (pointwise : PointwiseAsr pipeline.asr asrOptions)

theorem understoodAs {asr : AsrModel Options} {options : Options} {waveform : Waveform} (understood : Understood asr options waveform) :
    asr.transcribe waveform options = .ok (timelineOf asr options waveform) := by
  obtain ⟨timeline,heard⟩ := understood
  rw [timelineOf,heard]

include pointwise

theorem batchHeard {waveforms : List Waveform} {timelines : List Timeline} (some_ : waveforms ≠ []) :
    pipeline.asr.transcribeBatch waveforms asrOptions = .ok timelines ↔
      (∀ waveform ∈ waveforms, Understood pipeline.asr asrOptions waveform) ∧
      timelines = waveforms.map (timelineOf pipeline.asr asrOptions) := by
  rw [pointwise waveforms timelines some_]
  constructor
  · intro heard
    induction heard with
    | nil => exact absurd rfl some_
    | @cons waveform timeline waveforms timelines first rest ih =>
      have one : timelineOf pipeline.asr asrOptions waveform = timeline := by rw [timelineOf,first]
      by_cases last : waveforms = []
      · subst last
        cases rest
        exact ⟨List.forall_mem_singleton.mpr ⟨timeline,first⟩,by rw [List.map_singleton,one]⟩
      · obtain ⟨later,same⟩ := ih last
        exact ⟨List.forall_mem_cons.mpr ⟨⟨timeline,first⟩,later⟩,by rw [List.map_cons,one,same]⟩
  · rintro ⟨understood,rfl⟩
    rw [List.forall₂_map_right_iff]
    exact List.forall₂_same.mpr fun waveform inside => understoodAs (understood waveform inside)

theorem rawHeard (some_ : jobs ≠ []) (all : ∀ job ∈ jobs, Understood pipeline.asr asrOptions job.waveform) :
    runRawAsrJobsBatch pipeline jobs asrOptions =
      jobs.map fun job => .ready job.index (timelineOf pipeline.asr asrOptions job.waveform) := by
  have heard := (batchHeard pointwise (mt List.map_eq_nil_iff.mp some_)).mpr ⟨List.forall_mem_map.mpr all,rfl⟩
  unfold runRawAsrJobsBatch
  rw [heard]
  simp only [List.length_map,if_true]
  rw [List.map_map,List.zipWith_map_right,List.zipWith_self]
  rfl

theorem rawFailed (missed : ¬ ∀ job ∈ jobs, Understood pipeline.asr asrOptions job.waveform) :
    ∃ reason, runRawAsrJobsBatch pipeline jobs asrOptions = jobs.map fun job => .failed job.index reason := by
  have some_ : jobs ≠ [] := fun none_ => missed (by simp [none_])
  unfold runRawAsrJobsBatch
  cases batch : pipeline.asr.transcribeBatch (jobs.map AsrJob.waveform) asrOptions with
  | error error => exact ⟨error,rfl⟩
  | ok timelines =>
    have all := ((batchHeard pointwise (mt List.map_eq_nil_iff.mp some_)).mp batch).1
    exact absurd (List.forall_mem_map.mp all) missed

end Pointwise

section Results
variable {job : AsrJob} {f : Waveform → Timeline}

theorem resultHeard (direct : ¬ IsSpeech job) :
    stageAnswer (stageResult (fun job => .ready job.index (f job.waveform)) job) = (job.index,.ok (directTimeline f job)) := by
  unfold stageResult directTimeline speechOf
  cases prepared : job.prepared with
  | speech detected => exact absurd ⟨detected,prepared⟩ direct
  | noSpeech => rfl
  | disabled => rfl
  | fullSpeech speechAnnotations => simp [withSpeech,stageAnswer]

theorem resultFailed {reason : String} (loud : job.prepared ≠ .noSpeech) :
    stageAnswer (stageResult (fun job => .failed job.index reason) job) = (job.index,.error reason) := by
  rw [stageLoud loud]
  rfl

end Results

end Qwen3Asr.OfflineBatch
