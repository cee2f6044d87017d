import Mathlib.Algebra.BigOperators.Group.List.Basic
import Mathlib.Algebra.Order.BigOperators.Group.List
import Mathlib.Data.List.Dedup
import Qwen3Asr.InputDedup
import Qwen3Asr.Library.Effect
import Qwen3Asr.Pipeline

/-! Prepared jobs recognized in one batch. Whole waveforms go to recognition as they are, detected speech in
segments that are put together again by the job they belong to. -/
namespace Qwen3Asr.TranscribeBatch
open Library.Effect MediaData Pipeline TranscribeServer InputDedup

structure AsrJob where
  index : Nat
  prepared : VadPreparation
  waveform : Waveform
  deriving DecidableEq, Repr

structure AsrSegmentJob where
  jobIndex : Nat
  speechAnnotations : List Annotation
  segmentIndex : Nat
  segmentCount : Nat
  offset : Nat
  waveform : Waveform
  deriving DecidableEq, Repr

structure SegmentJobState where
  index : Nat
  speechAnnotations : List Annotation
  timeline : Timeline
  segmentCount : Nat
  segmentsDone : Nat
  deriving DecidableEq, Repr

abbrev SegmentAsrState := Nat → Option SegmentJobState

section Segments

def speechJobToSegments (job : AsrJob) : Except String (List AsrSegmentJob) :=
  match job.prepared with
  | .speech ⟨speechAnnotations,segments,slices⟩ =>
    if segments.length ≠ slices.length then
      .error s!"VAD prepared mismatch: segments={segments.length} slices={slices.length}"
    else .ok ((segments.zip slices).zipIdx.map fun ((segment,waveform),segmentIndex) =>
      ⟨job.index,if segmentIndex = 0 then speechAnnotations else [],segmentIndex,segments.length,segment.range.start,waveform⟩)
  | _ => .error "speech_job_to_segments requires Speech preparation"

def prepareSegment (state : SegmentAsrState) (segment : AsrSegmentJob) : SegmentAsrState :=
  let entry := (state segment.jobIndex).getD
    ⟨segment.jobIndex,segment.speechAnnotations,newTimeline "offline_audio",segment.segmentCount,0⟩
  let speechAnnotations := if segment.speechAnnotations ≠ [] then segment.speechAnnotations else entry.speechAnnotations
  let annotations := if entry.timeline.annotations = [] then speechAnnotations else entry.timeline.annotations
  Function.update state segment.jobIndex (some {entry with
    speechAnnotations, timeline := {entry.timeline with annotations}, segmentCount := segment.segmentCount})

def prepareSegmentJobState (state : SegmentAsrState) (segments : List AsrSegmentJob) : SegmentAsrState :=
  segments.foldl prepareSegment state

variable {Options : Type} (pipeline : OfflinePipeline Options)

def outcomeFromResult (index : Nat) (result : Except String Timeline) : TranscribeItemOutcome where
  index
  result
  badComponent := match result with
    | .ok _ => none
    | .error _ => some "recognizer"

def runSegmentAsrInference (segments : List AsrSegmentJob) (asrOptions : Options) :
    Except String (List (Nat × Nat) × List Timeline) := do
  let timelines ← pipeline.asr.transcribeBatch (segments.map AsrSegmentJob.waveform) asrOptions
  .ok (segments.map fun segment => (segment.jobIndex,segment.offset),timelines)

def finishSegment (state : SegmentAsrState) (jobIndex offset : Nat) (asrTimeline : Timeline) :
    SegmentAsrState × List TranscribeItemOutcome :=
  match state jobIndex with
  | none => (state,[])
  | some job =>
    let annotations := job.timeline.annotations ++ offsetAnnotations asrTimeline.annotations offset
    let job := {job with timeline := {job.timeline with annotations}, segmentsDone := job.segmentsDone+1}
    if job.segmentCount ≤ job.segmentsDone then (Function.update state jobIndex none,[⟨job.index,.ok job.timeline,none⟩])
    else (Function.update state jobIndex (some job),[])

def finishSegments : SegmentAsrState → List ((Nat × Nat) × Timeline) → SegmentAsrState × List TranscribeItemOutcome
  | state, [] => (state,[])
  | state, ((jobIndex,offset),asrTimeline)::rest =>
    let (state,completed) := finishSegment state jobIndex offset asrTimeline
    let (state,later) := finishSegments state rest
    (state,completed ++ later)

/- All jobs of a failed batch are handed out with its error; the order of the source's hash set is not fixed. -/
def failJobs (reason : String) : SegmentAsrState → List Nat → SegmentAsrState × List TranscribeItemOutcome
  | state, [] => (state,[])
  | state, jobIndex::affected => match state jobIndex with
    | none => failJobs reason state affected
    | some job =>
      let (state,later) := failJobs reason (Function.update state jobIndex none) affected
      (state,outcomeFromResult job.index (.error reason)::later)

def finishSegmentAsrBatch (state : SegmentAsrState) (segments : List AsrSegmentJob)
    (batch : Except String (List (Nat × Nat) × List Timeline)) : SegmentAsrState × List TranscribeItemOutcome :=
  if segments = [] then (state,[]) else
  let affected := (segments.map AsrSegmentJob.jobIndex).dedup
  match batch with
  | .ok (targets,timelines) =>
    if timelines.length = targets.length then finishSegments state (targets.zip timelines)
    else failJobs s!"ASR segment batch returned {timelines.length} timelines for {segments.length} segments" state affected
  | .error error => failJobs error state affected

def runSegmentMicrobatch (segments : List AsrSegmentJob) (asrOptions : Options) (state : SegmentAsrState) :
    List TranscribeItemOutcome :=
  if segments = [] then [] else
  let state := prepareSegmentJobState state segments
  (finishSegmentAsrBatch state segments (runSegmentAsrInference pipeline segments asrOptions)).2

end Segments

section Jobs
variable {Options : Type} (pipeline : OfflinePipeline Options)

structure SortedJobs where
  outcomes : List TranscribeItemOutcome
  rawJobs : List (AsrJob × List Annotation)
  preparedJobs : List AsrJob

/- The preparation is taken out of each job before it is looked at. -/
def sortJobs : List AsrJob → SortedJobs
  | [] => ⟨[],[],[]⟩
  | job::jobs =>
    let sorted := sortJobs jobs
    let taken := {job with prepared := .disabled}
    match job.prepared with
    | .speech _ => {sorted with preparedJobs := taken::sorted.preparedJobs}
    | .noSpeech => {sorted with outcomes := ⟨job.index,.ok (newTimeline "offline_audio"),none⟩::sorted.outcomes}
    | .fullSpeech speechAnnotations => {sorted with rawJobs := (taken,speechAnnotations)::sorted.rawJobs}
    | .disabled => {sorted with rawJobs := (taken,[])::sorted.rawJobs}

def rawOutcome (job : AsrJob × List Annotation) (timeline : Timeline) : TranscribeItemOutcome where
  index := job.1.index
  result := .ok (if job.2 ≠ [] then {timeline with annotations := job.2 ++ timeline.annotations} else timeline)
  badComponent := none

def runRawJobs (rawJobs : List (AsrJob × List Annotation)) (asrOptions : Options) : List TranscribeItemOutcome :=
  if rawJobs = [] then [] else
  match pipeline.asr.transcribeBatch (rawJobs.map fun job => job.1.waveform) asrOptions with
  | .ok timelines =>
    if timelines.length = rawJobs.length then List.zipWith rawOutcome rawJobs timelines
    else rawJobs.map fun job => outcomeFromResult job.1.index
      (.error s!"ASR batch returned {timelines.length} timelines for {rawJobs.length} jobs")
  | .error error => rawJobs.map fun job => outcomeFromResult job.1.index (.error s!"{error}")

def segmentJobs : List AsrJob → List AsrSegmentJob × List TranscribeItemOutcome
  | [] => ([],[])
  | job::jobs =>
    let (segments,failed) := segmentJobs jobs
    match speechJobToSegments job with
    | .ok own => (own ++ segments,failed)
    | .error error => (segments,⟨0,.error error,some "vad"⟩::failed)

def runAsrJobsBatch (jobs : List AsrJob) (asrOptions : Options) : List TranscribeItemOutcome :=
  let sorted := sortJobs jobs
  let (segments,failed) := segmentJobs sorted.preparedJobs
  sortByIndex (sorted.outcomes ++ runRawJobs pipeline sorted.rawJobs asrOptions ++ failed ++
    runSegmentMicrobatch pipeline segments asrOptions fun _ => none)

end Jobs

section Sorted
variable {Options : Type} {pipeline : OfflinePipeline Options} {asrOptions : Options} {jobs : List AsrJob} {job : AsrJob}

def IsSpeech (job : AsrJob) : Prop := ∃ prepared, job.prepared = .speech prepared

instance : DecidablePred IsSpeech := fun job => match found : job.prepared with
  | .speech prepared => .isTrue ⟨prepared,found⟩
  | .disabled => .isFalse fun ⟨_,other⟩ => by rw [found] at other; cases other
  | .noSpeech => .isFalse fun ⟨_,other⟩ => by rw [found] at other; cases other
  | .fullSpeech _ => .isFalse fun ⟨_,other⟩ => by rw [found] at other; cases other

/- What is left of a job with segments: its preparation was taken out before. -/
def lostOutcome : TranscribeItemOutcome := ⟨0,.error "speech_job_to_segments requires Speech preparation",some "vad"⟩

theorem preparedTaken : ∀ job ∈ (sortJobs jobs).preparedJobs, job.prepared = .disabled := by
  induction jobs with
  | nil => exact fun _ inside => (by cases inside)
  | cons job jobs ih =>
    unfold sortJobs
    dsimp only
    split <;> try exact ih
    exact List.forall_mem_cons.mpr ⟨rfl,ih⟩

theorem segmentsLost (taken : ∀ job ∈ jobs, job.prepared = .disabled) :
    segmentJobs jobs = ([],jobs.map fun _ => lostOutcome) := by
  induction jobs with
  | nil => rfl
  | cons job jobs ih =>
    obtain ⟨own,rest⟩ := List.forall_mem_cons.mp taken
    have refused : speechJobToSegments job = .error "speech_job_to_segments requires Speech preparation" := by
      rw [speechJobToSegments,own]
    rw [segmentJobs,ih rest]
    simp only [refused]
    rfl

theorem batchPerm : (runAsrJobsBatch pipeline jobs asrOptions).Perm ((sortJobs jobs).outcomes ++
    runRawJobs pipeline (sortJobs jobs).rawJobs asrOptions ++ (sortJobs jobs).preparedJobs.map fun _ => lostOutcome) := by
  unfold runAsrJobsBatch
  simp only [segmentsLost (@preparedTaken jobs),runSegmentMicrobatch,if_true,List.append_nil]
  exact List.perm_insertionSort NotBehind _

theorem sortedPerm {β : Type} (silent : TranscribeItemOutcome → β) (raw : AsrJob × List Annotation → β) (lost : β)
    (each : AsrJob → β) (noSpeech : ∀ job ∈ jobs, job.prepared = .noSpeech →
      each job = silent ⟨job.index,.ok (newTimeline "offline_audio"),none⟩)
    (fullSpeech : ∀ job ∈ jobs, ∀ speechAnnotations, job.prepared = .fullSpeech speechAnnotations →
      each job = raw ({job with prepared := .disabled},speechAnnotations))
    (disabled : ∀ job ∈ jobs, job.prepared = .disabled → each job = raw ({job with prepared := .disabled},[]))
    (speech : ∀ job ∈ jobs, IsSpeech job → each job = lost) :
    ((sortJobs jobs).outcomes.map silent ++ (sortJobs jobs).rawJobs.map raw ++
      (sortJobs jobs).preparedJobs.map fun _ => lost).Perm (jobs.map each) := by
  induction jobs with
  | nil => exact .refl _
  | cons job jobs ih =>
    have rest := ih (fun job inside => noSpeech job (List.mem_cons_of_mem _ inside))
      (fun job inside => fullSpeech job (List.mem_cons_of_mem _ inside))
      (fun job inside => disabled job (List.mem_cons_of_mem _ inside))
      (fun job inside => speech job (List.mem_cons_of_mem _ inside))
    have here := @List.mem_cons_self _ job jobs
    have middle : ∀ entry, ((sortJobs jobs).outcomes.map silent ++ (entry::(sortJobs jobs).rawJobs.map raw) ++
        (sortJobs jobs).preparedJobs.map fun _ => lost).Perm (entry::jobs.map each) := by
      intro entry
      rw [List.append_assoc,List.cons_append]
      rw [List.append_assoc] at rest
      exact List.perm_middle.trans (rest.cons _)
    unfold sortJobs
    dsimp only
    rw [List.map_cons]
    cases prepared : job.prepared with
    | speech detected =>
      rw [speech job here ⟨detected,prepared⟩]
      exact List.perm_middle.trans (rest.cons _)
    | noSpeech =>
      rw [noSpeech job here prepared]
      exact rest.cons _
    | fullSpeech speechAnnotations =>
      rw [fullSpeech job here speechAnnotations prepared]
      exact middle _
    | disabled =>
      rw [disabled job here prepared]
      exact middle _

end Sorted

section Synchronous
variable {Options : Type} (pipeline : OfflinePipeline Options)

def transcribeStage (waveform : Waveform) (options : Options) : VadPreparation → Except String Timeline
  | .speech prepared => do
    let annotations ← transcribePrepared pipeline prepared options
    .ok {newTimeline "offline_audio" with annotations}
  | .fullSpeech speechAnnotations => do
    let asrTimeline ← pipeline.asr.transcribe waveform options
    .ok {newTimeline "offline_audio" with annotations := speechAnnotations ++ asrTimeline.annotations}
  | .noSpeech => .ok (newTimeline "offline_audio")
  | .disabled => do
    let asrTimeline ← pipeline.asr.transcribe waveform options
    .ok {newTimeline "offline_audio" with annotations := asrTimeline.annotations}

theorem transcribeStaged (waveform : Waveform) (options : Options) (vadOptions : VadOptions) :
    transcribeWithVadOptions pipeline waveform options vadOptions =
      prepareVadStage pipeline waveform vadOptions >>= transcribeStage pipeline waveform options := by
  unfold transcribeWithVadOptions
  cases prepareVadStage pipeline waveform vadOptions with
  | error error => rfl
  | ok preparation => cases preparation <;> rfl

def syncResult (asrOptions : Options) (job : AsrJob) : Except String Timeline :=
  transcribeStage pipeline job.waveform asrOptions job.prepared

def rawWaveforms (jobs : List AsrJob) : List Waveform := (sortJobs jobs).rawJobs.map fun job => job.1.waveform

structure Recognizes (asrOptions : Options) (jobs : List AsrJob) (f : Waveform → Timeline) : Prop where
  batch : rawWaveforms jobs ≠ [] →
    pipeline.asr.transcribeBatch (rawWaveforms jobs) asrOptions = .ok ((rawWaveforms jobs).map f)
  alone : ∀ waveform ∈ rawWaveforms jobs, pipeline.asr.transcribe waveform asrOptions = .ok (f waveform)

def Headed (timeline : Timeline) : Prop := timeline.mediaId = "offline_audio" ∧ timeline.duration = none

instance : DecidablePred Headed := fun _ => inferInstanceAs (Decidable (_ ∧ _))

end Synchronous

section Outcomes
variable {Options : Type} {pipeline : OfflinePipeline Options} {asrOptions : Options} {jobs : List AsrJob} {job : AsrJob}
  {f : Waveform → Timeline}

/- The index of the outcome of a job: one with segments fails under the first index. -/
def outcomeIndex (job : AsrJob) : Nat := match job.prepared with
  | .speech _ => 0
  | _ => job.index

def batchOutcome (f : Waveform → Timeline) (job : AsrJob) : TranscribeItemOutcome := match job.prepared with
  | .speech _ => lostOutcome
  | .noSpeech => ⟨job.index,.ok (newTimeline "offline_audio"),none⟩
  | .fullSpeech speechAnnotations => rawOutcome (job,speechAnnotations) (f job.waveform)
  | .disabled => rawOutcome (job,[]) (f job.waveform)

theorem rawIndices (rawJobs : List (AsrJob × List Annotation)) :
    (runRawJobs pipeline rawJobs asrOptions).map TranscribeItemOutcome.index = rawJobs.map fun raw => raw.1.index := by
  unfold runRawJobs
  split_ifs with empty
  · rw [empty]
    rfl
  cases pipeline.asr.transcribeBatch (rawJobs.map fun job => job.1.waveform) asrOptions with
  | error error => simp [outcomeFromResult,Function.comp_def]
  | ok timelines =>
    dsimp only
    split_ifs with same
    · have left := List.map_fst_zip same.ge
      rw [← List.map_uncurry_zip_eq_zipWith,List.map_map]
      calc _ = ((rawJobs.zip timelines).map Prod.fst).map fun raw => raw.1.index := by
            rw [List.map_map]
            rfl
        _ = _ := by rw [left]
    · simp [outcomeFromResult,Function.comp_def]

theorem rawRecognized (recognizes : Recognizes pipeline asrOptions jobs f) :
    runRawJobs pipeline (sortJobs jobs).rawJobs asrOptions =
      (sortJobs jobs).rawJobs.map fun raw => rawOutcome raw (f raw.1.waveform) := by
  unfold runRawJobs
  split_ifs with empty
  · rw [empty]
    rfl
  have recognized := recognizes.batch fun none_ => empty (List.map_eq_nil_iff.mp none_)
  unfold rawWaveforms at recognized
  rw [recognized]
  dsimp only
  rw [if_pos (by simp only [List.length_map]),List.map_map,List.zipWith_map_right,List.zipWith_self]
  rfl

theorem indicesPerm : ((runAsrJobsBatch pipeline jobs asrOptions).map TranscribeItemOutcome.index).Perm
    (jobs.map outcomeIndex) := by
  have sorted := (@batchPerm _ pipeline asrOptions jobs).map TranscribeItemOutcome.index
  rw [List.map_append,List.map_append,rawIndices,List.map_map] at sorted
  refine sorted.trans (sortedPerm TranscribeItemOutcome.index (fun raw => raw.1.index) 0 outcomeIndex ?_ ?_ ?_ ?_)
  · intro job _ prepared
    rw [outcomeIndex,prepared]
  · intro job _ speechAnnotations prepared
    rw [outcomeIndex,prepared]
  · intro job _ prepared
    rw [outcomeIndex,prepared]
  · rintro job _ ⟨detected,prepared⟩
    rw [outcomeIndex,prepared]

theorem outcomesPerm (recognizes : Recognizes pipeline asrOptions jobs f) :
    (runAsrJobsBatch pipeline jobs asrOptions).Perm (jobs.map (batchOutcome f)) := by
  have sorted := @batchPerm _ pipeline asrOptions jobs
  rw [rawRecognized recognizes,← List.map_id (sortJobs jobs).outcomes] at sorted
  refine sorted.trans (sortedPerm id (fun raw => rawOutcome raw (f raw.1.waveform)) lostOutcome (batchOutcome f) ?_ ?_ ?_ ?_)
  · intro job _ prepared
    rw [batchOutcome,prepared]
    rfl
  · intro job _ speechAnnotations prepared
    rw [batchOutcome,prepared]
    rfl
  · intro job _ prepared
    rw [batchOutcome,prepared]
    rfl
  · rintro job _ ⟨detected,prepared⟩
    rw [batchOutcome,prepared]

theorem outcomeIndexLe (job : AsrJob) : outcomeIndex job ≤ job.index := by
  unfold outcomeIndex
  split
  · exact Nat.zero_le _
  · exact le_refl _

/- Equal sums of indices leave no room for a job whose index is lost. -/
theorem indicesKept : ((runAsrJobsBatch pipeline jobs asrOptions).map TranscribeItemOutcome.index).Perm (jobs.map AsrJob.index) ↔
    ∀ job ∈ jobs, IsSpeech job → job.index = 0 := by
  constructor
  · intro kept job inside ⟨detected,prepared⟩
    have sums := (indicesPerm.symm.trans kept).sum_eq
    by_contra moved
    have lost : outcomeIndex job < job.index := by
      rw [outcomeIndex,prepared]
      exact Nat.pos_of_ne_zero moved
    exact (List.sum_lt_sum outcomeIndex AsrJob.index (fun job _ => outcomeIndexLe job) ⟨job,inside,lost⟩).ne sums
  · intro zero
    have same : jobs.map outcomeIndex = jobs.map AsrJob.index := by
      refine List.map_congr_left fun job inside => ?_
      unfold outcomeIndex
      split
      · exact (zero job inside ⟨_,‹_›⟩).symm
      · rfl
    exact same ▸ indicesPerm

theorem syncHeaded {timeline : Timeline} (built : syncResult pipeline asrOptions job = .ok timeline) : Headed timeline := by
  unfold syncResult transcribeStage at built
  split at built
  · obtain ⟨annotations,_,made⟩ := exceptBind.mp built
    cases made
    exact ⟨rfl,rfl⟩
  · obtain ⟨asrTimeline,_,made⟩ := exceptBind.mp built
    cases made
    exact ⟨rfl,rfl⟩
  · cases built
    exact ⟨rfl,rfl⟩
  · obtain ⟨asrTimeline,_,made⟩ := exceptBind.mp built
    cases made
    exact ⟨rfl,rfl⟩

theorem rawInside : ∀ job ∈ jobs, ¬IsSpeech job → job.prepared ≠ .noSpeech → job.waveform ∈ rawWaveforms jobs := by
  unfold rawWaveforms
  induction jobs with
  | nil => exact fun _ inside => (by cases inside)
  | cons first jobs ih =>
    intro job inside direct loud
    unfold sortJobs
    dsimp only
    rcases List.mem_cons.mp inside with rfl | later
    · cases prepared : job.prepared with
      | speech detected => exact absurd ⟨detected,prepared⟩ direct
      | noSpeech => exact absurd prepared loud
      | fullSpeech speechAnnotations => exact List.mem_cons_self
      | disabled => exact List.mem_cons_self
    · have found := ih job later direct loud
      cases first.prepared with
      | speech detected => exact found
      | noSpeech => exact found
      | fullSpeech speechAnnotations => exact List.mem_cons_of_mem _ found
      | disabled => exact List.mem_cons_of_mem _ found

def directTimeline (f : Waveform → Timeline) (job : AsrJob) : Timeline := match job.prepared with
  | .fullSpeech speechAnnotations => {f job.waveform with annotations := speechAnnotations ++ (f job.waveform).annotations}
  | .disabled => f job.waveform
  | _ => newTimeline "offline_audio"

theorem batchDirect (direct : ¬IsSpeech job) : batchOutcome f job = ⟨job.index,.ok (directTimeline f job),none⟩ := by
  unfold batchOutcome directTimeline
  cases prepared : job.prepared with
  | speech detected => exact absurd ⟨detected,prepared⟩ direct
  | noSpeech => rfl
  | disabled => rfl
  | fullSpeech speechAnnotations =>
    by_cases silent : speechAnnotations = []
    · simp [rawOutcome,silent]
    · simp [rawOutcome,silent]

theorem syncHeard (direct : ¬IsSpeech job)
    (heard : job.prepared ≠ .noSpeech → pipeline.asr.transcribe job.waveform asrOptions = .ok (f job.waveform)) :
    syncResult pipeline asrOptions job = .ok {newTimeline "offline_audio" with annotations := (directTimeline f job).annotations} := by
  unfold syncResult directTimeline
  cases prepared : job.prepared with
  | speech detected => exact absurd ⟨detected,prepared⟩ direct
  | noSpeech => rfl
  | disabled =>
    rw [transcribeStage,heard (by rw [prepared]; exact VadPreparation.noConfusion)]
    rfl
  | fullSpeech speechAnnotations =>
    rw [transcribeStage,heard (by rw [prepared]; exact VadPreparation.noConfusion)]
    rfl

theorem syncDirect (recognizes : Recognizes pipeline asrOptions jobs f) (inside : job ∈ jobs) (direct : ¬IsSpeech job) :
    syncResult pipeline asrOptions job = .ok {newTimeline "offline_audio" with annotations := (directTimeline f job).annotations} :=
  syncHeard direct fun loud => recognizes.alone _ (rawInside job inside direct loud)

theorem directHeaded (direct : ¬IsSpeech job) :
    Headed (directTimeline f job) ↔ (job.prepared ≠ .noSpeech → Headed (f job.waveform)) := by
  unfold directTimeline
  cases prepared : job.prepared with
  | speech detected => exact absurd ⟨detected,prepared⟩ direct
  | noSpeech => exact ⟨fun _ loud => absurd rfl loud,fun _ => ⟨rfl,rfl⟩⟩
  | disabled => exact ⟨fun headed _ => headed,fun headed => headed VadPreparation.noConfusion⟩
  | fullSpeech speechAnnotations => exact ⟨fun headed _ => headed,fun headed => headed VadPreparation.noConfusion⟩

theorem noneLost (recognizes : Recognizes pipeline asrOptions jobs f)
    (succeeded : ∀ outcome ∈ runAsrJobsBatch pipeline jobs asrOptions, ∃ timeline, outcome.result = .ok timeline) :
    ∀ job ∈ jobs, ¬IsSpeech job := by
  rintro job inside ⟨detected,prepared⟩
  have handed := (outcomesPerm recognizes).mem_iff.mpr (List.mem_map_of_mem (f := batchOutcome f) inside)
  obtain ⟨timeline,got⟩ := succeeded _ handed
  rw [batchOutcome,prepared] at got
  cases got

theorem outcomesDirect (recognizes : Recognizes pipeline asrOptions jobs f) (direct : ∀ job ∈ jobs, ¬IsSpeech job) :
    (runAsrJobsBatch pipeline jobs asrOptions).Perm (jobs.map fun job => ⟨job.index,.ok (directTimeline f job),none⟩) := by
  have same : jobs.map (batchOutcome f) = jobs.map fun job => ⟨job.index,.ok (directTimeline f job),none⟩ :=
    List.map_congr_left fun job inside => batchDirect (direct job inside)
  exact same ▸ outcomesPerm recognizes

theorem directSucceeded (recognizes : Recognizes pipeline asrOptions jobs f) (direct : ∀ job ∈ jobs, ¬IsSpeech job) :
    ∀ outcome ∈ runAsrJobsBatch pipeline jobs asrOptions, ∃ timeline, outcome.result = .ok timeline := by
  intro outcome inside
  obtain ⟨job,_,rfl⟩ := List.mem_map.mp ((outcomesDirect recognizes direct).mem_iff.mp inside)
  exact ⟨directTimeline f job,rfl⟩

end Outcomes

section Batch
variable {Options : Type} (pipeline : OfflinePipeline Options) (asrOptions : Options) (jobs : List AsrJob)

def IndicesKept : Prop := ((runAsrJobsBatch pipeline jobs asrOptions).map TranscribeItemOutcome.index).Perm (jobs.map AsrJob.index)

def AllSucceeded : Prop := ∀ outcome ∈ runAsrJobsBatch pipeline jobs asrOptions, ∃ timeline, outcome.result = .ok timeline

def SyncPart {β : Type} (part : Timeline → β) : Prop :=
  ((runAsrJobsBatch pipeline jobs asrOptions).map fun outcome => (outcome.index,outcome.result.map part)).Perm
    (jobs.map fun job => (job.index,(syncResult pipeline asrOptions job).map part))

end Batch

section Agreement
variable {Options : Type} {pipeline : OfflinePipeline Options} {asrOptions : Options} {jobs : List AsrJob} {f : Waveform → Timeline}

theorem annotationsKept (recognizes : Recognizes pipeline asrOptions jobs f) (direct : ∀ job ∈ jobs, ¬IsSpeech job) :
    SyncPart pipeline asrOptions jobs Timeline.annotations := by
  have handed := (outcomesDirect recognizes direct).map fun outcome => (outcome.index,outcome.result.map Timeline.annotations)
  rw [List.map_map] at handed
  have same : jobs.map ((fun outcome : TranscribeItemOutcome => (outcome.index,outcome.result.map Timeline.annotations)) ∘
      fun job => ⟨job.index,.ok (directTimeline f job),none⟩) =
      jobs.map fun job => (job.index,(syncResult pipeline asrOptions job).map Timeline.annotations) := by
    refine List.map_congr_left fun job inside => ?_
    rw [syncDirect recognizes inside (direct job inside)]
    rfl
  exact handed.trans (.of_eq same)

theorem timelinesKept (recognizes : Recognizes pipeline asrOptions jobs f) (direct : ∀ job ∈ jobs, ¬IsSpeech job)
    (headed : ∀ job ∈ jobs, job.prepared ≠ .noSpeech → Headed (f job.waveform)) : SyncPart pipeline asrOptions jobs id := by
  have handed := (outcomesDirect recognizes direct).map fun outcome => (outcome.index,outcome.result.map id)
  rw [List.map_map] at handed
  have same : jobs.map ((fun outcome : TranscribeItemOutcome => (outcome.index,outcome.result.map id)) ∘
      fun job => ⟨job.index,.ok (directTimeline f job),none⟩) =
      jobs.map fun job => (job.index,(syncResult pipeline asrOptions job).map id) := by
    refine List.map_congr_left fun job inside => ?_
    obtain ⟨mediaId,duration⟩ := (directHeaded (direct job inside)).mpr (headed job inside)
    have whole : {newTimeline "offline_audio" with annotations := (directTimeline f job).annotations} = directTimeline f job := by
      rw [newTimeline,← mediaId,← duration]
    rw [syncDirect recognizes inside (direct job inside),whole]
    rfl
  exact handed.trans (.of_eq same)

theorem timelinesHeaded (recognizes : Recognizes pipeline asrOptions jobs f) (direct : ∀ job ∈ jobs, ¬IsSpeech job)
    (kept : SyncPart pipeline asrOptions jobs id) : ∀ job ∈ jobs, job.prepared ≠ .noSpeech → Headed (f job.waveform) := by
  intro job inside
  have handed := (outcomesDirect recognizes direct).mem_iff.mpr
    (List.mem_map_of_mem (f := fun job => (⟨job.index,.ok (directTimeline f job),none⟩ : TranscribeItemOutcome)) inside)
  have found := kept.mem_iff.mp (List.mem_map_of_mem
    (f := fun outcome : TranscribeItemOutcome => (outcome.index,outcome.result.map id)) handed)
  obtain ⟨other,_,same⟩ := List.mem_map.mp found
  have built : syncResult pipeline asrOptions other = .ok (directTimeline f job) := by
    have right := congrArg Prod.snd same
    cases result : syncResult pipeline asrOptions other with
    | error error =>
      rw [result] at right
      cases right
    | ok timeline =>
      rw [result] at right
      exact right
  exact (directHeaded (direct job inside)).mp (syncHeaded built)

/-- Every job keeps its index iff each job with detected segments has the first one. Where recognition succeeds,
every job succeeds with the annotations of the synchronous path iff no job has detected segments, and with the
whole timeline of it iff recognition also heads its timelines as the synchronous path does. -/
theorem batchJobsAgree (pipeline : OfflinePipeline Options) (asrOptions : Options) (jobs : List AsrJob) :
    (IndicesKept pipeline asrOptions jobs ↔ ∀ job ∈ jobs, IsSpeech job → job.index = 0) ∧
    ∀ f, Recognizes pipeline asrOptions jobs f →
      (AllSucceeded pipeline asrOptions jobs ∧ SyncPart pipeline asrOptions jobs Timeline.annotations ↔
        ∀ job ∈ jobs, ¬IsSpeech job) ∧
      (AllSucceeded pipeline asrOptions jobs ∧ SyncPart pipeline asrOptions jobs id ↔
        (∀ job ∈ jobs, ¬IsSpeech job) ∧ ∀ job ∈ jobs, job.prepared ≠ .noSpeech → Headed (f job.waveform)) := by
  refine ⟨indicesKept,fun f recognizes => ⟨⟨fun agree => noneLost recognizes agree.1,fun direct => ?_⟩,?_,?_⟩⟩
  · exact ⟨directSucceeded recognizes direct,annotationsKept recognizes direct⟩
  · rintro ⟨succeeded,kept⟩
    have direct := noneLost recognizes succeeded
    exact ⟨direct,timelinesHeaded recognizes direct kept⟩
  · rintro ⟨direct,headed⟩
    exact ⟨directSucceeded recognizes direct,timelinesKept recognizes direct headed⟩

def heard (waveform : Waveform) : Timeline :=
  ⟨"offline_audio",none,[⟨⟨0,waveform.samples.length⟩,.final,.model "asr",none,.speech⟩]⟩

def recorder : OfflinePipeline Unit := ⟨none,⟨fun waveform _ => .ok (heard waveform),fun waveforms _ => .ok (waveforms.map heard)⟩⟩

def speechJob (index : Nat) (ranges : List TimeRange) (waveform : Waveform) : AsrJob :=
  let segments := ranges.map fun range => ⟨range,1⟩
  ⟨index,.speech ⟨segments.map speechAnnotation,segments,segments.map fun _ => waveform⟩,waveform⟩

def threeDirect : List AsrJob :=
  [⟨2,.disabled,⟨[1],16000,1⟩⟩,⟨0,.noSpeech,⟨[0,0],16000,1⟩⟩,⟨1,.fullSpeech [ speechAnnotation ⟨⟨0,100⟩,1⟩],⟨[1,0],16000,1⟩⟩]

theorem batchJobsAgreeDirect : AllSucceeded recorder () threeDirect ∧ SyncPart recorder () threeDirect id :=
  ((batchJobsAgree recorder () threeDirect).2 heard ⟨fun _ => rfl,fun _ _ => rfl⟩).2.mpr (by decide)

def twoSpeech : List AsrJob :=
  [speechJob 0 [⟨0,100⟩,⟨250,400⟩] ⟨[1],16000,1⟩,speechJob 1 [⟨50,200⟩] ⟨[1],16000,1⟩]

theorem speechJobsLost : runAsrJobsBatch recorder twoSpeech () = [lostOutcome,lostOutcome] ∧
    ¬IndicesKept recorder () twoSpeech ∧ ¬AllSucceeded recorder () twoSpeech := by
  have run : runAsrJobsBatch recorder twoSpeech () = [lostOutcome,lostOutcome] := rfl
  refine ⟨run,?_,?_⟩
  · rw [IndicesKept,run]
    decide
  · intro succeeded
    rw [AllSucceeded,run] at succeeded
    obtain ⟨timeline,got⟩ := succeeded lostOutcome List.mem_cons_self
    cases got

end Agreement

end Qwen3Asr.TranscribeBatch
