import Qwen3Asr.OfflineProgress

/-! The offline pipeline with stages against the synchronous one. A call that returns timelines returns one for each
waveform, and it does so where every synchronous call does; the timelines agree as long as no segment overtakes another. -/
namespace Qwen3Asr.OfflineAgreement
open Library.Effect Library.Lanes Library.Machine
open MediaData Pipeline SegmentLedger RecognitionLine OfflineBatch AsyncOffline OfflineLine OfflineProgress
open TranscribeBatch hiding runSegmentAsrInference finishSegmentAsrBatch runAsrJobsBatch sortJobs rawInside
open PipelineLine (Ordered jobMessage)
open PipelineOutcomes (preparedSpeech speechSegments speechCut twoSegments)
open PipelineTimelines (assembledSync heardWord wordModel)
open TranscribePipeline (messageJobs)

section Feeds
variable {Options : Type} {p : AsyncOfflinePipeline Options} {waveforms : List Waveform} {i : Nat}

def feedOf (p : AsyncOfflinePipeline Options) (waveforms : List Waveform) : List Message := (toSend p (indexed waveforms)).map toMessage

def groupOf (p : AsyncOfflinePipeline Options) (x : Nat × Waveform) : List Message := match vadMessages p x.1 x.2 with
  | .ok messages => messages.map toMessage
  | .error _ => []

theorem lineStarted : lineOf p (started waveforms) = opened (feedOf p waveforms) := rfl

theorem indexedIndices : (indexed waveforms).map Prod.fst = List.range waveforms.length := by
  rw [indexed,List.map_map,List.range_eq_range']
  exact List.zipIdx_map_snd 0 waveforms

theorem indexedDistinct : ((indexed waveforms).map Prod.fst).Nodup := by
  rw [indexedIndices]
  exact List.nodup_range

theorem indexedAt {waveform : Waveform} : (i,waveform) ∈ indexed waveforms ↔ waveforms[i]? = some waveform := by
  simp [indexed,List.mem_zipIdx_iff_getElem?]

theorem preparedIndex {index : Nat} {waveform : Waveform} {messages : List AsrPipelineMessage} (prepared : Prepared p index waveform messages) :
    ∀ message ∈ messages.map toMessage, messageIndex message = index := by
  intro message inside
  obtain ⟨_,held,rfl⟩ := List.mem_map.mp inside
  cases prepared with
  | whole =>
    cases List.mem_singleton.mp held
    rfl
  | split _ feed =>
    obtain ⟨segment,there,rfl⟩ := List.mem_map.mp held
    exact feed.index segment there

theorem groupIndex (x : Nat × Waveform) : ∀ message ∈ groupOf p x, messageIndex message = x.1 := by
  unfold groupOf
  split
  · next messages sent => exact preparedIndex (sentPrepared sent)
  · exact fun _ none_ => nomatch none_

theorem feedGroups {xs : List (Nat × Waveform)} (all : ¬ Refused p xs) : (toSend p xs).map toMessage = (xs.map (groupOf p)).flatten := by
  induction xs with
  | nil => rfl
  | cons x xs ih =>
    obtain ⟨index,waveform⟩ := x
    have rest := ih fun ⟨y,inside,refused⟩ => all ⟨y,List.mem_cons_of_mem _ inside,refused⟩
    rw [List.map_cons,List.flatten_cons,← rest]
    cases sent : vadMessages p index waveform with
    | ok messages => simp only [toSend,groupOf,sent,List.map_append]
    | error error => exact absurd ⟨_,List.mem_cons_self,error,sent⟩ all

theorem feedInside {waveform : Waveform} (all : ¬ Refused p (indexed waveforms)) (given : waveforms[i]? = some waveform) :
    ∃ messages, Prepared p i waveform messages ∧ lane messageIndex i (feedOf p waveforms) = messages.map toMessage := by
  have inside := indexedAt.mpr given
  cases sent : vadMessages p i waveform with
  | error error => exact absurd ⟨_,inside,error,sent⟩ all
  | ok messages =>
    have lanes : lane messageIndex i ((indexed waveforms).map (groupOf p)).flatten = groupOf p (i,waveform) :=
      laneGroups groupIndex indexedDistinct inside
    refine ⟨messages,sentPrepared sent,?_⟩
    rw [feedOf,feedGroups all,lanes]
    simp only [groupOf,sent]

theorem feedOutside (all : ¬ Refused p (indexed waveforms)) (missing : waveforms.length ≤ i) :
    lane messageIndex i (feedOf p waveforms) = [] := by
  rw [feedOf,feedGroups all]
  refine laneMissing groupIndex fun inside => ?_
  rw [indexedIndices,List.mem_range] at inside
  omega

theorem sentIndices (xs : List (Nat × Waveform)) :
    ((messageJobs ((toSend p xs).map toMessage)).map AsrJob.index).Sublist (xs.map Prod.fst) := by
  induction xs with
  | nil => exact .slnil
  | cons x xs ih =>
    obtain ⟨index,waveform⟩ := x
    cases sent : vadMessages p index waveform with
    | error error =>
      simp only [toSend,sent]
      exact List.nil_sublist _
    | ok messages =>
      have own_ : ((messageJobs (messages.map toMessage)).map AsrJob.index).Sublist [index] := by
        cases sentPrepared sent with
        | whole => exact .refl _
        | split =>
          have none_ : ∀ segments : List AsrSegmentJob, messageJobs ((segments.map .segment).map toMessage) = [] := by
            intro segments
            simp [messageJobs,toMessage,List.filterMap_map]
          rw [none_]
          exact List.nil_sublist _
      simp only [toSend,sent,List.map_append,PipelineLine.jobsAppend]
      exact own_.append ih

theorem jobsDistinct {jobs : List AsrJob} (inside : (jobs.map jobMessage).Subperm (feedOf p waveforms)) : (jobs.map AsrJob.index).Nodup := by
  obtain ⟨messages,same,part⟩ := inside
  have whole : messageJobs (jobs.map jobMessage) = jobs := by
    rw [messageJobs,List.filterMap_map]
    exact List.filterMap_some
  have perm : (messageJobs messages).Perm (messageJobs (jobs.map jobMessage)) := same.filterMap _
  have fewer : (messageJobs messages).Sublist (messageJobs (feedOf p waveforms)) := part.filterMap _
  rw [whole] at perm
  exact (perm.map _).nodup_iff.mp (((fewer.map _).trans (sentIndices _)).nodup indexedDistinct)

end Feeds

section Served
variable {Options : Type} {p : AsyncOfflinePipeline Options} {waveforms : List Waveform}

def sync (p : AsyncOfflinePipeline Options) (waveform : Waveform) : Except String Timeline :=
  transcribeWithVadOptions p.inner waveform p.asrOptions p.vadOptions

def SyncSucceeds (p : AsyncOfflinePipeline Options) (waveforms : List Waveform) : Prop :=
  ∀ waveform ∈ waveforms, ∃ timeline, sync p waveform = .ok timeline

def heardAs (p : AsyncOfflinePipeline Options) (waveform : Waveform) : Timeline := timelineOf p.inner.asr p.asrOptions waveform

/- A whole job is answered with the annotations of the synchronous path, and with a timeline where that path succeeds. -/
def FitsSync (p : AsyncOfflinePipeline Options) (succeeds : Prop) (message : Message) (answer : Answer) : Prop :=
  answer.1 = messageIndex message ∧ ∀ job, message = jobMessage job →
    (∀ timeline, answer.2 = .ok timeline → (syncResult p.inner p.asrOptions job).map Timeline.annotations = .ok timeline.annotations) ∧
    (succeeds → ∃ timeline, answer.2 = .ok timeline)

/- Segments are heard as they are on their own, and fail only where the synchronous path does. -/
structure HeardSync (p : AsyncOfflinePipeline Options) (succeeds : Prop) (segments : List AsrSegmentJob)
    (batch : Except String (List Timeline)) : Prop where
  pointwise : Pointwise (heardAs p) segments batch
  understood : ¬ Failed segments batch = true → ∀ segment ∈ segments, Understood p.inner.asr p.asrOptions segment.waveform
  fails : succeeds → Failed segments batch = true → segments = []

theorem stagedSync {waveform : Waveform} {preparation : VadPreparation} (index : Nat)
    (stage : prepareVadStage p.inner waveform p.vadOptions = .ok preparation) :
    sync p waveform = syncResult p.inner p.asrOptions ⟨index,preparation,waveform⟩ := by
  rw [sync,transcribeStaged,stage]
  rfl

theorem sliceInside {index : Nat} {prepared : VadPrepared} {segment : AsrSegmentJob} (inside : segment ∈ speechSegments index prepared) :
    segment.waveform ∈ prepared.slices := by
  obtain ⟨item,there,rfl⟩ := List.mem_map.mp inside
  exact (List.of_mem_zip (List.fst_mem_of_mem_zipIdx there)).2

theorem waveformInside {x : Nat × Waveform} (inside : x ∈ indexed waveforms) : x.2 ∈ waveforms :=
  List.mem_of_getElem? (indexedAt.mp inside)

theorem sliceSegments {prepared : VadPrepared} (index : Nat) (same : prepared.segments.length = prepared.slices.length) :
    (speechSegments index prepared).map AsrSegmentJob.waveform = prepared.slices := by
  have slices : ((prepared.segments.zip prepared.slices).zipIdx.map Prod.fst).map Prod.snd = prepared.slices := by
    rw [List.zipIdx_map_fst,List.map_snd_zip same.ge]
  rw [speechSegments,List.map_map]
  rwa [List.map_map] at slices

theorem jobUnderstood (succeeds : SyncSucceeds p waveforms) {job : AsrJob} (inside : jobMessage job ∈ feedOf p waveforms)
    (loud : job.prepared ≠ .noSpeech) : Understood p.inner.asr p.asrOptions job.waveform := by
  obtain ⟨_,there,same⟩ := List.mem_map.mp inside
  cases Except.ok.inj same
  obtain ⟨x,given,messages,prepared,held⟩ := sentInside there
  cases prepared with
  | split =>
    obtain ⟨_,_,wrong⟩ := List.mem_map.mp held
    cases wrong
  | whole stage direct =>
    cases List.mem_singleton.mp held
    obtain ⟨timeline,ok⟩ := succeeds _ (waveformInside given)
    rw [stagedSync x.1 stage,syncResult] at ok
    dsimp only at loud ok ⊢
    unfold transcribeStage at ok
    split at ok
    · exact absurd ⟨_,rfl⟩ direct
    · obtain ⟨heard,found,_⟩ := exceptBind.mp ok
      exact ⟨heard,found⟩
    · exact absurd rfl loud
    · obtain ⟨heard,found,_⟩ := exceptBind.mp ok
      exact ⟨heard,found⟩

variable (pointwise : PointwiseAsr p.inner.asr p.asrOptions)
include pointwise

theorem segmentUnderstood (succeeds : SyncSucceeds p waveforms) {segment : AsrSegmentJob}
    (inside : segmentMessage segment ∈ feedOf p waveforms) : Understood p.inner.asr p.asrOptions segment.waveform := by
  obtain ⟨_,there,same⟩ := List.mem_map.mp inside
  cases Except.ok.inj same
  obtain ⟨x,given,messages,prepared,held⟩ := sentInside there
  cases prepared with
  | whole =>
    cases List.mem_singleton.mp held
  | @split prepared stage =>
    obtain ⟨_,own_,same⟩ := List.mem_map.mp held
    cases same
    obtain ⟨timeline,ok⟩ := succeeds _ (waveformInside given)
    rw [stagedSync x.1 stage] at ok
    obtain ⟨annotations,found,_⟩ := exceptBind.mp ok
    obtain ⟨timelines,heard,_⟩ := exceptBind.mp found
    have slice := sliceInside own_
    exact ((batchHeard pointwise (List.ne_nil_of_mem slice)).mp heard).1 _ slice

theorem segmentsHeard {segments : List AsrSegmentJob} (inside : (segments.map segmentMessage).Subperm (feedOf p waveforms)) :
    HeardSync p (SyncSucceeds p waveforms) segments (runSegmentAsrInference p.inner segments p.asrOptions) := by
  by_cases none_ : segments = []
  · subst none_
    exact ⟨fun _ _ none_ => List.length_eq_zero_iff.mp none_,fun _ _ inside => (by cases inside),fun _ _ => rfl⟩
  have some_ : segments.map AsrSegmentJob.waveform ≠ [] := mt List.map_eq_nil_iff.mp none_
  refine ⟨fun timelines ok _ => ?_,fun well segment there => ?_,fun succeeds failed => ?_⟩
  · rw [((batchHeard pointwise some_).mp ok).2,List.map_map]
    rfl
  · obtain ⟨timelines,ok,_⟩ := succeeded well
    exact ((batchHeard pointwise some_).mp ok).1 _ (List.mem_map_of_mem there)
  · have all : ∀ waveform ∈ segments.map AsrSegmentJob.waveform, Understood p.inner.asr p.asrOptions waveform :=
      List.forall_mem_map.mpr fun segment there =>
        segmentUnderstood pointwise succeeds (inside.subset (List.mem_map_of_mem there))
    rw [runSegmentAsrInference,(batchHeard pointwise some_).mpr ⟨all,rfl⟩] at failed
    simp [Failed] at failed

theorem jobsServed {jobs : List AsrJob} (inside : (jobs.map jobMessage).Subperm (feedOf p waveforms)) :
    ∃ answers, List.Forall₂ (FitsSync p (SyncSucceeds p waveforms)) (jobs.map jobMessage) answers ∧
      answers.Perm ((runAsrJobsBatch p.inner jobs p.asrOptions).map stageAnswer) := by
  have there : ∀ job ∈ jobs, jobMessage job ∈ feedOf p waveforms := fun job held => inside.subset (List.mem_map_of_mem held)
  have direct : ∀ job ∈ jobs, ¬ IsSpeech job := by
    intro job held
    obtain ⟨_,sent,same⟩ := List.mem_map.mp (there job held)
    cases Except.ok.inj same
    exact sentDirect sent
  have distinct := jobsDistinct inside
  -- Each job has the answer that the result of its recognition gives.
  have served : ∀ result : AsrJob → StageResult, (∀ job, stageIndex (result job) = job.index) →
      ((sortJobs jobs).rawJobs ≠ [] → runRawAsrJobsBatch p.inner (sortJobs jobs).rawJobs p.asrOptions = (sortJobs jobs).rawJobs.map result) →
      (∀ job ∈ jobs, FitsSync p (SyncSucceeds p waveforms) (jobMessage job) (stageAnswer (stageResult result job))) →
      ∃ answers, List.Forall₂ (FitsSync p (SyncSucceeds p waveforms)) (jobs.map jobMessage) answers ∧
        answers.Perm ((runAsrJobsBatch p.inner jobs p.asrOptions).map stageAnswer) := by
    intro result index raw fits
    refine ⟨jobs.map fun job => stageAnswer (stageResult result job),?_,?_⟩
    · rw [List.forall₂_map_left_iff,List.forall₂_map_right_iff]
      exact List.forall₂_same.mpr fits
    · have perm := (batchPerm direct distinct index raw).symm.map stageAnswer
      rwa [List.map_map] at perm
  by_cases all : ∀ job ∈ (sortJobs jobs).rawJobs, Understood p.inner.asr p.asrOptions job.waveform
  · refine served _ (fun _ => rfl) (fun some_ => rawHeard pointwise some_ all) fun job held => ?_
    have synced : syncResult p.inner p.asrOptions job = _ := syncHeard (f := heardAs p) (direct job held) fun loud =>
      understoodAs (all job (rawHolds held (direct job held) loud))
    have answer : stageAnswer (stageResult (fun job => .ready job.index (timelineOf p.inner.asr p.asrOptions job.waveform)) job) = _ :=
      resultHeard (f := heardAs p) (direct job held)
    rw [answer]
    refine ⟨rfl,fun other same => ⟨fun timeline ok => ?_,fun _ => ⟨_,rfl⟩⟩⟩
    cases same
    cases ok
    rw [synced]
    rfl
  · obtain ⟨reason,failed⟩ := rawFailed pointwise all
    refine served _ (fun _ => rfl) (fun _ => failed) fun job held => ?_
    by_cases loud : job.prepared = .noSpeech
    · rw [stageSilent loud]
      refine ⟨rfl,fun other same => ⟨fun timeline ok => ?_,fun _ => ⟨_,rfl⟩⟩⟩
      cases same
      cases ok
      rw [syncResult,loud]
      rfl
    · rw [resultFailed loud]
      refine ⟨rfl,fun other same => ⟨fun _ wrong => (by cases wrong),fun succeeds => ?_⟩⟩
      refine absurd (fun job raw => ?_) all
      obtain ⟨given,loud⟩ := rawInside job raw
      exact jobUnderstood succeeds (there job given) loud

theorem feedServed : Serves p (FitsSync p (SyncSucceeds p waveforms)) (HeardSync p (SyncSucceeds p waveforms)) (feedOf p waveforms) :=
  ⟨fun _ inside => jobsServed pointwise inside,fun _ inside => segmentsHeard pointwise inside⟩

end Served

section Runs
variable {Options : Type} {p : AsyncOfflinePipeline Options} {waveforms : List Waveform} {actions : List Action} {s : State} {i : Nat}

def failedBatches (p : AsyncOfflinePipeline Options) (waveforms : List Waveform) (actions : List Action) : List (List Nat) :=
  observed (step p waveforms.length) (failing p) (started waveforms) actions

theorem runSound (ran : run (step p waveforms.length) (started waveforms) actions = some s) : Sound p waveforms s :=
  invariant (fun _ _ _ sound one => stepSound sound one) (startedSound waveforms) ran

/-- A run of the stages is a run of the line. -/
theorem runTurns {Same : List Message → List Message → Prop} {allowed : State → Action → Prop}
    (pointwise : PointwiseAsr p.inner.asr p.asrOptions)
    (same : ∀ s action, allowed s action → ∀ xs ys, Ordered (Overtakes s action) xs ys → Same xs ys)
    (along : Along (step p waveforms.length) allowed (started waveforms) actions)
    (ran : run (step p waveforms.length) (started waveforms) actions = some s) :
    Turns Same (FitsSync p (SyncSucceeds p waveforms)) (HeardSync p (SyncSucceeds p waveforms)) (opened (feedOf p waveforms))
      (lineOf p s) (failedBatches p waveforms actions) := by
  have whole := invariantObserved
    (fun s seen => Sound p waveforms s ∧ Turns Same (FitsSync p (SyncSucceeds p waveforms)) (HeardSync p (SyncSucceeds p waveforms))
      (opened (feedOf p waveforms)) (lineOf p s) seen)
    (fun s seen action t free inv one => ⟨stepSound inv.1 one,
      .turn inv.2 (turnSame (stepTurn (servesFewer (feedServed pointwise) inv.1.fewer) one) (same s action free))⟩)
    ⟨startedSound waveforms,.none_⟩ along ran
  exact whole.2

theorem runAny (pointwise : PointwiseAsr p.inner.asr p.asrOptions)
    (ran : run (step p waveforms.length) (started waveforms) actions = some s) :
    Turns List.Perm (FitsSync p (SyncSucceeds p waveforms)) (HeardSync p (SyncSucceeds p waveforms)) (opened (feedOf p waveforms))
      (lineOf p s) (failedBatches p waveforms actions) :=
  runTurns pointwise (fun _ _ _ _ _ both => both.1) (alongAll fun _ _ => trivial) ran

theorem fitsIndex (message : Message) (answer : Answer) (fits : FitsSync p (SyncSucceeds p waveforms) message answer) :
    answer.1 = messageIndex message := fits.1

inductive Share (p : AsyncOfflinePipeline Options) (waveforms : List Waveform) (line : Line) (seen : List (List Nat)) (i : Nat)
    (waveform : Waveform) : Prop where
  | whole {preparation : VadPreparation} (stage : prepareVadStage p.inner waveform p.vadOptions = .ok preparation)
      (fed : lane messageIndex i (feedOf p waveforms) = [ jobMessage ⟨i,preparation,waveform⟩])
      (served : Served (FitsSync p (SyncSucceeds p waveforms)) i [ jobMessage ⟨i,preparation,waveform⟩] line)
      (unfailed : failuresOf i seen = 0) : Share p waveforms line seen i waveform
  | split {prepared : VadPrepared} (stage : prepareVadStage p.inner waveform p.vadOptions = .ok (.speech prepared))
      (feed : Feed i prepared.speechAnnotations (speechSegments i prepared))
      (fed : lane messageIndex i (feedOf p waveforms) = (speechSegments i prepared).map segmentMessage)
      (owed : Owed i (speechSegments i prepared).length line seen) : Share p waveforms line seen i waveform

theorem turnsShare {Heard : List AsrSegmentJob → Except String (List Timeline) → Prop} {line : Line} {seen : List (List Nat)}
    (turns : Turns List.Perm (FitsSync p (SyncSucceeds p waveforms)) Heard (opened (feedOf p waveforms)) line seen)
    (all : ¬ Refused p (indexed waveforms)) {waveform : Waveform} (given : waveforms[i]? = some waveform) :
    Share p waveforms line seen i waveform := by
  obtain ⟨messages,prepared,fed⟩ := feedInside all given
  cases prepared with
  | whole stage =>
    obtain ⟨served,unfailed⟩ := turnsServed fitsIndex turns (i := i) (by simp [fed,toMessage,Direct])
    rw [fed] at served
    exact .whole stage fed served unfailed
  | split stage feed =>
    rw [List.map_map] at fed
    exact .split stage feed fed (turnsOwed fitsIndex turns feed.some_ fed feed.count)

theorem completeDone (done : complete s = true) : s.asrWorker = .done ∧ s.results = [] := by
  unfold complete at done
  split at done
  · next worker => exact ⟨worker,List.isEmpty_iff.mp done⟩
  · cases done

theorem completeAnswered (done : complete s = true) : (lineOf p s).answered = s.indexedResults := by
  obtain ⟨worker,none_⟩ := completeDone done
  simp [lineOf,worker,none_]

/- At the end nothing waits, and the voice activity worker failed just when a waveform was refused. -/
theorem completeEmpty (sound : Sound p waveforms s) (done : complete s = true) : (lineOf p s).waiting = [] ∧
    ∃ result, s.vadWorker = .done result ∧ ((∃ error, result = .error error) ↔ Refused p (indexed waveforms)) := by
  obtain ⟨worker,_⟩ := completeDone done
  obtain ⟨none_,queue,closed⟩ := sound.ended worker
  obtain ⟨result,ended⟩ := closedDone closed
  have fails := sound.fails
  rw [ended] at fails
  exact ⟨by simp [lineOf,waiting,worker,none_,queue,ended],result,ended,fails⟩

end Runs

section Results
variable {Options : Type} {p : AsyncOfflinePipeline Options} {waveforms : List Waveform} {actions : List Action} {s : State} {i : Nat}
  {timelines : List Timeline} {timeline : Timeline}

theorem gathered (ok : gather s = .ok timelines) :
    (s.indexedResults.insertionSort fun a b => a.1 ≤ b.1).map Prod.snd = timelines.map .ok := by
  unfold gather at ok
  split at ok
  · cases ok
  · have pairs := exceptMapM.mp ok
    rw [← List.forall₂_eq_eq_eq,List.forall₂_map_right_iff]
    exact pairs

theorem gatheredAll (ok : gather s = .ok timelines) : ∀ answer ∈ s.indexedResults, ∃ timeline, answer.2 = .ok timeline := by
  intro answer inside
  have there : answer.2 ∈ timelines.map .ok := by
    rw [← gathered ok]
    exact List.mem_map_of_mem ((List.mem_insertionSort _).mpr inside)
  obtain ⟨timeline,_,same⟩ := List.mem_map.mp there
  exact ⟨timeline,same.symm⟩

theorem sortedIndices (indices : (s.indexedResults.map Prod.fst).Perm (List.range waveforms.length)) :
    (s.indexedResults.insertionSort fun a b => a.1 ≤ b.1).map Prod.fst = List.range waveforms.length := by
  have sorted := List.pairwise_insertionSort (fun a b : Answer => a.1 ≤ b.1) s.indexedResults
  have perm := ((List.perm_insertionSort (fun a b : Answer => a.1 ≤ b.1) s.indexedResults).map Prod.fst).trans indices
  exact perm.eq_of_pairwise (fun a b _ _ => Nat.le_antisymm) (List.pairwise_map.mpr sorted)
    (List.pairwise_lt_range.imp Nat.le_of_lt)

theorem gatheredAt (indices : (s.indexedResults.map Prod.fst).Perm (List.range waveforms.length)) (ok : gather s = .ok timelines)
    (found : timelines[i]? = some timeline) : (i,.ok timeline) ∈ s.indexedResults := by
  have result : ((s.indexedResults.insertionSort fun a b => a.1 ≤ b.1).map Prod.snd)[i]? = some (.ok timeline) := by
    rw [gathered ok,List.getElem?_map,found]
    rfl
  rw [List.getElem?_map] at result
  obtain ⟨answer,there,same⟩ := Option.map_eq_some_iff.mp result
  have index : ((s.indexedResults.insertionSort fun a b => a.1 ≤ b.1).map Prod.fst)[i]? = some answer.1 := by
    rw [List.getElem?_map,there]
    rfl
  rw [sortedIndices indices] at index
  obtain ⟨_,own_⟩ := List.getElem?_eq_some_iff.mp index
  rw [List.getElem_range] at own_
  have inside := (List.mem_insertionSort _).mp (List.mem_of_getElem? there)
  rwa [← Prod.mk.eta (p := answer),← own_,same] at inside

theorem gatheredPrepared (sound : Sound p waveforms s) (done : complete s = true) (ok : gather s = .ok timelines) :
    ¬ Refused p (indexed waveforms) := by
  obtain ⟨_,result,ended,fails⟩ := completeEmpty sound done
  intro refused
  obtain ⟨error,rfl⟩ := fails.mpr refused
  rw [gather,ended] at ok
  cases ok

theorem syncPrepared (succeeds : SyncSucceeds p waveforms) : ¬ Refused p (indexed waveforms) := by
  rintro ⟨⟨index,waveform⟩,inside,error,refused⟩
  obtain ⟨timeline,ok⟩ := succeeds _ (waveformInside inside)
  rw [sync,transcribeStaged] at ok
  obtain ⟨preparation,stage,_⟩ := exceptBind.mp ok
  unfold vadMessages at refused
  rw [stage] at refused
  cases preparation with
  | speech prepared =>
    simp [speechCut index waveform (preparedSpeech stage).2,bind,Except.bind] at refused
  | disabled => cases refused
  | noSpeech => cases refused
  | fullSpeech speechAnnotations => cases refused

end Results

section Calls
variable {Options : Type} {p : AsyncOfflinePipeline Options} {waveforms : List Waveform} {actions : List Action} {s : State} {i : Nat}
  {timelines : List Timeline} {timeline : Timeline} (pointwise : PointwiseAsr p.inner.asr p.asrOptions)
  (ran : run (step p waveforms.length) (started waveforms) actions = some s) (done : complete s = true)
include pointwise ran done

/- Every waveform is answered once, or once for each failed batch with its segments. -/
theorem answersCounted (all : ¬ Refused p (indexed waveforms)) (i : Nat) : (resultsFor i s.indexedResults).length =
    if i < waveforms.length then max 1 (failuresOf i (failedBatches p waveforms actions)) else 0 := by
  have turns := runAny pointwise ran
  have empty := (completeEmpty (runSound ran) done).1
  rw [← completeAnswered (p := p) done]
  split
  · next short =>
    cases turnsShare turns all (List.getElem?_eq_getElem short) with
    | whole _ _ served unfailed =>
      rw [(servedEnd served empty).1,unfailed]
      rfl
    | split _ _ _ owed => exact owedEnd owed empty
  · next long =>
    have fed := feedOutside all (not_lt.mp long)
    obtain ⟨served,_⟩ := turnsServed fitsIndex turns (i := i) (by simp [fed])
    rw [(servedEnd served empty).1,fed]
    rfl

theorem failuresErrors (all : ¬ Refused p (indexed waveforms)) (short : i < waveforms.length)
    (failed : 0 < failuresOf i (failedBatches p waveforms actions)) : ∀ result ∈ resultsFor i s.indexedResults, IsError result := by
  rw [← completeAnswered (p := p) done]
  cases turnsShare (runAny pointwise ran) all (List.getElem?_eq_getElem short) with
  | whole _ _ _ unfailed => omega
  | split _ _ _ owed => exact owedErrors owed failed

theorem gatheredClean (ok : gather s = .ok timelines) (short : i < waveforms.length) :
    failuresOf i (failedBatches p waveforms actions) = 0 := by
  have all := gatheredPrepared (runSound ran) done ok
  by_contra some_
  have counted := answersCounted pointwise ran done all i
  rw [if_pos short] at counted
  obtain ⟨result,inside⟩ := List.exists_mem_of_length_pos (by omega : 0 < (resultsFor i s.indexedResults).length)
  obtain ⟨reason,wrong⟩ := failuresErrors pointwise ran done all short (Nat.pos_of_ne_zero some_) result inside
  obtain ⟨answer,there,rfl⟩ := List.mem_map.mp inside
  obtain ⟨timeline,right⟩ := gatheredAll ok answer (memLane.mp there).1
  rw [right] at wrong
  cases wrong

theorem gatheredIndices (ok : gather s = .ok timelines) : (s.indexedResults.map Prod.fst).Perm (List.range waveforms.length) := by
  have all := gatheredPrepared (runSound ran) done ok
  refine List.perm_iff_count.mpr fun i => ?_
  rw [← PipelineOutcomes.countResults,answersCounted pointwise ran done all i]
  split
  · next short =>
    rw [gatheredClean pointwise ran done ok short,List.count_eq_one_of_mem List.nodup_range (List.mem_range.mpr short)]
    rfl
  · next long => rw [List.count_eq_zero_of_not_mem (mt List.mem_range.mp long)]

theorem gatheredLength (ok : gather s = .ok timelines) : timelines.length = waveforms.length := by
  have sorted := congrArg List.length (gathered ok)
  have indices := (gatheredIndices pointwise ran done ok).length_eq
  rw [List.length_map,List.length_insertionSort,List.length_map] at sorted
  rw [List.length_map,List.length_range] at indices
  exact sorted.symm.trans indices

theorem succeededAll (succeeds : SyncSucceeds p waveforms) : ∀ answer ∈ s.indexedResults, ∃ timeline, answer.2 = .ok timeline := by
  intro answer inside
  have turns := runAny pointwise ran
  have empty := (completeEmpty (runSound ran) done).1
  have all := syncPrepared succeeds
  have result : answer.2 ∈ resultsFor answer.1 s.indexedResults := List.mem_map_of_mem (memLane.mpr ⟨inside,rfl⟩)
  have counted := answersCounted pointwise ran done all answer.1
  have short : answer.1 < waveforms.length := by
    by_contra long
    rw [if_neg long] at counted
    rw [List.length_eq_zero_iff.mp counted] at result
    cases result
  rw [← completeAnswered (p := p) done] at result
  cases turnsShare turns all (List.getElem?_eq_getElem short) with
  | whole _ _ served =>
    obtain ⟨message,there,fits⟩ := (servedEnd served empty).2 _ result
    cases List.mem_singleton.mp there
    exact (fits.2 _ rfl).2 succeeds
  | split _ _ _ owed =>
    have clean := turnsUnfailed turns (fun _ _ heard failed => heard.fails succeeds failed) (i := answer.1)
    obtain ⟨timeline,only⟩ := owedDone owed empty clean
    rw [only] at result
    exact ⟨timeline,List.mem_singleton.mp result⟩

theorem succeededGathers (succeeds : SyncSucceeds p waveforms) : ∃ timelines, gather s = .ok timelines := by
  obtain ⟨_,result,ended,fails⟩ := completeEmpty (runSound ran) done
  have each := succeededAll pointwise ran done succeeds
  have none_ : ∀ error, s.vadWorker ≠ .done (.error error) := by
    intro error same
    rw [ended] at same
    cases same
    exact syncPrepared succeeds (fails.mp ⟨error,rfl⟩)
  unfold gather
  split
  · next error same => exact absurd same (none_ error)
  · let timelineFor (result : Except String Timeline) := result.toOption.getD (newTimeline "offline_audio")
    refine ⟨_,exceptMapAll (g := timelineFor) fun result inside => ?_⟩
    obtain ⟨answer,there,rfl⟩ := List.mem_map.mp inside
    obtain ⟨timeline,ok⟩ := each answer ((List.mem_insertionSort _).mp there)
    rw [ok]
    rfl

/- As long as no segment overtakes another, a timeline that is gathered is that of the synchronous path. -/
theorem gatheredAgree (inStep : Along (step p waveforms.length) (fun s action => ¬ Overtakes s action) (started waveforms) actions)
    (ok : gather s = .ok timelines) {waveform : Waveform} (given : waveforms[i]? = some waveform) (found : timelines[i]? = some timeline) :
    (sync p waveform).map Timeline.annotations = .ok timeline.annotations := by
  have turns : Turns (fun xs ys => xs.Perm ys ∧ SameSegments xs ys) _ _ _ _ _ := runTurns pointwise
    (fun s action free xs ys both => ⟨both.1,both.2 free⟩) inStep ran
  have loose := turnsSame turns fun _ _ both => both.1
  have empty := (completeEmpty (runSound ran) done).1
  have short : i < waveforms.length := (List.getElem?_eq_some_iff.mp given).1
  have inside := gatheredAt (gatheredIndices pointwise ran done ok) ok found
  have result : .ok timeline ∈ resultsFor i (lineOf p s).answered := by
    rw [completeAnswered done]
    exact List.mem_map.mpr ⟨_,memLane.mpr ⟨inside,rfl⟩,rfl⟩
  cases turnsShare loose (gatheredPrepared (runSound ran) done ok) given with
  | whole stage _ served =>
    obtain ⟨message,there,fits⟩ := (servedEnd served empty).2 _ result
    cases List.mem_singleton.mp there
    rw [stagedSync i stage]
    exact (fits.2 _ rfl).1 timeline rfl
  | @split prepared stage feed fed owed =>
    have segments := turnsInOrder fitsIndex (turnsHeard turns fun _ _ heard => heard.pointwise) feed fed
    have spoken := turnsSpoken loose fun _ _ heard well => heard.understood well
    have understood : ∀ slice ∈ prepared.slices, Understood p.inner.asr p.asrOptions slice := by
      intro slice there
      rw [← sliceSegments i (preparedSpeech stage).2] at there
      obtain ⟨segment,own_,rfl⟩ := List.mem_map.mp there
      have sent : segmentMessage segment ∈ lane messageIndex i (feedOf p waveforms) := by
        rw [fed]
        exact List.mem_map_of_mem own_
      rcases spoken segment (memLane.mp sent).1 with waits | failed | clear
      · rw [empty] at waits
        cases waits
      · rw [feed.index segment own_,gatheredClean pointwise ran done ok short] at failed
        exact absurd failed (Nat.lt_irrefl 0)
      · exact clear
    have slices : prepared.slices ≠ [] := by
      rw [← List.length_pos_iff,← (preparedSpeech stage).2]
      exact List.length_pos_of_ne_nil (preparedSpeech stage).1
    have heard := (batchHeard pointwise slices).mpr ⟨understood,rfl⟩
    rw [sync,assembledSync stage heard,inOrderTimeline segments owed result]
    rfl

end Calls

section Theorem
variable {Options : Type}

/- No segment overtakes another of its waveform. -/
def InStep (p : AsyncOfflinePipeline Options) (waveforms : List Waveform) (actions : List Action) : Prop :=
  Along (step p waveforms.length) (fun s action => ¬ Overtakes s action) (started waveforms) actions

instance (p : AsyncOfflinePipeline Options) (waveforms : List Waveform) (actions : List Action) : Decidable (InStep p waveforms actions) :=
  inferInstanceAs (Decidable (Along ..))

/- One timeline for each waveform, with the annotations of the synchronous path. -/
def Agree (p : AsyncOfflinePipeline Options) (waveforms : List Waveform) (timelines : List Timeline) : Prop :=
  List.Forall₂ (fun waveform timeline => (sync p waveform).map Timeline.annotations = .ok timeline.annotations) waveforms timelines

/-- A call that returns timelines returns one for each waveform, and it returns timelines where every synchronous call
does. In a run in which no segment is taken from the channel while a message of its waveform is stashed, the timelines
have the annotations of the synchronous calls. Every run is bounded, and some step is possible until it is complete. -/
theorem offlineCallsAgree (p : AsyncOfflinePipeline Options) (pointwise : PointwiseAsr p.inner.asr p.asrOptions) (waveforms : List Waveform) :
    (∀ actions result, transcribeMany p waveforms actions = some result →
      (∀ timelines, result = .ok timelines → timelines.length = waveforms.length) ∧
      (SyncSucceeds p waveforms → ∃ timelines, result = .ok timelines) ∧
      (InStep p waveforms actions → ∀ timelines, result = .ok timelines → Agree p waveforms timelines)) ∧
    (waveforms ≠ [] → ∃ most, ∀ actions s, run (step p waveforms.length) (started waveforms) actions = some s →
      actions.length ≤ most ∧ (complete s = true ∨ ∃ action t, step p waveforms.length s action = some t)) := by
  refine ⟨fun actions result called => ?_,fun some_ => ⟨work p (started waveforms),fun actions s ran => ?_⟩⟩
  · unfold transcribeMany at called
    split at called
    · cases called
      refine ⟨fun _ ok => ?_,fun _ => ⟨_,rfl⟩,fun _ _ ok => ?_⟩
      · cases ok
        rfl
      · cases ok
        exact .nil
    · next waveform =>
      cases called
      cases alone : sync p waveform with
      | error error =>
        have failed : transcribeWithVadOptions p.inner waveform p.asrOptions p.vadOptions = .error error := alone
        rw [failed]
        refine ⟨fun _ ok => (by cases ok),fun succeeds => ?_,fun _ _ ok => (by cases ok)⟩
        obtain ⟨timeline,ok⟩ := succeeds waveform List.mem_cons_self
        rw [alone] at ok
        cases ok
      | ok timeline =>
        have heard : transcribeWithVadOptions p.inner waveform p.asrOptions p.vadOptions = .ok timeline := alone
        rw [heard]
        refine ⟨fun _ ok => ?_,fun _ => ⟨_,rfl⟩,fun _ _ ok => ?_⟩
        · cases ok
          rfl
        · cases ok
          exact .cons (by rw [alone]; rfl) .nil
    · split at called
      · next s ran =>
        split_ifs at called with done
        cases called
        refine ⟨fun _ ok => gatheredLength pointwise ran done ok,succeededGathers pointwise ran done,fun inStep timelines ok => ?_⟩
        have same := gatheredLength pointwise ran done ok
        refine List.forall₂_iff_get.mpr ⟨same.symm,fun i _ _ => ?_⟩
        exact gatheredAgree pointwise ran done inStep ok (List.getElem?_eq_getElem _) (List.getElem?_eq_getElem _)
      · cases called
  · have sound := runSound ran
    exact ⟨runBounded (startedSound waveforms) ran,neverStuck sound (List.length_pos_of_ne_nil some_)⟩

def staged (segments : List VadSegment) : AsyncOfflinePipeline Unit where
  inner := ⟨some fun waveform _ => .ok (if waveform.samples.isEmpty then [] else segments),wordModel⟩
  asrOptions := ()
  maxBatchSize := 2
  vadOptions := ⟨1/2,0,0,0,0⟩
  stageBuffer := 4

theorem wordPointwise (segments : List VadSegment) : PointwiseAsr (staged segments).inner.asr () := by
  intro waveforms timelines _
  change Except.ok (waveforms.map heardWord) = .ok timelines ↔ List.Forall₂ (fun waveform timeline => Except.ok (heardWord waveform) = .ok timeline) waveforms timelines
  simp only [Except.ok.injEq]
  rw [← List.forall₂_map_left_iff (f := heardWord),List.forall₂_eq_eq_eq]

def oneSegment : List VadSegment := [⟨⟨1000,2000⟩,1⟩]

def silence : Waveform := ⟨[],1,1⟩

def speech : Waveform := ⟨[0,1,0,0,0,0,1,0,0,0],1,1⟩

/- The segment of the second waveform is stashed while the jobs of the other two are collected. -/
def stashing : List Action :=
  [.prepareVad,.sendMessage,.recvAsrMessage,.prepareVad,.sendMessage,.takeMessage,.prepareVad,.sendMessage,.finishVad,.takeMessage,
    .runBatch,.sendResult,.sendResult,.recvResult,.recvResult,.recvAsrMessage,.stopCollecting,.runBatch,.sendResult,.recvResult,.finishAsr]

theorem offlineCallsAgreeStashed : ∃ timelines, transcribeMany (staged oneSegment) [silence,speech,silence] stashing = some (.ok timelines) ∧
    Agree (staged oneSegment) [silence,speech,silence] timelines := by
  have returned : (transcribeMany (staged oneSegment) [silence,speech,silence] stashing).isSome := by decide +kernel
  obtain ⟨result,called⟩ := Option.isSome_iff_exists.mp returned
  obtain ⟨_,succeeds,agree⟩ := (offlineCallsAgree (staged oneSegment) (wordPointwise oneSegment) _).1 stashing result called
  have synchronous : SyncSucceeds (staged oneSegment) [silence,speech,silence] := by
    intro waveform inside
    simp only [List.mem_cons,List.not_mem_nil,or_false] at inside
    rcases inside with rfl | rfl | rfl
    · exact ⟨_,rfl⟩
    · exact exceptIsOk.mp (by decide +kernel)
    · exact ⟨_,rfl⟩
  obtain ⟨timelines,rfl⟩ := succeeds synchronous
  exact ⟨timelines,called,agree (by decide +kernel) timelines rfl⟩

/- Both segments of the second waveform are stashed while the job of the first one is collected, the second in front. -/
def overtaking : List Action :=
  [.prepareVad,.sendMessage,.recvAsrMessage,.prepareVad,.sendMessage,.takeMessage,.sendMessage,.takeMessage,.finishVad,
    .runBatch,.sendResult,.recvAsrMessage,.stopCollecting,.runBatch,.recvAsrMessage,.stopCollecting,.runBatch,.sendResult,
    .recvResult,.recvResult,.finishAsr]

def rangesOf (timeline : Timeline) : List TimeRange := timeline.annotations.map Annotation.range

/- The speech is lost, and what is heard in it stands in the wrong order. -/
theorem stashedSwapped : ∃ timelines, transcribeMany (staged twoSegments) [silence,speech] overtaking = some (.ok timelines) ∧
    PointwiseAsr (staged twoSegments).inner.asr () ∧ timelines.map rangesOf = [[],[⟨5500,6500⟩,⟨500,1500⟩]] ∧
    (sync (staged twoSegments) speech).map rangesOf = .ok [⟨1000,2000⟩,⟨6000,7000⟩,⟨500,1500⟩,⟨5500,6500⟩] ∧
    ¬ Agree (staged twoSegments) [silence,speech] timelines := by
  have ranges : (transcribeMany (staged twoSegments) [silence,speech] overtaking).map (fun result => result.map (List.map rangesOf)) =
      some (.ok [[],[⟨5500,6500⟩,⟨500,1500⟩]]) := by decide +kernel
  have expected : (sync (staged twoSegments) speech).map rangesOf = .ok [⟨1000,2000⟩,⟨6000,7000⟩,⟨500,1500⟩,⟨5500,6500⟩] := by
    decide +kernel
  obtain ⟨result,called,mapped⟩ := Option.map_eq_some_iff.mp ranges
  cases result with
  | error error => cases mapped
  | ok timelines =>
    have shown := Except.ok.inj mapped
    refine ⟨timelines,called,wordPointwise twoSegments,shown,expected,fun agree => ?_⟩
    obtain ⟨first,_,_,rest,rfl⟩ := List.forall₂_cons_left_iff.mp agree
    obtain ⟨timeline,_,same,_,rfl⟩ := List.forall₂_cons_left_iff.mp rest
    simp only [List.map_cons,List.cons.injEq] at shown
    cases built : sync (staged twoSegments) speech with
    | error error =>
      rw [built] at same
      cases same
    | ok other =>
      rw [built] at same expected
      have annotations : other.annotations = timeline.annotations := Except.ok.inj same
      have here : rangesOf other = _ := Except.ok.inj expected
      rw [rangesOf,annotations,show timeline.annotations.map Annotation.range = _ from shown.2.1] at here
      simp at here

end Theorem

end Qwen3Asr.OfflineAgreement
