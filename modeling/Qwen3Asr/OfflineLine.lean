import Qwen3Asr.AsyncOffline

/-! The line behind the offline pipeline with stages: what recognition has collected, what it stashed, what the channel
holds and what is still to be prepared. Every step is a turn of it. -/
namespace Qwen3Asr.OfflineLine
open Library.Lanes
open MediaData Pipeline SegmentLedger RecognitionLine OfflineBatch AsyncOffline
open TranscribeBatch hiding runSegmentAsrInference finishSegmentAsrBatch runAsrJobsBatch
open PipelineLine (Ordered orderedSame takenOrder jobMessage)

section Line
variable {Options : Type} (p : AsyncOfflinePipeline Options)

def toMessage (message : AsrPipelineMessage) : Message := .ok message

def workerMessages : AsrWorker → List AsrPipelineMessage
  | .collectingJobs jobs _ => jobs.map .job
  | .collectingSegments segments _ => segments.map .segment
  | .runningJobs jobs => jobs.map .job
  | .runningSegments segments => segments.map .segment
  | _ => []

def workerResults : AsrWorker → List StageResult
  | .sending results => results
  | _ => []

def toSend : List (Nat × Waveform) → List AsrPipelineMessage
  | [] => []
  | (index,waveform)::waveforms => match vadMessages p index waveform with
    | .ok messages => messages ++ toSend waveforms
    | .error _ => []

def vadSends : VadWorker → List AsrPipelineMessage
  | .preparing waveforms => toSend p waveforms
  | .sending messages waveforms => messages ++ toSend p waveforms
  | .done _ => []

def waiting (s : State) : List AsrPipelineMessage :=
  workerMessages s.asrWorker ++ (s.pending ++ (s.asrQueue ++ vadSends p s.vadWorker))

def lineOf (s : State) : Line where
  waiting := (waiting p s).map toMessage
  segments := s.segmentState
  answered := s.indexedResults ++ (s.results ++ workerResults s.asrWorker).map stageAnswer

/- A segment is taken from the channel while a message of its waveform is stashed. -/
def Overtakes (s : State) (action : Action) : Prop := match action, s.asrQueue with
  | .takeMessage, .segment segment::_ => segment.jobIndex ∈ s.pending.map fun message => messageIndex (toMessage message)
  | _, _ => False

instance (s : State) (action : Action) : Decidable (Overtakes s action) := by
  unfold Overtakes
  split <;> infer_instance

def failing (s : State) (action : Action) : List (List Nat) := match action, s.asrWorker with
  | .runBatch, .runningSegments segments => failedJobs segments (runSegmentAsrInference p.inner segments p.asrOptions)
  | _, _ => []

end Line

section Worker
variable {Options : Type} {p : AsyncOfflinePipeline Options}

@[simp] theorem preparingSends (waveforms : List (Nat × Waveform)) : vadSends p (.preparing waveforms) = toSend p waveforms := rfl

@[simp] theorem sendingSends (messages : List AsrPipelineMessage) (waveforms : List (Nat × Waveform)) :
    vadSends p (.sending messages waveforms) = messages ++ toSend p waveforms := rfl

@[simp] theorem doneSends (result : Except String Unit) : vadSends p (.done result) = [] := rfl

@[simp] theorem sendNextSends (messages : List AsrPipelineMessage) (waveforms : List (Nat × Waveform)) :
    vadSends p (sendNext messages waveforms) = messages ++ toSend p waveforms := by cases messages <;> rfl

@[simp] theorem receivingMessages : workerMessages .receiving = [] := rfl

@[simp] theorem receivingResults : workerResults .receiving = [] := rfl

@[simp] theorem collectingJobsMessages (jobs : List AsrJob) (waiting : Bool) :
    workerMessages (.collectingJobs jobs waiting) = jobs.map .job := rfl

@[simp] theorem collectingJobsResults (jobs : List AsrJob) (waiting : Bool) : workerResults (.collectingJobs jobs waiting) = [] := rfl

@[simp] theorem collectingMessages (segments : List AsrSegmentJob) (waiting : Bool) :
    workerMessages (.collectingSegments segments waiting) = segments.map .segment := rfl

@[simp] theorem collectingResults (segments : List AsrSegmentJob) (waiting : Bool) :
    workerResults (.collectingSegments segments waiting) = [] := rfl

@[simp] theorem runningJobsMessages (jobs : List AsrJob) : workerMessages (.runningJobs jobs) = jobs.map .job := rfl

@[simp] theorem runningJobsResults (jobs : List AsrJob) : workerResults (.runningJobs jobs) = [] := rfl

@[simp] theorem runningMessages (segments : List AsrSegmentJob) : workerMessages (.runningSegments segments) = segments.map .segment := rfl

@[simp] theorem runningResults (segments : List AsrSegmentJob) : workerResults (.runningSegments segments) = [] := rfl

@[simp] theorem sendingMessages (results : List StageResult) : workerMessages (.sending results) = [] := rfl

@[simp] theorem sendingResults (results : List StageResult) : workerResults (.sending results) = results := rfl

@[simp] theorem doneMessages : workerMessages .done = [] := rfl

@[simp] theorem doneResults : workerResults .done = [] := rfl

@[simp] theorem sendThenMessages (results : List StageResult) : workerMessages (sendThen results) = [] := by cases results <;> rfl

@[simp] theorem sendThenResults (results : List StageResult) : workerResults (sendThen results) = results := by
  cases results <;> rfl

@[simp] theorem jobsMessages (jobs : List AsrJob) (waiting : Bool) :
    workerMessages (collectJobMicrobatch p jobs waiting) = jobs.map .job := by
  unfold collectJobMicrobatch
  split <;> rfl

@[simp] theorem jobsResults (jobs : List AsrJob) (waiting : Bool) : workerResults (collectJobMicrobatch p jobs waiting) = [] := by
  unfold collectJobMicrobatch
  split <;> rfl

@[simp] theorem segmentsMessages (segments : List AsrSegmentJob) (waiting : Bool) :
    workerMessages (collectSegmentMicrobatch p segments waiting) = segments.map .segment := by
  unfold collectSegmentMicrobatch
  split <;> rfl

@[simp] theorem segmentsResults (segments : List AsrSegmentJob) (waiting : Bool) :
    workerResults (collectSegmentMicrobatch p segments waiting) = [] := by
  unfold collectSegmentMicrobatch
  split <;> rfl

@[simp] theorem acceptMessages (message : AsrPipelineMessage) : workerMessages (accept p message) = [message] := by
  cases message <;> simp [accept]

@[simp] theorem acceptResults (message : AsrPipelineMessage) : workerResults (accept p message) = [] := by
  cases message <;> simp [accept]

@[simp] theorem stopJobs (waiting : Bool) (jobs : List AsrJob) :
    workerMessages (if waiting then .runningJobs jobs else .collectingJobs jobs true) = jobs.map .job := by cases waiting <;> rfl

@[simp] theorem stopJobsResults (waiting : Bool) (jobs : List AsrJob) :
    workerResults (if waiting then .runningJobs jobs else .collectingJobs jobs true) = [] := by cases waiting <;> rfl

@[simp] theorem stopSegments (waiting : Bool) (segments : List AsrSegmentJob) :
    workerMessages (if waiting then .runningSegments segments else .collectingSegments segments true) = segments.map .segment := by
  cases waiting <;> rfl

@[simp] theorem stopSegmentsResults (waiting : Bool) (segments : List AsrSegmentJob) :
    workerResults (if waiting then .runningSegments segments else .collectingSegments segments true) = [] := by
  cases waiting <;> rfl

end Worker

section Moves
variable {Options : Type} {p : AsyncOfflinePipeline Options} {s t : State} {Fits : Message → Answer → Prop}
  {Heard : List AsrSegmentJob → Except String (List Timeline) → Prop} {overtakes : Prop}

theorem keptTurn (same : waiting p t = waiting p s) (segments : t.segmentState = s.segmentState)
    (answered : (lineOf p t).answered = (lineOf p s).answered) :
    Turn (Ordered overtakes) Fits Heard (lineOf p s) (lineOf p t) [] := by
  refine movedLine (orderedSame (sameOf ?_)) segments answered
  simp only [lineOf,same]

theorem passedTurn (message : AsrPipelineMessage) (before behind : List AsrPipelineMessage)
    (waits : waiting p s = before ++ (s.pending ++ message::behind)) (left : waiting p t = before ++ message::(s.pending ++ behind))
    (free : ¬ overtakes → ∀ segment, message = .segment segment →
      segment.jobIndex ∉ s.pending.map fun message => messageIndex (toMessage message))
    (segments : t.segmentState = s.segmentState) (answered : (lineOf p t).answered = (lineOf p s).answered) :
    Turn (Ordered overtakes) Fits Heard (lineOf p s) (lineOf p t) [] := by
  refine movedLine ?_ segments answered
  simp only [lineOf,waits,left]
  cases message with
  | segment segment =>
    have passed := @takenOrder segment (before.map toMessage) (s.pending.map toMessage) (behind.map toMessage) overtakes
      fun allowed => by simpa only [List.map_map,Function.comp_def] using free allowed segment rfl
    simpa [segmentMessage,toMessage] using passed
  | job job =>
    refine ⟨(List.perm_middle.append_left before).map toMessage,fun _ => ?_⟩
    have silent : waitingSegments [ toMessage (.job job)] = [] := rfl
    have split : ∀ messages more : List AsrPipelineMessage, waitingSegments ((messages ++ .job job::more).map toMessage) =
        waitingSegments (messages.map toMessage) ++ waitingSegments (more.map toMessage) := by
      intro messages more
      rw [List.map_append,List.map_cons,← List.singleton_append,segmentsAppend,segmentsAppend,silent,List.nil_append]
    refine sameOf ?_
    rw [← List.append_assoc,split,split,List.map_append,List.map_append,segmentsAppend,segmentsAppend,List.append_assoc]

theorem prepareTurn (ran : prepareVad p s = some t) : Turn (Ordered overtakes) Fits Heard (lineOf p s) (lineOf p t) [] := by
  unfold prepareVad at ran
  split at ran
  · next index waveform waveforms worker =>
    split at ran
    · next messages sent =>
      cases ran
      exact keptTurn (by simp [waiting,worker,toSend,sent]) rfl rfl
    · next error refused =>
      cases ran
      exact keptTurn (by simp [waiting,worker,toSend,refused]) rfl rfl
  · cases ran

theorem sendTurn (ran : sendMessage p s = some t) : Turn (Ordered overtakes) Fits Heard (lineOf p s) (lineOf p t) [] := by
  unfold sendMessage at ran
  split at ran
  · next message messages waveforms worker =>
    split_ifs at ran
    cases ran
    exact keptTurn (by simp [waiting,worker]) rfl rfl
  · cases ran

theorem finishVadTurn (ran : finishVad s = some t) : Turn (Ordered overtakes) Fits Heard (lineOf p s) (lineOf p t) [] := by
  unfold finishVad at ran
  split at ran
  · next worker =>
    cases ran
    exact keptTurn (by simp [waiting,worker,toSend]) rfl rfl
  · cases ran

theorem recvTurn (ran : recvAsrMessage p s = some t) : Turn (Ordered overtakes) Fits Heard (lineOf p s) (lineOf p t) [] := by
  unfold recvAsrMessage at ran
  split at ran
  · next message pending worker stashed =>
    cases ran
    exact keptTurn (by simp [waiting,worker,stashed]) rfl (by simp [lineOf,worker])
  · next message asrQueue worker none_ queue =>
    cases ran
    exact keptTurn (by simp [waiting,worker,none_,queue]) rfl (by simp [lineOf,worker])
  · cases ran

theorem takeTurn (ran : takeMessage p s = some t) :
    Turn (Ordered (Overtakes s .takeMessage)) Fits Heard (lineOf p s) (lineOf p t) [] := by
  have free : ∀ {message : AsrPipelineMessage} {asrQueue : List AsrPipelineMessage}, s.asrQueue = message::asrQueue →
      ¬ Overtakes s .takeMessage → ∀ segment, message = .segment segment →
        segment.jobIndex ∉ s.pending.map fun message => messageIndex (toMessage message) := by
    rintro _ asrQueue queue allowed segment rfl
    simpa only [Overtakes,queue] using allowed
  unfold takeMessage at ran
  split at ran
  · next jobs waiting_ job asrQueue worker queue =>
    cases ran
    refine passedTurn (.job job) (jobs.map .job) (asrQueue ++ vadSends p s.vadWorker) ?_ ?_ (free queue) rfl (by simp [lineOf,worker])
    · simp [waiting,worker,queue]
    · simp [waiting]
  · next jobs waiting_ message asrQueue _ worker queue =>
    cases ran
    refine passedTurn message (jobs.map .job) (asrQueue ++ vadSends p s.vadWorker) ?_ ?_ (free queue) rfl (by simp [lineOf,worker])
    · simp [waiting,worker,queue]
    · simp [waiting]
  · next segments waiting_ segment asrQueue worker queue =>
    cases ran
    refine passedTurn (.segment segment) (segments.map .segment) (asrQueue ++ vadSends p s.vadWorker) ?_ ?_ (free queue) rfl
      (by simp [lineOf,worker])
    · simp [waiting,worker,queue]
    · simp [waiting]
  · next segments waiting_ message asrQueue _ worker queue =>
    cases ran
    refine passedTurn message (segments.map .segment) (asrQueue ++ vadSends p s.vadWorker) ?_ ?_ (free queue) rfl
      (by simp [lineOf,worker])
    · simp [waiting,worker,queue]
    · simp [waiting]
  · cases ran

theorem awaitTurn (ran : awaitMessage s = some t) : Turn (Ordered overtakes) Fits Heard (lineOf p s) (lineOf p t) [] := by
  unfold awaitMessage at ran
  split at ran
  · next jobs worker queue =>
    split_ifs at ran
    cases ran
    exact keptTurn (by simp [waiting,worker]) rfl (by simp [lineOf,worker])
  · next segments worker queue =>
    split_ifs at ran
    cases ran
    exact keptTurn (by simp [waiting,worker]) rfl (by simp [lineOf,worker])
  · cases ran

theorem stopTurn (ran : stopCollecting s = some t) : Turn (Ordered overtakes) Fits Heard (lineOf p s) (lineOf p t) [] := by
  unfold stopCollecting at ran
  split at ran
  · next jobs waiting_ worker queue =>
    split_ifs at ran
    cases ran
    exact keptTurn (by simp [waiting,worker]) rfl (by simp [lineOf,worker])
  · next segments waiting_ worker queue =>
    split_ifs at ran
    cases ran
    exact keptTurn (by simp [waiting,worker]) rfl (by simp [lineOf,worker])
  · cases ran

theorem sendResultTurn {jobCount : Nat} (ran : sendResult jobCount s = some t) :
    Turn (Ordered overtakes) Fits Heard (lineOf p s) (lineOf p t) [] := by
  unfold sendResult at ran
  split at ran
  · next result results worker =>
    split_ifs at ran
    cases ran
    exact keptTurn (by simp [waiting,worker]) rfl (by simp [lineOf,worker])
  · cases ran

theorem finishTurn (ran : finishAsr s = some t) : Turn (Ordered overtakes) Fits Heard (lineOf p s) (lineOf p t) [] := by
  unfold finishAsr at ran
  split at ran
  · next worker none_ queue =>
    split_ifs at ran
    cases ran
    exact keptTurn (by simp [waiting,worker]) rfl (by simp [lineOf,worker])
  · cases ran

theorem recvResultTurn (ran : recvResult s = some t) : Turn (Ordered overtakes) Fits Heard (lineOf p s) (lineOf p t) [] := by
  unfold recvResult at ran
  split at ran
  · next result results held =>
    cases ran
    exact keptTurn (by simp [waiting]) rfl (by simp [lineOf,held])
  · cases ran

end Moves

section Steps
variable {Options : Type} {p : AsyncOfflinePipeline Options} {s t : State} {Fits : Message → Answer → Prop}
  {Heard : List AsrSegmentJob → Except String (List Timeline) → Prop} {overtakes : Prop} {jobCount : Nat} {action : Action}

structure Serves (p : AsyncOfflinePipeline Options) (Fits : Message → Answer → Prop)
    (Heard : List AsrSegmentJob → Except String (List Timeline) → Prop) (messages : List Message) : Prop where
  jobs : ∀ jobs, (jobs.map jobMessage).Subperm messages → ∃ answers, List.Forall₂ Fits (jobs.map jobMessage) answers ∧
    answers.Perm ((runAsrJobsBatch p.inner jobs p.asrOptions).map stageAnswer)
  segments : ∀ segments, (segments.map segmentMessage).Subperm messages →
    Heard segments (runSegmentAsrInference p.inner segments p.asrOptions)

theorem servesFewer {messages fewer : List Message} (serves : Serves p Fits Heard messages) (less : fewer.Subperm messages) :
    Serves p Fits Heard fewer :=
  ⟨fun jobs inside => serves.jobs jobs (inside.trans less),fun segments inside => serves.segments segments (inside.trans less)⟩

theorem runTurn (serves : Serves p Fits Heard (lineOf p s).waiting) (ran : runBatch p s = some t) :
    Turn (Ordered overtakes) Fits Heard (lineOf p s) (lineOf p t) (failing p s .runBatch) := by
  unfold runBatch at ran
  split at ran
  · next jobs worker =>
    cases ran
    have before : lineOf p s = ⟨jobs.map jobMessage ++ (s.pending ++ (s.asrQueue ++ vadSends p s.vadWorker)).map toMessage,
        s.segmentState,s.indexedResults ++ s.results.map stageAnswer⟩ := by
      simp [lineOf,waiting,worker,Function.comp_def,toMessage,jobMessage]
    have after_ : lineOf p {s with asrWorker := sendThen (runAsrJobsBatch p.inner jobs p.asrOptions)} =
        ⟨(s.pending ++ (s.asrQueue ++ vadSends p s.vadWorker)).map toMessage,s.segmentState,
          (s.indexedResults ++ s.results.map stageAnswer) ++ (runAsrJobsBatch p.inner jobs p.asrOptions).map stageAnswer⟩ := by
      simp [lineOf,waiting]
    have nothing : failing p s .runBatch = [] := by simp only [failing,worker]
    have none_ : waitingSegments (jobs.map jobMessage) = [] := by
      simp [waitingSegments,jobMessage,List.filterMap_map,Function.comp_def]
    rw [before] at serves ⊢
    obtain ⟨answers,fits,order⟩ := serves.jobs jobs (List.sublist_append_left ..).subperm
    rw [after_,nothing]
    refine .answered (.refl _) ?_ (fun message inside => ?_) fits order
    · rw [segmentsAppend,none_,List.nil_append]
    · obtain ⟨job,_,rfl⟩ := List.mem_map.mp inside
      trivial
  · next segments worker =>
    have made : {s with
        segmentState := (finishSegmentAsrBatch (prepareSegmentJobState s.segmentState segments) segments
          (runSegmentAsrInference p.inner segments p.asrOptions)).1
        asrWorker := sendThen (finishSegmentAsrBatch (prepareSegmentJobState s.segmentState segments) segments
          (runSegmentAsrInference p.inner segments p.asrOptions)).2} = t := Option.some.inj ran
    subst made
    have before : lineOf p s = ⟨segments.map segmentMessage ++ (s.pending ++ (s.asrQueue ++ vadSends p s.vadWorker)).map toMessage,
        s.segmentState,s.indexedResults ++ s.results.map stageAnswer⟩ := by
      simp [lineOf,waiting,worker,Function.comp_def,toMessage,segmentMessage]
    have failed : failing p s .runBatch = failedJobs segments (runSegmentAsrInference p.inner segments p.asrOptions) := by
      simp only [failing,worker]
    obtain ⟨left,results⟩ := segmentsSame s.segmentState segments (runSegmentAsrInference p.inner segments p.asrOptions)
    rw [before] at serves ⊢
    rw [failed]
    have turn : Turn (Ordered overtakes) Fits Heard
        ⟨segments.map segmentMessage ++ (s.pending ++ (s.asrQueue ++ vadSends p s.vadWorker)).map toMessage,s.segmentState,
          s.indexedResults ++ s.results.map stageAnswer⟩ _ _ :=
      .recognized (orderedSame (sameRefl _)) (serves.segments segments (List.sublist_append_left ..).subperm)
    convert turn using 1
    simp [lineOf,waiting,left,results]
  · cases ran

/-- A step of a stage is a turn of the line; only a segment that overtakes another changes the order of segments. -/
theorem stepTurn (serves : Serves p Fits Heard (lineOf p s).waiting) (ran : step p jobCount s action = some t) :
    Turn (Ordered (Overtakes s action)) Fits Heard (lineOf p s) (lineOf p t) (failing p s action) := by
  cases action with
  | prepareVad => exact prepareTurn ran
  | sendMessage => exact sendTurn ran
  | finishVad => exact finishVadTurn ran
  | recvAsrMessage => exact recvTurn ran
  | takeMessage => exact takeTurn ran
  | awaitMessage => exact awaitTurn ran
  | stopCollecting => exact stopTurn ran
  | runBatch => exact runTurn serves ran
  | sendResult => exact sendResultTurn ran
  | finishAsr => exact finishTurn ran
  | recvResult => exact recvResultTurn ran

end Steps

end Qwen3Asr.OfflineLine
