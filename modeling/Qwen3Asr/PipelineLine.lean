import Qwen3Asr.TranscribePipeline

/-! The line behind the stages of a transcription: the messages on their way to recognition, from the worker
back to the inputs. Every step of a stage is a turn of it. -/
namespace Qwen3Asr.PipelineLine
open Library.Lanes MediaData Pipeline TranscribeServer InputDedup TranscribeBatch SegmentLedger RecognitionLine TranscribePipeline

section Line
variable {Options : Type} (p : AsyncTranscribePipeline Options)

def jobMessage (job : AsrJob) : Message := .ok (.job job)

def workerWaiting : AsrWorker → List Message
  | .collectingJobs messages => (messageJobs messages).map jobMessage
  | .collectingSegments segments _ => segments.map segmentMessage
  | .runningJobs jobs => jobs.map jobMessage
  | .runningSegments segments => segments.map segmentMessage
  | .sending _ jobs => jobs.map jobMessage
  | _ => []

def workerOutcomes : AsrWorker → List TranscribeItemOutcome
  | .collectingJobs messages => messageOutcomes messages
  | .sending outcomes _ => outcomes
  | _ => []

def vadGroup : VadWorker → List Message
  | .forwarding outcome => [.error outcome]
  | _ => []

def taskGroup : VadTask → List Message
  | .detecting job => vadMessages p job
  | .sending messages => messages

def loadedGroup : LoadedMessage → List Message
  | .ok job => vadMessages p job
  | .error outcome => [.error outcome]

def inputGroup (input : TranscribeInput) : List Message := loadedGroup p (loaderMessage p input)

def laterGroups (s : State) : List (List Message) :=
  s.loaded.map (loadedGroup p) ++ (s.joined.toList.map (loadedGroup p) ++
    (s.loading.map (inputGroup p) ++ s.inputs.map (inputGroup p)))

def groups (s : State) : List (List Message) := vadGroup s.vadWorker::(s.vadTasks.map (taskGroup p) ++ laterGroups p s)

def upstream (s : State) : List Message := s.asrQueue ++ (groups p s).flatten

def lineOf (s : State) : Line where
  waiting := workerWaiting s.asrWorker ++ (s.pending ++ upstream p s)
  segments := s.segmentState
  answered := (s.outcomes ++ s.results ++ workerOutcomes s.asrWorker).map answerOf

end Line

section Upstream
variable {Options : Type} {p : AsyncTranscribePipeline Options} {s t : State}

/- A step before the recognition worker. -/
structure Upstream (p : AsyncTranscribePipeline Options) (s t : State) : Prop where
  worker : t.asrWorker = s.asrWorker
  pending : t.pending = s.pending
  segmentState : t.segmentState = s.segmentState
  results : t.results = s.results
  outcomes : t.outcomes = s.outcomes
  same : SameLanes messageIndex (upstream p s) (upstream p t) ∧ Apart messageIndex (groups p t)

theorem upstreamSame (apart : Apart messageIndex (groups p s)) (queue : t.asrQueue = s.asrQueue)
    (same : groups p t = groups p s) : SameLanes messageIndex (upstream p s) (upstream p t) ∧ Apart messageIndex (groups p t) := by
  rw [upstream,upstream,queue,same]
  exact ⟨sameRefl _,apart⟩

theorem upstreamMoved (apart : Apart messageIndex (groups p s)) (queue : t.asrQueue = s.asrQueue)
    (moved : (groups p s).Perm (groups p t)) : SameLanes messageIndex (upstream p s) (upstream p t) ∧ Apart messageIndex (groups p t) := by
  rw [upstream,upstream,queue]
  exact ⟨sameAppend (sameRefl _) (sameGroups apart moved),apartPerm apart moved⟩

theorem upstreamDropped (apart : Apart messageIndex (groups p s)) (queue : t.asrQueue = s.asrQueue)
    (moved : (groups p s).Perm ([]::groups p t)) :
    SameLanes messageIndex (upstream p s) (upstream p t) ∧ Apart messageIndex (groups p t) := by
  rw [upstream,upstream,queue]
  have same := sameGroups apart moved
  rw [List.flatten_cons,List.nil_append] at same
  exact ⟨sameAppend (sameRefl _) same,(apartPerm apart moved).of_cons⟩

theorem upstreamSent {message : Message} {messages : List Message} {before behind : List (List Message)}
    (apart : Apart messageIndex (groups p s)) (queue : t.asrQueue = s.asrQueue ++ [message])
    (whole : groups p s = before ++ (message::messages)::behind) (left : groups p t = before ++ messages::behind) :
    SameLanes messageIndex (upstream p s) (upstream p t) ∧ Apart messageIndex (groups p t) := by
  rw [whole] at apart
  rw [upstream,upstream,queue,whole,left,List.append_assoc]
  exact ⟨sameAppend (sameRefl _) (sameTaken apart),apartFrom apart fun a inside => List.mem_cons_of_mem _ inside⟩

section Steps
variable (apart : Apart messageIndex (groups p s))
include apart

theorem spawnUpstream (ran : spawnLoaderTask p s = some t) : Upstream p s t := by
  unfold spawnLoaderTask at ran
  split at ran
  · next input inputs idle some_ =>
    split_ifs at ran
    cases ran
    exact ⟨rfl,rfl,rfl,rfl,rfl,upstreamSame apart rfl (by simp [groups,laterGroups,some_])⟩
  · cases ran

theorem joinUpstream {n : Nat} (ran : joinLoaderTask p n s = some t) : Upstream p s t := by
  unfold joinLoaderTask at ran
  split at ran
  · next input idle found =>
    split_ifs at ran
    cases ran
    obtain ⟨before,behind,split,erased,_⟩ := splitAt found
    refine ⟨rfl,rfl,rfl,rfl,rfl,upstreamMoved apart rfl ?_⟩
    simp only [groups,laterGroups,idle,erased]
    rw [split,List.map_append,List.map_append,List.map_cons,List.append_assoc,List.append_assoc]
    exact (((List.perm_middle).append_left _).append_left _).cons _
  · cases ran

theorem sendLoadedUpstream (ran : sendLoaded p s = some t) : Upstream p s t := by
  unfold sendLoaded at ran
  split at ran
  · next message held =>
    split_ifs at ran
    cases ran
    exact ⟨rfl,rfl,rfl,rfl,rfl,upstreamSame apart rfl (by simp [groups,laterGroups,held])⟩
  · cases ran

theorem receiveUpstream (ran : receiveLoaded p s = some t) : Upstream p s t := by
  unfold receiveLoaded at ran
  split at ran
  · next job loaded worker some_ =>
    cases ran
    refine ⟨rfl,rfl,rfl,rfl,rfl,upstreamSame apart rfl ?_⟩
    have idle : ∀ (b : Prop) [Decidable b], vadGroup (if b then .joining else .receiving) = vadGroup s.vadWorker := by
      intro b _
      rw [worker]
      split <;> rfl
    simp only [groups,laterGroups,idle]
    simp [some_,taskGroup,loadedGroup]
  · next outcome loaded worker some_ =>
    cases ran
    refine ⟨rfl,rfl,rfl,rfl,rfl,upstreamDropped apart rfl ?_⟩
    simp only [groups,laterGroups,worker,some_,vadGroup,List.map_cons,List.cons_append]
    exact List.perm_middle.cons _
  · cases ran

theorem forwardUpstream (ran : forwardOutcome p s = some t) : Upstream p s t := by
  unfold forwardOutcome at ran
  split at ran
  · next outcome worker =>
    split_ifs at ran
    cases ran
    have whole : groups p s = [] ++ [.error outcome]::(s.vadTasks.map (taskGroup p) ++ laterGroups p s) := by
      rw [groups,worker]
      rfl
    exact ⟨rfl,rfl,rfl,rfl,rfl,upstreamSent apart rfl whole rfl⟩
  · cases ran

theorem prepareUpstream {n : Nat} (ran : prepareVad p n s = some t) : Upstream p s t := by
  unfold prepareVad at ran
  split at ran
  · next job found =>
    cases ran
    obtain ⟨before,behind,split,_,set_⟩ := splitAt found
    exact ⟨rfl,rfl,rfl,rfl,rfl,upstreamSame apart rfl (by simp only [groups,set_]; simp [split,taskGroup,laterGroups])⟩
  · cases ran

theorem sendUpstream {n : Nat} (ran : sendMessage p n s = some t) : Upstream p s t := by
  unfold sendMessage at ran
  split at ran
  · next message messages found =>
    split_ifs at ran
    cases ran
    obtain ⟨before,behind,split,_,set_⟩ := splitAt found
    have whole : groups p s = (vadGroup s.vadWorker::before.map (taskGroup p)) ++
        (message::messages)::(behind.map (taskGroup p) ++ laterGroups p s) := by
      rw [groups,split]
      simp [taskGroup]
    refine ⟨rfl,rfl,rfl,rfl,rfl,upstreamSent apart rfl whole ?_⟩
    simp only [groups,set_]
    simp [taskGroup,laterGroups]
  · cases ran

theorem joinVadUpstream {n : Nat} (ran : joinVadTask n s = some t) : Upstream p s t := by
  have dropped : ∀ {worker : VadWorker}, s.vadTasks[n]? = some (.sending []) → vadGroup worker = vadGroup s.vadWorker →
      (groups p s).Perm ([]::groups p {s with vadTasks := s.vadTasks.eraseIdx n, vadWorker := worker}) := by
    intro worker found idle
    obtain ⟨before,behind,split,erased,_⟩ := splitAt found
    simp only [groups,erased,idle]
    rw [split,List.map_append,List.map_append,List.map_cons,List.append_assoc,List.append_assoc,List.cons_append]
    exact (List.perm_middle.cons _).trans (.swap ..)
  unfold joinVadTask at ran
  split at ran
  · next found worker =>
    cases ran
    exact ⟨rfl,rfl,rfl,rfl,rfl,upstreamDropped apart rfl (dropped found (by rw [worker]; rfl))⟩
  · next found worker =>
    split_ifs at ran
    cases ran
    exact ⟨rfl,rfl,rfl,rfl,rfl,upstreamDropped apart rfl (dropped found rfl)⟩
  · cases ran

end Steps

end Upstream

section Worker
variable {Options : Type} {p : AsyncTranscribePipeline Options} {s t : State}

@[simp] theorem outcomesAppend (messages more : List Message) :
    messageOutcomes (messages ++ more) = messageOutcomes messages ++ messageOutcomes more := List.filterMap_append

@[simp] theorem jobsAppend (messages more : List Message) :
    messageJobs (messages ++ more) = messageJobs messages ++ messageJobs more := List.filterMap_append

@[simp] theorem collectingJobsWaiting (messages : List Message) :
    workerWaiting (.collectingJobs messages) = (messageJobs messages).map jobMessage := rfl

@[simp] theorem collectingJobsOutcomes (messages : List Message) :
    workerOutcomes (.collectingJobs messages) = messageOutcomes messages := rfl

@[simp] theorem collectingWaiting (segments : List AsrSegmentJob) (waiting : Bool) :
    workerWaiting (.collectingSegments segments waiting) = segments.map segmentMessage := rfl

@[simp] theorem collectingOutcomes (segments : List AsrSegmentJob) (waiting : Bool) :
    workerOutcomes (.collectingSegments segments waiting) = [] := rfl

@[simp] theorem sendingWaiting (outcomes : List TranscribeItemOutcome) (jobs : List AsrJob) :
    workerWaiting (.sending outcomes jobs) = jobs.map jobMessage := rfl

@[simp] theorem sendingOutcomes (outcomes : List TranscribeItemOutcome) (jobs : List AsrJob) :
    workerOutcomes (.sending outcomes jobs) = outcomes := rfl

@[simp] theorem sendThenWaiting (outcomes : List TranscribeItemOutcome) (jobs : List AsrJob) :
    workerWaiting (sendThen outcomes jobs) = jobs.map jobMessage := by
  cases outcomes <;> cases jobs <;> rfl

@[simp] theorem sendThenOutcomes (outcomes : List TranscribeItemOutcome) (jobs : List AsrJob) :
    workerOutcomes (sendThen outcomes jobs) = outcomes := by
  cases outcomes <;> cases jobs <;> rfl

@[simp] theorem jobsWaiting (messages : List Message) :
    workerWaiting (collectJobMicrobatch p messages) = (messageJobs messages).map jobMessage := by
  unfold collectJobMicrobatch collectedJobs
  split
  · rfl
  · exact sendThenWaiting _ _

@[simp] theorem jobsOutcomes (messages : List Message) :
    workerOutcomes (collectJobMicrobatch p messages) = messageOutcomes messages := by
  unfold collectJobMicrobatch collectedJobs
  split
  · rfl
  · exact sendThenOutcomes _ _

@[simp] theorem segmentsWaiting (segments : List AsrSegmentJob) (waiting : Bool) :
    workerWaiting (collectSegmentMicrobatch p segments waiting) = segments.map segmentMessage := by
  unfold collectSegmentMicrobatch
  split <;> rfl

@[simp] theorem segmentsOutcomes (segments : List AsrSegmentJob) (waiting : Bool) :
    workerOutcomes (collectSegmentMicrobatch p segments waiting) = [] := by
  unfold collectSegmentMicrobatch
  split <;> rfl

/- A segment is taken from the channel while a message of its job is stashed. -/
def Overtakes (s : State) (action : Action Options) : Prop := match action, s.asrWorker, s.asrQueue with
  | .takeMessage, .collectingSegments _ _, .ok (.segment segment)::_ => segment.jobIndex ∈ s.pending.map messageIndex
  | _, _, _ => False

def segmentBatch (p : AsyncTranscribePipeline Options) (asr : AsrModel Options) (segments : List AsrSegmentJob) :
    Except String (List Timeline) :=
  asr.transcribeBatch (segments.map AsrSegmentJob.waveform) p.asrOptions

def failing (p : AsyncTranscribePipeline Options) (s : State) (action : Action Options) : List (List Nat) :=
  match action, s.asrWorker with
  | .runBatch asr, .runningSegments segments => failedJobs segments (segmentBatch p asr segments)
  | _, _ => []

def Ordered (overtakes : Prop) (xs ys : List Message) : Prop := xs.Perm ys ∧ (¬ overtakes → SameSegments xs ys)

def FitsIndex (message : Message) (answer : Answer) : Prop := answer.1 = messageIndex message

theorem orderedSame {overtakes : Prop} {xs ys : List Message} (same : SameLanes messageIndex xs ys) : Ordered overtakes xs ys :=
  ⟨samePerm same,fun _ => sameSegments same⟩

theorem movedTurn {Heard : List AsrSegmentJob → Except String (List Timeline) → Prop} {overtakes : Prop}
    (same : Ordered overtakes (lineOf p s).waiting (lineOf p t).waiting) (segments : t.segmentState = s.segmentState)
    (answered : (lineOf p t).answered = (lineOf p s).answered) :
    Turn (Ordered overtakes) FitsIndex Heard (lineOf p s) (lineOf p t) [] := movedLine same segments answered

theorem upstreamTurn {Heard : List AsrSegmentJob → Except String (List Timeline) → Prop} {overtakes : Prop}
    (step : Upstream p s t) : Turn (Ordered overtakes) FitsIndex Heard (lineOf p s) (lineOf p t) [] := by
  refine movedTurn (orderedSame ?_) step.segmentState ?_
  · simp only [lineOf,step.worker,step.pending]
    exact sameAppend (sameRefl _) (sameAppend (sameRefl _) step.same.1)
  · simp only [lineOf,step.worker,step.results,step.outcomes]

theorem passedTurn {Heard : List AsrSegmentJob → Except String (List Timeline) → Prop} {overtakes : Prop}
    {outcome : TranscribeItemOutcome} {before behind : List Message}
    (waits : (lineOf p s).waiting = before ++ .error outcome::behind) (left : (lineOf p t).waiting = before ++ behind)
    (segments : t.segmentState = s.segmentState) (answered : (lineOf p t).answered = (lineOf p s).answered ++ [answerOf outcome]) :
    Turn (Ordered overtakes) FitsIndex Heard (lineOf p s) (lineOf p t) [] := by
  have kept : (lineOf p t).segments = (lineOf p s).segments := segments
  have whole : lineOf p t = ⟨before ++ behind,(lineOf p s).segments,(lineOf p s).answered ++ [answerOf outcome]⟩ := by
    rw [← answered,← kept,← left]
  have taken : (lineOf p s).waiting.Perm ([.error outcome] ++ (before ++ behind)) := by
    rw [waits]
    exact List.perm_middle
  have fits : List.Forall₂ FitsIndex [.error outcome] [ answerOf outcome] := .cons rfl .nil
  rw [whole]
  refine .answered taken ?_ (by simp [Direct]) fits (.refl _)
  rw [waits]
  simp [waitingSegments]

theorem acceptTurn {Heard : List AsrSegmentJob → Except String (List Timeline) → Prop} {overtakes : Prop}
    {message : Message} (idle : t.asrWorker = .receiving)
    (before : lineOf p s = {lineOf p t with waiting := message::(lineOf p t).waiting}) :
    Turn (Ordered overtakes) FitsIndex Heard (lineOf p s) (lineOf p (accept p t message)) [] := by
  have waits : (lineOf p s).waiting = message::(t.pending ++ upstream p t) := by
    rw [before]
    simp [lineOf,idle,workerWaiting]
  have segments : t.segmentState = s.segmentState := (congrArg Line.segments before).symm
  have answered : (lineOf p s).answered = (t.outcomes ++ t.results).map answerOf := by
    rw [before]
    simp [lineOf,idle,workerOutcomes]
  cases message with
  | error outcome =>
    refine passedTurn (waits : (lineOf p s).waiting = [] ++ .error outcome::_) rfl segments ?_
    rw [answered]
    simp [lineOf,accept,workerOutcomes]
  | ok message =>
    cases message with
    | job job =>
      refine movedTurn (orderedSame (sameOf ?_)) segments ?_
      · rw [waits]
        simp [lineOf,accept,messageJobs,jobMessage,upstream,groups,laterGroups]
      · rw [answered]
        simp [lineOf,accept,messageOutcomes]
    | segment segment =>
      refine movedTurn (orderedSame (sameOf ?_)) segments ?_
      · rw [waits]
        simp [lineOf,accept,segmentMessage,upstream,groups,laterGroups]
      · rw [answered]
        simp [lineOf,accept]

theorem acceptGroups (s : State) (message : Message) : groups p (accept p s message) = groups p s := by
  cases message with
  | error outcome => rfl
  | ok message => cases message <;> rfl

theorem recvTurn {Heard : List AsrSegmentJob → Except String (List Timeline) → Prop} {overtakes : Prop}
    (ran : recvAsrMessage p s = some t) :
    Turn (Ordered overtakes) FitsIndex Heard (lineOf p s) (lineOf p t) [] ∧ groups p t = groups p s := by
  unfold recvAsrMessage at ran
  split at ran
  · next message pending worker stashed =>
    cases ran
    exact ⟨acceptTurn worker (by simp [lineOf,worker,workerWaiting,stashed,upstream,groups,laterGroups]),acceptGroups _ _⟩
  · next message asrQueue worker none_ queue =>
    cases ran
    exact ⟨acceptTurn worker (by simp [lineOf,worker,workerWaiting,none_,queue,upstream,groups,laterGroups]),acceptGroups _ _⟩
  · cases ran

/- A segment passes the messages stashed before it. -/
theorem takenOrder {segment : AsrSegmentJob} {before pending behind : List Message} {overtakes : Prop}
    (stashed : ¬ overtakes → segment.jobIndex ∉ pending.map messageIndex) :
    Ordered overtakes (before ++ (pending ++ segmentMessage segment::behind))
      (before ++ [ segmentMessage segment] ++ (pending ++ behind)) := by
  refine ⟨?_,fun free => sameSegments ?_⟩
  · rw [List.append_assoc]
    exact List.perm_middle.append_left _
  · have apart : ∀ a ∈ pending, ∀ b ∈ [ segmentMessage segment], messageIndex a ≠ messageIndex b := by
      intro a inside b only same
      rw [List.mem_singleton.mp only] at same
      exact stashed free (List.mem_map.mpr ⟨a,inside,same⟩)
    have swapped := sameAppend (sameAppend (sameRefl before) (sameSwap apart)) (sameRefl behind)
    simpa [List.append_assoc] using swapped

theorem takeTurn {Heard : List AsrSegmentJob → Except String (List Timeline) → Prop}
    (ran : takeMessage p s = some t) :
    Turn (Ordered (Overtakes s (.takeMessage : Action Options))) FitsIndex Heard (lineOf p s) (lineOf p t) [] ∧
      groups p t = groups p s := by
  unfold takeMessage at ran
  split at ran
  · next messages segment asrQueue worker queue =>
    cases ran
    refine ⟨movedTurn (orderedSame (sameOf ?_)) rfl (by simp [lineOf]),rfl⟩
    simp [lineOf,queue,upstream,groups,laterGroups,segmentMessage]
  · next messages message asrQueue direct worker queue =>
    cases ran
    have waits : (lineOf p s).waiting =
        ((messageJobs messages).map jobMessage ++ s.pending) ++ message::(asrQueue ++ (groups p s).flatten) := by
      simp [lineOf,worker,queue,upstream]
    cases message with
    | error outcome =>
      refine ⟨passedTurn waits ?_ rfl ?_,rfl⟩
      · simp [lineOf,messageJobs,upstream,groups,laterGroups]
      · simp [lineOf,worker,messageOutcomes]
    | ok message =>
      cases message with
      | segment segment => exact absurd rfl (direct segment)
      | job job =>
        refine ⟨movedTurn ⟨?_,fun _ => sameOf ?_⟩ rfl ?_,rfl⟩
        · rw [waits]
          have passed : ((messageJobs messages).map jobMessage ++ s.pending ++ .ok (.job job)::(asrQueue ++ (groups p s).flatten)).Perm
              ((messageJobs messages).map jobMessage ++ ([ jobMessage job] ++ (s.pending ++ (asrQueue ++ (groups p s).flatten)))) := by
            rw [List.append_assoc]
            exact List.perm_middle.append_left _
          simpa [lineOf,messageJobs,upstream,groups,laterGroups] using passed
        · rw [waits]
          simp [lineOf,messageJobs,waitingSegments,jobMessage,upstream,groups,laterGroups]
        · simp [lineOf,worker,messageOutcomes]
  · next segments waiting segment asrQueue worker queue =>
    cases ran
    refine ⟨movedTurn ?_ rfl (by simp [lineOf,worker]),rfl⟩
    have stashed : ¬ Overtakes s (.takeMessage : Action Options) → segment.jobIndex ∉ s.pending.map messageIndex := by
      unfold Overtakes
      rw [worker,queue]
      exact id
    have passed : Ordered (Overtakes s (.takeMessage : Action Options))
        (segments.map segmentMessage ++ (s.pending ++ segmentMessage segment::(asrQueue ++ (groups p s).flatten))) _ :=
      takenOrder stashed
    simpa [lineOf,worker,queue,upstream,groups,laterGroups,segmentMessage] using passed
  · next segments waiting message asrQueue other worker queue =>
    cases ran
    refine ⟨movedTurn (orderedSame (sameOf ?_)) rfl (by simp [lineOf]),rfl⟩
    simp [lineOf,queue,upstream,groups,laterGroups]
  · cases ran

theorem awaitTurn {Heard : List AsrSegmentJob → Except String (List Timeline) → Prop} {overtakes : Prop}
    (ran : awaitSegments s = some t) :
    Turn (Ordered overtakes) FitsIndex Heard (lineOf p s) (lineOf p t) [] ∧ groups p t = groups p s := by
  unfold awaitSegments at ran
  split at ran
  · next segments worker queue =>
    split_ifs at ran
    cases ran
    refine ⟨movedTurn (orderedSame (sameOf ?_)) rfl (by simp [lineOf,worker]),rfl⟩
    simp [lineOf,worker,upstream,groups,laterGroups]
  · cases ran

theorem stopTurn {Heard : List AsrSegmentJob → Except String (List Timeline) → Prop} {overtakes : Prop}
    (ran : stopCollecting s = some t) :
    Turn (Ordered overtakes) FitsIndex Heard (lineOf p s) (lineOf p t) [] ∧ groups p t = groups p s := by
  unfold stopCollecting at ran
  split at ran
  · next messages worker =>
    split_ifs at ran
    cases ran
    refine ⟨movedTurn (orderedSame (sameOf ?_)) rfl (by simp [lineOf,worker,collectedJobs]),rfl⟩
    simp [lineOf,worker,collectedJobs,upstream,groups,laterGroups]
  · next segments waiting worker =>
    split_ifs at ran
    cases ran
    exact ⟨movedTurn (orderedSame (sameOf (by simp only [lineOf,worker]; rfl))) rfl (by simp only [lineOf,worker]; rfl),rfl⟩
  · cases ran

theorem sendResultTurn {Heard : List AsrSegmentJob → Except String (List Timeline) → Prop} {overtakes : Prop} {capacity : Nat}
    (ran : sendResult capacity s = some t) :
    Turn (Ordered overtakes) FitsIndex Heard (lineOf p s) (lineOf p t) [] ∧ groups p t = groups p s := by
  unfold sendResult at ran
  split at ran
  · next outcome outcomes jobs worker =>
    split_ifs at ran
    cases ran
    refine ⟨movedTurn (orderedSame (sameOf ?_)) rfl ?_,rfl⟩
    · simp [lineOf,worker,upstream,groups,laterGroups]
    · simp [lineOf,worker]
  · cases ran

theorem finishTurn {Heard : List AsrSegmentJob → Except String (List Timeline) → Prop} {overtakes : Prop}
    (ran : finishAsr s = some t) :
    Turn (Ordered overtakes) FitsIndex Heard (lineOf p s) (lineOf p t) [] ∧ groups p t = groups p s := by
  unfold finishAsr at ran
  split at ran
  · next worker none_ queue =>
    split_ifs at ran
    cases ran
    exact ⟨movedTurn (orderedSame (sameOf (by simp only [lineOf,worker]; rfl))) rfl (by simp only [lineOf,worker]; rfl),rfl⟩
  · cases ran

theorem recvResultTurn {Heard : List AsrSegmentJob → Except String (List Timeline) → Prop} {overtakes : Prop}
    (ran : recvResult s = some t) :
    Turn (Ordered overtakes) FitsIndex Heard (lineOf p s) (lineOf p t) [] ∧ groups p t = groups p s := by
  unfold recvResult at ran
  split at ran
  · next outcome results held =>
    cases ran
    exact ⟨movedTurn (orderedSame (sameOf rfl)) rfl (by simp [lineOf,held]),rfl⟩
  · cases ran

theorem inferenceBatch (asr : AsrModel Options) (segments : List AsrSegmentJob) :
    runSegmentAsrInference {p.offline with asr} segments p.asrOptions =
      (segmentBatch p asr segments).map fun timelines => (segments.map targetOf,timelines) := by
  unfold runSegmentAsrInference segmentBatch
  cases asr.transcribeBatch (segments.map AsrSegmentJob.waveform) p.asrOptions <;> rfl

theorem jobsFit (pipeline : OfflinePipeline Options) (asrOptions : Options) {jobs : List AsrJob}
    (whole : ∀ job ∈ jobs, ¬ IsSpeech job) : ∃ answers, List.Forall₂ FitsIndex (jobs.map jobMessage) answers ∧
      answers.Perm ((runAsrJobsBatch pipeline jobs asrOptions).map answerOf) := by
  have indices : (jobs.map AsrJob.index).Perm ((runAsrJobsBatch pipeline jobs asrOptions).map TranscribeItemOutcome.index) := by
    have kept : jobs.map outcomeIndex = jobs.map AsrJob.index := by
      refine List.map_congr_left fun job inside => ?_
      unfold outcomeIndex
      split
      · next prepared speech => exact absurd ⟨prepared,speech⟩ (whole job inside)
      · rfl
    exact (kept ▸ indicesPerm).symm
  have own_ : List.Forall₂ (fun index answer => answer.1 = index)
      ((runAsrJobsBatch pipeline jobs asrOptions).map TranscribeItemOutcome.index)
      ((runAsrJobsBatch pipeline jobs asrOptions).map answerOf) := by
    rw [List.forall₂_map_left_iff,List.forall₂_map_right_iff]
    exact List.forall₂_same.mpr fun outcome _ => rfl
  obtain ⟨answers,fits,order⟩ := List.perm_comp_forall₂ indices own_
  refine ⟨answers,?_,order⟩
  rw [List.forall₂_map_left_iff] at fits ⊢
  exact fits

theorem runTurn {Heard : List AsrSegmentJob → Except String (List Timeline) → Prop} {overtakes : Prop} {asr : AsrModel Options}
    (whole : ∀ job, jobMessage job ∈ (lineOf p s).waiting → ¬ IsSpeech job)
    (heard : ∀ segments, Heard segments (segmentBatch p asr segments)) (ran : runBatch p asr s = some t) :
    Turn (Ordered overtakes) FitsIndex Heard (lineOf p s) (lineOf p t) (failing p s (.runBatch asr)) ∧ groups p t = groups p s := by
  unfold runBatch at ran
  split at ran
  · next jobs worker =>
    cases ran
    obtain ⟨answers,fits,order⟩ := jobsFit {p.offline with asr} p.asrOptions fun job inside =>
      whole job (List.mem_append_left _ (by rw [worker]; exact List.mem_map_of_mem inside))
    have waits : (lineOf p s).waiting = jobs.map jobMessage ++ (s.pending ++ upstream p s) := by
      simp only [lineOf,worker]
      rfl
    have none_ : waitingSegments (jobs.map jobMessage) = [] := by
      simp [waitingSegments,jobMessage,List.filterMap_map,Function.comp_def]
    have before : lineOf p s = ⟨jobs.map jobMessage ++ (s.pending ++ upstream p s),s.segmentState,
        (s.outcomes ++ s.results).map answerOf⟩ := by simp [lineOf,worker,workerWaiting,workerOutcomes]
    have after_ : lineOf p {s with asrWorker := sendThen (runAsrJobsBatch {p.offline with asr} jobs p.asrOptions) []} =
        ⟨s.pending ++ upstream p s,s.segmentState,(s.outcomes ++ s.results).map answerOf ++
          (runAsrJobsBatch {p.offline with asr} jobs p.asrOptions).map answerOf⟩ := by
      simp [lineOf,upstream,groups,laterGroups]
    have nothing : failing p s (.runBatch asr) = [] := by
      unfold failing
      rw [worker]
    rw [before,after_,nothing]
    refine ⟨.answered (.refl _) ?_ (fun message inside => ?_) fits order,rfl⟩
    · rw [segmentsAppend,none_,List.nil_append]
    · obtain ⟨job,_,rfl⟩ := List.mem_map.mp inside
      trivial
  · next segments worker =>
    rw [inferenceBatch] at ran
    have made : {s with
        segmentState := (recognizeSegments s.segmentState segments (segmentBatch p asr segments)).1,
        asrWorker := sendThen (recognizeSegments s.segmentState segments (segmentBatch p asr segments)).2 []} = t :=
      Option.some.inj ran
    subst made
    have before : lineOf p s = ⟨segments.map segmentMessage ++ (s.pending ++ upstream p s),s.segmentState,
        (s.outcomes ++ s.results).map answerOf⟩ := by simp [lineOf,worker,workerWaiting,workerOutcomes]
    have failed : failing p s (.runBatch asr) = failedJobs segments (segmentBatch p asr segments) := by
      unfold failing
      rw [worker]
    rw [before,failed]
    have turn : Turn (Ordered overtakes) FitsIndex Heard
        ⟨segments.map segmentMessage ++ (s.pending ++ upstream p s),s.segmentState,(s.outcomes ++ s.results).map answerOf⟩ _ _ :=
      .recognized (orderedSame (sameRefl _)) (heard segments)
    refine ⟨?_,rfl⟩
    convert turn using 1
    simp [lineOf,upstream,groups,laterGroups]
  · cases ran

end Worker

section Steps
variable {Options : Type} {p : AsyncTranscribePipeline Options} {capacity : Nat} {s t : State} {action : Action Options}

structure Ready (p : AsyncTranscribePipeline Options) (s : State) : Prop where
  apart : Apart messageIndex (groups p s)
  whole : ∀ job, jobMessage job ∈ (lineOf p s).waiting → ¬ IsSpeech job
  keyed : Keyed s.segmentState

def HeardIn (Heard : List AsrSegmentJob → Except String (List Timeline) → Prop) (p : AsyncTranscribePipeline Options) :
    Action Options → Prop
  | .runBatch asr => ∀ segments, Heard segments (segmentBatch p asr segments)
  | _ => True

/-- A step of a stage is a turn of the line; only a segment that overtakes another changes the order of segments. -/
theorem stepTurn {Heard : List AsrSegmentJob → Except String (List Timeline) → Prop} (ready : Ready p s)
    (heard : HeardIn Heard p action) (ran : step p capacity s action = some t) :
    Turn (Ordered (Overtakes s action)) FitsIndex Heard (lineOf p s) (lineOf p t) (failing p s action) ∧
      Apart messageIndex (groups p t) := by
  have before : Upstream p s t → Turn (Ordered (Overtakes s action)) FitsIndex Heard (lineOf p s) (lineOf p t) [] ∧
      Apart messageIndex (groups p t) := fun upstream => ⟨upstreamTurn upstream,upstream.same.2⟩
  have kept : groups p t = groups p s → Apart messageIndex (groups p t) := fun same => same ▸ ready.apart
  cases action with
  | spawnLoaderTask => exact before (spawnUpstream ready.apart ran)
  | joinLoaderTask n => exact before (joinUpstream ready.apart ran)
  | sendLoaded => exact before (sendLoadedUpstream ready.apart ran)
  | receiveLoaded => exact before (receiveUpstream ready.apart ran)
  | forwardOutcome => exact before (forwardUpstream ready.apart ran)
  | prepareVad n => exact before (prepareUpstream ready.apart ran)
  | sendMessage n => exact before (sendUpstream ready.apart ran)
  | joinVadTask n => exact before (joinVadUpstream ready.apart ran)
  | recvAsrMessage => exact (recvTurn ran).imp_right kept
  | takeMessage => exact (takeTurn ran).imp_right kept
  | awaitSegments => exact (awaitTurn ran).imp_right kept
  | stopCollecting => exact (stopTurn ran).imp_right kept
  | runBatch asr => exact (runTurn ready.whole heard ran).imp_right kept
  | sendResult => exact (sendResultTurn ran).imp_right kept
  | finishAsr => exact (finishTurn ran).imp_right kept
  | recvResult => exact (recvResultTurn ran).imp_right kept

theorem stepReady (ready : Ready p s) (ran : step p capacity s action = some t) : Ready p t := by
  have heard : HeardIn (fun _ _ => True) p action := by
    cases action <;> first | exact fun _ => trivial | trivial
  obtain ⟨turn,apart⟩ := stepTurn ready heard ran
  have keyed := turnKeyed turn ready.keyed
  exact ⟨apart,fun job inside => ready.whole job ((turnFewer (fun xs ys same => same.1) turn).subset inside),keyed⟩

end Steps

end Qwen3Asr.PipelineLine
