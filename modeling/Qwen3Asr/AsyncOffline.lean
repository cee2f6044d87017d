import Qwen3Asr.OfflineBatch

/-! The offline pipeline over several waveforms: a voice activity worker and a recognition worker joined by a bounded
channel. An action is one step of one of them or of the caller; which comes next is chosen from outside. -/
namespace Qwen3Asr.AsyncOffline
open MediaData Pipeline SegmentLedger RecognitionLine OfflineBatch
open TranscribeBatch hiding runSegmentAsrInference finishSegmentAsrBatch runAsrJobsBatch

structure AsyncOfflinePipeline (Options : Type) where
  inner : OfflinePipeline Options
  asrOptions : Options
  maxBatchSize : Nat
  vadOptions : VadOptions
  stageBuffer : Nat

inductive VadWorker where
  | preparing (waveforms : List (Nat × Waveform))
  | sending (messages : List AsrPipelineMessage) (waveforms : List (Nat × Waveform))
  | done (result : Except String Unit)

/- A worker that collects drains the channel first, then waits. -/
inductive AsrWorker where
  | receiving
  | collectingJobs (jobs : List AsrJob) (waiting : Bool)
  | collectingSegments (segments : List AsrSegmentJob) (waiting : Bool)
  | runningJobs (jobs : List AsrJob)
  | runningSegments (segments : List AsrSegmentJob)
  | sending (results : List StageResult)
  | done

structure State where
  vadWorker : VadWorker
  asrQueue : List AsrPipelineMessage
  pending : List AsrPipelineMessage
  asrWorker : AsrWorker
  segmentState : SegmentAsrState
  results : List StageResult
  indexedResults : List Answer

inductive Action where
  | prepareVad
  | sendMessage
  | finishVad
  | recvAsrMessage
  | takeMessage
  | awaitMessage
  | stopCollecting
  | runBatch
  | sendResult
  | finishAsr
  | recvResult
  deriving DecidableEq, Repr

variable {Options : Type} (p : AsyncOfflinePipeline Options)

def buffer : Nat := max p.stageBuffer 1

def batchSize : Nat := max p.maxBatchSize 1

def indexed (waveforms : List Waveform) : List (Nat × Waveform) := waveforms.zipIdx.map fun (waveform,index) => (index,waveform)

def started (waveforms : List Waveform) : State where
  vadWorker := .preparing (indexed waveforms)
  asrQueue := []
  pending := []
  asrWorker := .receiving
  segmentState _ := none
  results := []
  indexedResults := []

section Vad

def vadMessages (index : Nat) (waveform : Waveform) : Except String (List AsrPipelineMessage) := do
  match ← prepareVadStage p.inner waveform p.vadOptions with
  | .speech prepared =>
    let segments ← speechJobToSegments ⟨index,.speech prepared,waveform⟩
    .ok (segments.map .segment)
  | prepared => .ok [.job ⟨index,prepared,waveform⟩]

def sendNext (messages : List AsrPipelineMessage) (waveforms : List (Nat × Waveform)) : VadWorker := match messages with
  | [] => .preparing waveforms
  | _ => .sending messages waveforms

/- A waveform that is refused ends the worker. -/
def prepareVad (s : State) : Option State := match s.vadWorker with
  | .preparing ((index,waveform)::waveforms) => match vadMessages p index waveform with
    | .ok messages => some {s with vadWorker := sendNext messages waveforms}
    | .error error => some {s with vadWorker := .done (.error error)}
  | _ => none

def sendMessage (s : State) : Option State := match s.vadWorker with
  | .sending (message::messages) waveforms =>
    if s.asrQueue.length < buffer p then
      some {s with asrQueue := s.asrQueue ++ [message], vadWorker := sendNext messages waveforms}
    else none
  | _ => none

def finishVad (s : State) : Option State := match s.vadWorker with
  | .preparing [] => some {s with vadWorker := .done (.ok ())}
  | _ => none

def asrClosed (s : State) : Bool := match s.vadWorker with
  | .done _ => true
  | _ => false

end Vad

section Asr

def sendThen (results : List StageResult) : AsrWorker := match results with
  | [] => .receiving
  | _ => .sending results

def collectJobMicrobatch (jobs : List AsrJob) (waiting : Bool) : AsrWorker :=
  if jobs.length < batchSize p then .collectingJobs jobs waiting else .runningJobs jobs

def collectSegmentMicrobatch (segments : List AsrSegmentJob) (waiting : Bool) : AsrWorker :=
  if segments.length < batchSize p then .collectingSegments segments waiting else .runningSegments segments

def accept (message : AsrPipelineMessage) : AsrWorker := match message with
  | .job job => collectJobMicrobatch p [job] false
  | .segment segment => collectSegmentMicrobatch p [segment] false

def recvAsrMessage (s : State) : Option State := match s.asrWorker, s.pending, s.asrQueue with
  | .receiving, message::pending, _ => some {s with pending, asrWorker := accept p message}
  | .receiving, [], message::asrQueue => some {s with asrQueue, asrWorker := accept p message}
  | _, _, _ => none

/- A message of the other kind is stashed in front. While the channel is drained this does not end the batch:
the worker goes on to wait for another message. -/
def takeMessage (s : State) : Option State := match s.asrWorker, s.asrQueue with
  | .collectingJobs jobs waiting, .job job::asrQueue =>
    some {s with asrQueue, asrWorker := collectJobMicrobatch p (jobs ++ [job]) waiting}
  | .collectingJobs jobs waiting, message::asrQueue =>
    let asrWorker := if waiting then .runningJobs jobs else .collectingJobs jobs true
    some {s with asrQueue, pending := message::s.pending, asrWorker}
  | .collectingSegments segments waiting, .segment segment::asrQueue =>
    some {s with asrQueue, asrWorker := collectSegmentMicrobatch p (segments ++ [segment]) waiting}
  | .collectingSegments segments waiting, message::asrQueue =>
    let asrWorker := if waiting then .runningSegments segments else .collectingSegments segments true
    some {s with asrQueue, pending := message::s.pending, asrWorker}
  | _, _ => none

def awaitMessage (s : State) : Option State := match s.asrWorker, s.asrQueue with
  | .collectingJobs jobs false, [] => if asrClosed s then none else some {s with asrWorker := .collectingJobs jobs true}
  | .collectingSegments segments false, [] =>
    if asrClosed s then none else some {s with asrWorker := .collectingSegments segments true}
  | _, _ => none

def stopCollecting (s : State) : Option State := match s.asrWorker, s.asrQueue with
  | .collectingJobs jobs _, [] => if asrClosed s then some {s with asrWorker := .runningJobs jobs} else none
  | .collectingSegments segments _, [] => if asrClosed s then some {s with asrWorker := .runningSegments segments} else none
  | _, _ => none

def runBatch (s : State) : Option State := match s.asrWorker with
  | .runningJobs jobs => some {s with asrWorker := sendThen (runAsrJobsBatch p.inner jobs p.asrOptions)}
  | .runningSegments segments =>
    let state := prepareSegmentJobState s.segmentState segments
    let batch := runSegmentAsrInference p.inner segments p.asrOptions
    let (segmentState,results) := finishSegmentAsrBatch state segments batch
    some {s with segmentState, asrWorker := sendThen results}
  | _ => none

/- The channel of results holds one for each waveform. -/
def sendResult (jobCount : Nat) (s : State) : Option State := match s.asrWorker with
  | .sending (result::results) =>
    if s.results.length < jobCount then some {s with results := s.results ++ [result], asrWorker := sendThen results} else none
  | _ => none

def finishAsr (s : State) : Option State := match s.asrWorker, s.pending, s.asrQueue with
  | .receiving, [], [] => if asrClosed s then some {s with asrWorker := .done} else none
  | _, _, _ => none

def recvResult (s : State) : Option State := match s.results with
  | result::results => some {s with results, indexedResults := s.indexedResults ++ [ stageAnswer result]}
  | [] => none

end Asr

section Calls

def step (jobCount : Nat) (s : State) : Action → Option State
  | .prepareVad => prepareVad p s
  | .sendMessage => sendMessage p s
  | .finishVad => finishVad s
  | .recvAsrMessage => recvAsrMessage p s
  | .takeMessage => takeMessage p s
  | .awaitMessage => awaitMessage s
  | .stopCollecting => stopCollecting s
  | .runBatch => runBatch p s
  | .sendResult => sendResult jobCount s
  | .finishAsr => finishAsr s
  | .recvResult => recvResult s

def complete (s : State) : Bool := match s.asrWorker with
  | .done => s.results.isEmpty
  | _ => false

def gather (s : State) : Except String (List Timeline) := match s.vadWorker with
  | .done (.error error) => .error error
  | _ => ((s.indexedResults.insertionSort fun a b => a.1 ≤ b.1).map Prod.snd).mapM id

/- What a call returns whose workers took these actions; none while it is not complete. No waveform and a single
one need no workers. -/
def transcribeMany (waveforms : List Waveform) (actions : List Action) : Option (Except String (List Timeline)) :=
  match waveforms with
  | [] => some (.ok [])
  | [waveform] =>
    some ((transcribeWithVadOptions p.inner waveform p.asrOptions p.vadOptions).map fun timeline => [timeline])
  | _ => match Library.Machine.run (step p waveforms.length) (started waveforms) actions with
    | some s => if complete s then some (gather s) else none
    | none => none

end Calls

end Qwen3Asr.AsyncOffline
