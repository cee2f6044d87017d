import Qwen3Asr.Library.Machine
import Qwen3Asr.RecognitionLine

/-! The stages of a transcription: a loader worker, a voice activity worker and a recognition worker, joined by
bounded channels. An action is one step of one worker or task; which comes next is chosen from outside. -/
namespace Qwen3Asr.TranscribePipeline
open MediaData Pipeline TranscribeServer InputDedup TranscribeBatch RecognitionLine

/- The loader is a parameter. The size of the channels is kept above zero. -/
structure AsyncTranscribePipeline (Options : Type) where
  load : AudioSource → Except String Waveform
  offline : OfflinePipeline Options
  asrOptions : Options
  vadOptions : VadOptions
  stageBuffer : Nat
  positive : 0 < stageBuffer

structure LoadedJob where
  index : Nat
  waveform : Waveform
  deriving DecidableEq, Repr

abbrev LoadedMessage := Except TranscribeItemOutcome LoadedJob

inductive VadTask where
  | detecting (job : LoadedJob)
  | sending (messages : List Message)

inductive VadWorker where
  | receiving
  | forwarding (outcome : TranscribeItemOutcome)
  | joining

inductive AsrWorker where
  | receiving
  | collectingJobs (messages : List Message)
  | collectingSegments (segments : List AsrSegmentJob) (waiting : Bool)
  | runningJobs (jobs : List AsrJob)
  | runningSegments (segments : List AsrSegmentJob)
  | sending (outcomes : List TranscribeItemOutcome) (jobs : List AsrJob)
  | done

structure State where
  inputs : List TranscribeInput
  loading : List TranscribeInput
  joined : Option LoadedMessage
  loaded : List LoadedMessage
  vadWorker : VadWorker
  vadTasks : List VadTask
  asrQueue : List Message
  pending : List Message
  asrWorker : AsrWorker
  segmentState : SegmentAsrState
  results : List TranscribeItemOutcome
  outcomes : List TranscribeItemOutcome

/- The recognizer of a call is part of the action: it may answer every call in its own way. -/
inductive Action (Options : Type) where
  | spawnLoaderTask
  | joinLoaderTask (n : Nat)
  | sendLoaded
  | receiveLoaded
  | forwardOutcome
  | prepareVad (n : Nat)
  | sendMessage (n : Nat)
  | joinVadTask (n : Nat)
  | recvAsrMessage
  | takeMessage
  | awaitSegments
  | stopCollecting
  | runBatch (asr : AsrModel Options)
  | sendResult
  | finishAsr
  | recvResult

variable {Options : Type} (p : AsyncTranscribePipeline Options)

section Stages

def started (uniqueInputs : List TranscribeInput) : State where
  inputs := uniqueInputs
  loading := []
  joined := none
  loaded := []
  vadWorker := .receiving
  vadTasks := []
  asrQueue := []
  pending := []
  asrWorker := .receiving
  segmentState _ := none
  results := []
  outcomes := []

def loaderMessage (input : TranscribeInput) : LoadedMessage := match p.load input.source with
  | .ok waveform => .ok ⟨input.index,waveform⟩
  | .error error => .error ⟨input.index,.error error,some "loader"⟩

def vadMessages (job : LoadedJob) : List Message := match prepareVadStage p.offline job.waveform p.vadOptions with
  | .error error => [.error ⟨job.index,.error error,some "vad"⟩]
  | .ok (.speech prepared) => match speechJobToSegments ⟨job.index,.speech prepared,job.waveform⟩ with
    | .ok segments => segments.map segmentMessage
    | .error error => [.error ⟨job.index,.error error,some "vad"⟩]
  | .ok prepared => [.ok (.job ⟨job.index,prepared,job.waveform⟩)]

def loadedClosed (s : State) : Bool := s.inputs.isEmpty && s.loading.isEmpty && s.joined.isNone && s.loaded.isEmpty

def asrClosed (s : State) : Bool := match s.vadWorker with
  | .receiving => loadedClosed s && s.vadTasks.isEmpty
  | _ => false

end Stages

section Loader

def spawnLoaderTask (s : State) : Option State := match s.joined, s.inputs with
  | none, input::inputs =>
    if s.loading.length < p.stageBuffer then some {s with inputs, loading := s.loading ++ [input]} else none
  | _, _ => none

/- The next task that is done; the worker waits for one where as many run as may, or no input is left. -/
def joinLoaderTask (n : Nat) (s : State) : Option State := match s.joined, s.loading[n]? with
  | none, some input =>
    if s.inputs.isEmpty ∨ p.stageBuffer ≤ s.loading.length then
      some {s with loading := s.loading.eraseIdx n, joined := some (loaderMessage p input)}
    else none
  | _, _ => none

def sendLoaded (s : State) : Option State := match s.joined with
  | some message =>
    if s.loaded.length < p.stageBuffer then some {s with loaded := s.loaded ++ [message], joined := none} else none
  | none => none

end Loader

section Vad

def receiveLoaded (s : State) : Option State := match s.vadWorker, s.loaded with
  | .receiving, .ok job::loaded =>
    let vadTasks := s.vadTasks ++ [.detecting job]
    some {s with loaded, vadTasks, vadWorker := if p.stageBuffer ≤ vadTasks.length then .joining else .receiving}
  | .receiving, .error outcome::loaded => some {s with loaded, vadWorker := .forwarding outcome}
  | _, _ => none

def forwardOutcome (s : State) : Option State := match s.vadWorker with
  | .forwarding outcome =>
    if s.asrQueue.length < p.stageBuffer then
      some {s with asrQueue := s.asrQueue ++ [.error outcome], vadWorker := .receiving}
    else none
  | _ => none

def prepareVad (n : Nat) (s : State) : Option State := match s.vadTasks[n]? with
  | some (.detecting job) => some {s with vadTasks := s.vadTasks.set n (.sending (vadMessages p job))}
  | _ => none

def sendMessage (n : Nat) (s : State) : Option State := match s.vadTasks[n]? with
  | some (.sending (message::messages)) =>
    if s.asrQueue.length < p.stageBuffer then
      some {s with asrQueue := s.asrQueue ++ [message], vadTasks := s.vadTasks.set n (.sending messages)}
    else none
  | _ => none

/- A task that has sent everything is joined once as many run as may, or nothing more is loaded. -/
def joinVadTask (n : Nat) (s : State) : Option State := match s.vadTasks[n]?, s.vadWorker with
  | some (.sending []), .joining => some {s with vadTasks := s.vadTasks.eraseIdx n, vadWorker := .receiving}
  | some (.sending []), .receiving => if loadedClosed s then some {s with vadTasks := s.vadTasks.eraseIdx n} else none
  | _, _ => none

end Vad

section Asr

def sendThen : List TranscribeItemOutcome → List AsrJob → AsrWorker
  | [], [] => .receiving
  | [], jobs => .runningJobs jobs
  | outcomes, jobs => .sending outcomes jobs

def messageOutcomes (messages : List Message) : List TranscribeItemOutcome := messages.filterMap fun
  | .error outcome => some outcome
  | .ok _ => none

def messageJobs (messages : List Message) : List AsrJob := messages.filterMap fun
  | .ok (.job job) => some job
  | _ => none

/- The outcomes among the messages are sent, then the jobs are run; a segment would be dropped. -/
def collectedJobs (messages : List Message) : AsrWorker := sendThen (messageOutcomes messages) (messageJobs messages)

def collectJobMicrobatch (messages : List Message) : AsrWorker :=
  if messages.length < p.stageBuffer then .collectingJobs messages else collectedJobs messages

def collectSegmentMicrobatch (segments : List AsrSegmentJob) (waiting : Bool) : AsrWorker :=
  if segments.length < p.stageBuffer then .collectingSegments segments waiting else .runningSegments segments

def accept (s : State) : Message → State
  | .error outcome => {s with asrWorker := .sending [outcome] []}
  | .ok (.job job) => {s with asrWorker := collectJobMicrobatch p [.ok (.job job)]}
  | .ok (.segment segment) => {s with asrWorker := collectSegmentMicrobatch p [segment] false}

def recvAsrMessage (s : State) : Option State := match s.asrWorker, s.pending, s.asrQueue with
  | .receiving, message::pending, _ => some (accept p {s with pending} message)
  | .receiving, [], message::asrQueue => some (accept p {s with asrQueue} message)
  | _, _, _ => none

/- A message of the channel is collected, or stashed behind what already is. -/
def takeMessage (s : State) : Option State := match s.asrWorker, s.asrQueue with
  | .collectingJobs _, .ok (.segment segment)::asrQueue =>
    some {s with asrQueue, pending := s.pending ++ [ segmentMessage segment]}
  | .collectingJobs messages, message::asrQueue =>
    some {s with asrQueue, asrWorker := collectJobMicrobatch p (messages ++ [message])}
  | .collectingSegments segments waiting, .ok (.segment segment)::asrQueue =>
    some {s with asrQueue, asrWorker := collectSegmentMicrobatch p (segments ++ [segment]) waiting}
  | .collectingSegments _ _, message::asrQueue => some {s with asrQueue, pending := s.pending ++ [message]}
  | _, _ => none

def awaitSegments (s : State) : Option State := match s.asrWorker, s.asrQueue with
  | .collectingSegments segments false, [] =>
    if asrClosed s then none else some {s with asrWorker := .collectingSegments segments true}
  | _, _ => none

/- The wait for segments may time out at any moment; both collections end with the channel. -/
def stopCollecting (s : State) : Option State := match s.asrWorker with
  | .collectingJobs messages =>
    if s.asrQueue.isEmpty ∧ asrClosed s then some {s with asrWorker := collectedJobs messages} else none
  | .collectingSegments segments waiting =>
    if waiting ∨ s.asrQueue.isEmpty ∧ asrClosed s then some {s with asrWorker := .runningSegments segments} else none
  | _ => none

def runBatch (asr : AsrModel Options) (s : State) : Option State := match s.asrWorker with
  | .runningJobs jobs =>
    some {s with asrWorker := sendThen (runAsrJobsBatch {p.offline with asr} jobs p.asrOptions) []}
  | .runningSegments segments =>
    let state := prepareSegmentJobState s.segmentState segments
    let batch := runSegmentAsrInference {p.offline with asr} segments p.asrOptions
    let (segmentState,outcomes) := finishSegmentAsrBatch state segments batch
    some {s with segmentState, asrWorker := sendThen outcomes []}
  | _ => none

def sendResult (capacity : Nat) (s : State) : Option State := match s.asrWorker with
  | .sending (outcome::outcomes) jobs =>
    if s.results.length < capacity then
      some {s with results := s.results ++ [outcome], asrWorker := sendThen outcomes jobs}
    else none
  | _ => none

def finishAsr (s : State) : Option State := match s.asrWorker, s.pending, s.asrQueue with
  | .receiving, [], [] => if asrClosed s then some {s with asrWorker := .done} else none
  | _, _, _ => none

def recvResult (s : State) : Option State := match s.results with
  | outcome::results => some {s with results, outcomes := s.outcomes ++ [outcome]}
  | [] => none

end Asr

section Runs

def step (capacity : Nat) (s : State) : Action Options → Option State
  | .spawnLoaderTask => spawnLoaderTask p s
  | .joinLoaderTask n => joinLoaderTask p n s
  | .sendLoaded => sendLoaded p s
  | .receiveLoaded => receiveLoaded p s
  | .forwardOutcome => forwardOutcome p s
  | .prepareVad n => prepareVad p n s
  | .sendMessage n => sendMessage p n s
  | .joinVadTask n => joinVadTask n s
  | .recvAsrMessage => recvAsrMessage p s
  | .takeMessage => takeMessage p s
  | .awaitSegments => awaitSegments s
  | .stopCollecting => stopCollecting s
  | .runBatch asr => runBatch p asr s
  | .sendResult => sendResult capacity s
  | .finishAsr => finishAsr s
  | .recvResult => recvResult s

def Complete (s : State) : Prop := match s.asrWorker with
  | .done => s.results = []
  | _ => False

def transcribeSingle (asr : AsrModel Options) (input : TranscribeInput) : TranscribeItemOutcome :=
  match p.load input.source with
  | .error error => ⟨input.index,.error error,some "loader"⟩
  | .ok waveform =>
    let result := transcribeWithVadOptions {p.offline with asr} waveform p.asrOptions p.vadOptions
    ⟨input.index,result,match result with | .ok _ => none | .error _ => some "recognizer"⟩

/- The outcomes of a call whose stages took these actions to the end; a single input takes none. -/
inductive TranscribeMany (files : Files) (inputs : List TranscribeInput) : List (Action Options) → List TranscribeItemOutcome → Prop where
  | empty (none_ : inputs = []) : TranscribeMany files inputs [] []
  | single (asr : AsrModel Options) (input : TranscribeInput)
      (one : (deduplicateTranscribeInputs files inputs).uniqueInputs = [input]) :
      TranscribeMany files inputs [] (expandDuplicateOutcomes [transcribeSingle p asr input]
        (deduplicateTranscribeInputs files inputs).duplicateIndices)
  | staged (actions : List (Action Options)) (s : State) (some_ : inputs ≠ [])
      (more : (deduplicateTranscribeInputs files inputs).uniqueInputs.length ≠ 1)
      (ran : Library.Machine.run (step p (deduplicateTranscribeInputs files inputs).uniqueInputs.length)
        (started (deduplicateTranscribeInputs files inputs).uniqueInputs) actions = some s)
      (complete : Complete s) :
      TranscribeMany files inputs actions (expandDuplicateOutcomes s.outcomes
        (deduplicateTranscribeInputs files inputs).duplicateIndices)

end Runs

end Qwen3Asr.TranscribePipeline
