import Qwen3Asr.AudioStream
import Qwen3Asr.Library.Service
import Qwen3Asr.Library.Simulation

/-! A realtime session cuts the audio into chunks and hands each to the detector and, where that
returns, to the recognizer. -/
namespace Qwen3Asr.Realtime
open Library.Effect Library.Service Library.Simulation MediaData AudioStream

section Pipeline

inductive Call where
  | pushChunk (chunk : AudioChunk)
  | finish
  deriving DecidableEq, Repr

structure StreamingModel (σ : Type) where
  pushChunk : AudioChunk → EStateM String σ (List Annotation)
  finish : EStateM String σ (List Annotation)

def answer {σ : Type} (model : StreamingModel σ) : Call → EStateM String σ (List Annotation)
  | .pushChunk chunk => model.pushChunk chunk
  | .finish => model.finish

def recording {σ : Type} (model : StreamingModel σ) : StreamingModel (σ × List Call) where
  pushChunk chunk := recorded (answer model) (.pushChunk chunk)
  finish := recorded (answer model) .finish

structure RealtimePipeline (V A : Type) where
  vad : V
  asr : A
  deriving DecidableEq, Repr

variable {V A : Type}

def onVad {α : Type} : EStateM String V α → EStateM String (RealtimePipeline V A) α :=
  zoom (·.vad) (fun vad pipeline => {pipeline with vad})

def onAsr {α : Type} : EStateM String A α → EStateM String (RealtimePipeline V A) α :=
  zoom (·.asr) (fun asr pipeline => {pipeline with asr})

/- An error of the detector returns before the recognizer is called. -/
def inTurn (vadCall : EStateM String V (List Annotation)) (asrCall : EStateM String A (List Annotation)) :
    EStateM String (RealtimePipeline V A) (List Annotation) := do
  let annotations ← onVad vadCall
  let more ← onAsr asrCall
  pure (annotations ++ more)

def realtimePipeline (vad : StreamingModel V) (asr : StreamingModel A) : StreamingModel (RealtimePipeline V A) where
  pushChunk chunk := inTurn (vad.pushChunk chunk) (asr.pushChunk chunk)
  finish := inTurn vad.finish asr.finish

end Pipeline

section Session

inductive ClientRealtimeEvent where
  | sessionUpdate
  | audioAppend (audio : String)
  | audioCommit
  | sessionFinish
  deriving DecidableEq, Repr

inductive ServerRealtimeEvent where
  | speechStarted (startMs : Nat)
  | speechStopped (startMs endMs : Nat)
  | transcriptionText (text : String)
  | transcriptionCompleted (text : String)
  | sessionFinished
  | error (message : String)
  deriving DecidableEq, Repr

structure RealtimeSession (V A : Type) where
  stream : AudioBytesStream
  pipeline : RealtimePipeline V A
  deriving DecidableEq, Repr

def describe : WaveformError → String
  | .invalidSampleRate => "sample rate must be greater than zero"
  | .oddPcmByteLength => "audio byte input length must be divisible by two"
  | .invalidChannelCount => "channel count must be greater than zero"
  | .invalidChunkSize => "chunk size must be greater than zero"
  | .incompleteFrame samples channels =>
    s!"sample count {samples} is not divisible by channel count {channels}"
  | .diverges => ""

def eventFromAnnotation (a : Annotation) : Option ServerRealtimeEvent :=
  match a.payload,a.status with
  | .speech,.partialResult => some (.speechStarted a.range.start)
  | .speech,.final => some (.speechStopped a.range.start a.range.stop)
  | .segment segment,.partialResult => some (.transcriptionText segment.text)
  | .segment segment,.final => some (.transcriptionCompleted segment.text)
  | _,_ => none

def eventsFromAnnotations (annotations : List Annotation) : List ServerRealtimeEvent :=
  annotations.filterMap eventFromAnnotation

def sessionStream (sampleRate : Nat) : StreamConfig := ⟨sampleRate,1,100⟩

variable {V A : Type} (vad : StreamingModel V) (asr : StreamingModel A) (sampleRate : Nat)
  (decode : String → Except String (List UInt8))

abbrev Serving (V A : Type) := EStateM WaveformError (RealtimeSession V A)

/- A loop of the stream that does not end is the one failure that is not answered. -/
def settled {α : Type} (x : Emitting α) : Emitting (Except WaveformError α) := fun stream =>
  match x stream with
  | .ok a stream => .ok (.ok a) stream
  | .error .diverges stream => .error .diverges stream
  | .error e stream => .ok (.error e) stream

def onStream {α : Type} (x : Emitting α) : Serving V A (Except WaveformError α) :=
  zoom (·.stream) (fun stream session => {session with stream}) (settled x)

def onPipeline (call : Call) : Serving V A (Except String (List Annotation)) := fun session =>
  let result := answer (realtimePipeline vad asr) call session.pipeline
  .ok (outcome result) {session with pipeline := after result}

def reported : Except String (List Annotation) → List ServerRealtimeEvent
  | .ok annotations => eventsFromAnnotations annotations
  | .error message => [.error message]

def unreported : Except String (List Annotation) → List ServerRealtimeEvent
  | .ok annotations => eventsFromAnnotations annotations
  | .error _ => []

def appendBase64Audio (audio : String) : Serving V A (List ServerRealtimeEvent) :=
  match decode audio with
  | .error message => pure [.error message]
  | .ok bytes => do
    match ← onStream (push (sessionStream sampleRate) bytes) with
    | .error e => pure [.error (describe e)]
    | .ok chunks =>
      let events ← chunks.mapM fun chunk => reported <$> onPipeline vad asr (.pushChunk chunk)
      pure events.flatten

def finish : Serving V A (List ServerRealtimeEvent) := do
  let events ← match ← onStream (flush (sessionStream sampleRate)) with
    | .error _ => pure []
    | .ok chunks => chunks.mapM fun chunk => unreported <$> onPipeline vad asr (.pushChunk chunk)
  let last ← unreported <$> onPipeline vad asr .finish
  pure (events.flatten ++ last ++ [.sessionFinished])

def respond : ClientRealtimeEvent → Serving V A (List ServerRealtimeEvent)
  | .sessionUpdate => pure []
  | .audioAppend audio => appendBase64Audio vad asr sampleRate decode audio
  | .audioCommit => pure []
  | .sessionFinish => finish vad asr sampleRate

def pushes : Except WaveformError (List AudioChunk) → List Call
  | .error _ => []
  | .ok chunks => chunks.map .pushChunk

def issued : ClientRealtimeEvent → Emitting (List Call)
  | .sessionUpdate => pure []
  | .audioAppend audio => match decode audio with
    | .error _ => pure []
    | .ok bytes => do
      let chunks ← settled (push (sessionStream sampleRate) bytes)
      pure (pushes chunks)
  | .audioCommit => pure []
  | .sessionFinish => do
    let chunks ← settled (flush (sessionStream sampleRate))
    pure (pushes chunks ++ [.finish])

end Session

section Recording
variable {V A : Type} {vad : StreamingModel V} {asr : StreamingModel A}

theorem recordingAnswer (model : StreamingModel A) (call : Call) :
    answer (recording model) call = recorded (answer model) call := by
  cases call <;> rfl

theorem pipelineAnswer (call : Call) :
    answer (realtimePipeline vad asr) call = inTurn (answer vad call) (answer asr call) := by
  cases call <;> rfl

theorem inTurnAfter (x : EStateM String V (List Annotation)) (y : EStateM String A (List Annotation))
    (pipeline : RealtimePipeline V A) : after (inTurn x y pipeline) =
      ⟨after (x pipeline.vad),if (outcome (x pipeline.vad)).isOk then after (y pipeline.asr) else pipeline.asr⟩ := by
  unfold inTurn
  rw [afterBind]
  unfold onVad zoom
  cases x pipeline.vad with
  | error e v => rfl
  | ok annotations v =>
    dsimp only
    rw [afterBind]
    unfold onAsr zoom
    dsimp only
    cases y pipeline.asr <;> rfl

theorem inTurnOutcome (x : EStateM String V (List Annotation)) (y : EStateM String A (List Annotation))
    (pipeline : RealtimePipeline V A) : outcome (inTurn x y pipeline) = (do
      let annotations ← outcome (x pipeline.vad)
      let more ← outcome (y pipeline.asr)
      pure (annotations ++ more)) := by
  unfold inTurn
  rw [outcomeBind]
  unfold onVad zoom
  cases x pipeline.vad with
  | error e v => rfl
  | ok annotations v =>
    dsimp only
    rw [outcomeBind]
    unfold onAsr zoom
    dsimp only
    cases y pipeline.asr <;> rfl

/- The record changes nothing else: without it the pipeline returns and is left the same. -/
theorem recordedPipeline (call : Call) (pipeline : RealtimePipeline V (A × List Call)) :
    let plain : RealtimePipeline V A := ⟨pipeline.vad,pipeline.asr.1⟩
    outcome (answer (realtimePipeline vad (recording asr)) call pipeline) =
      outcome (answer (realtimePipeline vad asr) call plain) ∧
    (after (answer (realtimePipeline vad (recording asr)) call pipeline)).asr.1 =
      (after (answer (realtimePipeline vad asr) call plain)).asr := by
  simp only [pipelineAnswer,inTurnOutcome,inTurnAfter,recordingAnswer,recordedOutcome,recordedAfter,true_and]
  split <;> rfl

theorem pipelineHeard (pipeline : RealtimePipeline V (A × List Call)) (calls : List Call) :
    (serve (answer (realtimePipeline vad (recording asr))) pipeline calls).asr.2 =
      pipeline.asr.2 ++ heard (answer vad) pipeline.vad calls := by
  refine @heardRun _ _ _ _ _ _ _ _ _ (·.vad) (·.asr.2) (fun call p => ?_) (fun call p => ?_) pipeline calls
  · rw [pipelineAnswer,inTurnAfter]
  · rw [pipelineAnswer,inTurnAfter,recordingAnswer,recordedAfter]
    unfold Answered
    split <;> simp_all

end Recording

section Run
variable {V A : Type} {vad : StreamingModel V} {asr : StreamingModel A} {sampleRate : Nat}
  {decode : String → Except String (List UInt8)}

abbrev Comes {α : Type} (vad : StreamingModel V) (asr : StreamingModel A) (start : RealtimePipeline V A) :
    EStateM.Result WaveformError (RealtimeSession V A) α → EStateM.Result WaveformError AudioBytesStream (List Call) → Prop :=
  Simulates (·.stream) fun _ session calls => session.pipeline = serve (answer (realtimePipeline vad asr)) start calls

theorem pushesServed (told : Except String (List Annotation) → List ServerRealtimeEvent) (chunks : List AudioChunk)
    (session : RealtimeSession V A) : ∃ events,
    chunks.mapM (fun chunk => told <$> onPipeline vad asr (.pushChunk chunk)) session = .ok events
      {session with pipeline := serve (answer (realtimePipeline vad asr)) session.pipeline (chunks.map .pushChunk)} := by
  induction chunks generalizing session with
  | nil => exact ⟨[],rfl⟩
  | cons chunk chunks ih =>
    let answered := answer (realtimePipeline vad asr) (.pushChunk chunk) session.pipeline
    have first : (told <$> onPipeline vad asr (.pushChunk chunk)) session =
        .ok (told (outcome answered)) {session with pipeline := after answered} := rfl
    obtain ⟨events,rest⟩ := ih {session with pipeline := after answered}
    rw [List.mapM_cons,bindThen first,bindThen rest]
    exact ⟨_,rfl⟩

theorem respondComes (message : ClientRealtimeEvent) (session : RealtimeSession V A) :
    Comes vad asr session.pipeline (respond vad asr sampleRate decode message session)
      (issued sampleRate decode message session.stream) := by
  cases message with
  | sessionUpdate => exact ⟨_,_,rfl,rfl,rfl⟩
  | audioAppend audio =>
    simp only [respond,issued,appendBase64Audio]
    cases decode audio with
    | error message => exact ⟨_,_,rfl,rfl,rfl⟩
    | ok bytes =>
      refine simulatesBind (simulatesZoom (fun _ _ => rfl) _ session) ?_
      rintro chunks _ _ ⟨rfl,stream,rfl⟩
      cases chunks with
      | error e => exact ⟨_,_,rfl,rfl,rfl⟩
      | ok chunks =>
        obtain ⟨events,pushed⟩ := @pushesServed _ _ vad asr reported chunks {session with stream}
        exact ⟨_,_,bindThen pushed,rfl,rfl⟩
  | audioCommit => exact ⟨_,_,rfl,rfl,rfl⟩
  | sessionFinish =>
    refine simulatesBind (simulatesZoom (fun _ _ => rfl) _ session) ?_
    rintro chunks _ _ ⟨rfl,stream,rfl⟩
    cases chunks with
    | error e => exact ⟨_,_,rfl,rfl,rfl⟩
    | ok chunks =>
      obtain ⟨events,pushed⟩ := @pushesServed _ _ vad asr unreported chunks {session with stream}
      refine ⟨_,_,bindThen pushed,rfl,?_⟩
      dsimp only [pushes]
      rw [serveAppend]
      rfl

/-- A session's pipeline serves the calls its stream comes to, whatever the models answer. -/
theorem sessionComes (messages : List ClientRealtimeEvent) (session : RealtimeSession V A) :
    Simulates (·.stream) (fun _ s calls => s.pipeline = serve (answer (realtimePipeline vad asr)) session.pipeline calls.flatten)
      (messages.mapM (respond vad asr sampleRate decode) session)
      (messages.mapM (issued sampleRate decode) session.stream) := by
  induction messages generalizing session with
  | nil => exact ⟨_,_,rfl,rfl,rfl⟩
  | cons message messages ih =>
    rw [List.mapM_cons,List.mapM_cons]
    refine simulatesBind (respondComes message session) fun events s calls served => ?_
    refine simulatesBind (ih s) fun more t rest continued => ⟨_,_,rfl,rfl,?_⟩
    dsimp only
    rw [continued,served,List.flatten_cons,serveAppend]

/-- The recognizer receives every chunk in order, and is finished, just when the detector fails at none
of the calls: in a run of a pipeline's calls, and in a session's run over the calls its stream comes to. -/
theorem callsReceived (vad : StreamingModel V) (asr : StreamingModel A) (sampleRate : Nat)
    (decode : String → Except String (List UInt8)) :
    (∀ (pipeline : RealtimePipeline V (A × List Call)) (calls : List Call),
      (serve (answer (realtimePipeline vad (recording asr))) pipeline calls).asr.2 = pipeline.asr.2 ++ calls ↔
        NeverFails (answer vad) pipeline.vad calls) ∧
    ∀ (messages : List ClientRealtimeEvent) (session : RealtimeSession V (A × List Call))
      (events : List (List ServerRealtimeEvent)) (last : RealtimeSession V (A × List Call)),
      messages.mapM (respond vad (recording asr) sampleRate decode) session = .ok events last →
      ∃ calls : List (List Call), messages.mapM (issued sampleRate decode) session.stream = .ok calls last.stream ∧
        (last.pipeline.asr.2 = session.pipeline.asr.2 ++ calls.flatten ↔
          NeverFails (answer vad) session.pipeline.vad calls.flatten) := by
  have direct : ∀ (pipeline : RealtimePipeline V (A × List Call)) (calls : List Call),
      (serve (answer (realtimePipeline vad (recording asr))) pipeline calls).asr.2 = pipeline.asr.2 ++ calls ↔
        NeverFails (answer vad) pipeline.vad calls := by
    intro pipeline calls
    rw [pipelineHeard,List.append_cancel_left_eq,heardAll]
  constructor
  · exact direct
  · intro messages session events last ran
    have comes := @sessionComes _ _ vad (recording asr) sampleRate decode messages session
    cases issuing : messages.mapM (issued sampleRate decode) session.stream with
    | error e stream =>
      rw [issuing,ran] at comes
      obtain ⟨_,failed,_⟩ := comes
      cases failed
    | ok calls stream =>
      rw [issuing,ran] at comes
      obtain ⟨_,_,same,rfl,served⟩ := comes
      cases same
      refine ⟨calls,rfl,?_⟩
      rw [served]
      exact direct session.pipeline calls.flatten

def failingVad : StreamingModel Nat where
  pushChunk _ := fun n => if n = 0 then .error "inference failed" (n+1) else .ok [] (n+1)
  finish := throw "inference failed"

def quietAsr : StreamingModel Unit := ⟨fun _ => pure [],pure []⟩

theorem callsReceivedSession :
    let session : RealtimeSession Nat (Unit × List Call) := ⟨newStream,0,(),[]⟩
    let messages : List ClientRealtimeEvent := [.audioAppend "AQACAA==",.sessionFinish]
    let decode : String → Except String (List UInt8) := fun _ => .ok [1,0,2,0]
    ∃ (events : List (List ServerRealtimeEvent)) (last : RealtimeSession Nat (Unit × List Call)),
      messages.mapM (respond failingVad (recording quietAsr) 16000 decode) session = .ok events last ∧
      ∃ calls : List (List Call), messages.mapM (issued 16000 decode) session.stream = .ok calls last.stream ∧
        (last.pipeline.asr.2 = session.pipeline.asr.2 ++ calls.flatten ↔
          NeverFails (answer failingVad) session.pipeline.vad calls.flatten) :=
  ⟨_,_,rfl,(callsReceived failingVad quietAsr 16000 (fun _ => .ok [1,0,2,0])).2 _ _ _ _ rfl⟩

theorem failedCallsMissed :
    let chunk (start stop : Nat) : AudioChunk := ⟨⟨[],16000,1⟩,start = 0,false,start,stop⟩
    let calls : List Call := [.pushChunk (chunk 0 100),.pushChunk (chunk 100 200),.finish]
    (serve (answer (realtimePipeline failingVad (recording quietAsr))) ⟨0,(),[]⟩ calls).asr.2 =
      [.pushChunk (chunk 100 200)] ∧ [Call.pushChunk (chunk 100 200)] ≠ calls := by
  decide

end Run

end Qwen3Asr.Realtime
