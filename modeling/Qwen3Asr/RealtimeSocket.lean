import Qwen3Asr.Realtime

/-! The socket of a realtime session. A client says a word of audio bytes and finishes; what it is told is a matter of
that word, not of the messages that carry it, and a client that goes away is told the beginning. -/
namespace Qwen3Asr.RealtimeSocket
open Library.Effect Library.Service Library.Pieces MediaData AudioStream Realtime

inductive Incoming where
  | text (text : String)
  | close
  | other
  | failed
  deriving DecidableEq, Repr

inductive SocketEvent where
  | sessionCreated (sessionId : String)
  | said (event : ServerRealtimeEvent)
  deriving DecidableEq, Repr

structure Wire where
  attempts : Nat
  sent : List SocketEvent
  deriving DecidableEq, Repr

structure Socket (V A : Type) where
  session : RealtimeSession V A
  wire : Wire
  deriving DecidableEq, Repr

variable {V A : Type}

abbrev Handling (V A : Type) := EStateM WaveformError (Socket V A)

section Run
variable (vad : StreamingModel V) (asr : StreamingModel A) (sampleRate : Nat)
  (decode : String → Except String (List UInt8)) (parse : String → Option ClientRealtimeEvent) (accepts : Nat → Bool)

def onSession {α : Type} : Serving V A α → Handling V A α :=
  zoom (·.session) (fun session socket => {socket with session})

def send (event : SocketEvent) : Handling V A Bool := fun socket =>
  let taken := accepts socket.wire.attempts
  .ok taken {socket with wire := ⟨socket.wire.attempts+1,if taken then socket.wire.sent ++ [event] else socket.wire.sent⟩}

def sendAll : List SocketEvent → Handling V A Bool
  | [] => pure true
  | event::events => do
    let taken ← send accepts event
    if taken then sendAll events else pure false

def invalidEvent : ServerRealtimeEvent := .error "invalid realtime event"

/- A client that does not take the answer to an invalid event is heard on, one that does not take
another answer is not. -/
def runFrames : List Incoming → Handling V A Unit
  | [] => pure ()
  | .failed::_ => pure ()
  | .close::_ => pure ()
  | .other::frames => runFrames frames
  | .text text::frames => match parse text with
    | none => do
      let _ ← send accepts (.said invalidEvent)
      runFrames frames
    | some event => do
      let events ← onSession (respond vad asr sampleRate decode event)
      let taken ← sendAll accepts (events.map .said)
      if taken then runFrames frames else pure ()

def runSocket (sessionId : String) (frames : List Incoming) : Handling V A Unit := do
  let _ ← send accepts (.sessionCreated sessionId)
  runFrames vad asr sampleRate decode parse accepts frames

def handleRealtime (makeSession : Except String (RealtimeSession V A)) (sessionId : String) (frames : List Incoming) :
    Except WaveformError (List SocketEvent) :=
  match makeSession with
  | .ok session => match runSocket vad asr sampleRate decode parse accepts sessionId frames ⟨session,0,[]⟩ with
    | .ok _ socket => .ok socket.wire.sent
    | .error e _ => .error e
  | .error message => .ok (if accepts 0 then [.said (.error message)] else [])

end Run

section Said
variable (decode : String → Except String (List UInt8)) (parse : String → Option ClientRealtimeEvent)

def reached (frames : List Incoming) : List Incoming := frames.takeWhile fun frame => frame ≠ .close ∧ frame ≠ .failed

/- Bytes of audio and, as none, finishes. -/
def eventSays : ClientRealtimeEvent → List (Option UInt8)
  | .audioAppend audio => match decode audio with
    | .ok bytes => bytes.map some
    | .error _ => []
  | .sessionFinish => [none]
  | _ => []

def frameSays : Incoming → List (Option UInt8)
  | .text text => match parse text with
    | some event => eventSays decode event
    | none => []
  | _ => []

def spoken (frames : List Incoming) : List (Option UInt8) := (reached frames).flatMap (frameSays decode parse)

def refusal : Incoming → Option ServerRealtimeEvent
  | .text text => match parse text with
    | none => some invalidEvent
    | some (.audioAppend audio) => match decode audio with
      | .ok _ => none
      | .error message => some (.error message)
    | some _ => none
  | _ => none

/- What frames are told behind a word: a refused frame its answer, any other what is heard of it then. -/
inductive Interleaved (heard : List (Option UInt8) → List ServerRealtimeEvent) :
    List (Option UInt8) → List Incoming → List ServerRealtimeEvent → Prop
  | nil {said : List (Option UInt8)} : Interleaved heard said [] []
  | refused {said : List (Option UInt8)} {frame : Incoming} {frames : List Incoming} {answer : ServerRealtimeEvent}
      {events : List ServerRealtimeEvent} (refuses : refusal decode parse frame = some answer)
      (rest : Interleaved heard said frames events) : Interleaved heard said (frame::frames) (answer::events)
  | answered {said : List (Option UInt8)} {frame : Incoming} {frames : List Incoming}
      {answers events : List ServerRealtimeEvent} (takes : refusal decode parse frame = none)
      (hears : heard (said ++ frameSays decode parse frame) = heard said ++ answers)
      (rest : Interleaved heard (said ++ frameSays decode parse frame) frames events) :
      Interleaved heard said (frame::frames) (answers ++ events)

section Mixed
variable {decode : String → Except String (List UInt8)} {parse : String → Option ClientRealtimeEvent}
  {heard : List (Option UInt8) → List ServerRealtimeEvent} {said : List (Option UInt8)} {frames : List Incoming}
  {events : List ServerRealtimeEvent}

theorem refusalError {frame : Incoming} {answer : ServerRealtimeEvent} (refuses : refusal decode parse frame = some answer) :
    frameSays decode parse frame = [] ∧ answer ≠ .sessionFinished := by
  unfold refusal at refuses
  unfold frameSays
  split at refuses <;> try contradiction
  split at refuses <;> try contradiction
  · cases refuses
    simp_all [invalidEvent]
  · split at refuses <;> try contradiction
    cases refuses
    simp_all [eventSays]

theorem mixedHeard (mixed : Interleaved decode parse heard said frames events) :
    ∃ told, heard (said ++ frames.flatMap (frameSays decode parse)) = heard said ++ told ∧ told.Sublist events ∧
      events.count .sessionFinished = told.count .sessionFinished := by
  induction mixed with
  | nil => exact ⟨[],by simp,List.Sublist.slnil,rfl⟩
  | refused refuses _ ih =>
    obtain ⟨told,same,inside,counted⟩ := ih
    obtain ⟨nothing,other⟩ := refusalError refuses
    rw [List.flatMap_cons,nothing]
    exact ⟨told,same,inside.cons _,by rw [List.count_cons_of_ne other,counted]⟩
  | @answered said frame frames answers events _ hears _ ih =>
    obtain ⟨told,same,inside,counted⟩ := ih
    refine ⟨answers ++ told,?_,(List.Sublist.refl answers).append inside,?_⟩
    · rw [List.flatMap_cons,← List.append_assoc,same,hears,List.append_assoc]
    · rw [List.count_append,List.count_append,counted]

end Mixed

end Said

section Delivery
variable {vad : StreamingModel V} {asr : StreamingModel A} {sampleRate : Nat}
  {decode : String → Except String (List UInt8)} {parse : String → Option ClientRealtimeEvent} {k : Nat}

def Delivered (k : Nat) (told : List SocketEvent) (wire : Wire) : Prop := wire.attempts = told.length ∧ wire.sent = told.take k

theorem takeFull {α : Type} {xs : List α} (full : k ≤ xs.length) (ys : List α) : (xs ++ ys).take k = xs.take k :=
  List.take_append_of_le_length full

theorem sendDelivers {told : List SocketEvent} (event : SocketEvent) {socket : Socket V A} (so : Delivered k told socket.wire) :
    ∃ wire, send (fun n => decide (n < k)) event socket = .ok (decide (told.length < k)) {socket with wire} ∧
      Delivered k (told ++ [event]) wire := by
  obtain ⟨counted,taken⟩ := so
  unfold send
  refine ⟨_,by rw [counted],?_,?_⟩
  · rw [List.length_append,List.length_singleton]
  · dsimp only
    rcases Nat.lt_or_ge told.length k with open_ | full
    · have whole : (told ++ [event]).length ≤ k := by rw [List.length_append]; exact open_
      rw [if_pos (decide_eq_true open_),taken,List.take_of_length_le open_.le,List.take_of_length_le whole]
    · rw [if_neg (by rw [decide_eq_true_eq]; omega),taken,takeFull full]

/- Where a send fails, whatever would have come after it would not have been taken. -/
theorem sendAllDelivers {told : List SocketEvent} (events : List SocketEvent) {socket : Socket V A}
    (so : Delivered k told socket.wire) :
    ∃ taken wire, sendAll (fun n => decide (n < k)) events socket = .ok taken {socket with wire} ∧
      (taken = true → Delivered k (told ++ events) wire) ∧
      (taken = false → ∀ more, wire.sent = (told ++ events ++ more).take k) := by
  induction events generalizing told socket with
  | nil =>
    refine ⟨true,socket.wire,rfl,fun _ => ?_,fun failed => by cases failed⟩
    rwa [List.append_nil]
  | cons event events ih =>
    obtain ⟨wire,sent,delivered⟩ := sendDelivers event so
    unfold sendAll
    rw [bindThen sent]
    by_cases open_ : told.length < k
    · obtain ⟨taken,last,ran,went,stopped⟩ := @ih (told ++ [event]) {socket with wire} delivered
      rw [if_pos (decide_eq_true open_)]
      simp only [List.append_assoc,List.singleton_append] at went stopped ⊢
      exact ⟨taken,last,ran,went,stopped⟩
    · rw [if_neg (by rwa [decide_eq_true_eq])]
      refine ⟨false,wire,rfl,fun went => (by cases went),fun _ more => ?_⟩
      rw [delivered.2,takeFull (Nat.not_lt.mp open_),List.append_assoc,takeFull (Nat.not_lt.mp open_)]

section Answers
variable (vad : StreamingModel V) (asr : StreamingModel A) (sampleRate : Nat)
  (decode : String → Except String (List UInt8)) (parse : String → Option ClientRealtimeEvent)

def frameAnswers : Incoming → Serving V A (List ServerRealtimeEvent)
  | .text text => match parse text with
    | none => pure [invalidEvent]
    | some event => respond vad asr sampleRate decode event
  | _ => pure []

def answers : List Incoming → Serving V A (List ServerRealtimeEvent)
  | [] => pure []
  | frame::frames => do
    let events ← frameAnswers vad asr sampleRate decode parse frame
    let more ← answers frames
    pure (events ++ more)

end Answers

theorem runDelivers {frames : List Incoming} {told : List SocketEvent} {socket : Socket V A} (so : Delivered k told socket.wire)
    {events : List ServerRealtimeEvent} {last : RealtimeSession V A}
    (ran : answers vad asr sampleRate decode parse (reached frames) socket.session = .ok events last) :
    ∃ final, runFrames vad asr sampleRate decode parse (fun n => decide (n < k)) frames socket = .ok () final ∧
      final.wire.sent = (told ++ events.map SocketEvent.said).take k := by
  induction frames generalizing told socket events with
  | nil =>
    obtain ⟨rfl,rfl⟩ : [] = events ∧ socket.session = last := by simpa [reached,answers] using ran
    exact ⟨socket,rfl,by rw [List.map_nil,List.append_nil]; exact so.2⟩
  | cons frame frames ih =>
    cases frame with
    | failed =>
      obtain ⟨rfl,rfl⟩ : [] = events ∧ socket.session = last := by simpa [reached,answers] using ran
      exact ⟨socket,rfl,by rw [List.map_nil,List.append_nil]; exact so.2⟩
    | close =>
      obtain ⟨rfl,rfl⟩ : [] = events ∧ socket.session = last := by simpa [reached,answers] using ran
      exact ⟨socket,rfl,by rw [List.map_nil,List.append_nil]; exact so.2⟩
    | other =>
      have rest : answers vad asr sampleRate decode parse (reached frames) socket.session = .ok events last := by
        change answers vad asr sampleRate decode parse (.other::reached frames) socket.session = .ok events last at ran
        obtain ⟨first,s,done,ran⟩ := bindOk.mp ran
        obtain ⟨rfl,rfl⟩ : [] = first ∧ socket.session = s := by simpa [frameAnswers] using done
        obtain ⟨more,s,rest,same⟩ := bindOk.mp ran
        obtain ⟨rfl,rfl⟩ : more = events ∧ s = last := by simpa using same
        exact rest
      exact ih so rest
    | text text =>
      change answers vad asr sampleRate decode parse (.text text::reached frames) socket.session = .ok events last at ran
      obtain ⟨first,s,done,ran⟩ := bindOk.mp ran
      obtain ⟨more,t,rest,same⟩ := bindOk.mp ran
      obtain ⟨rfl,rfl⟩ : first ++ more = events ∧ t = last := by simpa using same
      unfold runFrames
      rw [List.map_append,← List.append_assoc]
      cases parsed : parse text with
      | none =>
        simp only [frameAnswers,parsed] at done ⊢
        obtain ⟨rfl,rfl⟩ : [invalidEvent] = first ∧ socket.session = s := by simpa using done
        obtain ⟨wire,sent,delivered⟩ := sendDelivers (.said invalidEvent) so
        rw [bindThen sent]
        exact @ih (told ++ [.said invalidEvent]) {socket with wire} delivered _ rest
      | some event =>
        simp only [frameAnswers,parsed] at done ⊢
        have answered : onSession (respond vad asr sampleRate decode event) socket = .ok first {socket with session := s} :=
          zoomOk.mpr ⟨s,done,rfl⟩
        obtain ⟨taken,wire,sent,went,stopped⟩ := @sendAllDelivers _ _ k told (first.map .said) {socket with session := s} so
        rw [bindThen answered,bindThen sent]
        cases taken with
        | true => exact @ih (told ++ first.map .said) ⟨s,wire⟩ (went rfl) _ rest
        | false => exact ⟨⟨s,wire⟩,rfl,stopped rfl _⟩

end Delivery

section Hearing
variable (vad : StreamingModel V) (asr : StreamingModel A) (sampleRate : Nat)

def pushBytes (bytes : List UInt8) : Serving V A (List ServerRealtimeEvent) :=
  appendBase64Audio vad asr sampleRate (fun _ => .ok bytes) ""

def hearing : List (Option UInt8) → Serving V A (List ServerRealtimeEvent)
  | [] => pure []
  | some byte::said => do
    let events ← pushBytes vad asr sampleRate [byte]
    let more ← hearing said
    pure (events ++ more)
  | none::said => do
    let events ← finish vad asr sampleRate
    let more ← hearing said
    pure (events ++ more)

def tellings (tell : Except String (List Annotation) → List ServerRealtimeEvent) :
    RealtimePipeline V A → List Call → List ServerRealtimeEvent
  | _, [] => []
  | pipeline, call::calls =>
    let answered := answer (realtimePipeline vad asr) call pipeline
    tell (outcome answered) ++ tellings tell (after answered) calls

end Hearing

section Heard
variable {vad : StreamingModel V} {asr : StreamingModel A} {sampleRate : Nat}

theorem tellingsAppend (tell : Except String (List Annotation) → List ServerRealtimeEvent) (pipeline : RealtimePipeline V A)
    (calls more : List Call) : tellings vad asr tell pipeline (calls ++ more) = tellings vad asr tell pipeline calls ++
      tellings vad asr tell (serve (answer (realtimePipeline vad asr)) pipeline calls) more := by
  induction calls generalizing pipeline with
  | nil => rfl
  | cons call calls ih =>
    simp only [List.cons_append,tellings,ih,serve,List.append_assoc]

theorem pushesTold (tell : Except String (List Annotation) → List ServerRealtimeEvent) (chunks : List AudioChunk)
    (session : RealtimeSession V A) : ∃ events,
    chunks.mapM (fun chunk => tell <$> onPipeline vad asr (.pushChunk chunk)) session = .ok events
      {session with pipeline := serve (answer (realtimePipeline vad asr)) session.pipeline (chunks.map .pushChunk)} ∧
    events.flatten = tellings vad asr tell session.pipeline (chunks.map .pushChunk) := by
  induction chunks generalizing session with
  | nil => exact ⟨[],rfl,rfl⟩
  | cons chunk chunks ih =>
    let answered := answer (realtimePipeline vad asr) (.pushChunk chunk) session.pipeline
    have first : (tell <$> onPipeline vad asr (.pushChunk chunk)) session =
        .ok (tell (outcome answered)) {session with pipeline := after answered} := rfl
    obtain ⟨events,rest,told⟩ := ih {session with pipeline := after answered}
    rw [List.mapM_cons,bindThen first,bindThen rest]
    exact ⟨_,rfl,congrArg (tell (outcome answered) ++ ·) told⟩

theorem tellingsUnfinished (tell : Except String (List Annotation) → List ServerRealtimeEvent)
    (quiet : ∀ result, .sessionFinished ∉ tell result) (pipeline : RealtimePipeline V A) (calls : List Call) :
    .sessionFinished ∉ tellings vad asr tell pipeline calls := by
  induction calls generalizing pipeline with
  | nil => exact List.not_mem_nil
  | cons call calls ih =>
    rw [tellings,List.mem_append]
    exact not_or.mpr ⟨quiet _,ih _⟩

theorem eventsUnfinished (annotations : List Annotation) : .sessionFinished ∉ eventsFromAnnotations annotations := by
  intro inside
  obtain ⟨found,_,made⟩ := List.mem_filterMap.mp inside
  unfold eventFromAnnotation at made
  split at made <;> cases made

theorem reportedUnfinished (result : Except String (List Annotation)) : .sessionFinished ∉ reported result := by
  cases result with
  | ok annotations => exact eventsUnfinished annotations
  | error message => simp [reported]

theorem unreportedUnfinished (result : Except String (List Annotation)) : .sessionFinished ∉ unreported result := by
  cases result with
  | ok annotations => exact eventsUnfinished annotations
  | error message => exact List.not_mem_nil

theorem sessionValid (rate : 10 ≤ sampleRate) : validate (sessionStream sampleRate) = .ok () := by
  simp [validate,sessionStream,show sampleRate ≠ 0 by omega]

theorem sessionFrames (rate : 10 ≤ sampleRate) (word : sampleRate < 2^32) : 0 < frameBytes (sessionStream sampleRate) := by
  have wide : sampleRate*100%2^64 = sampleRate*100 := Nat.mod_eq_of_lt (by omega)
  simp only [frameBytes,sessionStream,wide,Nat.mul_one]
  omega

section Session
variable (rate : 10 ≤ sampleRate) (word : sampleRate < 2^32)

def filledBy (sampleRate : Nat) (stream : AudioBytesStream) (bytes : List UInt8) : List (List UInt8 × Bool) :=
  let filled := stream.buffer ++ bytes
  AudioStream.inner (cut (frameBytes (sessionStream sampleRate)) (filled.length/frameBytes (sessionStream sampleRate)) filled)

def callsOf (sampleRate : Nat) (stream : AudioBytesStream) (bytes : List UInt8) : List Call :=
  (chunksFrom (sessionStream sampleRate) stream.emittedSamples (filledBy sampleRate stream bytes)).map .pushChunk

def streamAfter (sampleRate : Nat) (stream : AudioBytesStream) (bytes : List UInt8) : AudioBytesStream :=
  ⟨leftover (frameBytes (sessionStream sampleRate)) (stream.buffer ++ bytes),
    (filledBy sampleRate stream bytes).foldl advance stream.emittedSamples⟩

def sessionAfter (vad : StreamingModel V) (asr : StreamingModel A) (sampleRate : Nat) (session : RealtimeSession V A)
    (bytes : List UInt8) : RealtimeSession V A :=
  ⟨streamAfter sampleRate session.stream bytes,
    serve (answer (realtimePipeline vad asr)) session.pipeline (callsOf sampleRate session.stream bytes)⟩

def Waits (sampleRate : Nat) (session : RealtimeSession V A) : Prop :=
  session.stream.buffer.length < frameBytes (sessionStream sampleRate)

include rate word

theorem pushBytesRun (bytes : List UInt8) (session : RealtimeSession V A) : pushBytes vad asr sampleRate bytes session =
    .ok (tellings vad asr reported session.pipeline (callsOf sampleRate session.stream bytes))
      (sessionAfter vad asr sampleRate session bytes) := by
  have pushed : onStream (push (sessionStream sampleRate) bytes) session =
      .ok (.ok (chunksFrom (sessionStream sampleRate) session.stream.emittedSamples (filledBy sampleRate session.stream bytes)))
        {session with stream := streamAfter sampleRate session.stream bytes} := by
    have ran := @pushRun (sessionStream sampleRate) rfl (sessionFrames rate word) (sessionValid rate) bytes session.stream
    unfold onStream zoom settled
    rw [ran]
    rfl
  obtain ⟨events,told,flat⟩ := @pushesTold _ _ vad asr reported
    (chunksFrom (sessionStream sampleRate) session.stream.emittedSamples (filledBy sampleRate session.stream bytes))
    {session with stream := streamAfter sampleRate session.stream bytes}
  dsimp only at flat
  refine (bindThen pushed).trans ((bindThen told).trans ?_)
  rw [flat]
  rfl

omit rate word in
theorem flushEmpties {config : StreamConfig} (mono : config.numChannels = 1) (valid : validate config = .ok ())
    (stream : AudioBytesStream) : ∃ chunks last, flush config stream = .ok chunks last ∧ last.buffer = [] := by
  unfold flush
  rw [attemptThen valid,bindThen (getRun stream)]
  by_cases empty : stream.buffer = []
  · rw [if_pos empty]
    exact ⟨_,_,rfl,empty⟩
  · rw [if_neg empty,bindThen (modifyRun _ stream)]
    by_cases short : stream.buffer.take (stream.buffer.length-stream.buffer.length%2) = []
    · rw [if_pos short]
      exact ⟨_,_,rfl,rfl⟩
    · have whole : (stream.buffer.take (stream.buffer.length-stream.buffer.length%2)).length%2 = 0 := by
        rw [List.length_take]
        omega
      rw [if_neg short,bindThen (chunkTaken mono whole true _)]
      exact ⟨_,_,rfl,rfl⟩

omit word in
theorem finishRun (session : RealtimeSession V A) : ∃ events last, finish vad asr sampleRate session = .ok events last ∧
    last.stream.buffer = [] ∧ events.count .sessionFinished = 1 := by
  obtain ⟨chunks,stream,ran,emptied⟩ := @flushEmpties (sessionStream sampleRate) rfl (sessionValid rate) session.stream
  have flushed : onStream (flush (sessionStream sampleRate)) session = .ok (.ok chunks) {session with stream} := by
    unfold onStream zoom settled
    rw [ran]
  obtain ⟨events,told,flat⟩ := @pushesTold _ _ vad asr unreported chunks {session with stream}
  let pipeline := serve (answer (realtimePipeline vad asr)) session.pipeline (chunks.map .pushChunk)
  let answered := answer (realtimePipeline vad asr) .finish pipeline
  have ended : (unreported <$> onPipeline vad asr .finish) {session with stream,pipeline} =
      .ok (unreported (outcome answered)) ⟨stream,after answered⟩ := rfl
  refine ⟨events.flatten ++ unreported (outcome answered) ++ [.sessionFinished],⟨stream,after answered⟩,?_,emptied,?_⟩
  · exact (bindThen flushed).trans ((bindThen told).trans (bindThen ended))
  · rw [List.count_append,List.count_append,flat,
      List.count_eq_zero.mpr (tellingsUnfinished _ unreportedUnfinished _ _),List.count_eq_zero.mpr (unreportedUnfinished _)]
    rfl

theorem joinedBytes (stream : AudioBytesStream) (first second : List UInt8) :
    callsOf sampleRate stream (first ++ second) = callsOf sampleRate stream first ++
      callsOf sampleRate (streamAfter sampleRate stream first) second ∧
    streamAfter sampleRate stream (first ++ second) = streamAfter sampleRate (streamAfter sampleRate stream first) second := by
  let size := frameBytes (sessionStream sampleRate)
  let filled := stream.buffer ++ first
  obtain ⟨counted,left⟩ := leftoverAppend (sessionFrames rate word) filled second
  have within : filled.length/size*size ≤ filled.length := Nat.div_mul_le_self _ _
  have blocks : filledBy sampleRate stream (first ++ second) = filledBy sampleRate stream first ++
      filledBy sampleRate (streamAfter sampleRate stream first) second := by
    simp only [filledBy,streamAfter,AudioStream.inner]
    rw [← List.append_assoc,counted,cutAdd,cutAppend within,List.drop_append_of_le_length within,List.map_append]
    rfl
  constructor
  · simp only [callsOf,blocks,chunksAppend,List.map_append]
    rfl
  · simp only [streamAfter] at blocks ⊢
    rw [blocks,List.foldl_append,left,List.append_assoc]

theorem sessionWaits (session : RealtimeSession V A) (bytes : List UInt8) :
    Waits sampleRate (sessionAfter vad asr sampleRate session bytes) :=
  leftoverLength (sessionFrames rate word)

omit rate word in
theorem nothingFills {session : RealtimeSession V A} (waits : Waits sampleRate session) :
    callsOf sampleRate session.stream [] = [] ∧ sessionAfter vad asr sampleRate session [] = session := by
  have none_ : filledBy sampleRate session.stream [] = [] := by
    simp only [filledBy,List.append_nil,Nat.div_eq_of_lt waits]
    rfl
  have calls : callsOf sampleRate session.stream [] = [] := by
    unfold callsOf
    rw [none_]
    rfl
  refine ⟨calls,?_⟩
  unfold sessionAfter streamAfter
  rw [calls,none_,List.append_nil,leftoverShort waits]
  rfl

theorem hearingBytes {session : RealtimeSession V A} (waits : Waits sampleRate session) (bytes : List UInt8)
    {said : List (Option UInt8)} {more : List ServerRealtimeEvent} {last : RealtimeSession V A}
    (rest : hearing vad asr sampleRate said (sessionAfter vad asr sampleRate session bytes) = .ok more last) :
    hearing vad asr sampleRate (bytes.map some ++ said) session =
      .ok (tellings vad asr reported session.pipeline (callsOf sampleRate session.stream bytes) ++ more) last := by
  induction bytes generalizing session with
  | nil =>
    obtain ⟨calls,same⟩ := @nothingFills _ _ vad asr _ _ waits
    rw [same] at rest
    rw [calls]
    exact rest
  | cons byte bytes ih =>
    obtain ⟨calls,stream⟩ := joinedBytes rate word session.stream [byte] bytes
    have joined : sessionAfter vad asr sampleRate session (byte::bytes) =
        sessionAfter vad asr sampleRate (sessionAfter vad asr sampleRate session [byte]) bytes := by
      unfold sessionAfter
      rw [← serveAppend,← calls,← stream]
      rfl
    rw [joined] at rest
    have later := ih (sessionWaits rate word session [byte]) rest
    refine (bindThen (pushBytesRun rate word [byte] session)).trans ((bindThen later).trans ?_)
    rw [← List.append_assoc]
    change EStateM.Result.ok _ _ = EStateM.Result.ok (tellings vad asr reported session.pipeline (callsOf sampleRate session.stream ([byte] ++ bytes)) ++ more) last
    rw [calls,tellingsAppend]
    rfl

theorem hearingRuns (said : List (Option UInt8)) {session : RealtimeSession V A} (waits : Waits sampleRate session) :
    ∃ heard last, hearing vad asr sampleRate said session = .ok heard last ∧ Waits sampleRate last ∧
      heard.count .sessionFinished = said.count none := by
  induction said generalizing session with
  | nil => exact ⟨[],session,rfl,waits,rfl⟩
  | cons token said ih =>
    cases token with
    | some byte =>
      obtain ⟨more,last,rest,ends,counted⟩ := ih (sessionWaits rate word session [byte])
      refine ⟨_,last,(bindThen (pushBytesRun rate word [byte] session)).trans (bindThen rest),ends,?_⟩
      rw [List.count_append,List.count_eq_zero.mpr (tellingsUnfinished _ reportedUnfinished _ _),counted]
      simp
    | none =>
      obtain ⟨events,after_,finished,empty,once⟩ := @finishRun _ _ vad asr _ rate session
      have again : Waits sampleRate after_ := by
        unfold Waits
        rw [empty]
        exact sessionFrames rate word
      obtain ⟨more,last,rest,ends,counted⟩ := ih again
      refine ⟨_,last,(bindThen finished).trans (bindThen rest),ends,?_⟩
      rw [List.count_append,once,counted,List.count_cons_self,Nat.add_comm]

omit rate word in
theorem hearingAppend {said more : List (Option UInt8)} {session middle last : RealtimeSession V A}
    {heard later : List ServerRealtimeEvent} (first : hearing vad asr sampleRate said session = .ok heard middle)
    (second : hearing vad asr sampleRate more middle = .ok later last) :
    hearing vad asr sampleRate (said ++ more) session = .ok (heard ++ later) last := by
  induction said generalizing session heard with
  | nil =>
    obtain ⟨rfl,rfl⟩ : [] = heard ∧ session = middle := by simpa [hearing] using first
    exact second
  | cons token said ih =>
    cases token with
    | some byte =>
      obtain ⟨events,s,pushed,first⟩ := bindOk.mp first
      obtain ⟨rest,t,heardRest,same⟩ := bindOk.mp first
      obtain ⟨rfl,rfl⟩ : events ++ rest = heard ∧ t = middle := by simpa using same
      rw [List.append_assoc]
      exact (bindThen pushed).trans (bindThen (ih heardRest))
    | none =>
      obtain ⟨events,s,finished,first⟩ := bindOk.mp first
      obtain ⟨rest,t,heardRest,same⟩ := bindOk.mp first
      obtain ⟨rfl,rfl⟩ : events ++ rest = heard ∧ t = middle := by simpa using same
      rw [List.append_assoc]
      exact (bindThen finished).trans (bindThen (ih heardRest))

omit rate word in
theorem frameKinds (vad : StreamingModel V) (asr : StreamingModel A) (sampleRate : Nat)
    (decode : String → Except String (List UInt8)) (parse : String → Option ClientRealtimeEvent)
    (frame : Incoming) (session : RealtimeSession V A) :
    (∃ answer, refusal decode parse frame = some answer ∧ frameSays decode parse frame = [] ∧
      frameAnswers vad asr sampleRate decode parse frame session = .ok [answer] session) ∨
    refusal decode parse frame = none ∧
      (frameSays decode parse frame = [] ∧ frameAnswers vad asr sampleRate decode parse frame session = .ok [] session ∨
      (∃ bytes, frameSays decode parse frame = bytes.map some ∧
        frameAnswers vad asr sampleRate decode parse frame session = pushBytes vad asr sampleRate bytes session) ∨
      frameSays decode parse frame = [none] ∧
        frameAnswers vad asr sampleRate decode parse frame session = finish vad asr sampleRate session) := by
  cases frame with
  | close => exact .inr ⟨rfl,.inl ⟨rfl,rfl⟩⟩
  | other => exact .inr ⟨rfl,.inl ⟨rfl,rfl⟩⟩
  | failed => exact .inr ⟨rfl,.inl ⟨rfl,rfl⟩⟩
  | text text =>
    simp only [refusal,frameSays,frameAnswers]
    cases parse text with
    | none => exact .inl ⟨_,rfl,rfl,rfl⟩
    | some event =>
      cases event with
      | sessionUpdate => exact .inr ⟨rfl,.inl ⟨rfl,rfl⟩⟩
      | audioCommit => exact .inr ⟨rfl,.inl ⟨rfl,rfl⟩⟩
      | sessionFinish => exact .inr ⟨rfl,.inr (.inr ⟨rfl,rfl⟩)⟩
      | audioAppend audio =>
        simp only [eventSays,respond,appendBase64Audio]
        cases decode audio with
        | error message => exact .inl ⟨_,rfl,rfl,rfl⟩
        | ok bytes => exact .inr ⟨rfl,.inr (.inl ⟨bytes,rfl,rfl⟩)⟩

theorem frameHeard (decode : String → Except String (List UInt8)) (parse : String → Option ClientRealtimeEvent)
    (frame : Incoming) {session : RealtimeSession V A} (waits : Waits sampleRate session) :
    (∃ answer, refusal decode parse frame = some answer ∧
      frameAnswers vad asr sampleRate decode parse frame session = .ok [answer] session) ∨
    refusal decode parse frame = none ∧ ∃ events next,
      frameAnswers vad asr sampleRate decode parse frame session = .ok events next ∧
      hearing vad asr sampleRate (frameSays decode parse frame) session = .ok events next ∧ Waits sampleRate next := by
  rcases frameKinds vad asr sampleRate decode parse frame session with
    ⟨answer,refuses,_,answered⟩ | ⟨takes,⟨meaning,answered⟩ | ⟨bytes,meaning,answered⟩ | ⟨meaning,answered⟩⟩
  · exact .inl ⟨answer,refuses,answered⟩
  · exact .inr ⟨takes,[],session,answered,by rw [meaning]; rfl,waits⟩
  · have next := @sessionWaits _ _ vad asr _ rate word session bytes
    have ends : hearing vad asr sampleRate [] (sessionAfter vad asr sampleRate session bytes) = .ok [] _ := rfl
    have hears := hearingBytes rate word waits bytes ends
    rw [pushBytesRun rate word] at answered
    rw [List.append_nil,List.append_nil] at hears
    exact .inr ⟨takes,_,_,answered,by rw [meaning]; exact hears,next⟩
  · obtain ⟨closing,closed,finished,empty,_⟩ := @finishRun _ _ vad asr _ rate session
    have again : Waits sampleRate closed := by
      unfold Waits
      rw [empty]
      exact sessionFrames rate word
    have ends : hearing vad asr sampleRate [] closed = .ok [] closed := rfl
    have hears : hearing vad asr sampleRate [none] session = .ok (closing ++ []) closed :=
      (bindThen finished).trans (bindThen ends)
    rw [finished] at answered
    rw [List.append_nil] at hears
    exact .inr ⟨takes,closing,closed,answered,by rw [meaning]; exact hears,again⟩

def heardOf (vad : StreamingModel V) (asr : StreamingModel A) (sampleRate : Nat) (session : RealtimeSession V A)
    (said : List (Option UInt8)) : List ServerRealtimeEvent :=
  (returned (hearing vad asr sampleRate said session)).getD []

omit rate word in
theorem heardIs {session last : RealtimeSession V A} {said : List (Option UInt8)} {heard : List ServerRealtimeEvent}
    (ran : hearing vad asr sampleRate said session = .ok heard last) : heardOf vad asr sampleRate session said = heard := by
  rw [heardOf,ran]
  rfl

/- Frames are answered what their word is heard, but for what is refused. -/
theorem answersHear (decode : String → Except String (List UInt8)) (parse : String → Option ClientRealtimeEvent)
    {first session : RealtimeSession V A} {said : List (Option UInt8)} {heard : List ServerRealtimeEvent}
    (before : hearing vad asr sampleRate said first = .ok heard session) (frames : List Incoming)
    (waits : Waits sampleRate session) :
    ∃ events last, answers vad asr sampleRate decode parse frames session = .ok events last ∧
      Interleaved decode parse (heardOf vad asr sampleRate first) said frames events := by
  induction frames generalizing session said heard with
  | nil => exact ⟨[],session,rfl,.nil⟩
  | cons frame frames ih =>
    rcases @frameHeard _ _ vad asr _ rate word decode parse frame _ waits with
      ⟨answer,refuses,answered⟩ | ⟨takes,told,next,answered,hears,again⟩
    · obtain ⟨events,last,rest,mixed⟩ := ih before waits
      exact ⟨_,last,(bindThen answered).trans (bindThen rest),.refused refuses mixed⟩
    · have both := hearingAppend before hears
      obtain ⟨events,last,rest,mixed⟩ := ih both again
      exact ⟨_,last,(bindThen answered).trans (bindThen rest),
        .answered takes (by rw [heardIs both,heardIs before]) mixed⟩

end Session

/-- What a client is told depends on the audio and the finishes it sends, not on the messages that carry them, and
comes as they are said: more that is said later changes nothing of it. Every message that is refused is answered
that where it stands, behind all that is heard of the word before it, and has no other effect. Every finish is
answered once. A client that takes the first events only is told the beginning. -/
theorem socketHears (vad : StreamingModel V) (asr : StreamingModel A) {sampleRate : Nat} (rate : 10 ≤ sampleRate)
    (word : sampleRate < 2^32) (pipeline : RealtimePipeline V A) :
    ∃ heard : List (Option UInt8) → List ServerRealtimeEvent,
      heard [] = [] ∧ (∀ said more, heard said <+: heard (said ++ more)) ∧
      (∀ said, (heard said).count .sessionFinished = said.count none) ∧
      ∀ (decode : String → Except String (List UInt8)) (parse : String → Option ClientRealtimeEvent) (sessionId : String)
        (frames : List Incoming), ∃ events, Interleaved decode parse heard [] (reached frames) events ∧
          (heard (spoken decode parse frames)).Sublist events ∧
          events.count .sessionFinished = (spoken decode parse frames).count none ∧
          ∀ k : Nat, handleRealtime vad asr sampleRate decode parse (fun n => decide (n < k))
            (.ok ⟨newStream,pipeline⟩) sessionId frames =
              .ok ((.sessionCreated sessionId::events.map SocketEvent.said).take k) := by
  let session : RealtimeSession V A := ⟨newStream,pipeline⟩
  have waits : Waits sampleRate session := sessionFrames rate word
  have ends (said : List (Option UInt8)) : (heardOf vad asr sampleRate session said).count .sessionFinished = said.count none := by
    obtain ⟨heard,_,ran,_,counted⟩ := @hearingRuns _ _ vad asr _ rate word said session waits
    rw [heardIs ran]
    exact counted
  refine ⟨heardOf vad asr sampleRate session,rfl,?_,ends,?_⟩
  · intro said more
    obtain ⟨heard,middle,first,open_,_⟩ := @hearingRuns _ _ vad asr _ rate word said session waits
    obtain ⟨later,last,second,_⟩ := @hearingRuns _ _ vad asr _ rate word more middle open_
    rw [heardIs first,heardIs (hearingAppend first second)]
    exact List.prefix_append _ _
  · intro decode parse sessionId frames
    have silent : hearing vad asr sampleRate [] session = .ok [] session := rfl
    obtain ⟨events,last,answered,mixed⟩ := answersHear rate word decode parse silent (reached frames) waits
    obtain ⟨told,all,inside,counted⟩ := mixedHeard mixed
    have whole : heardOf vad asr sampleRate session (spoken decode parse frames) = told := all
    refine ⟨events,mixed,by rwa [whole],by rw [counted,← whole,ends],fun k => ?_⟩
    obtain ⟨wire,created,delivered⟩ := @sendDelivers _ _ k [] (.sessionCreated sessionId) ⟨session,0,[]⟩ ⟨rfl,(List.take_nil).symm⟩
    obtain ⟨final,ran,taken⟩ := @runDelivers _ _ _ _ _ _ _ k frames _ ⟨session,wire⟩ delivered _ _ answered
    have served : runSocket vad asr sampleRate decode parse (fun n => decide (n < k)) sessionId frames ⟨session,0,[]⟩ =
        .ok () final := (bindThen created).trans ran
    unfold handleRealtime
    dsimp only
    rw [served]
    exact congrArg Except.ok taken

def speakingVad : StreamingModel Unit where
  pushChunk chunk := pure [⟨chunk.range,.partialResult,.system,none,.speech⟩]
  finish := pure []

def textEvent : String → Option ClientRealtimeEvent
  | "append" => some (.audioAppend "AQAC")
  | "finish" => some .sessionFinish
  | _ => none

theorem socketHearsSpeech :
    let frames : List Incoming := [.text "append",.text "bad",.other,.text "finish",.close,.text "append"]
    ∃ heard events, heard [] = [] ∧ Interleaved (fun _ => .ok [1,0,2]) textEvent heard [] (reached frames) events ∧
      (SocketEvent.sessionCreated "sess_1"::events.map SocketEvent.said).take 9 =
        [.sessionCreated "sess_1",.said (.speechStarted 0),.said invalidEvent,.said .sessionFinished] := by
  intro frames
  obtain ⟨heard,silent,_,_,same⟩ := socketHears speakingVad quietAsr (le_refl 10) (by decide) ⟨(),()⟩
  obtain ⟨events,mixed,_,_,taken⟩ := same (fun _ => .ok [1,0,2]) textEvent "sess_1" frames
  refine ⟨heard,events,silent,mixed,Except.ok.inj ((taken 9).symm.trans ?_)⟩
  decide +kernel

end Heard

end Qwen3Asr.RealtimeSocket
