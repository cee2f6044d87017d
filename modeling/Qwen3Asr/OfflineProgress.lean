import Qwen3Asr.OfflineLine

/-! The stages of the offline pipeline come to an end: as long as a call is not complete some step is possible, and
every step takes a bit of a bounded amount of work. -/
namespace Qwen3Asr.OfflineProgress
open Library.Effect Library.Machine
open MediaData Pipeline SegmentLedger RecognitionLine OfflineBatch AsyncOffline OfflineLine
open TranscribeBatch hiding runSegmentAsrInference finishSegmentAsrBatch runAsrJobsBatch
open PipelineLine (jobMessage)
open PipelineOutcomes (preparedSpeech speechSegments speechCut speechFeed)

section Feeds
variable {Options : Type} {p : AsyncOfflinePipeline Options} {index : Nat} {waveform : Waveform}
  {messages : List AsrPipelineMessage} {waveforms : List (Nat × Waveform)}

inductive Prepared (p : AsyncOfflinePipeline Options) (index : Nat) (waveform : Waveform) : List AsrPipelineMessage → Prop where
  | whole {prepared : VadPreparation} (stage : prepareVadStage p.inner waveform p.vadOptions = .ok prepared)
      (direct : ¬ IsSpeech ⟨index,prepared,waveform⟩) : Prepared p index waveform [.job ⟨index,prepared,waveform⟩]
  | split {prepared : VadPrepared} (stage : prepareVadStage p.inner waveform p.vadOptions = .ok (.speech prepared))
      (feed : Feed index prepared.speechAnnotations (speechSegments index prepared)) :
      Prepared p index waveform ((speechSegments index prepared).map .segment)

theorem sentPrepared (sent : vadMessages p index waveform = .ok messages) : Prepared p index waveform messages := by
  obtain ⟨preparation,stage,made⟩ := exceptBind.mp sent
  cases preparation with
  | speech prepared =>
    obtain ⟨some_,same⟩ := preparedSpeech stage
    dsimp only at made
    rw [speechCut index waveform same] at made
    cases made
    exact .split stage (speechFeed some_ same)
  | disabled =>
    cases made
    exact .whole stage fun ⟨_,wrong⟩ => nomatch wrong
  | noSpeech =>
    cases made
    exact .whole stage fun ⟨_,wrong⟩ => nomatch wrong
  | fullSpeech speechAnnotations =>
    cases made
    exact .whole stage fun ⟨_,wrong⟩ => nomatch wrong

theorem sentInside {message : AsrPipelineMessage} (inside : message ∈ toSend p waveforms) :
    ∃ x ∈ waveforms, ∃ messages, Prepared p x.1 x.2 messages ∧ message ∈ messages := by
  induction waveforms with
  | nil => cases inside
  | cons x waveforms ih =>
    unfold toSend at inside
    split at inside
    · next messages sent =>
      rcases List.mem_append.mp inside with own_ | later
      · exact ⟨x,List.mem_cons_self,messages,sentPrepared sent,own_⟩
      · obtain ⟨y,there,found⟩ := ih later
        exact ⟨y,List.mem_cons_of_mem _ there,found⟩
    · cases inside

theorem sentDirect {job : AsrJob} (inside : .job job ∈ toSend p waveforms) : ¬ IsSpeech job := by
  obtain ⟨x,_,messages,prepared,held⟩ := sentInside inside
  cases prepared with
  | whole stage direct =>
    cases List.mem_singleton.mp held
    exact direct
  | split =>
    obtain ⟨_,_,wrong⟩ := List.mem_map.mp held
    cases wrong

end Feeds

section Sound
variable {Options : Type} {p : AsyncOfflinePipeline Options} {jobCount : Nat} {s t : State} {action : Action}

def Refused (p : AsyncOfflinePipeline Options) (waveforms : List (Nat × Waveform)) : Prop :=
  ∃ x ∈ waveforms, ∃ error, vadMessages p x.1 x.2 = .error error

def Fails (p : AsyncOfflinePipeline Options) : VadWorker → Prop
  | .preparing waveforms => Refused p waveforms
  | .sending _ waveforms => Refused p waveforms
  | .done result => ∃ error, result = .error error

def VadSends (worker : VadWorker) : Prop := ∀ messages waveforms, worker = .sending messages waveforms → messages ≠ []

def AsrSends (worker : AsrWorker) : Prop := ∀ results, worker = .sending results → results ≠ []

def Ended (s : State) : Prop := s.asrWorker = .done → s.pending = [] ∧ s.asrQueue = [] ∧ asrClosed s = true

theorem sendNextFails (messages : List AsrPipelineMessage) (waveforms : List (Nat × Waveform)) :
    Fails p (sendNext messages waveforms) ↔ Refused p waveforms := by cases messages <;> rfl

theorem sendNextSome (messages : List AsrPipelineMessage) (waveforms : List (Nat × Waveform)) :
    VadSends (sendNext messages waveforms) := by cases messages <;> simp [VadSends,sendNext]

theorem stepVad (ran : step p jobCount s action = some t) : t.vadWorker = s.vadWorker ∨
    VadSends t.vadWorker ∧ (Fails p t.vadWorker ↔ Fails p s.vadWorker) := by
  cases action with
  | prepareVad =>
    simp only [step,prepareVad] at ran
    split at ran
    · next index waveform waveforms worker =>
      split at ran
      · next messages sent =>
        cases ran
        refine .inr ⟨sendNextSome _ _,?_⟩
        rw [sendNextFails,worker]
        simp [Fails,Refused,sent]
      · next error refused =>
        cases ran
        refine .inr ⟨by simp [VadSends],?_⟩
        rw [worker]
        simp [Fails,Refused,refused]
    · cases ran
  | sendMessage =>
    simp only [step,sendMessage] at ran
    split at ran
    · next message messages waveforms worker =>
      split_ifs at ran
      cases ran
      refine .inr ⟨sendNextSome _ _,?_⟩
      rw [sendNextFails,worker]
      rfl
    · cases ran
  | finishVad =>
    simp only [step,finishVad] at ran
    split at ran
    · next worker =>
      cases ran
      refine .inr ⟨by simp [VadSends],?_⟩
      rw [worker]
      simp [Fails,Refused]
    · cases ran
  | runBatch =>
    simp only [step,runBatch] at ran
    split at ran <;> cases ran <;> exact .inl rfl
  | recvAsrMessage =>
    simp only [step,recvAsrMessage] at ran
    split at ran <;> cases ran <;> exact .inl rfl
  | takeMessage =>
    simp only [step,takeMessage] at ran
    split at ran <;> cases ran <;> exact .inl rfl
  | recvResult =>
    simp only [step,recvResult] at ran
    split at ran <;> cases ran
    exact .inl rfl
  | _ =>
    simp only [step,awaitMessage,stopCollecting,sendResult,finishAsr] at ran
    split at ran <;> try cases ran
    all_goals
      split_ifs at ran
      cases ran
      exact .inl rfl

def GoesOn (worker : AsrWorker) : Prop := worker ≠ .done ∧ AsrSends worker

theorem sendThenGoesOn (results : List StageResult) : GoesOn (sendThen results) := by
  cases results <;> simp [sendThen,GoesOn,AsrSends]

theorem jobsGoOn (jobs : List AsrJob) (waiting : Bool) : GoesOn (collectJobMicrobatch p jobs waiting) := by
  unfold collectJobMicrobatch
  split <;> simp [GoesOn,AsrSends]

theorem segmentsGoOn (segments : List AsrSegmentJob) (waiting : Bool) : GoesOn (collectSegmentMicrobatch p segments waiting) := by
  unfold collectSegmentMicrobatch
  split <;> simp [GoesOn,AsrSends]

theorem acceptGoesOn (message : AsrPipelineMessage) : GoesOn (accept p message) := by
  cases message with
  | job job => exact jobsGoOn _ _
  | segment segment => exact segmentsGoOn _ _

theorem stepAsr (ran : step p jobCount s action = some t) : t.asrWorker = s.asrWorker ∨ GoesOn t.asrWorker ∨
    s.pending = [] ∧ s.asrQueue = [] ∧ asrClosed s = true ∧ t = {s with asrWorker := .done} := by
  cases action with
  | prepareVad =>
    simp only [step,prepareVad] at ran
    split at ran
    · split at ran <;> cases ran <;> exact .inl rfl
    · cases ran
  | sendMessage =>
    simp only [step,sendMessage] at ran
    split at ran
    · split_ifs at ran
      cases ran
      exact .inl rfl
    · cases ran
  | finishVad =>
    simp only [step,finishVad] at ran
    split at ran <;> cases ran
    exact .inl rfl
  | recvAsrMessage =>
    simp only [step,recvAsrMessage] at ran
    split at ran <;> cases ran <;> exact .inr (.inl (acceptGoesOn _))
  | takeMessage =>
    simp only [step,takeMessage] at ran
    split at ran <;> cases ran
    · exact .inr (.inl (jobsGoOn _ _))
    · exact .inr (.inl (by dsimp only; split <;> simp [GoesOn,AsrSends]))
    · exact .inr (.inl (segmentsGoOn _ _))
    · exact .inr (.inl (by dsimp only; split <;> simp [GoesOn,AsrSends]))
  | awaitMessage =>
    simp only [step,awaitMessage] at ran
    split at ran <;> try cases ran
    all_goals
      split_ifs at ran
      cases ran
      exact .inr (.inl (by simp [GoesOn,AsrSends]))
  | stopCollecting =>
    simp only [step,stopCollecting] at ran
    split at ran <;> try cases ran
    all_goals
      split_ifs at ran
      cases ran
      exact .inr (.inl (by simp [GoesOn,AsrSends]))
  | runBatch =>
    simp only [step,runBatch] at ran
    split at ran <;> cases ran <;> exact .inr (.inl (sendThenGoesOn _))
  | sendResult =>
    simp only [step,sendResult] at ran
    split at ran
    · split_ifs at ran
      cases ran
      exact .inr (.inl (sendThenGoesOn _))
    · cases ran
  | finishAsr =>
    simp only [step,finishAsr] at ran
    split at ran
    · next _ none_ queue =>
      split_ifs at ran with closed
      cases ran
      exact .inr (.inr ⟨none_,queue,closed,rfl⟩)
    · cases ran
  | recvResult =>
    simp only [step,recvResult] at ran
    split at ran <;> cases ran
    exact .inl rfl

theorem closedDone (closed : asrClosed s = true) : ∃ result, s.vadWorker = .done result := by
  unfold asrClosed at closed
  split at closed
  · next result worker => exact ⟨result,worker⟩
  · cases closed

theorem endedStep (done : s.asrWorker = .done) (ended : Ended s) (ran : step p jobCount s action = some t) :
    t.pending = s.pending ∧ t.asrQueue = s.asrQueue ∧ t.vadWorker = s.vadWorker := by
  obtain ⟨none_,queue,closed⟩ := ended done
  obtain ⟨result,worker⟩ := closedDone closed
  cases action with
  | recvResult =>
    simp only [step,recvResult] at ran
    split at ran <;> cases ran
    exact ⟨rfl,rfl,rfl⟩
  | _ =>
    simp [step,prepareVad,sendMessage,finishVad,recvAsrMessage,takeMessage,awaitMessage,stopCollecting,runBatch,sendResult,
      finishAsr,worker,done] at ran

theorem stepEnded (ended : Ended s) (ran : step p jobCount s action = some t) : Ended t := by
  intro done
  rcases stepAsr ran with same | goes | ⟨none_,queue,closed,rfl⟩
  · have before := same.symm.trans done
    obtain ⟨pending,asrQueue,worker⟩ := endedStep before ended ran
    obtain ⟨none_,queue,closed⟩ := ended before
    exact ⟨pending.trans none_,asrQueue.trans queue,by rw [asrClosed,worker]; exact closed⟩
  · exact absurd done goes.1
  · exact ⟨none_,queue,closed⟩

structure Sound (p : AsyncOfflinePipeline Options) (waveforms : List Waveform) (s : State) : Prop where
  fewer : (lineOf p s).waiting.Subperm (lineOf p (started waveforms)).waiting
  ended : Ended s
  vadSends : VadSends s.vadWorker
  asrSends : AsrSends s.asrWorker
  fails : Fails p s.vadWorker ↔ Refused p (indexed waveforms)

theorem startedSound (waveforms : List Waveform) : Sound p waveforms (started waveforms) where
  fewer := .refl _
  ended done := by cases done
  vadSends _ _ wrong := by cases wrong
  asrSends _ wrong := by cases wrong
  fails := Iff.rfl

theorem servesAny {messages : List Message} (direct : ∀ job, jobMessage job ∈ messages → ¬ IsSpeech job) :
    Serves p (fun _ _ => True) (fun _ _ => True) messages := by
  refine ⟨fun jobs inside => ⟨(runAsrJobsBatch p.inner jobs p.asrOptions).map stageAnswer,?_,.refl _⟩,fun _ _ => trivial⟩
  have count := @jobsCount _ p.inner p.asrOptions jobs fun job there =>
    direct job (inside.subset (List.mem_map_of_mem there))
  rw [List.forall₂_iff_get]
  exact ⟨by simp [count],fun _ _ _ => trivial⟩

theorem waitingDirect {waveforms : List Waveform} (sound : Sound p waveforms s) :
    ∀ job, jobMessage job ∈ (lineOf p s).waiting → ¬ IsSpeech job := by
  intro job inside
  obtain ⟨message,there,same⟩ := List.mem_map.mp (sound.fewer.subset inside)
  cases Except.ok.inj same
  exact sentDirect (p := p) (by simpa [waiting,started] using there)

theorem stepSound {waveforms : List Waveform} (sound : Sound p waveforms s) (ran : step p jobCount s action = some t) :
    Sound p waveforms t where
  fewer := (turnFewer (fun _ _ ordered => ordered.1) (stepTurn (servesAny (waitingDirect sound)) ran)).trans sound.fewer
  ended := stepEnded sound.ended ran
  vadSends := by
    rcases stepVad ran with same | ⟨sends,_⟩
    · exact same ▸ sound.vadSends
    · exact sends
  asrSends := by
    rcases stepAsr ran with same | goes | ⟨_,_,_,rfl⟩
    · exact same ▸ sound.asrSends
    · exact goes.2
    · exact fun _ wrong => (by cases wrong)
  fails := by
    rcases stepVad ran with same | ⟨_,fails⟩
    · exact same ▸ sound.fails
    · exact fails.trans sound.fails

end Sound

section Progress
variable {Options : Type} {p : AsyncOfflinePipeline Options} {jobCount : Nat} {s : State} {waveforms : List Waveform}

def Moves (p : AsyncOfflinePipeline Options) (jobCount : Nat) (s : State) : Prop :=
  ∃ action t, step p jobCount s action = some t

theorem movesBy (action : Action) {t : State} (ran : step p jobCount s action = some t) : Moves p jobCount s := ⟨action,t,ran⟩

/- The voice activity worker moves while the channel is empty and still open. -/
theorem vadMoves (sends : VadSends s.vadWorker) (room : s.asrQueue = []) (open_ : asrClosed s = false) : Moves p jobCount s := by
  have free : s.asrQueue.length < buffer p := by
    rw [room]
    exact Nat.lt_of_lt_of_le Nat.zero_lt_one (Nat.le_max_right _ _)
  cases worker : s.vadWorker with
  | done result => simp [asrClosed,worker] at open_
  | preparing waveforms =>
    cases waveforms with
    | nil => exact movesBy .finishVad (by simp only [step,finishVad,worker]; rfl)
    | cons x waveforms =>
      refine ⟨.prepareVad,?_⟩
      simp only [step,prepareVad,worker]
      split <;> exact ⟨_,rfl⟩
  | sending messages waveforms =>
    obtain ⟨message,rest,rfl⟩ := List.exists_cons_of_ne_nil (sends messages waveforms worker)
    exact movesBy .sendMessage (by simp only [step,sendMessage,worker,if_pos free]; rfl)

theorem collectingMoves (sends : VadSends s.vadWorker) (collecting : (∃ jobs waiting, s.asrWorker = .collectingJobs jobs waiting) ∨
    ∃ segments waiting, s.asrWorker = .collectingSegments segments waiting) : Moves p jobCount s := by
  cases queue : s.asrQueue with
  | cons message rest =>
    refine ⟨.takeMessage,?_⟩
    obtain ⟨jobs,waiting,worker⟩ | ⟨segments,waiting,worker⟩ := collecting
    · cases message <;> exact ⟨_,by simp only [step,takeMessage,worker,queue]; rfl⟩
    · cases message <;> exact ⟨_,by simp only [step,takeMessage,worker,queue]; rfl⟩
  | nil =>
    cases closed : asrClosed s with
    | true =>
      obtain ⟨jobs,waiting,worker⟩ | ⟨segments,waiting,worker⟩ := collecting
      · exact movesBy .stopCollecting (by simp only [step,stopCollecting,worker,queue,closed]; rfl)
      · exact movesBy .stopCollecting (by simp only [step,stopCollecting,worker,queue,closed]; rfl)
    | false => exact vadMoves sends queue closed

/-- As long as a call is not complete, some step is possible. -/
theorem neverStuck (sound : Sound p waveforms s) (some_ : 0 < jobCount) : complete s = true ∨ Moves p jobCount s := by
  cases results : s.results with
  | cons result rest => exact .inr (movesBy .recvResult (by simp only [step,recvResult,results]; rfl))
  | nil =>
    have space : s.results.length < jobCount := by
      rw [results]
      exact some_
    cases worker : s.asrWorker with
    | done => exact .inl (by simp [complete,worker,results])
    | sending sending_ =>
      obtain ⟨result,rest,rfl⟩ := List.exists_cons_of_ne_nil (sound.asrSends sending_ worker)
      exact .inr (movesBy .sendResult (by simp only [step,sendResult,worker,if_pos space]; rfl))
    | runningJobs jobs => exact .inr (movesBy .runBatch (by simp only [step,runBatch,worker]; rfl))
    | runningSegments segments => exact .inr (movesBy .runBatch (by simp only [step,runBatch,worker]; rfl))
    | collectingJobs jobs waiting => exact .inr (collectingMoves sound.vadSends (.inl ⟨jobs,waiting,worker⟩))
    | collectingSegments segments waiting => exact .inr (collectingMoves sound.vadSends (.inr ⟨segments,waiting,worker⟩))
    | receiving =>
      cases pending : s.pending with
      | cons message rest => exact .inr (movesBy .recvAsrMessage (by simp only [step,recvAsrMessage,worker,pending]; rfl))
      | nil =>
        cases queue : s.asrQueue with
        | cons message rest => exact .inr (movesBy .recvAsrMessage (by simp only [step,recvAsrMessage,worker,pending,queue]; rfl))
        | nil =>
          cases closed : asrClosed s with
          | true => exact .inr (movesBy .finishAsr (by simp only [step,finishAsr,worker,pending,queue,if_pos closed]; rfl))
          | false => exact .inr (vadMoves sound.vadSends queue closed)

end Progress

section Work
variable {Options : Type} (p : AsyncOfflinePipeline Options)

/- The steps a waveform, a worker or a message may still take, rounded up. -/
def waveformWork (x : Nat × Waveform) : Nat := match vadMessages p x.1 x.2 with
  | .ok messages => 11*messages.length+1
  | .error _ => 1

def vadWork : VadWorker → Nat
  | .preparing waveforms => 1+(waveforms.map (waveformWork p)).sum
  | .sending messages waveforms => 1+11*messages.length+(waveforms.map (waveformWork p)).sum
  | .done _ => 0

def asrWork : AsrWorker → Nat
  | .receiving => 1
  | .collectingJobs jobs waiting => 3+5*jobs.length+(if waiting then 0 else 1)
  | .collectingSegments segments waiting => 3+5*segments.length+(if waiting then 0 else 1)
  | .runningJobs jobs => 2+3*jobs.length
  | .runningSegments segments => 2+3*segments.length
  | .sending results => 2+2*results.length
  | .done => 0

def work (s : State) : Nat :=
  vadWork p s.vadWorker+10*s.asrQueue.length+9*s.pending.length+asrWork s.asrWorker+s.results.length

end Work

section Bound
variable {Options : Type} {p : AsyncOfflinePipeline Options} {jobCount : Nat} {s t : State} {action : Action}
  {waveforms : List Waveform}

theorem sendNextWork (messages : List AsrPipelineMessage) (waveforms : List (Nat × Waveform)) :
    vadWork p (sendNext messages waveforms) = 1+11*messages.length+(waveforms.map (waveformWork p)).sum := by
  cases messages <;> simp [sendNext,vadWork]

theorem sendThenWork (results : List StageResult) : asrWork (sendThen results) ≤ 2+2*results.length := by
  cases results <;> simp [sendThen,asrWork]

/- Results to send are less work than twice as many steps of running. -/
theorem sentWork {results : List StageResult} {n : Nat} (few : results.length ≤ n) : asrWork (sendThen results) < 2+3*n := by
  cases results with
  | nil =>
    simp only [sendThen,asrWork]
    omega
  | cons result results =>
    simp only [List.length_cons] at few
    simp only [sendThen,asrWork,List.length_cons]
    omega

theorem jobsWork (jobs : List AsrJob) (waiting : Bool) :
    asrWork (collectJobMicrobatch p jobs waiting) ≤ 3+5*jobs.length+(if waiting then 0 else 1) := by
  unfold collectJobMicrobatch
  split
  · exact le_refl _
  · simp only [asrWork]
    omega

theorem segmentsWork (segments : List AsrSegmentJob) (waiting : Bool) :
    asrWork (collectSegmentMicrobatch p segments waiting) ≤ 3+5*segments.length+(if waiting then 0 else 1) := by
  unfold collectSegmentMicrobatch
  split
  · exact le_refl _
  · simp only [asrWork]
    omega

theorem acceptWork (message : AsrPipelineMessage) : asrWork (accept p message) ≤ 9 := by
  cases message with
  | job job => exact jobsWork [job] false
  | segment segment => exact segmentsWork [segment] false

/-- Every step takes some of the work. -/
theorem stepWork (sound : Sound p waveforms s) (ran : step p jobCount s action = some t) : work p t < work p s := by
  cases action with
  | prepareVad =>
    simp only [step,prepareVad] at ran
    split at ran
    · next index waveform waveforms worker =>
      have before : vadWork p s.vadWorker = 1+(waveformWork p (index,waveform)+(waveforms.map (waveformWork p)).sum) := by
        simp [worker,vadWork]
      split at ran
      · next messages sent =>
        cases ran
        have own_ : waveformWork p (index,waveform) = 11*messages.length+1 := by simp [waveformWork,sent]
        simp only [work,sendNextWork]
        omega
      · next error refused =>
        cases ran
        have after_ : vadWork p (.done (.error error)) = 0 := rfl
        simp only [work]
        omega
    · cases ran
  | sendMessage =>
    simp only [step,sendMessage] at ran
    split at ran
    · next message messages waveforms worker =>
      split_ifs at ran
      cases ran
      have before : vadWork p s.vadWorker = 1+11*(messages.length+1)+(waveforms.map (waveformWork p)).sum := by
        rw [worker]
        rfl
      simp only [work,sendNextWork,List.length_append,List.length_singleton]
      omega
    · cases ran
  | finishVad =>
    simp only [step,finishVad] at ran
    split at ran
    · next worker =>
      cases ran
      simp [work,worker,vadWork]
    · cases ran
  | recvAsrMessage =>
    simp only [step,recvAsrMessage] at ran
    split at ran
    · next message pending worker stashed =>
      cases ran
      have worth := acceptWork (p := p) message
      have before : asrWork s.asrWorker = 1 := by rw [worker]; rfl
      simp only [work,stashed,List.length_cons]
      omega
    · next message asrQueue worker none_ queue =>
      cases ran
      have worth := acceptWork (p := p) message
      have before : asrWork s.asrWorker = 1 := by rw [worker]; rfl
      simp only [work,queue,List.length_cons]
      omega
    · cases ran
  | takeMessage =>
    simp only [step,takeMessage] at ran
    split at ran
    · next jobs waiting job asrQueue worker queue =>
      cases ran
      have worth := jobsWork (p := p) (jobs ++ [job]) waiting
      have before : asrWork s.asrWorker = 3+5*jobs.length+(if waiting then 0 else 1) := by rw [worker]; rfl
      rw [List.length_append,List.length_singleton] at worth
      simp only [work,queue,List.length_cons]
      omega
    · next jobs waiting message asrQueue _ worker queue =>
      cases ran
      have before : asrWork s.asrWorker = 3+5*jobs.length+(if waiting then 0 else 1) := by rw [worker]; rfl
      have worth : asrWork (if waiting then .runningJobs jobs else .collectingJobs jobs true) ≤ 3+5*jobs.length := by
        cases waiting with
        | true =>
          simp only [asrWork,if_true]
          omega
        | false => exact le_refl _
      simp only [work,queue,List.length_cons]
      omega
    · next segments waiting segment asrQueue worker queue =>
      cases ran
      have worth := segmentsWork (p := p) (segments ++ [segment]) waiting
      have before : asrWork s.asrWorker = 3+5*segments.length+(if waiting then 0 else 1) := by rw [worker]; rfl
      rw [List.length_append,List.length_singleton] at worth
      simp only [work,queue,List.length_cons]
      omega
    · next segments waiting message asrQueue _ worker queue =>
      cases ran
      have before : asrWork s.asrWorker = 3+5*segments.length+(if waiting then 0 else 1) := by rw [worker]; rfl
      have worth : asrWork (if waiting then .runningSegments segments else .collectingSegments segments true) ≤ 3+5*segments.length := by
        cases waiting with
        | true =>
          simp only [asrWork,if_true]
          omega
        | false => exact le_refl _
      simp only [work,queue,List.length_cons]
      omega
    · cases ran
  | awaitMessage =>
    simp only [step,awaitMessage] at ran
    split at ran
    · next jobs worker queue =>
      split_ifs at ran
      cases ran
      simp [work,worker,asrWork]
    · next segments worker queue =>
      split_ifs at ran
      cases ran
      simp [work,worker,asrWork]
    · cases ran
  | stopCollecting =>
    simp only [step,stopCollecting] at ran
    split at ran
    · next jobs waiting worker queue =>
      split_ifs at ran
      cases ran
      simp only [work,worker,asrWork]
      omega
    · next segments waiting worker queue =>
      split_ifs at ran
      cases ran
      simp only [work,worker,asrWork]
      omega
    · cases ran
  | runBatch =>
    simp only [step,runBatch] at ran
    split at ran
    · next jobs worker =>
      cases ran
      have whole : ∀ job ∈ jobs, ¬ IsSpeech job := fun job inside => waitingDirect sound job (by
        simp only [lineOf,waiting,worker,runningJobsMessages,List.map_append,List.map_map]
        exact List.mem_append_left _ (List.mem_map_of_mem inside))
      have sent := sentWork (@jobsCount _ p.inner p.asrOptions jobs whole).le
      have before : asrWork s.asrWorker = 2+3*jobs.length := by rw [worker]; rfl
      simp only [work]
      omega
    · next segments worker =>
      cases ran
      obtain ⟨_,results⟩ := segmentsSame s.segmentState segments (runSegmentAsrInference p.inner segments p.asrOptions)
      have lengths := congrArg List.length results
      rw [List.length_map,List.length_map] at lengths
      have few := @recognizedFew s.segmentState segments (runSegmentAsrInference p.inner segments p.asrOptions)
      have sent := sentWork (lengths.trans_le few)
      have before : asrWork s.asrWorker = 2+3*segments.length := by rw [worker]; rfl
      simp only [work]
      omega
    · cases ran
  | sendResult =>
    simp only [step,sendResult] at ran
    split at ran
    · next result results worker =>
      split_ifs at ran
      cases ran
      have sent := sendThenWork results
      have before : asrWork s.asrWorker = 2+2*(results.length+1) := by rw [worker]; rfl
      simp only [work,List.length_append,List.length_singleton]
      omega
    · cases ran
  | finishAsr =>
    simp only [step,finishAsr] at ran
    split at ran
    · next worker none_ queue =>
      split_ifs at ran
      cases ran
      simp [work,worker,asrWork]
    · cases ran
  | recvResult =>
    simp only [step,recvResult] at ran
    split at ran
    · next result results held =>
      cases ran
      simp [work,held]
    · cases ran

/-- A run is no longer than the work it starts with. -/
theorem runBounded {actions : List Action} (sound : Sound p waveforms s) (ran : run (step p jobCount) s actions = some t) :
    actions.length ≤ work p s := by
  have all : ∀ action ∈ actions, (fun _ : Action => True) action := fun _ _ => trivial
  have bound := boundedWithin (work p) (fun _ _ _ kept one => stepSound kept one) (fun _ _ _ _ kept one => stepWork kept one)
    sound all ran
  omega

end Bound

end Qwen3Asr.OfflineProgress
