import Qwen3Asr.PipelineLine

/-! The stages of a transcription come to an end: as long as a call is not complete some step is possible, and every
step takes a bit of a bounded amount of work. -/
namespace Qwen3Asr.PipelineProgress
open Library.Lanes Library.Machine
open MediaData Pipeline TranscribeServer InputDedup TranscribeBatch SegmentLedger RecognitionLine TranscribePipeline PipelineLine

section Ended
variable {Options : Type} {p : AsyncTranscribePipeline Options} {capacity : Nat} {s t : State} {action : Action Options}

def Ended (s : State) : Prop := s.asrWorker = .done → s.pending = [] ∧ s.asrQueue = [] ∧ asrClosed s = true

theorem closedParts (closed : asrClosed s = true) : s.inputs = [] ∧ s.loading = [] ∧ s.joined = none ∧ s.loaded = [] ∧
    s.vadWorker = .receiving ∧ s.vadTasks = [] := by
  unfold asrClosed at closed
  split at closed
  · next worker => simpa [loadedClosed,worker,and_assoc] using closed
  · cases closed

theorem closedGroups (closed : asrClosed s = true) : (groups p s).flatten = [] := by
  obtain ⟨inputs,loading,joined,loaded,worker,tasks⟩ := closedParts closed
  simp [groups,laterGroups,inputs,loading,joined,loaded,worker,tasks,vadGroup]

def Built (worker : AsrWorker) : Prop := worker ≠ .done ∧ ∀ outcomes jobs, worker = .sending outcomes jobs → outcomes ≠ []

theorem sendThenBuilt (outcomes : List TranscribeItemOutcome) (jobs : List AsrJob) : Built (sendThen outcomes jobs) := by
  cases outcomes <;> cases jobs <;> simp [Built,sendThen]

theorem jobsBuilt (messages : List Message) : Built (collectJobMicrobatch p messages) := by
  unfold collectJobMicrobatch
  split
  · simp [Built]
  · exact sendThenBuilt _ _

theorem segmentsBuilt (segments : List AsrSegmentJob) (waiting : Bool) : Built (collectSegmentMicrobatch p segments waiting) := by
  unfold collectSegmentMicrobatch
  split <;> simp [Built]

theorem acceptBuilt (s : State) (message : Message) : Built (accept p s message).asrWorker := by
  match message with
  | .error outcome => simp [Built,accept]
  | .ok (.job job) => exact jobsBuilt _
  | .ok (.segment segment) => exact segmentsBuilt _ _

theorem stepWorker (ready : Ready p s) (ran : step p capacity s action = some t) : t.asrWorker = s.asrWorker ∨ Built t.asrWorker ∨
    s.pending = [] ∧ s.asrQueue = [] ∧ asrClosed s = true ∧ t = {s with asrWorker := .done} := by
  have before : Upstream p s t → t.asrWorker = s.asrWorker := fun upstream => upstream.worker
  cases action with
  | spawnLoaderTask => exact .inl (before (spawnUpstream ready.apart ran))
  | joinLoaderTask n => exact .inl (before (joinUpstream ready.apart ran))
  | sendLoaded => exact .inl (before (sendLoadedUpstream ready.apart ran))
  | receiveLoaded => exact .inl (before (receiveUpstream ready.apart ran))
  | forwardOutcome => exact .inl (before (forwardUpstream ready.apart ran))
  | prepareVad n => exact .inl (before (prepareUpstream ready.apart ran))
  | sendMessage n => exact .inl (before (sendUpstream ready.apart ran))
  | joinVadTask n => exact .inl (before (joinVadUpstream ready.apart ran))
  | recvAsrMessage =>
    simp only [step,recvAsrMessage] at ran
    split at ran <;> cases ran
    · exact .inr (.inl (acceptBuilt _ _))
    · exact .inr (.inl (acceptBuilt _ _))
  | takeMessage =>
    simp only [step,takeMessage] at ran
    split at ran <;> cases ran
    · exact .inl rfl
    · exact .inr (.inl (jobsBuilt _))
    · exact .inr (.inl (segmentsBuilt _ _))
    · exact .inl rfl
  | awaitSegments =>
    simp only [step,awaitSegments] at ran
    split at ran
    · split_ifs at ran
      cases ran
      exact .inr (.inl (by simp [Built]))
    · cases ran
  | stopCollecting =>
    simp only [step,stopCollecting] at ran
    split at ran
    · split_ifs at ran
      cases ran
      exact .inr (.inl (sendThenBuilt _ _))
    · split_ifs at ran
      cases ran
      exact .inr (.inl (by simp [Built]))
    · cases ran
  | runBatch asr =>
    simp only [step,runBatch] at ran
    split at ran <;> cases ran
    · exact .inr (.inl (sendThenBuilt _ _))
    · exact .inr (.inl (sendThenBuilt _ _))
  | sendResult =>
    simp only [step,sendResult] at ran
    split at ran
    · split_ifs at ran
      cases ran
      exact .inr (.inl (sendThenBuilt _ _))
    · cases ran
  | finishAsr =>
    simp only [step,finishAsr] at ran
    split at ran
    · next _ none_ queue =>
      split_ifs at ran with closed
      cases ran
      exact .inr (.inr ⟨none_,queue,closed,rfl⟩)
    · cases ran
  | recvResult =>
    simp only [step,recvResult] at ran
    split at ran <;> cases ran
    exact .inl rfl

theorem endedStep (done : s.asrWorker = .done) (ended : Ended s) (ran : step p capacity s action = some t) :
    ∃ outcome results, s.results = outcome::results ∧ t = {s with results, outcomes := s.outcomes ++ [outcome]} := by
  obtain ⟨none_,queue,closed⟩ := ended done
  obtain ⟨inputs,loading,joined,loaded,worker,tasks⟩ := closedParts closed
  cases action with
  | recvResult =>
    simp only [step,recvResult] at ran
    split at ran
    · next outcome results held =>
      cases ran
      exact ⟨outcome,results,held,rfl⟩
    · cases ran
  | _ =>
    simp [step,spawnLoaderTask,joinLoaderTask,TranscribePipeline.sendLoaded,receiveLoaded,forwardOutcome,prepareVad,sendMessage,
      joinVadTask,recvAsrMessage,takeMessage,awaitSegments,stopCollecting,runBatch,sendResult,finishAsr,
      inputs,loading,joined,loaded,worker,tasks,done] at ran

theorem stepEnded (ready : Ready p s) (ended : Ended s) (ran : step p capacity s action = some t) : Ended t := by
  intro done
  rcases stepWorker ready ran with same | built | ⟨none_,queue,closed,rfl⟩
  · have before : s.asrWorker = .done := same.symm.trans done
    obtain ⟨_,_,_,rfl⟩ := endedStep before ended ran
    exact ended before
  · exact absurd done built.1
  · exact ⟨none_,queue,closed⟩

theorem endedWaiting (done : s.asrWorker = .done) (ended : Ended s) : (lineOf p s).waiting = [] := by
  obtain ⟨none_,queue,closed⟩ := ended done
  simp [lineOf,upstream,done,none_,queue,closedGroups closed,workerWaiting]

end Ended

section Sound
variable {Options : Type} {p : AsyncTranscribePipeline Options} {capacity : Nat} {s t : State} {action : Action Options}

theorem acceptTasks (s : State) (message : Message) :
    (accept p s message).vadWorker = s.vadWorker ∧ (accept p s message).vadTasks = s.vadTasks := by
  match message with
  | .error outcome => exact ⟨rfl,rfl⟩
  | .ok (.job job) => exact ⟨rfl,rfl⟩
  | .ok (.segment segment) => exact ⟨rfl,rfl⟩

theorem stepTasks (ran : step p capacity s action = some t) :
    t.vadWorker = s.vadWorker ∧ t.vadTasks.length = s.vadTasks.length ∨ t.vadWorker ≠ .joining ∨ t.vadTasks ≠ [] := by
  cases action with
  | receiveLoaded =>
    simp only [step,receiveLoaded] at ran
    split at ran <;> cases ran
    · exact .inr (.inr (by simp))
    · exact .inr (.inl VadWorker.noConfusion)
  | forwardOutcome =>
    simp only [step,forwardOutcome] at ran
    split at ran
    · split_ifs at ran
      cases ran
      exact .inr (.inl VadWorker.noConfusion)
    · cases ran
  | prepareVad n =>
    simp only [step,prepareVad] at ran
    split at ran <;> cases ran
    exact .inl ⟨rfl,List.length_set⟩
  | sendMessage n =>
    simp only [step,sendMessage] at ran
    split at ran
    · split_ifs at ran
      cases ran
      exact .inl ⟨rfl,List.length_set⟩
    · cases ran
  | joinVadTask n =>
    simp only [step,joinVadTask] at ran
    split at ran
    · cases ran
      exact .inr (.inl VadWorker.noConfusion)
    · next worker =>
      split_ifs at ran
      cases ran
      refine .inr (.inl ?_)
      simp [worker]
    · cases ran
  | recvAsrMessage =>
    simp only [step,recvAsrMessage] at ran
    split at ran <;> cases ran
    · exact .inl ((acceptTasks _ _).imp_right (congrArg List.length))
    · exact .inl ((acceptTasks _ _).imp_right (congrArg List.length))
  | takeMessage =>
    simp only [step,takeMessage] at ran
    split at ran <;> cases ran <;> exact .inl ⟨rfl,rfl⟩
  | runBatch asr =>
    simp only [step,runBatch] at ran
    split at ran <;> cases ran <;> exact .inl ⟨rfl,rfl⟩
  | recvResult =>
    simp only [step,recvResult] at ran
    split at ran <;> cases ran
    exact .inl ⟨rfl,rfl⟩
  | _ =>
    simp only [step,spawnLoaderTask,joinLoaderTask,TranscribePipeline.sendLoaded,awaitSegments,stopCollecting,sendResult,finishAsr] at ran
    split at ran <;> try cases ran
    all_goals
      split_ifs at ran
      cases ran
      exact .inl ⟨rfl,rfl⟩

structure Sound (p : AsyncTranscribePipeline Options) (s : State) : Prop where
  ready : Ready p s
  ended : Ended s
  sends : ∀ outcomes jobs, s.asrWorker = .sending outcomes jobs → outcomes ≠ []
  joins : s.vadWorker = .joining → s.vadTasks ≠ []

theorem stepSound (sound : Sound p s) (ran : step p capacity s action = some t) : Sound p t where
  ready := stepReady sound.ready ran
  ended := stepEnded sound.ready sound.ended ran
  sends outcomes jobs sending := by
    rcases stepWorker sound.ready ran with same | built | ⟨_,_,_,rfl⟩
    · exact sound.sends outcomes jobs (same.symm.trans sending)
    · exact built.2 outcomes jobs sending
    · cases sending
  joins joining := by
    rcases stepTasks ran with ⟨worker,length⟩ | other | some_
    · have before := List.length_pos_of_ne_nil (sound.joins (worker.symm.trans joining))
      exact List.ne_nil_of_length_pos (by omega)
    · exact absurd joining other
    · exact some_

end Sound

section Progress
variable {Options : Type} {p : AsyncTranscribePipeline Options} {capacity : Nat} {s : State}

def Moves (p : AsyncTranscribePipeline Options) (capacity : Nat) (s : State) : Prop :=
  ∃ action t, step p capacity s action = some t

theorem movesBy (action : Action Options) {t : State} (ran : step p capacity s action = some t) : Moves p capacity s :=
  ⟨action,t,ran⟩

theorem tasksMove (room : s.asrQueue = []) : Moves p capacity s ∨ ∀ task ∈ s.vadTasks, task = .sending [] := by
  by_cases all : ∀ task ∈ s.vadTasks, task = .sending []
  · exact .inr all
  · push Not at all
    obtain ⟨task,inside,busy⟩ := all
    obtain ⟨n,found⟩ := List.mem_iff_getElem?.mp inside
    have free : s.asrQueue.length < p.stageBuffer := by
      rw [room]
      exact p.positive
    match task with
    | .detecting job => exact .inl (movesBy (.prepareVad n) (by simp only [step,prepareVad,found]; rfl))
    | .sending [] => exact absurd rfl busy
    | .sending (message::messages) =>
      exact .inl (movesBy (.sendMessage n) (by simp only [step,sendMessage,found,if_pos free]; rfl))

/- Some stage before the worker moves while the channel to it is empty and still open. -/
theorem upstreamMoves (sound : Sound p s) (room : s.asrQueue = []) (open_ : asrClosed s = false) : Moves p capacity s := by
  have free : s.asrQueue.length < p.stageBuffer := by
    rw [room]
    exact p.positive
  rcases tasksMove room with moves | finished
  · exact moves
  have joinable : ∀ {n : Nat}, n < s.vadTasks.length → s.vadTasks[n]? = some (.sending []) := by
    intro n bound
    rw [List.getElem?_eq_getElem bound,finished _ (List.getElem_mem bound)]
  cases worker : s.vadWorker with
  | forwarding outcome =>
    exact movesBy .forwardOutcome (by simp only [step,forwardOutcome,worker,if_pos free]; rfl)
  | joining =>
    have some_ := joinable (List.length_pos_of_ne_nil (sound.joins worker))
    exact movesBy (.joinVadTask 0) (by simp only [step,joinVadTask,some_,worker]; rfl)
  | receiving =>
    cases loaded : s.loaded with
    | cons message rest =>
      cases message with
      | ok job => exact movesBy .receiveLoaded (by simp only [step,receiveLoaded,worker,loaded]; rfl)
      | error outcome => exact movesBy .receiveLoaded (by simp only [step,receiveLoaded,worker,loaded]; rfl)
    | nil =>
      cases joined : s.joined with
      | some message =>
        have space : s.loaded.length < p.stageBuffer := by
          rw [loaded]
          exact p.positive
        exact movesBy .sendLoaded (by simp only [step,TranscribePipeline.sendLoaded,joined,if_pos space]; rfl)
      | none =>
        cases loading : s.loading with
        | nil =>
          cases inputs : s.inputs with
          | nil =>
            -- Nothing is left to load, so only a finished task can keep the channel open.
            have closed : loadedClosed s = true := by simp [loadedClosed,inputs,loading,joined,loaded]
            have some_ : s.vadTasks ≠ [] := fun none_ => by simp [asrClosed,worker,closed,none_] at open_
            have first := joinable (List.length_pos_of_ne_nil some_)
            exact movesBy (.joinVadTask 0) (by simp only [step,joinVadTask,first,worker,if_pos closed]; rfl)
          | cons input rest =>
            have space : s.loading.length < p.stageBuffer := by
              rw [loading]
              exact p.positive
            exact movesBy .spawnLoaderTask (by simp only [step,spawnLoaderTask,joined,inputs,if_pos space]; rfl)
        | cons task rest =>
          have first : s.loading[0]? = some task := by rw [loading]; rfl
          by_cases full : s.inputs.isEmpty ∨ p.stageBuffer ≤ s.loading.length
          · exact movesBy (.joinLoaderTask 0) (by simp only [step,joinLoaderTask,joined,first,if_pos full]; rfl)
          · push Not at full
            obtain ⟨input,rest,inputs⟩ := List.exists_cons_of_ne_nil (mt List.isEmpty_iff.mpr full.1)
            exact movesBy .spawnLoaderTask (by simp only [step,spawnLoaderTask,joined,inputs,if_pos full.2]; rfl)

/-- As long as a call is not complete, some step is possible. -/
theorem neverStuck (sound : Sound p s) (some_ : 0 < capacity) : Complete s ∨ Moves p capacity s := by
  cases results : s.results with
  | cons outcome rest => exact .inr (movesBy .recvResult (by simp only [step,recvResult,results]; rfl))
  | nil =>
    have space : s.results.length < capacity := by
      rw [results]
      exact some_
    cases worker : s.asrWorker with
    | done => exact .inl (by simp only [Complete,worker,results])
    | sending outcomes jobs =>
      obtain ⟨outcome,rest,rfl⟩ := List.exists_cons_of_ne_nil (sound.sends outcomes jobs worker)
      exact .inr (movesBy .sendResult (by simp only [step,sendResult,worker,if_pos space]; rfl))
    | runningJobs jobs => exact .inr (movesBy (.runBatch p.offline.asr) (by simp only [step,runBatch,worker]; rfl))
    | runningSegments segments => exact .inr (movesBy (.runBatch p.offline.asr) (by simp only [step,runBatch,worker]; rfl))
    | receiving =>
      cases pending : s.pending with
      | cons message rest => exact .inr (movesBy .recvAsrMessage (by simp only [step,recvAsrMessage,worker,pending]; rfl))
      | nil =>
        cases queue : s.asrQueue with
        | cons message rest => exact .inr (movesBy .recvAsrMessage (by simp only [step,recvAsrMessage,worker,pending,queue]; rfl))
        | nil =>
          cases closed : asrClosed s with
          | true => exact .inr (movesBy .finishAsr (by simp only [step,finishAsr,worker,pending,queue,if_pos closed]; rfl))
          | false => exact .inr (upstreamMoves sound queue closed)
    | collectingJobs messages =>
      cases queue : s.asrQueue with
      | cons message rest =>
        refine .inr ⟨.takeMessage,?_⟩
        match message with
        | .error outcome => exact ⟨_,by simp only [step,takeMessage,worker,queue]; rfl⟩
        | .ok (.job job) => exact ⟨_,by simp only [step,takeMessage,worker,queue]; rfl⟩
        | .ok (.segment segment) => exact ⟨_,by simp only [step,takeMessage,worker,queue]; rfl⟩
      | nil =>
        cases closed : asrClosed s with
        | true => exact .inr (movesBy .stopCollecting (by simp only [step,stopCollecting,worker,queue,closed]; rfl))
        | false => exact .inr (upstreamMoves sound queue closed)
    | collectingSegments segments waiting =>
      cases queue : s.asrQueue with
      | cons message rest =>
        refine .inr ⟨.takeMessage,?_⟩
        match message with
        | .error outcome => exact ⟨_,by simp only [step,takeMessage,worker,queue]; rfl⟩
        | .ok (.job job) => exact ⟨_,by simp only [step,takeMessage,worker,queue]; rfl⟩
        | .ok (.segment segment) => exact ⟨_,by simp only [step,takeMessage,worker,queue]; rfl⟩
      | nil =>
        cases closed : asrClosed s with
        | true =>
          have last : waiting = true ∨ s.asrQueue.isEmpty = true ∧ asrClosed s = true := .inr ⟨by rw [queue]; rfl,closed⟩
          exact .inr (movesBy .stopCollecting (by simp only [step,stopCollecting,worker,if_pos last]; rfl))
        | false =>
          cases waiting with
          | true => exact .inr (movesBy .stopCollecting (by simp only [step,stopCollecting,worker]; rfl))
          | false => exact .inr (movesBy .awaitSegments (by simp only [step,awaitSegments,worker,queue,closed]; rfl))

end Progress

section Work
variable {Options : Type} (p : AsyncTranscribePipeline Options)

/- The steps a message, a task or a worker may still take, rounded up. -/
def taskWork : VadTask → Nat
  | .detecting job => 11*(vadMessages p job).length+2
  | .sending messages => 11*messages.length+1

def loadedWork : LoadedMessage → Nat
  | .ok job => 11*(vadMessages p job).length+3
  | .error _ => 12

def inputWork (input : TranscribeInput) : Nat := loadedWork p (loaderMessage p input)

def forwardWork : VadWorker → Nat
  | .forwarding _ => 11
  | _ => 0

def workerWork : AsrWorker → Nat
  | .receiving => 1
  | .collectingJobs messages => 3+5*messages.length
  | .collectingSegments segments waiting => 3+5*segments.length+(if waiting then 0 else 1)
  | .runningJobs jobs => 2+3*jobs.length
  | .runningSegments segments => 2+3*segments.length
  | .sending outcomes jobs => 2+2*outcomes.length+3*jobs.length
  | .done => 0

def work (s : State) : Nat :=
  (s.inputs.map fun input => inputWork p input+3).sum+(s.loading.map fun input => inputWork p input+2).sum+
  (s.joined.toList.map fun message => loadedWork p message+1).sum+(s.loaded.map (loadedWork p)).sum+
  forwardWork s.vadWorker+(s.vadTasks.map (taskWork p)).sum+10*s.asrQueue.length+9*s.pending.length+
  workerWork s.asrWorker+s.results.length

end Work

section Bound
variable {Options : Type} {p : AsyncTranscribePipeline Options} {capacity : Nat} {s t : State} {action : Action Options}

/- Results to send are less work than twice as many steps of running. -/
theorem sentWork {outcomes : List TranscribeItemOutcome} {n : Nat} (few : outcomes.length ≤ n) :
    workerWork (sendThen outcomes []) < 2+3*n := by
  cases outcomes with
  | nil =>
    simp only [sendThen,workerWork]
    omega
  | cons outcome outcomes =>
    simp only [List.length_cons] at few
    simp [sendThen,workerWork]
    omega

theorem sendThenWork (outcomes : List TranscribeItemOutcome) (jobs : List AsrJob) :
    workerWork (sendThen outcomes jobs) ≤ 2+2*outcomes.length+3*jobs.length := by
  cases outcomes <;> cases jobs <;> simp [sendThen,workerWork]

theorem collectedLength (messages : List Message) :
    2*(messageOutcomes messages).length+3*(messageJobs messages).length ≤ 3*messages.length := by
  induction messages with
  | nil => simp [messageOutcomes,messageJobs]
  | cons message messages ih =>
    have outcomes : messageOutcomes (message::messages) = messageOutcomes [message] ++ messageOutcomes messages :=
      outcomesAppend [message] messages
    have jobs : messageJobs (message::messages) = messageJobs [message] ++ messageJobs messages := jobsAppend [message] messages
    rw [outcomes,jobs]
    simp only [List.length_append,List.length_cons]
    have one : 2*(messageOutcomes [message]).length+3*(messageJobs [message]).length ≤ 3 := by
      cases message with
      | error outcome => simp [messageOutcomes,messageJobs]
      | ok work => cases work <;> simp [messageOutcomes,messageJobs]
    omega

theorem jobsWork (messages : List Message) : workerWork (collectJobMicrobatch p messages) ≤ 3+5*messages.length := by
  unfold collectJobMicrobatch collectedJobs
  split
  · exact le_refl _
  · have sent := sendThenWork (messageOutcomes messages) (messageJobs messages)
    have fewer := collectedLength messages
    omega

theorem segmentsWork (segments : List AsrSegmentJob) (waiting : Bool) : workerWork (collectSegmentMicrobatch p segments waiting) ≤
    3+5*segments.length+(if waiting then 0 else 1) := by
  unfold collectSegmentMicrobatch
  split
  · exact le_refl _
  · simp only [workerWork]
    omega

theorem acceptWork (s : State) (message : Message) : workerWork (accept p s message).asrWorker ≤ 9 := by
  match message with
  | .error outcome => simp [accept,workerWork]
  | .ok (.job job) => exact (jobsWork [.ok (.job job)]).trans (Nat.le_succ 8)
  | .ok (.segment segment) => exact segmentsWork [segment] false

theorem acceptRest (s : State) (message : Message) :
    work p (accept p s message) + workerWork s.asrWorker = work p s + workerWork (accept p s message).asrWorker := by
  match message with
  | .error outcome => simp only [accept,work]; omega
  | .ok (.job job) => simp only [accept,work]; omega
  | .ok (.segment segment) => simp only [accept,work]; omega

theorem acceptLess (s : State) (message : Message) (idle : s.asrWorker = .receiving) :
    work p (accept p s message) ≤ work p s+8 := by
  have rest := acceptRest (p := p) s message
  have worth := acceptWork (p := p) s message
  rw [idle] at rest
  change _+1 = _ at rest
  omega

theorem jobsCount (pipeline : OfflinePipeline Options) (asrOptions : Options) (jobs : List AsrJob) :
    (runAsrJobsBatch pipeline jobs asrOptions).length = jobs.length := by
  have perm := (@indicesPerm _ pipeline asrOptions jobs).length_eq
  simpa using perm

/-- Every step takes some of the work. -/
theorem stepWork (ran : step p capacity s action = some t) : work p t < work p s := by
  cases action with
  | spawnLoaderTask =>
    simp only [step,spawnLoaderTask] at ran
    split at ran
    · next input inputs joined some_ =>
      split_ifs at ran
      cases ran
      simp only [work,some_,List.map_append,List.map_cons,List.sum_append,List.sum_cons,List.map_nil,List.sum_nil]
      omega
    · cases ran
  | joinLoaderTask n =>
    simp only [step,joinLoaderTask] at ran
    split at ran
    · next input joined found =>
      split_ifs at ran
      cases ran
      obtain ⟨before,behind,split,erased,_⟩ := splitAt found
      simp only [work,joined,erased]
      rw [split]
      simp [inputWork]
      omega
    · cases ran
  | sendLoaded =>
    simp only [step,TranscribePipeline.sendLoaded] at ran
    split at ran
    · next message joined =>
      split_ifs at ran
      cases ran
      simp [work,joined]
      omega
    · cases ran
  | receiveLoaded =>
    simp only [step,receiveLoaded] at ran
    split at ran
    · next job loaded worker some_ =>
      cases ran
      have idle : ∀ (b : Prop) [Decidable b], forwardWork (if b then .joining else .receiving) = 0 := by
        intro b _
        split <;> rfl
      simp only [work,idle,some_]
      simp [taskWork,loadedWork]
      omega
    · next outcome loaded worker some_ =>
      cases ran
      simp [work,worker,some_,forwardWork,loadedWork]
      omega
    · cases ran
  | forwardOutcome =>
    simp only [step,forwardOutcome] at ran
    split at ran
    · next outcome worker =>
      split_ifs at ran
      cases ran
      simp [work,worker,forwardWork]
      omega
    · cases ran
  | prepareVad n =>
    simp only [step,prepareVad] at ran
    split at ran
    · next job found =>
      cases ran
      obtain ⟨before,behind,split,_,set_⟩ := splitAt found
      simp only [work,set_]
      rw [split]
      simp [taskWork]
    · cases ran
  | sendMessage n =>
    simp only [step,sendMessage] at ran
    split at ran
    · next message messages found =>
      split_ifs at ran
      cases ran
      obtain ⟨before,behind,split,_,set_⟩ := splitAt found
      simp only [work,set_]
      rw [split]
      simp [taskWork]
      omega
    · cases ran
  | joinVadTask n =>
    simp only [step,joinVadTask] at ran
    split at ran
    · next found worker =>
      cases ran
      obtain ⟨before,behind,split,erased,_⟩ := splitAt found
      simp only [work,erased,worker]
      rw [split]
      simp [taskWork,forwardWork]
    · next found worker =>
      split_ifs at ran
      cases ran
      obtain ⟨before,behind,split,erased,_⟩ := splitAt found
      simp only [work,erased,worker]
      rw [split]
      simp [taskWork]
    · cases ran
  | recvAsrMessage =>
    simp only [step,recvAsrMessage] at ran
    split at ran
    · next message pending worker some_ =>
      cases ran
      have less := acceptLess (p := p) {s with pending} message worker
      have before : work p s = work p {s with pending}+9 := by
        simp only [work,some_,List.length_cons]
        omega
      omega
    · next message asrQueue worker none_ some_ =>
      cases ran
      have less := acceptLess (p := p) {s with asrQueue} message worker
      have before : work p s = work p {s with asrQueue}+10 := by
        simp only [work,some_,List.length_cons]
        omega
      omega
    · cases ran
  | takeMessage =>
    simp only [step,takeMessage] at ran
    split at ran
    · next messages segment asrQueue worker queue =>
      cases ran
      simp [work,worker,queue]
      omega
    · next messages message asrQueue _ worker queue =>
      cases ran
      have worth := jobsWork (p := p) (messages ++ [message])
      simp [work,worker,queue,workerWork] at worth ⊢
      omega
    · next segments waiting segment asrQueue worker queue =>
      cases ran
      have worth := segmentsWork (p := p) (segments ++ [segment]) waiting
      simp [work,worker,queue,workerWork] at worth ⊢
      omega
    · next segments waiting message asrQueue _ worker queue =>
      cases ran
      simp [work,worker,queue]
      omega
    · cases ran
  | awaitSegments =>
    simp only [step,awaitSegments] at ran
    split at ran
    · next segments worker queue =>
      split_ifs at ran
      cases ran
      simp [work,worker,workerWork]
    · cases ran
  | stopCollecting =>
    simp only [step,stopCollecting] at ran
    split at ran
    · next messages worker =>
      split_ifs at ran
      cases ran
      have sent := sendThenWork (messageOutcomes messages) (messageJobs messages)
      have fewer := collectedLength messages
      have before : workerWork s.asrWorker = 3+5*messages.length := by rw [worker]; rfl
      simp only [work,collectedJobs]
      omega
    · next segments waiting worker =>
      split_ifs at ran
      cases ran
      simp only [work,worker,workerWork]
      omega
    · cases ran
  | runBatch asr =>
    simp only [step,runBatch] at ran
    split at ran
    · next jobs worker =>
      cases ran
      have few : (runAsrJobsBatch ⟨p.offline.vad,asr⟩ jobs p.asrOptions).length ≤ jobs.length := (jobsCount _ _ _).le
      have before : workerWork s.asrWorker = 2+3*jobs.length := by rw [worker]; rfl
      have sent := sentWork few
      simp only [work]
      omega
    · next segments worker =>
      rw [inferenceBatch] at ran
      have made : {s with
          segmentState := (recognizeSegments s.segmentState segments (segmentBatch p asr segments)).1,
          asrWorker := sendThen (recognizeSegments s.segmentState segments (segmentBatch p asr segments)).2 []} = t :=
        Option.some.inj ran
      subst made
      have few := @recognizedFew s.segmentState segments (segmentBatch p asr segments)
      have before : workerWork s.asrWorker = 2+3*segments.length := by rw [worker]; rfl
      have sent := sentWork few
      simp only [work]
      omega
    · cases ran
  | sendResult =>
    simp only [step,sendResult] at ran
    split at ran
    · next outcome outcomes jobs worker =>
      split_ifs at ran
      cases ran
      have sent := sendThenWork outcomes jobs
      simp [work,worker,workerWork] at sent ⊢
      omega
    · cases ran
  | finishAsr =>
    simp only [step,finishAsr] at ran
    split at ran
    · next worker none_ queue =>
      split_ifs at ran
      cases ran
      simp [work,worker,workerWork]
    · cases ran
  | recvResult =>
    simp only [step,recvResult] at ran
    split at ran
    · next outcome results some_ =>
      cases ran
      simp [work,some_]
    · cases ran

/-- A run is no longer than the work it starts with. -/
theorem runBounded {actions : List (Action Options)} (ran : run (step p capacity) s actions = some t) :
    actions.length ≤ work p s := by
  have all : ∀ action ∈ actions, (fun _ : Action Options => True) action := fun _ _ => trivial
  have bound := bounded (work p) (fun _ _ _ _ one => stepWork one) all ran
  omega

end Bound

end Qwen3Asr.PipelineProgress
