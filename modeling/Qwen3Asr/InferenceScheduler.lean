import Mathlib.Data.Finset.Max
import Mathlib.Data.Prod.Lex
import Qwen3Asr.Library.Machine

/-! Inference tasks wait in a heap for one worker. A submitter draws a number, pushes its task and notifies
the worker; between these steps other submitters and the worker go on. -/
namespace Qwen3Asr.InferenceScheduler
open Library.Machine

inductive InferencePriority where
  | realtime | transcribe
  deriving DecidableEq, Repr

def InferencePriority.value : InferencePriority → Nat
  | .realtime => 0
  | .transcribe => 10

/- The counter of the numbers wraps; the ticket tells tasks apart for the statements. A task returns or panics. -/
structure QueuedTask where
  priority : InferencePriority
  sequence : Nat
  ticket : Nat
  panics : Bool
  deriving DecidableEq, Repr

def QueuedTask.cmp (task other : QueuedTask) : Ordering :=
  (compare other.priority.value task.priority.value).then (compare other.sequence task.sequence)

inductive Worker where
  | ready
  | waiting
  | running (task : QueuedTask)
  | stopped
  deriving DecidableEq, Repr

inductive Event where
  | pushed (task : QueuedTask)
  | started (task : QueuedTask)
  deriving DecidableEq, Repr

structure SchedulerState where
  drawn : Nat
  /-- Tasks that have a number and are not in the queue yet. -/
  pushing : List QueuedTask
  queue : List QueuedTask
  /-- Submitters about to notify. -/
  notifying : Nat
  worker : Worker
  log : List Event
  deriving DecidableEq, Repr

inductive Action where
  | submit (priority : InferencePriority) (panics : Bool)
  | push (task : QueuedTask)
  | notify
  | wake
  | sleep
  | start (task : QueuedTask)
  | finish
  deriving DecidableEq, Repr

def initial : SchedulerState := ⟨0,[],[],0,.ready,[]⟩

/- The heap hands out a greatest task; between equal ones either. -/
def Greatest (queue : List QueuedTask) (task : QueuedTask) : Prop :=
  task ∈ queue ∧ ∀ other ∈ queue, other.cmp task ≠ .gt

instance (queue : List QueuedTask) (task : QueuedTask) : Decidable (Greatest queue task) := inferInstanceAs (Decidable (_ ∧ _))

def step (s : SchedulerState) : Action → Option SchedulerState
  | .submit priority panics =>
    some {s with drawn := s.drawn+1, pushing := s.pushing ++ [⟨priority,s.drawn%2^64,s.drawn,panics⟩]}
  | .push task =>
    if task ∈ s.pushing then
      some {s with
        pushing := s.pushing.erase task
        queue := task::s.queue
        notifying := s.notifying+1
        log := s.log ++ [.pushed task]}
    else none
  | .notify =>
    if 0 < s.notifying then
      some {s with notifying := s.notifying-1, worker := if s.worker = .waiting then .ready else s.worker}
    else none
  -- A wait may end without a notification.
  | .wake => if s.worker = .waiting then some {s with worker := .ready} else none
  | .sleep => if s.worker = .ready ∧ s.queue = [] then some {s with worker := .waiting} else none
  | .start task =>
    if s.worker = .ready ∧ Greatest s.queue task then
      some {s with queue := s.queue.erase task, worker := .running task, log := s.log ++ [.started task]}
    else none
  -- The worker does not survive a panic.
  | .finish => match s.worker with
    | .running task => some {s with worker := if task.panics then .stopped else .ready}
    | _ => none

def startedTask : Event → Option QueuedTask
  | .started task => some task
  | .pushed _ => none

def started (log : List Event) : List QueuedTask := log.filterMap startedTask

/- Whenever a task is started, no task in the queue was to go before it. -/
def InTurn (log : List Event) : Prop :=
  ∀ before task rest, log = before ++ .started task::rest → ∀ other, .pushed other ∈ before → .started other ∉ before →
    (task.priority = .transcribe → other.priority ≠ .realtime) ∧
    (other.priority = task.priority → task.sequence ≤ other.sequence)

section Order

theorem beforeIff {task other : QueuedTask} : other.cmp task = .gt ↔
    other.priority.value < task.priority.value ∨
      other.priority.value = task.priority.value ∧ other.sequence < task.sequence := by
  unfold QueuedTask.cmp
  rw [Ordering.then_eq_gt,Nat.compare_eq_gt,Nat.compare_eq_gt,Nat.compare_eq_eq,eq_comm (a := task.priority.value)]

theorem someGreatest {queue : List QueuedTask} (some_ : queue ≠ []) : ∃ task, Greatest queue task := by
  obtain ⟨task,inside,least⟩ := Finset.exists_min_image queue.toFinset
    (fun task => toLex (task.priority.value,task.sequence)) (List.toFinset_nonempty_iff queue |>.mpr some_)
  refine ⟨task,List.mem_toFinset.mp inside,fun other mem before => ?_⟩
  have le := least other (List.mem_toFinset.mpr mem)
  rw [Prod.Lex.toLex_le_toLex] at le
  rw [beforeIff] at before
  dsimp only at le
  omega

theorem greatestInTurn {queue : List QueuedTask} {task other : QueuedTask} (greatest : Greatest queue task) (mem : other ∈ queue) :
    (task.priority = .transcribe → other.priority ≠ .realtime) ∧
    (other.priority = task.priority → task.sequence ≤ other.sequence) := by
  have turn := greatest.2 other mem
  rw [Ne,beforeIff,not_or,not_and,not_lt,not_lt] at turn
  refine ⟨fun late soon => ?_,fun same => turn.2 (congrArg _ same)⟩
  rw [late,soon] at turn
  exact absurd turn.1 (by decide)

end Order

section Log
variable {log : List Event} {task : QueuedTask}

theorem inTurnSnoc {event : Event} (turn : InTurn log) (last : ∀ task, event = .started task →
      ∀ other, .pushed other ∈ log → .started other ∉ log →
        (task.priority = .transcribe → other.priority ≠ .realtime) ∧
        (other.priority = task.priority → task.sequence ≤ other.sequence)) : InTurn (log ++ [event]) := by
  intro before task rest cut
  rcases List.eq_nil_or_concat rest with rfl | ⟨rest,_,rfl⟩
  · obtain ⟨rfl,same⟩ := List.append_inj' cut rfl
    exact last task (List.head_eq_of_cons_eq same)
  · rw [List.concat_eq_append,← List.cons_append,← List.append_assoc] at cut
    exact turn before task rest (List.append_inj' cut rfl).1

theorem startedPush (log : List Event) (task : QueuedTask) : started (log ++ [.pushed task]) = started log := by
  unfold started
  rw [List.filterMap_append]
  exact List.append_nil _

theorem startedStart (log : List Event) (task : QueuedTask) : started (log ++ [.started task]) = started log ++ [task] := by
  unfold started
  rw [List.filterMap_append]
  rfl

end Log

section Invariant

/- Every task is pushed once and started at most once, in turn; and the worker is not left asleep. -/
structure Sound (s : SchedulerState) : Prop where
  conserved : ((s.pushing ++ s.queue ++ started s.log).map QueuedTask.ticket).Perm (List.range s.drawn)
  queued : ∀ task, .pushed task ∈ s.log → .started task ∉ s.log → task ∈ s.queue
  turn : InTurn s.log
  awake : s.worker = .waiting → s.queue ≠ [] → 0 < s.notifying
  running : ∀ task, s.worker = .running task → task ∈ started s.log
  stopped : s.worker = .stopped → ∃ task ∈ started s.log, task.panics = true

theorem soundInitial : Sound initial where
  conserved := .nil
  queued _ pushed := by cases pushed
  turn before task rest cut := by
    have length := congrArg List.length cut
    simp [initial] at length
  awake asleep := by cases asleep
  running _ busy := by cases busy
  stopped ending := by cases ending

variable {s t : SchedulerState}

theorem submitKeeps (sound : Sound s) {priority : InferencePriority} {panics : Bool}
    (did : step s (.submit priority panics) = some t) : Sound t := by
  cases did
  refine {sound with conserved := ?_}
  dsimp only
  rw [List.range_succ,List.append_assoc,List.append_assoc]
  refine ((List.perm_append_comm.append_left s.pushing).map _).trans ?_
  rw [← List.append_assoc,← List.append_assoc,List.map_append]
  exact sound.conserved.append_right _

theorem pushKeeps (sound : Sound s) {task : QueuedTask} (did : step s (.push task) = some t) : Sound t := by
  unfold step at did
  dsimp only at did
  split at did
  · next inside =>
    cases did
    refine ⟨?_,fun other pushed waits => ?_,?_,fun _ _ => Nat.succ_pos _,?_,?_⟩
    · dsimp only
      rw [startedPush]
      have moved : (s.pushing.erase task ++ task::s.queue).Perm (s.pushing ++ s.queue) :=
        List.perm_middle.trans ((List.perm_cons_erase inside).symm.append_right s.queue)
      exact ((moved.append_right _).map _).trans sound.conserved
    · rcases List.mem_append.mp pushed with earlier | now
      · exact List.mem_cons_of_mem _ (sound.queued other earlier fun gone => waits (List.mem_append_left _ gone))
      · cases List.mem_singleton.mp now
        exact List.mem_cons_self
    · exact inTurnSnoc sound.turn fun _ bad => (by cases bad)
    · dsimp only
      rw [startedPush]
      exact sound.running
    · dsimp only
      rw [startedPush]
      exact sound.stopped
  · cases did

theorem startKeeps (sound : Sound s) {task : QueuedTask} (did : step s (.start task) = some t) : Sound t := by
  unfold step at did
  dsimp only at did
  split at did
  · next able =>
    cases did
    obtain ⟨_,greatest⟩ := able
    refine ⟨?_,fun other pushed waits => ?_,?_,fun asleep => (by cases asleep),fun other busy => ?_,fun ending => (by cases ending)⟩
    · dsimp only
      rw [startedStart,List.append_assoc]
      have moved : (s.queue.erase task ++ (started s.log ++ [task])).Perm (s.queue ++ started s.log) :=
        (List.perm_append_singleton task _ |>.append_left _).trans
          (List.perm_middle.trans ((List.perm_cons_erase greatest.1).symm.append_right _))
      refine ((moved.append_left _).map _).trans ?_
      rw [← List.append_assoc]
      exact sound.conserved
    · have other_ : other ≠ task := fun same => waits (List.mem_append_right _ (by rw [same]; exact List.mem_singleton_self _))
      refine (List.mem_erase_of_ne other_).mpr (sound.queued other ?_ fun gone => waits (List.mem_append_left _ gone))
      rcases List.mem_append.mp pushed with earlier | now
      · exact earlier
      · cases List.mem_singleton.mp now
    · refine inTurnSnoc sound.turn fun task' same other pushed waits => ?_
      cases same
      exact greatestInTurn greatest (sound.queued other pushed waits)
    · cases busy
      dsimp only
      rw [startedStart]
      exact List.mem_append_right _ (List.mem_singleton_self _)
  · cases did

theorem notifyKeeps (sound : Sound s) (did : step s .notify = some t) : Sound t := by
  unfold step at did
  dsimp only at did
  split at did
  · cases did
    refine ⟨sound.conserved,sound.queued,sound.turn,fun asleep => ?_,fun task busy => ?_,fun ending => ?_⟩
    · dsimp only at asleep
      split at asleep
      · cases asleep
      · next awake => exact absurd asleep awake
    · dsimp only at busy
      split at busy
      · cases busy
      · exact sound.running task busy
    · dsimp only at ending
      split at ending
      · cases ending
      · exact sound.stopped ending
  · cases did

theorem wakeKeeps (sound : Sound s) (did : step s .wake = some t) : Sound t := by
  unfold step at did
  dsimp only at did
  split at did
  · cases did
    exact ⟨sound.conserved,sound.queued,sound.turn,fun asleep => (by cases asleep),fun _ busy => (by cases busy),
      fun ending => (by cases ending)⟩
  · cases did

theorem sleepKeeps (sound : Sound s) (did : step s .sleep = some t) : Sound t := by
  unfold step at did
  dsimp only at did
  split at did
  · next idle =>
    cases did
    exact ⟨sound.conserved,sound.queued,sound.turn,fun _ tasks => absurd idle.2 tasks,fun _ busy => (by cases busy),
      fun ending => (by cases ending)⟩
  · cases did

theorem finishKeeps (sound : Sound s) (did : step s .finish = some t) : Sound t := by
  unfold step at did
  dsimp only at did
  split at did
  · next task busy =>
    cases did
    refine ⟨sound.conserved,sound.queued,sound.turn,fun asleep => ?_,fun task' busy' => ?_,fun ending => ?_⟩
    · dsimp only at asleep
      split at asleep <;> cases asleep
    · dsimp only at busy'
      split at busy' <;> cases busy'
    · dsimp only at ending
      split at ending
      · next panics => exact ⟨task,sound.running task busy,panics⟩
      · cases ending
  · cases did

theorem stepKeeps (s : SchedulerState) (a : Action) (t : SchedulerState) (sound : Sound s) (did : step s a = some t) : Sound t := by
  cases a with
  | submit priority panics => exact submitKeeps sound did
  | push task => exact pushKeeps sound did
  | notify => exact notifyKeeps sound did
  | wake => exact wakeKeeps sound did
  | sleep => exact sleepKeeps sound did
  | start task => exact startKeeps sound did
  | finish => exact finishKeeps sound did

end Invariant

section Progress
variable {s t : SchedulerState}

/- The steps of submitters on their way, and of the worker; neither new submissions nor waits that end by themselves. -/
def Serving : Action → Prop
  | .submit _ _ => False
  | .wake => False
  | _ => True

def effort : Worker → Nat
  | .ready => 1
  | .running _ => 2
  | _ => 0

def remaining (s : SchedulerState) : Nat := 5*s.pushing.length+2*s.queue.length+2*s.notifying+effort s.worker

theorem effortNotified (worker : Worker) : effort (if worker = .waiting then .ready else worker) ≤ effort worker+1 := by
  split
  · exact Nat.le_add_left _ _
  · exact Nat.le_succ _

theorem effortFinished (panics : Bool) : effort (if panics then .stopped else .ready) ≤ 1 := by
  cases panics <;> decide

theorem servingLowers (s : SchedulerState) (a : Action) (t : SchedulerState) (serving : Serving a) (did : step s a = some t) :
    remaining t < remaining s := by
  cases a with
  | submit priority panics => cases serving
  | wake => cases serving
  | push task =>
    unfold step at did
    dsimp only at did
    split at did
    · next inside =>
      cases did
      have some_ := List.length_pos_of_mem inside
      simp only [remaining,List.length_erase_of_mem inside,List.length_cons]
      omega
    · cases did
  | notify =>
    unfold step at did
    dsimp only at did
    split at did
    · cases did
      have notified := effortNotified s.worker
      simp only [remaining]
      omega
    · cases did
  | sleep =>
    unfold step at did
    dsimp only at did
    split at did
    · next idle =>
      cases did
      simp only [remaining,idle.1,effort]
      omega
    · cases did
  | start task =>
    unfold step at did
    dsimp only at did
    split at did
    · next able =>
      cases did
      have some_ := List.length_pos_of_mem able.2.1
      simp only [remaining,able.1,effort,List.length_erase_of_mem able.2.1]
      omega
    · cases did
  | finish =>
    unfold step at did
    dsimp only at did
    split at did
    · next task busy =>
      cases did
      have finished := effortFinished task.panics
      simp only [remaining,busy]
      change _ < _+2
      omega
    · cases did

/- Where no step is left and no task panicked, every task was started. -/
theorem stuckServed (sound : Sound s) (stuck : Stuck step Serving s) (calm : ∀ task ∈ started s.log, task.panics = false) :
    ((started s.log).map QueuedTask.ticket).Perm (List.range s.drawn) := by
  have pushed : s.pushing = [] := by
    cases waits : s.pushing with
    | nil => rfl
    | cons task rest =>
      have inside : task ∈ s.pushing := by
        rw [waits]
        exact List.mem_cons_self
      have blocked := stuck (.push task) trivial
      simp [step,inside] at blocked
  have notified : s.notifying = 0 := by
    have blocked := stuck .notify trivial
    simpa [step] using blocked
  have emptied : s.queue = [] := by
    cases worker : s.worker with
    | ready =>
      by_contra tasks
      obtain ⟨task,greatest⟩ := someGreatest tasks
      have blocked := stuck (.start task) trivial
      simp [step,worker,greatest] at blocked
    | waiting =>
      by_contra tasks
      have coming := sound.awake worker tasks
      omega
    | running task =>
      have blocked := stuck .finish trivial
      simp [step,worker] at blocked
    | stopped =>
      obtain ⟨task,inside,panics⟩ := sound.stopped worker
      rw [calm task inside] at panics
      cases panics
  have all := sound.conserved
  rw [pushed,emptied] at all
  exact all

/-- However submissions and the worker interleave: no task starts twice, every start is in turn among the queued
tasks, and once no task is submitted any more, the steps come to an end unless the waiting worker wakes without a
notification; where they do and no task panicked, each task was started exactly once. -/
theorem tasksServed {actions : List Action} {s : SchedulerState} (ran : run step initial actions = some s) :
    ((started s.log).map QueuedTask.ticket).Subperm (List.range s.drawn) ∧ InTurn s.log ∧
    (∀ more t, (∀ a ∈ more, Serving a) → run step s more = some t → more.length ≤ remaining s) ∧
    (Stuck step Serving s → (∀ task ∈ started s.log, task.panics = false) →
      ((started s.log).map QueuedTask.ticket).Perm (List.range s.drawn)) := by
  have sound := invariant stepKeeps soundInitial ran
  refine ⟨?_,sound.turn,fun more t serving went => ?_,stuckServed sound⟩
  · have some_ : (started s.log).Sublist (s.pushing ++ s.queue ++ started s.log) := List.sublist_append_right _ _
    exact ((some_.map _).subperm).trans sound.conserved.subperm
  · exact (Nat.le_add_right _ _).trans (bounded remaining servingLowers serving went)

def overtaken : List Action :=
  let first := ⟨.transcribe,0,0,false⟩
  let second := ⟨.transcribe,1,1,false⟩
  [.submit .transcribe false,.submit .transcribe false,.push second,.start second,.finish,.push first,.start first,
    .finish,.notify,.notify,.sleep]

def servedState : SchedulerState :=
  let first := ⟨.transcribe,0,0,false⟩
  let second := ⟨.transcribe,1,1,false⟩
  ⟨2,[],[],0,.waiting,[.pushed second,.started second,.pushed first,.started first]⟩

theorem tasksServedOvertaken :
    ((started servedState.log).map QueuedTask.ticket).Subperm (List.range servedState.drawn) ∧ InTurn servedState.log ∧
    (∀ more t, (∀ a ∈ more, Serving a) → run step servedState more = some t → more.length ≤ remaining servedState) ∧
    (Stuck step Serving servedState → (∀ task ∈ started servedState.log, task.panics = false) →
      ((started servedState.log).map QueuedTask.ticket).Perm (List.range servedState.drawn)) :=
  tasksServed (show run step initial overtaken = some servedState from by decide)

/- A task of a later number starts first where it is pushed first; and a task behind one that panics is never
started, although no step is left. -/
theorem numbersOvertaken :
    ((run step initial overtaken).map fun s => (started s.log).map QueuedTask.sequence) = some [1,0] ∧
    ∃ actions s, run step initial actions = some s ∧ Stuck step Serving s ∧ (started s.log).map QueuedTask.ticket = [0] ∧
      s.drawn = 2 := by
  refine ⟨by decide,?_⟩
  let first : QueuedTask := ⟨.transcribe,0,0,true⟩
  let second : QueuedTask := ⟨.transcribe,1,1,false⟩
  refine ⟨[.submit .transcribe true,.submit .transcribe false,.push first,.push second,.notify,.notify,.start first,.finish],
    ⟨2,[],[second],0,.stopped,[.pushed first,.pushed second,.started first]⟩,by decide,fun a serving => ?_,by decide,rfl⟩
  cases a with
  | submit priority panics => cases serving
  | wake => cases serving
  | push task => simp [step]
  | notify => rfl
  | sleep => rfl
  | start task => rfl
  | finish => rfl

end Progress

end Qwen3Asr.InferenceScheduler
