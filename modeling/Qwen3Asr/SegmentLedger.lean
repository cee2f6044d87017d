import Qwen3Asr.Library.Lanes
import Qwen3Asr.TranscribeBatch

/-! The segments of one job in a row of batches. What a batch does to a job depends on the job's own segments:
the job is open while segments are recognized, finished with the last one, and begun anew after a failed batch. -/
namespace Qwen3Asr.SegmentLedger
open Library.Lanes MediaData Pipeline TranscribeServer TranscribeBatch

section Batches

abbrev Answer := Nat × Except String Timeline

def answerOf (outcome : TranscribeItemOutcome) : Answer := (outcome.index,outcome.result)

def resultsFor (i : Nat) (answers : List Answer) : List (Except String Timeline) := (lane Prod.fst i answers).map Prod.snd

def targetOf (segment : AsrSegmentJob) : Nat × Nat := (segment.jobIndex,segment.offset)

def recognizeSegments (state : SegmentAsrState) (segments : List AsrSegmentJob) (batch : Except String (List Timeline)) :
    SegmentAsrState × List TranscribeItemOutcome :=
  finishSegmentAsrBatch (prepareSegmentJobState state segments) segments (batch.map fun timelines => (segments.map targetOf,timelines))

def Failed (segments : List AsrSegmentJob) : Except String (List Timeline) → Bool
  | .ok timelines => timelines.length ≠ segments.length
  | .error _ => true

def failedJobs (segments : List AsrSegmentJob) (batch : Except String (List Timeline)) : List (List Nat) :=
  if Failed segments batch then [segments.map AsrSegmentJob.jobIndex] else []

abbrev own (i : Nat) (segments : List AsrSegmentJob) : List AsrSegmentJob := lane AsrSegmentJob.jobIndex i segments

end Batches

section Prepare
variable {state : SegmentAsrState} {segments : List AsrSegmentJob} {segment : AsrSegmentJob} {i : Nat}

def prepareEntry (entry : Option SegmentJobState) (segment : AsrSegmentJob) : SegmentJobState :=
  let entry := entry.getD
    ⟨segment.jobIndex,segment.speechAnnotations,newTimeline "offline_audio",segment.segmentCount,0⟩
  let speechAnnotations := if segment.speechAnnotations ≠ [] then segment.speechAnnotations else entry.speechAnnotations
  let annotations := if entry.timeline.annotations = [] then speechAnnotations else entry.timeline.annotations
  {entry with speechAnnotations, timeline := {entry.timeline with annotations}, segmentCount := segment.segmentCount}

def prepareOwn (entry : Option SegmentJobState) (segments : List AsrSegmentJob) : Option SegmentJobState :=
  segments.foldl (fun entry segment => some (prepareEntry entry segment)) entry

theorem prepareAt : prepareSegment state segment =
    Function.update state segment.jobIndex (some (prepareEntry (state segment.jobIndex) segment)) := rfl

theorem preparedOwn : prepareSegmentJobState state segments i = prepareOwn (state i) (own i segments) := by
  unfold prepareSegmentJobState prepareOwn
  induction segments generalizing state with
  | nil => rfl
  | cons segment segments ih =>
    rw [List.foldl_cons,ih,prepareAt,show own i (segment::segments) = _ from laneCons]
    by_cases same : segment.jobIndex = i
    · subst same
      simp
    · simp [same,Function.update_of_ne (Ne.symm same)]

def Keyed (state : SegmentAsrState) : Prop := ∀ i job, state i = some job → job.index = i

theorem keyedUpdate {entry : Option SegmentJobState} (keyed : Keyed state) (own : ∀ job, entry = some job → job.index = i) :
    Keyed (Function.update state i entry) := by
  intro j job found
  rw [Function.update_apply] at found
  split at found
  · next same => exact (own job found).trans same.symm
  · exact keyed j job found

theorem preparedKeyed (segments : List AsrSegmentJob) (keyed : Keyed state) : Keyed (prepareSegmentJobState state segments) := by
  unfold prepareSegmentJobState
  induction segments generalizing state with
  | nil => exact keyed
  | cons segment segments ih =>
    rw [List.foldl_cons,prepareAt]
    refine ih (keyedUpdate keyed fun job made => ?_)
    cases made
    cases before : state segment.jobIndex with
    | none => rfl
    | some job => exact keyed segment.jobIndex job before

def doneOf (entry : Option SegmentJobState) : Nat := (entry.map SegmentJobState.segmentsDone).getD 0

theorem preparedCounts (entry : Option SegmentJobState) {n : Nat} (some_ : segments ≠ [])
    (counts : ∀ segment ∈ segments, segment.segmentCount = n) :
    ∃ job, prepareOwn entry segments = some job ∧ job.segmentCount = n ∧ job.segmentsDone = doneOf entry := by
  induction segments generalizing entry with
  | nil => exact absurd rfl some_
  | cons segment segments ih =>
    obtain ⟨first,rest⟩ := List.forall_mem_cons.mp counts
    have done : (prepareEntry entry segment).segmentsDone = doneOf entry := by cases entry <;> rfl
    by_cases last : segments = []
    · subst last
      exact ⟨prepareEntry entry segment,rfl,first,done⟩
    · obtain ⟨job,prepared,count,same⟩ := ih (some (prepareEntry entry segment)) last rest
      exact ⟨job,prepared,count,same.trans done⟩

theorem preparedSome {entry : Option SegmentJobState} (some_ : segments ≠ []) : (prepareOwn entry segments).isSome := by
  induction segments generalizing entry with
  | nil => exact absurd rfl some_
  | cons segment segments ih =>
    by_cases last : segments = []
    · subst last
      rfl
    · exact ih last

end Prepare

section Finish
variable {state : SegmentAsrState} {items : List ((Nat × Nat) × Timeline)} {i : Nat}

abbrev target (item : (Nat × Nat) × Timeline) : Nat := item.1.1

def heardIn (items : List ((Nat × Nat) × Timeline)) : List Annotation :=
  items.flatMap fun item => offsetAnnotations item.2.annotations item.1.2

def advance (job : SegmentJobState) (item : (Nat × Nat) × Timeline) : SegmentJobState :=
  let annotations := job.timeline.annotations ++ offsetAnnotations item.2.annotations item.1.2
  {job with timeline := {job.timeline with annotations}, segmentsDone := job.segmentsDone+1}

def finishOne : Option SegmentJobState → (Nat × Nat) × Timeline → Option SegmentJobState × List (Except String Timeline)
  | none, _ => (none,[])
  | some job, item =>
    let job := advance job item
    if job.segmentCount ≤ job.segmentsDone then (none,[.ok job.timeline]) else (some job,[])

def finishOwn : Option SegmentJobState → List ((Nat × Nat) × Timeline) → Option SegmentJobState × List (Except String Timeline)
  | entry, [] => (entry,[])
  | entry, item::items =>
    let (entry,first) := finishOne entry item
    let (entry,later) := finishOwn entry items
    (entry,first ++ later)

theorem resultsCons {answer : Answer} {answers : List Answer} :
    resultsFor i (answer::answers) = (if answer.1 = i then [answer.2] else []) ++ resultsFor i answers := by
  unfold resultsFor
  rw [laneCons]
  by_cases same : answer.1 = i <;> simp [same]

@[simp] theorem resultsNil : resultsFor i [] = [] := rfl

@[simp] theorem resultsAppend {answers more : List Answer} :
    resultsFor i (answers ++ more) = resultsFor i answers ++ resultsFor i more := by simp [resultsFor]

theorem resultsOwn (j : Nat) (results : List (Except String Timeline)) :
    resultsFor i (results.map (Prod.mk j)) = if j = i then results else [] := by
  unfold resultsFor
  rw [laneMap,List.map_map]
  by_cases same : j = i
  · simp [lane,same]
  · simp [lane,same]

theorem finishAt (keyed : Keyed state) (jobIndex offset : Nat) (timeline : Timeline) :
    finishSegment state jobIndex offset timeline =
      (Function.update state jobIndex (finishOne (state jobIndex) ((jobIndex,offset),timeline)).1,
        (finishOne (state jobIndex) ((jobIndex,offset),timeline)).2.map fun result => ⟨jobIndex,result,none⟩) := by
  unfold finishSegment finishOne
  cases found : state jobIndex with
  | none =>
    have same : Function.update state jobIndex none = state := found ▸ Function.update_eq_self jobIndex state
    simp [same]
  | some job =>
    have index : job.index = jobIndex := keyed jobIndex job found
    simp only [advance,index]
    split_ifs <;> rfl

theorem finishedAt (keyed : Keyed state) (item : (Nat × Nat) × Timeline) :
    Keyed (finishSegment state item.1.1 item.1.2 item.2).1 ∧
    (finishSegment state item.1.1 item.1.2 item.2).1 i =
      (if target item = i then (finishOne (state i) item).1 else state i) ∧
    resultsFor i ((finishSegment state item.1.1 item.1.2 item.2).2.map answerOf) =
      if target item = i then (finishOne (state i) item).2 else [] := by
  rw [finishAt keyed]
  refine ⟨keyedUpdate keyed fun job left => ?_,?_,?_⟩
  · cases found : state item.1.1 with
    | none =>
      rw [found] at left
      cases left
    | some before =>
      rw [found] at left
      unfold finishOne at left
      dsimp only at left
      split_ifs at left
      cases left
      exact keyed item.1.1 before found
  · simp only [Function.update_apply,target,eq_comm (a := i)]
    split
    · next same =>
      subst same
      rfl
    · rfl
  · rw [List.map_map]
    refine (resultsOwn item.1.1 _).trans ?_
    simp only [target]
    split
    · next same =>
      subst same
      rfl
    · rfl

/-- What becomes of a job depends on its own entry and its own timelines. -/
theorem finishedOwn (keyed : Keyed state) : Keyed (finishSegments state items).1 ∧
    (finishSegments state items).1 i = (finishOwn (state i) (lane target i items)).1 ∧
    resultsFor i ((finishSegments state items).2.map answerOf) = (finishOwn (state i) (lane target i items)).2 := by
  induction items generalizing state with
  | nil => exact ⟨keyed,rfl,rfl⟩
  | cons item items ih =>
    obtain ⟨after_,entry,results⟩ := finishedAt (i := i) keyed item
    obtain ⟨later,entries,rest⟩ := ih after_
    rw [entry] at entries rest
    rw [laneCons]
    simp only [finishSegments,List.map_append,resultsAppend,later,entries,rest,results,true_and]
    by_cases same : target item = i
    · simp [same,finishOwn]
    · simp [same]

theorem finishedPart {job : SegmentJobState} (short : job.segmentsDone+items.length < job.segmentCount) :
    finishOwn (some job) items = (some (items.foldl advance job),[]) := by
  induction items generalizing job with
  | nil => rfl
  | cons item items ih =>
    rw [List.length_cons] at short
    have open_ : ¬ (advance job item).segmentCount ≤ (advance job item).segmentsDone := by
      change ¬ job.segmentCount ≤ job.segmentsDone+1
      omega
    have rest := @ih (advance job item) (by change job.segmentsDone+1+items.length < job.segmentCount; omega)
    simp [finishOwn,finishOne,open_,rest]

theorem finishedWhole {job : SegmentJobState} (some_ : items ≠ []) (whole : job.segmentsDone+items.length = job.segmentCount) :
    finishOwn (some job) items = (none,[.ok (items.foldl advance job).timeline]) := by
  induction items generalizing job with
  | nil => exact absurd rfl some_
  | cons item items ih =>
    rw [List.length_cons] at whole
    by_cases last : items = []
    · subst last
      have closed : (advance job item).segmentCount ≤ (advance job item).segmentsDone := by
        change job.segmentCount ≤ job.segmentsDone+1
        rw [← whole]
        simp
      simp [finishOwn,finishOne,closed]
    · have left := List.length_pos_of_ne_nil last
      have open_ : ¬ (advance job item).segmentCount ≤ (advance job item).segmentsDone := by
        change ¬ job.segmentCount ≤ job.segmentsDone+1
        omega
      have rest := @ih (advance job item) last (by change job.segmentsDone+1+items.length = job.segmentCount; omega)
      simp [finishOwn,finishOne,open_,rest]

theorem advancedAll (job : SegmentJobState) : items.foldl advance job = {job with
    timeline := {job.timeline with annotations := job.timeline.annotations ++ heardIn items},
    segmentsDone := job.segmentsDone+items.length} := by
  induction items generalizing job with
  | nil => simp [heardIn]
  | cons item items ih =>
    rw [List.foldl_cons,ih]
    simp [advance,heardIn,Nat.add_assoc,Nat.add_comm 1]

end Finish

section Fail
variable {state : SegmentAsrState} {affected : List Nat} {reason : String} {i : Nat}

theorem failedKeyed (keyed : Keyed state) : Keyed (failJobs reason state affected).1 := by
  induction affected generalizing state with
  | nil => exact keyed
  | cons j affected ih =>
    unfold failJobs
    split
    · exact ih keyed
    · exact ih (keyedUpdate keyed fun _ none_ => nomatch none_)

/-- A failed job is forgotten and handed out with the error. -/
theorem failedOwn (reason : String) (keyed : Keyed state) (once : affected.Nodup) :
    (failJobs reason state affected).1 i = (if i ∈ affected then none else state i) ∧
    resultsFor i ((failJobs reason state affected).2.map answerOf) =
      if i ∈ affected ∧ (state i).isSome then [.error reason] else [] := by
  induction affected generalizing state with
  | nil => exact ⟨rfl,rfl⟩
  | cons j affected ih =>
    obtain ⟨fresh,rest⟩ := List.nodup_cons.mp once
    unfold failJobs
    cases found : state j with
    | none =>
      obtain ⟨entry,results⟩ := ih keyed rest
      dsimp only
      rw [entry,results]
      by_cases same : i = j
      · subst same
        simp [fresh,found]
      · simp [same]
    | some job =>
      have index := keyed j job found
      obtain ⟨entry,results⟩ := ih (keyedUpdate keyed fun _ none_ => nomatch none_ : Keyed (Function.update state j none)) rest
      dsimp only
      rw [entry,List.map_cons,resultsCons,results]
      by_cases same : i = j
      · subst same
        simp [fresh,found,answerOf,outcomeFromResult,index]
      · simp [same,answerOf,outcomeFromResult,index,Ne.symm same]

end Fail

section Recognize
variable {state : SegmentAsrState} {segments : List AsrSegmentJob} {batch : Except String (List Timeline)} {i : Nat}

def itemsOf (segments : List AsrSegmentJob) (timelines : List Timeline) : List ((Nat × Nat) × Timeline) :=
  (segments.map targetOf).zip timelines

theorem itemsLength {timelines : List Timeline} (same : timelines.length = segments.length) :
    (lane target i (itemsOf segments timelines)).length = (own i segments).length := by
  have left : (itemsOf segments timelines).map Prod.fst = segments.map targetOf :=
    List.map_fst_zip (by simp [same])
  have lanes : (lane target i (itemsOf segments timelines)).map Prod.fst = (own i segments).map targetOf := by
    have whole := congrArg (lane Prod.fst i) left
    rwa [laneMap,laneMap] at whole
  simpa using congrArg List.length lanes

theorem recognizeOk {timelines : List Timeline} (same : timelines.length = segments.length) :
    recognizeSegments state segments (.ok timelines) =
      finishSegments (prepareSegmentJobState state segments) (itemsOf segments timelines) := by
  unfold recognizeSegments finishSegmentAsrBatch
  by_cases none_ : segments = []
  · subst none_
    rfl
  · simp [none_,same,Except.map,itemsOf]

theorem recognizeFailed (state : SegmentAsrState) (failed : Failed segments batch = true) : ∃ reason, recognizeSegments state segments batch =
    failJobs reason (prepareSegmentJobState state segments) (segments.map AsrSegmentJob.jobIndex).dedup := by
  unfold recognizeSegments finishSegmentAsrBatch
  by_cases none_ : segments = []
  · subst none_
    exact ⟨"",rfl⟩
  cases batch with
  | error error => exact ⟨error,by simp [none_,Except.map]⟩
  | ok timelines =>
    have other : timelines.length ≠ segments.length := of_decide_eq_true failed
    refine ⟨s!"ASR segment batch returned {timelines.length} timelines for {segments.length} segments",?_⟩
    simp [none_,Except.map,other]

theorem recognizedOk {timelines : List Timeline} (keyed : Keyed state) (same : timelines.length = segments.length) :
    Keyed (recognizeSegments state segments (.ok timelines)).1 ∧
    (recognizeSegments state segments (.ok timelines)).1 i =
      (finishOwn (prepareOwn (state i) (own i segments)) (lane target i (itemsOf segments timelines))).1 ∧
    resultsFor i ((recognizeSegments state segments (.ok timelines)).2.map answerOf) =
      (finishOwn (prepareOwn (state i) (own i segments)) (lane target i (itemsOf segments timelines))).2 := by
  rw [recognizeOk same,← preparedOwn]
  exact finishedOwn (preparedKeyed segments keyed)

theorem succeeded (ok : ¬ Failed segments batch = true) : ∃ timelines, batch = .ok timelines ∧ timelines.length = segments.length := by
  cases batch with
  | error error => exact absurd rfl ok
  | ok timelines => exact ⟨timelines,rfl,by simpa [Failed] using ok⟩

theorem finishedFew (items : List ((Nat × Nat) × Timeline)) : (finishSegments state items).2.length ≤ items.length := by
  induction items generalizing state with
  | nil => exact le_refl _
  | cons item items ih =>
    obtain ⟨⟨jobIndex,offset⟩,timeline⟩ := item
    have one : (finishSegment state jobIndex offset timeline).2.length ≤ 1 := by
      unfold finishSegment
      split
      · simp
      · dsimp only
        split_ifs <;> simp
    have rest := @ih (finishSegment state jobIndex offset timeline).1
    simp only [finishSegments,List.length_append,List.length_cons]
    omega

theorem failedFew (reason : String) (affected : List Nat) : (failJobs reason state affected).2.length ≤ affected.length := by
  induction affected generalizing state with
  | nil => exact le_refl _
  | cons j affected ih =>
    unfold failJobs
    split
    · exact ih.trans (Nat.le_succ _)
    · exact Nat.succ_le_succ ih

theorem recognizedFew : (recognizeSegments state segments batch).2.length ≤ segments.length := by
  by_cases failed : Failed segments batch = true
  · obtain ⟨reason,shown⟩ := recognizeFailed state failed
    rw [shown]
    refine (failedFew reason _).trans ((List.dedup_sublist _).length_le.trans ?_)
    rw [List.length_map]
  · obtain ⟨timelines,rfl,same⟩ := succeeded failed
    rw [recognizeOk same]
    refine (finishedFew _).trans ?_
    simp [itemsOf]

theorem ownNone : own i segments = [] ↔ i ∉ segments.map AsrSegmentJob.jobIndex := by
  simp [own,lane,List.filter_eq_nil_iff]

theorem recognizedFailed (keyed : Keyed state) (failed : Failed segments batch = true) :
    Keyed (recognizeSegments state segments batch).1 ∧
    (recognizeSegments state segments batch).1 i = (if own i segments = [] then state i else none) ∧
    ∃ reason, resultsFor i ((recognizeSegments state segments batch).2.map answerOf) =
      if own i segments = [] then [] else [.error reason] := by
  obtain ⟨reason,shown⟩ := recognizeFailed state failed
  have prepared := preparedKeyed segments keyed
  obtain ⟨entry,results⟩ := failedOwn (i := i) reason prepared (List.nodup_dedup (segments.map AsrSegmentJob.jobIndex))
  rw [shown]
  refine ⟨failedKeyed prepared,entry.trans ?_,reason,results.trans ?_⟩
  · by_cases none_ : own i segments = []
    · rw [if_neg (mt List.mem_dedup.mp (ownNone.mp none_)),if_pos none_,preparedOwn,none_]
      rfl
    · rw [if_pos (List.mem_dedup.mpr (not_not.mp (mt ownNone.mpr none_))),if_neg none_]
  · by_cases none_ : own i segments = []
    · rw [if_neg fun both => ownNone.mp none_ (List.mem_dedup.mp both.1),if_pos none_]
    · have inside := List.mem_dedup.mpr (not_not.mp (mt ownNone.mpr none_))
      have held : (prepareSegmentJobState state segments i).isSome := by
        rw [preparedOwn]
        exact preparedSome none_
      rw [if_pos ⟨inside,held⟩,if_neg none_]

end Recognize

section Ledger

def IsError (result : Except String Timeline) : Prop := ∃ reason, result = .error reason

/- A job of `n` segments after `consumed` of them, `failures` of its batches having failed. -/
inductive Ledger (n : Nat) : (consumed failures : Nat) → Option SegmentJobState → List (Except String Timeline) → Prop where
  /- Open: what is done was recognized since the last failure. -/
  | open_ {consumed failures : Nat} {entry : Option SegmentJobState} {results : List (Except String Timeline)}
      (count : ∀ job, entry = some job → job.segmentCount = n) (whole : failures = 0 → doneOf entry = consumed)
      (part : 0 < failures → doneOf entry < consumed) (left : doneOf entry < n)
      (errors : results.length = failures) (each : ∀ result ∈ results, IsError result) :
      Ledger n consumed failures entry results
  | finished (timeline : Timeline) : Ledger n n 0 none [.ok timeline]

variable {n consumed failures : Nat} {state : SegmentAsrState} {results : List (Except String Timeline)}
  {segments : List AsrSegmentJob} {batch : Except String (List Timeline)} {i : Nat}

def failuresOf (i : Nat) (failed : List (List Nat)) : Nat := failed.countP (i ∈ ·)

theorem ledgerStart (some_ : 0 < n) : Ledger n 0 0 none [] :=
  .open_ (fun _ none_ => nomatch none_) (fun _ => rfl) (fun more => absurd more (Nat.lt_irrefl 0)) some_ rfl
    fun _ inside => (by cases inside)

/- A job with a failed batch is never finished. -/
theorem ledgerErrors {entry : Option SegmentJobState} (ledger : Ledger n consumed failures entry results)
    (failed : 0 < failures) : ∀ result ∈ results, IsError result := by
  cases ledger with
  | open_ _ _ _ _ _ each => exact each
  | finished timeline => exact absurd failed (Nat.lt_irrefl 0)

theorem failuresBatch (i : Nat) (segments : List AsrSegmentJob) (batch : Except String (List Timeline)) : failuresOf i (failedJobs segments batch) =
    if Failed segments batch = true ∧ own i segments ≠ [] then 1 else 0 := by
  unfold failuresOf failedJobs
  have inside : i ∈ segments.map AsrSegmentJob.jobIndex ↔ own i segments ≠ [] := by rw [Ne,ownNone,not_not]
  by_cases failed : Failed segments batch = true
  · by_cases mine : own i segments = []
    · simp [failed,mine,mt inside.mp]
    · simp [failed,mine,inside.mpr mine]
  · simp [failed]

theorem keyedBatch (keyed : Keyed state) : Keyed (recognizeSegments state segments batch).1 := by
  by_cases failed : Failed segments batch = true
  · exact (recognizedFailed (i := 0) keyed failed).1
  · obtain ⟨timelines,rfl,same⟩ := succeeded failed
    exact (recognizedOk (i := 0) keyed same).1

theorem unmovedBatch (batch : Except String (List Timeline)) (keyed : Keyed state) (none_ : own i segments = []) :
    (recognizeSegments state segments batch).1 i = state i ∧
    resultsFor i ((recognizeSegments state segments batch).2.map answerOf) = [] := by
  by_cases failed : Failed segments batch = true
  · obtain ⟨_,entry,reason,handed⟩ := recognizedFailed (i := i) keyed failed
    rw [if_pos none_] at entry handed
    exact ⟨entry,handed⟩
  · obtain ⟨timelines,rfl,same⟩ := succeeded failed
    obtain ⟨_,entry,handed⟩ := recognizedOk (i := i) keyed same
    have nothing : lane target i (itemsOf segments timelines) = [] := by
      rw [← List.length_eq_zero_iff,itemsLength same,none_]
      rfl
    rw [none_,nothing] at entry handed
    exact ⟨entry,handed⟩

/-- One batch moves the ledger of a job by the job's own segments. -/
theorem ledgerBatch (keyed : Keyed state) (ledger : Ledger n consumed failures (state i) results)
    (counts : ∀ segment ∈ own i segments, segment.segmentCount = n)
    (room : consumed+(own i segments).length ≤ n) :
    Ledger n (consumed+(own i segments).length) (failures+failuresOf i (failedJobs segments batch))
      ((recognizeSegments state segments batch).1 i)
      (results ++ resultsFor i ((recognizeSegments state segments batch).2.map answerOf)) := by
  rw [failuresBatch]
  by_cases mine : own i segments = []
  · obtain ⟨entry,handed⟩ := unmovedBatch batch keyed mine
    rw [entry,handed]
    simpa [mine] using ledger
  have more := List.length_pos_of_ne_nil mine
  generalize held : state i = entry at ledger
  cases ledger with
  | finished timeline => omega
  | open_ count whole part left errors each =>
    by_cases failed : Failed segments batch = true
    · obtain ⟨_,after_,reason,handed⟩ := recognizedFailed (i := i) keyed failed
      rw [after_,handed,if_neg mine,if_neg mine,if_pos ⟨failed,mine⟩]
      refine .open_ (fun _ none_ => nomatch none_) (fun zero => by omega) (fun _ => ?_) ?_ (by simp [errors]) ?_
      · change 0 < _
        omega
      · change 0 < n
        omega
      · intro result inside
        rcases List.mem_append.mp inside with before | last
        · exact each result before
        · exact ⟨reason,List.mem_singleton.mp last⟩
    · obtain ⟨timelines,rfl,same⟩ := succeeded failed
      obtain ⟨_,after_,handed⟩ := recognizedOk (i := i) keyed same
      obtain ⟨job,prepared,all,done⟩ := preparedCounts entry mine counts
      have length := itemsLength (i := i) same
      rw [after_,handed,if_neg fun both => failed both.1,held,prepared]
      rcases Nat.lt_or_ge (job.segmentsDone+(own i segments).length) n with short | reached
      · rw [finishedPart (by omega),advancedAll]
        refine .open_ ?_ ?_ ?_ ?_ (by simpa using errors) (by simpa using each)
        · rintro _ ⟨⟩
          exact all
        · intro zero
          change job.segmentsDone+_ = _
          rw [done,whole zero,length]
        · intro positive
          change job.segmentsDone+_ < _
          have before := part positive
          omega
        · change job.segmentsDone+_ < _
          omega
      · -- Only a job none of whose batches failed can be done with its last segment.
        have clean : failures = 0 := by
          by_contra positive
          have before := part (Nat.pos_of_ne_zero positive)
          omega
        have all_ := whole clean
        subst clean
        rw [finishedWhole (List.ne_nil_of_length_pos (by omega)) (by omega),List.length_eq_zero_iff.mp errors]
        have end_ : consumed+(own i segments).length = n := by omega
        rw [end_]
        exact .finished _

end Ledger

section Order

structure Feed (i : Nat) (speech : List Annotation) (segments : List AsrSegmentJob) : Prop where
  some_ : segments ≠ []
  index : ∀ segment ∈ segments, segment.jobIndex = i
  count : ∀ segment ∈ segments, segment.segmentCount = segments.length
  first : ∀ segment, segments.head? = some segment → segment.speechAnnotations = speech
  rest : ∀ segment ∈ segments.tail, segment.speechAnnotations = []

variable {i : Nat} {speech : List Annotation} {segments before mine behind : List AsrSegmentJob} {f : Waveform → Timeline}
  {state : SegmentAsrState}

def assembled (speech : List Annotation) (f : Waveform → Timeline) (segments : List AsrSegmentJob) : Timeline :=
  let heard := segments.flatMap fun segment => offsetAnnotations (f segment.waveform).annotations segment.offset
  {newTimeline "offline_audio" with annotations := speech ++ heard}

def openEntry (i : Nat) (speech : List Annotation) (f : Waveform → Timeline) (n : Nat) (before : List AsrSegmentJob) :
    SegmentJobState :=
  ⟨i,speech,assembled speech f before,n,before.length⟩

def entryAfter (i : Nat) (speech : List Annotation) (f : Waveform → Timeline) (n : Nat) (before : List AsrSegmentJob) :
    Option SegmentJobState :=
  if before = [] ∨ before.length = n then none else some (openEntry i speech f n before)

def resultsAfter (speech : List Annotation) (f : Waveform → Timeline) (n : Nat) (before : List AsrSegmentJob) :
    List (Except String Timeline) :=
  if before.length = n then [.ok (assembled speech f before)] else []

theorem preparedOpen (silent : ∀ segment ∈ mine, segment.speechAnnotations = []) {n : Nat}
    (count : ∀ segment ∈ mine, segment.segmentCount = n) :
    prepareOwn (some (openEntry i speech f n before)) mine = some (openEntry i speech f n before) := by
  induction mine with
  | nil => rfl
  | cons segment mine ih =>
    obtain ⟨quiet,silent⟩ := List.forall_mem_cons.mp silent
    obtain ⟨own,count⟩ := List.forall_mem_cons.mp count
    have same : prepareEntry (some (openEntry i speech f n before)) segment = openEntry i speech f n before := by
      simp only [prepareEntry,openEntry,assembled,Option.getD_some,quiet,own,ne_eq,not_true_eq_false,if_false]
      split
      · next empty =>
        rw [empty]
        rw [List.append_eq_nil_iff] at empty
        rw [empty.1]
      · rfl
    rw [prepareOwn,List.foldl_cons,same]
    exact ih silent count

theorem preparedFirst {segment : AsrSegmentJob} (index : segment.jobIndex = i) (first : segment.speechAnnotations = speech) :
    prepareEntry none segment = openEntry i speech f segment.segmentCount [] := by
  simp [prepareEntry,openEntry,assembled,newTimeline,index,first]

theorem preparedNext (feed : Feed i speech (before ++ mine ++ behind)) (some_ : mine ≠ []) :
    prepareOwn (entryAfter i speech f (before ++ mine ++ behind).length before) mine =
      some (openEntry i speech f (before ++ mine ++ behind).length before) := by
  have count : ∀ segment ∈ mine, segment.segmentCount = (before ++ mine ++ behind).length :=
    fun segment inside => feed.count segment (by simp [inside])
  have left := List.length_pos_of_ne_nil some_
  by_cases start : before = []
  · subst start
    obtain ⟨segment,rest,rfl⟩ := List.exists_cons_of_ne_nil some_
    have first := feed.first segment rfl
    have index := feed.index segment (by simp)
    obtain ⟨own,count⟩ := List.forall_mem_cons.mp count
    rw [entryAfter,if_pos (.inl rfl),prepareOwn,List.foldl_cons,preparedFirst index first,own]
    exact preparedOpen (fun segment inside => feed.rest segment (by simp [inside])) count
  · have short : ¬ (before = [] ∨ before.length = (before ++ mine ++ behind).length) := by
      simp only [start,false_or,List.length_append]
      omega
    rw [entryAfter,if_neg short]
    refine preparedOpen (fun segment inside => feed.rest segment ?_) count
    obtain ⟨head,tail,rfl⟩ := List.exists_cons_of_ne_nil start
    simp [inside]

/-- The next segments of a job, recognized in a batch that succeeds, continue its timeline. -/
theorem assembledBatch (keyed : Keyed state) {batch : List AsrSegmentJob} (feed : Feed i speech (before ++ own i batch ++ behind))
    (held : state i = entryAfter i speech f (before ++ own i batch ++ behind).length before) (some_ : own i batch ≠ []) :
    let recognized := recognizeSegments state batch (.ok (batch.map fun segment => f segment.waveform))
    recognized.1 i = entryAfter i speech f (before ++ own i batch ++ behind).length (before ++ own i batch) ∧
    resultsFor i (recognized.2.map answerOf) =
      resultsAfter speech f (before ++ own i batch ++ behind).length (before ++ own i batch) := by
  have length : (batch.map fun segment => f segment.waveform).length = batch.length := List.length_map _
  obtain ⟨_,entry,results⟩ := recognizedOk (i := i) keyed length
  have items : lane target i (itemsOf batch (batch.map fun segment => f segment.waveform)) =
      (own i batch).map fun segment => (targetOf segment,f segment.waveform) := by
    rw [itemsOf,List.zip_map',laneMap]
    rfl
  have heard : ∀ segments : List AsrSegmentJob, heardIn (segments.map fun segment => (targetOf segment,f segment.waveform)) =
      segments.flatMap fun segment => offsetAnnotations (f segment.waveform).annotations segment.offset := by
    intro segments
    simp [heardIn,List.flatMap_map,targetOf]
  have grown : ((own i batch).map fun segment => (targetOf segment,f segment.waveform)).foldl advance
      (openEntry i speech f (before ++ own i batch ++ behind).length before) =
      openEntry i speech f (before ++ own i batch ++ behind).length (before ++ own i batch) := by
    rw [advancedAll,heard]
    simp [openEntry,assembled]
  dsimp only
  rw [entry,results,held,preparedNext feed some_,items]
  have left := List.length_pos_of_ne_nil some_
  by_cases last : behind = []
  · subst last
    rw [finishedWhole (by simpa using some_) (by simp [openEntry]),grown]
    simp [entryAfter,resultsAfter,openEntry]
  · have more := List.length_pos_of_ne_nil last
    rw [finishedPart (by simp [openEntry]; omega),grown]
    have short : ¬ (before ++ own i batch).length = (before ++ own i batch ++ behind).length := by
      simp only [List.length_append]
      omega
    have begun : before ++ own i batch ≠ [] := by simp [some_]
    simp only [entryAfter,resultsAfter,begun,short,or_self,if_false,and_self]

end Order
end Qwen3Asr.SegmentLedger
