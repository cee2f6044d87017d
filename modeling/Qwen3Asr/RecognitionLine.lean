import Qwen3Asr.SegmentLedger

/-! The recognition stage seen from outside: a line of messages, the jobs that are open, and the answers given.
Messages may change places in the line, a whole job is answered once, and segments are recognized in batches. -/
namespace Qwen3Asr.RecognitionLine
open Library.Effect Library.Lanes MediaData TranscribeServer TranscribeBatch SegmentLedger

inductive AsrPipelineMessage where
  | job (job : AsrJob)
  | segment (segment : AsrSegmentJob)
  deriving DecidableEq, Repr

abbrev Message := Except TranscribeItemOutcome AsrPipelineMessage

def messageIndex : Message → Nat
  | .error outcome => outcome.index
  | .ok (.job job) => job.index
  | .ok (.segment segment) => segment.jobIndex

def segmentMessage (segment : AsrSegmentJob) : Message := .ok (.segment segment)

def Direct : Message → Prop
  | .ok (.segment _) => False
  | _ => True

def waitingSegments (messages : List Message) : List AsrSegmentJob := messages.filterMap fun
  | .ok (.segment segment) => some segment
  | _ => none

structure Line where
  waiting : List Message
  segments : SegmentAsrState
  answered : List Answer

def opened (waiting : List Message) : Line := ⟨waiting,fun _ => none,[]⟩

section Turns
variable (Same : List Message → List Message → Prop) (Fits : Message → Answer → Prop)
  (Heard : List AsrSegmentJob → Except String (List Timeline) → Prop)

/- One turn of the line, with the jobs of the batches that failed in it. Answers leave the segments alone. -/
inductive Turn : Line → Line → List (List Nat) → Prop where
  | moved {line : Line} {waiting : List Message} (same : Same line.waiting waiting) : Turn line {line with waiting} []
  | answered {line : Line} {messages waiting : List Message} {answers given : List Answer}
      (same : line.waiting.Perm (messages ++ waiting))
      (kept : waitingSegments line.waiting = waitingSegments waiting)
      (direct : ∀ message ∈ messages, Direct message) (fits : List.Forall₂ Fits messages answers) (order : answers.Perm given) :
      Turn line ⟨waiting,line.segments,line.answered ++ given⟩ []
  | recognized {line : Line} {segments : List AsrSegmentJob} {batch : Except String (List Timeline)} {waiting : List Message}
      (same : Same line.waiting (segments.map segmentMessage ++ waiting)) (heard : Heard segments batch) :
      Turn line ⟨waiting,(recognizeSegments line.segments segments batch).1,
        line.answered ++ (recognizeSegments line.segments segments batch).2.map answerOf⟩ (failedJobs segments batch)

end Turns

section Rules
variable {Same : List Message → List Message → Prop} {Fits : Message → Answer → Prop}
  {Heard : List AsrSegmentJob → Except String (List Timeline) → Prop} {line next : Line} {failed : List (List Nat)} {i : Nat}

theorem turnKeyed (turn : Turn Same Fits Heard line next failed) (keyed : Keyed line.segments) : Keyed next.segments := by
  cases turn with
  | moved => exact keyed
  | answered => exact keyed
  | recognized => exact keyedBatch keyed

theorem turnFewer (perm : ∀ xs ys, Same xs ys → xs.Perm ys) (turn : Turn Same Fits Heard line next failed) :
    next.waiting.Subperm line.waiting := by
  cases turn with
  | moved same => exact (perm _ _ same).symm.subperm
  | answered same => exact (List.sublist_append_right ..).subperm.trans same.symm.subperm
  | recognized same => exact (List.sublist_append_right ..).subperm.trans (perm _ _ same).symm.subperm

theorem movedLine (same : Same line.waiting next.waiting) (segments : next.segments = line.segments)
    (answered : next.answered = line.answered) : Turn Same Fits Heard line next [] := by
  have whole : next = {line with waiting := next.waiting} := by rw [← segments,← answered]
  rw [whole]
  exact .moved same

theorem segmentLane (segments : List AsrSegmentJob) :
    lane messageIndex i (segments.map segmentMessage) = (own i segments).map segmentMessage := laneMap

theorem turnSame {Other : List Message → List Message → Prop} (turn : Turn Same Fits Heard line next failed)
    (weaker : ∀ xs ys, Same xs ys → Other xs ys) : Turn Other Fits Heard line next failed := by
  cases turn with
  | moved same => exact .moved (weaker _ _ same)
  | answered same kept direct fits order => exact .answered same kept direct fits order
  | recognized same heard => exact .recognized (weaker _ _ same) heard

theorem answersOwn (index : ∀ message answer, Fits message answer → answer.1 = messageIndex message)
    {messages : List Message} {answers : List Answer} (fits : List.Forall₂ Fits messages answers) :
    List.Forall₂ (fun message result => Fits message (i,result)) (lane messageIndex i messages) (resultsFor i answers) := by
  induction fits with
  | nil => exact .nil
  | @cons message answer _ _ fit _ ih =>
    have same := index message answer fit
    rw [laneCons,resultsCons,← same]
    by_cases own : answer.1 = i
    · subst own
      simp [fit,ih]
    · simpa [own] using ih

theorem resultsPerm {answers given : List Answer} (order : answers.Perm given) :
    (resultsFor i answers).Perm (resultsFor i given) := (lanePerm order).map _

theorem ownLane {messages waiting : List Message} (same : line.waiting.Perm (messages ++ waiting)) :
    (lane messageIndex i line.waiting).Perm (lane messageIndex i messages ++ lane messageIndex i waiting) := by
  rw [← laneAppend]
  exact lanePerm same

end Rules

section Direct
variable {Fits : Message → Answer → Prop} {Heard : List AsrSegmentJob → Except String (List Timeline) → Prop}
  {line next : Line} {failed : List (List Nat)} {i : Nat} {feed : List Message}

def Served (Fits : Message → Answer → Prop) (i : Nat) (feed : List Message) (line : Line) : Prop :=
  ∃ asked results, feed.Perm (asked ++ lane messageIndex i line.waiting) ∧
    List.Forall₂ (fun message result => Fits message (i,result)) asked results ∧ results.Perm (resultsFor i line.answered)

theorem servedNone {segments : List AsrSegmentJob} {waiting : List Message} (direct : ∀ message ∈ feed, Direct message)
    (served : Served Fits i feed line) (same : line.waiting.Perm (segments.map segmentMessage ++ waiting)) : own i segments = [] := by
  obtain ⟨asked,_,fed,_⟩ := served
  have lanes := ownLane (i := i) same
  rw [segmentLane] at lanes
  refine List.eq_nil_iff_forall_not_mem.mpr fun segment inside => direct (segmentMessage segment) (fed.mem_iff.mpr ?_)
  exact List.mem_append_right _ (lanes.mem_iff.mpr (List.mem_append_left _ (List.mem_map_of_mem inside)))

/-- Whole jobs and errors are served, whatever else is recognized. -/
theorem servedTurn (index : ∀ message answer, Fits message answer → answer.1 = messageIndex message)
    (direct : ∀ message ∈ feed, Direct message) (turn : Turn List.Perm Fits Heard line next failed) (keyed : Keyed line.segments)
    (served : Served Fits i feed line) : Served Fits i feed next := by
  have before := served
  obtain ⟨asked,results,fed,fit,given⟩ := served
  cases turn with
  | moved same => exact ⟨asked,results,fed.trans ((lanePerm same).append_left asked),fit,given⟩
  | answered same _ _ fits order =>
    refine ⟨asked ++ _,results ++ _,?_,List.rel_append fit (answersOwn (i := i) index fits),?_⟩
    · rw [List.append_assoc]
      exact fed.trans ((ownLane same).append_left asked)
    · rw [resultsAppend]
      exact given.append (resultsPerm order)
  | recognized same _ =>
    have none_ := servedNone direct before same
    have lanes := ownLane (i := i) same
    rw [segmentLane,none_] at lanes
    refine ⟨asked,results,fed.trans (lanes.append_left asked),fit,?_⟩
    rw [resultsAppend,(unmovedBatch _ keyed none_).2,List.append_nil]
    exact given

theorem servedUnfailed (direct : ∀ message ∈ feed, Direct message) (turn : Turn List.Perm Fits Heard line next failed)
    (served : Served Fits i feed line) : failuresOf i failed = 0 := by
  cases turn with
  | moved => rfl
  | answered => rfl
  | recognized same _ =>
    rw [failuresBatch,if_neg]
    exact fun both => both.2 (servedNone direct served same)

theorem servedStart {waiting : List Message} (fed : lane messageIndex i waiting = feed) : Served Fits i feed (opened waiting) :=
  ⟨[],[],by rw [← fed]; rfl,.nil,.refl _⟩

theorem servedEnd (served : Served Fits i feed line) (empty : line.waiting = []) :
    (resultsFor i line.answered).length = feed.length ∧
    ∀ result ∈ resultsFor i line.answered, ∃ message ∈ feed, Fits message (i,result) := by
  obtain ⟨asked,results,fed,fit,given⟩ := served
  rw [empty,laneNil,List.append_nil] at fed
  refine ⟨given.length_eq.symm.trans (fit.length_eq.symm.trans fed.length_eq.symm),fun result inside => ?_⟩
  obtain ⟨message,there,fits⟩ := pairedSource fit (given.mem_iff.mpr inside)
  exact ⟨message,fed.mem_iff.mpr there,fits⟩

end Direct

section Speech
variable {Fits : Message → Answer → Prop} {Heard : List AsrSegmentJob → Except String (List Timeline) → Prop}
  {line next : Line} {failed seen : List (List Nat)} {i n : Nat}

structure Owed (i n : Nat) (line : Line) (seen : List (List Nat)) : Prop where
  waiting : ∀ message ∈ lane messageIndex i line.waiting, ∃ segment, message = segmentMessage segment ∧ segment.segmentCount = n
  ledger : ∃ consumed, consumed+(lane messageIndex i line.waiting).length = n ∧
    Ledger n consumed (failuresOf i seen) (line.segments i) (resultsFor i line.answered)

theorem failuresAppend : failuresOf i (seen ++ failed) = failuresOf i seen+failuresOf i failed := List.countP_append

theorem noDirect {messages waiting : List Message} (same : line.waiting.Perm (messages ++ waiting))
    (direct : ∀ message ∈ messages, Direct message)
    (only : ∀ message ∈ lane messageIndex i line.waiting, ¬ Direct message) : lane messageIndex i messages = [] := by
  rw [List.eq_nil_iff_forall_not_mem]
  intro message inside
  exact only message ((ownLane same).mem_iff.mpr (List.mem_append_left _ inside)) (direct message (memLane.mp inside).1)

theorem owedTurn (index : ∀ message answer, Fits message answer → answer.1 = messageIndex message)
    (turn : Turn List.Perm Fits Heard line next failed) (keyed : Keyed line.segments)
    (owed : Owed i n line seen) : Owed i n next (seen ++ failed) := by
  obtain ⟨waiting,consumed,whole,ledger⟩ := owed
  cases turn with
  | moved same =>
    have lanes : (lane messageIndex i line.waiting).Perm (lane messageIndex i _) := lanePerm same
    rw [List.append_nil]
    exact ⟨fun message inside => waiting message (lanes.mem_iff.mpr inside),consumed,by rwa [← lanes.length_eq],ledger⟩
  | answered same _ direct fits order =>
    have none_ := noDirect same direct (fun message inside => by
      obtain ⟨segment,rfl,_⟩ := waiting message inside
      exact id) (i := i)
    have lanes := ownLane (i := i) same
    have given := answersOwn (i := i) index fits
    rw [none_] at lanes given
    rw [List.nil_append] at lanes
    have ordered := resultsPerm (i := i) order
    rw [List.forall₂_nil_left_iff.mp given] at ordered
    rw [List.append_nil]
    refine ⟨fun message inside => waiting message (lanes.mem_iff.mpr inside),consumed,by rwa [← lanes.length_eq],?_⟩
    rw [resultsAppend,← ordered.nil_eq,List.append_nil]
    exact ledger
  | @recognized segments batch rest same heard =>
    have lanes := ownLane (i := i) same
    rw [segmentLane] at lanes
    have length := lanes.length_eq
    rw [List.length_append,List.length_map] at length
    have counts : ∀ segment ∈ own i segments, segment.segmentCount = n := by
      intro segment inside
      obtain ⟨other,same,count⟩ := waiting _ (lanes.mem_iff.mpr (List.mem_append_left _ (List.mem_map_of_mem inside)))
      cases same
      exact count
    refine ⟨fun message inside => waiting message (lanes.mem_iff.mpr (List.mem_append_right _ inside)),
      consumed+(own i segments).length,?_,?_⟩
    · change _+(lane messageIndex i rest).length = n
      omega
    · rw [failuresAppend,resultsAppend]
      exact ledgerBatch keyed ledger counts (by omega)

theorem owedStart {waiting : List Message} {segments : List AsrSegmentJob} (some_ : segments ≠ [])
    (fed : lane messageIndex i waiting = segments.map segmentMessage)
    (counts : ∀ segment ∈ segments, segment.segmentCount = segments.length) : Owed i segments.length (opened waiting) [] := by
  refine ⟨fun message inside => ?_,0,?_,ledgerStart (List.length_pos_of_ne_nil some_)⟩
  · obtain ⟨segment,there,rfl⟩ := List.mem_map.mp (fed ▸ inside)
    exact ⟨segment,rfl,counts segment there⟩
  · change 0+(lane messageIndex i waiting).length = _
    rw [fed,List.length_map,Nat.zero_add]

/-- A job is answered once, or once for each of its batches that failed. -/
theorem owedEnd (owed : Owed i n line seen) (empty : line.waiting = []) :
    (resultsFor i line.answered).length = max 1 (failuresOf i seen) := by
  obtain ⟨_,consumed,whole,ledger⟩ := owed
  rw [empty,laneNil,List.length_nil,Nat.add_zero] at whole
  subst whole
  generalize failuresOf i seen = failures at ledger
  generalize line.segments i = entry, resultsFor i line.answered = results at ledger
  cases ledger with
  | finished timeline => rfl
  | open_ _ all _ left errors _ =>
    have some_ : failures ≠ 0 := fun zero => by
      have done := all zero
      omega
    omega

theorem owedDone (owed : Owed i n line seen) (empty : line.waiting = []) (clean : failuresOf i seen = 0) :
    ∃ timeline, resultsFor i line.answered = [.ok timeline] := by
  obtain ⟨_,consumed,all,ledger⟩ := owed
  rw [empty,laneNil,List.length_nil,Nat.add_zero] at all
  subst all
  rw [clean] at ledger
  generalize line.segments i = entry, resultsFor i line.answered = results at ledger
  cases ledger with
  | finished timeline => exact ⟨timeline,rfl⟩
  | open_ _ whole _ left _ _ =>
    have done := whole rfl
    omega

theorem owedErrors (owed : Owed i n line seen) (failed : 0 < failuresOf i seen) :
    ∀ result ∈ resultsFor i line.answered, IsError result := by
  obtain ⟨_,consumed,_,ledger⟩ := owed
  exact ledgerErrors ledger failed

end Speech

section Order
variable {Fits : Message → Answer → Prop} {line next : Line} {failed seen : List (List Nat)} {i : Nat}
  {speech : List Annotation} {f : Waveform → Timeline} {segments : List AsrSegmentJob}

/- Recognition hears the same in a waveform whatever batch it is in. -/
def Pointwise (f : Waveform → Timeline) (segments : List AsrSegmentJob) (batch : Except String (List Timeline)) : Prop :=
  ∀ timelines, batch = .ok timelines → timelines.length = segments.length → timelines = segments.map fun segment => f segment.waveform

def SameSegments (xs ys : List Message) : Prop := SameLanes AsrSegmentJob.jobIndex (waitingSegments xs) (waitingSegments ys)

@[simp] theorem segmentsAppend (messages more : List Message) :
    waitingSegments (messages ++ more) = waitingSegments messages ++ waitingSegments more := List.filterMap_append

@[simp] theorem segmentsOnly (segments : List AsrSegmentJob) : waitingSegments (segments.map segmentMessage) = segments := by
  simp [waitingSegments,List.filterMap_map,Function.comp_def,segmentMessage]

theorem segmentsOwn (messages : List Message) :
    own i (waitingSegments messages) = waitingSegments (lane messageIndex i messages) := by
  induction messages with
  | nil => rfl
  | cons message messages ih =>
    rw [laneCons,segmentsAppend,← ih]
    match message with
    | .error outcome => split <;> rfl
    | .ok (.job job) => split <;> rfl
    | .ok (.segment segment) =>
      change own i (segment::waitingSegments messages) = _
      rw [own,laneCons]
      by_cases same : segment.jobIndex = i <;> simp [messageIndex,same,waitingSegments]

theorem sameSegments {xs ys : List Message} (same : SameLanes messageIndex xs ys) : SameSegments xs ys := by
  intro i
  change own i (waitingSegments xs) = own i (waitingSegments ys)
  rw [segmentsOwn,segmentsOwn,same i]

/- The segments of a job wait in their order, and while none of its batches failed, the job is built from those before. -/
def InOrder (i : Nat) (speech : List Annotation) (f : Waveform → Timeline) (segments : List AsrSegmentJob) (line : Line)
    (seen : List (List Nat)) : Prop :=
  ∃ before, segments = before ++ own i (waitingSegments line.waiting) ∧
    (failuresOf i seen = 0 → line.segments i = entryAfter i speech f segments.length before ∧
      resultsFor i line.answered = resultsAfter speech f segments.length before)

theorem inOrderTurn (index : ∀ message answer, Fits message answer → answer.1 = messageIndex message)
    (turn : Turn SameSegments Fits (Pointwise f) line next failed) (keyed : Keyed line.segments)
    (feed : Feed i speech segments) {n : Nat} (owed : Owed i n line seen) (inOrder : InOrder i speech f segments line seen) :
    InOrder i speech f segments next (seen ++ failed) := by
  obtain ⟨before,split,built⟩ := inOrder
  cases turn with
  | moved same =>
    rw [List.append_nil]
    exact ⟨before,split.trans (congrArg _ (same i)),built⟩
  | answered same kept direct fits order =>
    have none_ := noDirect (i := i) same direct fun message inside whole => by
      obtain ⟨segment,rfl,_⟩ := owed.waiting message inside
      exact whole
    have given := answersOwn (i := i) index fits
    rw [none_] at given
    have ordered := resultsPerm (i := i) order
    rw [List.forall₂_nil_left_iff.mp given] at ordered
    rw [List.append_nil]
    refine ⟨before,split.trans (by rw [kept]),?_⟩
    rw [resultsAppend,← ordered.nil_eq,List.append_nil]
    exact built
  | @recognized batch result rest same heard =>
    -- The batch takes the segments that are next.
    have taken : own i (waitingSegments line.waiting) = own i batch ++ own i (waitingSegments rest) := by
      have lanes := same i
      rwa [segmentsAppend,segmentsOnly,laneAppend] at lanes
    have whole : segments = before ++ own i batch ++ own i (waitingSegments rest) := by
      rw [split,taken,List.append_assoc]
    refine ⟨before ++ own i batch,whole,fun clean => ?_⟩
    rw [failuresAppend] at clean
    obtain ⟨entry,results⟩ := built (by omega)
    rw [resultsAppend,results]
    by_cases none_ : own i batch = []
    · obtain ⟨after_,handed⟩ := unmovedBatch result keyed none_
      rw [handed,none_,List.append_nil,List.append_nil]
      exact ⟨after_.trans entry,rfl⟩
    · have ok : ¬ Failed batch result = true := fun bad => by
        have one := failuresBatch i batch result
        rw [if_pos ⟨bad,none_⟩] at one
        omega
      obtain ⟨timelines,rfl,same⟩ := succeeded ok
      obtain rfl := heard timelines rfl same
      rw [whole] at feed entry
      obtain ⟨after_,handed⟩ := assembledBatch keyed feed entry none_
      have more := List.length_pos_of_ne_nil none_
      have short : ¬ before.length = segments.length := by
        rw [whole]
        simp only [List.length_append]
        omega
      rw [← whole] at after_ handed
      refine ⟨after_,?_⟩
      rw [resultsAfter,if_neg short,List.nil_append]
      exact handed

theorem inOrderStart {waiting : List Message} (feed : Feed i speech segments)
    (fed : lane messageIndex i waiting = segments.map segmentMessage) : InOrder i speech f segments (opened waiting) [] := by
  have some_ : ¬ ([] : List AsrSegmentJob).length = segments.length := fun none_ =>
    feed.some_ (List.length_eq_zero_iff.mp none_.symm)
  refine ⟨[],?_,fun _ => ⟨rfl,by rw [resultsAfter,if_neg some_]; rfl⟩⟩
  rw [segmentsOwn]
  change _ = waitingSegments (lane messageIndex i waiting)
  rw [fed,segmentsOnly]

/-- A job that is answered with a timeline is answered with the speech and its segments in their order. -/
theorem inOrderTimeline {n : Nat} (inOrder : InOrder i speech f segments line seen) (owed : Owed i n line seen)
    {timeline : Timeline} (answered : .ok timeline ∈ resultsFor i line.answered) : timeline = assembled speech f segments := by
  obtain ⟨before,split,built⟩ := inOrder
  by_cases clean : failuresOf i seen = 0
  · rw [(built clean).2,resultsAfter] at answered
    split_ifs at answered with whole
    · have none_ : own i (waitingSegments line.waiting) = [] := by
        have lengths := congrArg List.length split
        rw [List.length_append] at lengths
        exact List.length_eq_zero_iff.mp (by omega)
      rw [none_,List.append_nil] at split
      rw [split]
      exact Except.ok.inj (List.mem_singleton.mp answered)
    · cases answered
  · obtain ⟨reason,wrong⟩ := owedErrors owed (Nat.pos_of_ne_zero clean) _ answered
    cases wrong

end Order

section Runs
variable {Same : List Message → List Message → Prop} {Fits : Message → Answer → Prop}
  {Heard : List AsrSegmentJob → Except String (List Timeline) → Prop} {start line : Line} {seen : List (List Nat)} {i : Nat}
  {waiting : List Message}

inductive Turns (Same : List Message → List Message → Prop) (Fits : Message → Answer → Prop)
    (Heard : List AsrSegmentJob → Except String (List Timeline) → Prop) (start : Line) : Line → List (List Nat) → Prop where
  | none_ : Turns Same Fits Heard start start []
  | turn {line next : Line} {seen failed : List (List Nat)} (before : Turns Same Fits Heard start line seen)
      (turn : Turn Same Fits Heard line next failed) : Turns Same Fits Heard start next (seen ++ failed)

theorem turnsSame {Other : List Message → List Message → Prop} (turns : Turns Same Fits Heard start line seen)
    (weaker : ∀ xs ys, Same xs ys → Other xs ys) : Turns Other Fits Heard start line seen := by
  induction turns with
  | none_ => exact .none_
  | turn _ turn ih => exact .turn ih (turnSame turn weaker)

theorem turnsHeard {Other : List AsrSegmentJob → Except String (List Timeline) → Prop} (turns : Turns Same Fits Heard start line seen)
    (weaker : ∀ segments batch, Heard segments batch → Other segments batch) : Turns Same Fits Other start line seen := by
  induction turns with
  | none_ => exact .none_
  | turn _ turn ih =>
    refine .turn ih ?_
    cases turn with
    | moved same => exact .moved same
    | answered same kept direct fits order => exact .answered same kept direct fits order
    | recognized same heard => exact .recognized same (weaker _ _ heard)

theorem turnsKeyed (turns : Turns Same Fits Heard (opened waiting) line seen) : Keyed line.segments := by
  induction turns with
  | none_ => exact fun _ _ none_ => nomatch none_
  | turn _ turn ih => exact turnKeyed turn ih

theorem turnsUnfailed (turns : Turns Same Fits Heard start line seen)
    (sure : ∀ segments batch, Heard segments batch → Failed segments batch = true → segments = []) : failuresOf i seen = 0 := by
  induction turns with
  | none_ => rfl
  | turn _ turn ih =>
    rw [failuresAppend,ih]
    cases turn with
    | moved => rfl
    | answered => rfl
    | @recognized segments batch _ _ heard =>
      rw [failuresBatch,if_neg]
      rintro ⟨failed,mine⟩
      rw [sure segments batch heard failed] at mine
      exact mine rfl

theorem turnsSpoken {Clear : AsrSegmentJob → Prop} (turns : Turns List.Perm Fits Heard (opened waiting) line seen)
    (clear : ∀ segments batch, Heard segments batch → ¬ Failed segments batch = true → ∀ segment ∈ segments, Clear segment) :
    ∀ segment, segmentMessage segment ∈ waiting → segmentMessage segment ∈ line.waiting ∨
      0 < failuresOf segment.jobIndex seen ∨ Clear segment := by
  intro segment inside
  induction turns with
  | none_ => exact .inl inside
  | turn _ turn ih =>
    rw [failuresAppend]
    rcases ih with waits | failed | spoken
    · cases turn with
      | moved same => exact .inl (same.mem_iff.mp waits)
      | answered same _ direct _ _ =>
        rcases List.mem_append.mp (same.mem_iff.mp waits) with taken | left
        · exact (direct _ taken).elim
        · exact .inl left
      | @recognized segments batch _ same heard =>
        rcases List.mem_append.mp (same.mem_iff.mp waits) with taken | left
        · obtain ⟨other,there,held⟩ := List.mem_map.mp taken
          cases held
          by_cases failed : Failed segments batch = true
          · have mine : own segment.jobIndex segments ≠ [] := List.ne_nil_of_mem (memLane.mpr ⟨there,rfl⟩)
            refine .inr (.inl ?_)
            rw [failuresBatch,if_pos ⟨failed,mine⟩]
            omega
          · exact .inr (.inr (clear segments batch heard failed segment there))
        · exact .inl left
    · exact .inr (.inl (by omega))
    · exact .inr (.inr spoken)

variable (index : ∀ message answer, Fits message answer → answer.1 = messageIndex message)
include index

theorem turnsServed (turns : Turns List.Perm Fits Heard (opened waiting) line seen)
    (direct : ∀ message ∈ lane messageIndex i waiting, Direct message) :
    Served Fits i (lane messageIndex i waiting) line ∧ failuresOf i seen = 0 := by
  induction turns with
  | none_ => exact ⟨servedStart rfl,rfl⟩
  | turn before turn ih =>
    obtain ⟨served,unfailed⟩ := ih
    refine ⟨servedTurn index direct turn (turnsKeyed before) served,?_⟩
    rw [failuresAppend,unfailed,servedUnfailed direct turn served]

theorem turnsOwed (turns : Turns List.Perm Fits Heard (opened waiting) line seen) {segments : List AsrSegmentJob}
    (some_ : segments ≠ []) (fed : lane messageIndex i waiting = segments.map segmentMessage)
    (counts : ∀ segment ∈ segments, segment.segmentCount = segments.length) : Owed i segments.length line seen := by
  induction turns with
  | none_ => exact owedStart some_ fed counts
  | turn before turn ih => exact owedTurn index turn (turnsKeyed before) ih

theorem turnsInOrder {f : Waveform → Timeline} {speech : List Annotation} {segments : List AsrSegmentJob}
    (turns : Turns (fun xs ys => xs.Perm ys ∧ SameSegments xs ys) Fits (Pointwise f) (opened waiting) line seen)
    (feed : Feed i speech segments) (fed : lane messageIndex i waiting = segments.map segmentMessage) :
    InOrder i speech f segments line seen := by
  induction turns with
  | none_ => exact inOrderStart feed fed
  | turn before turn ih =>
    have owed := turnsOwed index (turnsSame before fun _ _ both => both.1) feed.some_ fed feed.count
    exact inOrderTurn index (turnSame turn fun _ _ both => both.2) (turnsKeyed before) feed owed ih

end Runs

end Qwen3Asr.RecognitionLine
