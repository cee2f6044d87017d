import Mathlib.Data.Nat.Cast.Order.Basic
import Mathlib.Tactic.Linarith
import Qwen3Asr.VadSlices

/-! Detected segments joined for recognition. Each joined segment stands for inputs that follow each other
with short gaps, and joining neither reorders segments nor makes distant ones overlap. -/
namespace Qwen3Asr.VadMerge
open Pipeline VadSlices MediaData

variable {maxGapMs maxSegmentMs : Nat}

def Covers (segment : VadSegment) (time : ℚ) : Prop :=
  (segment.range.start : ℚ) ≤ time ∧ time ≤ (segment.range.stop : ℚ)

def InGap (maxGapMs : Nat) (before behind : VadSegment) (time : ℚ) : Prop :=
  (before.range.stop : ℚ) < time ∧ time < (behind.range.start : ℚ) ∧ behind.range.start-before.range.stop ≤ maxGapMs

/- At least `distance` lies between the segments; segments that are no distance apart may touch. -/
def Apart (distance : Nat) (a b : VadSegment) : Prop :=
  a.range.stop+distance ≤ b.range.start ∨ b.range.stop+distance ≤ a.range.start

def StartOrder (segments : List VadSegment) : Prop :=
  segments.Pairwise fun a b => a.range.start ≤ b.range.start

structure Joined (maxGapMs maxSegmentMs : Nat) (inputs : List VadSegment) (joined : VadSegment) : Prop where
  stops : ∃ a ∈ inputs, a.range.stop = joined.range.stop
  short : (∃ a ∈ inputs, a.range = joined.range) ∨ joined.range.duration ≤ maxSegmentMs
  covered : ∀ time, Covers joined time →
    (∃ a ∈ inputs, Covers a time) ∨ ∃ a ∈ inputs, ∃ b ∈ inputs, InGap maxGapMs a b time

section Join
variable {inputs segments : List VadSegment} {last segment : VadSegment}

theorem joinedOne (input : segment ∈ inputs) : Joined maxGapMs maxSegmentMs inputs segment :=
  ⟨⟨segment,input,rfl⟩,.inl ⟨segment,input,rfl⟩,fun _ covers => .inl ⟨segment,input,covers⟩⟩

def join (last segment : VadSegment) : VadSegment :=
  ⟨⟨last.range.start,max last.range.stop segment.range.stop⟩,max last.probability segment.probability⟩

theorem joinedNext (last_ : Joined maxGapMs maxSegmentMs inputs last) (input : segment ∈ inputs)
    (gap : segment.range.start-last.range.stop ≤ maxGapMs)
    (duration : segment.range.stop-last.range.start ≤ maxSegmentMs) :
    Joined maxGapMs maxSegmentMs inputs (join last segment) := by
  rcases Nat.le_total segment.range.stop last.range.stop with nested | longer
  · have same : (join last segment).range = last.range := by
      unfold join
      rw [Nat.max_eq_left nested]
    exact ⟨by rw [same]; exact last_.stops,by rw [same]; exact last_.short,fun time covers => by
      unfold Covers at covers
      rw [same] at covers
      exact last_.covered time covers⟩
  · have stop : (join last segment).range.stop = segment.range.stop := Nat.max_eq_right longer
    obtain ⟨a,found,ends⟩ := last_.stops
    refine ⟨⟨segment,input,stop.symm⟩,.inr ?_,fun time covers => ?_⟩
    · rw [TimeRange.duration,stop]
      exact duration
    · obtain ⟨started,stopped⟩ := covers
      rw [stop] at stopped
      rcases le_or_gt time last.range.stop with earlier | later
      · exact last_.covered time ⟨started,earlier⟩
      · rcases le_or_gt (segment.range.start : ℚ) time with inside | before
        · exact .inl ⟨segment,input,inside,stopped⟩
        · exact .inr ⟨a,found,segment,input,by rw [ends]; exact later,before,by rw [ends]; exact gap⟩

theorem mergeJoined (last_ : Joined maxGapMs maxSegmentMs inputs last) (within : ∀ segment ∈ segments, segment ∈ inputs) :
    ∀ merged ∈ mergeFrom maxGapMs maxSegmentMs last segments, Joined maxGapMs maxSegmentMs inputs merged := by
  induction segments generalizing last with
  | nil => exact List.forall_mem_singleton.mpr last_
  | cons segment segments ih =>
    have input := within segment List.mem_cons_self
    have rest := fun next found => within next (List.mem_cons_of_mem _ found)
    unfold mergeFrom
    dsimp only
    split
    · next near => exact ih (joinedNext last_ input near.1 near.2) rest
    · exact List.forall_mem_cons.mpr ⟨last_,ih (joinedOne input) rest⟩

end Join

section Order
variable {distance : Nat} {segments : List VadSegment} {last : VadSegment}

theorem mergeBehind {bound : Nat} (behind : ∀ segment ∈ last::segments, bound ≤ segment.range.start) :
    ∀ merged ∈ mergeFrom maxGapMs maxSegmentMs last segments, bound ≤ merged.range.start := by
  induction segments generalizing last with
  | nil => exact behind
  | cons segment segments ih =>
    obtain ⟨first,rest⟩ := List.forall_mem_cons.mp behind
    unfold mergeFrom
    dsimp only
    split
    · exact ih (List.forall_mem_cons.mpr ⟨first,(List.forall_mem_cons.mp rest).2⟩)
    · exact List.forall_mem_cons.mpr ⟨first,ih rest⟩

theorem mergeOrder (sorted : StartOrder (last::segments)) : StartOrder (mergeFrom maxGapMs maxSegmentMs last segments) := by
  induction segments generalizing last with
  | nil => exact sorted
  | cons segment segments ih =>
    obtain ⟨first,rest⟩ := List.pairwise_cons.mp sorted
    unfold mergeFrom
    dsimp only
    split
    · exact ih (List.pairwise_cons.mpr ⟨fun later found => first later (List.mem_cons_of_mem _ found),(List.pairwise_cons.mp rest).2⟩)
    · exact List.pairwise_cons.mpr ⟨mergeBehind first,ih rest⟩

def Spaced (distance : Nat) (segments : List VadSegment) : Prop :=
  segments.Pairwise fun a b => a.range.stop+distance ≤ b.range.start

theorem mergeSpaced (spaced : Spaced distance (last::segments)) :
    Spaced distance (mergeFrom maxGapMs maxSegmentMs last segments) := by
  induction segments generalizing last with
  | nil => exact spaced
  | cons segment segments ih =>
    obtain ⟨first,rest⟩ := List.pairwise_cons.mp spaced
    unfold mergeFrom
    dsimp only
    split
    · obtain ⟨second,others⟩ := List.pairwise_cons.mp rest
      refine ih (List.pairwise_cons.mpr ⟨fun later found => ?_,others⟩)
      have behindLast := first later (List.mem_cons_of_mem _ found)
      have behindNext := second later found
      dsimp only
      omega
    · exact List.pairwise_cons.mpr ⟨mergeBehind first,ih rest⟩

theorem spacedOf (valid : ∀ segment ∈ segments, segment.range.start ≤ segment.range.stop)
    (sorted : segments.Pairwise Earlier) (apart : segments.Pairwise (Apart distance)) : Spaced distance segments := by
  refine (sorted.and apart).imp_of_mem fun {a b} here there both => ?_
  have ordered := valid a here
  have ordered' := valid b there
  unfold Earlier Apart at both
  omega

theorem apartOf (spaced : Spaced distance segments) : segments.Pairwise (Apart distance) := spaced.imp .inl

end Order

section Merged
variable {segments : List VadSegment}

theorem mergedFrom (some_ : segments ≠ []) (enabled : maxGapMs ≠ 0 ∧ maxSegmentMs ≠ 0) :
    ∃ first rest, (first::rest).Perm segments ∧ (first::rest).Pairwise Earlier ∧
      mergeVadSegmentsForAsr segments maxGapMs maxSegmentMs = mergeFrom maxGapMs maxSegmentMs first rest := by
  have sorted := List.pairwise_insertionSort Earlier segments
  have perm := List.perm_insertionSort Earlier segments
  unfold mergeVadSegmentsForAsr
  rw [if_neg (by simp [some_,enabled])]
  cases ordered : segments.insertionSort Earlier with
  | nil =>
    rw [ordered] at perm
    exact absurd perm.symm.eq_nil some_
  | cons first rest =>
    rw [ordered] at sorted perm
    exact ⟨first,rest,perm,sorted,rfl⟩

theorem mergedOff (off : segments = [] ∨ maxGapMs = 0 ∨ maxSegmentMs = 0) :
    mergeVadSegmentsForAsr segments maxGapMs maxSegmentMs = segments := if_pos off

/-- Joined for recognition, segments stay in order and apart; all of the inputs is covered, and what is
covered beyond them lies in short gaps of short joints. -/
theorem segmentsMerged (segments : List VadSegment) (maxGapMs maxSegmentMs : Nat)
    (valid : ∀ segment ∈ segments, segment.range.start ≤ segment.range.stop) :
    (maxGapMs ≠ 0 ∧ maxSegmentMs ≠ 0 → StartOrder (mergeVadSegmentsForAsr segments maxGapMs maxSegmentMs)) ∧
    (∀ segment ∈ segments, ∃ merged ∈ mergeVadSegmentsForAsr segments maxGapMs maxSegmentMs, Inside segment merged) ∧
    (∀ merged ∈ mergeVadSegmentsForAsr segments maxGapMs maxSegmentMs, ∀ time, Covers merged time →
      (∃ a ∈ segments, Covers a time) ∨ ∃ a ∈ segments, ∃ b ∈ segments, InGap maxGapMs a b time) ∧
    (∀ merged ∈ mergeVadSegmentsForAsr segments maxGapMs maxSegmentMs,
      (∃ a ∈ segments, a.range = merged.range) ∨ merged.range.duration ≤ maxSegmentMs) ∧
    (∀ distance, segments.Pairwise (Apart distance) →
      (mergeVadSegmentsForAsr segments maxGapMs maxSegmentMs).Pairwise (Apart distance)) ∧
    (maxGapMs = 0 ∨ maxSegmentMs = 0 → mergeVadSegmentsForAsr segments maxGapMs maxSegmentMs = segments) := by
  by_cases off : segments = [] ∨ maxGapMs = 0 ∨ maxSegmentMs = 0
  · rw [mergedOff off]
    refine ⟨fun enabled => ?_,fun segment found => ⟨segment,found,Nat.le_refl _,Nat.le_refl _⟩,
      fun merged found time covers => .inl ⟨merged,found,covers⟩,fun merged found => .inl ⟨merged,found,rfl⟩,
      fun _ apart => apart,fun _ => rfl⟩
    obtain rfl : segments = [] := off.resolve_right (by simp [enabled])
    exact List.Pairwise.nil
  · obtain ⟨some_,enabled⟩ := not_or.mp off
    obtain ⟨first,rest,perm,sorted,merged⟩ := mergedFrom some_ (not_or.mp enabled)
    rw [merged]
    have starts : StartOrder (first::rest) := sorted.imp fun earlier => by
      unfold Earlier at earlier
      omega
    have joined : ∀ merged ∈ mergeFrom maxGapMs maxSegmentMs first rest, Joined maxGapMs maxSegmentMs segments merged :=
      mergeJoined (joinedOne (perm.mem_iff.mp List.mem_cons_self)) fun segment found =>
        perm.mem_iff.mp (List.mem_cons_of_mem _ found)
    refine ⟨fun _ => mergeOrder starts,fun segment found => mergeCovers starts segment (perm.mem_iff.mpr found),
      fun merged found => (joined merged found).covered,fun merged found => (joined merged found).short,
      fun distance apart => ?_,fun disabled => absurd disabled enabled⟩
    have spaced : Spaced distance (first::rest) :=
      spacedOf (fun segment found => valid segment (perm.mem_iff.mp found)) sorted ((perm.pairwise_iff fun ab => Or.symm ab).mpr apart)
    exact apartOf (mergeSpaced spaced)

theorem segmentsMergedThree : let segments : List VadSegment := [⟨⟨10,20⟩,1⟩,⟨⟨0,4⟩,1⟩,⟨⟨40,60⟩,1⟩]
    (∀ segment ∈ segments, segment.range.start ≤ segment.range.stop) ∧
    StartOrder (mergeVadSegmentsForAsr segments 10 30) ∧
    (mergeVadSegmentsForAsr segments 10 30).map VadSegment.range = [⟨0,20⟩,⟨40,60⟩] := by
  intro segments
  have valid : ∀ segment ∈ segments, segment.range.start ≤ segment.range.stop := by decide
  exact ⟨valid,(segmentsMerged segments 10 30 valid).1 (by decide),by decide⟩

/- With joining off, the order of the inputs stays. -/
theorem unmergedOrder : let segments : List VadSegment := [⟨⟨5,6⟩,1⟩,⟨⟨1,2⟩,1⟩]
    (∀ segment ∈ segments, segment.range.start ≤ segment.range.stop) ∧
    mergeVadSegmentsForAsr segments 0 30 = segments ∧ ¬ StartOrder (mergeVadSegmentsForAsr segments 0 30) := by
  refine ⟨by decide,by decide,fun sorted => ?_⟩
  have first := List.rel_of_pairwise_cons sorted (List.mem_singleton.mpr rfl)
  exact absurd first (by decide)

end Merged

end Qwen3Asr.VadMerge
