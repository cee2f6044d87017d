import Mathlib.Tactic.Linarith
import Qwen3Asr.ChunkBatches

/-! The groups that chunks are recognized in: all indices in order, each group bounded by its number and by its
seconds of audio. -/
namespace Qwen3Asr.ChunkGroups
open Library.Effect Library.Word Library.Pieces ChunkBatches

variable {K : Type} {chunks : List (ChunkItem K)} {order group current : List Nat} {groups : List (List Nat)}
  {countCap : Nat} {budget currentSec : ℚ}

def secondsOf (chunks : List (ChunkItem K)) (idx : Nat) : ℚ :=
  chunkAudioSeconds ((chunks[idx]?.map fun chunk => chunk.wav.length).getD 0)

def totalSeconds (chunks : List (ChunkItem K)) (group : List Nat) : ℚ := (group.map (secondsOf chunks)).sum

/- Within the budget, or one chunk that is too long for it by itself. -/
def Bounded (chunks : List (ChunkItem K)) (budget : ℚ) (group : List Nat) : Prop :=
  totalSeconds chunks group ≤ budget+f32Epsilon ∨ ∃ idx, group = [idx] ∧ budget < secondsOf chunks idx

structure Fits (chunks : List (ChunkItem K)) (countCap : Nat) (budget : ℚ) (group : List Nat) : Prop where
  some_ : group ≠ []
  count : group.length ≤ countCap
  seconds : Bounded chunks budget group

structure Filling (chunks : List (ChunkItem K)) (countCap : Nat) (budget : ℚ) (current : List Nat) (currentSec : ℚ) : Prop where
  room : current.length < countCap
  total : totalSeconds chunks current = currentSec
  within : currentSec ≤ budget+f32Epsilon

theorem fillingNone (positive : 0 < countCap) (some_ : 0 < budget) : Filling chunks countCap budget [] 0 := by
  have epsilon : (0 : ℚ) ≤ f32Epsilon := by norm_num [f32Epsilon]
  exact ⟨positive,rfl,by linarith⟩

theorem flushedFits (filling : Filling chunks countCap budget current currentSec) :
    ∀ group ∈ flushed current, Fits chunks countCap budget group := by
  intro group inside
  unfold flushed at inside
  split at inside
  · cases inside
  · next some_ =>
    rw [List.mem_singleton.mp inside]
    exact ⟨some_,filling.room.le,.inl (filling.total.trans_le filling.within)⟩

theorem totalAppend (current : List Nat) (idx : Nat) :
    totalSeconds chunks (current ++ [idx]) = totalSeconds chunks current+secondsOf chunks idx := by
  simp [totalSeconds]

theorem opensFits {idx : Nat} (positive : 0 < countCap) (filling : Filling chunks countCap budget current currentSec)
    (short : secondsOf chunks idx ≤ budget) :
    let closes := closesBefore countCap budget current currentSec (secondsOf chunks idx)
    Fits chunks countCap budget (if closes then [idx] else current ++ [idx]) ∧
    totalSeconds chunks (if closes then [idx] else current ++ [idx]) =
      (if closes then secondsOf chunks idx else currentSec+secondsOf chunks idx) ∧
    (if closes then secondsOf chunks idx else currentSec+secondsOf chunks idx) ≤ budget+f32Epsilon := by
  have epsilon : (0 : ℚ) ≤ f32Epsilon := by norm_num [f32Epsilon]
  have alone : totalSeconds chunks [idx] = secondsOf chunks idx := by simp [totalSeconds]
  have fits : secondsOf chunks idx ≤ budget+f32Epsilon := by linarith
  intro closes
  cases closing : closes with
  | true => exact ⟨⟨by simp,positive,.inl (alone.trans_le fits)⟩,alone,fits⟩
  | false =>
    have total : totalSeconds chunks (current ++ [idx]) = currentSec+secondsOf chunks idx := by
      rw [totalAppend,filling.total]
    have within : currentSec+secondsOf chunks idx ≤ budget+f32Epsilon := by
      by_cases empty : current = []
      · have zero := filling.total
        rw [empty] at zero
        rw [← zero]
        simpa [totalSeconds] using fits
      · have stays : ¬(current ≠ [] ∧ (budget+f32Epsilon < currentSec+secondsOf chunks idx ∨ countCap ≤ current.length)) :=
          of_decide_eq_false closing
        exact not_lt.mp fun more => stays ⟨empty,.inl more⟩
    have room := filling.room
    refine ⟨⟨by simp,?_,.inl (total.trans_le within)⟩,total,within⟩
    change (current ++ [idx]).length ≤ countCap
    rw [List.length_append]
    exact room

/-- The groups of a run: what is being filled and the chunks to come are grouped in their order. -/
theorem secondsFits (positive : 0 < countCap) (some_ : 0 < budget) (filling : Filling chunks countCap budget current currentSec)
    (ok : groupBySeconds chunks countCap budget current currentSec order = .ok groups) :
    ∀ group ∈ groups, Fits chunks countCap budget group := by
  induction order generalizing current currentSec groups with
  | nil =>
    cases ok
    exact flushedFits filling
  | cons idx order ih =>
    have fresh := @fillingNone _ chunks _ _ positive some_
    unfold groupBySeconds at ok
    obtain ⟨chunk,found,ok⟩ := exceptBind.mp ok
    have seconds : chunkAudioSeconds chunk.wav.length = secondsOf chunks idx := by
      rw [secondsOf,okOrOk.mp found]
      rfl
    dsimp only at ok
    rw [seconds] at ok
    split at ok
    · next long =>
      obtain ⟨later,rest,made⟩ := exceptBind.mp ok
      cases made
      intro group inside
      rcases List.mem_append.mp inside with before | behind
      · exact flushedFits filling group before
      · rcases List.mem_cons.mp behind with rfl | behind
        · exact ⟨by simp,positive,.inr ⟨idx,rfl,long⟩⟩
        · exact ih fresh rest group behind
    · next short =>
      have opens := opensFits positive filling (not_lt.mp short)
      have closed : ∀ group ∈ (if closesBefore countCap budget current currentSec (secondsOf chunks idx) then flushed current
          else []), Fits chunks countCap budget group := by
        split
        · exact flushedFits filling
        · exact fun _ inside => (by cases inside)
      dsimp only at opens
      generalize (if closesBefore countCap budget current currentSec (secondsOf chunks idx) then flushed current else []) =
        before at ok closed
      generalize (if closesBefore countCap budget current currentSec (secondsOf chunks idx) then [idx] else current ++ [idx]) =
        opened at ok opens
      generalize (if closesBefore countCap budget current currentSec (secondsOf chunks idx) then secondsOf chunks idx
        else currentSec+secondsOf chunks idx) = openedSec at ok opens
      obtain ⟨fits,total,within⟩ := opens
      split at ok
      · obtain ⟨later,rest,made⟩ := exceptBind.mp ok
        cases made
        intro group inside
        rcases List.mem_append.mp inside with before | behind
        · exact closed group before
        · rcases List.mem_cons.mp behind with rfl | behind
          · exact fits
          · exact ih fresh rest group behind
      · next room =>
        obtain ⟨later,rest,made⟩ := exceptBind.mp ok
        cases made
        intro group inside
        rcases List.mem_append.mp inside with before | behind
        · exact closed group before
        · exact ih ⟨not_le.mp room,total,within⟩ rest group behind

theorem secondsKnown (ok : groupBySeconds chunks countCap budget current currentSec order = .ok groups) :
    ∀ idx ∈ order, idx < chunks.length := by
  induction order generalizing current currentSec groups with
  | nil => exact fun _ inside => (by cases inside)
  | cons idx order ih =>
    unfold groupBySeconds at ok
    obtain ⟨chunk,found,ok⟩ := exceptBind.mp ok
    have here : idx < chunks.length := (List.getElem?_eq_some_iff.mp (okOrOk.mp found)).1
    dsimp only at ok
    generalize (if closesBefore _ _ _ _ _ then flushed current else []) = before at ok
    generalize (if closesBefore _ _ _ _ _ then [idx] else current ++ [idx]) = opened at ok
    split_ifs at ok <;> obtain ⟨later,rest,_⟩ := exceptBind.mp ok <;> exact List.forall_mem_cons.mpr ⟨here,ih rest⟩

theorem secondsOrder (ok : groupBySeconds chunks countCap budget current currentSec order = .ok groups) :
    groups.flatten = current ++ order := by
  obtain ⟨same,made,joined⟩ := secondsGroups (secondsKnown ok) current currentSec
  rw [made] at ok
  cases ok
  exact joined

/-- The groups hold the indices in their order. None is empty or has more chunks than the cap, and with a budget each
stays within it and a tolerance, or is one chunk that is too long by itself. There are such groups whenever the indices
are those of chunks. -/
theorem groupsFit (order : List Nat) (chunks : List (ChunkItem K)) (maxBatchSize : Nat) (budget : ℚ) :
    (∀ groups, groupChunkIndices order chunks maxBatchSize budget = .ok groups → groups.flatten = order ∧
      (∀ group ∈ groups, group ≠ [] ∧ group.length ≤ effectiveMaxBatchCount maxBatchSize order.length) ∧
      (0 < budget → ∀ group ∈ groups, Bounded chunks budget group)) ∧
    ((∀ idx ∈ order, idx < chunks.length) → ∃ groups, groupChunkIndices order chunks maxBatchSize budget = .ok groups) := by
  refine ⟨fun groups ok => ?_,fun known => ?_⟩
  · have positive : 0 < effectiveMaxBatchCount maxBatchSize order.length := by
      unfold effectiveMaxBatchCount
      split <;> omega
    unfold groupChunkIndices at ok
    split at ok
    · next empty =>
      cases ok
      exact ⟨empty.symm,fun _ inside => (by cases inside),fun _ _ inside => (by cases inside)⟩
    dsimp only at ok
    split at ok
    · next none_ =>
      cases ok
      have enough := (ceilDiv_le_iff_le_smul positive).mp (le_refl (order.length ⌈/⌉ effectiveMaxBatchCount maxBatchSize order.length))
      rw [smul_eq_mul,Nat.mul_comm] at enough
      refine ⟨by rw [cutFlatten,List.take_of_length_le enough],cutBounds positive ?_,fun some_ => absurd some_ (not_lt.mpr none_)⟩
      rw [Nat.ceilDiv_eq_add_pred_div]
      exact (Nat.div_mul_le_self _ _).trans_lt (by omega)
    · next some_ =>
      have some_ := not_le.mp some_
      have fits := secondsFits positive some_ (fillingNone positive some_) ok
      exact ⟨secondsOrder ok,fun group inside => ⟨(fits group inside).some_,(fits group inside).count⟩,
        fun _ group inside => (fits group inside).seconds⟩
  · obtain ⟨groups,ok,_⟩ := indexGroups known maxBatchSize budget
    exact ⟨groups,ok⟩

def twoSamples : List (ChunkItem Nat) := [⟨0,[1]⟩,⟨1,[1]⟩]

/- Two samples are over the budget by less than the tolerance; without a budget the seconds are not looked at. -/
theorem budgetExceeded :
    groupChunkIndices [0,1] twoSamples 2 (1/8000-1/2^24) = .ok [[0,1]] ∧ 1/8000-1/2^24 < totalSeconds twoSamples [0,1] ∧
    groupChunkIndices [0,1] twoSamples 2 0 = .ok [[0,1]] ∧ 0 < totalSeconds twoSamples [0,1] ∧
    secondsOf twoSamples 0 < 1/8000-1/2^24 := by
  decide +kernel

end Qwen3Asr.ChunkGroups
