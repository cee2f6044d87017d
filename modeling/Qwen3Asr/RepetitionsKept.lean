import Qwen3Asr.Repetitions

/-! What the compression of repetitions keeps: whole repetitions are cut down to one unit each, and a text without any
is left as it is. -/
namespace Qwen3Asr.RepetitionsKept
open Library.Compression Repetitions

/- Repetitions that are cut down: runs of one character beyond the threshold, and short units up to it. -/
def LongRun (threshold : Nat) (unit : List Char) (times : Nat) : Prop := (∃ c, unit = [c]) ∧ threshold < times

def LongRepetition (threshold : Nat) (unit : List Char) (times : Nat) : Prop :=
  1 ≤ unit.length ∧ unit.length ≤ MAX_PATTERN_LEN ∧ threshold ≤ times

section Runs
variable {thresh : Nat}

theorem pushRunCut (c : Char) {count : Nat} {rest out : List Char} (stop : rest.head? ≠ some c)
    (behind : CompressedBy (LongRun thresh) rest out) :
    CompressedBy (LongRun thresh) (List.replicate count c ++ rest) (pushRun thresh c count ++ out) := by
  unfold pushRun
  split_ifs with long
  · have whole : ¬[c] <+: rest := by
      intro more
      obtain ⟨later,rfl⟩ := more
      exact stop rfl
    have cut := CompressedBy.unit ⟨⟨c,rfl⟩,long⟩ whole behind
    rwa [List.flatten_replicate_singleton] at cut
  · exact compressedByFront _ behind

theorem fixRunsCut (c : Char) {count : Nat} (rest : List Char) :
    CompressedBy (LongRun thresh) (List.replicate count c ++ rest) (fixRunsFrom thresh c count rest) := by
  induction rest generalizing c count with
  | nil =>
    rw [fixRunsFrom,← List.append_nil (pushRun thresh c count)]
    exact pushRunCut c (by simp) .done
  | cons d rest ih =>
    unfold fixRunsFrom
    split_ifs with same
    · subst same
      have whole := @ih d (count+1)
      rwa [List.replicate_succ',List.append_assoc,List.singleton_append] at whole
    · exact pushRunCut c (by simpa using same) (@ih d 1)

theorem fixCharCut (chars : List Char) : CompressedBy (LongRun thresh) chars (fixCharRepeats thresh chars) := by
  cases chars with
  | nil => exact .done
  | cons c rest => exact @fixRunsCut thresh c 1 rest

end Runs

section Units
variable {thresh k : Nat} {chars unit : List Char}

theorem skipUnitsEnd (some_ : unit ≠ []) {turns : Nat} (enough : chars.length ≤ turns) : ¬unit <+: skipUnits unit turns chars := by
  have positive := List.length_pos_of_ne_nil some_
  induction turns generalizing chars with
  | zero =>
    obtain rfl := List.length_eq_zero_iff.mp (Nat.le_zero.mp enough)
    intro more
    exact some_ (List.prefix_nil.mp more)
  | succ turns ih =>
    unfold skipUnits
    split_ifs with here
    · exact ih (by rw [List.length_drop]; omega)
    · intro more
      exact here ⟨more.length_le,(List.prefix_iff_eq_take.mp more).symm⟩

theorem fixPatternCut (positive : 0 < thresh) (chars : List Char) :
    CompressedBy (LongRepetition thresh) chars (fixPatternRepeats thresh MAX_PATTERN_LEN chars) := by
  induction chars using scanInduction MAX_PATTERN_LEN positive with
  | stops chars short =>
    rw [fixPatternShort short]
    exact compressedBySame chars
  | next chars long none_ rest =>
    rw [fixPatternNext positive long none_]
    have whole := compressedByFront (chars.take 1) rest
    rwa [List.take_append_drop] at whole
  | unit chars k long found repeated rest =>
    obtain ⟨more,whole⟩ := afterUnitsWhole repeated
    have unit : (chars.take k).length = k :=
      List.length_take_of_le ((Nat.le_mul_of_pos_right k positive).trans repeated.fits)
    have least := repeated.some_
    have ended : ¬chars.take k <+: afterUnits thresh chars k :=
      skipUnitsEnd (List.ne_nil_of_length_pos (by omega)) (le_refl _)
    rw [fixPatternUnit positive long found]
    have long : LongRepetition thresh (chars.take k) (thresh+more) :=
      ⟨by omega,unit.trans_le repeated.bound,Nat.le_add_right thresh more⟩
    have units := CompressedBy.unit long ended rest
    rwa [← whole] at units

def NoRepetition (threshold : Nat) (chars : List Char) : Prop := ∀ unit : List Char, 1 ≤ unit.length →
  unit.length ≤ MAX_PATTERN_LEN → ¬(List.replicate threshold unit).flatten <:+: chars

theorem repetitionFree (positive : 0 < thresh) (none_ : NoRepetition thresh chars) : ¬Compressible thresh MAX_PATTERN_LEN chars := by
  rintro ⟨i,k,scanned,repeated⟩
  have unit : ((chars.drop i).take k).length = k :=
    List.length_take_of_le ((Nat.le_mul_of_pos_right k positive).trans repeated.fits)
  have units := unitsFound repeated.same
  have inside : (List.replicate thresh ((chars.drop i).take k)).flatten <+: chars.drop i := ⟨_,units.symm⟩
  exact none_ _ (repeated.some_.trans_eq unit.symm) (unit.trans_le repeated.bound)
    (inside.isInfix.trans (List.drop_suffix i chars).isInfix)

end Units

/-- A text without a long run and without a repeated unit is left as it is. From any text the output comes by cutting
down long runs to a character each, then repeated units to a unit each; all else is kept in its order. -/
theorem repetitionsKept (text : String) (threshold : Nat) (positive : 0 < threshold) :
    (NoLongRun threshold text.toList → NoRepetition threshold text.toList → detectAndFixRepetitions text threshold = text) ∧
    ∃ first, CompressedBy (LongRun threshold) text.toList first ∧
      CompressedBy (LongRepetition threshold) first (detectAndFixRepetitions text threshold).toList := by
  refine ⟨fun short none_ => (detectedSame positive short).mpr (.inr (repetitionFree positive none_)),
    fixCharRepeats threshold text.toList,fixCharCut _,?_⟩
  rw [detectAndFixRepetitions,String.toList_ofList]
  exact fixPatternCut positive _

theorem repetitionsKeptSix : ∃ first, CompressedBy (LongRun 2) "aaabab".toList first ∧
    CompressedBy (LongRepetition 2) first (detectAndFixRepetitions "aaabab" 2).toList :=
  (repetitionsKept "aaabab" 2 (by decide)).2

example : detectAndFixRepetitions "aaababab!" 2 = "ab!" := by decide +kernel

end Qwen3Asr.RepetitionsKept
