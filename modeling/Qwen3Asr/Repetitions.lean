import Qwen3Asr.Library.Compression

/-! Compression of repetitions in decoded text: long runs of one character first, then repeated units. Thresholds
start at one. -/
namespace Qwen3Asr.Repetitions
open Library.Compression

def MAX_PATTERN_LEN : Nat := 20

section Passes
variable (thresh maxLen : Nat)

def pushRun (c : Char) (count : Nat) : List Char := if thresh < count then [c] else List.replicate count c

def fixRunsFrom (c : Char) : Nat → List Char → List Char
  | count, [] => pushRun thresh c count
  | count, d::rest => if d = c then fixRunsFrom c (count+1) rest else pushRun thresh c count ++ fixRunsFrom d 1 rest

def fixCharRepeats : List Char → List Char
  | [] => []
  | c::rest => fixRunsFrom thresh c 1 rest

def valid (chars : List Char) (k : Nat) : Bool :=
  (List.range' 1 (thresh-1)).all fun rep => (chars.drop (rep*k)).take k = chars.take k

def pattern (chars : List Char) : Option Nat :=
  ((List.range' 1 maxLen).takeWhile fun k => k*thresh ≤ chars.length).find? (valid thresh chars)

/- Each turn takes a whole unit, so there are no more turns than characters. -/
def skipUnits (unit : List Char) : Nat → List Char → List Char
  | 0, chars => chars
  | turns+1, chars =>
    if unit.length ≤ chars.length ∧ chars.take unit.length = unit then skipUnits unit turns (chars.drop unit.length)
    else chars

/- The scan that moves on by a character and the call for what follows a unit both look at the rest of the text
alone. Each turn takes a character at least. -/
def fixPatternTurns : Nat → List Char → List Char
  | 0, chars => chars
  | turns+1, chars =>
    if chars.length < thresh*2 then chars else
    match pattern thresh maxLen chars with
    | some k =>
      let behind := chars.drop (thresh*k)
      chars.take k ++ fixPatternTurns turns (skipUnits (chars.take k) behind.length behind)
    | none => chars.take 1 ++ fixPatternTurns turns (chars.drop 1)

def fixPatternRepeats (chars : List Char) : List Char := fixPatternTurns thresh maxLen chars.length chars

def detectAndFixRepetitions (text : String) (threshold : Nat) : String :=
  String.ofList (fixPatternRepeats threshold MAX_PATTERN_LEN (fixCharRepeats threshold text.toList))

end Passes

section Runs
variable {thresh : Nat}

def NoLongRun (thresh : Nat) (chars : List Char) : Prop := ∀ c, ¬List.replicate (thresh+1) c <:+: chars

theorem pushRunCompressed (c : Char) {count : Nat} (some_ : 0 < count) {rest out : List Char} (behind : Compressed rest out) :
    Compressed (List.replicate count c ++ rest) (pushRun thresh c count ++ out) := by
  unfold pushRun
  split_ifs
  · obtain ⟨more,rfl⟩ := Nat.exists_eq_succ_of_ne_zero some_.ne'
    have whole := Compressed.unit [c] more behind
    rwa [List.flatten_replicate_singleton] at whole
  · exact compressedFront _ behind

theorem fixRunsCompressed (c : Char) {count : Nat} (some_ : 0 < count) (rest : List Char) :
    Compressed (List.replicate count c ++ rest) (fixRunsFrom thresh c count rest) := by
  induction rest generalizing c count with
  | nil =>
    rw [fixRunsFrom,← List.append_nil (pushRun thresh c count)]
    exact pushRunCompressed c some_ (.same [])
  | cons d rest ih =>
    unfold fixRunsFrom
    split_ifs with same
    · subst same
      have whole := ih d (Nat.succ_pos count)
      rwa [List.replicate_succ',List.append_assoc,List.singleton_append] at whole
    · exact pushRunCompressed c some_ (ih d Nat.one_pos)

theorem fixCharCompressed (chars : List Char) : Compressed chars (fixCharRepeats thresh chars) := by
  cases chars with
  | nil => exact .same []
  | cons c rest => exact fixRunsCompressed c Nat.one_pos rest

theorem pushRunSame {c : Char} {count : Nat} (short : count ≤ thresh) : pushRun thresh c count = List.replicate count c :=
  if_neg (Nat.not_lt.mpr short)

theorem pushRunReplicate (positive : 0 < thresh) (c : Char) (count : Nat) :
    ∃ n ≤ thresh, pushRun thresh c count = List.replicate n c := by
  unfold pushRun
  split_ifs with long
  · exact ⟨1,positive,rfl⟩
  · exact ⟨count,Nat.le_of_not_lt long,rfl⟩

theorem replicateShort {c : Char} {n : Nat} (short : n ≤ thresh) : NoLongRun thresh (List.replicate n c) := by
  intro d run
  have fits := (List.infix_replicate_iff.mp run).1
  rw [List.length_replicate] at fits
  omega

theorem appendShort {front behind : List Char} (before : NoLongRun thresh front) (after : NoLongRun thresh behind)
    (apart : ∀ c ∈ front, behind.head? ≠ some c) : NoLongRun thresh (front ++ behind) := by
  intro c run
  rcases List.infix_append_iff_ne_nil.mp run with inside | later | ⟨x,y,some_,more,split,left,right⟩
  · exact before c inside
  · exact after c later
  · obtain ⟨a,b,_,rfl,rfl⟩ := replicateSplit split
    have held : c ∈ front := left.subset (List.mem_replicate.mpr ⟨fun zero => some_ (by rw [zero]; rfl),rfl⟩)
    have long : b ≠ 0 := fun zero => more (by rw [zero]; rfl)
    obtain ⟨m,rfl⟩ := Nat.exists_eq_succ_of_ne_zero long
    obtain ⟨rest,rfl⟩ := right
    exact apart c held rfl

theorem fixRunsShort (positive : 0 < thresh) (c : Char) {count : Nat} (rest : List Char) :
    NoLongRun thresh (fixRunsFrom thresh c count rest) := by
  induction rest generalizing c count with
  | nil =>
    obtain ⟨n,short,same⟩ := pushRunReplicate positive c count
    rw [fixRunsFrom,same]
    exact replicateShort short
  | cons d rest ih =>
    unfold fixRunsFrom
    split_ifs with same
    · exact ih c
    · obtain ⟨n,short,pushed⟩ := pushRunReplicate positive c count
      rw [pushed]
      refine appendShort (replicateShort short) (ih d) fun e inside => ?_
      rw [compressedHead (fixRunsCompressed d Nat.one_pos rest),List.eq_of_mem_replicate inside]
      exact fun head => same (Option.some.inj head)

theorem runFits {c : Char} {count : Nat} {rest : List Char} (short : NoLongRun thresh (List.replicate count c ++ rest)) :
    count ≤ thresh := by
  by_contra long
  have run : List.replicate (thresh+1) c <:+: List.replicate count c :=
    List.infix_replicate_iff.mpr ⟨by rw [List.length_replicate]; omega,by rw [List.length_replicate]⟩
  exact short c (List.infix_append_of_infix_left run)

theorem fixRunsSame (c : Char) {count : Nat} {rest : List Char} (short : NoLongRun thresh (List.replicate count c ++ rest)) :
    fixRunsFrom thresh c count rest = List.replicate count c ++ rest := by
  induction rest generalizing c count with
  | nil => rw [fixRunsFrom,pushRunSame (runFits short),List.append_nil]
  | cons d rest ih =>
    unfold fixRunsFrom
    split_ifs with same
    · subst same
      have regrouped : List.replicate count d ++ d::rest = List.replicate (count+1) d ++ rest := by
        rw [List.replicate_succ',List.append_assoc,List.singleton_append]
      rw [regrouped] at short ⊢
      exact ih d short
    · have behind : NoLongRun thresh (List.replicate 1 d ++ rest) := fun e run =>
        short e (List.infix_append_of_infix_right (show _ <:+: d::rest from run))
      rw [pushRunSame (runFits short),ih d behind]
      rfl

theorem fixCharShort (positive : 0 < thresh) (chars : List Char) : NoLongRun thresh (fixCharRepeats thresh chars) := by
  cases chars with
  | nil =>
    intro c run
    cases List.infix_nil.mp run
  | cons c rest => exact fixRunsShort positive c rest

theorem fixCharSame {chars : List Char} (short : NoLongRun thresh chars) : fixCharRepeats thresh chars = chars := by
  cases chars with
  | nil => rfl
  | cons c rest => exact fixRunsSame c short

end Runs

section Units
variable {thresh maxLen k : Nat} {chars : List Char}

theorem unitsFound {times : Nat} (same : ∀ rep < times, (chars.drop (rep*k)).take k = chars.take k) :
    chars = (List.replicate times (chars.take k)).flatten ++ chars.drop (times*k) := by
  induction times with
  | zero => simp
  | succ times ih =>
    have front := ih fun rep less => same rep (Nat.lt_succ_of_lt less)
    rw [unitsLast,Nat.succ_mul]
    have last : chars.drop (times*k) = chars.take k ++ chars.drop (times*k+k) := by
      rw [← same times (Nat.lt_succ_self times),← List.drop_drop,List.take_append_drop]
    rw [← last]
    exact front

theorem validIff (positive : 0 < thresh) :
    valid thresh chars k = true ↔ ∀ rep < thresh, (chars.drop (rep*k)).take k = chars.take k := by
  rw [valid,List.all_eq_true]
  constructor
  · intro all rep less
    cases rep with
    | zero => rw [Nat.zero_mul,List.drop_zero]
    | succ rep => exact of_decide_eq_true (all (rep+1) (List.mem_range'_1.mpr ⟨by omega,by omega⟩))
  · intro all rep inside
    obtain ⟨_,less⟩ := List.mem_range'_1.mp inside
    exact decide_eq_true (all rep (by omega))

theorem memFitting {start count : Nat} : k ∈ (List.range' start count).takeWhile (fun k => k*thresh ≤ chars.length) ↔
    start ≤ k ∧ k < start+count ∧ k*thresh ≤ chars.length := by
  induction count generalizing start with
  | zero => exact ⟨fun inside => (by cases inside),fun ⟨after,before,_⟩ => absurd before (Nat.not_lt.mpr after)⟩
  | succ count ih =>
    rw [List.range'_succ]
    by_cases fits : start*thresh ≤ chars.length
    · rw [List.takeWhile_cons_of_pos (by exact decide_eq_true fits),List.mem_cons,ih]
      constructor
      · rintro (rfl | ⟨after,before,short⟩)
        · exact ⟨le_refl k,by omega,fits⟩
        · exact ⟨by omega,by omega,short⟩
      · rintro ⟨after,before,short⟩
        rcases Nat.eq_or_lt_of_le after with rfl | later
        · exact .inl rfl
        · exact .inr ⟨later,by omega,short⟩
    · rw [List.takeWhile_cons_of_neg (by rwa [decide_eq_true_eq])]
      refine ⟨fun inside => (by cases inside),fun ⟨after,_,short⟩ => absurd ?_ fits⟩
      exact (Nat.mul_le_mul_right thresh after).trans short

structure Repeated (thresh maxLen : Nat) (chars : List Char) (k : Nat) : Prop where
  some_ : 1 ≤ k
  bound : k ≤ maxLen
  fits : k*thresh ≤ chars.length
  same : ∀ rep < thresh, (chars.drop (rep*k)).take k = chars.take k

theorem patternSome (positive : 0 < thresh) (found : pattern thresh maxLen chars = some k) : Repeated thresh maxLen chars k := by
  obtain ⟨after,before,fits⟩ := memFitting.mp (List.mem_of_find?_eq_some found)
  exact ⟨after,by omega,fits,(validIff positive).mp (List.find?_some found)⟩

theorem patternNone (positive : 0 < thresh) :
    pattern thresh maxLen chars = none ↔ ∀ k, ¬Repeated thresh maxLen chars k := by
  rw [pattern,List.find?_eq_none]
  constructor
  · intro none_ k repeated
    exact none_ k (memFitting.mpr ⟨repeated.some_,by have bound := repeated.bound; omega,repeated.fits⟩)
      ((validIff positive).mpr repeated.same)
  · intro none_ k inside valid_
    obtain ⟨after,before,fits⟩ := memFitting.mp inside
    exact none_ k ⟨after,by omega,fits,(validIff positive).mp valid_⟩

theorem skipUnitsWhole (unit : List Char) (turns : Nat) (chars : List Char) :
    ∃ more, chars = (List.replicate more unit).flatten ++ skipUnits unit turns chars := by
  induction turns generalizing chars with
  | zero => exact ⟨0,rfl⟩
  | succ turns ih =>
    unfold skipUnits
    split_ifs with here
    · obtain ⟨more,whole⟩ := ih (chars.drop unit.length)
      refine ⟨more+1,?_⟩
      rw [unitsFirst,← whole]
      have front := here.2
      calc chars = chars.take unit.length ++ chars.drop unit.length := (List.take_append_drop _ _).symm
        _ = unit ++ chars.drop unit.length := by rw [front]
    · exact ⟨0,rfl⟩

def afterUnits (thresh : Nat) (chars : List Char) (k : Nat) : List Char :=
  skipUnits (chars.take k) (chars.drop (thresh*k)).length (chars.drop (thresh*k))

theorem afterUnitsWhole (repeated : Repeated thresh maxLen chars k) :
    ∃ more, chars = (List.replicate (thresh+more) (chars.take k)).flatten ++ afterUnits thresh chars k := by
  obtain ⟨more,behind⟩ := skipUnitsWhole (chars.take k) (chars.drop (thresh*k)).length (chars.drop (thresh*k))
  have front := unitsFound repeated.same
  refine ⟨more,?_⟩
  rw [List.replicate_add,List.flatten_append,List.append_assoc,afterUnits,← behind]
  exact front

theorem afterUnitsLength (positive : 0 < thresh) (repeated : Repeated thresh maxLen chars k) :
    (afterUnits thresh chars k).length+thresh*k ≤ chars.length := by
  obtain ⟨more,whole⟩ := afterUnitsWhole repeated
  have unit : (chars.take k).length = k :=
    List.length_take_of_le ((Nat.le_mul_of_pos_right k positive).trans repeated.fits)
  have total := congrArg List.length whole
  rw [List.length_append,List.length_flatten,List.map_replicate,List.sum_replicate_nat,unit,Nat.add_mul] at total
  omega

end Units

section Recursion
variable {thresh maxLen : Nat} {chars : List Char}

theorem turnsEnough (positive : 0 < thresh) {m n : Nat} (left : chars.length ≤ m) (right : chars.length ≤ n) :
    fixPatternTurns thresh maxLen m chars = fixPatternTurns thresh maxLen n chars := by
  induction m generalizing n chars with
  | zero =>
    obtain rfl := List.length_eq_zero_iff.mp (Nat.le_zero.mp left)
    cases n with
    | zero => rfl
    | succ n => rw [fixPatternTurns,fixPatternTurns,if_pos (by simpa using positive)]
  | succ m ih =>
    cases n with
    | zero =>
      obtain rfl := List.length_eq_zero_iff.mp (Nat.le_zero.mp right)
      rw [fixPatternTurns,fixPatternTurns,if_pos (by simpa using positive)]
    | succ n =>
      unfold fixPatternTurns
      split_ifs with short
      · rfl
      cases found : pattern thresh maxLen chars with
      | none =>
        dsimp only
        have shorter : (chars.drop 1).length = chars.length-1 := List.length_drop
        rw [@ih (chars.drop 1) n (by omega) (by omega)]
      | some k =>
        dsimp only
        have repeated := patternSome positive found
        have shorter := afterUnitsLength positive repeated
        have taken := Nat.mul_pos positive repeated.some_
        exact congrArg _ (@ih (afterUnits thresh chars k) n (by omega) (by omega))

theorem fixPatternShort (short : chars.length < thresh*2) : fixPatternRepeats thresh maxLen chars = chars := by
  unfold fixPatternRepeats
  cases chars with
  | nil => rfl
  | cons c rest => rw [List.length_cons,fixPatternTurns,if_pos short]

theorem fixPatternUnit (positive : 0 < thresh) (long : ¬chars.length < thresh*2) {k : Nat}
    (found : pattern thresh maxLen chars = some k) :
    fixPatternRepeats thresh maxLen chars = chars.take k ++ fixPatternRepeats thresh maxLen (afterUnits thresh chars k) := by
  have repeated := patternSome positive found
  have shorter := afterUnitsLength positive repeated
  have taken := Nat.mul_pos positive repeated.some_
  obtain ⟨n,length⟩ := Nat.exists_eq_succ_of_ne_zero (show chars.length ≠ 0 by omega)
  unfold fixPatternRepeats
  rw [length,fixPatternTurns,if_neg long,found]
  exact congrArg _ (@turnsEnough _ _ (afterUnits thresh chars k) positive n _ (by omega) (le_refl _))

theorem fixPatternNext (positive : 0 < thresh) (long : ¬chars.length < thresh*2) (none_ : pattern thresh maxLen chars = none) :
    fixPatternRepeats thresh maxLen chars = chars.take 1 ++ fixPatternRepeats thresh maxLen (chars.drop 1) := by
  obtain ⟨n,length⟩ := Nat.exists_eq_succ_of_ne_zero (show chars.length ≠ 0 by omega)
  have shorter : (chars.drop 1).length = chars.length-1 := List.length_drop
  unfold fixPatternRepeats
  rw [length,fixPatternTurns,if_neg long,none_]
  exact congrArg _ (turnsEnough positive (by omega) (le_refl _))

/- The scan stops close to the end, and goes on behind one character or behind all the units of a pattern. -/
theorem scanInduction {P : List Char → Prop} (maxLen : Nat) (positive : 0 < thresh)
    (stops : ∀ chars, chars.length < thresh*2 → P chars)
    (next : ∀ chars, ¬chars.length < thresh*2 → pattern thresh maxLen chars = none → P (chars.drop 1) → P chars)
    (unit : ∀ chars k, ¬chars.length < thresh*2 → pattern thresh maxLen chars = some k → Repeated thresh maxLen chars k →
      P (afterUnits thresh chars k) → P chars) (chars : List Char) : P chars := by
  induction length : chars.length using Nat.strong_induction_on generalizing chars with
  | _ n ih =>
    subst length
    by_cases short : chars.length < thresh*2
    · exact stops chars short
    cases found : pattern thresh maxLen chars with
    | none =>
      have shorter : (chars.drop 1).length = chars.length-1 := List.length_drop
      exact next chars short found (ih _ (by omega) (chars.drop 1) rfl)
    | some k =>
      have repeated := patternSome positive found
      have shorter := afterUnitsLength positive repeated
      have taken := Nat.mul_pos positive repeated.some_
      exact unit chars k short found repeated (ih _ (by omega) (afterUnits thresh chars k) rfl)

theorem fixPatternCompressed (positive : 0 < thresh) (chars : List Char) :
    Compressed chars (fixPatternRepeats thresh maxLen chars) := by
  induction chars using scanInduction maxLen positive with
  | stops chars short =>
    rw [fixPatternShort short]
    exact .same chars
  | next chars long none_ rest =>
    rw [fixPatternNext positive long none_]
    have whole := compressedFront (chars.take 1) rest
    rwa [List.take_append_drop] at whole
  | unit chars k long found repeated rest =>
    obtain ⟨more,whole⟩ := afterUnitsWhole repeated
    rw [fixPatternUnit positive long found]
    have units := Compressed.unit (chars.take k) (thresh-1+more) rest
    have times : thresh-1+more+1 = thresh+more := by omega
    rwa [times,← whole] at units

def Compressible (thresh maxLen : Nat) (chars : List Char) : Prop :=
  ∃ i k, i+thresh*2 ≤ chars.length ∧ Repeated thresh maxLen (chars.drop i) k

theorem notCompressible (short : chars.length < thresh*2) : ¬Compressible thresh maxLen chars := by
  rintro ⟨i,k,scanned,_⟩
  omega

theorem compressibleNext (positive : 0 < thresh) (long : ¬chars.length < thresh*2)
    (none_ : pattern thresh maxLen chars = none) :
    Compressible thresh maxLen chars ↔ Compressible thresh maxLen (chars.drop 1) := by
  constructor
  · rintro ⟨i,k,scanned,repeated⟩
    cases i with
    | zero => exact absurd repeated ((patternNone positive).mp none_ k)
    | succ i =>
      refine ⟨i,k,by rw [List.length_drop]; omega,?_⟩
      rwa [List.drop_drop,Nat.add_comm 1 i]
  · rintro ⟨i,k,scanned,repeated⟩
    rw [List.length_drop] at scanned
    rw [List.drop_drop] at repeated
    exact ⟨1+i,k,by omega,repeated⟩

theorem fixPatternSame (several : 1 < thresh) (chars : List Char) :
    fixPatternRepeats thresh maxLen chars = chars ↔ ¬Compressible thresh maxLen chars := by
  have positive := Nat.lt_of_succ_lt several
  induction chars using scanInduction maxLen positive with
  | stops chars short => exact iff_of_true (fixPatternShort short) (notCompressible short)
  | next chars long none_ rest =>
    rw [fixPatternNext positive long none_]
    refine Iff.trans ⟨?_,?_⟩ (rest.trans (not_congr (compressibleNext positive long none_)).symm)
    · exact fun same => List.append_cancel_left (same.trans (List.take_append_drop 1 chars).symm)
    · intro same
      rw [same,List.take_append_drop]
  | unit chars k long found repeated _ =>
    have least := repeated.some_
    have shorter := afterUnitsLength positive repeated
    have twice : 2*k ≤ thresh*k := Nat.mul_le_mul_right k several
    have behind : Compressed (afterUnits thresh chars k) (fixPatternRepeats thresh maxLen (afterUnits thresh chars k)) :=
      fixPatternCompressed positive _
    refine iff_of_false (fun same => ?_) (not_not.mpr ⟨0,k,by omega,repeated⟩)
    have total := congrArg List.length same
    have less := (compressedSublist behind).length_le
    rw [fixPatternUnit positive long found,List.length_append,List.length_take] at total
    omega

theorem patternOnce (some_ : 0 < maxLen) (more : 0 < chars.length) : pattern 1 maxLen chars = some 1 := by
  obtain ⟨n,rfl⟩ := Nat.exists_eq_succ_of_ne_zero some_.ne'
  unfold pattern
  rw [List.range'_succ,List.takeWhile_cons_of_pos (by exact decide_eq_true more)]
  rfl

theorem fixPatternOnce (some_ : 0 < maxLen) (single : NoLongRun 1 chars) : fixPatternRepeats 1 maxLen chars = chars := by
  induction chars with
  | nil => rfl
  | cons c rest ih =>
    cases rest with
    | nil => exact fixPatternShort (Nat.lt_succ_self 1)
    | cons d rest =>
      have apart : d ≠ c := by
        rintro rfl
        exact single d ⟨[],rest,rfl⟩
      have stop : afterUnits 1 (c::d::rest) 1 = d::rest := by
        have other : ¬([c].length ≤ (d::rest).length ∧ (d::rest).take [c].length = [c]) := by
          rintro ⟨_,same⟩
          exact apart (List.cons.inj same).1
        exact if_neg other
      have behind : NoLongRun 1 (d::rest) := fun e run => single e (run.trans (List.suffix_cons c _).isInfix)
      have found : pattern 1 maxLen (c::d::rest) = some 1 := patternOnce some_ (Nat.succ_pos _)
      have long : ¬(c::d::rest).length < 1*2 := Nat.not_lt.mpr (Nat.le_add_left 2 rest.length)
      rw [fixPatternUnit Nat.one_pos long found,stop,ih behind]
      rfl

end Recursion

section Application
variable {threshold : Nat}

theorem detectedCompressed (positive : 0 < threshold) (text : String) :
    ∃ first, Compressed text.toList first ∧ NoLongRun threshold first ∧
      Compressed first (detectAndFixRepetitions text threshold).toList := by
  refine ⟨fixCharRepeats threshold text.toList,fixCharCompressed _,fixCharShort positive _,?_⟩
  rw [detectAndFixRepetitions,String.toList_ofList]
  exact fixPatternCompressed positive _

theorem detectedShort (positive : 0 < threshold) (text : String) :
    NoLongRun threshold (detectAndFixRepetitions text threshold).toList := by
  obtain ⟨first,_,short,second⟩ := detectedCompressed positive text
  exact fun c run => short c (compressedRuns second run)

theorem detectedSublist (positive : 0 < threshold) (text : String) :
    (detectAndFixRepetitions text threshold).toList.Sublist text.toList := by
  obtain ⟨first,before,_,second⟩ := detectedCompressed positive text
  exact (compressedSublist second).trans (compressedSublist before)

theorem detectedAgain {text : String} (short : NoLongRun threshold text.toList) : detectAndFixRepetitions text threshold = text ↔
    fixPatternRepeats threshold MAX_PATTERN_LEN text.toList = text.toList := by
  rw [detectAndFixRepetitions,fixCharSame short,← String.toList_inj,String.toList_ofList]

theorem detectedSame (positive : 0 < threshold) {text : String} (short : NoLongRun threshold text.toList) :
    detectAndFixRepetitions text threshold = text ↔ threshold = 1 ∨ ¬Compressible threshold MAX_PATTERN_LEN text.toList := by
  rw [detectedAgain short]
  rcases Nat.eq_or_lt_of_le positive with once | several
  · subst once
    exact iff_of_true (fixPatternOnce (by decide) short) (.inl rfl)
  · rw [fixPatternSame several]
    exact (or_iff_right several.ne').symm

/- Where the second pass found nothing, there is nothing left to find. -/
theorem detectedOnce (positive : 0 < threshold) {text : String}
    (unchanged : (detectAndFixRepetitions text threshold).toList = fixCharRepeats threshold text.toList) :
    detectAndFixRepetitions (detectAndFixRepetitions text threshold) threshold = detectAndFixRepetitions text threshold := by
  rw [detectedAgain (detectedShort positive text),unchanged]
  rw [detectAndFixRepetitions,String.toList_ofList] at unchanged
  exact unchanged

theorem detectedShrinks (positive : 0 < threshold) (text : String) :
    detectAndFixRepetitions text threshold = text ∨ (detectAndFixRepetitions text threshold).length < text.length := by
  have sublist := detectedSublist positive text
  rcases Nat.eq_or_lt_of_le sublist.length_le with same | less
  · exact .inl (String.toList_inj.mp (sublist.eq_of_length same))
  · exact .inr less

/-- The output holds no run longer than the threshold. A second application leaves it alone where the second pass
found nothing in the first one, and exactly where no unit in the scanned part of the output is repeated up to the
threshold. Every application leaves the text alone or shortens it, so as many applications as the text has
characters reach a text that is left alone. -/
theorem repetitionsSettle (text : String) (threshold : Nat) (positive : 0 < threshold) :
    NoLongRun threshold (detectAndFixRepetitions text threshold).toList ∧
    let out := detectAndFixRepetitions text threshold
    (out.toList = fixCharRepeats threshold text.toList → detectAndFixRepetitions out threshold = out) ∧
    (detectAndFixRepetitions out threshold = out ↔ threshold = 1 ∨ ¬Compressible threshold MAX_PATTERN_LEN out.toList) ∧
    (detectAndFixRepetitions out threshold = out ∨ (detectAndFixRepetitions out threshold).length < out.length) ∧
    ∀ n, text.length ≤ n →
      (detectAndFixRepetitions · threshold)^[n+1] text = (detectAndFixRepetitions · threshold)^[n] text :=
  ⟨detectedShort positive text,detectedOnce positive,detectedSame positive (detectedShort positive text),detectedShrinks positive _,
    fun _ enough => iterateSettles String.length (detectedShrinks positive) enough⟩

theorem repetitionsSettleSix : NoLongRun 2 (detectAndFixRepetitions "ababab" 2).toList ∧
    ¬Compressible 2 MAX_PATTERN_LEN (detectAndFixRepetitions "ababab" 2).toList ∧
    (detectAndFixRepetitions · 2)^[7] "ababab" = (detectAndFixRepetitions · 2)^[6] "ababab" ∧
    Compressible 2 MAX_PATTERN_LEN (detectAndFixRepetitions "ababcbc" 2).toList ∧
    (detectAndFixRepetitions (detectAndFixRepetitions "ababcbc" 2) 2).length < (detectAndFixRepetitions "ababcbc" 2).length := by
  obtain ⟨short,_,same,_,settles⟩ := repetitionsSettle "ababab" 2 (by decide)
  obtain ⟨_,_,again,shorter,_⟩ := repetitionsSettle "ababcbc" 2 (by decide)
  have kept : detectAndFixRepetitions (detectAndFixRepetitions "ababab" 2) 2 = detectAndFixRepetitions "ababab" 2 := by
    decide +kernel
  have changed : detectAndFixRepetitions (detectAndFixRepetitions "ababcbc" 2) 2 ≠ detectAndFixRepetitions "ababcbc" 2 := by
    decide +kernel
  refine ⟨short,(same.mp kept).resolve_left (by decide),settles 6 (by decide),?_,shorter.resolve_left changed⟩
  by_contra unrepeated
  exact changed (again.mpr (.inr unrepeated))

/- What is left of one repetition and what follows it make another one. -/
theorem repetitionsAgain : detectAndFixRepetitions "ababcbc" 2 = "abcbc" ∧
    detectAndFixRepetitions (detectAndFixRepetitions "ababcbc" 2) 2 = "abc" := by
  decide +kernel

end Application

end Qwen3Asr.Repetitions
