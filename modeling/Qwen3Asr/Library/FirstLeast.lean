import Mathlib.Data.List.Range
import Mathlib.Order.Defs.LinearOrder
import Mathlib.Order.Lattice

/-! The position one pass over a sequence keeps, moving on to every lesser value. Where the values are
linearly ordered it is the first one at which they are least. -/
namespace Library.FirstLeast

variable {σ K : Type}

theorem foldTurns {step : σ → Nat → σ} {state : Nat → σ} (turn : ∀ k, step (state k) (k+1) = state (k+1)) (n : Nat) :
    (List.range' 1 n).foldl step (state 0) = state n := by
  induction n with
  | zero => rfl
  | succ n ih => rw [List.range'_1_concat,List.foldl_append,ih,Nat.add_comm 1 n,List.foldl_cons,List.foldl_nil,turn]

section Scan
variable [LT K] [DecidableLT K]

def scan (f : Nat → K) : Nat → Nat
  | 0 => 0
  | n+1 => if f (n+1) < f (scan f n) then n+1 else scan f n

variable {f g : Nat → K} {n : Nat}

theorem scanLess (less : f (n+1) < f (scan f n)) : scan f (n+1) = n+1 := if_pos less

theorem scanKept (more : ¬f (n+1) < f (scan f n)) : scan f (n+1) = scan f n := if_neg more

theorem scanLe (f : Nat → K) (n : Nat) : scan f n ≤ n := by
  induction n with
  | zero => rfl
  | succ n ih =>
    by_cases less : f (n+1) < f (scan f n)
    · rw [scanLess less]
    · rw [scanKept less]
      exact ih.trans (Nat.le_succ n)

theorem scanCongr (same : ∀ k ≤ n, f k = g k) : scan f n = scan g n := by
  induction n with
  | zero => rfl
  | succ n ih =>
    have before : scan f n = scan g n := ih fun k within => same k (Nat.le_succ_of_le within)
    simp only [scan,before,same (n+1) le_rfl,same (scan g n) (Nat.le_succ_of_le (scanLe g n))]

theorem scanStays {m p : Nat} (here : scan f m = p) (le : m ≤ n) (more : ∀ k, m < k → k ≤ n → ¬f k < f p) :
    scan f n = p := by
  induction n, le using Nat.le_induction with
  | base => exact here
  | succ n le ih =>
    have kept := ih fun k later within => more k later (within.trans (Nat.le_succ n))
    rw [scanKept (by rw [kept]; exact more (n+1) (Nat.lt_succ_of_le le) le_rfl),kept]

/- The points that are less than the last such point before them. -/
inductive LowPoint (f : Nat → K) : Nat → Prop
  | start : LowPoint f 0
  | lower {q p : Nat} (before : LowPoint f q) (later : q < p) (less : f p < f q)
      (between : ∀ k, q < k → k < p → ¬f k < f q) : LowPoint f p

theorem scanLow {p : Nat} (low : LowPoint f p) : scan f p = p := by
  induction low with
  | start => rfl
  | @lower q p _ later less between ih =>
    obtain ⟨n,rfl⟩ := Nat.exists_eq_add_of_lt later
    have kept : scan f (q+n) = q := scanStays ih (Nat.le_add_right q n) fun k later within =>
      between k later (Nat.lt_succ_of_le within)
    exact scanLess (by rw [kept]; exact less)

/- The last low point up to `n`, whatever `<` is. -/
structure Lowest (f : Nat → K) (n p : Nat) : Prop where
  inside : p ≤ n
  low : LowPoint f p
  last : ∀ k, p < k → k ≤ n → ¬f k < f p

theorem lowestScan (f : Nat → K) (n : Nat) : Lowest f n (scan f n) := by
  induction n with
  | zero => exact ⟨le_rfl,.start,fun k later within => absurd later (Nat.not_lt.mpr within)⟩
  | succ n ih =>
    by_cases less : f (n+1) < f (scan f n)
    · rw [scanLess less]
      have low := ih.low.lower (Nat.lt_succ_of_le ih.inside) less fun k later below => ih.last k later (Nat.lt_succ_iff.mp below)
      exact ⟨le_rfl,low,fun k later within => absurd later (Nat.not_lt.mpr within)⟩
    · rw [scanKept less]
      refine ⟨ih.inside.trans (Nat.le_succ n),ih.low,fun k later within => ?_⟩
      rcases Nat.le_succ_iff.mp within with earlier | rfl
      · exact ih.last k later earlier
      · exact less

theorem lowestUnique {p : Nat} (here : Lowest f n p) : scan f n = p :=
  scanStays (scanLow here.low) here.inside here.last

end Scan

section Order
variable [LinearOrder K] {f : Nat → K} {n p q : Nat}

structure First (f : Nat → K) (n p : Nat) : Prop where
  inside : p ≤ n
  before : ∀ k, k < p → f p < f k
  least : ∀ k, k ≤ n → f p ≤ f k

theorem scanFirst (f : Nat → K) (n : Nat) : First f n (scan f n) := by
  induction n with
  | zero => exact ⟨le_rfl,fun k less => absurd less (Nat.not_lt_zero k),fun k within => by rw [Nat.le_zero.mp within]; rfl⟩
  | succ n ih =>
    by_cases less : f (n+1) < f (scan f n)
    · rw [scanLess less]
      have all : ∀ k ≤ n, f (n+1) < f k := fun k within => lt_of_lt_of_le less (ih.least k within)
      refine ⟨le_rfl,fun k below => all k (Nat.lt_succ_iff.mp below),fun k within => ?_⟩
      rcases Nat.le_succ_iff.mp within with earlier | rfl
      · exact (all k earlier).le
      · rfl
    · rw [scanKept less]
      refine ⟨ih.inside.trans (Nat.le_succ n),ih.before,fun k within => ?_⟩
      rcases Nat.le_succ_iff.mp within with earlier | rfl
      · exact ih.least k earlier
      · exact not_lt.mp less

theorem firstUnique (here : First f n p) (there : First f n q) : p = q := by
  rcases lt_trichotomy p q with less | same | more
  · exact absurd (here.least q there.inside) (not_le.mpr (there.before p less))
  · exact same
  · exact absurd (there.least p here.inside) (not_le.mpr (here.before q more))

theorem lowestFirst : Lowest f n p ↔ First f n p := by
  constructor
  · intro lowest
    rw [← lowestUnique lowest]
    exact scanFirst f n
  · intro first
    rw [firstUnique first (scanFirst f n)]
    exact lowestScan f n

end Order

end Library.FirstLeast
