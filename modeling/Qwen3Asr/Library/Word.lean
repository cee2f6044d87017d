import Mathlib.Algebra.Group.Int.Defs
import Mathlib.Algebra.Group.Nat.Defs
import Mathlib.Tactic.Common

/-! Checked arithmetic of 64-bit counts and the narrowing conversions, on
naturals that stand for the unsigned words and integers that stand for the signed ones. -/
namespace Library.Word

def checkedAdd (a b : Nat) : Option Nat := if a+b < 2^64 then some (a+b) else none

def checkedMul (a b : Nat) : Option Nat := if a*b < 2^64 then some (a*b) else none

def checkedSub (a b : Nat) : Option Nat := if b ≤ a then some (a-b) else none

def u32TryFrom (n : Nat) : Option Nat := if n < 2^32 then some n else none

def i64TryFrom (n : Nat) : Option Int := if n < 2^63 then some n else none

def i64CheckedAdd (a b : Int) : Option Int :=
  if -2^63 ≤ a+b ∧ a+b < 2^63 then some (a+b) else none

/- The conversion to a 32-bit integer keeps the low bits. -/
def asI32 (n : Int) : Int := n.bmod (2^32)

def okOr {α : Type} (x : Option α) (message : String) : Except String α := match x with
  | some a => .ok a
  | none => .error message

theorem checkedAddSome {a b c : Nat} : checkedAdd a b = some c ↔ a+b < 2^64 ∧ a+b = c := by
  simp only [checkedAdd,Option.ite_none_right_eq_some,Option.some.injEq]

theorem checkedMulSome {a b c : Nat} : checkedMul a b = some c ↔ a*b < 2^64 ∧ a*b = c := by
  simp only [checkedMul,Option.ite_none_right_eq_some,Option.some.injEq]

theorem checkedSubSome {a b c : Nat} : checkedSub a b = some c ↔ b ≤ a ∧ a-b = c := by
  simp only [checkedSub,Option.ite_none_right_eq_some,Option.some.injEq]

theorem u32TryFromSome {n m : Nat} : u32TryFrom n = some m ↔ n < 2^32 ∧ n = m := by
  simp only [u32TryFrom,Option.ite_none_right_eq_some,Option.some.injEq]

theorem i64TryFromSome {n : Nat} {m : Int} : i64TryFrom n = some m ↔ n < 2^63 ∧ (n:Int) = m := by
  simp only [i64TryFrom,Option.ite_none_right_eq_some,Option.some.injEq]

theorem i64CheckedAddSome {a b c : Int} :
    i64CheckedAdd a b = some c ↔ (-2^63 ≤ a+b ∧ a+b < 2^63) ∧ a+b = c := by
  simp only [i64CheckedAdd,Option.ite_none_right_eq_some,Option.some.injEq]

theorem asI32Fits {n : Int} (low : -2^31 ≤ n) (high : n < 2^31) : asI32 n = n :=
  Int.bmod_eq_of_le (by simpa using low) (by simpa using high)

theorem okOrOk {α : Type} {x : Option α} {message : String} {a : α} :
    okOr x message = .ok a ↔ x = some a := by
  unfold okOr
  cases x <;> simp

def saturatingAdd (a b : Nat) : Nat := min (a+b) (2^64-1)

def saturatingMul (a b : Nat) : Nat := min (a*b) (2^64-1)

theorem saturatingAddFits {a b : Nat} (fits : a+b < 2^64) : saturatingAdd a b = a+b := Nat.min_eq_left (by omega)

theorem saturatingMulFits {a b : Nat} (fits : a*b < 2^64) : saturatingMul a b = a*b := Nat.min_eq_left (by omega)

theorem leSaturatingAdd {a : Nat} (small : a < 2^64) (b : Nat) : a ≤ saturatingAdd a b :=
  Nat.le_min.mpr ⟨Nat.le_add_right a b,Nat.le_sub_one_of_lt small⟩

end Library.Word
