import Mathlib.Order.MinMax
import Mathlib.Data.List.Basic

/-! The edit distance of two lists, by its recursion over their heads. It is the least cost of a script
of edits, so it may be computed from either end. -/
namespace Library.EditDistance

variable {α : Type} [DecidableEq α]

def distance : List α → List α → Nat
  | [], ys => ys.length
  | x::xs, [] => (x::xs).length
  | x::xs, y::ys => min (min (distance xs (y::ys)+1) (distance (x::xs) ys+1)) (distance xs ys+if x = y then 0 else 1)

inductive Script : List α → List α → Nat → Nat → Nat → Prop where
  | nil : Script [] [] 0 0 0
  | keep {xs ys : List α} {s d i : Nat} (x : α) (rest : Script xs ys s d i) : Script (x::xs) (x::ys) s d i
  | substitute {xs ys : List α} {s d i : Nat} (x y : α) (rest : Script xs ys s d i) : Script (x::xs) (y::ys) (s+1) d i
  | delete {xs ys : List α} {s d i : Nat} (x : α) (rest : Script xs ys s d i) : Script (x::xs) ys s (d+1) i
  | insert {xs ys : List α} {s d i : Nat} (y : α) (rest : Script xs ys s d i) : Script xs (y::ys) s d (i+1)

section Distance
variable (x y : α) (xs ys : List α)

theorem distanceNil : distance xs [] = xs.length := by
  cases xs <;> rw [distance]

theorem distanceDelete : distance (x::xs) ys ≤ distance xs ys+1 := by
  cases ys with
  | nil => rw [distanceNil,distanceNil,List.length_cons]
  | cons y ys =>
    rw [distance]
    omega

theorem distanceInsert : distance xs (y::ys) ≤ distance xs ys+1 := by
  cases xs with
  | nil =>
    rw [distance,distance]
    rfl
  | cons x xs =>
    rw [distance]
    omega

theorem distanceDeleted : distance xs ys ≤ distance (x::xs) ys+1 := by
  induction ys with
  | nil =>
    rw [distanceNil,distanceNil,List.length_cons]
    omega
  | cons y ys ih =>
    have inserted := distanceInsert y xs ys
    rw [distance]
    omega

theorem distanceInserted : distance xs ys ≤ distance xs (y::ys)+1 := by
  induction xs with
  | nil =>
    rw [distance,distance,List.length_cons]
    omega
  | cons x xs ih =>
    have deleted := distanceDelete x xs ys
    rw [distance.eq_3]
    omega

theorem distanceKeep : distance (x::xs) (x::ys) = distance xs ys := by
  have deleted := distanceInserted x xs ys
  have inserted := distanceDeleted x xs ys
  rw [distance,if_pos rfl]
  omega

end Distance

section Scripts
variable {xs ys xs' ys' : List α} {s d i s' d' i' : Nat}

omit [DecidableEq α] in
theorem scriptAppend (first : Script xs ys s d i) (second : Script xs' ys' s' d' i') :
    Script (xs ++ xs') (ys ++ ys') (s+s') (d+d') (i+i') := by
  induction first with
  | nil => simpa using second
  | keep x _ ih => exact .keep x ih
  | substitute x y _ ih => rw [Nat.add_right_comm]; exact .substitute x y ih
  | delete x _ ih => rw [Nat.add_right_comm]; exact .delete x ih
  | insert y _ ih => rw [Nat.add_right_comm _ 1]; exact .insert y ih

omit [DecidableEq α] in
theorem scriptReverse (script : Script xs ys s d i) : Script xs.reverse ys.reverse s d i := by
  induction script with
  | nil => exact .nil
  | keep x _ ih =>
    rw [List.reverse_cons,List.reverse_cons]
    exact scriptAppend ih (.keep x .nil)
  | substitute x y _ ih =>
    rw [List.reverse_cons,List.reverse_cons]
    exact scriptAppend ih (.substitute x y .nil)
  | delete x _ ih =>
    have last := scriptAppend ih (.delete x .nil)
    rwa [List.append_nil,← List.reverse_cons] at last
  | insert y _ ih =>
    have last := scriptAppend ih (.insert y .nil)
    rwa [List.append_nil,← List.reverse_cons] at last

theorem distanceLe (script : Script xs ys s d i) : distance xs ys ≤ s+d+i := by
  induction script with
  | nil => rw [distance,List.length_nil]
  | keep x _ ih =>
    rw [distanceKeep]
    exact ih
  | @substitute xs ys _ _ _ x y _ ih =>
    rw [distance]
    split <;> omega
  | @delete xs ys _ _ _ x _ ih =>
    have step := distanceDelete x xs ys
    omega
  | @insert xs ys _ _ _ y _ ih =>
    have step := distanceInsert y xs ys
    omega

theorem scriptOf (xs ys : List α) : ∃ s d i, Script xs ys s d i ∧ s+d+i = distance xs ys := by
  induction xs, ys using distance.induct with
  | case1 ys =>
    induction ys with
    | nil => exact ⟨0,0,0,.nil,by rw [distance]; rfl⟩
    | cons y ys ih =>
      obtain ⟨s,d,i,script,cost⟩ := ih
      exact ⟨s,d,i+1,.insert y script,by rw [distance] at cost ⊢; rw [List.length_cons,← cost]; rfl⟩
  | case2 x xs =>
    have deleted (xs : List α) : Script xs [] 0 xs.length 0 := by
      induction xs with
      | nil => exact .nil
      | cons x xs ih => exact .delete x ih
    exact ⟨0,(x::xs).length,0,deleted (x::xs),by rw [distance]; omega⟩
  | case3 x xs y ys delete insert keep =>
    obtain ⟨s,d,i,script,cost⟩ := delete
    obtain ⟨s',d',i',script',cost'⟩ := insert
    obtain ⟨s'',d'',i'',script'',cost''⟩ := keep
    have last : ∃ s d i, Script (x::xs) (y::ys) s d i ∧ s+d+i = distance xs ys+if x = y then 0 else 1 := by
      split
      · next same =>
        subst same
        exact ⟨s'',d'',i'',.keep x script'',cost''⟩
      · exact ⟨s''+1,d'',i'',.substitute x y script'',by omega⟩
    rw [distance]
    rcases min_choice (min (distance xs (y::ys)+1) (distance (x::xs) ys+1)) (distance xs ys+if x = y then 0 else 1)
      with first | third
    · rcases min_choice (distance xs (y::ys)+1) (distance (x::xs) ys+1) with deletes | inserts
      · exact ⟨s,d+1,i,.delete x script,by omega⟩
      · exact ⟨s',d',i'+1,.insert y script',by omega⟩
    · rw [third]
      exact last

/-- The distance is the least cost of a script, read from either end. -/
theorem distanceReverse (xs ys : List α) : distance xs.reverse ys.reverse = distance xs ys := by
  have le (xs ys : List α) : distance xs.reverse ys.reverse ≤ distance xs ys := by
    obtain ⟨s,d,i,script,cost⟩ := scriptOf xs ys
    exact (distanceLe (scriptReverse script)).trans_eq cost
  refine Nat.le_antisymm (le xs ys) ?_
  simpa using le xs.reverse ys.reverse

end Scripts

section Ends
variable (x y : α) (xs ys : List α)

theorem distanceLast : distance (xs ++ [x]) (ys ++ [y]) =
    min (min (distance xs (ys ++ [y])+1) (distance (xs ++ [x]) ys+1)) (distance xs ys+if x = y then 0 else 1) := by
  have turned (xs ys : List α) : distance xs ys = distance xs.reverse ys.reverse := (distanceReverse xs ys).symm
  rw [turned (xs ++ [x]),turned xs (ys ++ [y]),turned (xs ++ [x]) ys,turned xs ys]
  simp only [List.reverse_append,List.reverse_singleton,List.singleton_append]
  exact distance.eq_3 ..

theorem distanceKeepLast : distance (xs ++ [x]) (ys ++ [x]) = distance xs ys := by
  have turned (xs ys : List α) : distance xs ys = distance xs.reverse ys.reverse := (distanceReverse xs ys).symm
  rw [turned (xs ++ [x]),turned xs ys,List.reverse_append,List.reverse_append]
  exact distanceKeep ..

end Ends

end Library.EditDistance
