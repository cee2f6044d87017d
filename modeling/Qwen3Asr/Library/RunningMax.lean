import Mathlib.Order.WithBot
import Mathlib.Tactic.SplitIfs

/-! The largest entry of some rows, kept as one runs over them; nothing is larger than no entry. -/
namespace Library.RunningMax

variable {K : Type} [LinearOrder K]

def louder (most : WithBot K) (v : K) : WithBot K := if most < v then v else most

theorem louderLe {most b : WithBot K} {v : K} : louder most v ≤ b ↔ most ≤ b ∧ v ≤ b := by
  unfold louder
  split
  · next larger => exact ⟨fun below => ⟨larger.le.trans below,below⟩,And.right⟩
  · next smaller => exact ⟨fun below => ⟨below,(not_lt.mp smaller).trans below⟩,And.left⟩

def maxOver (rows : List (List K)) : WithBot K := rows.foldl (fun most row => row.foldl louder most) ⊥

theorem foldLe {row : List K} {most b : WithBot K} : row.foldl louder most ≤ b ↔ most ≤ b ∧ ∀ v ∈ row, (v : WithBot K) ≤ b := by
  induction row generalizing most with
  | nil => simp
  | cons v row ih => rw [List.foldl_cons,ih,louderLe,List.forall_mem_cons,and_assoc]

theorem rowsLe {rows : List (List K)} {most b : WithBot K} :
    rows.foldl (fun most row => row.foldl louder most) most ≤ b ↔ most ≤ b ∧ ∀ row ∈ rows, ∀ v ∈ row, (v : WithBot K) ≤ b := by
  induction rows generalizing most with
  | nil => simp
  | cons row rows ih => rw [List.foldl_cons,ih,foldLe,List.forall_mem_cons,and_assoc]

theorem maxOverLe {rows : List (List K)} {b : WithBot K} :
    maxOver rows ≤ b ↔ ∀ row ∈ rows, ∀ v ∈ row, (v : WithBot K) ≤ b := by
  rw [maxOver,rowsLe,and_iff_right bot_le]

theorem maxOverSame {rows rows' : List (List K)}
    (same : ∀ v, (∃ row ∈ rows, v ∈ row) ↔ ∃ row ∈ rows', v ∈ row) : maxOver rows = maxOver rows' := by
  refine eq_of_forall_ge_iff fun b => ?_
  rw [maxOverLe,maxOverLe]
  constructor
  · intro below row inside v entry
    obtain ⟨row',there,entry'⟩ := (same v).mpr ⟨row,inside,entry⟩
    exact below row' there v entry'
  · intro below row inside v entry
    obtain ⟨row',there,entry'⟩ := (same v).mp ⟨row,inside,entry⟩
    exact below row' there v entry'

end Library.RunningMax
