import Mathlib.Algebra.BigOperators.Group.List.Basic
import Mathlib.Data.List.DropRight
import Mathlib.Data.List.Rotate

/-! A ring of cells in which the oldest value makes room for the newest, kept with its sum. -/
namespace Library

structure Ring (α : Type) where
  cells : List α
  pos : Nat
  sum : α

namespace Ring
variable {α : Type}

theorem tailRtake (l : List α) {n : Nat} (enough : n+1 ≤ l.length) : (l.rtake (n+1)).tail = l.rtake n := by
  have skipped : l.length-(n+1)+1 = l.length-n := by omega
  rw [List.rtake,List.rtake,List.tail_drop,skipped]

theorem rotateSet {cells : List α} {pos : Nat} (inside : pos < cells.length) (x : α) :
    (cells.set pos x).rotate (pos+1) = (cells.rotate pos).tail ++ [x] := by
  have set : cells.set pos x = cells.take pos ++ x::cells.drop (pos+1) :=
    List.set_eq_take_append_cons_drop.trans (if_pos inside)
  have before : (cells.take pos ++ [x]).length = pos+1 := by
    rw [List.length_append,List.length_take_of_le inside.le]
    rfl
  have grouped : cells.take pos ++ x::cells.drop (pos+1) = (cells.take pos ++ [x]) ++ cells.drop (pos+1) :=
    List.append_cons _ _ _
  have turned := List.rotate_append_length_eq (cells.take pos ++ [x]) (cells.drop (pos+1))
  rw [before] at turned
  calc (cells.set pos x).rotate (pos+1)
      = cells.drop (pos+1) ++ (cells.take pos ++ [x]) := by rw [set,grouped,turned]
    _ = (cells.drop pos ++ cells.take pos).tail ++ [x] := by
      rw [List.drop_eq_getElem_cons inside,List.cons_append,List.tail_cons,List.append_assoc]
    _ = (cells.rotate pos).tail ++ [x] := by rw [List.rotate_eq_drop_append_take inside.le]

variable [AddCommGroup α] {r : Ring α} {history : List α}

def push (r : Ring α) (x : α) : Ring α where
  cells := r.cells.set r.pos x
  pos := (r.pos+1)%r.cells.length
  sum := r.sum-r.cells.getD r.pos 0+x

structure Holds (r : Ring α) (history : List α) : Prop where
  last : r.cells.rotate r.pos = (List.replicate r.cells.length 0 ++ history).rtake r.cells.length
  sum : r.sum = r.cells.sum

theorem pushLength (r : Ring α) (x : α) : (r.push x).cells.length = r.cells.length := List.length_set

theorem pushInside (inside : r.pos < r.cells.length) (x : α) : (r.push x).pos < (r.push x).cells.length := by
  rw [pushLength]
  exact Nat.mod_lt _ (Nat.zero_lt_of_lt inside)

theorem pushTurned (inside : r.pos < r.cells.length) (x : α) :
    (r.push x).cells.rotate (r.push x).pos = (r.cells.rotate r.pos).tail ++ [x] := by
  have turned : (r.push x).cells.rotate (r.push x).pos = (r.cells.set r.pos x).rotate (r.pos+1) := by
    have wrapped := List.rotate_mod (r.cells.set r.pos x) (r.pos+1)
    rw [List.length_set] at wrapped
    exact wrapped
  exact turned.trans (rotateSet inside x)

theorem pushSum (inside : r.pos < r.cells.length) (summed : r.sum = r.cells.sum) (x : α) :
    (r.push x).sum = (r.push x).cells.sum := by
  have leaving : r.cells.getD r.pos 0 = r.cells[r.pos] := (List.getElem_eq_getD 0).symm
  have replaced : (r.cells.set r.pos x).sum = r.cells.sum+(-r.cells[r.pos]+x) := by
    rw [List.sum_set']
    simp only [inside,dif_pos]
  change r.sum-r.cells.getD r.pos 0+x = (r.cells.set r.pos x).sum
  rw [replaced,leaving,summed,sub_eq_add_neg,add_assoc]

theorem pushHolds (inside : r.pos < r.cells.length) (holds : Holds r history) (x : α) :
    Holds (r.push x) (history ++ [x]) where
  last := by
    obtain ⟨n,size⟩ : ∃ n, r.cells.length = n+1 := ⟨r.cells.length-1,by omega⟩
    have room : n+1 ≤ (List.replicate (n+1) 0 ++ history).length := by simp
    rw [pushTurned inside,holds.last,pushLength,size,tailRtake _ room,← List.append_assoc,List.rtake_concat_succ]
  sum := pushSum inside holds.sum x

theorem emptyHolds (n : Nat) : Holds (⟨List.replicate n 0,0,0⟩ : Ring α) [] where
  last := by simp [List.rtake]
  sum := by simp

theorem zerosRtake (n : Nat) (history : List α) :
    ((List.replicate n 0 ++ history).rtake n).sum = (history.rtake n).sum := by
  have skipped : (List.replicate n (0 : α) ++ history).length-n = history.length := by simp
  rw [List.rtake,skipped,List.drop_append,List.length_replicate,List.drop_replicate,List.sum_append]
  simp [List.rtake]

theorem holdsSum (holds : Holds r history) : r.sum = (history.rtake r.cells.length).sum := by
  rw [holds.sum,← (List.rotate_perm r.cells r.pos).sum_eq,holds.last,zerosRtake]

end Ring
end Library
