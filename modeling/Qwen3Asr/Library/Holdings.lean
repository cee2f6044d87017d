import Mathlib.Algebra.GroupWithZero.Nat
import Mathlib.Algebra.Order.BigOperators.Group.List
import Mathlib.Algebra.Order.Group.Nat
import Mathlib.Data.List.AList
import Mathlib.Data.List.Flatten
import Mathlib.Data.List.Perm.Basic

/-! Resources held under keys. A ledger owns every resource of its universe
exactly once, free or held; it cannot be built otherwise. -/
namespace Library.Holding
open scoped List

abbrev Holdings (κ ρ : Type) := AList (fun _ : κ => List ρ)

variable {κ ρ : Type}

def contents (h : Holdings κ ρ) : List ρ := h.entries.flatMap (fun e => e.2)

@[simp] theorem contentsEmpty : contents (∅ : Holdings κ ρ) = [] := rfl

variable [DecidableEq κ]

def held (h : Holdings κ ρ) (k : κ) : List ρ := (h.lookup k).getD []

@[simp] theorem heldInsert (h : Holdings κ ρ) (k : κ) (v : List ρ) : held (h.insert k v) k = v := by
  simp [held]

@[simp] theorem heldErase (h : Holdings κ ρ) (k : κ) : held (h.erase k) k = [] := by simp [held]

theorem heldInsertNe {h : Holdings κ ρ} {j k : κ} {v : List ρ} (different : j ≠ k) :
    held (h.insert k v) j = held h j := by
  simp [held,AList.lookup_insert_ne different]

theorem heldEraseNe {h : Holdings κ ρ} {j k : κ} (different : j ≠ k) :
    held (h.erase k) j = held h j := by
  simp [held,AList.lookup_erase_ne different]

theorem entriesPerm {h : Holdings κ ρ} {k : κ} {v : List ρ} (found : h.lookup k = some v) :
    h.entries.Perm (⟨k,v⟩ :: (h.erase k).entries) := by
  have member : k ∈ h.entries.keys := AList.lookup_isSome.mp (by simp [found])
  obtain ⟨b,before,after,_,split,rest⟩ := List.exists_of_kerase member
  have same : b = v := by
    have inside : (⟨k,b⟩ : Sigma fun _ : κ => List ρ) ∈ h.entries := by rw [split]; simp
    exact Option.some.inj ((AList.mem_lookup_iff.mpr inside).symm.trans found)
  subst same
  change h.entries.Perm (⟨k,b⟩ :: h.entries.kerase k)
  rw [rest,split]
  exact List.perm_middle

theorem contentsInsert (h : Holdings κ ρ) (k : κ) (v : List ρ) :
    contents (h.insert k v) = v ++ contents (h.erase k) := by
  simp only [contents,AList.entries_insert,List.flatMap_cons]
  rfl

theorem contentsErase (h : Holdings κ ρ) (k : κ) :
    (contents h).Perm (held h k ++ contents (h.erase k)) := by
  cases found : h.lookup k with
  | none =>
    have absent : h.erase k = h := AList.ext (List.kerase_of_notMem_keys (AList.lookup_eq_none.mp found))
    simp [held,found,absent]
  | some v =>
    have split := (entriesPerm found).flatMap_right (fun e => e.2)
    simpa [held,found,contents] using split

theorem heldSubset {h : Holdings κ ρ} {k : κ} {r : ρ} (inside : r ∈ held h k) : r ∈ contents h :=
  (contentsErase h k).mem_iff.mpr (List.mem_append_left _ inside)

theorem contentsNone {h : Holdings κ ρ} (none : ∀ k, held h k = []) : contents h = [] := by
  refine List.eq_nil_iff_forall_not_mem.mpr fun r inside => ?_
  obtain ⟨e,there,member⟩ := List.mem_flatMap.mp inside
  have found : h.lookup e.1 = some e.2 := AList.mem_lookup_iff.mpr there
  have content := none e.1
  rw [held,found,Option.getD_some] at content
  rw [content] at member
  exact List.not_mem_nil member

theorem contentsListed {h : Holdings κ ρ} {ks : List κ} (outside : ∀ k, k ∉ ks → held h k = []) :
    (contents h).length ≤ (ks.map fun k => (held h k).length).sum := by
  induction ks generalizing h with
  | nil =>
    rw [contentsNone fun k => outside k List.not_mem_nil]
    exact Nat.le_refl 0
  | cons k ks ih =>
    have split := (contentsErase h k).length_eq
    rw [List.length_append] at split
    have rest := ih (h := h.erase k) fun j out => by
      by_cases same : j = k
      · rw [same,heldErase]
      · rw [heldEraseNe same]
        exact outside j fun inside => (List.mem_cons.mp inside).elim same out
    have fewer : (ks.map fun j => (held (h.erase k) j).length).sum ≤ (ks.map fun j => (held h j).length).sum := by
      refine List.sum_le_sum fun j _ => ?_
      by_cases same : j = k
      · rw [same,heldErase]
        exact Nat.zero_le _
      · rw [heldEraseNe same]
    rw [List.map_cons,List.sum_cons]
    omega

theorem heldInjective {h : Holdings κ ρ} (once : (contents h).Nodup) {j k : κ} {m n : Nat} {r : ρ}
    (left : (held h j)[m]? = some r) (right : (held h k)[n]? = some r) : j = k ∧ m = n := by
  have nodup (l : κ) := (contentsErase h l).nodup_iff.mp once
  by_cases same : j = k
  · subst same
    have distinct := (List.nodup_append.mp (nodup j)).1
    have bound : m < (held h j).length := (List.getElem?_eq_some_iff.mp left).1
    exact ⟨rfl,(List.getElem?_inj bound distinct).mp (left.trans right.symm)⟩
  · have elsewhere : r ∈ held (h.erase k) j := by
      rw [heldEraseNe same]; exact List.mem_of_getElem? left
    have apart := (List.nodup_append.mp (nodup k)).2.2
    exact absurd rfl (apart r (List.mem_of_getElem? right) r (heldSubset elsewhere))

structure Ledger (κ ρ : Type) [DecidableEq κ] (all : List ρ) where
  free : List ρ
  holdings : Holdings κ ρ
  conserved : (free ++ contents holdings).Perm all

namespace Ledger
variable {all : List ρ}

def fresh (all : List ρ) : Ledger κ ρ all := ⟨all,∅,by simp⟩

theorem total (l : Ledger κ ρ all) : l.free.length + (contents l.holdings).length = all.length := by
  simpa using l.conserved.length_eq

theorem mem (l : Ledger κ ρ all) {r : ρ} (inside : r ∈ contents l.holdings) : r ∈ all :=
  l.conserved.mem_iff.mp (List.mem_append_right _ inside)

theorem once (l : Ledger κ ρ all) (distinct : all.Nodup) : (contents l.holdings).Nodup :=
  (List.nodup_append.mp (l.conserved.nodup_iff.mpr distinct)).2.1

def grow (l : Ledger κ ρ all) (k : κ) (n : Nat) : Ledger κ ρ all where
  free := l.free.drop n
  holdings := l.holdings.insert k (held l.holdings k ++ l.free.take n)
  conserved := by
    refine List.Perm.trans ?_ l.conserved
    rw [contentsInsert]
    have split := contentsErase l.holdings k
    calc l.free.drop n ++ (held l.holdings k ++ l.free.take n ++ contents (l.holdings.erase k))
        _ ~ l.free.drop n ++ (l.free.take n ++ (held l.holdings k ++ contents (l.holdings.erase k))) := by
          refine List.Perm.append_left _ ?_
          rw [← List.append_assoc]
          exact List.perm_append_comm.append_right _
        _ ~ l.free ++ (held l.holdings k ++ contents (l.holdings.erase k)) := by
          rw [← List.append_assoc]
          refine List.Perm.append_right _ (List.perm_append_comm.trans ?_)
          rw [List.take_append_drop]
        _ ~ l.free ++ contents l.holdings := List.Perm.append_left _ split.symm

/- The tail past `n` goes back to the free list, last resource first. -/
def shrink (l : Ledger κ ρ all) (k : κ) (n : Nat) : Ledger κ ρ all where
  free := l.free ++ ((held l.holdings k).drop n).reverse
  holdings := l.holdings.insert k ((held l.holdings k).take n)
  conserved := by
    refine List.Perm.trans ?_ l.conserved
    rw [contentsInsert,List.append_assoc]
    refine List.Perm.append_left _ (List.Perm.trans ?_ (contentsErase l.holdings k).symm)
    rw [← List.append_assoc]
    refine List.Perm.append_right _ (List.perm_append_comm.trans ?_)
    calc (held l.holdings k).take n ++ ((held l.holdings k).drop n).reverse
        _ ~ (held l.holdings k).take n ++ (held l.holdings k).drop n :=
          List.Perm.append_left _ (List.reverse_perm _)
        _ ~ held l.holdings k := by rw [List.take_append_drop]

def release (l : Ledger κ ρ all) (k : κ) : Ledger κ ρ all where
  free := l.free ++ (held l.holdings k).reverse
  holdings := l.holdings.erase k
  conserved := by
    refine List.Perm.trans ?_ l.conserved
    rw [List.append_assoc]
    refine List.Perm.append_left _ (List.Perm.trans ?_ (contentsErase l.holdings k).symm)
    exact (List.reverse_perm _).append_right _

end Ledger

end Library.Holding
