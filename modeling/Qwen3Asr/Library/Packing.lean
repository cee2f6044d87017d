import Mathlib.Algebra.BigOperators.Group.List.Basic
import Mathlib.Algebra.GroupWithZero.Nat
import Mathlib.Data.List.Basic

/-! Parts laid end to end, and the selected entries of a list: where an entry goes, by the lengths
of the parts before its own or by the number of selected entries before it. -/
namespace Library.Packing

variable {α : Type}

def start (lengths : List Nat) (i : Nat) : Nat := (lengths.take i).sum

theorem startNext {lengths : List Nat} {i n : Nat} (found : lengths[i]? = some n) :
    start lengths (i+1) = start lengths i+n := by
  rw [start,List.take_add_one,found,List.sum_append]
  simp [start]

theorem startMono (lengths : List Nat) {i j : Nat} (before : i ≤ j) : start lengths i ≤ start lengths j := by
  induction before with
  | refl => exact Nat.le_refl _
  | step _ ih =>
    refine Nat.le_trans ih ?_
    rw [start,start,List.take_add_one,List.sum_append]
    exact Nat.le_add_right _ _

theorem startWithin {lengths : List Nat} {i n : Nat} (found : lengths[i]? = some n) : start lengths i+n ≤ lengths.sum := by
  have bound := (List.getElem?_eq_some_iff.mp found).1
  calc start lengths i+n = start lengths (i+1) := (startNext found).symm
    _ ≤ start lengths lengths.length := startMono lengths bound
    _ = lengths.sum := by rw [start,List.take_length]

theorem startCons (first : Nat) (lengths : List Nat) (i : Nat) :
    start (first::lengths) (i+1) = first+start lengths i := List.sum_cons

def starts (lengths : List Nat) : List Nat := (List.range (lengths.length+1)).map (start lengths)

theorem startsCons (first : Nat) (lengths : List Nat) :
    starts (first::lengths) = 0 :: (starts lengths).map (first + ·) := by
  rw [starts,starts,List.length_cons,List.range_succ_eq_map,List.map_cons,List.map_map,List.map_map]
  simp only [Function.comp_def,Nat.succ_eq_add_one,startCons]
  rfl

theorem startsAt {lengths : List Nat} {i : Nat} (within : i ≤ lengths.length) :
    (starts lengths)[i]? = some (start lengths i) := by
  rw [starts,List.getElem?_map,List.getElem?_range (Nat.lt_succ_of_le within)]
  rfl

theorem startsSorted (lengths : List Nat) : (starts lengths).Pairwise (· ≤ ·) :=
  List.pairwise_map.mpr (List.pairwise_lt_range.imp fun before => startMono lengths (Nat.le_of_lt before))

theorem startReplicate (n len i : Nat) (within : i ≤ n) : start (List.replicate n len) i = i*len := by
  rw [start,List.take_replicate,Nat.min_eq_left within,List.sum_replicate_nat]

def offset (parts : List (List α)) (i : Nat) : Nat := start (parts.map List.length) i

theorem offsetNext {parts : List (List α)} {i : Nat} {part : List α} (found : parts[i]? = some part) :
    offset parts (i+1) = offset parts i+part.length :=
  startNext (by rw [List.getElem?_map,found]; rfl)

theorem offsetMono (parts : List (List α)) {i j : Nat} (before : i ≤ j) : offset parts i ≤ offset parts j :=
  startMono _ before

theorem offsetCons (first : List α) (parts : List (List α)) (i : Nat) :
    offset (first::parts) (i+1) = first.length+offset parts i := by
  exact startCons _ _ i

theorem flattenPlace {parts : List (List α)} {place : Nat} {x : α} : parts.flatten[place]? = some x ↔
    ∃ i part r, parts[i]? = some part ∧ part[r]? = some x ∧ place = offset parts i+r := by
  induction parts generalizing place with
  | nil => simp
  | cons first parts ih =>
    rw [List.flatten_cons]
    constructor
    · intro found
      rcases Nat.lt_or_ge place first.length with inside | past
      · rw [List.getElem?_append_left inside] at found
        exact ⟨0,first,place,rfl,found,by simp [offset,start]⟩
      · rw [List.getElem?_append_right past] at found
        obtain ⟨i,part,r,here,there,same⟩ := ih.mp found
        exact ⟨i+1,part,r,here,there,by rw [offsetCons]; omega⟩
    · rintro ⟨i,part,r,here,there,rfl⟩
      cases i with
      | zero =>
        cases here
        have inside := (List.getElem?_eq_some_iff.mp there).1
        simpa [offset,start] using (List.getElem?_append_left inside).trans there
      | succ i =>
        rw [offsetCons,Nat.add_assoc,List.getElem?_append_right (Nat.le_add_right _ _),Nat.add_sub_cancel_left]
        exact ih.mpr ⟨i,part,r,here,there,rfl⟩

theorem placeUnique {parts : List (List α)} {i j r s : Nat} {part part' : List α} (found : parts[i]? = some part)
    (found' : parts[j]? = some part') (inside : r < part.length) (inside' : s < part'.length)
    (same : offset parts i+r = offset parts j+s) : i = j ∧ r = s := by
  have next := offsetNext found
  have next' := offsetNext found'
  rcases Nat.lt_trichotomy i j with before | rfl | after
  · have later : offset parts (i+1) ≤ offset parts j := offsetMono parts before
    omega
  · exact ⟨rfl,by omega⟩
  · have later : offset parts (j+1) ≤ offset parts i := offsetMono parts after
    omega

section Select
variable {p : α → Bool} {xs : List α} {i j : Nat}

theorem findIdxsPlace {r : Nat} : (xs.findIdxs p)[r]? = some j ↔
    ∃ inside : j < xs.length, p xs[j] = true ∧ xs.countPBefore p j = r := by
  rw [List.getElem?_eq_some_iff]
  constructor
  · rintro ⟨bound,found⟩
    rw [List.getElem_findIdxs_eq_findIdxNth] at found
    rw [List.length_findIdxs] at bound
    subst found
    exact ⟨List.findIdxNth_lt_length_of_lt_countP bound,List.pos_findIdxNth_getElem,
      List.countPBefore_findIdxNth_of_lt_countP bound⟩
  · rintro ⟨inside,selected,rfl⟩
    refine ⟨by rw [List.length_findIdxs]; exact List.countPBefore_lt_countP_of_lt_length_of_pos selected,?_⟩
    rw [List.getElem_findIdxs_eq_findIdxNth]
    exact List.findIdxNth_countPBefore_of_lt_length_of_pos selected

theorem countBeforeSplit (p : α → Bool) (xs : List α) (j : Nat) :
    xs.countPBefore p j+(xs.drop j).countP p = xs.countP p := by
  rw [List.countPBefore_eq_countP_take,← List.countP_append,List.take_append_drop]

theorem countBeforeNext (inside : j < xs.length) (selected : p xs[j] = true) :
    xs.countPBefore p (j+1) = xs.countPBefore p j+1 := by
  rw [List.countPBefore_eq_countP_take,List.countPBefore_eq_countP_take,List.take_succ_eq_append_getElem inside,
    List.countP_append,List.countP_singleton,if_pos selected]

/- The rank of a selected entry tells what comes before it. -/
theorem rankOrder (inside : j < xs.length) (selected : p xs[j] = true) :
    xs.countPBefore p i ≤ xs.countPBefore p j ↔ i ≤ j := by
  constructor
  · intro below
    by_contra after
    have later : xs.countPBefore p (j+1) ≤ xs.countPBefore p i := List.countPBefore_mono (by omega)
    rw [countBeforeNext inside selected] at later
    omega
  · exact List.countPBefore_mono

theorem countAll : (xs.drop j).countP p = xs.length-j ↔ ∀ x ∈ xs.drop j, p x = true := by
  rw [← List.length_drop]
  exact List.countP_eq_length

end Select

end Library.Packing
