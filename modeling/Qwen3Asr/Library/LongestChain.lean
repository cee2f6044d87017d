import Mathlib.Data.List.Perm.Subperm
import Mathlib.Data.List.Induction
import Mathlib.Order.Nat

/-! Longest chains of positions, from a table that holds for each position the length of a longest chain that
ends there and the position before it on such a chain. -/
namespace Library.LongestChain

section Chains
variable (R : Nat → Nat → Prop) (n : Nat)

structure Chain (positions : List Nat) : Prop where
  linked : positions.Pairwise fun a b => a < b ∧ R a b
  bound : ∀ i ∈ positions, i < n

structure Longest (positions : List Nat) : Prop extends Chain R n positions where
  most : ∀ other, Chain R n other → other.length ≤ positions.length

structure BestEnds (length : Nat → Nat) (parent : Nat → Option Nat) : Prop where
  above : ∀ i < n, ∀ j < i, R j i → length j < length i
  first : ∀ i < n, parent i = none → length i = 1
  before : ∀ i < n, ∀ j, parent i = some j → j < i ∧ R j i ∧ length i = length j+1

end Chains

variable {R : Nat → Nat → Prop} {n : Nat} {length : Nat → Nat} {parent : Nat → Option Nat} {positions : List Nat}

theorem chainNil : Chain R n [] := ⟨.nil,fun _ inside => (by cases inside)⟩

theorem chainSingle {i : Nat} (bound : i < n) : Chain R n [i] :=
  ⟨List.pairwise_singleton _ _,fun _ inside => List.mem_singleton.mp inside ▸ bound⟩

theorem chainCons (transitive : ∀ a b c, R a b → R b c → R a c) {i j : Nat} (chain : Chain R n (i::positions))
    (less : j < i) (related : R j i) : Chain R n (j::i::positions) := by
  have top := chain.bound i List.mem_cons_self
  refine ⟨List.pairwise_cons.mpr ⟨fun k inside => ?_,chain.linked⟩,
    List.forall_mem_cons.mpr ⟨less.trans top,chain.bound⟩⟩
  rcases List.mem_cons.mp inside with rfl | later
  · exact ⟨less,related⟩
  · obtain ⟨after,linked⟩ := (List.pairwise_cons.mp chain.linked).1 k later
    exact ⟨less.trans after,transitive _ _ _ related linked⟩

theorem chainRelated (chain : Chain R n positions) {a b : Nat} (first : a ∈ positions) (second : b ∈ positions)
    (less : a < b) : R a b := by
  obtain ⟨i,inside,rfl⟩ := List.getElem_of_mem first
  obtain ⟨j,within,rfl⟩ := List.getElem_of_mem second
  have linked := List.pairwise_iff_getElem.mp chain.linked
  rcases Nat.lt_trichotomy i j with before | same | after
  · exact (linked i j inside within before).2
  · simp only [same] at less
    exact absurd less (lt_irrefl _)
  · exact absurd (linked j i within inside after).1 less.asymm

theorem endBound (best : BestEnds R n length parent) {i : Nat} (chain : Chain R n (positions ++ [i])) :
    positions.length < length i := by
  induction positions using List.reverseRecOn generalizing i with
  | nil =>
    have top := chain.bound i (List.mem_singleton_self i)
    cases from_ : parent i with
    | none => exact (best.first i top from_).symm ▸ Nat.one_pos
    | some j =>
      obtain ⟨_,_,more⟩ := best.before i top j from_
      rw [more]
      exact Nat.succ_pos _
  | append_singleton positions j ih =>
    obtain ⟨linked,bound⟩ := chain
    obtain ⟨front,_,apart⟩ := List.pairwise_append.mp linked
    have inner : Chain R n (positions ++ [j]) := ⟨front,fun k inside => bound k (List.mem_append_left _ inside)⟩
    obtain ⟨less,related⟩ := apart j (List.mem_append_right _ (List.mem_singleton_self j)) i (List.mem_singleton_self i)
    have shorter := ih inner
    have more := best.above i (bound i (List.mem_append_right _ (List.mem_singleton_self i))) j less related
    rw [List.length_append,List.length_singleton]
    omega

theorem longestOf (best : BestEnds R n length parent) {top : Nat} (most : ∀ i < n, length i ≤ top)
    (chain : Chain R n positions) (full : positions.length = top) : Longest R n positions := by
  refine ⟨chain,fun other linked => ?_⟩
  induction other using List.reverseRecOn with
  | nil => exact Nat.zero_le _
  | append_singleton front i _ =>
    have short := endBound best linked
    have under := most i (linked.bound i (List.mem_append_right _ (List.mem_singleton_self i)))
    rw [List.length_append,List.length_singleton]
    omega

theorem longestNonempty (longest : Longest R n positions) (some_ : 0 < n) : ∃ i, i ∈ positions := by
  have one := longest.most [0] (chainSingle some_)
  exact List.exists_mem_of_length_pos one

theorem longestAll (longest : Longest R n positions) (all : ∀ a b, a < b → b < n → R a b) {i : Nat} (bound : i < n) :
    i ∈ positions := by
  have whole : Chain R n (List.range n) := by
    refine ⟨?_,fun i inside => List.mem_range.mp inside⟩
    refine List.pairwise_lt_range.imp_of_mem fun _ inside less => ⟨less,all _ _ less (List.mem_range.mp inside)⟩
  have long := longest.most _ whole
  have distinct : positions.Nodup := longest.linked.imp fun related => related.1.ne
  have inside : positions ⊆ List.range n := fun i among => List.mem_range.mpr (longest.bound i among)
  have same := (List.subperm_of_subset distinct inside).perm_of_length_le long
  exact same.mem_iff.mpr (List.mem_range.mpr bound)

end Library.LongestChain
