import Mathlib.Data.List.Forall2
import Mathlib.Data.List.Nodup

/-! Reading some positions of a list, working on what was read, and writing the
results back to the same positions. -/
namespace Library.Scatter

variable {α β γ : Type}

def scatter (f : β → α → α) (xs : List α) (writes : List (Nat × β)) : List α :=
  writes.foldl (fun xs (i,b) => xs.modify i (f b)) xs

def written (f : β → α → α) (write : Option β) (a : α) : α := match write with
  | some b => f b a
  | none => a

theorem scatterLength (f : β → α → α) (xs : List α) (writes : List (Nat × β)) :
    (scatter f xs writes).length = xs.length := by
  induction writes generalizing xs with
  | nil => rfl
  | cons write writes ih =>
    change (scatter f (xs.modify write.1 (f write.2)) writes).length = _
    rw [ih,List.length_modify]

theorem scatterGet {f : β → α → α} {xs : List α} {writes : List (Nat × β)}
    (once : (writes.map Prod.fst).Nodup) (i : Nat) :
    (scatter f xs writes)[i]? = xs[i]?.map (written f (writes.lookup i)) := by
  induction writes generalizing xs with
  | nil =>
    change xs[i]? = xs[i]?.map (written f none)
    cases xs[i]? <;> rfl
  | cons write writes ih =>
    obtain ⟨k,b⟩ := write
    obtain ⟨fresh,once⟩ := List.nodup_cons.mp once
    change (scatter f (xs.modify k (f b)) writes)[i]? = _
    rw [ih once,List.getElem?_modify,List.lookup_cons]
    by_cases same : k = i
    · subst same
      have absent : writes.lookup k = none := by
        rw [List.lookup_eq_none_iff]
        intro p inside
        simp only [bne_iff_ne,ne_eq]
        intro same
        exact fresh (List.mem_map.mpr ⟨p,inside,same.symm⟩)
      cases xs[k]? <;> simp [absent,written]
    · have apart : (i == k) = false := by simpa using fun h : i = k => same h.symm
      simp [same,apart]

theorem lookupZip {is : List Nat} {bs cs : List β} {Q : β → β → Prop} (pairs : List.Forall₂ Q bs cs)
    {i : Nat} {c : β} (found : (is.zip cs).lookup i = some c) :
    ∃ b, (is.zip bs).lookup i = some b ∧ Q b c := by
  induction pairs generalizing is with
  | nil => simp at found
  | cons head _ ih =>
    cases is with
    | nil => simp at found
    | cons k is =>
      simp only [List.zip_cons_cons,List.lookup_cons] at found ⊢
      split at found
      · cases found; exact ⟨_,rfl,head⟩
      · exact ih found

theorem lookupPaired {ι : Type} [BEq ι] (is : List ι) {bs : List β} {cs : List γ} {Q : β → γ → Prop}
    (pairs : List.Forall₂ Q bs cs) (i : ι) : Option.Rel Q ((is.zip bs).lookup i) ((is.zip cs).lookup i) := by
  induction pairs generalizing is with
  | nil => simp
  | cons head _ ih =>
    cases is with
    | nil => simp
    | cons k is =>
      simp only [List.zip_cons_cons,List.lookup_cons]
      split
      · exact .some head
      · exact ih _

theorem lookupRead {is : List Nat} {bs : List β} {P : Nat → β → Prop} (reads : List.Forall₂ P is bs)
    {i : Nat} {b : β} (found : (is.zip bs).lookup i = some b) : P i b := by
  induction reads with
  | nil => simp at found
  | cons head _ ih =>
    simp only [List.zip_cons_cons,List.lookup_cons] at found
    split at found
    · rename_i same
      cases found
      rw [beq_iff_eq.mp same]
      exact head
    · exact ih found

/-- Every position is unchanged or was read, worked on, and written back. -/
theorem scatterRelated {f : β → α → α} {xs : List α} {is : List Nat} {bs cs : List β}
    {P : α → β → Prop} {Q : β → β → Prop} {R : α → α → Prop} (once : is.Nodup)
    (reads : List.Forall₂ (fun i b => ∃ a, xs[i]? = some a ∧ P a b) is bs) (work : List.Forall₂ Q bs cs)
    (write : ∀ a b c, P a b → Q b c → R a (f c a)) (keep : ∀ a, R a a) :
    List.Forall₂ R xs (scatter f xs (is.zip cs)) := by
  have lengths : is.length = cs.length := reads.length_eq.trans work.length_eq
  have keys : ((is.zip cs).map Prod.fst).Nodup := by
    rwa [List.map_fst_zip (by omega)]
  refine List.forall₂_iff_get.mpr ⟨(scatterLength f xs _).symm,fun i bound bound' => ?_⟩
  have there : (scatter f xs (is.zip cs))[i]? = _ := scatterGet keys i
  rw [List.getElem?_eq_getElem bound,List.getElem?_eq_getElem bound',Option.map_some,Option.some.injEq] at there
  simp only [List.get_eq_getElem]
  rw [there]
  cases found : (is.zip cs).lookup i with
  | none => exact keep _
  | some c =>
    obtain ⟨b,read,related⟩ := lookupZip work found
    obtain ⟨a,here,held⟩ := lookupRead reads read
    rw [List.getElem?_eq_getElem bound,Option.some.injEq] at here
    exact here ▸ write a b c held related

theorem scatterReads {f : β → α → α} {xs : List α} {is : List Nat} {cs : List β} {P : α → β → Prop}
    (once : is.Nodup) (reads : List.Forall₂ (fun i c => ∃ a, xs[i]? = some a ∧ P (f c a) c) is cs) :
    List.Forall₂ (fun i c => ∃ a, (scatter f xs (is.zip cs))[i]? = some a ∧ P a c) is cs := by
  have keys : ((is.zip cs).map Prod.fst).Nodup := by
    rwa [List.map_fst_zip (Nat.le_of_eq reads.length_eq)]
  refine List.forall₂_iff_get.mpr ⟨reads.length_eq,fun n bound bound' => ?_⟩
  obtain ⟨a,here,held⟩ := (List.forall₂_iff_get.mp reads).2 n bound bound'
  refine ⟨_,?_,held⟩
  have found : (is.zip cs).lookup (is.get ⟨n,bound⟩) = some (cs.get ⟨n,bound'⟩) := by
    rw [List.lookup_eq_some_iff]
    refine ⟨(is.zip cs).take n,(is.zip cs).drop (n+1),?_,?_⟩
    · have inside : n < (is.zip cs).length := by simp; omega
      have split := List.take_append_drop n (is.zip cs)
      rw [List.drop_eq_getElem_cons inside,List.getElem_zip] at split
      exact split.symm
    · intro p before
      obtain ⟨k,earlier,rfl⟩ := List.mem_take_iff_getElem.mp before
      simp only [List.getElem_zip,List.get_eq_getElem,bne_iff_ne,ne_eq]
      intro same
      have := (once.getElem_inj_iff).mp same
      omega
  rw [scatterGet keys,here,found]
  rfl

end Library.Scatter
