import Mathlib.Data.List.Nodup
import Mathlib.Data.List.Range
import Qwen3Asr.Library.Effect

/-! Work on a list that treats every row alone. It may be done in groups of any size and in any order
of the rows, as long as every result goes back to the place of its row. -/
namespace Library.Rowwise
open Effect

variable {ε α β γ ι : Type}

/- What is returned for the list is what is returned for each of its rows. -/
def ByRow (f : α → Except ε β) (F : List α → Except ε (List β)) : Prop :=
  ∀ xs ys, F xs = .ok ys ↔ List.Forall₂ (fun x y => f x = .ok y) xs ys

section Rules
variable {f : α → Except ε β} {F : List α → Except ε (List β)}

theorem rowsOk {xs : List α} (each : ∀ x ∈ xs, ∃ y, f x = .ok y) :
    ∃ ys, List.Forall₂ (fun x y => f x = .ok y) xs ys := by
  induction xs with
  | nil => exact ⟨[],.nil⟩
  | cons x xs ih =>
    obtain ⟨⟨y,first⟩,rest⟩ := List.forall_mem_cons.mp each
    obtain ⟨ys,pairs⟩ := ih rest
    exact ⟨y::ys,.cons first pairs⟩

/-- Enough: the rows' results are returned, and nothing is returned where a row fails. -/
theorem byRowOf (returns : ∀ xs ys, List.Forall₂ (fun x y => f x = .ok y) xs ys → F xs = .ok ys)
    (needs : ∀ xs ys, F xs = .ok ys → ∀ x ∈ xs, ∃ y, f x = .ok y) : ByRow f F := by
  intro xs ys
  constructor
  · intro ok
    obtain ⟨zs,pairs⟩ := rowsOk (needs xs ys ok)
    obtain rfl := Except.ok.inj (ok.symm.trans (returns xs zs pairs))
    exact pairs
  · exact returns xs ys

theorem rowsNeeded {xs : List α} {ys : List β} (pairs : List.Forall₂ (fun x y => f x = .ok y) xs ys) :
    ∀ x ∈ xs, ∃ y, f x = .ok y := by
  induction pairs with
  | nil => exact fun _ inside => (by cases inside)
  | cons first _ ih => exact List.forall_mem_cons.mpr ⟨⟨_,first⟩,ih⟩

theorem byRowLength (byRow : ByRow f F) {xs : List α} {ys : List β} (ok : F xs = .ok ys) : xs.length = ys.length :=
  ((byRow xs ys).mp ok).length_eq

theorem byRowMapM (f : α → Except ε β) : ByRow f (List.mapM f) := fun _ _ => exceptMapM

theorem mapMLength {xs : List α} {ys : List β} (ok : xs.mapM f = .ok ys) : ys.length = xs.length :=
  (byRowLength (byRowMapM f) ok).symm

theorem byRowPure (h : α → β) : ByRow (ε := ε) (fun x => .ok (h x)) (fun xs => .ok (xs.map h)) := by
  intro xs ys
  rw [Except.ok.injEq]
  simp only [Except.ok.injEq]
  constructor
  · rintro rfl
    exact List.forall₂_map_right_iff.mpr (List.forall₂_same.mpr fun _ _ => rfl)
  · intro pairs
    rw [← List.forall₂_eq_eq_eq]
    exact List.forall₂_map_left_iff.mpr pairs

theorem rowsAfter {g : β → Except ε γ} {xs : List α} {ys : List β} (first : List.Forall₂ (fun x y => f x = .ok y) xs ys)
    (zs : List γ) : List.Forall₂ (fun x z => (f x >>= g) = .ok z) xs zs ↔ List.Forall₂ (fun y z => g y = .ok z) ys zs := by
  induction first generalizing zs with
  | nil => simp only [List.forall₂_nil_left_iff]
  | @cons x y xs ys head _ ih =>
    have here : (f x >>= g) = g y := by rw [head]; rfl
    simp only [List.forall₂_cons_left_iff,ih,here]

/- Two lists together, where the rows of one are first put through a function of their own. -/
theorem rowsBoth {g : ι → β → Except ε γ} {xs : List α} {ys : List ι} (same : xs.length = ys.length) {out : List γ} :
    (∃ zs, List.Forall₂ (fun x z => f x = .ok z) xs zs ∧ (ys.zip zs).mapM (fun q => g q.1 q.2) = .ok out) ↔
      (xs.zip ys).mapM (fun q => f q.1 >>= g q.2) = .ok out := by
  simp only [exceptMapM]
  induction xs generalizing ys out with
  | nil =>
    cases List.length_eq_zero_iff.mp same.symm
    simp
  | cons x xs ih =>
    cases ys with
    | nil => cases same
    | cons y ys =>
      have rest (out : List γ) := @ih ys (Nat.succ.inj same) out
      constructor
      · rintro ⟨_,own,results⟩
        obtain ⟨z,zs,first,later,rfl⟩ := List.forall₂_cons_left_iff.mp own
        obtain ⟨w,out,head,tail,rfl⟩ := List.forall₂_cons_left_iff.mp results
        exact .cons (exceptBind.mpr ⟨z,first,head⟩) ((rest out).mp ⟨zs,later,tail⟩)
      · intro results
        obtain ⟨w,out,made,tail,rfl⟩ := List.forall₂_cons_left_iff.mp results
        obtain ⟨z,first,head⟩ := exceptBind.mp made
        obtain ⟨zs,later,results⟩ := (rest out).mpr tail
        exact ⟨z::zs,.cons first later,.cons head results⟩

theorem byRowBind {g : β → Except ε γ} {G : List β → Except ε (List γ)} (first : ByRow f F) (second : ByRow g G) :
    ByRow (fun x => f x >>= g) (fun xs => F xs >>= G) := by
  intro xs zs
  constructor
  · intro ok
    obtain ⟨ys,ran,more⟩ := exceptBind.mp ok
    exact (rowsAfter ((first xs ys).mp ran) zs).mpr ((second ys zs).mp more)
  · intro pairs
    obtain ⟨ys,before⟩ := rowsOk fun x inside => by
      obtain ⟨z,both⟩ := rowsNeeded pairs x inside
      obtain ⟨y,here,_⟩ := exceptBind.mp both
      exact ⟨y,here⟩
    exact exceptBind.mpr ⟨ys,(first xs ys).mpr before,(second ys zs).mpr ((rowsAfter before zs).mp pairs)⟩

theorem byRowZip (byRow : ByRow f F) :
    ByRow (fun x => f x >>= fun y => .ok (x,y)) (fun xs => F xs >>= fun ys => .ok (xs.zip ys)) := by
  refine byRowOf (fun xs pairs related => ?_) fun xs pairs ok => ?_
  · have parts : List.Forall₂ (fun x y => f x = .ok y) xs (pairs.map Prod.snd) ∧ xs.zip (pairs.map Prod.snd) = pairs := by
      induction related with
      | nil => exact ⟨.nil,rfl⟩
      | cons head _ ih =>
        obtain ⟨y,here,last⟩ := exceptBind.mp head
        obtain rfl := Except.ok.inj last
        exact ⟨.cons here ih.1,congrArg _ ih.2⟩
    exact exceptBind.mpr ⟨_,(byRow _ _).mpr parts.1,by rw [parts.2]⟩
  · obtain ⟨ys,ran,_⟩ := exceptBind.mp ok
    intro x inside
    obtain ⟨y,here⟩ := rowsNeeded ((byRow xs ys).mp ran) x inside
    exact ⟨(x,y),exceptBind.mpr ⟨y,here,rfl⟩⟩

/- Groups worked on one after another come to the whole list. -/
theorem groupsByRow (byRow : ByRow f F) (groups : List (List α)) (ys : List β) :
    (∃ parts, groups.mapM F = .ok parts ∧ parts.flatten = ys) ↔ List.Forall₂ (fun x y => f x = .ok y) groups.flatten ys := by
  induction groups generalizing ys with
  | nil => simp [pure,Except.pure,eq_comm]
  | cons group groups ih =>
    rw [List.flatten_cons]
    constructor
    · rintro ⟨parts,ok,rfl⟩
      rw [List.mapM_cons] at ok
      obtain ⟨part,first,ok⟩ := exceptBind.mp ok
      obtain ⟨rest,tail,last⟩ := exceptBind.mp ok
      obtain rfl := Except.ok.inj last
      exact List.rel_append ((byRow group part).mp first) ((ih rest.flatten).mp ⟨rest,tail,rfl⟩)
    · intro pairs
      have first := List.forall₂_take_append ys group groups.flatten pairs.flip
      have rest := List.forall₂_drop_append ys group groups.flatten pairs.flip
      obtain ⟨parts,tail,joined⟩ := (ih _).mpr rest.flip
      refine ⟨ys.take group.length::parts,?_,?_⟩
      · rw [List.mapM_cons]
        exact exceptBind.mpr ⟨_,(byRow group _).mpr first.flip,exceptBind.mpr ⟨_,tail,rfl⟩⟩
      · rw [List.flatten_cons,joined,List.take_append_drop]

end Rules

section Filling
variable (n : Nat) (value : Nat → β)

def filled (done : List Nat) : List (Option β) := (List.range n).map fun i => if i ∈ done then some (value i) else none

def readSlots (missing : Nat → ε) (slots : List (Option β)) : Except ε (List β) :=
  slots.zipIdx.mapM fun (slot,i) => match slot with
    | some x => .ok x
    | none => .error (missing i)

theorem filledNil : filled n value [] = List.replicate n none := by
  simp [filled]

variable {n} {value} {done : List Nat}

theorem filledGet {i : Nat} (inside : i < n) : (filled n value done)[i]? = some (if i ∈ done then some (value i) else none) := by
  simp [filled,inside]

theorem filledSet (i : Nat) : (filled n value done).set i (some (value i)) = filled n value (done ++ [i]) := by
  refine List.ext_getElem? fun k => ?_
  rw [List.getElem?_set]
  by_cases within : k < n
  · rw [filledGet within,filledGet within]
    by_cases same : i = k
    · subst same
      simp [filled,within]
    · simp [same,Ne.symm same]
  · simp [filled,within]
    omega

theorem filledAll (all : ∀ i < n, i ∈ done) : filled n value done = ((List.range n).map value).map some := by
  rw [List.map_map]
  refine List.map_congr_left fun i inside => ?_
  rw [if_pos (all i (List.mem_range.mp inside))]
  rfl

theorem slotsRead (missing : Nat → ε) (xs : List β) : readSlots missing (xs.map some) = .ok xs := by
  unfold readSlots
  rw [exceptMapM]
  refine List.forall₂_iff_get.mpr ⟨by simp,fun i h h' => ?_⟩
  simp

end Filling

section Groups
variable {n : Nat} {value : Nat → β} {f : ι → Except ε β} (key : ι → Nat) (good : List ι → Prop)
  {step : List (Option β) → List ι → Except ε (List (Option β))}

/-- Groups that together have every place once fill all slots, in whichever order they are taken. -/
theorem scatterAll
    (fills : ∀ done group, good group → (∀ e ∈ group, f e = .ok (value (key e)) ∧ key e < n ∧ key e ∉ done) →
      (group.map key).Nodup → step (filled n value done) group = .ok (filled n value (done ++ group.map key)))
    {groups : List (List ι)} (sound : ∀ group ∈ groups, good group) (places : (groups.flatten.map key).Perm (List.range n))
    (each : ∀ e ∈ groups.flatten, f e = .ok (value (key e))) :
    groups.foldlM step (List.replicate n none) = .ok (((List.range n).map value).map some) := by
  have run : ∀ (groups : List (List ι)) (done : List Nat), (∀ group ∈ groups, good group) →
      (done ++ groups.flatten.map key).Nodup → (∀ e ∈ groups.flatten, f e = .ok (value (key e)) ∧ key e < n) →
      groups.foldlM step (filled n value done) = .ok (filled n value (done ++ groups.flatten.map key)) := by
    intro groups
    induction groups with
    | nil => simp [pure,Except.pure]
    | cons group groups ih =>
      intro done sound once each
      rw [List.flatten_cons,List.map_append,← List.append_assoc] at once ⊢
      obtain ⟨here,others⟩ := List.forall_mem_cons.mp sound
      obtain ⟨first,rest⟩ := List.forall_mem_append.mp (List.flatten_cons ▸ each)
      have taken := (List.nodup_append.mp once).1
      have apart : ∀ e ∈ group, key e ∉ done := fun e inside there =>
        (List.nodup_append.mp taken).2.2 _ there _ (List.mem_map_of_mem inside) rfl
      rw [List.foldlM_cons,fills done group here
        (fun e inside => ⟨(first e inside).1,(first e inside).2,apart e inside⟩) (List.nodup_append.mp taken).2.1]
      exact ih (done ++ group.map key) others once rest
  have within : ∀ e ∈ groups.flatten, key e < n := fun e inside =>
    List.mem_range.mp (places.subset (List.mem_map_of_mem inside))
  have whole := run groups [] sound (by simpa using places.nodup_iff.mpr List.nodup_range)
    fun e inside => ⟨each e inside,within e inside⟩
  rw [← filledNil n value,whole,List.nil_append,
    filledAll fun i inside => places.symm.subset (List.mem_range.mpr inside)]

theorem groupsNeeded
    (needs : ∀ slots group slots', good group → step slots group = .ok slots' → ∀ e ∈ group, ∃ y, f e = .ok y)
    {groups : List (List ι)} (sound : ∀ group ∈ groups, good group) {slots slots' : List (Option β)}
    (ok : groups.foldlM step slots = .ok slots') : ∀ e ∈ groups.flatten, ∃ y, f e = .ok y := by
  induction groups generalizing slots with
  | nil => exact fun _ inside => (by cases inside)
  | cons group groups ih =>
    obtain ⟨here,others⟩ := List.forall_mem_cons.mp sound
    rw [List.foldlM_cons] at ok
    obtain ⟨_,first,rest⟩ := exceptBind.mp ok
    rw [List.flatten_cons]
    exact List.forall_mem_append.mpr ⟨needs _ _ _ here first,ih others rest⟩

end Groups

end Library.Rowwise
