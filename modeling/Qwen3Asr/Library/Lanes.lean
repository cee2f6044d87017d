import Mathlib.Data.List.Basic
import Mathlib.Data.List.Flatten

/-! Keyed items in lists. The items of one key are a lane; items of other keys may pass each other without
being seen in any lane. -/
namespace Library.Lanes

variable {α κ : Type}

section Groups
variable (key : α → κ)

def Apart (groups : List (List α)) : Prop := groups.Pairwise fun g h => ∀ a ∈ g, ∀ b ∈ h, key a ≠ key b

variable {key} {xs ys : List α} {groups others l r : List (List α)}

theorem apartPerm (apart : Apart key groups) (same : groups.Perm others) : Apart key others :=
  (same.pairwise_iff fun different a inside b other => (different b other a inside).symm).mp apart

theorem apartFrom (apart : Apart key (l ++ xs::r)) (smaller : ∀ a ∈ ys, a ∈ xs) : Apart key (l ++ ys::r) := by
  simp only [Apart,List.pairwise_append,List.pairwise_cons,List.mem_cons] at apart ⊢
  obtain ⟨left,⟨ahead,right⟩,across⟩ := apart
  refine ⟨left,⟨fun h inside a own => ahead h inside a (smaller a own),right⟩,?_⟩
  rintro g before h (rfl | inside) a own b other
  · exact across g before xs (.inl rfl) a own b (smaller b other)
  · exact across g before h (.inr inside) a own b other

theorem apartGroups {β : Type} {f : β → List α} {index : β → κ} {bs : List β} (own : ∀ b, ∀ a ∈ f b, key a = index b)
    (distinct : (bs.map index).Nodup) : Apart key (bs.map f) := by
  refine List.pairwise_map.mpr ((List.pairwise_map.mp distinct).imp ?_)
  intro b c different a first d second same
  exact different ((own b a first).symm.trans (same.trans (own c d second)))

theorem apartHead (apart : Apart key (l ++ xs::r)) : ∀ a ∈ l.flatten, ∀ b ∈ xs, key a ≠ key b := by
  intro a inside b other
  obtain ⟨g,before,own⟩ := List.mem_flatten.mp inside
  exact (List.pairwise_append.mp apart).2.2 g before xs List.mem_cons_self a own b other

end Groups

section Lanes
variable [DecidableEq κ] (key : α → κ)

def lane (k : κ) (xs : List α) : List α := xs.filter fun a => key a = k

/- The same items in the same order in every lane. -/
def SameLanes (xs ys : List α) : Prop := ∀ k, lane key k xs = lane key k ys

variable {key} {k : κ} {a : α} {xs ys zs ws : List α} {groups others l r : List (List α)}

@[simp] theorem laneNil : lane key k [] = [] := rfl

@[simp] theorem laneAppend : lane key k (xs ++ ys) = lane key k xs ++ lane key k ys := List.filter_append ..

theorem laneCons : lane key k (a::xs) = (if key a = k then [a] else []) ++ lane key k xs := by
  by_cases same : key a = k <;> simp [lane,same]

theorem memLane : a ∈ lane key k xs ↔ a ∈ xs ∧ key a = k := by simp [lane]

theorem laneAll (all : ∀ a ∈ xs, key a = k) : lane key k xs = xs :=
  List.filter_eq_self.mpr fun a inside => decide_eq_true (all a inside)

theorem laneNone (none_ : ∀ a ∈ xs, key a ≠ k) : lane key k xs = [] :=
  List.filter_eq_nil_iff.mpr fun a inside same => none_ a inside (of_decide_eq_true same)

theorem lanePerm (same : xs.Perm ys) : (lane key k xs).Perm (lane key k ys) := same.filter _

theorem laneMap {β : Type} {f : β → α} {bs : List β} :
    lane key k (bs.map f) = (lane (key ∘ f) k bs).map f := by
  simp [lane,List.filter_map,Function.comp_def]

section Same

theorem sameRefl (xs : List α) : SameLanes key xs xs := fun _ => rfl

theorem sameOf (same : xs = ys) : SameLanes key xs ys := fun _ => by rw [same]

theorem sameTrans (first : SameLanes key xs ys) (second : SameLanes key ys zs) : SameLanes key xs zs :=
  fun k => (first k).trans (second k)

theorem sameAppend (first : SameLanes key xs ys) (second : SameLanes key zs ws) : SameLanes key (xs ++ zs) (ys ++ ws) := by
  intro k
  rw [laneAppend,laneAppend,first k,second k]

/-- Lists with the same lanes hold the same items. -/
theorem samePerm (same : SameLanes key xs ys) : xs.Perm ys := by
  classical
  rw [List.perm_iff_count]
  intro a
  have own : ∀ zs : List α, (lane key (key a) zs).count a = zs.count a := fun zs =>
    List.count_filter (p := fun b => key b = key a) (decide_eq_true rfl)
  rw [← own xs,← own ys,same (key a)]

theorem sameSwap (apart : ∀ a ∈ xs, ∀ b ∈ ys, key a ≠ key b) : SameLanes key (xs ++ ys) (ys ++ xs) := by
  intro k
  rw [laneAppend,laneAppend]
  by_cases here : lane key k xs = []
  · rw [here,List.nil_append,List.append_nil]
  · obtain ⟨a,inside⟩ := List.exists_mem_of_ne_nil _ here
    obtain ⟨inside,same⟩ := memLane.mp inside
    have none_ : lane key k ys = [] := laneNone fun b other same' => apart a inside b other (same.trans same'.symm)
    rw [none_,List.nil_append,List.append_nil]

end Same

section Order

/-- Groups without a common key may stand in any order. -/
theorem sameGroups (apart : Apart key groups) (same : groups.Perm others) :
    SameLanes key groups.flatten others.flatten := by
  induction same with
  | nil => exact sameRefl []
  | cons g _ ih => exact sameAppend (sameRefl g) (ih (List.Pairwise.of_cons apart))
  | swap g h rest =>
    obtain ⟨ahead,_⟩ := List.pairwise_cons.mp apart
    have swapped : SameLanes key (h ++ g) (g ++ h) := sameSwap (ahead g List.mem_cons_self)
    simpa [List.append_assoc] using sameAppend swapped (sameRefl rest.flatten)
  | trans first _ ih₁ ih₂ => exact sameTrans (ih₁ apart) (ih₂ (apartPerm apart first))

theorem sameTaken (apart : Apart key (l ++ (a::xs)::r)) :
    SameLanes key (l ++ (a::xs)::r).flatten (a::(l ++ xs::r).flatten) := by
  have swapped : SameLanes key (l.flatten ++ [a]) ([a] ++ l.flatten) := by
    refine sameSwap fun b inside c same => ?_
    rw [List.mem_singleton.mp same]
    exact apartHead apart b inside a List.mem_cons_self
  simpa [List.append_assoc] using sameAppend swapped (sameRefl (xs ++ r.flatten))

theorem laneGroups {β : Type} {f : β → List α} {index : β → κ} {bs : List β} (own : ∀ b, ∀ a ∈ f b, key a = index b)
    (distinct : (bs.map index).Nodup) {b : β} (inside : b ∈ bs) : lane key (index b) (bs.map f).flatten = f b := by
  induction bs with
  | nil => cases inside
  | cons c bs ih =>
    obtain ⟨fresh,rest⟩ := List.nodup_cons.mp distinct
    rw [List.map_cons,List.flatten_cons,laneAppend]
    rcases List.mem_cons.mp inside with rfl | later
    · have none_ : lane key (index b) (bs.map f).flatten = [] := laneNone fun a there same => by
        obtain ⟨_,group,held⟩ := List.mem_flatten.mp there
        obtain ⟨c,other,rfl⟩ := List.mem_map.mp group
        exact fresh (List.mem_map.mpr ⟨c,other,(own c a held).symm.trans same⟩)
      rw [none_,laneAll (own b),List.append_nil]
    · have none_ : lane key (index b) (f c) = [] := laneNone fun a held same =>
        fresh (List.mem_map.mpr ⟨b,later,same.symm.trans (own c a held)⟩)
      rw [none_,ih rest later,List.nil_append]

theorem laneMissing {β : Type} {f : β → List α} {index : β → κ} {bs : List β} (own : ∀ b, ∀ a ∈ f b, key a = index b)
    (missing : k ∉ bs.map index) : lane key k (bs.map f).flatten = [] := by
  refine laneNone fun a there same => ?_
  obtain ⟨_,group,held⟩ := List.mem_flatten.mp there
  obtain ⟨c,inside,rfl⟩ := List.mem_map.mp group
  exact missing (List.mem_map.mpr ⟨c,inside,(own c a held).symm.trans same⟩)

end Order

end Lanes

theorem splitAt {β : Type} {bs : List β} {n : Nat} {b : β} (found : bs[n]? = some b) :
    ∃ before behind, bs = before ++ b::behind ∧ bs.eraseIdx n = before ++ behind ∧
      ∀ c, bs.set n c = before ++ c::behind := by
  obtain ⟨bound,rfl⟩ := List.getElem?_eq_some_iff.mp found
  refine ⟨bs.take n,bs.drop (n+1),?_,List.eraseIdx_eq_take_drop_succ bs n,fun c => ?_⟩
  · rw [List.getElem_cons_drop,List.take_append_drop]
  · rw [List.set_eq_take_append_cons_drop,if_pos bound]

end Library.Lanes
