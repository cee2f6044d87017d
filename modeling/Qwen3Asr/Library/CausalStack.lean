import Mathlib.Data.List.Basic

/-! A stack of causal layers. A layer makes a key of every column, and each column attends to the
held keys up to its own. What a pass over some columns leaves is what later columns need of them. -/
namespace Library.CausalStack

structure Layer (η π κ : Type) where
  project : η → π → κ
  attend : η → π → List κ → η

structure Input (η π : Type) where
  hidden : η
  position : π
  /-- Columns may attend to this one. -/
  holds : Bool

variable {η π κ : Type}

def key (layer : Layer η π κ) (c : Input η π) : κ := layer.project c.hidden c.position

def held (layer : Layer η π κ) (cs : List (Input η π)) : List κ := (cs.filter Input.holds).map (key layer)

/- One column after the other; `seen` are the held keys so far. -/
def pass (layer : Layer η π κ) : List κ → List (Input η π) → List (Input η π)
  | _, [] => []
  | seen, c::cs =>
    let seen := if c.holds then seen ++ [key layer c] else seen
    {c with hidden := layer.attend c.hidden c.position seen} :: pass layer seen cs

def stackKeys : List (Layer η π κ) → (Nat → List κ) → List (Input η π) → Nat → List κ
  | [], _, _, _ => []
  | layer::_, _, cs, 0 => cs.map (key layer)
  | layer::layers, seen, cs, m+1 => stackKeys layers (fun m => seen (m+1)) (pass layer (seen 0) cs) m

def stackOut : List (Layer η π κ) → (Nat → List κ) → List (Input η π) → List (Input η π)
  | [], _, cs => cs
  | layer::layers, seen, cs => stackOut layers (fun m => seen (m+1)) (pass layer (seen 0) cs)

section Pass
variable {layer : Layer η π κ} {seen : List κ} {cs ds : List (Input η π)}

theorem heldCons (c : Input η π) :
    held layer (c::cs) = if c.holds then key layer c :: held layer cs else held layer cs := by
  unfold held
  rw [List.filter_cons]
  split <;> rfl

theorem passAppend : pass layer seen (cs ++ ds) = pass layer seen cs ++ pass layer (seen ++ held layer cs) ds := by
  induction cs generalizing seen with
  | nil => simp [pass,held]
  | cons c cs ih =>
    simp only [List.cons_append,pass,ih,heldCons]
    split <;> simp

/- A column that is not held changes nothing for the others. -/
theorem passHeld : (pass layer seen cs).filter Input.holds = pass layer seen (cs.filter Input.holds) := by
  induction cs generalizing seen with
  | nil => rfl
  | cons c cs ih =>
    rw [pass,List.filter_cons,List.filter_cons]
    split
    · next holds => rw [pass,ih,if_pos holds]
    · exact ih

theorem passHolds : (pass layer seen cs).map Input.holds = cs.map Input.holds := by
  induction cs generalizing seen with
  | nil => rfl
  | cons c cs ih => simp [pass,ih]

theorem passPositions : (pass layer seen cs).map Input.position = cs.map Input.position := by
  induction cs generalizing seen with
  | nil => rfl
  | cons c cs ih => simp [pass,ih]

theorem passLength : (pass layer seen cs).length = cs.length := by
  have holds : (pass layer seen cs).map Input.holds = cs.map Input.holds := passHolds
  simpa using congrArg List.length holds

/- All columns at once: column `t` attends to the held keys of the first `t+1`. -/
theorem passParallel : pass layer seen cs = cs.mapIdx fun t c =>
    {c with hidden := layer.attend c.hidden c.position (seen ++ held layer (cs.take (t+1)))} := by
  induction cs generalizing seen with
  | nil => rfl
  | cons c cs ih =>
    simp only [pass,ih,List.mapIdx_cons,List.take_succ_cons,heldCons]
    split <;> simp [held]

theorem passAt {t : Nat} {c : Input η π} (found : cs[t]? = some c) (all : ∀ c ∈ cs, c.holds = true) :
    (pass layer [] cs)[t]? = some {c with hidden := layer.attend c.hidden c.position ((cs.take (t+1)).map (key layer))} := by
  have kept : (cs.take (t+1)).filter Input.holds = cs.take (t+1) :=
    List.filter_eq_self.mpr fun c inside => all c (List.mem_of_mem_take inside)
  rw [passParallel,List.getElem?_mapIdx,found,held,kept]
  rfl

theorem passPrefix (grows : cs <+: ds) : pass layer [] cs <+: pass layer [] ds := by
  obtain ⟨rest,rfl⟩ := grows
  rw [passAppend]
  exact List.prefix_append _ _

theorem passAll (all : ∀ c ∈ cs, c.holds = true) : ∀ c ∈ pass layer seen cs, c.holds = true := by
  intro c inside
  have bits : c.holds ∈ (pass layer seen cs).map Input.holds := List.mem_map_of_mem inside
  rw [passHolds] at bits
  obtain ⟨d,there,same⟩ := List.mem_map.mp bits
  exact same ▸ all d there

end Pass

section Stack
variable {layers : List (Layer η π κ)} {seen : Nat → List κ} {cs ds : List (Input η π)}

theorem stackOutLength : (stackOut layers seen cs).length = cs.length := by
  induction layers generalizing seen cs with
  | nil => rfl
  | cons layer layers ih => rw [stackOut,ih,passLength]

theorem stackOutHolds : (stackOut layers seen cs).map Input.holds = cs.map Input.holds := by
  induction layers generalizing seen cs with
  | nil => rfl
  | cons layer layers ih => rw [stackOut,ih,passHolds]

theorem stackOutHeld : (stackOut layers seen cs).filter Input.holds =
    stackOut layers seen (cs.filter Input.holds) := by
  induction layers generalizing seen cs with
  | nil => rfl
  | cons layer layers ih => rw [stackOut,stackOut,ih,passHeld]

theorem stackKeysLength {m : Nat} (layer : m < layers.length) : (stackKeys layers seen cs m).length = cs.length := by
  induction layers generalizing seen cs m with
  | nil => cases layer
  | cons first layers ih =>
    cases m with
    | zero => exact List.length_map _
    | succ m => rw [stackKeys,ih (Nat.lt_of_succ_lt_succ layer),passLength]

theorem stackOutCongr {seen' : Nat → List κ} (same : ∀ m, m < layers.length → seen m = seen' m) :
    stackOut layers seen cs = stackOut layers seen' cs := by
  induction layers generalizing seen seen' cs with
  | nil => rfl
  | cons layer layers ih =>
    rw [stackOut,stackOut,same 0 (Nat.zero_lt_succ _)]
    exact ih fun m bound => same (m+1) (Nat.succ_lt_succ bound)

theorem stackKeysCongr {seen' : Nat → List κ} (same : ∀ m, m < layers.length → seen m = seen' m) (m : Nat) :
    stackKeys layers seen cs m = stackKeys layers seen' cs m := by
  induction layers generalizing seen seen' cs m with
  | nil => rfl
  | cons layer layers ih =>
    cases m with
    | zero => rfl
    | succ m =>
      rw [stackKeys,stackKeys,same 0 (Nat.zero_lt_succ _)]
      exact ih (fun m bound => same (m+1) (Nat.succ_lt_succ bound)) m

def seenAfter (layers : List (Layer η π κ)) (seen : Nat → List κ) (cs : List (Input η π)) (m : Nat) : List κ :=
  seen m ++ stackKeys layers seen (cs.filter Input.holds) m

theorem seenAfterZero (layer : Layer η π κ) :
    seenAfter (layer::layers) seen cs 0 = seen 0 ++ held layer cs := rfl

theorem seenAfterNext (layer : Layer η π κ) (m : Nat) : seenAfter (layer::layers) seen cs (m+1) =
    seenAfter layers (fun m => seen (m+1)) (pass layer (seen 0) cs) m := by
  rw [seenAfter,stackKeys,seenAfter,passHeld]

/-- A pass over the rest of the columns resumes from the held keys of the first ones. -/
theorem stackOutAppend : stackOut layers seen (cs ++ ds) =
    stackOut layers seen cs ++ stackOut layers (seenAfter layers seen cs) ds := by
  induction layers generalizing seen cs ds with
  | nil => rfl
  | cons layer layers ih =>
    simp only [stackOut,passAppend,ih,seenAfterZero,seenAfterNext]

theorem stackKeysAppend (m : Nat) : stackKeys layers seen (cs ++ ds) m =
    stackKeys layers seen cs m ++ stackKeys layers (seenAfter layers seen cs) ds m := by
  induction layers generalizing seen cs ds m with
  | nil => rfl
  | cons layer layers ih =>
    cases m with
    | zero => exact List.map_append
    | succ m =>
      simp only [stackKeys,passAppend,ih,seenAfterZero,seenAfterNext]

end Stack

section Visible

def visible (bits : List Bool) (keys : List κ) : List κ := ((bits.zip keys).filter Prod.fst).map Prod.snd

theorem visibleCons (b : Bool) (bits : List Bool) (k : κ) (keys : List κ) :
    visible (b::bits) (k::keys) = if b then k :: visible bits keys else visible bits keys := by
  unfold visible
  rw [List.zip_cons_cons,List.filter_cons]
  split <;> rfl

theorem visibleAppend {bits bits' : List Bool} {keys keys' : List κ} (same : bits.length = keys.length) :
    visible (bits ++ bits') (keys ++ keys') = visible bits keys ++ visible bits' keys' := by
  unfold visible
  rw [List.zip_append same,List.filter_append,List.map_append]

theorem visibleTake (bits : List Bool) (keys : List κ) (bound : Nat) :
    visible (bits.take bound) (keys.take bound) = visible (bits.take bound) keys := by
  induction bits generalizing keys bound with
  | nil => simp [visible]
  | cons b bits ih =>
    cases keys with
    | nil => simp
    | cons k keys =>
      cases bound with
      | zero => simp [visible]
      | succ bound => rw [List.take_succ_cons,List.take_succ_cons,visibleCons,visibleCons,ih]

theorem visibleMap {α : Type} (p : α → Bool) (f : α → κ) (xs : List α) :
    visible (xs.map p) (xs.map f) = (xs.filter p).map f := by
  induction xs with
  | nil => rfl
  | cons x xs ih =>
    rw [List.map_cons,List.map_cons,visibleCons,ih,List.filter_cons]
    split <;> rfl

theorem visibleAll {bits : List Bool} {keys : List κ} (all : ∀ b ∈ bits, b = true) (same : bits.length = keys.length) :
    visible bits keys = keys := by
  induction bits generalizing keys with
  | nil => exact (List.eq_nil_of_length_eq_zero same.symm).symm
  | cons b bits ih =>
    cases keys with
    | nil => cases same
    | cons k keys =>
      rw [visibleCons,all b List.mem_cons_self,if_pos rfl,
        ih (fun b inside => all b (List.mem_cons_of_mem _ inside)) (Nat.succ.inj same)]

theorem visibleNone (bits : List Bool) (keys : List κ) : visible (bits.mapIdx fun _ _ => false) keys = [] := by
  unfold visible
  rw [List.filter_eq_nil_iff.mpr,List.map_nil]
  intro p inside
  have bit := (List.of_mem_zip inside).1
  obtain ⟨j,_,same⟩ := List.mem_mapIdx.mp bit
  simp [← same]

theorem visibleCausal (bits : List Bool) (keys : List κ) (bound : Nat) :
    visible (bits.mapIdx fun j b => decide (j < bound) && b) keys = visible (bits.take bound) keys := by
  induction bits generalizing keys bound with
  | nil => simp [visible]
  | cons b bits ih =>
    cases keys with
    | nil => simp [visible]
    | cons k keys =>
      cases bound with
      | zero =>
        simp only [Nat.not_lt_zero,decide_false,Bool.false_and]
        exact visibleNone (b::bits) (k::keys)
      | succ bound =>
        have rest := ih keys bound
        simp only [List.mapIdx_cons,List.take_succ_cons,visibleCons,Nat.zero_lt_succ,decide_true,
          Bool.true_and,Nat.add_lt_add_iff_right]
        rw [rest]

theorem visibleKeys (layers : List (Layer η π κ)) (seen : Nat → List κ) (cs : List (Input η π)) (m : Nat) :
    visible (cs.map Input.holds) (stackKeys layers seen cs m) = stackKeys layers seen (cs.filter Input.holds) m := by
  induction layers generalizing seen cs m with
  | nil => simp [stackKeys,visible]
  | cons layer layers ih =>
    cases m with
    | zero => exact visibleMap Input.holds (key layer) cs
    | succ m =>
      have rest := ih (fun m => seen (m+1)) (pass layer (seen 0) cs) m
      rwa [passHolds,passHeld] at rest

end Visible

end Library.CausalStack
