import Mathlib.Data.List.Basic

/-! Machines that take one action after another. An action that is not possible in a state has no
next state; which action is taken is chosen from outside. -/
namespace Library.Machine

variable {σ α : Type}

def run (step : σ → α → Option σ) : σ → List α → Option σ
  | s, [] => some s
  | s, a::as => match step s a with
    | none => none
    | some t => run step t as

def Stuck (step : σ → α → Option σ) (among : α → Prop) (s : σ) : Prop := ∀ a, among a → step s a = none

variable {step : σ → α → Option σ} {s t : σ} {as : List α}

theorem runCons {a : α} : run step s (a::as) = some t ↔ ∃ u, step s a = some u ∧ run step u as = some t := by
  rw [run]
  cases step s a <;> simp

theorem runAppend {bs : List α} : run step s (as ++ bs) = some t ↔ ∃ u, run step s as = some u ∧ run step u bs = some t := by
  induction as generalizing s with
  | nil => simp [run]
  | cons a as ih =>
    rw [List.cons_append,runCons]
    constructor
    · intro ⟨u,first,rest⟩
      obtain ⟨v,before,after⟩ := ih.mp rest
      exact ⟨v,runCons.mpr ⟨u,first,before⟩,after⟩
    · intro ⟨v,before,after⟩
      obtain ⟨u,first,rest⟩ := runCons.mp before
      exact ⟨u,first,ih.mpr ⟨v,rest,after⟩⟩

/-- What holds at the start and is kept by every action holds throughout. -/
theorem invariant {Inv : σ → Prop} (kept : ∀ s a t, Inv s → step s a = some t → Inv t) (start : Inv s)
    (ran : run step s as = some t) : Inv t := by
  induction as generalizing s with
  | nil =>
    cases ran
    exact start
  | cons a as ih =>
    obtain ⟨u,first,rest⟩ := runCons.mp ran
    exact ih (kept s a u start first) rest

/-- Actions that each lower a measure, in the states that keep an invariant, are no more than it. -/
theorem boundedWithin {among : α → Prop} {Inv : σ → Prop} (measure : σ → Nat) (kept : ∀ s a t, Inv s → step s a = some t → Inv t)
    (lower : ∀ s a t, among a → Inv s → step s a = some t → measure t < measure s) (start : Inv s)
    (all : ∀ a ∈ as, among a) (ran : run step s as = some t) : as.length+measure t ≤ measure s := by
  induction as generalizing s with
  | nil =>
    cases ran
    simp
  | cons a as ih =>
    obtain ⟨u,first,rest⟩ := runCons.mp ran
    have less := lower s a u (all a List.mem_cons_self) start first
    have later := ih (kept s a u start first) (fun b inside => all b (List.mem_cons_of_mem _ inside)) rest
    rw [List.length_cons]
    omega

/-- Actions that each lower a measure are no more than it. -/
theorem bounded {among : α → Prop} (measure : σ → Nat) (lower : ∀ s a t, among a → step s a = some t → measure t < measure s)
    (all : ∀ a ∈ as, among a) (ran : run step s as = some t) : as.length+measure t ≤ measure s :=
  boundedWithin measure (fun _ _ _ _ _ => trivial) (fun s a t one _ => lower s a t one) trivial all ran

section Observed
variable {β : Type}

def observed (step : σ → α → Option σ) (observe : σ → α → List β) : σ → List α → List β
  | _, [] => []
  | s, a::as => observe s a ++ match step s a with
    | none => []
    | some t => observed step observe t as

/- Every action is allowed in the state it is taken in. -/
def Along (step : σ → α → Option σ) (allowed : σ → α → Prop) : σ → List α → Prop
  | _, [] => True
  | s, a::as => allowed s a ∧ ∀ t, step s a = some t → Along step allowed t as

variable {observe : σ → α → List β} {allowed : σ → α → Prop}

theorem alongAll (all : ∀ s a, allowed s a) : Along step allowed s as := by
  induction as generalizing s with
  | nil => trivial
  | cons a as ih => exact ⟨all s a,fun t _ => ih⟩

instance alongDecidable [∀ s a, Decidable (allowed s a)] : ∀ (s : σ) (as : List α), Decidable (Along step allowed s as)
  | _, [] => isTrue trivial
  | s, a::as => match found : step s a with
    | none => decidable_of_iff (allowed s a) ⟨fun own => ⟨own,fun t made => by simp [found] at made⟩,And.left⟩
    | some t =>
      haveI := alongDecidable t as
      decidable_of_iff (allowed s a ∧ Along step allowed t as)
        ⟨fun both => ⟨both.1,fun u made => by simp only [found,Option.some.injEq] at made; exact made ▸ both.2⟩,
          fun along => ⟨along.1,along.2 t found⟩⟩

theorem alongBoth {among : α → Prop} (along : Along step allowed s as) (all : ∀ a ∈ as, among a) :
    Along step (fun s a => allowed s a ∧ among a) s as := by
  induction as generalizing s with
  | nil => trivial
  | cons a as ih =>
    obtain ⟨own,rest⟩ := List.forall_mem_cons.mp all
    exact ⟨⟨along.1,own⟩,fun t first => ih (along.2 t first) rest⟩

/-- What holds at the start and is kept by every allowed action, given what has been seen so far, holds throughout. -/
theorem invariantObserved (Inv : σ → List β → Prop) {seen : List β}
    (kept : ∀ s seen a t, allowed s a → Inv s seen → step s a = some t → Inv t (seen ++ observe s a))
    (start : Inv s seen) (along : Along step allowed s as) (ran : run step s as = some t) :
    Inv t (seen ++ observed step observe s as) := by
  induction as generalizing s seen with
  | nil =>
    cases ran
    rw [observed,List.append_nil]
    exact start
  | cons a as ih =>
    obtain ⟨u,first,rest⟩ := runCons.mp ran
    have later := ih (kept s seen a u along.1 start first) (along.2 u first) rest
    simpa [observed,first] using later

end Observed

end Library.Machine
