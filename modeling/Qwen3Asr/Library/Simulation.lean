import Qwen3Asr.Library.Effect

/-! One computation does what another does on a part of its state: it returns where the other returns
and fails where it fails, and leaves that part as the other would. -/
namespace Library.Simulation
open Effect

variable {ε σ τ α β γ δ : Type} {view : σ → τ}

/- What the two return, and the state of the one, are related by `P`. -/
def Simulates (view : σ → τ) (P : α → σ → β → Prop) (r : EStateM.Result ε σ α) : EStateM.Result ε τ β → Prop
  | .ok b t => ∃ a s, r = .ok a s ∧ view s = t ∧ P a s b
  | .error e t => ∃ s, r = .error e s ∧ view s = t

theorem simulatesBind {P : α → σ → β → Prop} {Q : γ → σ → δ → Prop} {x : EStateM ε σ α} {f : α → EStateM ε σ γ}
    {x' : EStateM ε τ β} {f' : β → EStateM ε τ δ} {s : σ} {t : τ} (first : Simulates view P (x s) (x' t))
    (rest : ∀ a s b, P a s b → Simulates view Q (f a s) (f' b (view s))) :
    Simulates view Q ((x >>= f) s) ((x' >>= f') t) := by
  cases ran : x' t with
  | ok b t' =>
    rw [ran] at first
    obtain ⟨a,s',did,rfl,related⟩ := first
    rw [bindThen did,bindThen ran]
    exact rest a s' b related
  | error e t' =>
    rw [ran] at first
    obtain ⟨s',did,seen⟩ := first
    rw [bindFailed did,bindFailed ran]
    exact ⟨s',rfl,seen⟩

theorem simulatesMono {P Q : α → σ → β → Prop} {r : EStateM.Result ε σ α} {r' : EStateM.Result ε τ β}
    (simulates : Simulates view P r r') (weaker : ∀ a s b, P a s b → Q a s b) : Simulates view Q r r' := by
  cases r' with
  | ok b t =>
    obtain ⟨a,s,did,seen,related⟩ := simulates
    exact ⟨a,s,did,seen,weaker a s b related⟩
  | error e t => exact simulates

theorem simulatesZoom {set : τ → σ → σ} (lens : ∀ t s, view (set t s) = t) (x : EStateM ε τ β) (s : σ) :
    Simulates view (fun a s' b => a = b ∧ ∃ t, s' = set t s) (zoom view set x s) (x (view s)) := by
  unfold zoom
  cases x (view s) with
  | ok b t => exact ⟨b,_,rfl,lens t s,rfl,t,rfl⟩
  | error e t => exact ⟨_,rfl,lens t s⟩

theorem simulatesOutcome {P : α → σ → α → Prop} {r : EStateM.Result ε σ α} {r' : EStateM.Result ε τ α}
    (simulates : Simulates view P r r') (same : ∀ a s b, P a s b → a = b) :
    outcome r = outcome r' ∧ view (after r) = after r' := by
  cases r' with
  | ok b t =>
    obtain ⟨a,s,rfl,seen,related⟩ := simulates
    exact ⟨congrArg Except.ok (same a s b related),seen⟩
  | error e t =>
    obtain ⟨s,rfl,seen⟩ := simulates
    exact ⟨rfl,seen⟩

abbrev Alike (view : σ → τ) (x : EStateM ε σ α) (y : EStateM ε τ α) : Prop :=
  ∀ s, Simulates view (fun a _ b => a = b) (x s) (y (view s))

section Alike

theorem alikePure (a : α) : Alike view (pure a : EStateM ε σ α) (pure a) := fun s => ⟨a,s,rfl,rfl,rfl⟩

theorem alikeThrow (e : ε) : Alike view (throw e : EStateM ε σ α) (throw e) := fun s => ⟨s,rfl,rfl⟩

theorem alikeAttempt (x : Except ε α) : Alike view (attempt x) (attempt x) := by
  cases x with
  | ok a => exact alikePure a
  | error e => exact alikeThrow e

theorem alikeRefl (x : EStateM ε σ α) : Alike id x x := by
  intro s
  change Simulates id _ (x s) (x s)
  cases x s with
  | ok a t => exact ⟨a,t,rfl,rfl,rfl⟩
  | error e t => exact ⟨t,rfl,rfl⟩

theorem alikeBind {x : EStateM ε σ α} {y : EStateM ε τ α} {f : α → EStateM ε σ β} {g : α → EStateM ε τ β}
    (first : Alike view x y) (rest : ∀ a, Alike view (f a) (g a)) : Alike view (x >>= f) (y >>= g) :=
  fun s => simulatesBind (first s) fun a t b same => by
    subst same
    exact rest a t

theorem alikeIf {c : Prop} [Decidable c] {x x' : EStateM ε σ α} {y y' : EStateM ε τ α} (yes : Alike view x y)
    (no : Alike view x' y') : Alike view (if c then x else x') (if c then y else y') := by
  split
  · exact yes
  · exact no

theorem alikeGet {f : σ → EStateM ε σ α} {g : τ → EStateM ε τ α} (rest : ∀ s, Alike view (f s) (g (view s))) :
    Alike view (get >>= f) (get >>= g) := fun s => rest s s

theorem alikeModify {f : σ → σ} {g : τ → τ} (moves : ∀ s, view (f s) = g (view s)) :
    Alike view (modify f : EStateM ε σ Unit) (modify g) := fun s => ⟨(),f s,rfl,moves s,rfl⟩

theorem alikeZoom {σ' τ' : Type} {inner : σ' → τ'} {get : σ → σ'} {set : σ' → σ → σ} {get' : τ → τ'} {set' : τ' → τ → τ}
    {x : EStateM ε σ' α} {y : EStateM ε τ' α} (alike : Alike inner x y) (seen : ∀ s, inner (get s) = get' (view s))
    (back : ∀ t s, view (set t s) = set' (inner t) (view s)) : Alike view (zoom get set x) (zoom get' set' y) := by
  intro s
  have same := alike (get s)
  unfold zoom
  rw [← seen s]
  cases ran : y (inner (get s)) with
  | ok b t =>
    rw [ran] at same
    obtain ⟨a,u,did,rfl,rfl⟩ := same
    rw [did]
    exact ⟨_,_,rfl,back u s,rfl⟩
  | error e t =>
    rw [ran] at same
    obtain ⟨u,did,rfl⟩ := same
    rw [did]
    exact ⟨_,rfl,back u s⟩

theorem alikeOk {x : EStateM ε σ α} {y : EStateM ε τ α} (alike : Alike view x y) {s t : σ} {a : α} (ok : x s = .ok a t) :
    y (view s) = .ok a (view t) := by
  have same := alike s
  cases ran : y (view s) with
  | ok b u =>
    rw [ran,ok] at same
    obtain ⟨_,_,did,rfl,rfl⟩ := same
    cases did
    rfl
  | error e u =>
    rw [ran,ok] at same
    obtain ⟨_,did,_⟩ := same
    cases did

theorem alikeError {x : EStateM ε σ α} {y : EStateM ε τ α} (alike : Alike view x y) {s t : σ} {e : ε}
    (failed : x s = .error e t) : y (view s) = .error e (view t) := by
  have same := alike s
  cases ran : y (view s) with
  | ok b u =>
    rw [ran,failed] at same
    obtain ⟨_,_,did,_⟩ := same
    cases did
  | error e u =>
    rw [ran,failed] at same
    obtain ⟨_,did,rfl⟩ := same
    cases did
    rfl

end Alike

end Library.Simulation
