import Mathlib.Order.Defs.Unbundled
import Mathlib.Data.List.Forall2

/-! State threaded through errors. What a computation does to its state is a
relation between the state before and the state after, whether it returned or
failed; what it returned is read off step by step. -/
namespace Library.Effect

variable {ε σ τ α β : Type}

def after : EStateM.Result ε σ α → σ
  | .ok _ s => s
  | .error _ s => s

def returned : EStateM.Result ε σ α → Option α
  | .ok a _ => some a
  | .error _ _ => none

def outcome : EStateM.Result ε σ α → Except ε α
  | .ok a _ => .ok a
  | .error e _ => .error e

theorem returnedSome {r : EStateM.Result ε σ α} {a : α} : returned r = some a ↔ ∃ s, r = .ok a s := by
  cases r <;> simp [returned]

theorem outcomeOk {r : EStateM.Result ε σ α} {a : α} : outcome r = .ok a ↔ ∃ s, r = .ok a s := by
  cases r <;> simp [outcome]

theorem returnedOutcome {r : EStateM.Result ε σ α} : returned r = (outcome r).toOption := by
  cases r <;> rfl

def attempt (x : Except ε α) : EStateM ε σ α := fun s => match x with
  | .ok a => .ok a s
  | .error e => .error e s

def zoom (get : σ → τ) (set : τ → σ → σ) (x : EStateM ε τ α) : EStateM ε σ α := fun s =>
  match x (get s) with
  | .ok a t => .ok a (set t s)
  | .error e t => .error e (set t s)

theorem bindOk {x : EStateM ε σ α} {f : α → EStateM ε σ β} {s u : σ} {b : β} :
    (x >>= f) s = .ok b u ↔ ∃ a t, x s = .ok a t ∧ f a t = .ok b u := by
  change EStateM.bind x f s = _ ↔ _
  unfold EStateM.bind
  cases x s <;> simp

theorem bindError {x : EStateM ε σ α} {f : α → EStateM ε σ β} {s u : σ} {e : ε} :
    (x >>= f) s = .error e u ↔
      x s = .error e u ∨ ∃ a t, x s = .ok a t ∧ f a t = .error e u := by
  change EStateM.bind x f s = _ ↔ _
  unfold EStateM.bind
  cases x s <;> simp

theorem bindThen {x : EStateM ε σ α} {f : α → EStateM ε σ β} {s t : σ} {a : α} (ok : x s = .ok a t) :
    (x >>= f) s = f a t := by
  change EStateM.bind x f s = _
  unfold EStateM.bind
  rw [ok]

theorem bindFailed {x : EStateM ε σ α} {f : α → EStateM ε σ β} {s t : σ} {e : ε} (failed : x s = .error e t) :
    (x >>= f) s = .error e t := by
  change EStateM.bind x f s = _
  unfold EStateM.bind
  rw [failed]

theorem afterBind {x : EStateM ε σ α} {f : α → EStateM ε σ β} {s : σ} :
    after ((x >>= f) s) = match x s with
      | .ok a t => after (f a t)
      | .error _ t => t := by
  change after (EStateM.bind x f s) = _
  unfold EStateM.bind
  cases x s <;> rfl

theorem outcomeBind {x : EStateM ε σ α} {f : α → EStateM ε σ β} {s : σ} :
    outcome ((x >>= f) s) = match x s with
      | .ok a t => outcome (f a t)
      | .error e _ => .error e := by
  change outcome (EStateM.bind x f s) = _
  unfold EStateM.bind
  cases x s <;> rfl

@[simp] theorem pureRun (a : α) (s : σ) : (pure a : EStateM ε σ α) s = .ok a s := rfl

@[simp] theorem throwRun (e : ε) (s : σ) : (throw e : EStateM ε σ α) s = .error e s := rfl

@[simp] theorem getRun (s : σ) : (get : EStateM ε σ σ) s = .ok s s := rfl

@[simp] theorem modifyRun (f : σ → σ) (s : σ) : (modify f : EStateM ε σ Unit) s = .ok () (f s) := rfl

theorem attemptOk {x : Except ε α} {s t : σ} {a : α} :
    (attempt x : EStateM ε σ α) s = .ok a t ↔ x = .ok a ∧ s = t := by
  unfold attempt
  cases x <;> simp

theorem attemptError {x : Except ε α} {s t : σ} {e : ε} :
    (attempt x : EStateM ε σ α) s = .error e t ↔ x = .error e ∧ s = t := by
  unfold attempt
  cases x <;> simp

theorem attemptThen {x : Except ε α} {f : α → EStateM ε σ β} {s : σ} {a : α} (ok : x = .ok a) :
    (attempt x >>= f) s = f a s :=
  bindThen (attemptOk.mpr ⟨ok,rfl⟩)

theorem afterAttempt {x : Except ε α} {f : α → EStateM ε σ β} {s : σ} : after ((attempt x >>= f) s) = match x with
    | .ok a => after (f a s)
    | .error _ => s := by
  rw [afterBind]
  cases x <;> rfl

theorem zoomOk {get : σ → τ} {set : τ → σ → σ} {x : EStateM ε τ α} {s u : σ} {a : α} :
    zoom get set x s = .ok a u ↔ ∃ t, x (get s) = .ok a t ∧ set t s = u := by
  unfold zoom
  cases x (get s) <;> simp

theorem zoomError {get : σ → τ} {set : τ → σ → σ} {x : EStateM ε τ α} {s u : σ} {e : ε} :
    zoom get set x s = .error e u ↔ ∃ t, x (get s) = .error e t ∧ set t s = u := by
  unfold zoom
  cases x (get s) <;> simp

/-- The state a computation leaves is related to the one it started from. -/
def Within (R : σ → σ → Prop) (x : EStateM ε σ α) : Prop := ∀ s, R s (after (x s))

abbrev Keeps (P : σ → Prop) : σ → σ → Prop := fun s t => P s → P t

instance (P : σ → Prop) : IsPreorder σ (Keeps P) where
  refl _ := id
  trans _ _ _ first second := second ∘ first

abbrev Leaves (f : σ → τ) : σ → σ → Prop := fun s t => f t = f s

instance (f : σ → τ) : IsPreorder σ (Leaves f) where
  refl _ := rfl
  trans _ _ _ first second := Eq.trans second first

section Rules
variable {R : σ → σ → Prop}

theorem withinOk {x : EStateM ε σ α} (rule : Within R x) {s t : σ} {a : α} (ok : x s = .ok a t) :
    R s t := by
  have related := rule s
  rwa [ok] at related

theorem withinError {x : EStateM ε σ α} (rule : Within R x) {s t : σ} {e : ε}
    (failed : x s = .error e t) : R s t := by
  have related := rule s
  rwa [failed] at related

theorem withinModify {f : σ → σ} (rule : ∀ s, R s (f s)) :
    Within R (modify f : EStateM ε σ Unit) := rule

theorem withinZoom {Q : τ → τ → Prop} {get : σ → τ} {set : τ → σ → σ} {x : EStateM ε τ α}
    (lift : ∀ s t, Q (get s) t → R s (set t s)) (rule : Within Q x) : Within R (zoom get set x) := by
  intro s
  have related := rule (get s)
  unfold zoom
  cases h : x (get s) with
  | ok a t => rw [h] at related; exact lift s t related
  | error e t => rw [h] at related; exact lift s t related

variable [IsPreorder σ R]

theorem withinPure (a : α) : Within R (pure a : EStateM ε σ α) := fun s => refl_of R s

theorem withinThrow (e : ε) : Within R (throw e : EStateM ε σ α) := fun s => refl_of R s

theorem withinAttempt (x : Except ε α) : Within R (attempt x : EStateM ε σ α) := by
  intro s
  cases x <;> exact refl_of R s

theorem withinBind {x : EStateM ε σ α} {f : α → EStateM ε σ β} (first : Within R x)
    (second : ∀ a, Within R (f a)) : Within R (x >>= f) := by
  intro s
  change R s (after (EStateM.bind x f s))
  unfold EStateM.bind
  have related := first s
  cases h : x s with
  | ok a t =>
    rw [h] at related
    exact trans_of R related (second a t)
  | error e t =>
    rw [h] at related
    exact related

theorem withinGetBind {f : σ → EStateM ε σ β} (rule : ∀ a, Within R (f a)) :
    Within R (get >>= f) := withinBind (fun s => refl_of R s) rule

theorem withinMapM {f : α → EStateM ε σ β} {xs : List α} (rule : ∀ a ∈ xs, Within R (f a)) :
    Within R (xs.mapM f) := by
  induction xs with
  | nil => exact withinPure []
  | cons a xs ih =>
    have rest := ih fun b inside => rule b (List.mem_cons_of_mem _ inside)
    rw [List.mapM_cons]
    exact withinBind (rule a List.mem_cons_self) fun b => withinBind rest fun bs => withinPure (b::bs)

end Rules

section Follows
variable {x y : EStateM ε σ α} {f g : α → EStateM ε σ β} {P : σ → Prop} {s : σ}

def Follows (P : σ → Prop) (x y : EStateM ε σ α) (s : σ) : Prop := ∀ a t, x s = .ok a t → P t → y s = .ok a t

theorem followsRefl (P : σ → Prop) (x : EStateM ε σ α) (s : σ) : Follows P x x s := fun _ _ ok _ => ok

theorem followsAfter (rest : ∀ a t, x s = .ok a t → Follows P (f a) (g a) t) : Follows P (x >>= f) (x >>= g) s := by
  intro b u ok good
  obtain ⟨a,t,done,last⟩ := bindOk.mp ok
  exact bindOk.mpr ⟨a,t,done,rest a t done b u last good⟩

theorem followsBefore (first : Follows P x y s) (back : ∀ a t b u, f a t = .ok b u → P u → P t) :
    Follows P (x >>= f) (y >>= f) s := by
  intro b u ok good
  obtain ⟨a,t,done,last⟩ := bindOk.mp ok
  exact bindOk.mpr ⟨a,t,first a t done (back a t b u last good),last⟩

theorem followsZoom {x y : EStateM ε τ α} {get : σ → τ} {set : τ → σ → σ} {Q : τ → Prop} (inner : Follows Q x y (get s))
    (good : ∀ t, P (set t s) → Q t) : Follows P (zoom get set x) (zoom get set y) s := by
  intro a u ok holds
  obtain ⟨t,done,same⟩ := zoomOk.mp ok
  subst same
  exact zoomOk.mpr ⟨t,inner a t done (good t holds),rfl⟩

end Follows

inductive Chain (f : α → EStateM ε σ β) : List α → σ → List β → σ → Prop where
  | nil (s : σ) : Chain f [] s [] s
  | cons {a : α} {b : β} {xs : List α} {ys : List β} {s t u : σ}
      (head : f a s = .ok b t) (tail : Chain f xs t ys u) : Chain f (a::xs) s (b::ys) u

theorem mapMChain {f : α → EStateM ε σ β} {xs : List α} {ys : List β} {s u : σ} :
    xs.mapM f s = .ok ys u ↔ Chain f xs s ys u := by
  constructor
  · intro ok
    induction xs generalizing ys s with
    | nil =>
      obtain ⟨rfl,rfl⟩ : [] = ys ∧ s = u := by simpa using ok
      exact .nil s
    | cons a xs ih =>
      rw [List.mapM_cons] at ok
      obtain ⟨b,t,head,ok⟩ := bindOk.mp ok
      obtain ⟨bs,v,tail,last⟩ := bindOk.mp ok
      obtain ⟨rfl,rfl⟩ : b::bs = ys ∧ v = u := by simpa using last
      exact .cons head (ih tail)
  · intro chain
    induction chain with
    | nil s => rfl
    | cons head _ ih =>
      rw [List.mapM_cons]
      exact bindOk.mpr ⟨_,_,head,bindOk.mpr ⟨_,_,ih,rfl⟩⟩

theorem chainLength {f : α → EStateM ε σ β} {xs : List α} {ys : List β} {s u : σ}
    (chain : Chain f xs s ys u) : ys.length = xs.length := by
  induction chain with
  | nil => rfl
  | cons _ _ ih => simp [ih]

theorem exceptIsOk {x : Except ε α} : x.isOk = true ↔ ∃ a, x = .ok a := by
  cases x <;> simp [Except.isOk,Except.toBool]

theorem exceptBind {x : Except ε α} {f : α → Except ε β} {b : β} :
    (x >>= f) = .ok b ↔ ∃ a, x = .ok a ∧ f a = .ok b := by
  cases x <;> simp [bind,Except.bind]

theorem exceptMapSome {f : α → Except ε β} {a : α} {found : Option β} :
    (some a).mapM f = .ok found ↔ ∃ b, f a = .ok b ∧ some b = found := by
  rw [Option.mapM_some]
  cases f a <;> simp [Functor.map,Except.map]

theorem exceptMapM {f : α → Except ε β} {xs : List α} {ys : List β} :
    xs.mapM f = .ok ys ↔ List.Forall₂ (fun a b => f a = .ok b) xs ys := by
  constructor
  · intro ok
    induction xs generalizing ys with
    | nil => obtain rfl : [] = ys := Except.ok.inj ok; exact .nil
    | cons a xs ih =>
      rw [List.mapM_cons] at ok
      obtain ⟨b,head,ok⟩ := exceptBind.mp ok
      obtain ⟨bs,tail,last⟩ := exceptBind.mp ok
      obtain rfl : b::bs = ys := Except.ok.inj last
      exact .cons head (ih tail)
  · intro pairs
    induction pairs with
    | nil => rfl
    | cons head _ ih =>
      rw [List.mapM_cons]
      exact exceptBind.mpr ⟨_,head,exceptBind.mpr ⟨_,ih,rfl⟩⟩

theorem mapMRelated {γ : Type} {f : α → Except ε γ} {g : β → Except ε γ} {xs : List α} {ys : List β}
    (same : List.Forall₂ (fun a b => f a = g b) xs ys) : xs.mapM f = ys.mapM g := by
  induction same with
  | nil => rfl
  | cons head _ ih => rw [List.mapM_cons,List.mapM_cons,head,ih]

section Pairs
variable {R : α → β → Prop} {xs : List α} {ys : List β}

theorem pairedAt (pairs : List.Forall₂ R xs ys) {k : Nat} {a : α} (found : xs[k]? = some a) :
    ∃ b, ys[k]? = some b ∧ R a b := by
  obtain ⟨bound,rfl⟩ := List.getElem?_eq_some_iff.mp found
  have inside : k < ys.length := pairs.length_eq ▸ bound
  exact ⟨_,List.getElem?_eq_getElem inside,pairs.get bound inside⟩

theorem pairedFrom (pairs : List.Forall₂ R xs ys) {k : Nat} {b : β} (found : ys[k]? = some b) :
    ∃ a, xs[k]? = some a ∧ R a b := pairedAt pairs.flip found

theorem pairedMem (pairs : List.Forall₂ R xs ys) {a : α} (inside : a ∈ xs) : ∃ b ∈ ys, R a b := by
  obtain ⟨k,found⟩ := List.mem_iff_getElem?.mp inside
  obtain ⟨b,there,related⟩ := pairedAt pairs found
  exact ⟨b,List.mem_of_getElem? there,related⟩

theorem pairedSource (pairs : List.Forall₂ R xs ys) {b : β} (inside : b ∈ ys) : ∃ a ∈ xs, R a b :=
  pairedMem pairs.flip inside

theorem pairedMap {γ : Type} {f : α → γ} {g : β → γ} (pairs : List.Forall₂ (fun a b => f a = g b) xs ys) : xs.map f = ys.map g := by
  induction pairs with
  | nil => rfl
  | cons head _ ih => rw [List.map_cons,List.map_cons,head,ih]

end Pairs

theorem exceptMapAll {f : α → Except ε β} {g : α → β} {xs : List α} (each : ∀ a ∈ xs, f a = .ok (g a)) :
    xs.mapM f = .ok (xs.map g) :=
  exceptMapM.mpr (List.forall₂_map_right_iff.mpr (List.forall₂_same.mpr each))

theorem exceptMapChecked {f : α → Except ε β} {P : α → Prop} {g : α → β} {xs : List α} {ys : List β}
    (each : ∀ a ∈ xs, ∀ b, f a = .ok b ↔ P a ∧ g a = b) :
    xs.mapM f = .ok ys ↔ (∀ a ∈ xs, P a) ∧ xs.map g = ys := by
  rw [exceptMapM]
  constructor
  · intro pairs
    induction pairs with
    | nil => exact ⟨by simp,rfl⟩
    | cons head _ ih =>
      obtain ⟨holds,value⟩ := (each _ List.mem_cons_self _).mp head
      have tail := ih fun a inside => each a (List.mem_cons_of_mem _ inside)
      exact ⟨by simpa using ⟨holds,tail.1⟩,by simp [value,tail.2]⟩
  · rintro ⟨holds,rfl⟩
    exact exceptMapM.mp (exceptMapAll fun a inside => (each a inside _).mpr ⟨holds a inside,rfl⟩)

theorem exceptMapIdxChecked {f : α × Nat → Except ε β} {P : α → Prop} {g : α → β} {xs : List α} {ys : List β}
    (each : ∀ a i, xs[i]? = some a → ∀ b, f (a,i) = .ok b ↔ P a ∧ g a = b) :
    xs.zipIdx.mapM f = .ok ys ↔ (∀ a ∈ xs, P a) ∧ xs.map g = ys := by
  have checked : xs.zipIdx.mapM f = .ok ys ↔ (∀ p ∈ xs.zipIdx, P p.1) ∧ xs.zipIdx.map (fun p => g p.1) = ys :=
    exceptMapChecked fun p inside b => each p.1 p.2 (List.mem_zipIdx_iff_getElem?.mp inside) b
  have values : xs.zipIdx.map (fun p => g p.1) = xs.map g := by
    conv_rhs => rw [← List.zipIdx_map_fst 0 xs,List.map_map]
    rfl
  have holds : (∀ p ∈ xs.zipIdx, P p.1) ↔ ∀ a ∈ xs, P a := by
    conv_rhs => rw [← List.zipIdx_map_fst 0 xs]
    exact List.forall_mem_map.symm
  rw [checked,values,holds]

theorem exceptMapIdxAll {f : α × Nat → Except ε β} {g : α → β} {xs : List α}
    (each : ∀ a i, xs[i]? = some a → f (a,i) = .ok (g a)) : xs.zipIdx.mapM f = .ok (xs.map g) := by
  have all : xs.zipIdx.mapM f = .ok (xs.zipIdx.map fun p => g p.1) :=
    exceptMapAll fun p inside => each p.1 p.2 (List.mem_zipIdx_iff_getElem?.mp inside)
  rw [all]
  conv_rhs => rw [← List.zipIdx_map_fst 0 xs,List.map_map]
  rfl

end Library.Effect
