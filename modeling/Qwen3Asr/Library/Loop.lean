import Mathlib.Algebra.GroupWithZero.Nat
import Mathlib.Data.List.Forall2
import Mathlib.Logic.Relation

/-! Loops whose body hands on a state or exits with a result. A run without
fuel left is `none`, never a result; halting is the existence of enough fuel. -/
namespace Library.Loop

inductive Next (σ ρ : Type) where
  | next (state : σ)
  | exit (result : ρ)

variable {σ ρ : Type} {body : σ → Next σ ρ}

def run (body : σ → Next σ ρ) : Nat → σ → Option ρ
  | 0, _ => none
  | fuel+1, s => match body s with
    | .next t => run body fuel t
    | .exit r => some r

def Halts (body : σ → Next σ ρ) (s : σ) : Prop := ∃ fuel r, run body fuel s = some r

abbrev Reaches (body : σ → Next σ ρ) : σ → σ → Prop :=
  Relation.ReflTransGen (fun s t => body s = .next t)

abbrev ReachesVia (P : σ → Prop) (body : σ → Next σ ρ) : σ → σ → Prop :=
  Relation.ReflTransGen (fun s t => P s ∧ body s = .next t)

theorem invariantVia {P Inv : σ → Prop}
    (step : ∀ s t, P s → Inv s → body s = .next t → Inv t) {s t : σ}
    (reached : ReachesVia P body s t) (start : Inv s) : Inv t := by
  induction reached with
  | refl => exact start
  | tail _ last ih => exact step _ _ last.1 ih last.2

theorem invariant {Inv : σ → Prop} (step : ∀ s t, Inv s → body s = .next t → Inv t) {s t : σ}
    (reached : Reaches body s t) (start : Inv s) : Inv t := by
  induction reached with
  | refl => exact start
  | tail _ last ih => exact step _ _ ih last

theorem reachesVia {P : σ → Prop} {s t : σ} (all : ∀ u, Reaches body s u → P u)
    (reached : Reaches body s t) : ReachesVia P body s t := by
  induction reached with
  | refl => exact .refl
  | tail before last ih => exact ih.tail ⟨all _ before,last⟩

theorem runExit {fuel : Nat} {s : σ} {r : ρ} (done : run body fuel s = some r) :
    ∃ t, Reaches body s t ∧ body t = .exit r := by
  induction fuel generalizing s with
  | zero => simp [run] at done
  | succ fuel ih =>
    cases h : body s with
    | next t =>
      simp only [run,h] at done
      obtain ⟨u,reached,last⟩ := ih done
      exact ⟨u,.head h reached,last⟩
    | exit out =>
      simp only [run,h,Option.some.injEq] at done
      subst out
      exact ⟨s,.refl,h⟩

theorem runAlong {body body' : σ → Next σ ρ} (Inv : σ → Prop) {r : ρ}
    (next : ∀ s t, Inv s → body s = .next t → body' s = .next t ∧ Inv t)
    (exit : ∀ s, Inv s → body s = .exit r → body' s = .exit r) {fuel : Nat} {s : σ} (start : Inv s)
    (done : run body fuel s = some r) : run body' fuel s = some r := by
  induction fuel generalizing s with
  | zero => simp [run] at done
  | succ fuel ih =>
    cases h : body s with
    | next t =>
      obtain ⟨same,kept⟩ := next s t start h
      simp only [run,h] at done
      simp only [run,same]
      exact ih kept done
    | exit out =>
      simp only [run,h,Option.some.injEq] at done
      subst done
      simp only [run,exit s start h]

theorem exitRun {s t : σ} {r : ρ} (reached : Reaches body s t) (last : body t = .exit r) :
    ∃ fuel, run body fuel s = some r := by
  induction reached using Relation.ReflTransGen.head_induction_on with
  | refl => exact ⟨1,by simp only [run,last]⟩
  | head first _ ih =>
    obtain ⟨fuel,done⟩ := ih
    exact ⟨fuel+1,by simpa only [run,first] using done⟩

theorem runUnique {m n : Nat} {s : σ} {a b : ρ} (left : run body m s = some a)
    (right : run body n s = some b) : a = b := by
  induction m generalizing n s with
  | zero => simp [run] at left
  | succ m ih =>
    cases n with
    | zero => simp [run] at right
    | succ n =>
      cases h : body s with
      | next t =>
        simp only [run,h] at left right
        exact ih left right
      | exit r =>
        simp only [run,h,Option.some.injEq] at left right
        exact left.symm.trans right

theorem haltsLater {s t : σ} (reached : Reaches body s t) (halts : Halts body s) : Halts body t := by
  induction reached with
  | refl => exact halts
  | tail _ last ih =>
    obtain ⟨fuel,r,done⟩ := ih
    cases fuel with
    | zero => simp [run] at done
    | succ fuel => exact ⟨fuel,r,by simpa only [run,last] using done⟩

theorem fixedNeverHalts {s : σ} (fixed : body s = .next s) : ¬ Halts body s := by
  rintro ⟨fuel,r,done⟩
  induction fuel with
  | zero => simp [run] at done
  | succ fuel ih => exact ih (by simpa only [run,fixed] using done)

def steps (body : σ → Next σ ρ) : Nat → σ → Option σ
  | 0, s => some s
  | n+1, s => match body s with
    | .next t => steps body n t
    | .exit _ => none

theorem stepsReach {n : Nat} {s t : σ} (taken : steps body n s = some t) : Reaches body s t := by
  induction n generalizing s with
  | zero => cases taken; exact .refl
  | succ n ih =>
    unfold steps at taken
    cases h : body s with
    | next u =>
      simp only [h] at taken
      exact .head h (ih taken)
    | exit r => simp [h] at taken

theorem stepsVia {P : σ → Prop} {n : Nat} {s t : σ} (taken : steps body n s = some t)
    (all : ∀ m u, m < n → steps body m s = some u → P u) : ReachesVia P body s t := by
  induction n generalizing s with
  | zero => cases taken; exact .refl
  | succ n ih =>
    unfold steps at taken
    cases h : body s with
    | next u =>
      simp only [h] at taken
      have rest := ih taken fun m v less later => all (m+1) v (by omega) (by simp only [steps,h]; exact later)
      exact .head ⟨all 0 s (by omega) rfl,h⟩ rest
    | exit r => simp [h] at taken

theorem stepsLater {n : Nat} {s t u : σ} (taken : steps body n s = some t) (next : body t = .next u) :
    steps body (n+1) s = some u := by
  induction n generalizing s with
  | zero =>
    cases taken
    simp only [steps,next]
  | succ n ih =>
    unfold steps at taken ⊢
    cases h : body s with
    | next v =>
      simp only [h] at taken
      exact ih taken
    | exit r => simp [h] at taken

theorem stepsOver {m n : Nat} {s : σ} (ended : steps body m s = none) (later : m ≤ n) : steps body n s = none := by
  induction n generalizing m s with
  | zero =>
    obtain rfl : m = 0 := by omega
    exact ended
  | succ n ih =>
    cases m with
    | zero => cases ended
    | succ m =>
      unfold steps at ended ⊢
      cases h : body s with
      | next t =>
        simp only [h] at ended
        exact ih ended (by omega)
      | exit r => rfl

theorem reachedWithin {P : σ → Prop} {n : Nat} {s : σ} (ended : steps body n s = none)
    (all : ∀ m t, m < n → steps body m s = some t → P t) {t : σ} (reached : Reaches body s t) : P t := by
  have counted : ∃ m, steps body m s = some t := by
    induction reached with
    | refl => exact ⟨0,rfl⟩
    | tail _ last ih =>
      obtain ⟨m,taken⟩ := ih
      exact ⟨m+1,stepsLater taken last⟩
  obtain ⟨m,taken⟩ := counted
  rcases Nat.lt_or_ge m n with before | past
  · exact all m t before taken
  · rw [stepsOver ended past] at taken
    cases taken

/-- A loop whose every iteration either shrinks a measure or hands its own state
back halts exactly when it reaches no state that it hands back. -/
theorem haltsIffMoves (measure : σ → Nat)
    (moves : ∀ s t, body s = .next t → t = s ∨ measure t < measure s) (s : σ) :
    Halts body s ↔ ∀ t, Reaches body s t → body t ≠ .next t := by
  constructor
  · intro halts t reached fixed
    exact fixedNeverHalts fixed (haltsLater reached halts)
  · intro never
    induction size : measure s using Nat.strongRecOn generalizing s with
    | ind n ih =>
      cases h : body s with
      | exit r => exact ⟨1,r,by simp only [run,h]⟩
      | next t =>
        have smaller : measure t < n := by
          rcases moves s t h with same | less
          · exact absurd (same ▸ h) (never s .refl)
          · omega
        obtain ⟨fuel,r,done⟩ := ih _ smaller t (fun u reached => never u (.head h reached)) rfl
        exact ⟨fuel+1,r,by simpa only [run,h] using done⟩

/- A loop that shrinks a measure at every turn is over once the measure is used up, with whatever its
invariant promises of its result. -/
theorem runBounded {Inv : σ → Prop} {Q : ρ → Prop} (measure : σ → Nat)
    (next : ∀ s t, Inv s → body s = .next t → Inv t ∧ measure t < measure s)
    (exit : ∀ s r, Inv s → body s = .exit r → Q r) {fuel : Nat} {s : σ} (start : Inv s) (enough : measure s < fuel) :
    ∃ r, run body fuel s = some r ∧ Q r := by
  induction fuel generalizing s with
  | zero => exact absurd enough (Nat.not_lt_zero _)
  | succ fuel ih =>
    unfold run
    cases h : body s with
    | next t =>
      obtain ⟨kept,less⟩ := next s t start h
      exact ih kept (by omega)
    | exit r => exact ⟨r,rfl,exit s r start h⟩

theorem sameOrLighter {α : Type} {weight : α → Nat} {xs ys : List α}
    (each : List.Forall₂ (fun x y => y = x ∨ weight y < weight x) xs ys) :
    ys = xs ∨ (ys.map weight).sum < (xs.map weight).sum := by
  induction each with
  | nil => exact .inl rfl
  | cons head _ ih =>
    simp only [List.map_cons,List.sum_cons]
    rcases head with rfl | less <;> rcases ih with rfl | fewer
    · exact .inl rfl
    all_goals exact .inr (by omega)

end Library.Loop
