import Qwen3Asr.Library.Effect

/-! A service answers one call after another. A call that fails leaves a state, and the next call
starts from it. -/
namespace Library.Service
open Effect

variable {ε ε' σ τ κ α β : Type}

def serve (answer : κ → EStateM ε σ α) : σ → List κ → σ
  | s, [] => s
  | s, call::calls => serve answer (after (answer call s)) calls

def Answered (answer : κ → EStateM ε σ α) (s : σ) (call : κ) : Prop := (outcome (answer call s)).isOk = true

instance (answer : κ → EStateM ε σ α) (s : σ) (call : κ) : Decidable (Answered answer s call) :=
  inferInstanceAs (Decidable (_ = true))

def NeverFails (answer : κ → EStateM ε σ α) : σ → List κ → Prop
  | _, [] => True
  | s, call::calls => Answered answer s call ∧ NeverFails answer (after (answer call s)) calls

def heard (answer : κ → EStateM ε σ α) : σ → List κ → List κ
  | _, [] => []
  | s, call::calls =>
    let rest := heard answer (after (answer call s)) calls
    if Answered answer s call then call::rest else rest

/- The same service with the calls it received. -/
def recorded (answer : κ → EStateM ε σ α) (call : κ) : EStateM ε (σ × List κ) α := fun s =>
  match answer call s.1 with
  | .ok a t => .ok a (t,s.2 ++ [call])
  | .error e t => .error e (t,s.2 ++ [call])

theorem recordedAfter (answer : κ → EStateM ε σ α) (call : κ) (s : σ × List κ) :
    after (recorded answer call s) = (after (answer call s.1),s.2 ++ [call]) := by
  unfold recorded
  cases answer call s.1 <;> rfl

theorem recordedOutcome (answer : κ → EStateM ε σ α) (call : κ) (s : σ × List κ) :
    outcome (recorded answer call s) = outcome (answer call s.1) := by
  unfold recorded
  cases answer call s.1 <;> rfl

section Rules
variable {answer : κ → EStateM ε σ α} {s : σ}

theorem serveAppend (s : σ) (calls more : List κ) : serve answer s (calls ++ more) = serve answer (serve answer s calls) more := by
  induction calls generalizing s with
  | nil => rfl
  | cons call calls ih => exact ih _

theorem heardSublist (calls : List κ) : (heard answer s calls).Sublist calls := by
  induction calls generalizing s with
  | nil => exact .slnil
  | cons call calls ih =>
    simp only [heard]
    split
    · exact ih.cons_cons call
    · exact ih.cons call

/-- Every call is heard just when none fails. -/
theorem heardAll {calls : List κ} : heard answer s calls = calls ↔ NeverFails answer s calls := by
  induction calls generalizing s with
  | nil => simp [heard,NeverFails]
  | cons call calls ih =>
    simp only [heard,NeverFails]
    split
    · rename_i answered
      simp [answered,ih]
    · rename_i failed
      have shorter := (@heardSublist _ _ _ _ answer (after (answer call s)) calls).length_le
      constructor
      · intro same
        rw [same,List.length_cons] at shorter
        omega
      · intro never
        exact absurd never.1 failed

/- A component that is called where another one answered has heard what the other did not fail. -/
theorem heardRun {both : κ → EStateM ε' τ β} {view : τ → σ} {received : τ → List κ}
    (follows : ∀ call t, view (after (both call t)) = after (answer call (view t)))
    (passes : ∀ call t, received (after (both call t)) =
      received t ++ if Answered answer (view t) call then [call] else []) (t : τ) (calls : List κ) :
    received (serve both t calls) = received t ++ heard answer (view t) calls := by
  induction calls generalizing t with
  | nil => simp [serve,heard]
  | cons call calls ih =>
    simp only [serve,heard]
    rw [ih,follows,passes,List.append_assoc]
    split <;> rfl

end Rules

end Library.Service
