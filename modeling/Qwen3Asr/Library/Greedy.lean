import Mathlib.Data.List.Induction

/-! Greedy decoding: from what was produced so far a choice names the next token; decoding
ends before a token that stops it, or at a limit. -/
namespace Library.Greedy

variable {τ : Type} {choose : List τ → τ} {stops : τ → Bool}

def greedyFrom (choose : List τ → τ) (stops : τ → Bool) : Nat → List τ → List τ
  | 0, out => out
  | limit+1, out =>
    if stops (choose out) then out else greedyFrom choose stops limit (out ++ [choose out])

def greedy (choose : List τ → τ) (stops : τ → Bool) (limit : Nat) : List τ :=
  greedyFrom choose stops limit []

theorem greedyExtends (choose : List τ → τ) (stops : τ → Bool) (limit : Nat) (out : List τ) :
    out <+: greedyFrom choose stops limit out := by
  induction limit generalizing out with
  | zero => exact List.prefix_refl _
  | succ limit ih =>
    unfold greedyFrom
    split
    · exact List.prefix_refl _
    · exact (List.prefix_append _ _).trans (ih _)

structure Underway (choose : List τ → τ) (stops : τ → Bool) (limit : Nat) (out : List τ) : Prop where
  within : out.length ≤ limit
  chosen : ∀ k token, out[k]? = some token → token = choose (out.take k) ∧ stops token = false

theorem underwayNil (choose : List τ → τ) (stops : τ → Bool) (limit : Nat) : Underway choose stops limit [] :=
  ⟨Nat.zero_le _,fun _ _ found => by cases found⟩

theorem underwayNext {limit : Nat} {out : List τ} (underway : Underway choose stops limit out)
    (below : out.length < limit) (goes : stops (choose out) = false) :
    Underway choose stops limit (out ++ [choose out]) where
  within := by simp; omega
  chosen k token found := by
    rcases Nat.lt_or_ge k out.length with before | past
    · rw [List.getElem?_append_left before] at found
      rw [List.take_append_of_le_length (Nat.le_of_lt before)]
      exact underway.chosen k token found
    · rw [List.getElem?_append_right past,List.getElem?_singleton] at found
      split at found <;> try contradiction
      cases found
      obtain rfl : k = out.length := by omega
      simpa using goes

theorem underwayInit {limit : Nat} {out : List τ} {token : τ}
    (underway : Underway choose stops limit (out ++ [token])) :
    Underway choose stops limit out ∧ token = choose out ∧ stops token = false ∧ out.length < limit := by
  have counted := underway.within
  rw [List.length_append,List.length_singleton] at counted
  have last := underway.chosen out.length token (by simp)
  rw [List.take_left' rfl] at last
  have before : Underway choose stops limit out := ⟨by omega,fun k earlier found => by
    have bound := (List.getElem?_eq_some_iff.mp found).1
    have same := underway.chosen k earlier (by rw [List.getElem?_append_left bound]; exact found)
    rwa [List.take_append_of_le_length (Nat.le_of_lt bound)] at same⟩
  exact ⟨before,last.1,last.2,by omega⟩

theorem greedyThrough {limit : Nat} {out : List τ} (underway : Underway choose stops limit out) :
    greedyFrom choose stops (limit-out.length) out = greedy choose stops limit := by
  induction out using List.reverseRecOn with
  | nil => rfl
  | append_singleton out token ih =>
    obtain ⟨before,rfl,goes,below⟩ := underwayInit underway
    have left : limit-out.length = limit-(out ++ [choose out]).length+1 := by simp; omega
    have passes := ih before
    rw [left,greedyFrom,if_neg (by simp [goes])] at passes
    exact passes

theorem greedyStopped {limit : Nat} {out : List τ} (underway : Underway choose stops limit out)
    (stop : stops (choose out) = true) : out = greedy choose stops limit := by
  have through := greedyThrough underway
  cases left : limit-out.length with
  | zero =>
    rw [left] at through
    exact through
  | succ n =>
    rw [left,greedyFrom,if_pos stop] at through
    exact through

theorem greedyFull {limit : Nat} {out : List τ} (underway : Underway choose stops limit out)
    (full : limit ≤ out.length) : out = greedy choose stops limit := by
  have through := greedyThrough underway
  rw [Nat.sub_eq_zero_of_le full] at through
  exact through

end Library.Greedy
