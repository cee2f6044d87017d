import Mathlib.Data.List.Induction
import Qwen3Asr.Library.Effect

/-! A table that several users fill and read, each call under one key. Where a call finds
only what its own user kept, the calls of the others make no difference to it. -/
namespace Library.SharedTable
open Library.Effect

variable {ε α β κ υ γ ι : Type}

abbrev Table (κ υ : Type) := κ → Option υ

structure LocalTo (k : κ) (x : EStateM ε (Table κ υ) α) : Prop where
  same : ∀ s t, s k = t k → outcome (x s) = outcome (x t) ∧ after (x s) k = after (x t) k
  others : ∀ s j, j ≠ k → after (x s) j = s j

section Rules
variable {k : κ}

theorem localPure (a : α) : LocalTo k (pure a : EStateM ε (Table κ υ) α) :=
  ⟨fun _ _ same => ⟨rfl,same⟩,fun _ _ _ => rfl⟩

theorem localAttempt (x : Except ε α) : LocalTo k (attempt x : EStateM ε (Table κ υ) α) := by
  cases x <;> exact ⟨fun _ _ same => ⟨rfl,same⟩,fun _ _ _ => rfl⟩

theorem localBind {x : EStateM ε (Table κ υ) α} {f : α → EStateM ε (Table κ υ) β} (first : LocalTo k x)
    (second : ∀ a, LocalTo k (f a)) : LocalTo k (x >>= f) where
  same s t agree := by
    obtain ⟨left,right⟩ := first.same s t agree
    cases ranS : x s with
    | ok a s' =>
      cases ranT : x t with
      | ok b t' =>
        rw [ranS,ranT] at left right
        cases left
        rw [bindThen ranS,bindThen ranT]
        exact (second _).same s' t' right
      | error e t' => rw [ranS,ranT] at left; cases left
    | error e s' =>
      cases ranT : x t with
      | ok b t' => rw [ranS,ranT] at left; cases left
      | error e' t' =>
        rw [ranS,ranT] at left right
        cases left
        rw [bindFailed ranS,bindFailed ranT]
        exact ⟨rfl,right⟩
  others s j other := by
    have before := first.others s j other
    rw [afterBind]
    cases ran : x s with
    | ok a t => rw [ran] at before; exact ((second a).others t j other).trans before
    | error e t => rw [ran] at before; exact before

theorem localAttemptBind {x : Except ε α} {f : α → EStateM ε (Table κ υ) β}
    (rule : ∀ a, x = .ok a → LocalTo k (f a)) : LocalTo k (attempt x >>= f) := by
  cases x with
  | ok a => exact rule a rfl
  | error e => exact ⟨fun _ _ same => ⟨rfl,same⟩,fun _ _ _ => rfl⟩

theorem localRead {f : Table κ υ → EStateM ε (Table κ υ) α} (entry : ∀ s t, s k = t k → f s = f t)
    (rule : ∀ s, LocalTo k (f s)) : LocalTo k (get >>= f) where
  same s t agree := by
    rw [bindThen (getRun s),bindThen (getRun t),entry s t agree]
    exact (rule t).same s t agree
  others s j other := by
    rw [bindThen (getRun s)]
    exact (rule s).others s j other

theorem localStore [DecidableEq κ] (v : υ) :
    LocalTo k (modify (Function.update · k (some v)) : EStateM ε (Table κ υ) Unit) where
  same s t _ := by simp [outcome,after]
  others s j other := by simp [after,other]

end Rules

structure Calls (ε α κ υ γ ι : Type) where
  owner : γ → ι
  key : γ → κ
  run : γ → EStateM ε (Table κ υ) α
  local_ : ∀ c, LocalTo (key c) (run c)
  kept : ∀ c s v, s (key c) = some v → after (run c s) (key c) = some v

variable (calls : Calls ε α κ υ γ ι)

def step (before : Table κ υ × Table κ ι) (c : γ) : Table κ υ × Table κ ι :=
  let left := after (calls.run c before.1)
  (left,fun k => if (before.1 k).isNone && (left k).isSome then some (calls.owner c) else before.2 k)

def historyOf (earlier : List γ) : Table κ υ × Table κ ι :=
  earlier.foldl (step calls) (fun _ => none,fun _ => none)

def tableAfter (earlier : List γ) : Table κ υ := (historyOf calls earlier).1

def keeper (earlier : List γ) : Table κ ι := (historyOf calls earlier).2

theorem historyNext (earlier : List γ) (c : γ) :
    historyOf calls (earlier ++ [c]) = step calls (historyOf calls earlier) c := by
  simp [historyOf]

/- Every call of the list finds nothing, or what its own user kept. -/
def FindsOwn (list : List γ) : Prop :=
  ∀ i c, list[i]? = some c → ∀ o, keeper calls (list.take i) (calls.key c) = some o → o = calls.owner c

variable {calls}

theorem tableNext (earlier : List γ) (c : γ) (k : κ) :
    tableAfter calls (earlier ++ [c]) k = after (calls.run c (tableAfter calls earlier)) k := by
  rw [tableAfter,historyNext]
  rfl

theorem keeperNext (earlier : List γ) (c : γ) (k : κ) : keeper calls (earlier ++ [c]) k =
    if (tableAfter calls earlier k).isNone && (tableAfter calls (earlier ++ [c]) k).isSome then some (calls.owner c)
    else keeper calls earlier k := by
  rw [tableNext,keeper,historyNext]
  rfl

theorem absentNext {earlier : List γ} {c : γ} {k : κ}
    (absent : tableAfter calls earlier k = none ↔ keeper calls earlier k = none) :
    tableAfter calls (earlier ++ [c]) k = none ↔ keeper calls (earlier ++ [c]) k = none := by
  rw [keeperNext]
  cases before : tableAfter calls earlier k with
  | none =>
    have nobody := absent.mp before
    cases tableAfter calls (earlier ++ [c]) k <;> simp [nobody]
  | some v =>
    have somebody : keeper calls earlier k ≠ none := fun nobody => by cases before.symm.trans (absent.mpr nobody)
    have stays : tableAfter calls (earlier ++ [c]) k = some v := by
      rw [tableNext]
      by_cases here : k = calls.key c
      · subst here
        exact calls.kept c _ v before
      · rw [(calls.local_ c).others _ k here,before]
    simp [stays,somebody]

section Isolation
variable [DecidableEq ι]

def ownCalls (calls : Calls ε α κ υ γ ι) (user : ι) (earlier : List γ) : List γ :=
  earlier.filter fun c => calls.owner c = user

/- The table of a user's own calls is the part of the shared table that the user kept. -/
structure Split (calls : Calls ε α κ υ γ ι) (user : ι) (earlier : List γ) (k : κ) : Prop where
  absent : tableAfter calls earlier k = none ↔ keeper calls earlier k = none
  own : tableAfter calls (ownCalls calls user earlier) k =
    if keeper calls earlier k = some user then tableAfter calls earlier k else none

theorem splitOwn {user : ι} {earlier : List γ} {k : κ} (split : Split calls user earlier k)
    (mine : ∀ o, keeper calls earlier k = some o → o = user) :
    tableAfter calls (ownCalls calls user earlier) k = tableAfter calls earlier k := by
  rw [split.own]
  split
  · rfl
  · next other =>
    cases found : keeper calls earlier k with
    | none => exact (split.absent.mpr found).symm
    | some o => exact absurd (mine o found ▸ found) other

theorem splitNext {user : ι} {earlier : List γ} {c : γ} {k : κ} (split : Split calls user earlier k)
    (mine : ∀ o, keeper calls earlier (calls.key c) = some o → o = calls.owner c) :
    Split calls user (earlier ++ [c]) k where
  absent := absentNext split.absent
  own := by
    have absent := absentNext (c := c) split.absent
    by_cases here : k = calls.key c
    · subst here
      by_cases same : calls.owner c = user
      · have ended : ownCalls calls user (earlier ++ [c]) = ownCalls calls user earlier ++ [c] := by
          simp [ownCalls,same]
        have agree := splitOwn split fun o found => (mine o found).trans same
        rw [ended,tableNext,((calls.local_ c).same _ _ agree).2,← tableNext]
        split
        · rfl
        · next other =>
          refine absent.mpr ?_
          rw [keeperNext] at other ⊢
          split at other
          · exact absurd (congrArg some same) other
          · next unkept =>
            rw [if_neg unkept]
            cases found : keeper calls earlier (calls.key c) with
            | none => rfl
            | some o => exact absurd (((mine o found).trans same) ▸ found) other
      · have ended : ownCalls calls user (earlier ++ [c]) = ownCalls calls user earlier := by
          simp [ownCalls,same]
        have foreign : keeper calls earlier (calls.key c) ≠ some user := fun found => same (mine user found).symm
        have still : keeper calls (earlier ++ [c]) (calls.key c) ≠ some user := by
          rw [keeperNext]
          split
          · exact fun taken => same (Option.some.inj taken)
          · exact foreign
        rw [ended,split.own,if_neg foreign,if_neg still]
    · have apart (list : List γ) : tableAfter calls (list ++ [c]) k = tableAfter calls list k := by
        rw [tableNext,(calls.local_ c).others _ k here]
      have held : keeper calls (earlier ++ [c]) k = keeper calls earlier k := by
        rw [keeperNext,apart]
        cases tableAfter calls earlier k <;> rfl
      rw [held,apart,← split.own]
      unfold ownCalls
      rw [List.filter_append]
      by_cases same : calls.owner c = user
      · simpa [same] using apart _
      · simp [same]

theorem splitAll (user : ι) {list : List γ} (own : FindsOwn calls list) (k : κ) (n : Nat) :
    Split calls user (list.take n) k := by
  induction n with
  | zero => exact ⟨by simp [tableAfter,keeper,historyOf],by simp [tableAfter,keeper,historyOf,ownCalls]⟩
  | succ n ih =>
    rw [List.take_add_one]
    cases found : list[n]? with
    | none => simpa [found] using ih
    | some c => exact splitNext ih (own n c found)

/-- Where every call finds only what its own user kept, each has the outcome it has without the calls of the others. -/
theorem isolated {list : List γ} {i : Nat} {c : γ} (own : FindsOwn calls list) (there : list[i]? = some c) :
    outcome (calls.run c (tableAfter calls (list.take i))) =
      outcome (calls.run c (tableAfter calls (ownCalls calls (calls.owner c) (list.take i)))) := by
  have agree := splitOwn (splitAll (calls.owner c) own (calls.key c) i) (own i c there)
  exact (((calls.local_ c).same _ _ agree).1).symm

end Isolation

end Library.SharedTable
