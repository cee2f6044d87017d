import Mathlib.Data.List.Basic
import Mathlib.Logic.Function.Iterate
import Mathlib.Order.Nat

/-! Lists in which some stretches of a repeated unit were cut down to one unit. -/
namespace Library.Compression

variable {α : Type} {chars out unit : List α} {m : Nat} {c : α}

inductive Compressed : List α → List α → Prop
  | same (chars : List α) : Compressed chars chars
  | unit (unit : List α) (more : Nat) {rest out : List α} (behind : Compressed rest out) :
      Compressed ((List.replicate (more+1) unit).flatten ++ rest) (unit ++ out)
  | next (c : α) {rest out : List α} (behind : Compressed rest out) : Compressed (c::rest) (c::out)

theorem unitsFirst (unit rest : List α) (more : Nat) : (List.replicate (more+1) unit).flatten ++ rest =
    unit ++ ((List.replicate more unit).flatten ++ rest) := by
  rw [List.replicate_succ,List.flatten_cons,List.append_assoc]

theorem unitsLast (unit rest : List α) (more : Nat) : (List.replicate (more+1) unit).flatten ++ rest =
    (List.replicate more unit).flatten ++ (unit ++ rest) := by
  rw [List.replicate_succ',List.flatten_append,List.flatten_singleton,List.append_assoc]

theorem compressedFront (front : List α) (rest : Compressed chars out) : Compressed (front ++ chars) (front ++ out) := by
  induction front with
  | nil => exact rest
  | cons c front ih => exact .next c ih

theorem compressedSublist (compressed : Compressed chars out) : out.Sublist chars := by
  induction compressed with
  | same chars => exact .refl _
  | unit unit more _ ih =>
    rw [unitsLast]
    exact ((List.Sublist.refl unit).append ih).trans (List.sublist_append_right _ _)
  | next c _ ih => exact ih.cons_cons c

theorem compressedHead (compressed : Compressed chars out) : out.head? = chars.head? := by
  induction compressed with
  | same chars => rfl
  | unit unit more _ ih =>
    rw [unitsFirst]
    cases unit with
    | nil => simpa using ih
    | cons c unit => rfl
  | next c _ _ => rfl

theorem compressedLast (compressed : Compressed chars out) : out.getLast? = chars.getLast? := by
  induction compressed with
  | same chars => rfl
  | unit unit more _ ih =>
    rw [unitsLast,List.getLast?_append,List.getLast?_append,List.getLast?_append,ih]
    cases unit with
    | nil => simp
    | cons c unit =>
      rw [List.getLast?_cons,Option.or_some,Option.some_or]
  | next c _ ih => rw [List.getLast?_cons,List.getLast?_cons,ih]

theorem replicateSplit {x y : List α} (split : List.replicate m c = x ++ y) :
    ∃ a b, a+b = m ∧ x = List.replicate a c ∧ y = List.replicate b c := by
  obtain ⟨total,left,right⟩ := List.append_eq_replicate_iff.mp split.symm
  exact ⟨_,_,total,left,right⟩

theorem prefixAppend {run front behind : List α} (found : run <+: front ++ behind) :
    run <+: front ∨ ∃ later, run = front ++ later ∧ later <+: behind := by
  rcases Nat.le_total run.length front.length with short | long
  · exact .inl (List.prefix_of_prefix_length_le found (List.prefix_append front behind) short)
  · obtain ⟨later,rfl⟩ := List.prefix_of_prefix_length_le (List.prefix_append front behind) found long
    exact .inr ⟨later,rfl,(List.prefix_append_right_inj front).mp found⟩

/- A run at the front is none of the compression's making. -/
theorem compressedRun (compressed : Compressed chars out) (run : List.replicate m c <+: out) :
    List.replicate m c <+: chars := by
  induction compressed generalizing m with
  | same chars => exact run
  | @unit unit more rest out _ ih =>
    rcases prefixAppend run with inside | ⟨later,split,behind⟩
    · rw [unitsFirst]
      exact inside.trans (List.prefix_append _ _)
    · obtain ⟨a,b,rfl,rfl,rfl⟩ := replicateSplit split
      have whole : ∀ n, (List.replicate n (List.replicate a c)).flatten = List.replicate (n*a) c := fun n =>
        List.flatten_replicate_replicate
      have grown := (List.prefix_append_right_inj (List.replicate ((more+1)*a) c)).mpr (ih behind)
      rw [whole]
      refine List.IsPrefix.trans ?_ grown
      rw [List.replicate_append_replicate]
      refine List.prefix_replicate_iff.mpr ⟨?_,by rw [List.length_replicate]⟩
      rw [List.length_replicate]
      exact Nat.add_le_add_right (Nat.le_mul_of_pos_left a (Nat.succ_pos more)) b
  | next d _ ih =>
    cases m with
    | zero => exact List.nil_prefix
    | succ m =>
      rw [List.replicate_succ] at run ⊢
      obtain ⟨rfl,later⟩ := List.cons_prefix_cons.mp run
      exact List.cons_prefix_cons.mpr ⟨rfl,ih later⟩

theorem compressedRuns (compressed : Compressed chars out) (run : List.replicate m c <:+: out) :
    List.replicate m c <:+: chars := by
  have across : ∀ {front rest out : List α}, Compressed rest out →
      (List.replicate m c <:+: out → List.replicate m c <:+: rest) →
      List.replicate m c <:+: front ++ out → List.replicate m c <:+: front ++ rest := by
    intro front rest out shorter ih run
    rcases List.infix_append_iff.mp run with inside | later | ⟨x,y,split,left,right⟩
    · exact List.infix_append_of_infix_left inside
    · exact List.infix_append_of_infix_right (ih later)
    · obtain ⟨a,b,_,rfl,rfl⟩ := replicateSplit split
      exact List.infix_append_iff.mpr (.inr (.inr ⟨_,_,split,left,compressedRun shorter right⟩))
  induction compressed with
  | same chars => exact run
  | unit unit more shorter ih =>
    rw [unitsLast]
    exact List.infix_append_of_infix_right (across shorter ih run)
  | next d shorter ih => exact @across [d] _ _ shorter ih run

section By
variable {cuttable : List α → Nat → Prop}

inductive CompressedBy (cuttable : List α → Nat → Prop) : List α → List α → Prop
  | done : CompressedBy cuttable [] []
  | next (c : α) {rest out : List α} (behind : CompressedBy cuttable rest out) : CompressedBy cuttable (c::rest) (c::out)
  | unit {unit rest out : List α} {times : Nat} (cut : cuttable unit times) (whole : ¬unit <+: rest)
      (behind : CompressedBy cuttable rest out) :
      CompressedBy cuttable ((List.replicate times unit).flatten ++ rest) (unit ++ out)

theorem compressedByFront (front : List α) (rest : CompressedBy cuttable chars out) :
    CompressedBy cuttable (front ++ chars) (front ++ out) := by
  induction front with
  | nil => exact rest
  | cons c front ih => exact .next c ih

theorem compressedBySame (chars : List α) : CompressedBy cuttable chars chars := by
  induction chars with
  | nil => exact .done
  | cons c chars ih => exact .next c ih

end By

/- What is shortened or left alone at every application is left alone once there is nothing left to shorten. -/
theorem iterateSettles {β : Type} {f : β → β} (size : β → Nat) (step : ∀ b, f b = b ∨ size (f b) < size b) {n : Nat} {b : β}
    (enough : size b ≤ n) : f^[n+1] b = f^[n] b := by
  induction n generalizing b with
  | zero => exact (step b).resolve_right (by omega)
  | succ n ih =>
    rcases step b with same | less
    · rw [Function.iterate_fixed same,Function.iterate_fixed same]
    · rw [Function.iterate_succ_apply f (n+1) b,Function.iterate_succ_apply f n b]
      exact ih (by omega)

end Library.Compression
