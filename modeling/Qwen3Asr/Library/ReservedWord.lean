import Mathlib.Data.List.Infix

/-! Texts with one reserved word whose first letter does not come again in it: where the word
can occur in a text put together from parts, and the scanner that reads it as one token. -/
namespace Library.ReservedWord

variable {α β : Type}

theorem infixAcrossForeign {word before after : List α} {c : α} (foreign : c ∉ word) :
    word <:+: before ++ c::after ↔ word <:+: before ∨ word <:+: after := by
  constructor
  · intro found
    rcases List.infix_append_iff_ne_nil.mp found with here | here | ⟨u,v,_,some,parts,_,starts⟩
    · exact Or.inl here
    · rcases List.infix_cons_iff.mp here with starts | later
      · cases word with
        | nil => exact Or.inl List.nil_infix
        | cons d rest => simp [(List.cons_prefix_cons.mp starts).1] at foreign
      · exact Or.inr later
    · cases v with
      | nil => contradiction
      | cons d rest => simp [parts,(List.cons_prefix_cons.mp starts).1] at foreign
  · rintro (here | here)
    · exact here.trans (List.infix_append [] before (c::after))
    · exact (List.infix_cons here).trans (List.suffix_append before _).isInfix

theorem infixBeforeOpening {opening : α} {rest before after : List α} (once : opening ∉ rest) :
    opening::rest <:+: before ++ opening::after ↔
      opening::rest <:+: before ∨ opening::rest <:+: opening::after := by
  constructor
  · intro found
    rcases List.infix_append_iff_ne_nil.mp found with here | here | ⟨u,v,full,some,parts,_,starts⟩
    · exact Or.inl here
    · exact Or.inr here
    · cases v with
      | nil => contradiction
      | cons d tail => cases u with
        | nil => contradiction
        | cons e front =>
          have tail : rest = front ++ d::tail := (List.cons.inj parts).2
          simp [tail,(List.cons_prefix_cons.mp starts).1] at once
  · rintro (here | here)
    · exact here.trans (List.infix_append [] before _)
    · exact here.trans (List.suffix_append before _).isInfix

theorem prefixWithin {opening c : α} {rest text after : List α} (once : opening ∉ rest)
    (starts : opening::rest <+: c::text ++ opening::after) : opening::rest <+: c::text := by
  rcases Nat.lt_or_ge text.length rest.length with short | long
  · have there := List.prefix_iff_getElem?.mp starts (text.length+1) (by simpa using short)
    simp only [List.cons_append,List.getElem?_cons_succ,List.getElem?_append_right (Nat.le_refl _),Nat.sub_self,
      List.getElem?_cons_zero,List.getElem_cons_succ,Option.some.injEq] at there
    exact absurd (List.getElem_mem short) (there ▸ once)
  · exact List.prefix_of_prefix_length_le starts (List.prefix_append _ _) (Nat.succ_le_succ long)

section Scanner
variable [DecidableEq α] (opening : α) (rest : List α) (reserved : β) (code : α → β)

def scan : Nat → List α → List β
  | _, [] => []
  | skip+1, _::text => scan skip text
  | 0, c::text =>
    if opening::rest <+: c::text then reserved::scan rest.length text else code c::scan 0 text

variable {opening rest reserved code}

theorem scanSkips (text after : List α) : scan opening rest reserved code text.length (text ++ after) =
    scan opening rest reserved code 0 after := by
  induction text with
  | nil => rfl
  | cons c text ih => exact ih

theorem scanSplit (once : opening ∉ rest) (skip : Nat) (before after : List α) (bound : skip ≤ before.length) :
    scan opening rest reserved code skip (before ++ opening::(rest ++ after)) =
      scan opening rest reserved code skip before ++ reserved::scan opening rest reserved code 0 after := by
  induction before generalizing skip with
  | nil =>
    cases Nat.le_zero.mp bound
    simp [scan,scanSkips rest after]
  | cons c before ih =>
    cases skip with
    | succ skip => exact ih skip (Nat.le_of_succ_le_succ bound)
    | zero =>
      by_cases here : opening::rest <+: c::before
      · have whole : opening::rest <+: c::(before ++ opening::(rest ++ after)) :=
          here.trans (List.prefix_append (c::before) _)
        have next := ih rest.length (Nat.le_of_succ_le_succ here.length_le)
        simp only [List.cons_append,scan,if_pos here,if_pos whole,next]
      · have later : ¬opening::rest <+: c::(before ++ opening::(rest ++ after)) := fun starts =>
          here (prefixWithin once starts)
        have next := ih 0 (Nat.zero_le _)
        simp only [List.cons_append,scan,if_neg here,if_neg later,next]

theorem scanPlain (distinct : ∀ c, code c ≠ reserved) (text : List α) (plain : ¬opening::rest <:+: text) :
    reserved ∉ scan opening rest reserved code 0 text := by
  induction text with
  | nil => simp [scan]
  | cons c text ih =>
    have parts : ¬opening::rest <+: c::text ∧ ¬opening::rest <:+: text := by
      simpa [List.infix_cons_iff] using plain
    simp [scan,parts.1,ih parts.2,(distinct c).symm]

end Scanner

section Occurrences
variable [DecidableEq α] {opening : α} {rest : List α}

def occurrences (opening : α) (rest : List α) : List α → Nat
  | [] => 0
  | c::text => (if opening::rest <+: c::text then 1 else 0) + occurrences opening rest text

theorem occurrencesForeign {before : List α} (foreign : opening ∉ before) (after : List α) :
    occurrences opening rest (before ++ after) = occurrences opening rest after := by
  induction before with
  | nil => rfl
  | cons c before ih =>
    obtain ⟨other,foreign⟩ := not_or.mp (List.mem_cons.not.mp foreign)
    have apart : ¬opening::rest <+: c::(before ++ after) := fun starts => other (List.cons_prefix_cons.mp starts).1
    rw [List.cons_append,occurrences,if_neg apart,ih foreign,Nat.zero_add]

theorem occurrencesWord (once : opening ∉ rest) (after : List α) :
    occurrences opening rest (opening::(rest ++ after)) = 1+occurrences opening rest after := by
  have here : opening::rest <+: opening::(rest ++ after) := List.prefix_append (opening::rest) after
  rw [occurrences,if_pos here,occurrencesForeign once]

theorem occurrencesOther {c d : α} {rest' : List α} (differs : d ≠ c) (text : List α) :
    occurrences opening (c::rest') (opening::d::text) = occurrences opening (c::rest') (d::text) := by
  have apart : ¬opening::c::rest' <+: opening::d::text := fun starts =>
    differs (List.cons_prefix_cons.mp (List.cons_prefix_cons.mp starts).2).1.symm
  rw [occurrences,if_neg apart,Nat.zero_add]

theorem occurrencesNone {text : List α} : occurrences opening rest text = 0 ↔ ¬opening::rest <:+: text := by
  induction text with
  | nil => simp [occurrences]
  | cons c text ih =>
    rw [occurrences,Nat.add_eq_zero_iff,ih,List.infix_cons_iff,not_or]
    refine and_congr_left fun _ => ?_
    split <;> simp_all

end Occurrences
end Library.ReservedWord
