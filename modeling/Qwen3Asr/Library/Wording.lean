import Mathlib.Data.List.Flatten
import Mathlib.Data.List.Infix
import Mathlib.Data.List.TakeDrop

/-! Texts cut into words. A pass that splits words, joins neighbours or drops empty ones leaves
a cut of the same text. -/
namespace Library.Wording

variable {α : Type}

structure Cuts (text : List α) (words : List (List α)) : Prop where
  whole : words.flatten = text
  solid : ∀ word ∈ words, word ≠ []

theorem cutsNil : Cuts ([] : List α) [] := ⟨rfl,fun _ inside => absurd inside List.not_mem_nil⟩

theorem cutsCons {text word : List α} {words : List (List α)} :
    Cuts text (word::words) ↔ word ≠ [] ∧ ∃ rest, text = word ++ rest ∧ Cuts rest words := by
  constructor
  · intro cuts
    exact ⟨cuts.solid word List.mem_cons_self,words.flatten,cuts.whole.symm,rfl,
      fun other inside => cuts.solid other (List.mem_cons_of_mem _ inside)⟩
  · rintro ⟨some_,rest,rfl,cuts⟩
    exact ⟨by rw [List.flatten_cons,cuts.whole],List.forall_mem_cons.mpr ⟨some_,cuts.solid⟩⟩

theorem cutsOne {word : List α} (some_ : word ≠ []) : Cuts word [word] :=
  cutsCons.mpr ⟨some_,[],(List.append_nil word).symm,cutsNil⟩

theorem cutsAppend {text text' : List α} {words words' : List (List α)} (cuts : Cuts text words)
    (cuts' : Cuts text' words') : Cuts (text ++ text') (words ++ words') :=
  ⟨by rw [List.flatten_append,cuts.whole,cuts'.whole],
    fun word inside => (List.mem_append.mp inside).elim (cuts.solid word) (cuts'.solid word)⟩

theorem cutsEach {text : List α} {words : List (List α)} {split : List α → List (List α)} (cuts : Cuts text words)
    (each : ∀ word, word ≠ [] → Cuts word (split word)) : Cuts text (words.flatMap split) := by
  induction words generalizing text with
  | nil => exact cuts
  | cons word words ih =>
    obtain ⟨some_,rest,rfl,others⟩ := cutsCons.mp cuts
    exact cutsAppend (each word some_) (ih others)

theorem cutsKept [DecidableEq α] (words : List (List α)) : Cuts words.flatten (words.filter (· ≠ [])) := by
  refine ⟨?_,fun word inside => by simpa using (List.mem_filter.mp inside).2⟩
  induction words with
  | nil => rfl
  | cons word words ih =>
    by_cases empty : word = []
    · rw [List.filter_cons_of_neg (by simpa using empty),ih,List.flatten_cons,empty,List.nil_append]
    · rw [List.filter_cons_of_pos (by simpa using empty),List.flatten_cons,ih,List.flatten_cons]

theorem cutsCleaned [DecidableEq α] (keeps : α → Bool) (words : List (List α)) :
    Cuts (words.flatten.filter keeps) ((words.map (List.filter keeps)).filter (· ≠ [])) := by
  rw [List.filter_flatten]
  exact cutsKept _

def flush [DecidableEq α] (word : List α) : List (List α) := if word = [] then [] else [word]

theorem cutsFlush [DecidableEq α] (word : List α) : Cuts word (flush word) := by
  unfold flush
  split_ifs with empty
  · exact empty ▸ cutsNil
  · exact cutsOne empty

theorem flushFlatten [DecidableEq α] (word : List α) : (flush word).flatten = word := (cutsFlush word).whole

def joinPairs (joins : List α → List α → List (List α) → Bool) : List (List α) → List (List α)
  | word::next::rest =>
    if joins word next rest then (word ++ next)::joinPairs joins rest else word::joinPairs joins (next::rest)
  | words => words

theorem cutsJoined {joins : List α → List α → List (List α) → Bool} {text : List α} {words : List (List α)}
    (cuts : Cuts text words) : Cuts text (joinPairs joins words) := by
  induction words using joinPairs.induct joins generalizing text with
  | case1 word next rest together ih =>
    obtain ⟨some_,_,rfl,behind⟩ := cutsCons.mp cuts
    obtain ⟨_,_,rfl,others⟩ := cutsCons.mp behind
    rw [joinPairs,if_pos together,← List.append_assoc]
    exact cutsCons.mpr ⟨List.append_ne_nil_of_left_ne_nil some_ _,_,rfl,ih others⟩
  | case2 word next rest apart ih =>
    obtain ⟨some_,_,rfl,others⟩ := cutsCons.mp cuts
    rw [joinPairs,if_neg apart]
    exact cutsCons.mpr ⟨some_,_,rfl,ih others⟩
  | case3 words short => rwa [joinPairs.eq_2 joins words short]

theorem cutsLetters {word : List α} : Cuts word (word.map ([·])) := by
  induction word with
  | nil => exact cutsNil
  | cons c word ih => exact cutsCons.mpr ⟨List.cons_ne_nil _ _,word,rfl,ih⟩

def slice (chars : List α) (first behind : Nat) : List α := (chars.drop first).take (behind-first)

theorem sliceDrop {chars : List α} {first behind : Nat} (order : first ≤ behind) :
    slice chars first behind ++ chars.drop behind = chars.drop first := by
  have split := List.take_append_drop (behind-first) (chars.drop first)
  rwa [List.drop_drop,Nat.add_sub_cancel' order] at split

theorem sliceLength {chars : List α} {first behind : Nat} (inside : behind ≤ chars.length) :
    (slice chars first behind).length = behind-first := by
  rw [slice,List.length_take,List.length_drop]
  omega

theorem sliceSome {chars : List α} {first behind : Nat} (less : first < behind) (inside : behind ≤ chars.length) :
    slice chars first behind ≠ [] := by
  refine List.ne_nil_of_length_pos ?_
  rw [sliceLength inside]
  omega

section Splits
variable {p : α → Bool} {text : List α}

theorem splitOnPAppend {before : List α} (whole : ∀ c ∈ before, p c = false) (text : List α) :
    (before ++ text).splitOnP p = (text.splitOnP p).modifyHead (before ++ ·) := by
  induction before with
  | nil =>
    cases pieces : text.splitOnP p <;> simp [pieces]
  | cons c before ih =>
    obtain ⟨here,behind⟩ := List.forall_mem_cons.mp whole
    rw [List.cons_append,List.splitOnP_cons_eq_if_modifyHead,here,if_neg Bool.false_ne_true,ih behind,List.modifyHead_modifyHead]
    rfl

theorem memSplitOnP {piece : List α} {c : α} (inside : piece ∈ text.splitOnP p) (letter : c ∈ piece) : c ∈ text := by
  induction text generalizing piece with
  | nil =>
    rw [List.splitOnP_nil] at inside
    rw [List.mem_singleton.mp inside] at letter
    exact letter
  | cons d text ih =>
    rw [List.splitOnP_cons_eq_if_modifyHead] at inside
    split at inside
    · rcases List.mem_cons.mp inside with rfl | later
      · cases letter
      · exact List.mem_cons_of_mem d (ih later letter)
    · obtain ⟨first,rest,pieces⟩ := List.exists_cons_of_ne_nil (List.splitOnP_ne_nil p text)
      rw [pieces] at inside ih
      rcases List.mem_cons.mp inside with rfl | later
      · rcases List.mem_cons.mp letter with rfl | letter
        · exact List.mem_cons_self
        · exact List.mem_cons_of_mem d (ih List.mem_cons_self letter)
      · exact List.mem_cons_of_mem d (ih (List.mem_cons_of_mem first later) letter)

end Splits

end Library.Wording
