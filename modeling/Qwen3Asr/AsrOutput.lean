import Qwen3Asr.MediaData
import Qwen3Asr.Repetitions

/-! The raw output of recognition, read as a language and a text. The case mappings of Unicode are parameters. -/
namespace Qwen3Asr.AsrOutput
open Library.Compression MediaData Repetitions

def ASR_TEXT_TAG : String := "<asr_text>"
def LANG_PREFIX : String := "language "
def DEFAULT_REPETITION_THRESHOLD : Nat := 20

structure CaseMapping where
  toUppercase : Char → List Char
  toLowercase : Char → List Char

section Text

def toAsciiLowercase (text : List Char) : List Char := text.map Char.toLower

def wordsFrom (word : List Char) : List Char → List (List Char)
  | [] => if word = [] then [] else [word]
  | c::rest =>
    if isWhitespace c then (if word = [] then [] else [word]) ++ wordsFrom [] rest else wordsFrom (word ++ [c]) rest

def splitWhitespace (text : List Char) : List (List Char) := wordsFrom [] text

def splitOnce (tag : List Char) : List Char → Option (List Char × List Char)
  | [] => if tag = [] then some ([],[]) else none
  | c::rest =>
    if tag <+: c::rest then some ([],(c::rest).drop tag.length)
    else (splitOnce tag rest).map fun (before,behind) => (c::before,behind)

/- A carriage return before a line's end is no part of the line, and nothing behind the last end is a line. -/
def lines (text : List Char) : List (List Char) :=
  let pieces := text.splitOn '\n'
  (pieces.dropLast.map fun line => if line.getLast? = some '\r' then line.dropLast else line) ++
    pieces.getLast?.toList.filter (· ≠ [])

end Text

section Languages

def LANGUAGE_ALIASES : List (List String × String) := [
  (["zh","zh-cn","zh-hans","cmn","mandarin","chinese"],"Chinese"),
  (["yue","zh-yue","zh-hk","cantonese"],"Cantonese"),
  (["en","english"],"English"),
  (["ar","arabic"],"Arabic"),
  (["de","german"],"German"),
  (["fr","french"],"French"),
  (["es","spanish"],"Spanish"),
  (["pt","portuguese"],"Portuguese"),
  (["id","indonesian"],"Indonesian"),
  (["it","italian"],"Italian"),
  (["ko","korean"],"Korean"),
  (["ru","russian"],"Russian"),
  (["th","thai"],"Thai"),
  (["vi","vietnamese"],"Vietnamese"),
  (["ja","japanese"],"Japanese"),
  (["tr","turkish"],"Turkish"),
  (["hi","hindi"],"Hindi"),
  (["ms","malay"],"Malay"),
  (["nl","dutch"],"Dutch"),
  (["sv","swedish"],"Swedish"),
  (["da","danish"],"Danish"),
  (["fi","finnish"],"Finnish"),
  (["pl","polish"],"Polish"),
  (["cs","czech"],"Czech"),
  (["fil","tl","filipino","tagalog"],"Filipino"),
  (["fa","pes","persian","farsi"],"Persian"),
  (["el","greek"],"Greek"),
  (["ro","romanian"],"Romanian"),
  (["hu","hungarian"],"Hungarian"),
  (["mk","macedonian"],"Macedonian")]

def languageAlias (language : String) : Option String :=
  let name := String.ofList (toAsciiLowercase (trim language).toList)
  (LANGUAGE_ALIASES.find? fun entry => name ∈ entry.1).map Prod.snd

variable (mapping : CaseMapping)

def normalizeLanguageName (language : String) : Except String String :=
  match (trim language).toList with
  | [] => .error "language is empty"
  | first::rest => match languageAlias (trim language) with
    | some canonical => .ok canonical
    | none => .ok (String.ofList (mapping.toUppercase first ++ rest.flatMap mapping.toLowercase))

end Languages

section Output
variable (mapping : CaseMapping)

def looksLikeMetadataOnlyOutput (text : List Char) : Bool :=
  match splitWhitespace text with
  | [] => true
  | first::remaining =>
    if toAsciiLowercase first ≠ "language".toList then "language".toList <+: toAsciiLowercase first else
    match remaining with
    | [] => true
    | [name] => toAsciiLowercase name = "none".toList ∨ (normalizeLanguageName mapping (String.ofList name)).isOk
    | _ => false

def metaLanguage : List (List Char) → String
  | [] => ""
  | line::rest =>
    let line := trim (String.ofList line)
    if line = "" then metaLanguage rest else
    if LANG_PREFIX.toList <+: toAsciiLowercase line.toList then
      let value := trim (String.ofList (line.toList.drop LANG_PREFIX.length))
      if value = "" then "" else
      match normalizeLanguageName mapping value with
      | .ok normalized => normalized
      | .error _ => ""
    else metaLanguage rest

def parseAsrOutput (raw userLanguage : Option String) : String × String :=
  match raw with
  | none => ("","")
  | some raw =>
    if trim raw = "" then ("","") else
    let text := detectAndFixRepetitions (trim raw) DEFAULT_REPETITION_THRESHOLD
    match userLanguage with
    | some language => (language,text)
    | none => match splitOnce ASR_TEXT_TAG.toList text.toList with
      | none => if looksLikeMetadataOnlyOutput mapping text.toList then ("","") else ("",trim text)
      | some (metaPart,textPart) =>
        if (splitOnce "language none".toList (toAsciiLowercase metaPart)).isSome then ("",trim (String.ofList textPart))
        else (metaLanguage mapping (lines metaPart),trim (String.ofList textPart))

end Output

section Words
variable {text word : List Char}

theorem wordsClean (start : ∀ c ∈ word, isWhitespace c = false) :
    ∀ found ∈ wordsFrom word text, found ≠ [] ∧ ∀ c ∈ found, isWhitespace c = false := by
  induction text generalizing word with
  | nil =>
    unfold wordsFrom
    split_ifs with empty
    · exact fun _ inside => (by cases inside)
    · exact List.forall_mem_singleton.mpr ⟨empty,start⟩
  | cons c rest ih =>
    unfold wordsFrom
    split_ifs with space empty
    · exact ih fun _ inside => (by cases inside)
    · exact List.forall_mem_cons.mpr ⟨⟨empty,start⟩,ih fun _ inside => (by cases inside)⟩
    · refine ih fun d inside => ?_
      rcases List.mem_append.mp inside with before | last
      · exact start d before
      · rw [List.mem_singleton.mp last]
        exact eq_false_of_ne_true space

theorem wordsSome (some_ : word ≠ []) : wordsFrom word text ≠ [] := by
  induction text generalizing word with
  | nil =>
    rw [wordsFrom,if_neg some_]
    exact List.cons_ne_nil _ _
  | cons c rest ih =>
    unfold wordsFrom
    split_ifs with space
    · exact List.cons_ne_nil _ _
    · exact ih (List.append_ne_nil_of_right_ne_nil _ (List.cons_ne_nil _ _))

theorem wordsHead {c : Char} (head : text.head? = some c) (solid : isWhitespace c = false) : splitWhitespace text ≠ [] := by
  cases text with
  | nil => cases head
  | cons d rest =>
    cases head
    rw [splitWhitespace,wordsFrom,if_neg (by rw [solid]; exact Bool.false_ne_true)]
    exact wordsSome (List.cons_ne_nil _ _)

theorem trimSame {text : String} (first : ∀ c, text.toList.head? = some c → isWhitespace c = false)
    (last : ∀ c, text.toList.getLast? = some c → isWhitespace c = false) : trim text = text := by
  have kept : ∀ chars : List Char, (∀ c, chars.head? = some c → isWhitespace c = false) →
      chars.dropWhile isWhitespace = chars := by
    intro chars solid
    cases chars with
    | nil => rfl
    | cons c rest => exact List.dropWhile_cons_of_neg (by rw [solid c rfl]; exact Bool.false_ne_true)
  rw [trim,kept _ first,kept _ (by rwa [List.head?_reverse]),List.reverse_reverse,String.ofList_toList]

theorem trimSolid (text : String) : (∀ c, (trim text).toList.head? = some c → isWhitespace c = false) ∧
    ∀ c, (trim text).toList.getLast? = some c → isWhitespace c = false := by
  have dropped : ∀ chars : List Char, ∀ c, (chars.dropWhile isWhitespace).head? = some c → isWhitespace c = false := by
    intro chars c head
    have solid := List.head?_dropWhile_not isWhitespace chars
    rw [head] at solid
    exact solid
  rw [trim,String.toList_ofList]
  constructor
  · intro c head
    obtain ⟨cut,whole⟩ := List.dropWhile_suffix (p := isWhitespace) (l := (text.toList.dropWhile isWhitespace).reverse)
    refine dropped text.toList c ?_
    rw [← List.reverse_reverse (text.toList.dropWhile isWhitespace),← whole,List.reverse_append]
    rw [List.head?_append,head]
    rfl
  · intro c last
    rw [List.getLast?_reverse] at last
    exact dropped _ c last

theorem splitOnceNone {tag : List Char} : splitOnce tag text = none ↔ ¬tag <:+: text := by
  induction text with
  | nil =>
    unfold splitOnce
    split_ifs with empty
    · exact iff_of_false (fun none_ => by cases none_) (not_not.mpr (empty ▸ List.infix_rfl))
    · exact iff_of_true rfl fun inside => empty (List.infix_nil.mp inside)
  | cons c rest ih =>
    unfold splitOnce
    rw [List.infix_cons_iff]
    split_ifs with here
    · exact iff_of_false (fun none_ => by cases none_) (not_not.mpr (.inl here))
    · rw [Option.map_eq_none_iff,ih]
      exact (not_congr (or_iff_right here)).symm

end Words

section Markers
variable {mapping : CaseMapping} {text name : List Char}

def StartsLanguage (word : List Char) : Prop := "language".toList <+: toAsciiLowercase word

instance : DecidablePred StartsLanguage := fun _ => inferInstanceAs (Decidable (_ <+: _))

theorem startsSame {word : List Char} (same : toAsciiLowercase word = "language".toList) : StartsLanguage word :=
  ⟨[],by rw [same,List.append_nil]⟩

/- Nothing, one word that starts with "language", or "language" and the name of a language or "none". -/
def EmptyMarker (text : List Char) : Prop :=
  text = [] ∨ (∃ word, splitWhitespace text = [word] ∧ StartsLanguage word) ∨
  ∃ first name, splitWhitespace text = [first,name] ∧ toAsciiLowercase first = "language".toList ∧
    (toAsciiLowercase name = "none".toList ∨ (languageAlias (String.ofList name)).isSome)

/- A longer word that starts with "language" stands before others, or "language" before one word that names none. -/
def Swallowed (text : List Char) : Prop :=
  ∃ first second rest, splitWhitespace text = first::second::rest ∧ StartsLanguage first ∧
    (toAsciiLowercase first ≠ "language".toList ∨
      rest = [] ∧ toAsciiLowercase second ≠ "none".toList ∧ languageAlias (String.ofList second) = none)

theorem swallowedNoMarker (swallowed : Swallowed text) : ¬EmptyMarker text := by
  obtain ⟨first,second,rest,words,_,other⟩ := swallowed
  rintro (empty | ⟨word,alone,_⟩ | ⟨head,name,both,language,known⟩)
  · subst empty
    cases words
  · rw [words] at alone
    cases alone
  · rw [words] at both
    cases both
    rcases other with longer | ⟨_,named,alias_⟩
    · exact longer language
    · rcases known with none_ | some_
      · exact named none_
      · rw [alias_] at some_
        cases some_

theorem wordNormalized (inside : name ∈ splitWhitespace text) :
    (normalizeLanguageName mapping (String.ofList name)).isOk = true := by
  have start : ∀ c ∈ ([] : List Char), isWhitespace c = false := fun _ inside => (by cases inside)
  obtain ⟨some_,solid⟩ := wordsClean start name inside
  have same : trim (String.ofList name) = String.ofList name := by
    refine trimSame (fun c head => solid c ?_) (fun c last => solid c ?_)
    · rw [String.toList_ofList] at head
      exact List.mem_of_head? head
    · rw [String.toList_ofList] at last
      exact List.mem_of_getLast? last
  rw [normalizeLanguageName,same,String.toList_ofList]
  cases name with
  | nil => exact absurd rfl some_
  | cons c rest =>
    dsimp only
    cases languageAlias (String.ofList (c::rest)) <;> rfl

theorem startsFirst {first : List Char} {rest : List (List Char)} (words : splitWhitespace text = first::rest)
    (found : EmptyMarker text ∨ Swallowed text) : StartsLanguage first := by
  rcases found with (empty | ⟨word,alone,starts⟩ | ⟨head,name,both,language,_⟩) | ⟨head,second,behind,all,starts,_⟩
  · subst empty
    cases words
  · rw [words] at alone
    cases alone
    exact starts
  · rw [words] at both
    cases both
    exact startsSame language
  · rw [words] at all
    cases all
    exact starts

theorem languageAlone {first : List Char} (words : splitWhitespace text = [first]) (starts : StartsLanguage first) :
    EmptyMarker text := .inr (.inl ⟨first,words,starts⟩)

theorem languageNamed {first second : List Char} (words : splitWhitespace text = [first,second])
    (language : toAsciiLowercase first = "language".toList) : EmptyMarker text ∨ Swallowed text := by
  by_cases known : toAsciiLowercase second = "none".toList ∨ (languageAlias (String.ofList second)).isSome
  · exact .inl (.inr (.inr ⟨first,second,words,language,known⟩))
  · obtain ⟨named,unknown⟩ := not_or.mp known
    exact .inr ⟨first,second,[],words,startsSame language,.inr ⟨rfl,named,Option.not_isSome_iff_eq_none.mp unknown⟩⟩

theorem threeWords {first second third : List Char} {rest : List (List Char)}
    (words : splitWhitespace text = first::second::third::rest) : ¬EmptyMarker text := by
  rintro (empty | ⟨word,alone,_⟩ | ⟨head,name,both,_⟩)
  · subst empty
    cases words
  · rw [words] at alone
    cases alone
  · rw [words] at both
    cases both

theorem languageText {first second third : List Char} {rest : List (List Char)}
    (words : splitWhitespace text = first::second::third::rest) (language : toAsciiLowercase first = "language".toList) :
    ¬(EmptyMarker text ∨ Swallowed text) := by
  rintro (marker | ⟨head,next,behind,all,_,longer | ⟨none_,_⟩⟩)
  · exact threeWords words marker
  · rw [words] at all
    cases all
    exact longer language
  · rw [words,none_] at all
    cases all

/- What looks like metadata is a marker of empty audio, or spoken text taken for one. -/
theorem looksLikeMetadata (some_ : splitWhitespace text ≠ []) :
    looksLikeMetadataOnlyOutput mapping text = true ↔ EmptyMarker text ∨ Swallowed text := by
  obtain ⟨first,remaining,words⟩ := List.exists_cons_of_ne_nil some_
  rw [looksLikeMetadataOnlyOutput,words]
  dsimp only
  split_ifs with other
  · rw [decide_eq_true_eq]
    refine ⟨fun starts => ?_,startsFirst words⟩
    cases remaining with
    | nil => exact .inl (languageAlone words starts)
    | cons second rest => exact .inr ⟨first,second,rest,words,starts,.inl other⟩
  · have language := not_not.mp other
    match remaining with
    | [] => exact iff_of_true rfl (.inl (languageAlone words (startsSame language)))
    | [second] =>
      have inside : second ∈ splitWhitespace text := words ▸ List.mem_cons_of_mem _ List.mem_cons_self
      exact iff_of_true (decide_eq_true (.inr (wordNormalized inside))) (languageNamed words language)
    | second::third::rest => exact iff_of_false Bool.false_ne_true (languageText words language)

end Markers

section Kept
variable {raw : String}

def repaired (raw : String) : String := detectAndFixRepetitions (trim raw) DEFAULT_REPETITION_THRESHOLD

/- Nothing but a marker of empty audio is dropped, and any other text comes back with its repetitions repaired. -/
def TextKept (mapping : CaseMapping) (raw : String) : Prop :=
  let text := (parseAsrOutput mapping (some raw) none).2
  (text = "" → EmptyMarker (trim raw).toList) ∧ (¬EmptyMarker (trim raw).toList → text = repaired raw)

/- The output is no marker, but what the repair leaves of it is one, or is taken for one. -/
def Lost (raw : String) : Prop :=
  ¬EmptyMarker (trim raw).toList ∧ (EmptyMarker (repaired raw).toList ∨ Swallowed (repaired raw).toList)

theorem repairedEnds (raw : String) : (repaired raw).toList.head? = (trim raw).toList.head? ∧
    (repaired raw).toList.getLast? = (trim raw).toList.getLast? := by
  obtain ⟨first,before,_,second⟩ := @detectedCompressed DEFAULT_REPETITION_THRESHOLD (by decide) (trim raw)
  exact ⟨(compressedHead second).trans (compressedHead before),(compressedLast second).trans (compressedLast before)⟩

theorem repairedTrim (raw : String) : trim (repaired raw) = repaired raw := by
  obtain ⟨head,last⟩ := repairedEnds raw
  obtain ⟨first,final⟩ := trimSolid raw
  exact trimSame (fun c found => first c (head ▸ found)) fun c found => final c (last ▸ found)

theorem repairedWords (some_ : trim raw ≠ "") : splitWhitespace (repaired raw).toList ≠ [] := by
  have letters : (trim raw).toList ≠ [] := fun none_ => some_ (String.toList_inj.mp none_)
  obtain ⟨c,rest,same⟩ := List.exists_cons_of_ne_nil letters
  have head : (trim raw).toList.head? = some c := by
    rw [same]
    rfl
  exact wordsHead ((repairedEnds raw).1.trans head) ((trimSolid raw).1 c head)

theorem repairedSome (some_ : trim raw ≠ "") : repaired raw ≠ "" := by
  intro empty
  have words := repairedWords some_
  rw [empty] at words
  exact words rfl

theorem parsedUntagged {mapping : CaseMapping} (some_ : trim raw ≠ "") (untagged : ¬ASR_TEXT_TAG.toList <:+: (repaired raw).toList) :
    (parseAsrOutput mapping (some raw) none).2 =
      if looksLikeMetadataOnlyOutput mapping (repaired raw).toList then "" else repaired raw := by
  have apart := splitOnceNone.mpr untagged
  have whole := repairedTrim raw
  unfold repaired at apart whole ⊢
  simp only [parseAsrOutput,if_neg some_,apart]
  split_ifs
  · rfl
  · exact whole

/-- Without the tag and without a forced language, text is lost exactly where the output is no marker and its repaired
form has a longer word that starts with "language" before other words, is "language" and one word that is no name of a
language, or has become a marker. -/
theorem textKept (mapping : CaseMapping) (raw : String) (untagged : ¬ASR_TEXT_TAG.toList <:+: (repaired raw).toList) :
    TextKept mapping raw ↔ ¬Lost raw := by
  by_cases empty : trim raw = ""
  · have marker : EmptyMarker (trim raw).toList := .inl (by rw [empty]; rfl)
    exact iff_of_true ⟨fun _ => marker,fun other => absurd marker other⟩ fun lost => lost.1 marker
  unfold TextKept
  simp only [parsedUntagged empty untagged]
  have looks := @looksLikeMetadata mapping _ (repairedWords empty)
  constructor
  · rintro ⟨dropped,_⟩ ⟨text,taken⟩
    exact text (dropped (if_pos (looks.mpr taken)))
  · intro kept
    split_ifs with taken
    · have marker : EmptyMarker (trim raw).toList := by
        by_contra text
        exact kept ⟨text,looks.mp taken⟩
      exact ⟨fun _ => marker,fun other => absurd marker other⟩
    · exact ⟨fun none_ => absurd none_ (repairedSome empty),fun _ => rfl⟩

def asciiMapping : CaseMapping := ⟨fun c => [c.toUpper],fun c => [c.toLower]⟩

theorem textKeptModels : TextKept asciiMapping " Language models learn. " ∧ TextKept asciiMapping "language  English" := by
  constructor
  · refine (textKept asciiMapping " Language models learn. " (by decide +kernel)).mpr fun lost => ?_
    have known : splitWhitespace (repaired " Language models learn. ").toList =
        ["Language".toList,"models".toList,"learn.".toList] := by decide +kernel
    exact languageText known (by decide) lost.2
  · refine (textKept asciiMapping "language  English" (by decide +kernel)).mpr fun lost => lost.1 ?_
    exact .inr (.inr ⟨"language".toList,"English".toList,by decide +kernel,by decide +kernel,.inr (by decide +kernel)⟩)

def chanted : String := "language" ++ String.join (List.replicate 25 " en")

/- Spoken texts that begin with the word are lost. -/
theorem languageLost : ¬TextKept asciiMapping "languages are fun" ∧ ¬TextKept asciiMapping "language barriers" ∧
    ¬TextKept asciiMapping chanted := by
  refine ⟨?_,?_,?_⟩
  · rintro ⟨dropped,_⟩
    have three : splitWhitespace (trim "languages are fun").toList = ["languages".toList,"are".toList,"fun".toList] := by
      decide +kernel
    exact threeWords three (dropped (by decide +kernel))
  · rintro ⟨dropped,_⟩
    have swallowed : Swallowed (trim "language barriers").toList :=
      ⟨"language".toList,"barriers".toList,[],by decide +kernel,by decide +kernel,
        .inr ⟨rfl,by decide +kernel,by decide +kernel⟩⟩
    exact swallowedNoMarker swallowed (dropped (by decide +kernel))
  · rintro ⟨dropped,_⟩
    have many : splitWhitespace (trim chanted).toList = "language".toList :: List.replicate 25 "en".toList := by
      decide +kernel
    exact threeWords many (dropped (by decide +kernel))

end Kept

end Qwen3Asr.AsrOutput
