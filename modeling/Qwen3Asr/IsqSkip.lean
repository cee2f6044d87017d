import Mathlib.Data.List.TakeWhile
import Qwen3Asr.IsqLinear
import Qwen3Asr.Library.Wording

/-! The modules a request is read to skip. Names are listed behind a key; the list is read back
whole unless the key stands behind a colon, where only one of the two parsers looks for it. -/
namespace Qwen3Asr.IsqSkip
open MediaData (isWhitespace)
open Library.Wording
open AsrOutput IsqLinear

theorem eachIs {p : Char → Prop} [DecidablePred p] {text : List Char} (all : text.all (fun c => decide (p c)) = true) :
    ∀ c ∈ text, p c := fun c inside => of_decide_eq_true (List.all_eq_true.mp all c inside)

def NameChar (c : Char) : Prop := isWhitespace c = false ∧ c ∉ [';',':',',','|','+','=']

instance (c : Char) : Decidable (NameChar c) := inferInstanceAs (Decidable (_ ∧ _))

theorem nameApart {c : Char} (plain : NameChar c) {special : List Char}
    (separators : ∀ d ∈ special, d ∈ [';',':',',','|','+','=']) : c ∉ special := fun inside => plain.2 (separators c inside)

section Text
variable {text : List Char}

theorem trimBehind (before : List Char) (some_ : text ≠ []) (solid : ∀ c ∈ text, isWhitespace c = false) :
    trim (before ++ text) = before.dropWhile isWhitespace ++ text := by
  have kept : ∀ chars : List Char, chars ≠ [] → (∀ c ∈ chars, isWhitespace c = false) → ∀ more,
      (chars ++ more).dropWhile isWhitespace = chars ++ more := by
    intro chars some_ solid more
    obtain ⟨c,rest,rfl⟩ := List.exists_cons_of_ne_nil some_
    exact List.dropWhile_cons_of_neg (by rw [solid c List.mem_cons_self]; exact Bool.false_ne_true)
  have front : (before ++ text).dropWhile isWhitespace = before.dropWhile isWhitespace ++ text := by
    have same := kept text some_ solid []
    rw [List.append_nil] at same
    rw [List.dropWhile_append]
    split
    next empty => rw [same,List.isEmpty_iff.mp empty,List.nil_append]
    next => rfl
  have back := kept text.reverse (List.reverse_ne_nil_iff.mpr some_) (fun c inside => solid c (List.mem_reverse.mp inside))
    (before.dropWhile isWhitespace).reverse
  rw [trim,MediaData.trim,String.toList_ofList,String.toList_ofList,front,List.reverse_append,back,List.reverse_append,
    List.reverse_reverse,List.reverse_reverse]

theorem trimPlain (solid : ∀ c ∈ text, isWhitespace c = false) : trim text = text := by
  by_cases empty : text = []
  · rw [empty]
    rfl
  · exact trimBehind [] empty solid

theorem dropWhileKeeps {c : Char} (inside : c ∈ text) (solid : isWhitespace c = false) : c ∈ text.dropWhile isWhitespace := by
  have whole := List.takeWhile_append_dropWhile (p := isWhitespace) (l := text)
  rw [← whole] at inside
  rcases List.mem_append.mp inside with cut | kept
  · have blank := List.mem_takeWhile_imp cut
    rw [solid] at blank
    cases blank
  · exact kept

theorem trimKeeps {c : Char} (inside : c ∈ text) (solid : isWhitespace c = false) : c ∈ trim text := by
  rw [trim,MediaData.trim,String.toList_ofList,String.toList_ofList,List.mem_reverse]
  exact dropWhileKeeps (List.mem_reverse.mpr (dropWhileKeeps inside solid)) solid

theorem splitOnceFirst {before : List Char} (absent : '=' ∉ before) (behind : List Char) :
    splitOnce ['='] (before ++ '='::behind) = some (before,behind) := by
  induction before with
  | nil => simp [splitOnce]
  | cons c before ih =>
    have other : ¬['='] <+: c::(before ++ '='::behind) := fun starts =>
      List.ne_of_not_mem_cons absent (List.cons_prefix_cons.mp starts).1
    rw [List.cons_append,splitOnce,if_neg other,ih (List.not_mem_of_not_mem_cons absent)]
    rfl

theorem splitOnceAbsent (absent : '=' ∉ text) : splitOnce ['='] text = none :=
  splitOnceNone.mpr fun inside => absent (inside.subset List.mem_cons_self)

end Text

structure SkipRequest (build : Build) where
  dtype : List Char
  separator : Char
  key : List Char
  first : List Char
  rest : List (Char × List Char)
  accepted : ∃ resolved, resolveIsqDtype build dtype = .ok resolved
  single : ∀ c ∈ dtype, c ∉ [';',':',',']
  separates : separator ∈ [';',':',',']
  skips : toAsciiLowercase key ∈ SKIP_KEYS
  named : ∀ name ∈ first::rest.map Prod.snd, name ≠ [] ∧ ∀ c ∈ name, NameChar c
  joined : ∀ c ∈ rest.map Prod.fst, c ∈ ['|','+',',']

namespace SkipRequest
variable {build : Build}

def names (request : SkipRequest build) : List (List Char) := request.first::request.rest.map Prod.snd

def valuesFrom (first : List Char) (rest : List (Char × List Char)) : List Char :=
  first ++ rest.flatMap fun (c,name) => c::name

def text (request : SkipRequest build) : List Char :=
  request.dtype ++ request.separator::(request.key ++ '='::valuesFrom request.first request.rest)

end SkipRequest
open SkipRequest

abbrev outer (c : Char) : Bool := c ∈ [';',',']

section Values
variable {first : List Char} {rest : List (Char × List Char)}

structure Named (first : List Char) (rest : List (Char × List Char)) : Prop where
  names : ∀ name ∈ first::rest.map Prod.snd, name ≠ [] ∧ ∀ c ∈ name, NameChar c
  joins : ∀ c ∈ rest.map Prod.fst, c ∈ ['|','+',',']

theorem namedTail {c : Char} {name : List Char} (named : Named first ((c,name)::rest)) :
    (first ≠ [] ∧ ∀ c ∈ first, NameChar c) ∧ c ∈ ['|','+',','] ∧ Named name rest :=
  have ⟨head,names⟩ := List.forall_mem_cons.mp named.names
  have ⟨join,joins⟩ := List.forall_mem_cons.mp named.joins
  ⟨head,join,names,joins⟩

theorem valueChars (named : Named first rest) : ∀ c ∈ valuesFrom first rest, isWhitespace c = false ∧ c ∉ [';',':','='] := by
  have letters : ∀ name : List Char, (name ≠ [] ∧ ∀ c ∈ name, NameChar c) → ∀ c ∈ name,
      isWhitespace c = false ∧ c ∉ [';',':','='] := by
    intro name named c inside
    exact ⟨(named.2 c inside).1,nameApart (named.2 c inside) (eachIs (by decide))⟩
  intro c inside
  rcases List.mem_append.mp inside with head | later
  · exact letters first (named.names first List.mem_cons_self) c head
  · obtain ⟨⟨join,name⟩,pair,letter⟩ := List.mem_flatMap.mp later
    rcases List.mem_cons.mp letter with rfl | letter
    · have joins := named.joins c (List.mem_map.mpr ⟨_,pair,rfl⟩)
      simp only [List.mem_cons,List.not_mem_nil,or_false] at joins
      rcases joins with rfl | rfl | rfl <;> decide
    · exact letters name (named.names name (List.mem_cons_of_mem _ (List.mem_map.mpr ⟨_,pair,rfl⟩))) c letter

theorem skipName (some_ : first ≠ []) (plain : ∀ c ∈ first, NameChar c) : splitSkipValues first = [first] := by
  have whole : ∀ c ∈ first, decide (c ∈ ['|','+',',']) = false := fun c inside =>
    decide_eq_false (nameApart (plain c inside) (eachIs (by decide)))
  rw [splitSkipValues,List.splitOnP_eq_singleton whole,List.map_singleton,trimPlain fun c inside => (plain c inside).1]
  exact List.filter_cons_of_pos (decide_eq_true some_)

theorem skipNames (some_ : first ≠ []) (plain : ∀ c ∈ first, NameChar c) {join : Char} (joins : join ∈ ['|','+',','])
    (values : List Char) : splitSkipValues (first ++ join::values) = first::splitSkipValues values := by
  have head := skipName some_ plain
  unfold splitSkipValues at head ⊢
  rw [List.splitOnP_append_cons first values (decide_eq_true joins),List.map_append,List.filter_append,head]
  rfl

theorem valuesSplit (named : Named first rest) :
    ((valuesFrom first rest).splitOnP outer).flatMap splitSkipValues = first::rest.map Prod.snd := by
  induction rest generalizing first with
  | nil =>
    obtain ⟨some_,plain⟩ := named.names first List.mem_cons_self
    have whole : ∀ c ∈ first, outer c = false := fun c inside => decide_eq_false (nameApart (plain c inside) (eachIs (by decide)))
    have alone : valuesFrom first [] = first := List.append_nil _
    rw [alone,List.splitOnP_eq_singleton whole,List.flatMap_singleton,skipName some_ plain]
    rfl
  | cons pair rest ih =>
    obtain ⟨join,name⟩ := pair
    obtain ⟨⟨some_,plain⟩,joins,others⟩ := namedTail named
    have ih := ih others
    have unfolded : valuesFrom first ((join,name)::rest) = first ++ join::valuesFrom name rest := rfl
    have whole : ∀ c ∈ first, outer c = false := fun c inside => decide_eq_false (nameApart (plain c inside) (eachIs (by decide)))
    rw [unfolded]
    by_cases comma : join = ','
    · rw [comma,List.splitOnP_append_cons_of_forall_mem whole ',' rfl,List.flatMap_cons,skipName some_ plain,ih]
      rfl
    · have within : ∀ c ∈ first ++ [join], outer c = false := by
        intro c inside
        rcases List.mem_append.mp inside with letter | last
        · exact whole c letter
        · rw [List.mem_singleton.mp last]
          simp only [List.mem_cons,List.not_mem_nil,or_false] at joins
          rcases joins with rfl | rfl | rfl
          · rfl
          · rfl
          · exact absurd rfl comma
      obtain ⟨head,pieces,split⟩ := List.exists_cons_of_ne_nil (List.splitOnP_ne_nil outer (valuesFrom name rest))
      have grouped : first ++ join::valuesFrom name rest = (first ++ [join]) ++ valuesFrom name rest := List.append_cons _ _ _
      rw [split,List.flatMap_cons] at ih
      rw [grouped,splitOnPAppend within,split,List.modifyHead_cons,List.flatMap_cons,← List.append_cons,
        skipNames some_ plain joins,List.cons_append,ih]
      rfl

theorem skipValuesGoOn {parts : List (List Char)} (solid : ∀ part ∈ parts, ∀ c ∈ part, isWhitespace c = false ∧ c ∉ [';',':','=']) :
    skipValues true parts = parts.flatMap splitSkipValues ∧ skipValues false parts = [] := by
  induction parts with
  | nil => exact ⟨rfl,rfl⟩
  | cons part parts ih =>
    obtain ⟨here,behind⟩ := List.forall_mem_cons.mp solid
    have ih := ih behind
    have same : trim part = part := trimPlain fun c inside => (here c inside).1
    have absent : '=' ∉ part := fun inside => (here '=' inside).2 (by decide)
    constructor
    · rw [skipValues,same,List.flatMap_cons,← ih.1]
      exact if_pos ⟨rfl,absent⟩
    · rw [skipValues,same,if_neg fun reading => Bool.false_ne_true reading.1,splitOnceAbsent absent]
      exact ih.2

end Values

section Reading
variable {build : Build}

theorem lowerPlain {c : Char} (plain : NameChar c.toLower) : NameChar c := by
  by_cases upper : c.val ≥ 'A'.val ∧ c.val ≤ 'Z'.val
  · have least : 65 ≤ c.toNat := upper.1
    have most : c.toNat ≤ 90 := upper.2
    constructor
    · unfold isWhitespace
      refine decide_eq_false ?_
      omega
    · intro special
      simp only [List.mem_cons,List.not_mem_nil,or_false] at special
      rcases special with rfl | rfl | rfl | rfl | rfl | rfl <;> exact absurd (And.intro least most) (by decide)
  · have same : c.toLower = c := dif_neg upper
    rwa [same] at plain

theorem keyChars {key : List Char} (skips : toAsciiLowercase key ∈ SKIP_KEYS) : ∀ c ∈ key, NameChar c := by
  have words : ∀ word ∈ SKIP_KEYS, ∀ c ∈ word, NameChar c := by
    have all : SKIP_KEYS.all (fun word => word.all fun c => decide (NameChar c)) = true := by decide
    exact fun word listed => eachIs (List.all_eq_true.mp all word listed)
  exact fun c inside => lowerPlain (words _ skips _ (List.mem_map.mpr ⟨c,inside,rfl⟩))

theorem lookupNamed {α : Type} {table : List (List String × α)} {name : String} {a : α} (found : lookup table name = some a) :
    name ∈ table.flatMap Prod.fst := by
  obtain ⟨entry,here,_⟩ := Option.map_eq_some_iff.mp found
  exact List.mem_flatMap.mpr ⟨entry,List.mem_of_find?_eq_some here,by simpa using List.find?_some here⟩

theorem acceptedPlain {dtype : List Char} (single : ∀ c ∈ dtype, c ∉ [';',':',',']) {resolved : ResolvedIsq}
    (accepted : resolveIsqDtype build dtype = .ok resolved) : '=' ∉ dtype := by
  have names : ∀ name ∈ ISQ_BITS.flatMap Prod.fst ++ (GGML_DTYPES.flatMap Prod.fst ++ AFQ_BITS.flatMap Prod.fst),
      '=' ∉ name.toList := by decide
  have piece : dtype.splitOnP (fun c => c ∈ [';',':',',']) = [dtype] :=
    List.splitOnP_eq_singleton fun c inside => decide_eq_false (single c inside)
  have known : String.ofList (toAsciiLowercase (trim dtype)) ∈
      ISQ_BITS.flatMap Prod.fst ++ (GGML_DTYPES.flatMap Prod.fst ++ AFQ_BITS.flatMap Prod.fst) := by
    unfold resolveIsqDtype at accepted
    dsimp only at accepted
    rw [piece,List.headD_cons] at accepted
    split at accepted
    next bits found => exact List.mem_append_left _ (lookupNamed found)
    next =>
      split at accepted
      next dtype found => exact List.mem_append_right _ (List.mem_append_left _ (lookupNamed found))
      next =>
        split at accepted
        next bits found => exact List.mem_append_right _ (List.mem_append_right _ (lookupNamed found))
        next => cases accepted
  intro inside
  refine names _ known ?_
  rw [String.toList_ofList]
  exact List.mem_map.mpr ⟨'=',trimKeeps inside (by decide),rfl⟩

theorem dedupMem {items : List (List Char)} {item : List Char} : item ∈ dedup items ↔ item ∈ items := by
  induction items using dedup.induct with
  | case1 second rest ih =>
    rw [dedup,if_pos rfl,ih]
    simp
  | case2 first second rest differs ih =>
    rw [dedup,if_neg differs]
    exact List.mem_cons.trans ((or_congr_right ih).trans List.mem_cons.symm)
  | case3 items short => rw [dedup.eq_2 items short]

section Parts
variable {dtype key first : List Char} {rest : List (Char × List Char)}

theorem typeWhole (single : ∀ c ∈ dtype, c ∉ [';',':',',']) : ∀ c ∈ dtype, outer c = false := by
  have fewer : ∀ d ∈ [';',','], d ∈ [';',':',','] := eachIs (by decide)
  exact fun c inside => decide_eq_false fun special => single c inside (fewer c special)

theorem keyPlain (keyed : ∀ c ∈ key, NameChar c) : '=' ∉ key := fun inside => (keyed '=' inside).2 (by decide)

structure Parts (key : List Char) (names : List (List Char)) (head : List Char) (pieces : List (List Char)) : Prop where
  solid : ∀ c ∈ key ++ '='::head, isWhitespace c = false
  each : ∀ part ∈ pieces, ∀ c ∈ part, isWhitespace c = false ∧ c ∉ [';',':','=']
  listed : splitSkipValues head ++ pieces.flatMap splitSkipValues = names

theorem keyedParts (keyed : ∀ c ∈ key, NameChar c) (named : Named first rest) :
    ∃ head pieces, (key ++ '='::valuesFrom first rest).splitOnP outer = (key ++ '='::head)::pieces ∧
      Parts key (first::rest.map Prod.snd) head pieces := by
  obtain ⟨head,pieces,split⟩ := List.exists_cons_of_ne_nil (List.splitOnP_ne_nil outer (valuesFrom first rest))
  have solid : ∀ part ∈ head::pieces, ∀ c ∈ part, isWhitespace c = false ∧ c ∉ [';',':','='] := fun part inside c letter =>
    valueChars named c (memSplitOnP (split ▸ inside) letter)
  obtain ⟨solidHead,solidPieces⟩ := List.forall_mem_cons.mp solid
  have keyWhole : ∀ c ∈ key ++ ['='], outer c = false := by
    intro c inside
    rcases List.mem_append.mp inside with letter | sign
    · exact decide_eq_false (nameApart (keyed c letter) (eachIs (by decide)))
    · rw [List.mem_singleton.mp sign]
      rfl
  refine ⟨head,pieces,?_,?_,solidPieces,?_⟩
  · rw [List.append_cons,splitOnPAppend keyWhole,split,List.modifyHead_cons,← List.append_cons]
  · intro c inside
    rcases List.mem_append.mp inside with letter | later
    · exact (keyed c letter).1
    · rcases List.mem_cons.mp later with rfl | value
      · decide
      · exact (solidHead c value).1
  · have listed := valuesSplit named
    rwa [split,List.flatMap_cons] at listed

/- Behind a colon the type, the colon and the key are one part, and what stands before the sign is no key. -/
theorem colonValues (single : ∀ c ∈ dtype, c ∉ [';',':',',']) (signless : '=' ∉ dtype) (keyed : ∀ c ∈ key, NameChar c)
    (named : Named first rest) :
    skipValues false ((dtype ++ ':'::(key ++ '='::valuesFrom first rest)).splitOnP outer) = [] := by
  obtain ⟨head,pieces,behind,parts⟩ := keyedParts keyed named
  have within : ∀ c ∈ dtype ++ [':'], outer c = false := by
    intro c inside
    rcases List.mem_append.mp inside with letter | last
    · exact typeWhole single c letter
    · rw [List.mem_singleton.mp last]
      rfl
  have one : trim (dtype ++ ':'::(key ++ '='::head)) = (dtype.dropWhile isWhitespace ++ ':'::key) ++ '='::head := by
    rw [trimBehind dtype (List.cons_ne_nil _ _) (List.forall_mem_cons.mpr ⟨by decide,parts.solid⟩),List.append_assoc]
    rfl
  have apart : '=' ∉ dtype.dropWhile isWhitespace ++ ':'::key := by
    intro inside
    rcases List.mem_append.mp inside with letter | later
    · exact signless ((List.dropWhile_sublist _).subset letter)
    · rcases List.mem_cons.mp later with same | letter
      · cases same
      · exact keyPlain keyed letter
  have other : toAsciiLowercase (trim (dtype.dropWhile isWhitespace ++ ':'::key)) ∉ SKIP_KEYS := by
    have words : ∀ word ∈ SKIP_KEYS, ':' ∉ word := by decide
    exact fun found => words _ found
      (List.mem_map.mpr ⟨':',trimKeeps (List.mem_append_right _ List.mem_cons_self) (by decide),rfl⟩)
  rw [List.append_cons,splitOnPAppend within,behind,List.modifyHead_cons,← List.append_cons,skipValues,one,
    if_neg fun reading => Bool.false_ne_true reading.1,splitOnceFirst apart]
  dsimp only
  rw [if_neg other]
  exact (skipValuesGoOn parts.each).2

/- Behind a separator of both parsers the key starts a part of its own. -/
theorem cutValues (single : ∀ c ∈ dtype, c ∉ [';',':',',']) (signless : '=' ∉ dtype) (skips : toAsciiLowercase key ∈ SKIP_KEYS)
    (named : Named first rest) {separator : Char} (cuts : outer separator = true) :
    skipValues false ((dtype ++ separator::(key ++ '='::valuesFrom first rest)).splitOnP outer) =
      first::rest.map Prod.snd := by
  have keyed := keyChars skips
  obtain ⟨head,pieces,behind,parts⟩ := keyedParts keyed named
  have typeless : '=' ∉ trim dtype := by
    intro inside
    rw [trim,MediaData.trim,String.toList_ofList,String.toList_ofList,List.mem_reverse] at inside
    exact signless ((List.dropWhile_sublist _).subset (List.mem_reverse.mp ((List.dropWhile_sublist _).subset inside)))
  have reads : toAsciiLowercase (trim key) ∈ SKIP_KEYS := by rwa [trimPlain fun c inside => (keyed c inside).1]
  rw [List.splitOnP_append_cons_of_forall_mem (typeWhole single) separator cuts,behind,skipValues,
    if_neg fun reading => Bool.false_ne_true reading.1,splitOnceAbsent typeless]
  dsimp only
  rw [skipValues,trimPlain parts.solid,if_neg fun reading => Bool.false_ne_true reading.1,splitOnceFirst (keyPlain keyed)]
  dsimp only
  rw [if_pos reads,(skipValuesGoOn parts.each).1,parts.listed]

end Parts

theorem requestValues (request : SkipRequest build) :
    skipValues false (request.text.splitOnP outer) = if request.separator = ':' then [] else request.names := by
  obtain ⟨resolved,accepted⟩ := request.accepted
  have named : Named request.first request.rest := ⟨request.named,request.joined⟩
  have signless := acceptedPlain request.single accepted
  split
  next colon =>
    unfold SkipRequest.text
    rw [colon]
    exact colonValues request.single signless (keyChars request.skips) named
  next other =>
    have cuts : outer request.separator = true := by
      have fewer : ∀ c ∈ [';',':',','], c ≠ ':' → outer c = true := eachIs (by decide)
      exact fewer _ request.separates other
    exact cutValues request.single signless request.skips named cuts

theorem requestDtype (request : SkipRequest build) : resolveIsqDtype build request.text = resolveIsqDtype build request.dtype := by
  have alone : request.dtype.splitOnP (fun c => c ∈ [';',':',',']) = [request.dtype] :=
    List.splitOnP_eq_singleton fun c inside => decide_eq_false (request.single c inside)
  have first : request.text.splitOnP (fun c => c ∈ [';',':',',']) = request.dtype::_ :=
    List.splitOnP_append_cons_of_forall_mem (fun c inside => decide_eq_false (request.single c inside)) _
      (decide_eq_true request.separates) _
  unfold resolveIsqDtype
  dsimp only
  rw [alone,first,List.headD_cons,List.headD_cons]

theorem requestRead (request : SkipRequest build) : ∃ spec, parseIsqSpec build request.text = .ok spec ∧
    ∀ name, name ∈ spec.modulesToNotConvert ↔ request.separator ≠ ':' ∧ name ∈ request.names := by
  obtain ⟨resolved,accepted⟩ := request.accepted
  rw [← requestDtype] at accepted
  have values := requestValues request
  unfold outer at values
  refine ⟨_,by unfold parseIsqSpec; rw [accepted,values]; rfl,fun name => ?_⟩
  rw [dedupMem,List.mem_insertionSort]
  split
  next colon => exact iff_of_false List.not_mem_nil fun read => read.1 colon
  next other => exact (and_iff_right other).symm

end Reading

section Matching
variable {build : Build} {path name : List Char}

def keptUnquantized (build : Build) (isq modulePath : List Char) : Except String Bool := do
  let spec ← parseIsqSpec build isq
  return shouldSkipModule modulePath spec.modulesToNotConvert

theorem newKept {isq modulePath : List Char} {kept : Bool} (read : keptUnquantized build isq modulePath = .ok kept)
    {quantize : IsqSpec → Except String LinearX} (quantizes : ∀ spec, quantize spec ≠ .ok .linear)
    (enabled : (build.metal && build.deviceIsMetal && build.disableMetalIsq) = false) :
    newWithModulePath build quantize (some isq) modulePath = .ok .linear ↔ kept = true := by
  unfold keptUnquantized at read
  cases parsed : parseIsqSpec build isq with
  | error e =>
    rw [parsed] at read
    cases read
  | ok spec =>
    rw [parsed] at read
    obtain rfl := Except.ok.inj read
    have dense : spec.disableQuantization = false := by
      unfold parseIsqSpec at parsed
      cases resolved : resolveIsqDtype build isq with
      | error e =>
        rw [resolved] at parsed
        cases parsed
      | ok dtype =>
        rw [resolved] at parsed
        cases parsed
        exact enabled
    have run : newWithModulePath build quantize (some isq) modulePath =
        if shouldSkipModule modulePath spec.modulesToNotConvert then .ok .linear
        else if spec.disableQuantization then .ok .linear else quantize spec := by
      unfold newWithModulePath
      dsimp only
      rw [parsed]
      rfl
    rw [run,dense]
    cases shouldSkipModule modulePath spec.modulesToNotConvert with
    | false => exact iff_of_false (quantizes spec) Bool.false_ne_true
    | true => exact iff_of_true rfl rfl

/- Path and name are the same, or one ends in the other behind a dot. -/
def MatchesAtDot (path name : List Char) : Prop :=
  withoutWeight path = withoutWeight name ∨ '.'::withoutWeight name <:+ withoutWeight path ∨
    '.'::withoutWeight path <:+ withoutWeight name

instance : Decidable (MatchesAtDot path name) := inferInstanceAs (Decidable (_ ∨ _))

/- One ends in the other in the middle of a component. -/
def MatchesInside (path name : List Char) : Prop :=
  ∃ c, c ≠ '.' ∧ (c::withoutWeight name <:+ withoutWeight path ∨ c::withoutWeight path <:+ withoutWeight name)

theorem suffixCases {whole tail : List Char} : tail <:+ whole ↔ whole = tail ∨ ∃ c, c::tail <:+ whole := by
  constructor
  · rintro ⟨before,rfl⟩
    rcases List.eq_nil_or_concat before with rfl | ⟨before,c,rfl⟩
    · exact Or.inl rfl
    · exact Or.inr ⟨c,before,by rw [List.concat_eq_append,List.append_assoc]; rfl⟩
  · rintro (rfl | ⟨c,longer⟩)
    · exact List.suffix_refl _
    · exact (List.suffix_cons c tail).trans longer

theorem matchesCases (plain : ∀ c ∈ name, NameChar c) : modulePathMatchesNotConvert path name = true ↔
    withoutWeight name ≠ [] ∧ (MatchesAtDot path name ∨ MatchesInside path name) := by
  have same : trim name = name := trimPlain fun c inside => (plain c inside).1
  unfold modulePathMatchesNotConvert
  dsimp only
  rw [same,decide_eq_true_iff]
  refine and_congr_right fun _ => ?_
  constructor
  · have split (whole tail : List Char) (ends : tail <:+ whole) :
        whole = tail ∨ '.'::tail <:+ whole ∨ ∃ c, c ≠ '.' ∧ c::tail <:+ whole := by
      rcases suffixCases.mp ends with same | ⟨c,longer⟩
      · exact Or.inl same
      · by_cases dot : c = '.'
        · exact Or.inr (Or.inl (dot ▸ longer))
        · exact Or.inr (Or.inr ⟨c,dot,longer⟩)
    rintro (same | ends | dotted | ends | dotted)
    · exact Or.inl (Or.inl same)
    · rcases split _ _ ends with same | dotted | ⟨c,other,longer⟩
      · exact Or.inl (Or.inl same)
      · exact Or.inl (Or.inr (Or.inl dotted))
      · exact Or.inr ⟨c,other,Or.inl longer⟩
    · exact Or.inl (Or.inr (Or.inl dotted))
    · rcases split _ _ ends with same | dotted | ⟨c,other,longer⟩
      · exact Or.inl (Or.inl same.symm)
      · exact Or.inl (Or.inr (Or.inr dotted))
      · exact Or.inr ⟨c,other,Or.inr longer⟩
    · exact Or.inl (Or.inr (Or.inr dotted))
  · rintro ((same | dotted | dotted) | ⟨c,_,longer | longer⟩)
    · exact Or.inl same
    · exact Or.inr (Or.inr (Or.inl dotted))
    · exact Or.inr (Or.inr (Or.inr (Or.inr dotted)))
    · exact Or.inr (Or.inl (suffixCases.mpr (Or.inr ⟨c,longer⟩)))
    · exact Or.inr (Or.inr (Or.inr (Or.inl (suffixCases.mpr (Or.inr ⟨c,longer⟩)))))

theorem requestKept (request : SkipRequest build) (some_ : path ≠ []) :
    ∃ kept, keptUnquantized build request.text path = .ok kept ∧ (kept = true ↔ request.separator ≠ ':' ∧
      ∃ name ∈ request.names, withoutWeight name ≠ [] ∧ (MatchesAtDot path name ∨ MatchesInside path name)) := by
  obtain ⟨spec,parsed,listed⟩ := requestRead request
  refine ⟨shouldSkipModule path spec.modulesToNotConvert,by unfold keptUnquantized; rw [parsed]; rfl,?_⟩
  unfold shouldSkipModule
  rw [if_neg some_,List.any_eq_true]
  have each (name : List Char) : name ∈ spec.modulesToNotConvert ∧ modulePathMatchesNotConvert path name = true ↔
      request.separator ≠ ':' ∧ name ∈ request.names ∧ withoutWeight name ≠ [] ∧
        (MatchesAtDot path name ∨ MatchesInside path name) := by
    rw [listed,and_assoc]
    exact and_congr_right fun _ => and_congr_right fun inside => matchesCases (request.named name inside).2
  simp only [each]
  exact exists_and_left

/- No colon stands before the key of a name that matches. Behind the other separators a name matches at a dot,
or none does in the middle of a component, and none is `.weight` alone and matches what is left of the path. -/
def SkipsAtDots (request : SkipRequest build) (path : List Char) : Prop :=
  if request.separator = ':' then ∀ name ∈ request.names, ¬MatchesAtDot path name
  else (∃ name ∈ request.names, withoutWeight name ≠ [] ∧ MatchesAtDot path name) ∨
    ((∃ name ∈ request.names, withoutWeight name ≠ [] ∧ MatchesInside path name) ↔
      ∃ name ∈ request.names, withoutWeight name = [] ∧ MatchesAtDot path name)

/-- A module is kept exactly if its path and a listed name match at a dot, where the separator is no colon
and nothing matches in the middle of a component only. -/
theorem keptIffSkipsAtDots (request : SkipRequest build) (path : List Char) (some_ : path ≠ []) :
    ∃ kept, keptUnquantized build request.text path = .ok kept ∧
      ((kept = true ↔ ∃ name ∈ request.names, MatchesAtDot path name) ↔ SkipsAtDots request path) := by
  obtain ⟨kept,read,decided⟩ := requestKept request some_
  refine ⟨kept,read,?_⟩
  have matched : (∃ name ∈ request.names, MatchesAtDot path name) ↔
      (∃ name ∈ request.names, withoutWeight name ≠ [] ∧ MatchesAtDot path name) ∨
        ∃ name ∈ request.names, withoutWeight name = [] ∧ MatchesAtDot path name := by
    constructor
    · rintro ⟨name,inside,dotted⟩
      by_cases empty : withoutWeight name = []
      · exact Or.inr ⟨name,inside,empty,dotted⟩
      · exact Or.inl ⟨name,inside,empty,dotted⟩
    · rintro (⟨name,inside,_,dotted⟩ | ⟨name,inside,_,dotted⟩) <;> exact ⟨name,inside,dotted⟩
  have either : (∃ name ∈ request.names, withoutWeight name ≠ [] ∧ (MatchesAtDot path name ∨ MatchesInside path name)) ↔
      (∃ name ∈ request.names, withoutWeight name ≠ [] ∧ MatchesAtDot path name) ∨
        ∃ name ∈ request.names, withoutWeight name ≠ [] ∧ MatchesInside path name := by
    simp only [and_or_left,exists_or]
  unfold SkipsAtDots
  rw [decided]
  split
  next colon =>
    constructor
    · exact fun same name inside dotted => absurd colon (same.mpr ⟨name,inside,dotted⟩).1
    · exact fun none_ => iff_of_false (fun kept => kept.1 colon) fun ⟨name,inside,dotted⟩ => none_ name inside dotted
  next other =>
    rw [and_iff_right other,either,matched]
    by_cases dotted : ∃ name ∈ request.names, withoutWeight name ≠ [] ∧ MatchesAtDot path name
    · exact iff_of_true (iff_of_true (Or.inl dotted) (Or.inl dotted)) (Or.inl dotted)
    · rw [or_iff_right dotted,or_iff_right dotted,or_iff_right dotted]

def plainBuild : Build := ⟨false,false,false,false,id⟩

def oneName (separator : Char) (separates : separator ∈ [';',':',',']) (name : List Char)
    (plain : name ≠ [] ∧ ∀ c ∈ name, NameChar c) : SkipRequest plainBuild where
  dtype := "q8_0".toList
  separator
  key := "skip".toList
  first := name
  rest := []
  accepted := ⟨.ggml .q8_0,by decide⟩
  single := eachIs (by decide)
  separates
  skips := by decide
  named := List.forall_mem_singleton.mpr plain
  joined := eachIs (by decide)

theorem headName : "lm_head".toList ≠ [] ∧ ∀ c ∈ "lm_head".toList, NameChar c :=
  ⟨by decide,eachIs (by decide)⟩

theorem projName : "proj".toList ≠ [] ∧ ∀ c ∈ "proj".toList, NameChar c :=
  ⟨by decide,eachIs (by decide)⟩

theorem headKeptAtDot : ∃ kept, keptUnquantized plainBuild
      (oneName ';' (by decide) "lm_head".toList headName).text "thinker.lm_head".toList = .ok kept ∧
    ((kept = true ↔ ∃ name ∈ (oneName ';' (by decide) "lm_head".toList headName).names,
        MatchesAtDot "thinker.lm_head".toList name) ↔
      SkipsAtDots (oneName ';' (by decide) "lm_head".toList headName) "thinker.lm_head".toList) :=
  keptIffSkipsAtDots (oneName ';' (by decide) "lm_head".toList headName) "thinker.lm_head".toList (by decide)

/- `q8_0:skip=lm_head` does not keep `thinker.lm_head`; `q8_0;skip=proj` keeps `mlp.q_proj`. -/
theorem skipListMisread :
    ((oneName ':' (by decide) "lm_head".toList headName).text = "q8_0:skip=lm_head".toList ∧
      keptUnquantized plainBuild "q8_0:skip=lm_head".toList "thinker.lm_head".toList = .ok false ∧
      MatchesAtDot "thinker.lm_head".toList "lm_head".toList) ∧
    ((oneName ';' (by decide) "proj".toList projName).text = "q8_0;skip=proj".toList ∧
      keptUnquantized plainBuild "q8_0;skip=proj".toList "mlp.q_proj".toList = .ok true ∧
      ¬MatchesAtDot "mlp.q_proj".toList "proj".toList) := by
  decide +kernel

end Matching
end Qwen3Asr.IsqSkip
