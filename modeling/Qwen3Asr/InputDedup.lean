import Mathlib.Algebra.GroupWithZero.Nat
import Mathlib.Data.List.Sort
import Mathlib.Logic.Function.Basic
import Qwen3Asr.TranscribeServer

/-! Inputs of equal audio are transcribed once. The first input of a key stands for the later ones, which are
given its outcome. The contents of local files and their hash are parameters. -/
namespace Qwen3Asr.InputDedup
open MediaData TranscribeServer

inductive AudioSourceDedupKey where
  | path (path : String)
  | url (url : String)
  | base64 (encoded : String)
  | bytes (bytes : List Nat)
  | localFileContent (len hash : Nat)
  deriving DecidableEq, Repr

structure Files where
  read : String → Option (List Nat)
  hash : List Nat → Nat

section Keys

def hexValue (byte : Nat) : Option Nat :=
  if 48 ≤ byte ∧ byte ≤ 57 then some (byte-48) else
  if 97 ≤ byte ∧ byte ≤ 102 then some (byte-97+10) else
  if 65 ≤ byte ∧ byte ≤ 70 then some (byte-65+10) else none

def percentDecode : List Nat → List Nat
  | 37::a::b::rest => match hexValue a, hexValue b with
    | some hi, some lo => (hi*16+lo)::percentDecode rest
    | _, _ => 37::percentDecode (a::b::rest)
  | byte::rest => byte::percentDecode rest
  | [] => []

/- The bounds of the second byte of a character, and how many bytes follow its first. -/
def utf8Lead (byte : Nat) : Option (Nat × Nat × Nat) :=
  if 0xC2 ≤ byte ∧ byte ≤ 0xDF then some (0x80,0xBF,1) else
  if byte = 0xE0 then some (0xA0,0xBF,2) else
  if byte = 0xED then some (0x80,0x9F,2) else
  if 0xE1 ≤ byte ∧ byte ≤ 0xEF then some (0x80,0xBF,2) else
  if byte = 0xF0 then some (0x90,0xBF,3) else
  if 0xF1 ≤ byte ∧ byte ≤ 0xF3 then some (0x80,0xBF,3) else
  if byte = 0xF4 then some (0x80,0x8F,3) else none

def utf8Following (low high : Nat) : Nat → List Nat → List Nat
  | n+1, byte::rest => if low ≤ byte ∧ byte ≤ high then byte::utf8Following 0x80 0xBF n rest else []
  | _, _ => []

/- What does not continue to a whole character is replaced, as far as it could have been one. -/
def fromUtf8Lossy : Nat → List Nat → List Char
  | fuel+1, byte::rest =>
    if byte < 0x80 then Char.ofNat byte::fromUtf8Lossy fuel rest else
    match utf8Lead byte with
    | none => '\uFFFD'::fromUtf8Lossy fuel rest
    | some (low,high,following) =>
      let tail := utf8Following low high following rest
      let c := if tail.length = following then
        Char.ofNat (tail.foldl (fun n b => n*64+b%64) (byte%2^(6-following))) else '\uFFFD'
      c::fromUtf8Lossy fuel (rest.drop tail.length)
  | _, _ => []

def percentDecodePath (value : List Char) : String :=
  let bytes := percentDecode ((String.ofList value).toUTF8.toList.map UInt8.toNat)
  String.ofList (fromUtf8Lossy bytes.length bytes)

def localPathFromUrl (value : String) : Option String :=
  (value.toList.dropPrefix? "file://".toList).map percentDecodePath

variable (files : Files)

def localFileContentKey (path : String) : Option AudioSourceDedupKey :=
  (files.read path).map fun bytes => .localFileContent bytes.length (files.hash bytes)

def audioSourceDedupKey : AudioSource → Option AudioSourceDedupKey
  | .path path => some ((localFileContentKey files path).getD (.path path))
  | .url url => match localPathFromUrl url with
    | some path => some ((localFileContentKey files path).getD (.url url))
    | none => some (.url url)
  | .base64 encoded => some (.base64 encoded)
  | .bytes bytes => some (.bytes bytes)
  | .waveform _ => none

end Keys

section Deduplication

structure DeduplicatedTranscribeInputs where
  uniqueInputs : List TranscribeInput
  duplicateIndices : List (Nat × Nat)
  deriving DecidableEq, Repr

variable (files : Files)

/- `seen` holds the index of the first input of each key. -/
def deduplicateFrom (seen : AudioSourceDedupKey → Option Nat) : List TranscribeInput → DeduplicatedTranscribeInputs
  | [] => ⟨[],[]⟩
  | input::inputs => match audioSourceDedupKey files input.source with
    | some key => match seen key with
      | some canonicalIndex =>
        let rest := deduplicateFrom seen inputs
        {rest with duplicateIndices := (input.index,canonicalIndex)::rest.duplicateIndices}
      | none =>
        let rest := deduplicateFrom (Function.update seen key (some input.index)) inputs
        {rest with uniqueInputs := input::rest.uniqueInputs}
    | none =>
      let rest := deduplicateFrom seen inputs
      {rest with uniqueInputs := input::rest.uniqueInputs}

def deduplicateTranscribeInputs (inputs : List TranscribeInput) : DeduplicatedTranscribeInputs :=
  deduplicateFrom files (fun _ => none) inputs

def duplicateOutcomeFrom (outcome : TranscribeItemOutcome) (duplicateIndex : Nat) : TranscribeItemOutcome where
  index := duplicateIndex
  result := match outcome.result with
    | .ok timeline => .ok timeline
    | .error error => .error s!"{error}"
  badComponent := outcome.badComponent

def NotBehind (a b : TranscribeItemOutcome) : Prop := a.index ≤ b.index

instance : DecidableRel NotBehind := fun a b => inferInstanceAs (Decidable (a.index ≤ b.index))

def sortByIndex (outcomes : List TranscribeItemOutcome) : List TranscribeItemOutcome := outcomes.insertionSort NotBehind

def duplicateOutcomes (outcomes : List TranscribeItemOutcome) (duplicateIndices : List (Nat × Nat)) :
    List TranscribeItemOutcome :=
  duplicateIndices.filterMap fun p => (outcomes.find? (·.index = p.2)).map (duplicateOutcomeFrom · p.1)

def expandDuplicateOutcomes (outcomes : List TranscribeItemOutcome) (duplicateIndices : List (Nat × Nat)) :
    List TranscribeItemOutcome :=
  if duplicateIndices = [] then sortByIndex outcomes
  else sortByIndex (outcomes ++ duplicateOutcomes outcomes duplicateIndices)

end Deduplication

section Split
variable {files : Files} {seen : AudioSourceDedupKey → Option Nat} {before inputs : List TranscribeInput}

def canonicalOf (files : Files) (inputs : List TranscribeInput) (input : TranscribeInput) : TranscribeInput :=
  match audioSourceDedupKey files input.source with
  | none => input
  | some key => (inputs.find? fun other => audioSourceDedupKey files other.source = some key).getD input

def Seen (files : Files) (before : List TranscribeInput) (seen : AudioSourceDedupKey → Option Nat) : Prop :=
  ∀ key, seen key = (before.find? fun other => audioSourceDedupKey files other.source = some key).map TranscribeInput.index

theorem seenOther {input : TranscribeInput} (known : Seen files before seen)
    (other : ∀ key, audioSourceDedupKey files input.source = some key → seen key ≠ none) :
    Seen files (before ++ [input]) seen := by
  intro key
  rw [known key,List.find?_append]
  cases found : before.find? fun other => audioSourceDedupKey files other.source = some key with
  | some first => rfl
  | none =>
    have fresh := known key
    rw [found] at fresh
    have apart : audioSourceDedupKey files input.source ≠ some key := fun same => other key same fresh
    simp [apart]

theorem seenFirst {input : TranscribeInput} {key : AudioSourceDedupKey} (known : Seen files before seen)
    (keyed : audioSourceDedupKey files input.source = some key) (fresh : seen key = none) :
    Seen files (before ++ [input]) (Function.update seen key (some input.index)) := by
  intro other
  rw [Function.update_apply,List.find?_append]
  have unseen := known key
  rw [fresh,eq_comm,Option.map_eq_none_iff] at unseen
  split
  · next same =>
    subst same
    rw [unseen]
    simp [keyed]
  · next apart =>
    rw [known other]
    cases found : before.find? fun input => audioSourceDedupKey files input.source = some other with
    | some first => rfl
    | none => simp [keyed,Ne.symm apart]

structure Split (files : Files) (before inputs : List TranscribeInput) (seen : AudioSourceDedupKey → Option Nat)
    (split : DeduplicatedTranscribeInputs) : Prop where
  indices : (split.uniqueInputs.map TranscribeInput.index ++ split.duplicateIndices.map Prod.fst).Perm
    (inputs.map TranscribeInput.index)
  each : ∀ input ∈ inputs, input ∈ split.uniqueInputs ∧ canonicalOf files (before ++ inputs) input = input ∨
    (input.index,(canonicalOf files (before ++ inputs) input).index) ∈ split.duplicateIndices
  kept : ∀ p ∈ split.duplicateIndices, (∃ key, seen key = some p.2) ∨ p.2 ∈ split.uniqueInputs.map TranscribeInput.index
  keyless : ∀ input ∈ inputs, audioSourceDedupKey files input.source = none → input ∈ split.uniqueInputs

theorem splitKept {input : TranscribeInput} {seen' : AudioSourceDedupKey → Option Nat} {split : DeduplicatedTranscribeInputs}
    (rest : Split files (before ++ [input]) inputs seen' split)
    (own : canonicalOf files (before ++ input::inputs) input = input)
    (grown : ∀ key c, seen' key = some c → seen key = some c ∨ c = input.index) :
    Split files before (input::inputs) seen {split with uniqueInputs := input::split.uniqueInputs} where
  indices := rest.indices.cons input.index
  each other inside := by
    rcases List.mem_cons.mp inside with rfl | later
    · exact .inl ⟨List.mem_cons_self,own⟩
    · have there := rest.each other later
      rw [List.append_assoc,List.singleton_append] at there
      exact there.imp_left fun first => ⟨List.mem_cons_of_mem _ first.1,first.2⟩
  kept p inside := by
    rcases rest.kept p inside with ⟨key,found⟩ | later
    · rcases grown key p.2 found with earlier | same
      · exact .inl ⟨key,earlier⟩
      · exact .inr (same ▸ List.mem_cons_self)
    · exact .inr (List.mem_cons_of_mem _ later)
  keyless other inside none_ := by
    rcases List.mem_cons.mp inside with rfl | later
    · exact List.mem_cons_self
    · exact List.mem_cons_of_mem _ (rest.keyless other later none_)

theorem splitDuplicate {input first : TranscribeInput} {key : AudioSourceDedupKey} {split : DeduplicatedTranscribeInputs}
    (rest : Split files (before ++ [input]) inputs seen split) (keyed : audioSourceDedupKey files input.source = some key)
    (found : seen key = some first.index) (own : canonicalOf files (before ++ input::inputs) input = first) :
    Split files before (input::inputs) seen
      {split with duplicateIndices := (input.index,first.index)::split.duplicateIndices} where
  indices := List.perm_middle.trans (rest.indices.cons input.index)
  each other inside := by
    rcases List.mem_cons.mp inside with rfl | later
    · rw [own]
      exact .inr List.mem_cons_self
    · have there := rest.each other later
      rw [List.append_assoc,List.singleton_append] at there
      exact there.imp_right (List.mem_cons_of_mem _)
  kept p inside := by
    rcases List.mem_cons.mp inside with rfl | later
    · exact .inl ⟨key,found⟩
    · exact rest.kept p later
  keyless other inside none_ := by
    rcases List.mem_cons.mp inside with rfl | later
    · rw [keyed] at none_
      cases none_
    · exact rest.keyless other later none_

theorem splitOf (known : Seen files before seen) : Split files before inputs seen (deduplicateFrom files seen inputs) := by
  induction inputs generalizing before seen with
  | nil => exact ⟨.refl _,fun _ inside => (by cases inside),fun _ inside => (by cases inside),fun _ inside => (by cases inside)⟩
  | cons input inputs ih =>
    unfold deduplicateFrom
    split
    · next key keyed =>
      have canonical : canonicalOf files (before ++ input::inputs) input =
          ((before ++ input::inputs).find? fun other => audioSourceDedupKey files other.source = some key).getD input := by
        rw [canonicalOf,keyed]
      have here := known key
      split
      · next canonicalIndex found =>
        rw [found,eq_comm,Option.map_eq_some_iff] at here
        obtain ⟨first,there,rfl⟩ := here
        have same : ∀ other, audioSourceDedupKey files input.source = some other → seen other ≠ none := by
          intro other keyed' fresh
          rw [keyed] at keyed'
          cases keyed'
          rw [found] at fresh
          cases fresh
        rw [List.find?_append,there] at canonical
        exact splitDuplicate (ih (seenOther known same)) keyed found canonical
      · next fresh =>
        rw [fresh,eq_comm,Option.map_eq_none_iff] at here
        rw [List.find?_append,here,List.find?_cons_of_pos (by simpa using keyed)] at canonical
        refine splitKept (ih (seenFirst known keyed fresh)) canonical fun other c found => ?_
        rw [Function.update_apply] at found
        split at found
        · exact .inr (Option.some.inj found).symm
        · exact .inl found
    · next keyless =>
      have own : canonicalOf files (before ++ input::inputs) input = input := by rw [canonicalOf,keyless]
      have apart : ∀ key, audioSourceDedupKey files input.source = some key → seen key ≠ none := by
        intro key keyed
        rw [keyless] at keyed
        cases keyed
      exact splitKept (ih (seenOther known apart)) own fun _ _ found => .inl found

end Split

section Expansion
variable {files : Files} {outcomes : List TranscribeItemOutcome} {duplicates : List (Nat × Nat)}

theorem expandAll : expandDuplicateOutcomes outcomes duplicates = sortByIndex (outcomes ++ duplicateOutcomes outcomes duplicates) := by
  unfold expandDuplicateOutcomes
  split
  · next none =>
    subst none
    rw [duplicateOutcomes,List.filterMap_nil,List.append_nil]
  · rfl

theorem duplicateFound {p : Nat × Nat} (there : p.2 ∈ outcomes.map TranscribeItemOutcome.index) :
    ∃ canonical ∈ outcomes, canonical.index = p.2 ∧ outcomes.find? (·.index = p.2) = some canonical := by
  obtain ⟨outcome,inside,same⟩ := List.mem_map.mp there
  have found : (outcomes.find? (·.index = p.2)).isSome := List.find?_isSome.mpr ⟨outcome,inside,decide_eq_true same⟩
  obtain ⟨canonical,found⟩ := Option.isSome_iff_exists.mp found
  exact ⟨canonical,List.mem_of_find?_eq_some found,of_decide_eq_true (List.find?_some found :),found⟩

theorem duplicateIndexes (there : ∀ p ∈ duplicates, p.2 ∈ outcomes.map TranscribeItemOutcome.index) :
    (duplicateOutcomes outcomes duplicates).map TranscribeItemOutcome.index = duplicates.map Prod.fst := by
  induction duplicates with
  | nil => rfl
  | cons p duplicates ih =>
    obtain ⟨first,rest⟩ := List.forall_mem_cons.mp there
    obtain ⟨canonical,_,_,found⟩ := duplicateFound first
    have later := ih rest
    unfold duplicateOutcomes at later ⊢
    rw [List.filterMap_cons,found,Option.map_some,List.map_cons,later,List.map_cons]
    rfl

instance : IsTrans TranscribeItemOutcome NotBehind where
  trans _ _ _ := Nat.le_trans

instance : Std.Total NotBehind where
  total a b := Nat.le_total a.index b.index

theorem sortedStrictly (distinct : (outcomes.map TranscribeItemOutcome.index).Nodup) :
    (sortByIndex outcomes).Pairwise fun a b => a.index < b.index := by
  have sorted := List.pairwise_insertionSort NotBehind outcomes
  have perm := List.perm_insertionSort NotBehind outcomes
  have apart : (outcomes.insertionSort NotBehind).Pairwise fun a b => a.index ≠ b.index :=
    List.pairwise_map.mp ((perm.map TranscribeItemOutcome.index).nodup_iff.mpr distinct)
  exact (sorted.and apart).imp fun both => Nat.lt_of_le_of_ne both.1 both.2

theorem splitWhole (files : Files) (inputs : List TranscribeInput) :
    Split files [] inputs (fun _ => none) (deduplicateTranscribeInputs files inputs) := splitOf fun _ => rfl

theorem expandedPerm : (expandDuplicateOutcomes outcomes duplicates).Perm (outcomes ++ duplicateOutcomes outcomes duplicates) := by
  rw [expandAll]
  exact List.perm_insertionSort NotBehind _

theorem duplicatesThere {inputs : List TranscribeInput}
    (answered : ∀ i ∈ (deduplicateTranscribeInputs files inputs).uniqueInputs.map TranscribeInput.index,
      i ∈ outcomes.map TranscribeItemOutcome.index) :
    ∀ p ∈ (deduplicateTranscribeInputs files inputs).duplicateIndices, p.2 ∈ outcomes.map TranscribeItemOutcome.index := by
  intro p inside
  rcases (splitWhole files inputs).kept p inside with ⟨_,absent⟩ | kept
  · cases absent
  · exact answered p.2 kept

theorem expandedIndices {inputs : List TranscribeInput} (answered : (outcomes.map TranscribeItemOutcome.index).Perm
      ((deduplicateTranscribeInputs files inputs).uniqueInputs.map TranscribeInput.index)) :
    ((outcomes ++ duplicateOutcomes outcomes (deduplicateTranscribeInputs files inputs).duplicateIndices).map
      TranscribeItemOutcome.index).Perm (inputs.map TranscribeInput.index) := by
  rw [List.map_append,duplicateIndexes (duplicatesThere fun i inside => answered.mem_iff.mpr inside)]
  exact (answered.append_right _).trans (splitWhole files inputs).indices

end Expansion

end Qwen3Asr.InputDedup
