import Mathlib.Data.Char
import Mathlib.Data.List.Lex
import Mathlib.Data.List.Sort
import Qwen3Asr.AsrOutput

/-! Which linear layers a quantization request leaves alone. The request names a type, and modules to
skip; both are read from the same string, by two parsers with separators of their own. -/
namespace Qwen3Asr.IsqLinear
open AsrOutput

section Dtypes

inductive GgmlDType where
  | q4_0 | q4_1 | q5_0 | q5_1 | q8_0 | q2K | q3K | q4K | q5K | q6K
  deriving DecidableEq, Repr

inductive AfqBits where
  | two | three | four | six | eight
  deriving DecidableEq, Repr

inductive IsqBits where
  | two | three | four | five | six | eight
  deriving DecidableEq, Repr

inductive ResolvedIsq where
  | ggml (dtype : GgmlDType)
  | afq (bits : AfqBits)
  | afqFallback (requested : String) (fallback : GgmlDType)
  deriving DecidableEq, Repr

/- The features of the build, the device, the environment, and how a string is printed in an error. -/
structure Build where
  pagedAttn : Bool
  metal : Bool
  deviceIsMetal : Bool
  disableMetalIsq : Bool
  debug : String → String

def AfqBits.dtype : AfqBits → GgmlDType
  | .two => .q2K
  | .three => .q3K
  | .four => .q4K
  | .six => .q6K
  | .eight => .q8_0

def ResolvedIsq.dtype : ResolvedIsq → GgmlDType
  | .ggml dtype => dtype
  | .afq bits => bits.dtype
  | .afqFallback _ fallback => fallback

/- Without paged attention there are no layers of this kind. -/
def afqOrFallback (build : Build) (requested : String) (bits : AfqBits) : ResolvedIsq :=
  if build.pagedAttn then .afq bits else .afqFallback requested bits.dtype

def IsqBits.resolve (build : Build) : IsqBits → ResolvedIsq
  | .two => if build.deviceIsMetal then afqOrFallback build "afq2" .two else .ggml .q2K
  | .three => if build.deviceIsMetal then afqOrFallback build "afq3" .three else .ggml .q3K
  | .four => if build.deviceIsMetal then afqOrFallback build "afq4" .four else .ggml .q4K
  | .five => .ggml .q5K
  | .six => if build.deviceIsMetal then afqOrFallback build "afq6" .six else .ggml .q6K
  | .eight => if build.deviceIsMetal then afqOrFallback build "afq8" .eight else .ggml .q8_0

def ISQ_BITS : List (List String × IsqBits) := [
  (["2","auto2","auto_2","auto-2"],.two),
  (["3","auto3","auto_3","auto-3"],.three),
  (["4","auto4","auto_4","auto-4"],.four),
  (["5","auto5","auto_5","auto-5"],.five),
  (["6","auto6","auto_6","auto-6"],.six),
  (["8","auto","auto8","auto_8","auto-8"],.eight)]

def GGML_DTYPES : List (List String × GgmlDType) := [
  (["q40","q4_0"],.q4_0),
  (["q4","q41","q4_1"],.q4_1),
  (["q50","q5_0"],.q5_0),
  (["q5","q51","q5_1"],.q5_1),
  (["q8","q80","q8_0"],.q8_0),
  (["q2k","q2_k"],.q2K),
  (["q3k","q3_k"],.q3K),
  (["q4k","q4_k"],.q4K),
  (["q5k","q5_k"],.q5K),
  (["q6k","q6_k"],.q6K)]

def AFQ_BITS : List (List String × AfqBits) := [
  (["afq2"],.two),(["afq3"],.three),(["afq4"],.four),(["afq6"],.six),(["afq8"],.eight)]

def lookup {α : Type} (table : List (List String × α)) (name : String) : Option α :=
  (table.find? fun entry => name ∈ entry.1).map Prod.snd

def trim (text : List Char) : List Char := (MediaData.trim (String.ofList text)).toList

def resolveIsqDtype (build : Build) (value : List Char) : Except String ResolvedIsq :=
  let pieces := value.splitOnP fun c => c ∈ [';',':',',']
  let dtype := String.ofList (toAsciiLowercase (trim (pieces.headD value)))
  match lookup ISQ_BITS dtype with
  | some bits => .ok (bits.resolve build)
  | none => match lookup GGML_DTYPES dtype with
    | some dtype => .ok (.ggml dtype)
    | none => match lookup AFQ_BITS dtype with
      | some bits => .ok (afqOrFallback build dtype bits)
      | none => .error ("unsupported isq dtype " ++ build.debug dtype ++
          "; use auto/auto8/auto6/auto4/8/6/4/q8_0/q6_k/q5_k/q4_k/q3_k/q2_k")

end Dtypes

section Skipping

structure IsqSpec where
  dtype : Option GgmlDType
  afq : Option AfqBits
  disableQuantization : Bool
  modulesToNotConvert : List (List Char)
  deriving DecidableEq, Repr

def SKIP_KEYS : List (List Char) := ["skip".toList,"skip_modules".toList,"modules_to_not_convert".toList]

def splitSkipValues (values : List Char) : List (List Char) :=
  ((values.splitOnP fun c => c ∈ ['|','+',',']).map trim).filter (· ≠ [])

/- A part without a key goes on with the values of the part before it, if those were to be skipped. -/
def skipValues (readingSkipValues : Bool) : List (List Char) → List (List Char)
  | [] => []
  | part::parts =>
    let part := trim part
    if readingSkipValues = true ∧ '=' ∉ part then splitSkipValues part ++ skipValues true parts
    else match splitOnce ['='] part with
      | none => skipValues false parts
      | some (key,values) =>
        if toAsciiLowercase (trim key) ∈ SKIP_KEYS then splitSkipValues values ++ skipValues true parts
        else skipValues false parts

def dedup : List (List Char) → List (List Char)
  | first::second::rest => if first = second then dedup (second::rest) else first::dedup (second::rest)
  | items => items

def parseIsqSpec (build : Build) (value : List Char) : Except String IsqSpec := do
  let resolved ← resolveIsqDtype build value
  return {
    dtype := match resolved with
      | .afq _ => none
      | resolved => some resolved.dtype
    afq := match resolved with
      | .afq bits => some bits
      | _ => none
    disableQuantization := build.metal && build.deviceIsMetal && build.disableMetalIsq
    modulesToNotConvert := dedup ((skipValues false (value.splitOnP fun c => c ∈ [';',','])).insertionSort (· ≤ ·))}

def trimEndMatchesFrom (tag : List Char) : Nat → List Char → List Char
  | 0, text => text
  | n+1, text => if tag <:+ text then trimEndMatchesFrom tag n (text.take (text.length-tag.length)) else text

def trimEndMatches (tag text : List Char) : List Char := trimEndMatchesFrom tag text.length text

def withoutWeight (path : List Char) : List Char := trimEndMatches ".weight".toList path

def modulePathMatchesNotConvert (modulePath item : List Char) : Bool :=
  let modulePath := withoutWeight modulePath
  let item := withoutWeight (trim item)
  item ≠ [] ∧ (modulePath = item ∨ item <:+ modulePath ∨ '.'::item <:+ modulePath ∨ modulePath <:+ item ∨
    '.'::modulePath <:+ item)

def shouldSkipModule (modulePath : List Char) (modulesToNotConvert : List (List Char)) : Bool :=
  if modulePath = [] then false else modulesToNotConvert.any (modulePathMatchesNotConvert modulePath)

inductive LinearX where
  | linear
  | qLinear (dtype : GgmlDType)
  | afqLinear (bits : AfqBits)
  deriving DecidableEq, Repr

/- What becomes of a layer; `quantize` is what happens to one that is not left alone. -/
def newWithModulePath (build : Build) (quantize : IsqSpec → Except String LinearX) (isq : Option (List Char))
    (modulePath : List Char) : Except String LinearX := match isq with
  | none => .ok .linear
  | some isq => do
    let spec ← parseIsqSpec build isq
    if shouldSkipModule modulePath spec.modulesToNotConvert then return .linear
    else if spec.disableQuantization then return .linear
    else quantize spec

end Skipping
end Qwen3Asr.IsqLinear
