import Mathlib.Data.List.Sort
import Mathlib.Logic.Function.Basic
import Qwen3Asr.AsrOutput
import Qwen3Asr.TranscribeServer
import Qwen3Asr.Library.Effect

/-! The command that transcribes a file or a directory of files. File names are bytes that need not
be text; a path is the list of its components. Files are written as the system is asked to. -/
namespace Qwen3Asr.RunTranscribe
open Library.Effect MediaData AsrOutput
open TranscribeServer (TranscribeItemOutcome InferenceData fromTimeline errorData)

abbrev OsString := List UInt8
abbrev Path := List OsString

section Names

def toStr (name : OsString) : Option String := String.fromUTF8? ⟨name.toArray⟩

def osString (text : String) : OsString := text.toByteArray.data.toList

def DOT : UInt8 := 46

def rsplitFileAtDot (name : OsString) : Option OsString × Option OsString :=
  if name = [DOT,DOT] then (some name,none) else
    match (name.splitOn DOT).reverse with
    | [] | [_] => (some name,none)
    | behind::before =>
      let before := [DOT].intercalate before.reverse
      if before = [] then (some name,none) else (some before,some behind)

def fileStem (path : Path) : Option OsString := path.getLast?.bind fun name => (rsplitFileAtDot name).1

def extension (path : Path) : Option OsString := path.getLast?.bind fun name => (rsplitFileAtDot name).2

def AUDIO_EXTENSIONS : List String := ["wav","mp3","flac","ogg","m4a","aac","opus","webm"]

def isAudioFile (path : Path) : Bool := match (extension path).bind toStr with
  | some ext => String.ofList (toAsciiLowercase ext.toList) ∈ AUDIO_EXTENSIONS
  | none => false

end Names

section Collect

inductive DirEntries where
  | nil
  | file (name : OsString) (rest : DirEntries)
  | dir (name : OsString) (entries rest : DirEntries)
  deriving DecidableEq, Repr

def DirEntries.names : DirEntries → List OsString
  | nil => []
  | file name rest => name::rest.names
  | dir name _ rest => name::rest.names

def DirEntries.Distinct : DirEntries → Prop
  | nil => True
  | file name rest => name ∉ rest.names ∧ rest.Distinct
  | dir name entries rest => name ∉ rest.names ∧ entries.Distinct ∧ rest.Distinct

/- No directory lists a name twice. -/
structure Directory where
  entries : DirEntries
  distinct : entries.Distinct

inductive InputNode where
  | missing
  | special
  | file
  | dir (directory : Directory)

def collectAudioInDir (recursive : Bool) (dir : Path) : DirEntries → List Path
  | .nil => []
  | .file name rest =>
    (if isAudioFile (dir ++ [name]) then [dir ++ [name]] else []) ++ collectAudioInDir recursive dir rest
  | .dir name entries rest =>
    (if recursive then collectAudioInDir true (dir ++ [name]) entries else []) ++ collectAudioInDir recursive dir rest

def collectAudioInputs (display : Path → String) (node : InputNode) (input : Path) (recursive : Bool) :
    Except String (List Path) := match node with
  | .file =>
    if isAudioFile input then .ok [input] else .error ("unsupported audio file extension: " ++ display input)
  | .dir directory => .ok ((collectAudioInDir recursive input directory.entries).insertionSort (· ≤ ·))
  | _ => .error ("input path is not a file or directory: " ++ display input)

end Collect

section Output

def isJson (output : Path) : Bool := extension output = some (osString "json")

def validateOutputTarget (display : Path → String) (output : Path) (multipleInputs : Bool) : Except String Unit :=
  if multipleInputs && isJson output then
    .error ("when transcribing multiple files, --output must be a directory, not `" ++ display output ++ "`")
  else .ok ()

def resolveOutputJsonPath (display : Path → String) (output audio : Path) (multipleInputs : Bool) : Except String Path :=
  if !multipleInputs && isJson output then .ok output else
    match (fileStem audio).bind toStr with
    | some stem => .ok (output ++ [osString (stem ++ ".transcribe.json")])
    | none => .error ("invalid audio file name: " ++ display audio)

/- Of the performance figures only the number of items: the others are wall-clock seconds of the batch, seconds of
audio as a float, and quotients of the two, which no decision about a file reads. -/
structure TranscribeResponse where
  data : List InferenceData
  numItems : Nat
  deriving DecidableEq, Repr

def transcribeResponseForOutcome (display : Path → String) (path : Path) (outcome : TranscribeItemOutcome)
    (batchSize : Nat) : TranscribeResponse where
  data := [match outcome.result with
    | .ok timeline => fromTimeline (display path) timeline
    | .error error => {errorData (outcome.badComponent.getD "recognizer") error with serviceId := display path}]
  numItems := batchSize

end Output

section Run

structure PathInput where
  index : Nat
  path : Path
  deriving DecidableEq, Repr

abbrev TranscribeMany := List PathInput → List TranscribeItemOutcome

structure RunTranscribeArgs where
  input : Path
  output : Path
  recursive : Bool
  limit : Option Nat

structure Surroundings where
  display : Path → String
  node : InputNode
  validatePipeline : Except String Unit
  buildPipeline : Except String TranscribeMany

abbrev Files := Path → Option TranscribeResponse

def isMissing : InputNode → Bool
  | .missing => true
  | _ => false

def isDir : InputNode → Bool
  | .dir _ => true
  | _ => false

def writeOutcomes (display : Path → String) (output : Path) (multipleInputs : Bool) (batchSize : Nat) :
    List (Path × TranscribeItemOutcome) → EStateM String Files Nat
  | [] => return 0
  | (path,outcome)::rest => do
    let outputPath ← attempt (resolveOutputJsonPath display output path multipleInputs)
    let response := transcribeResponseForOutcome display path outcome batchSize
    modify fun files => Function.update files outputPath (some response)
    let bad ← writeOutcomes display output multipleInputs batchSize rest
    return bad + if (response.data.head?.any (·.isBad)) then 1 else 0

def inputFiles (surroundings : Surroundings) (args : RunTranscribeArgs) : Except String (List Path) :=
  if isMissing surroundings.node then .error ("input path does not exist: " ++ surroundings.display args.input) else do
    let files ← collectAudioInputs surroundings.display surroundings.node args.input args.recursive
    if files = [] then throw ("no audio files found under " ++ surroundings.display args.input)
    else return match args.limit with
      | some limit => files.take limit
      | none => files

def multipleInputs (surroundings : Surroundings) (files : List Path) : Bool :=
  decide (files.length > 1) || isDir surroundings.node

def runLocal (surroundings : Surroundings) (args : RunTranscribeArgs) : EStateM String Files Unit := do
  attempt surroundings.validatePipeline
  let files ← attempt (inputFiles surroundings args)
  let multiple := multipleInputs surroundings files
  attempt (validateOutputTarget surroundings.display args.output multiple)
  let transcribeMany ← attempt surroundings.buildPipeline
  let outcomes := transcribeMany (files.mapIdx fun index path => ⟨index,path⟩)
  let badCount ← writeOutcomes surroundings.display args.output multiple files.length (files.zip outcomes)
  if badCount > 0 then
    throw (toString badCount ++ " of " ++ toString files.length ++ " transcription(s) failed")

end Run
end Qwen3Asr.RunTranscribe
