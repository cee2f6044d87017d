import Qwen3Asr.RunTranscribe

/-! Where the transcripts of a run go. The name of an output comes from the stem of its audio file
alone, so that files with one stem, of another type or in another directory, share one output. -/
namespace Qwen3Asr.OutputPaths
open Library.Effect
open TranscribeServer (TranscribeItemOutcome)
open RunTranscribe

section Collected
variable {recursive : Bool} {dir : Path} {entries : DirEntries}

theorem collectedBelow {path : Path} (found : path ∈ collectAudioInDir recursive dir entries) :
    ∃ name ∈ entries.names, dir ++ [name] <+: path := by
  induction entries generalizing recursive dir with
  | nil => cases found
  | file name rest ih =>
    rcases List.mem_append.mp found with here | later
    · split at here
      · rw [List.mem_singleton.mp here]
        exact ⟨name,List.mem_cons_self,List.prefix_refl _⟩
      · cases here
    · obtain ⟨other,inside,below⟩ := ih later
      exact ⟨other,List.mem_cons_of_mem name inside,below⟩
  | dir name entries rest inner ih =>
    rcases List.mem_append.mp found with here | later
    · split at here
      · obtain ⟨_,_,below⟩ := inner here
        exact ⟨name,List.mem_cons_self,(List.prefix_append _ _).trans below⟩
      · cases here
    · obtain ⟨other,inside,below⟩ := ih later
      exact ⟨other,List.mem_cons_of_mem name inside,below⟩

theorem sameEntry {path : Path} {first second : OsString} (below : dir ++ [first] <+: path)
    (below' : dir ++ [second] <+: path) : first = second := by
  have lengths : (dir ++ [first]).length ≤ (dir ++ [second]).length := by
    rw [List.length_append,List.length_append,List.length_singleton,List.length_singleton]
  have within := List.prefix_of_prefix_length_le below below' lengths
  have same := (List.prefix_append_right_inj dir).mp within
  exact (List.cons_prefix_cons.mp same).1

theorem apartBelow {rest : DirEntries} {name : OsString} (fresh : name ∉ rest.names) {found : List Path}
    (below : ∀ path ∈ found, dir ++ [name] <+: path) : found.Disjoint (collectAudioInDir recursive dir rest) := by
  intro path here later
  obtain ⟨other,inside,below'⟩ := collectedBelow later
  exact fresh (sameEntry (below path here) below' ▸ inside)

theorem collectedNodup (distinct : entries.Distinct) : (collectAudioInDir recursive dir entries).Nodup := by
  induction entries generalizing recursive dir with
  | nil => exact List.nodup_nil
  | file name rest ih =>
    obtain ⟨fresh,distinct⟩ := distinct
    refine List.nodup_append'.mpr ⟨?_,ih distinct,apartBelow fresh fun path here => ?_⟩
    · split
      · exact List.nodup_singleton _
      · exact List.nodup_nil
    · split at here
      · exact List.mem_singleton.mp here ▸ List.prefix_refl _
      · cases here
  | dir name entries rest inner ih =>
    obtain ⟨fresh,within,distinct⟩ := distinct
    refine List.nodup_append'.mpr ⟨?_,ih distinct,apartBelow fresh fun path here => ?_⟩
    · split
      · exact inner within
      · exact List.nodup_nil
    · split at here
      · obtain ⟨_,_,below⟩ := collectedBelow here
        exact (List.prefix_append _ _).trans below
      · cases here

theorem inputsCollected {surroundings : Surroundings} {args : RunTranscribeArgs} {files : List Path}
    (found : inputFiles surroundings args = .ok files) : ∃ collected,
      collectAudioInputs surroundings.display surroundings.node args.input args.recursive = .ok collected ∧
      files <+: collected := by
  unfold inputFiles at found
  split at found
  · cases found
  · obtain ⟨collected,listed,found⟩ := exceptBind.mp found
    split at found
    · cases found
    · refine ⟨collected,listed,?_⟩
      cases Except.ok.inj found
      split
      · exact List.take_prefix _ _
      · exact List.prefix_refl _

theorem inputsNodup {surroundings : Surroundings} {args : RunTranscribeArgs} {files : List Path}
    (found : inputFiles surroundings args = .ok files) :
    files.Nodup ∧ (isDir surroundings.node = false → files.length ≤ 1) := by
  obtain ⟨collected,listed,within⟩ := inputsCollected found
  unfold collectAudioInputs at listed
  split at listed
  next =>
    split at listed
    next =>
      cases Except.ok.inj listed
      exact ⟨(List.nodup_singleton _).sublist within.sublist,fun _ => within.length_le⟩
    next => cases listed
  next directory node =>
    cases Except.ok.inj listed
    have unsorted : (collectAudioInDir args.recursive args.input directory.entries).Nodup := collectedNodup directory.distinct
    refine ⟨((List.perm_insertionSort _ _).nodup_iff.mpr unsorted).sublist within.sublist,fun single => ?_⟩
    rw [node] at single
    cases single
  next => cases listed

end Collected

section Targets
variable {display : Path → String} {output path path' target : Path} {multiple : Bool}

theorem osStringAppend (text more : String) : osString (text ++ more) = osString text ++ osString more := by
  simp [osString]

def stem (path : Path) : Option String := (fileStem path).bind toStr

/- The output itself is the target of a single file, if it is a file's name. -/
def Explicit (output : Path) (multiple : Bool) : Prop := multiple = false ∧ isJson output = true

theorem resolveExplicit (explicit : Explicit output multiple) :
    resolveOutputJsonPath display output path multiple = .ok output := by
  obtain ⟨rfl,json⟩ := explicit
  unfold resolveOutputJsonPath
  rw [json]
  rfl

theorem resolveJoined (joined : ¬Explicit output multiple) : resolveOutputJsonPath display output path multiple = .ok target ↔
    ∃ text, stem path = some text ∧ target = output ++ [osString (text ++ ".transcribe.json")] := by
  have other : (!multiple && isJson output) = false := by
    refine eq_false_of_ne_true fun both => joined ?_
    unfold Explicit
    simpa using both
  unfold resolveOutputJsonPath stem
  rw [other]
  cases (fileStem path).bind toStr with
  | none => exact iff_of_false (fun ok => by cases ok) fun ⟨_,none_,_⟩ => by cases none_
  | some text =>
    constructor
    · intro ok
      exact ⟨text,rfl,(Except.ok.inj ok).symm⟩
    · rintro ⟨_,same,rfl⟩
      cases same
      rfl

theorem sameStem (joined : ¬Explicit output multiple) (resolved : resolveOutputJsonPath display output path multiple = .ok target)
    (resolved' : resolveOutputJsonPath display output path' multiple = .ok target) : stem path = stem path' := by
  obtain ⟨text,named,rfl⟩ := (resolveJoined joined).mp resolved
  obtain ⟨text',named',same⟩ := (resolveJoined joined).mp resolved'
  have bytes := List.singleton_inj.mp (List.append_cancel_left same)
  rw [osStringAppend,osStringAppend] at bytes
  have texts : text = text' := by
    have data := List.append_cancel_right bytes
    exact String.toByteArray_inj.mp (ByteArray.ext (Array.toList_inj.mp data))
  rw [named,named',texts]

end Targets

section Written
variable {display : Path → String} {output : Path} {multiple : Bool} {batchSize : Nat}

structure Written (display : Path → String) (output : Path) (multiple : Bool) (batchSize : Nat)
    (pairs : List (Path × TranscribeItemOutcome)) (before after : Files) : Prop where
  others : ∀ target, (∀ pair ∈ pairs, resolveOutputJsonPath display output pair.1 multiple ≠ .ok target) → after target = before target
  own : ∀ pair ∈ pairs, ∀ target, resolveOutputJsonPath display output pair.1 multiple = .ok target →
    after target = some (transcribeResponseForOutcome display pair.1 pair.2 batchSize)

theorem writtenApart {pairs : List (Path × TranscribeItemOutcome)} {before : Files} (once : (pairs.map Prod.fst).Nodup)
    (resolves : ∀ pair ∈ pairs, ∃ target, resolveOutputJsonPath display output pair.1 multiple = .ok target)
    (apart : ∀ first ∈ pairs, ∀ second ∈ pairs, ∀ target, resolveOutputJsonPath display output first.1 multiple = .ok target →
      resolveOutputJsonPath display output second.1 multiple = .ok target → first.1 = second.1) :
    ∃ bad after, writeOutcomes display output multiple batchSize pairs before = .ok bad after ∧
      Written display output multiple batchSize pairs before after := by
  induction pairs generalizing before with
  | nil => exact ⟨0,before,rfl,fun _ _ => rfl,fun _ inside => by cases inside⟩
  | cons pair pairs ih =>
    obtain ⟨path,outcome⟩ := pair
    obtain ⟨fresh,once⟩ := List.nodup_cons.mp once
    obtain ⟨⟨target,resolved⟩,others⟩ := List.forall_mem_cons.mp resolves
    obtain ⟨bad,after,ran,written⟩ := @ih (Function.update before target
        (some (transcribeResponseForOutcome display path outcome batchSize))) once others fun first inside second within =>
      apart first (List.mem_cons_of_mem _ inside) second (List.mem_cons_of_mem _ within)
    have kept : ∀ pair ∈ pairs, resolveOutputJsonPath display output pair.1 multiple ≠ .ok target := by
      intro pair inside same
      have path := apart (path,outcome) List.mem_cons_self pair (List.mem_cons_of_mem _ inside) target resolved same
      exact fresh (List.mem_map.mpr ⟨pair,inside,path.symm⟩)
    have loop : ∃ bad, writeOutcomes display output multiple batchSize ((path,outcome)::pairs) before = .ok bad after := by
      unfold writeOutcomes
      rw [attemptThen resolved,bindThen (modifyRun _ _),bindThen ran]
      exact ⟨_,rfl⟩
    obtain ⟨count,loop⟩ := loop
    refine ⟨count,after,loop,fun other absent => ?_,fun pair inside other resolved' => ?_⟩
    · obtain ⟨here,later⟩ := List.forall_mem_cons.mp absent
      rw [written.others other later,Function.update_of_ne]
      rintro rfl
      exact here resolved
    · rcases List.mem_cons.mp inside with rfl | later
      · cases Except.ok.inj (resolved.symm.trans resolved')
        rw [written.others target kept,Function.update_self]
      · exact written.own pair later other resolved'

end Written

section Runs

/- One file for each input, no two inputs the same one, and each holds the outcome of its input. -/
structure OverwritesNothing (display : Path → String) (output : Path) (multiple : Bool) (files : List Path)
    (outcomes : List TranscribeItemOutcome) (after : Files) : Prop where
  resolves : ∀ path ∈ files, ∃ target, resolveOutputJsonPath display output path multiple = .ok target
  distinct : ∀ path ∈ files, ∀ path' ∈ files, path ≠ path' → ∀ target,
    resolveOutputJsonPath display output path multiple = .ok target →
    resolveOutputJsonPath display output path' multiple ≠ .ok target
  holds : ∀ i path target, files[i]? = some path → resolveOutputJsonPath display output path multiple = .ok target →
    ∃ outcome ∈ outcomes, outcome.index = i ∧
      after target = some (transcribeResponseForOutcome display path outcome files.length)

/- Every file has a stem that is text, and no two files have the same one; a single output is named. -/
def StemsApart (output : Path) (multiple : Bool) (files : List Path) : Prop :=
  Explicit output multiple ∨ ((∀ path ∈ files, (stem path).isSome) ∧
    ∀ path ∈ files, ∀ path' ∈ files, path ≠ path' → stem path ≠ stem path')

theorem afterRun {surroundings : Surroundings} {args : RunTranscribeArgs} {transcribeMany : TranscribeMany}
    {files : List Path} {before : Files} (validated : surroundings.validatePipeline = .ok ())
    (found : inputFiles surroundings args = .ok files)
    (allowed : validateOutputTarget surroundings.display args.output (multipleInputs surroundings files) = .ok ())
    (built : surroundings.buildPipeline = .ok transcribeMany) :
    after (runLocal surroundings args before) =
      after (writeOutcomes surroundings.display args.output (multipleInputs surroundings files) files.length
        (files.zip (transcribeMany (files.mapIdx fun index path => ⟨index,path⟩))) before) := by
  unfold runLocal
  rw [attemptThen validated,attemptThen found]
  dsimp only
  rw [attemptThen allowed,attemptThen built,afterBind]
  cases writeOutcomes surroundings.display args.output (multipleInputs surroundings files) files.length
      (files.zip (transcribeMany (files.mapIdx fun index path => ⟨index,path⟩))) before with
  | error e t => rfl
  | ok bad t =>
    dsimp only
    split <;> rfl

/-- A run overwrites none of its transcripts exactly if no two of its files have one stem. -/
theorem overwritesNothingIff (surroundings : Surroundings) (args : RunTranscribeArgs) (transcribeMany : TranscribeMany)
    (files : List Path) (before : Files) (validated : surroundings.validatePipeline = .ok ())
    (built : surroundings.buildPipeline = .ok transcribeMany) (found : inputFiles surroundings args = .ok files)
    (allowed : validateOutputTarget surroundings.display args.output (multipleInputs surroundings files) = .ok ())
    (each : (transcribeMany (files.mapIdx fun index path => ⟨index,path⟩)).map TranscribeItemOutcome.index =
      List.range files.length) :
    OverwritesNothing surroundings.display args.output (multipleInputs surroundings files) files
        (transcribeMany (files.mapIdx fun index path => ⟨index,path⟩)) (after (runLocal surroundings args before)) ↔
      StemsApart args.output (multipleInputs surroundings files) files := by
  have ran : after (runLocal surroundings args before) = _ := afterRun validated found allowed built
  revert ran each
  generalize transcribeMany (files.mapIdx fun index path => ⟨index,path⟩) = outcomes
  intro each ran
  obtain ⟨once,single⟩ := inputsNodup found
  constructor
  · rintro ⟨resolves,distinct,_⟩
    by_cases explicit : Explicit args.output (multipleInputs surroundings files)
    · exact Or.inl explicit
    refine Or.inr ⟨fun path inside => ?_,fun path inside path' inside' apart same => ?_⟩
    · obtain ⟨target,resolved⟩ := resolves path inside
      obtain ⟨text,named,_⟩ := (resolveJoined explicit).mp resolved
      rw [named]
      rfl
    · obtain ⟨target,resolved⟩ := resolves path inside
      obtain ⟨text,named,joined⟩ := (resolveJoined explicit).mp resolved
      exact distinct path inside path' inside' apart target resolved
        ((resolveJoined explicit).mpr ⟨text,same ▸ named,joined⟩)
  · intro stems
    have resolves : ∀ path ∈ files, ∃ target,
        resolveOutputJsonPath surroundings.display args.output path (multipleInputs surroundings files) = .ok target := by
      intro path inside
      by_cases explicit : Explicit args.output (multipleInputs surroundings files)
      · exact ⟨args.output,resolveExplicit explicit⟩
      · obtain ⟨text,named⟩ := Option.isSome_iff_exists.mp ((stems.resolve_left explicit).1 path inside)
        exact ⟨_,(resolveJoined explicit).mpr ⟨text,named,rfl⟩⟩
    have apart : ∀ path ∈ files, ∀ path' ∈ files, ∀ target,
        resolveOutputJsonPath surroundings.display args.output path (multipleInputs surroundings files) = .ok target →
        resolveOutputJsonPath surroundings.display args.output path' (multipleInputs surroundings files) = .ok target →
        path = path' := by
      intro path inside path' inside' target resolved resolved'
      by_cases explicit : Explicit args.output (multipleInputs surroundings files)
      · have few : files.length ≤ 1 := single (Bool.or_eq_false_iff.mp explicit.1).2
        obtain ⟨i,bound,rfl⟩ := List.mem_iff_getElem.mp inside
        obtain ⟨j,bound',rfl⟩ := List.mem_iff_getElem.mp inside'
        congr 1
        omega
      · exact by_contra fun differ => (stems.resolve_left explicit).2 path inside path' inside' differ
          (sameStem explicit resolved resolved')
    have counted : outcomes.length = files.length := by
      have lengths := congrArg List.length each
      rwa [List.length_map,List.length_range] at lengths
    have paths : (files.zip outcomes).map Prod.fst = files := List.map_fst_zip counted.ge
    obtain ⟨bad,after,loop,written⟩ := @writtenApart surroundings.display args.output (multipleInputs surroundings files)
      files.length (files.zip outcomes) before (paths.symm ▸ once)
      (fun pair inside => resolves pair.1 (List.of_mem_zip inside).1)
      (fun first inside second inside' => apart first.1 (List.of_mem_zip inside).1 second.1 (List.of_mem_zip inside').1)
    rw [loop] at ran
    refine ⟨resolves,fun path inside path' inside' differ target resolved resolved' =>
      differ (apart path inside path' inside' target resolved resolved'),fun i path target here resolved => ?_⟩
    obtain ⟨bound,rfl⟩ := List.getElem?_eq_some_iff.mp here
    have inside : i < outcomes.length := counted.symm ▸ bound
    have pair : (files[i],outcomes[i]) ∈ files.zip outcomes := by
      refine List.mem_iff_getElem.mpr ⟨i,by rw [List.length_zip]; omega,?_⟩
      exact List.getElem_zip
    have index : outcomes[i].index = i := by
      have at_ := congrArg (fun l : List Nat => l[i]?) each
      simpa [inside,bound] using at_
    refine ⟨outcomes[i],List.getElem_mem inside,index,?_⟩
    rw [ran]
    exact written.own _ pair target resolved

def numbered : TranscribeMany := fun inputs => inputs.map fun input => ⟨input.index,.error (toString input.index),none⟩

def twoFiles (first second : String) (differ : osString first ≠ osString second) : Surroundings where
  display path := ((path.getLast?.bind toStr).getD "")
  node := .dir ⟨.file (osString first) (.file (osString second) .nil),
    fun same => differ (List.mem_singleton.mp same),List.not_mem_nil,trivial⟩
  validatePipeline := .ok ()
  buildPipeline := .ok numbered

def toOut : RunTranscribeArgs := ⟨[osString "in"],[osString "out"],false,none⟩

def wavAndMp3 : Surroundings := twoFiles "a.wav" "b.mp3" (by decide +kernel)

def bothFiles : List Path := [[osString "in",osString "a.wav"],[osString "in",osString "b.mp3"]]

theorem twoStemsKept : inputFiles wavAndMp3 toOut = .ok bothFiles ∧
    (OverwritesNothing wavAndMp3.display toOut.output (multipleInputs wavAndMp3 bothFiles) bothFiles
        (numbered (bothFiles.mapIdx fun index path => ⟨index,path⟩)) (after (runLocal wavAndMp3 toOut fun _ => none)) ↔
      StemsApart toOut.output (multipleInputs wavAndMp3 bothFiles) bothFiles) := by
  have found : inputFiles wavAndMp3 toOut = .ok bothFiles := by decide +kernel
  exact ⟨found,overwritesNothingIff wavAndMp3 toOut numbered bothFiles (fun _ => none) rfl rfl found (by decide +kernel)
    (by decide +kernel)⟩

/- `a.mp3` and `a.wav` are both transcribed to `a.transcribe.json`, where only the second is left. -/
theorem sameStemOverwritten :
    inputFiles (twoFiles "a.wav" "a.mp3" (by decide +kernel)) toOut =
      .ok [[osString "in",osString "a.mp3"],[osString "in",osString "a.wav"]] ∧
    (after (runLocal (twoFiles "a.wav" "a.mp3" (by decide +kernel)) toOut fun _ => none)
      [osString "out",osString "a.transcribe.json"]).map (fun response => response.data.map (·.serviceId)) =
        some ["a.wav"] ∧
    ¬OverwritesNothing (twoFiles "a.wav" "a.mp3" (by decide +kernel)).display toOut.output true
      [[osString "in",osString "a.mp3"],[osString "in",osString "a.wav"]] [⟨0,.error "0",none⟩,⟨1,.error "1",none⟩]
      (after (runLocal (twoFiles "a.wav" "a.mp3" (by decide +kernel)) toOut fun _ => none)) := by
  refine ⟨by decide +kernel,by decide +kernel,fun kept => ?_⟩
  exact kept.distinct [osString "in",osString "a.mp3"] List.mem_cons_self [osString "in",osString "a.wav"]
    (List.mem_cons_of_mem _ List.mem_cons_self) (by decide +kernel) [osString "out",osString "a.transcribe.json"]
    (by decide +kernel) (by decide +kernel)

end Runs
end Qwen3Asr.OutputPaths
