import Mathlib.Algebra.Field.Rat
import Mathlib.Algebra.Order.Ring.Rat
import Qwen3Asr.Library.Pieces
import Qwen3Asr.PreparedRows

/-! Chunks of many utterances are recognized in groups, in their order or the longest first, and the
results go back to their utterances. -/
namespace Qwen3Asr.ChunkBatches
open Library.Effect Library.Word Library.Pieces Library.Rowwise
open AudioNormalize PromptBuilder BatchPreparation PreparedRows

variable {K : Type}

structure ChunkItem (K : Type) where
  origIndex : Nat
  wav : List K
  deriving DecidableEq, Repr

structure ChunkAsrBatch (K : Type) where
  chunks : List (ChunkItem K)
  prompts : List String
  forcedLangsNorm : List (Option String)
  maxBatchSize : Nat
  maxBatchAudioSec : ℚ
  bucketByLength : Bool
  deriving DecidableEq, Repr

section Grouping

def chunkAudioSeconds (samples : Nat) : ℚ := samples/sampleRateHz

def effectiveMaxBatchCount (maxBatchSize chunkLen : Nat) : Nat := if maxBatchSize = 0 then max chunkLen 1 else maxBatchSize

def flushed (current : List Nat) : List (List Nat) := if current = [] then [] else [current]

def f32Epsilon : ℚ := 1/2^23

/- A group closes before a chunk that would make it too long or that it has no room for. -/
def closesBefore (countCap : Nat) (maxBatchAudioSec : ℚ) (current : List Nat) (currentSec sec : ℚ) : Bool :=
  current ≠ [] ∧ (maxBatchAudioSec+f32Epsilon < currentSec+sec ∨ countCap ≤ current.length)

def groupBySeconds (chunks : List (ChunkItem K)) (countCap : Nat) (maxBatchAudioSec : ℚ) :
    List Nat → ℚ → List Nat → Except String (List (List Nat))
  | current, _, [] => .ok (flushed current)
  | current, currentSec, idx::rest => do
    let chunk ← okOr chunks[idx]? s!"missing chunk {idx}"
    let sec := chunkAudioSeconds chunk.wav.length
    if maxBatchAudioSec < sec then
      let groups ← groupBySeconds chunks countCap maxBatchAudioSec [] 0 rest
      .ok (flushed current ++ [idx]::groups)
    else
      let closes := closesBefore countCap maxBatchAudioSec current currentSec sec
      let closed := if closes then flushed current else []
      let current := if closes then [idx] else current ++ [idx]
      let currentSec := if closes then sec else currentSec+sec
      if countCap ≤ current.length then
        let groups ← groupBySeconds chunks countCap maxBatchAudioSec [] 0 rest
        .ok (closed ++ current::groups)
      else
        let groups ← groupBySeconds chunks countCap maxBatchAudioSec current currentSec rest
        .ok (closed ++ groups)

def groupChunkIndices (orderedIndices : List Nat) (chunks : List (ChunkItem K)) (maxBatchSize : Nat)
    (maxBatchAudioSec : ℚ) : Except String (List (List Nat)) :=
  if orderedIndices = [] then .ok [] else
  let countCap := effectiveMaxBatchCount maxBatchSize orderedIndices.length
  if maxBatchAudioSec ≤ 0 then .ok (cut countCap (orderedIndices.length ⌈/⌉ countCap) orderedIndices)
  else groupBySeconds chunks countCap maxBatchAudioSec [] 0 orderedIndices

end Grouping

section Groups
variable {chunks : List (ChunkItem K)}

theorem flushedFlatten (current : List Nat) : (flushed current).flatten = current := by
  unfold flushed
  split
  · rename_i empty
    rw [empty]
    rfl
  · simp

theorem secondsGroups {countCap : Nat} {maxSec : ℚ} {order : List Nat} (known : ∀ idx ∈ order, idx < chunks.length)
    (current : List Nat) (currentSec : ℚ) :
    ∃ groups, groupBySeconds chunks countCap maxSec current currentSec order = .ok groups ∧
      groups.flatten = current ++ order := by
  induction order generalizing current currentSec with
  | nil => exact ⟨_,rfl,by rw [flushedFlatten,List.append_nil]⟩
  | cons idx order ih =>
    obtain ⟨here,later⟩ := List.forall_mem_cons.mp known
    have found : okOr chunks[idx]? s!"missing chunk {idx}" = .ok chunks[idx] := okOrOk.mpr (List.getElem?_eq_getElem here)
    unfold groupBySeconds
    rw [found]
    dsimp only [bind,Except.bind]
    split
    · obtain ⟨groups,ok,joined⟩ := ih later [] 0
      exact ⟨_,by rw [ok],by simp [flushedFlatten,joined]⟩
    · generalize closesBefore countCap maxSec current currentSec (chunkAudioSeconds chunks[idx].wav.length) = closing
      have kept : (if closing then flushed current else []).flatten ++
          (if closing then [idx] else current ++ [idx]) = current ++ [idx] := by
        cases closing <;> simp [flushedFlatten]
      generalize (if closing then flushed current else []) = closed at kept ⊢
      generalize (if closing then [idx] else current ++ [idx]) = opened at kept ⊢
      generalize (if closing then _ else _) = openedSec
      split
      · obtain ⟨groups,ok,joined⟩ := ih later [] 0
        rw [ok]
        exact ⟨_,rfl,by rw [List.flatten_append,List.flatten_cons,joined,← List.append_assoc,kept]; simp⟩
      · obtain ⟨groups,ok,joined⟩ := ih later opened openedSec
        rw [ok]
        exact ⟨_,rfl,by rw [List.flatten_append,joined,← List.append_assoc,kept]; simp⟩

theorem indexGroups {order : List Nat} (known : ∀ idx ∈ order, idx < chunks.length) (maxBatchSize : Nat) (maxSec : ℚ) :
    ∃ groups, groupChunkIndices order chunks maxBatchSize maxSec = .ok groups ∧ groups.flatten = order := by
  unfold groupChunkIndices
  split
  · rename_i empty
    exact ⟨[],rfl,empty.symm⟩
  dsimp only
  split
  · refine ⟨_,rfl,?_⟩
    have positive : 0 < effectiveMaxBatchCount maxBatchSize order.length := by
      unfold effectiveMaxBatchCount
      split <;> omega
    have enough := (ceilDiv_le_iff_le_smul positive).mp (le_refl (order.length ⌈/⌉ effectiveMaxBatchCount maxBatchSize order.length))
    rw [cutFlatten,List.take_of_length_le]
    rwa [smul_eq_mul,Nat.mul_comm] at enough
  · exact secondsGroups known [] 0

/-- How ordered chunks are cut into groups. The source adds up seconds in f32; whatever the sums come to, no index is
left out and none changes its place. -/
structure Grouping (K : Type) where
  groupChunkIndices : List Nat → List (ChunkItem K) → Nat → ℚ → Except String (List (List Nat))
  whole : ∀ {order : List Nat} {chunks : List (ChunkItem K)}, (∀ idx ∈ order, idx < chunks.length) →
    ∀ (maxBatchSize : Nat) (maxBatchAudioSec : ℚ),
      ∃ groups, groupChunkIndices order chunks maxBatchSize maxBatchAudioSec = .ok groups ∧ groups.flatten = order

def exactGroups : Grouping K := ⟨groupChunkIndices,indexGroups⟩

end Groups

section Running
variable [Field K] [LinearOrder K] (grouping : Grouping K) (processor : Processor K)
  (parseAsrOutput : String → Option String → String × String) (batch : ChunkAsrBatch K)

def chunkOf (idx : Nat) : Except String (ChunkItem K) := okOr batch.chunks[idx]? s!"missing chunk {idx}"

def itemOf (c : ChunkItem K) : Except String (String × AudioInput K) := do
  let prompt ← okOr batch.prompts[c.origIndex]? s!"missing prompt for orig_index {c.origIndex}"
  .ok (prompt,.waveform c.wav sampleRateHz)

def parsed (c : ChunkItem K) (raw : String) : String × String := parseAsrOutput raw batch.forcedLangsNorm[c.origIndex]?.join

def groupRaws (checkPrepared : Bool) (group : List Nat) : Except String (List (ChunkItem K × String)) := do
  let chunkBatch ← group.mapM (chunkOf batch)
  let items ← chunkBatch.mapM (itemOf batch)
  let prepared ← prepareItems processor items
  if checkPrepared ∧ prepared.length ≠ group.length then
    .error s!"internal error: prepare_batch size mismatch: expected={group.length}, got={prepared.length}" else
  let raws ← generateRawPreparedBatch processor batch.maxBatchSize prepared
  if raws.length ≠ group.length then
    .error s!"internal error: raw output batch size mismatch: expected={group.length}, got={raws.length}"
  else .ok (chunkBatch.zip raws)

def runInOrder : Except String (List (String × String)) := do
  let groups ← grouping.groupChunkIndices (List.range batch.chunks.length) batch.chunks batch.maxBatchSize batch.maxBatchAudioSec
  let results ← groups.mapM fun group => do
    let raws ← groupRaws processor batch false group
    .ok (raws.map fun (c,raw) => parsed parseAsrOutput batch c raw)
  .ok results.flatten

/- Longest first; chunks of one length keep their order. -/
def lengthOrder : List Nat :=
  (List.range batch.chunks.length).insertionSort fun a b =>
    let la := (batch.chunks[a]?.map (·.wav.length)).getD 0
    let lb := (batch.chunks[b]?.map (·.wav.length)).getD 0
    lb < la ∨ lb = la ∧ a ≤ b

/- A language and a text have each their slot, and the slots are filled together. -/
def fillSlot (slots : List (Option (String × String))) (chunkIdx : Nat) (result : String × String) :
    Except String (List (Option (String × String))) :=
  match slots[chunkIdx]? with
  | none => .error s!"missing output lang slot {chunkIdx}"
  | some (some _) => .error s!"internal error: duplicate language for chunk {chunkIdx}"
  | some none => .ok (slots.set chunkIdx (some result))

def bucketStep (slots : List (Option (String × String))) (group : List Nat) :
    Except String (List (Option (String × String))) := do
  let raws ← groupRaws processor batch true group
  (group.zip raws).foldlM (fun slots (chunkIdx,c,raw) =>
    fillSlot slots chunkIdx (parsed parseAsrOutput batch c raw)) slots

def runBucketed : Except String (List (String × String)) := do
  let groups ← grouping.groupChunkIndices (lengthOrder batch) batch.chunks batch.maxBatchSize batch.maxBatchAudioSec
  let slots ← groups.foldlM (bucketStep processor parseAsrOutput batch) (List.replicate batch.chunks.length none)
  readSlots (fun i => s!"missing chunk language {i}") slots

def runResults : Except String (List (String × String)) :=
  if batch.bucketByLength then runBucketed grouping processor parseAsrOutput batch else runInOrder grouping processor parseAsrOutput batch

def runAsrOnChunksBatched : Except String (List String × List String) := do
  if batch.chunks.length = 0 then .ok ([],[]) else
  if batch.prompts.length ≠ batch.forcedLangsNorm.length then
    .error s!"internal error: prompts/forced_langs_norm length mismatch: prompts={batch.prompts.length} forced_langs_norm={batch.forcedLangsNorm.length}"
  else
    let results ← runResults grouping processor parseAsrOutput batch
    .ok results.unzip

def addResult (out : List (List String × List String)) (entry : ChunkItem K × String × String) :
    Except String (List (List String × List String)) :=
  match out[entry.1.origIndex]? with
  | none => .error "missing output language bucket"
  | some (langs,texts) => .ok (out.set entry.1.origIndex (langs ++ [entry.2.1],texts ++ [entry.2.2]))

def perUtterance (audioCount : Nat) (results : List String × List String) : Except String (List (List String × List String)) :=
  if results.1.length ≠ batch.chunks.length ∨ results.2.length ≠ batch.chunks.length then
    .error s!"internal error: per_chunk outputs length mismatch: chunks={batch.chunks.length} langs={results.1.length} texts={results.2.length}"
  else (batch.chunks.zip (results.1.zip results.2)).foldlM addResult (List.replicate audioCount ([],[]))

end Running

section Results
variable (parseAsrOutput : String → Option String → String × String) (batch : ChunkAsrBatch K)
  (row : String × AudioInput K → Except String String)

def chunkResult (c : ChunkItem K) : Except String (String × String) := do
  let item ← itemOf batch c
  let raw ← row item
  .ok (parsed parseAsrOutput batch c raw)

def indexResult (idx : Nat) : Except String (String × String) := do
  let c ← chunkOf batch idx
  chunkResult parseAsrOutput batch row c

def indexRaw (idx : Nat) : Except String (ChunkItem K × String) :=
  chunkOf batch idx >>= fun c => (itemOf batch c >>= row) >>= fun raw => .ok (c,raw)

variable {batch} {row}

theorem indexResultRaw (idx : Nat) : indexResult parseAsrOutput batch row idx =
    indexRaw batch row idx >>= fun p : ChunkItem K × String => .ok (parsed parseAsrOutput batch p.1 p.2) := by
  simp only [indexResult,chunkResult,indexRaw,bind_assoc]
  rfl

theorem fillRun {n : Nat} {value : Nat → String × String} {group : List Nat} {pairs : List (ChunkItem K × String)}
    (results : List.Forall₂ (fun idx pair => parsed parseAsrOutput batch pair.1 pair.2 = value idx) group pairs)
    {done : List Nat} (free : ∀ idx ∈ group, idx < n ∧ idx ∉ done) (once : group.Nodup) :
    (group.zip pairs).foldlM (fun slots (chunkIdx,c,raw) => fillSlot slots chunkIdx (parsed parseAsrOutput batch c raw))
      (filled n value done) = .ok (filled n value (done ++ group)) := by
  induction results generalizing done with
  | nil => simp [pure,Except.pure]
  | @cons idx pair group pairs head _ ih =>
    obtain ⟨⟨within,absent⟩,others⟩ := List.forall_mem_cons.mp free
    obtain ⟨fresh,once⟩ := List.nodup_cons.mp once
    have first : fillSlot (filled n value done) idx (parsed parseAsrOutput batch pair.1 pair.2) =
        .ok (filled n value (done ++ [idx])) := by
      unfold fillSlot
      rw [filledGet within,if_neg absent,head]
      exact congrArg Except.ok (filledSet idx)
    have later : ∀ k ∈ group, k < n ∧ k ∉ done ++ [idx] := fun k inside => ⟨(others k inside).1,fun there =>
      (List.mem_append.mp there).elim (others k inside).2 fun same => fresh (List.mem_singleton.mp same ▸ inside)⟩
    rw [List.zip_cons_cons,List.foldlM_cons]
    refine exceptBind.mpr ⟨_,first,?_⟩
    rw [ih later once,List.append_assoc]
    rfl

end Results

section Rows
variable [Field K] [LinearOrder K] (processor : Processor K) (parseAsrOutput : String → Option String → String × String)
  (batch : ChunkAsrBatch K)

def transcribeItems (items : List (String × AudioInput K)) : Except String (List String) := do
  let prepared ← prepareItems processor items
  generateRawPreparedBatch processor batch.maxBatchSize prepared

variable {grouping : Grouping K} {processor} {batch} {row : String × AudioInput K → Except String String}

variable (byRow : ByRow row (transcribeItems processor batch))
include byRow

theorem groupRawsByRow (checkPrepared : Bool) : ByRow (indexRaw batch row) (groupRaws processor batch checkPrepared) := by
  have composed := byRowBind (byRowMapM (chunkOf batch)) (byRowZip (byRowBind (byRowMapM (itemOf batch)) byRow))
  intro group pairs
  refine Iff.trans ?_ (composed group pairs)
  constructor
  · intro ok
    obtain ⟨cs,found,ok⟩ := exceptBind.mp ok
    obtain ⟨items,asked,ok⟩ := exceptBind.mp ok
    obtain ⟨prepared,ready,ok⟩ := exceptBind.mp ok
    split at ok
    · cases ok
    obtain ⟨raws,generated,ok⟩ := exceptBind.mp ok
    split at ok
    · cases ok
    exact exceptBind.mpr ⟨cs,found,exceptBind.mpr ⟨raws,exceptBind.mpr ⟨items,asked,exceptBind.mpr ⟨prepared,ready,generated⟩⟩,ok⟩⟩
  · intro ok
    obtain ⟨cs,found,ok⟩ := exceptBind.mp ok
    obtain ⟨raws,ran,ok⟩ := exceptBind.mp ok
    obtain ⟨items,asked,ran⟩ := exceptBind.mp ran
    obtain ⟨prepared,ready,generated⟩ := exceptBind.mp ran
    have counted : prepared.length = group.length :=
      (prepareLength ready).trans ((mapMLength asked).trans (mapMLength found))
    have answered : raws.length = group.length :=
      (byRowLength byRow ran).symm.trans ((mapMLength asked).trans (mapMLength found))
    refine exceptBind.mpr ⟨cs,found,exceptBind.mpr ⟨items,asked,exceptBind.mpr ⟨prepared,ready,?_⟩⟩⟩
    rw [if_neg (fun short => short.2 counted)]
    refine exceptBind.mpr ⟨raws,generated,?_⟩
    rw [if_neg (fun short => short answered)]
    exact ok

theorem groupResultsByRow : ByRow (indexResult parseAsrOutput batch row) (fun group => do
    let raws ← groupRaws processor batch false group
    .ok (raws.map fun (c,raw) => parsed parseAsrOutput batch c raw)) := by
  rw [funext (indexResultRaw parseAsrOutput)]
  exact byRowBind (groupRawsByRow byRow false)
    (byRowPure fun p : ChunkItem K × String => parsed parseAsrOutput batch p.1 p.2)

theorem inOrderOk (results : List (String × String)) : runInOrder grouping processor parseAsrOutput batch = .ok results ↔
    List.Forall₂ (fun idx result => indexResult parseAsrOutput batch row idx = .ok result)
      (List.range batch.chunks.length) results := by
  obtain ⟨groups,grouped,joined⟩ := @Grouping.whole _ grouping _ batch.chunks (fun idx inside => List.mem_range.mp inside)
    batch.maxBatchSize batch.maxBatchAudioSec
  have parts := groupsByRow (groupResultsByRow parseAsrOutput byRow) groups results
  rw [joined] at parts
  rw [← parts]
  unfold runInOrder
  rw [grouped]
  constructor
  · intro ok
    obtain ⟨answers,ran,last⟩ := exceptBind.mp (show (groups.mapM _ >>= fun answers => _) = Except.ok results from ok)
    exact ⟨answers,ran,Except.ok.inj last⟩
  · rintro ⟨answers,ran,rfl⟩
    exact exceptBind.mpr ⟨groups,rfl,exceptBind.mpr ⟨answers,ran,rfl⟩⟩

omit [Field K] [LinearOrder K] byRow in
theorem lengthOrderPerm : (lengthOrder batch).Perm (List.range batch.chunks.length) := List.perm_insertionSort _ _

theorem bucketFills {n : Nat} {value : Nat → String × String} (done group : List Nat)
    (each : ∀ idx ∈ group, indexResult parseAsrOutput batch row idx = .ok (value idx) ∧ idx < n ∧ idx ∉ done)
    (once : group.Nodup) : bucketStep processor parseAsrOutput batch (filled n value done) group =
      .ok (filled n value (done ++ group)) := by
  have raws : ∀ idx ∈ group, ∃ pair, indexRaw batch row idx = .ok pair := by
    intro idx inside
    have ok := (each idx inside).1
    rw [indexResultRaw] at ok
    obtain ⟨pair,here,_⟩ := exceptBind.mp ok
    exact ⟨pair,here⟩
  obtain ⟨pairs,made⟩ := rowsOk raws
  have values : List.Forall₂ (fun idx pair => parsed parseAsrOutput batch pair.1 pair.2 = value idx) group pairs := by
    refine List.forall₂_iff_zip.mpr ⟨made.length_eq,fun {idx pair} inside => ?_⟩
    have here := List.forall₂_zip made inside
    have ok := (each idx (List.of_mem_zip inside).1).1
    rw [indexResultRaw,here] at ok
    exact Except.ok.inj ok
  unfold bucketStep
  exact exceptBind.mpr ⟨pairs,(groupRawsByRow byRow true group pairs).mpr made,
    fillRun parseAsrOutput values (fun idx inside => (each idx inside).2) once⟩

theorem bucketNeeds (slots : List (Option (String × String))) (group : List Nat) (slots' : List (Option (String × String)))
    (ok : bucketStep processor parseAsrOutput batch slots group = .ok slots') :
    ∀ idx ∈ group, ∃ result, indexResult parseAsrOutput batch row idx = .ok result := by
  obtain ⟨pairs,ran,_⟩ := exceptBind.mp ok
  intro idx inside
  obtain ⟨pair,here⟩ := rowsNeeded ((groupRawsByRow byRow true group pairs).mp ran) idx inside
  exact ⟨_,by rw [indexResultRaw,here]; rfl⟩

theorem bucketedOk (results : List (String × String)) : runBucketed grouping processor parseAsrOutput batch = .ok results ↔
    List.Forall₂ (fun idx result => indexResult parseAsrOutput batch row idx = .ok result)
      (List.range batch.chunks.length) results := by
  have known : ∀ idx ∈ lengthOrder batch, idx < batch.chunks.length := fun idx inside =>
    List.mem_range.mp (lengthOrderPerm.subset inside)
  obtain ⟨groups,grouped,joined⟩ := grouping.whole known batch.maxBatchSize batch.maxBatchAudioSec
  have returns : ∀ results, List.Forall₂ (fun idx result => indexResult parseAsrOutput batch row idx = .ok result)
      (List.range batch.chunks.length) results → runBucketed grouping processor parseAsrOutput batch = .ok results := by
    intro results pairs
    let value : Nat → String × String := fun i => results[i]?.getD ("","")
    have counted : batch.chunks.length = results.length := by simpa using pairs.length_eq
    have whole : (List.range batch.chunks.length).map value = results := by
      refine List.ext_getElem (by simpa using counted) fun i h h' => ?_
      simp [value,h']
    have each : ∀ idx ∈ groups.flatten, indexResult parseAsrOutput batch row idx = .ok (value idx) := by
      intro idx inside
      rw [joined] at inside
      have within := known idx inside
      have here := (List.forall₂_iff_get.mp pairs).2 idx (by simpa using within) (counted ▸ within)
      simpa [value,counted ▸ within] using here
    have slots := scatterAll id (fun _ => True)
      (fun done group _ each once => by simpa using bucketFills parseAsrOutput byRow done group each (by simpa using once))
      (fun _ _ => trivial) (by rw [List.map_id,joined]; exact lengthOrderPerm) each
    unfold runBucketed
    exact exceptBind.mpr ⟨groups,grouped,exceptBind.mpr ⟨_,slots,by rw [whole]; exact slotsRead _ results⟩⟩
  constructor
  · intro ok
    obtain ⟨groups',same,ran⟩ := exceptBind.mp ok
    obtain rfl := Except.ok.inj (grouped.symm.trans same)
    obtain ⟨slots,ran,_⟩ := exceptBind.mp ran
    have needed := groupsNeeded (fun _ => True)
      (fun slots group slots' _ => bucketNeeds parseAsrOutput byRow slots group slots') (fun _ _ => trivial) ran
    rw [joined] at needed
    obtain ⟨all,pairs⟩ := rowsOk fun idx inside => needed idx (lengthOrderPerm.symm.subset inside)
    obtain rfl := Except.ok.inj (ok.symm.trans (returns all pairs))
    exact pairs
  · exact returns results

end Rows

section Utterances

theorem resultsAdded {entries : List (ChunkItem K × String × String)} {start out : List (List String × List String)}
    (ok : entries.foldlM addResult start = .ok out) (u : Nat) :
    out[u]? = start[u]?.map fun had =>
      let added := (entries.filter (·.1.origIndex = u)).map Prod.snd
      (had.1 ++ added.map Prod.fst,had.2 ++ added.map Prod.snd) := by
  induction entries generalizing start with
  | nil =>
    obtain rfl := Except.ok.inj ok
    cases start[u]? <;> simp
  | cons entry entries ih =>
    rw [List.foldlM_cons] at ok
    obtain ⟨next,first,rest⟩ := exceptBind.mp ok
    unfold addResult at first
    split at first
    · cases first
    rename_i langs texts found
    obtain rfl := Except.ok.inj first
    rw [ih rest,List.getElem?_set]
    by_cases same : entry.1.origIndex = u
    · subst same
      obtain ⟨within,here⟩ := List.getElem?_eq_some_iff.mp found
      simp [within,here]
    · simp [same]

theorem addedLength {entries : List (ChunkItem K × String × String)} {start out : List (List String × List String)}
    (ok : entries.foldlM addResult start = .ok out) : out.length = start.length := by
  refine Nat.le_antisymm ?_ ?_
  · refine List.getElem?_eq_none_iff.mp ?_
    rw [resultsAdded ok,List.getElem?_eq_none (Nat.le_refl _)]
    rfl
  · refine List.getElem?_eq_none_iff.mp (Option.map_eq_none_iff.mp ((resultsAdded ok out.length).symm.trans ?_))
    exact List.getElem?_eq_none (Nat.le_refl _)

theorem addedGoes {entries : List (ChunkItem K × String × String)} {start : List (List String × List String)} :
    (∃ out, entries.foldlM addResult start = .ok out) ↔ ∀ entry ∈ entries, entry.1.origIndex < start.length := by
  induction entries generalizing start with
  | nil => simp [pure,Except.pure]
  | cons entry entries ih =>
    rw [List.forall_mem_cons,List.foldlM_cons]
    constructor
    · rintro ⟨out,ok⟩
      obtain ⟨next,first,rest⟩ := exceptBind.mp ok
      have kept : next.length = start.length := @addedLength _ [entry] _ _ (exceptBind.mpr ⟨next,first,rfl⟩)
      have later := ih.mp ⟨out,rest⟩
      rw [kept] at later
      refine ⟨?_,later⟩
      unfold addResult at first
      split at first
      · cases first
      · next found => exact (List.getElem?_eq_some_iff.mp found).1
    · rintro ⟨here,later⟩
      have first : addResult start entry = .ok (start.set entry.1.origIndex
          (start[entry.1.origIndex].1 ++ [entry.2.1],start[entry.1.origIndex].2 ++ [entry.2.2])) := by
        unfold addResult
        rw [List.getElem?_eq_getElem here]
      obtain ⟨out,ok⟩ := (@ih (start.set entry.1.origIndex
        (start[entry.1.origIndex].1 ++ [entry.2.1],start[entry.1.origIndex].2 ++ [entry.2.2]))).mpr (by simpa using later)
      exact ⟨out,exceptBind.mpr ⟨_,first,ok⟩⟩

def gathered (chunks : List (ChunkItem K)) (results : List (String × String)) (u : Nat) : List String × List String :=
  (((chunks.zip results).filter (·.1.origIndex = u)).map Prod.snd).unzip

theorem perUtteranceOk {batch : ChunkAsrBatch K} {audioCount : Nat} {results : List (String × String)}
    (same : batch.chunks.length = results.length) {out : List (List String × List String)} :
    perUtterance batch audioCount results.unzip = .ok out ↔ (∀ c ∈ batch.chunks, c.origIndex < audioCount) ∧
      out = (List.range audioCount).map (gathered batch.chunks results) := by
  have halves : results.unzip.1.length = batch.chunks.length ∧ results.unzip.2.length = batch.chunks.length := by
    rw [List.unzip_eq_map,List.length_map,List.length_map,same]
    exact ⟨rfl,rfl⟩
  have sums : ∀ {out}, (batch.chunks.zip results).foldlM addResult (List.replicate audioCount ([],[])) = .ok out →
      out = (List.range audioCount).map (gathered batch.chunks results) := by
    intro out ok
    refine List.ext_getElem? fun u => ?_
    rw [resultsAdded ok]
    rcases Nat.lt_or_ge u audioCount with within | past
    · simp [within,gathered,List.unzip_eq_map]
    · simp [past]
  have placed : (∀ entry ∈ batch.chunks.zip results, entry.1.origIndex < (List.replicate audioCount (([],[]) : List String × List String)).length) ↔
      ∀ c ∈ batch.chunks, c.origIndex < audioCount := by
    rw [List.length_replicate,← List.forall_mem_map (f := Prod.fst) (P := fun c : ChunkItem K => c.origIndex < audioCount),
      List.map_fst_zip (Nat.le_of_eq same)]
  unfold perUtterance
  rw [if_neg (by rw [halves.1,halves.2]; simp),List.zip_unzip,← placed,← addedGoes]
  constructor
  · intro ok
    exact ⟨⟨out,ok⟩,sums ok⟩
  · rintro ⟨⟨_,ok⟩,rfl⟩
    rw [ok,sums ok]

theorem chunkResults {parseAsrOutput : String → Option String → String × String} {batch : ChunkAsrBatch K}
    {row : String × AudioInput K → Except String String} (results : List (String × String)) :
    List.Forall₂ (fun idx result => indexResult parseAsrOutput batch row idx = .ok result)
      (List.range batch.chunks.length) results ↔
    List.Forall₂ (fun c result => chunkResult parseAsrOutput batch row c = .ok result) batch.chunks results := by
  have found : List.Forall₂ (fun idx c => chunkOf batch idx = .ok c) (List.range batch.chunks.length) batch.chunks :=
    List.forall₂_iff_get.mpr ⟨List.length_range,fun i h h' => okOrOk.mpr (by simp)⟩
  exact rowsAfter found results

end Utterances

section Agreement
variable [Field K] [LinearOrder K]

def utterances (grouping : Grouping K) (processor : Processor K) (parseAsrOutput : String → Option String → String × String)
    (batch : ChunkAsrBatch K) (audioCount : Nat) : Except String (List (List String × List String)) :=
  runAsrOnChunksBatched grouping processor parseAsrOutput batch >>= perUtterance batch audioCount

variable {grouping : Grouping K} {processor : Processor K} {parseAsrOutput : String → Option String → String × String}
  {batch : ChunkAsrBatch K} {row : String × AudioInput K → Except String String}

theorem runOk (byRow : ByRow row (transcribeItems processor batch)) (bucketByLength : Bool)
    (out : List String × List String) :
    runAsrOnChunksBatched grouping processor parseAsrOutput {batch with bucketByLength} = .ok out ↔
      (batch.chunks = [] ∨ batch.prompts.length = batch.forcedLangsNorm.length) ∧
      ∃ results, List.Forall₂ (fun c result => chunkResult parseAsrOutput batch row c = .ok result) batch.chunks results ∧
        results.unzip = out := by
  have path : ∀ results, runResults grouping processor parseAsrOutput {batch with bucketByLength} = .ok results ↔
      List.Forall₂ (fun c result => chunkResult parseAsrOutput batch row c = .ok result) batch.chunks results := by
    intro results
    refine Iff.trans ?_ (chunkResults results)
    cases bucketByLength
    · exact @inOrderOk _ _ _ _ parseAsrOutput {batch with bucketByLength := false} grouping _ byRow results
    · exact @bucketedOk _ _ _ _ parseAsrOutput {batch with bucketByLength := true} grouping _ byRow results
  unfold runAsrOnChunksBatched
  dsimp only
  split
  · rename_i none_
    have empty := List.length_eq_zero_iff.mp none_
    rw [empty]
    simp [eq_comm]
  · rename_i some_
    have nonempty : batch.chunks ≠ [] := fun empty => some_ (by rw [empty]; rfl)
    split
    · rename_i apart
      simp [nonempty,apart]
    · rename_i matched
      simp only [nonempty,false_or,not_not.mp matched,true_and]
      constructor
      · intro ok
        obtain ⟨results,ran,last⟩ := exceptBind.mp ok
        exact ⟨results,(path results).mp ran,Except.ok.inj last⟩
      · rintro ⟨results,pairs,rfl⟩
        exact exceptBind.mpr ⟨results,(path results).mpr pairs,rfl⟩

/-- Given that preparing and generating a group acts row by row, chunks in buckets of like length and
chunks in their order come to the same lists of results for every utterance, in the order of its chunks, however
they are cut into groups; and they do come to them where every chunk has a result and an utterance.
It does where features are padded after their extraction and the generator acts on rows without padding. -/
theorem batchingIndependent (grouping : Grouping K) (processor : Processor K)
    (parseAsrOutput : String → Option String → String × String) (batch : ChunkAsrBatch K) (audioCount : Nat) :
    (PadsFeatures processor → GeneratesByRow processor → ∃ row, ByRow row (transcribeItems processor batch)) ∧
    ∀ row, ByRow row (transcribeItems processor batch) → ∀ out : List (List String × List String),
      (utterances grouping processor parseAsrOutput {batch with bucketByLength := true} audioCount = .ok out ↔
        utterances grouping processor parseAsrOutput {batch with bucketByLength := false} audioCount = .ok out) ∧
      (utterances grouping processor parseAsrOutput {batch with bucketByLength := false} audioCount = .ok out ↔
        (batch.chunks = [] ∨ batch.prompts.length = batch.forcedLangsNorm.length) ∧
        (∀ c ∈ batch.chunks, c.origIndex < audioCount) ∧
        ∃ results, List.Forall₂ (fun c result => chunkResult parseAsrOutput batch row c = .ok result) batch.chunks results ∧
          out = (List.range audioCount).map (gathered batch.chunks results)) := by
  refine ⟨fun mode generates => preparedByRow mode generates batch.maxBatchSize,fun row byRow out => ?_⟩
  have same : ∀ bucketByLength, utterances grouping processor parseAsrOutput {batch with bucketByLength} audioCount = .ok out ↔
      (batch.chunks = [] ∨ batch.prompts.length = batch.forcedLangsNorm.length) ∧
        (∀ c ∈ batch.chunks, c.origIndex < audioCount) ∧
        ∃ results, List.Forall₂ (fun c result => chunkResult parseAsrOutput batch row c = .ok result) batch.chunks results ∧
          out = (List.range audioCount).map (gathered batch.chunks results) := by
    intro bucketByLength
    unfold utterances
    rw [exceptBind]
    constructor
    · rintro ⟨_,ran,per⟩
      obtain ⟨even,results,pairs,rfl⟩ := (runOk byRow bucketByLength _).mp ran
      obtain ⟨placed,listed⟩ := (perUtteranceOk pairs.length_eq).mp per
      exact ⟨even,placed,results,pairs,listed⟩
    · rintro ⟨even,placed,results,pairs,listed⟩
      exact ⟨_,(runOk byRow bucketByLength _).mpr ⟨even,results,pairs,rfl⟩,(perUtteranceOk pairs.length_eq).mpr ⟨placed,listed⟩⟩
  exact ⟨(same true).trans (same false).symm,same false⟩

end Agreement

section Padding

def frameCounter (mode : FeaturePaddingMode) : Processor ℚ where
  tokenizer := ⟨fun _ => .ok [1],fun token => .ok (if token = "<|endoftext|>" then 0 else 1)⟩
  codec := ⟨fun _ => .error "",fun _ => .error "",fun _ => .error "",fun wav _ _ => .ok wav⟩
  logMel _ _ := 0
  mode
  varlen := false
  generate _ featureLens _ _ := .ok (featureLens.map ([·]))
  decode ids := .ok (" ".intercalate (ids.map toString))

theorem frameCounterByRow (mode : FeaturePaddingMode) : GeneratesByRow (frameCounter mode) := by
  refine ⟨fun key => .ok [(key.2.head?.map List.length).getD 0],fun rows _ aligned out => ?_⟩
  obtain ⟨_,frames,shapes⟩ := aligned
  have each : ∀ p ∈ rows, ∀ ids, (Except.ok [((unpadded p).2.head?.map List.length).getD 0] : Except String (List Nat)) = .ok ids ↔
      True ∧ [realFrames p.featureAttentionMask] = ids := by
    intro p inside ids
    have shaped := (shapes p inside).1
    have real : realFrames p.featureAttentionMask ≤ frames := shaped.masked ▸ List.countP_le_length
    cases features : p.inputFeatures with
    | nil =>
      have mel := shaped.mel
      rw [features] at mel
      cases mel
    | cons first _ =>
      have width := shaped.rows first (by rw [features]; exact List.mem_cons_self)
      simp [unpadded,features,width,real]
  rw [← exceptMapM,exceptMapChecked (P := fun _ => True) each]
  simp [frameCounter,Function.comp_def]

def threeChunks (bucketByLength : Bool) : ChunkAsrBatch ℚ where
  chunks := [⟨0,List.replicate 240 0⟩,⟨1,List.replicate 240 0⟩,⟨2,List.replicate 320 0⟩]
  prompts := ["","",""]
  forcedLangsNorm := [none,none,none]
  maxBatchSize := 2
  maxBatchAudioSec := 0
  bucketByLength

set_option maxRecDepth 20000 in
theorem batchingIndependentCounted :
    (∃ row, ByRow row (transcribeItems (frameCounter .feature) (threeChunks true)) ∧ ∀ out : List (List String × List String),
      (utterances exactGroups (frameCounter .feature) (fun raw _ => ("",raw)) (threeChunks true) 3 = .ok out ↔
        utterances exactGroups (frameCounter .feature) (fun raw _ => ("",raw)) (threeChunks false) 3 = .ok out)) ∧
    utterances exactGroups (frameCounter .feature) (fun raw _ => ("",raw)) (threeChunks true) 3 =
      .ok [([""],["1"]),([""],["1"]),([""],["2"])] := by
  have independent := batchingIndependent exactGroups (frameCounter .feature) (fun raw _ => ("",raw)) (threeChunks true) 3
  obtain ⟨row,byRow⟩ := independent.1 (.inr rfl) (frameCounterByRow .feature)
  have same := fun out => (independent.2 row byRow out).1
  exact ⟨⟨row,byRow,same⟩,(same _).mpr rfl⟩

set_option maxRecDepth 20000 in
/- A chunk that is padded with zeros to a longer one of its group has a frame more than by itself. -/
theorem groupsMatterToFrames : GeneratesByRow (frameCounter .waveform) ∧
    utterances exactGroups (frameCounter .waveform) (fun raw _ => ("",raw)) (threeChunks true) 3 =
      .ok [([""],["2"]),([""],["1"]),([""],["2"])] ∧
    utterances exactGroups (frameCounter .waveform) (fun raw _ => ("",raw)) (threeChunks false) 3 =
      .ok [([""],["1"]),([""],["1"]),([""],["2"])] :=
  ⟨frameCounterByRow .waveform,rfl,rfl⟩

end Padding

end Qwen3Asr.ChunkBatches
