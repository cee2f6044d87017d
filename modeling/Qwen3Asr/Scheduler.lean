import Mathlib.Data.List.Sort
import Qwen3Asr.Library.Loop
import Qwen3Asr.Library.Scatter
import Qwen3Asr.BatchEngine

/-! The continuous batching loop. Request ids and sums of blocks are naturals:
the saturating counters of the source never reach their bound. -/
namespace Qwen3Asr.Scheduler
open Library.Effect Library.Word Library.Loop Library.Scatter
open BlockManager PagedMetadata PromptPositions BatchEngine

structure PreparedInputs where
  inputIds : List Nat
  attentionMask : List Nat
  deriving DecidableEq, Repr

structure RunningSlot where
  clientIndex : Nat
  slot : PagedDecodeSlot
  deriving DecidableEq, Repr

/- One call of `run_continuous_prepared`: the scheduler's configuration and the arguments. -/
structure ContinuousRun (φ : Type) where
  maxNumSeqs : Nat
  thinker : Thinker φ
  prepared : List PreparedInputs
  audioFeatures : List φ
  maxNewTokens : Nat
  eosTokenIds : List Nat
  padId : Nat

structure LoopState (φ : Type) where
  runtime : PagedCacheRuntime φ
  nextRequestId : Nat
  waiting : List Nat
  running : List (Option RunningSlot)
  outputs : List (List Nat)
  deriving DecidableEq

variable {φ : Type}

abbrev Looping (φ : Type) := EStateM String (LoopState φ)

def runtimeMut {α : Type} (x : Engine φ α) : Looping φ α :=
  zoom LoopState.runtime (fun runtime s => {s with runtime}) x

def preparedPromptLen (row : PreparedInputs) : Nat := validLen row.attentionMask

def runningKvBlocks (running : List (Option RunningSlot)) (manager : PagedBlockManager) : Nat :=
  ((running.filterMap id).map fun entry => blocksForRequest manager entry.slot.requestId).sum

/- Admitting one more sequence keeps a block of headroom for each running one. -/
def canAdmitWithProjectedKv (manager : PagedBlockManager)
    (kvBlockCapacity promptLen projectedUsedBlocks projectedRunning : Nat) : Bool :=
  let promptBlocks := promptLen ⌈/⌉ manager.blockSize
  let decodeHeadroom := max projectedRunning 1
  projectedUsedBlocks + promptBlocks + decodeHeadroom ≤ kvBlockCapacity

def freeAllRunning (s : LoopState φ) : LoopState φ :=
  let ids := (s.running.filterMap id).map (·.slot.requestId)
  {s with
    runtime := {s.runtime with manager := freeMany s.runtime.manager ids}
    running := s.running.map fun _ => none}

def done (entry : RunningSlot) : Bool := entry.slot.finished

def freeFinishedRunning (s : LoopState φ) : LoopState φ :=
  let finished := (s.running.filterMap id).filter done
  {s with
    runtime := {s.runtime with manager := freeMany s.runtime.manager (finished.map (·.slot.requestId))}
    running := s.running.map (Option.filter (!done ·))
    outputs := finished.foldl (fun outputs entry => outputs.set entry.clientIndex entry.slot.generated) s.outputs}

def padPreparedWaveForPrefill (prepared : List PreparedInputs) (waveIndices : List Nat) (padId : Nat) :
    Except String (List (List Nat) × List (List Nat)) := do
  if waveIndices = [] then .error "pad_prepared_wave_for_prefill requires at least one row" else
  let rows ← waveIndices.mapM fun idx => okOr prepared[idx]? s!"missing prepared row {idx}"
  let maxPromptLen := maxOf (rows.map preparedPromptLen)
  if maxPromptLen = 0 then .error "admit wave contains zero-length prompts" else
  let padded ← (waveIndices.zip rows).mapM fun (idx,row) =>
    let promptLen := preparedPromptLen row
    if row.inputIds.length < promptLen ∨ row.attentionMask.length < promptLen then
      .error s!"prepared[{idx}] effective prompt len {promptLen} exceeds row capacity: ids={row.inputIds.length} mask={row.attentionMask.length}"
    else
      let extra := maxPromptLen-promptLen
      .ok (row.inputIds.take promptLen ++ List.replicate extra padId,
        row.attentionMask.take promptLen ++ List.replicate extra 0)
  .ok (padded.map Prod.fst,padded.map Prod.snd)

def rowAudioLens (run : ContinuousRun φ) : List Nat :=
  run.prepared.map fun row => row.inputIds.count run.thinker.audioTokenId

def audioOffsets (run : ContinuousRun φ) : List Nat :=
  (List.range run.prepared.length).map fun i => ((rowAudioLens run).take i).sum

/- A wave of one row narrows the features without concatenating. -/
def concatPreparedAudio (audioFeatures : List φ) (audioOffsets rowAudioLens clientIndices : List Nat) :
    Except String (List φ) := do
  if clientIndices = [] then .error "concat_prepared_audio requires at least one row" else
  let parts ← clientIndices.mapM fun clientIndex =>
    narrow audioFeatures (audioOffsets.getD clientIndex 0) (rowAudioLens.getD clientIndex 0)
  .ok parts.flatten

def groupRunningByDecodeStep (active : List (Nat × Nat)) : List (Nat × List Nat) :=
  let steps := ((active.map Prod.snd).dedup).insertionSort (· ≤ ·)
  steps.map fun step => (step,(active.filter (·.2 = step)).map Prod.fst)

def activeSteps (running : List (Option RunningSlot)) : List (Nat × Nat) :=
  running.zipIdx.filterMap fun (entry,slotIdx) => match entry with
    | some entry => if entry.slot.finished then none else some (slotIdx,entry.slot.decodeStep)
    | none => none

def slotAt (running : List (Option RunningSlot)) (slotIdx : Nat) : Option PagedDecodeSlot :=
  (running[slotIdx]?.join).map RunningSlot.slot

def writeSlot (slot : PagedDecodeSlot) : Option RunningSlot → Option RunningSlot :=
  Option.map ({· with slot})

def decodeGroup (run : ContinuousRun φ) (group : Nat × List Nat) : Looping φ Unit := do
  let s ← get
  let slots ← attempt (group.2.mapM fun slotIdx =>
    okOr (slotAt s.running slotIdx) s!"missing running slot {slotIdx}")
  let slots ← runtimeMut
    (pagedBatchDecodeSlotsAtStep run.thinker slots group.1 run.maxNewTokens run.eosTokenIds)
  modify fun s => {s with running := scatter writeSlot s.running (group.2.zip slots)}

def decodeGroups (run : ContinuousRun φ) : List (Nat × List Nat) → Looping φ Unit
  | [] => pure ()
  | group::rest => do
    decodeGroup run group
    decodeGroups run rest

def limitEntry (maxNewTokens : Nat) (entry : RunningSlot) : RunningSlot :=
  if !entry.slot.finished && maxNewTokens ≤ entry.slot.decodeStep then
    {entry with slot := {entry.slot with finished := true}}
  else entry

def finishAtLimit (maxNewTokens : Nat) (s : LoopState φ) : LoopState φ :=
  {s with running := s.running.map (Option.map (limitEntry maxNewTokens))}

def promptLenOf (run : ContinuousRun φ) (clientIndex : Nat) : Nat :=
  (run.prepared[clientIndex]?.map preparedPromptLen).getD 0

def admitWave (run : ContinuousRun φ) (manager : PagedBlockManager) (kvBlockCapacity maxSlots : Nat) :
    List (Option RunningSlot × Nat) → Nat → Nat → List Nat → List (Nat × Nat) × List Nat
  | [], _, _, waiting => ([],waiting)
  | (some _,_)::slots, projectedUsed, projectedRunning, waiting =>
    admitWave run manager kvBlockCapacity maxSlots slots projectedUsed projectedRunning waiting
  | (none,slotIdx)::slots, projectedUsed, projectedRunning, waiting =>
    if maxSlots ≤ projectedRunning then ([],waiting) else match waiting with
    | [] => ([],[])
    | clientIndex::waiting =>
      let promptLen := promptLenOf run clientIndex
      if canAdmitWithProjectedKv manager kvBlockCapacity promptLen projectedUsed (projectedRunning+1) then
        let (wave,waiting) := admitWave run manager kvBlockCapacity maxSlots slots
          (projectedUsed + promptLen ⌈/⌉ manager.blockSize) (projectedRunning+1) waiting
        ((clientIndex,slotIdx)::wave,waiting)
      else ([],clientIndex::waiting)

def nextWave (run : ContinuousRun φ) (s : LoopState φ) : List (Nat × Nat) × List Nat :=
  admitWave run s.runtime.manager (allocatableBlockCapacity s.runtime.cache.numBlocks) s.running.length
    s.running.zipIdx (runningKvBlocks s.running s.runtime.manager) (s.running.filterMap id).length s.waiting

def prefillInputs (run : ContinuousRun φ) (clients : List Nat) :
    Except String ((List (List Nat) × List (List Nat)) × List φ) := do
  let rows ← padPreparedWaveForPrefill run.prepared clients run.padId
  let audio ← concatPreparedAudio run.audioFeatures (audioOffsets run) (rowAudioLens run) clients
  .ok (rows,audio)

def placeWave (running : List (Option RunningSlot)) (state : PagedBatchState) (wave : List (Nat × Nat)) :
    Except String (List (Option RunningSlot)) :=
  wave.zipIdx.foldlM (fun running ((clientIndex,slotIdx),waveRow) => do
    let slot ← fromPrefillState state waveRow
    .ok (running.set slotIdx (some ⟨clientIndex,slot⟩))) running

def prefillWave (run : ContinuousRun φ) (wave : List (Nat × Nat)) : Looping φ Unit := do
  let s ← get
  let requestIdBase := s.nextRequestId
  modify fun s => {s with nextRequestId := s.nextRequestId+wave.length}
  let ((ids,masks),audio) ← attempt (prefillInputs run (wave.map Prod.fst))
  let state ← runtimeMut (pagedBatchPrefill run.thinker ids masks (some audio)
    ⟨run.maxNewTokens,run.eosTokenIds,requestIdBase⟩)
  let running ← attempt (placeWave s.running state wave)
  modify fun s => {s with running}

def admitNext (run : ContinuousRun φ) (wave : List (Nat × Nat)) : Looping φ Unit :=
  if wave = [] then pure () else prefillWave run wave

/- One turn of the loop; `false` leaves it. -/
def turn (run : ContinuousRun φ) : Looping φ Bool := do
  modify freeFinishedRunning
  let s ← get
  let active := activeSteps s.running
  decodeGroups run (groupRunningByDecodeStep active)
  modify (finishAtLimit run.maxNewTokens)
  modify freeFinishedRunning
  let s ← get
  let next := nextWave run s
  let wave := next.1
  modify fun s => {s with waiting := next.2}
  admitNext run wave
  let s ← get
  let hasRunning := s.running.any Option.isSome
  if s.waiting = [] ∧ ¬hasRunning then pure false
  else if wave = [] ∧ active = [] ∧ ¬hasRunning ∧ s.waiting ≠ [] then
    throw s!"paged KV cache exhausted: {s.waiting.length} sequence(s) waiting, free_blocks={s.runtime.manager.free.length}"
  else pure true

abbrev Outcome (φ : Type) := Except String (List (List Nat)) × LoopState φ

def body (run : ContinuousRun φ) (s : LoopState φ) : Next (LoopState φ) (Outcome φ) :=
  match turn run s with
  | .ok true t => .next t
  | .ok false t => .exit (.ok t.outputs,freeAllRunning t)
  | .error e t => .exit (.error e,freeAllRunning t)

def initial (run : ContinuousRun φ) (nextRequestId : Nat) (runtime : PagedCacheRuntime φ) : LoopState φ :=
  let batch := run.prepared.length
  let maxSlots := min (max run.maxNumSeqs 1) batch
  {runtime, nextRequestId, waiting := List.range batch, running := List.replicate maxSlots none
   outputs := List.replicate batch []}

abbrev Returned (φ : Type) := Except String (List (List Nat)) × Nat × PagedCacheRuntime φ

inductive Entry (φ : Type) where
  | returned (result : Returned φ)
  | loop (state : LoopState φ)

/- What precedes the loop: the early returns and the audio check. -/
def enter (run : ContinuousRun φ) (nextRequestId : Nat) (runtime : PagedCacheRuntime φ) : Entry φ :=
  let batch := run.prepared.length
  if batch = 0 then .returned (.ok [],nextRequestId,runtime)
  else if run.maxNewTokens = 0 then .returned (.ok (List.replicate batch []),nextRequestId,runtime)
  else
    let audioCursor := (rowAudioLens run).sum
    if audioCursor ≠ run.audioFeatures.length then
      .returned (.error s!"continuous batch audio token mismatch: prepared placeholders={audioCursor} audio_features={run.audioFeatures.length}",
        nextRequestId,runtime)
    else .loop (initial run nextRequestId runtime)

/- The call with `fuel` turns of its loop; `none` when they do not suffice. -/
def runContinuousPrepared (run : ContinuousRun φ) (nextRequestId : Nat) (runtime : PagedCacheRuntime φ)
    (fuel : Nat) : Option (Returned φ) :=
  match enter run nextRequestId runtime with
  | .returned result => some result
  | .loop s => (Library.Loop.run (body run) fuel s).map fun (result,t) => (result,t.nextRequestId,t.runtime)

end Qwen3Asr.Scheduler
