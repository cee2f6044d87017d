import Mathlib.Algebra.Order.Group.Nat
import Mathlib.Data.List.Chain
import Qwen3Asr.Library.Effect
import Qwen3Asr.Library.Pieces
import Qwen3Asr.Library.Word
import Qwen3Asr.MediaData

/-! Audio bytes come in pushes of any length and leave as chunks of one length. -/
namespace Qwen3Asr.AudioStream
open Library.Word Library.Effect Library.Pieces MediaData

inductive WaveformError where
  | invalidSampleRate
  | oddPcmByteLength
  | invalidChannelCount
  | invalidChunkSize
  | incompleteFrame (samples channels : Nat)
  /-- Chunks of no bytes: the loop that takes them does not end. -/
  | diverges
  deriving DecidableEq, Repr

structure AudioChunk where
  waveform : Waveform
  isStart : Bool
  isLast : Bool
  range : TimeRange
  deriving DecidableEq, Repr

structure StreamConfig where
  sampleRate : Nat
  numChannels : Nat
  chunkSizeMs : Nat
  deriving DecidableEq, Repr

structure AudioBytesStream where
  buffer : List UInt8
  emittedSamples : Nat
  deriving DecidableEq, Repr

def newStream : AudioBytesStream := ⟨[],0⟩

section Pcm

def i16FromLe (low high : UInt8) : Int := ((low.toNat+256*high.toNat : Nat) : Int).bmod (2^16)

def i16Samples : List UInt8 → List ℚ
  | low::high::bytes => (i16FromLe low high : ℚ)/32768::i16Samples bytes
  | _ => []

def fromI16PcmBytes (bytes : List UInt8) (sampleRate channels : Nat) : Except WaveformError Waveform :=
  if bytes.length%2 ≠ 0 then .error .oddPcmByteLength else
  if channels = 0 then .error .invalidChannelCount else
  let samples := i16Samples bytes
  if samples.length%channels ≠ 0 then .error (.incompleteFrame samples.length channels) else
  .ok ⟨samples,sampleRate,channels⟩

theorem samplesLength (bytes : List UInt8) : (i16Samples bytes).length = bytes.length/2 := by
  induction bytes using i16Samples.induct with
  | case1 low high bytes ih =>
    rw [i16Samples,List.length_cons,ih]
    simp only [List.length_cons]
    omega
  | case2 bytes short =>
    rcases bytes with _ | ⟨low,_ | ⟨high,bytes⟩⟩
    · rfl
    · simp [i16Samples]
    · exact absurd rfl (short low high bytes)

theorem samplesAppend {xs : List UInt8} (whole : xs.length%2 = 0) (ys : List UInt8) :
    i16Samples (xs ++ ys) = i16Samples xs ++ i16Samples ys := by
  induction xs using i16Samples.induct with
  | case1 low high bytes ih =>
    simp only [List.length_cons] at whole
    simp only [List.cons_append,i16Samples]
    rw [ih (by omega)]
  | case2 bytes short =>
    rcases bytes with _ | ⟨low,_ | ⟨high,bytes⟩⟩
    · rfl
    · cases whole
    · exact absurd rfl (short low high bytes)

end Pcm

section Stream
variable (config : StreamConfig)

abbrev Emitting := EStateM WaveformError AudioBytesStream

def validate : Except WaveformError Unit :=
  if config.sampleRate = 0 then .error .invalidSampleRate else
  if config.numChannels = 0 then .error .invalidChannelCount else
  if config.chunkSizeMs = 0 then .error .invalidChunkSize else .ok ()

/- Products of words wrap. -/
def frameBytes : Nat :=
  let samples := config.sampleRate*config.chunkSizeMs%2^64/1000
  samples*config.numChannels%2^64*2%2^64

def sampleToMs (sample sampleRate : Nat) : Nat := saturatingMul sample 1000/sampleRate

def chunkFromBytes (bytes : List UInt8) (isLast : Bool) : Emitting AudioChunk := do
  let waveform ← attempt (fromI16PcmBytes bytes config.sampleRate (config.numChannels%2^16))
  let samples := waveform.samples.length/config.numChannels
  let startSample := (← get).emittedSamples
  let endSample := (startSample+samples)%2^64
  modify ({· with emittedSamples := endSample})
  pure {
    waveform
    isStart := startSample = 0
    isLast
    range := ⟨sampleToMs startSample config.sampleRate,sampleToMs endSample config.sampleRate⟩}

/- Every turn takes one byte at least, unless chunks have none. -/
def pushFrames : Nat → Emitting (List AudioChunk)
  | 0 => do
    let st ← get
    if st.buffer.length < frameBytes config then pure [] else throw .diverges
  | fuel+1 => do
    let st ← get
    if st.buffer.length < frameBytes config then pure [] else
    modify ({· with buffer := st.buffer.drop (frameBytes config)})
    let chunk ← chunkFromBytes config (st.buffer.take (frameBytes config)) false
    let chunks ← pushFrames fuel
    pure (chunk::chunks)

def push (bytes : List UInt8) : Emitting (List AudioChunk) := do
  attempt (validate config)
  modify fun st => {st with buffer := st.buffer ++ bytes}
  let st ← get
  pushFrames config (st.buffer.length+1)

def flush : Emitting (List AudioChunk) := do
  attempt (validate config)
  let st ← get
  if st.buffer = [] then pure [] else
  let completeLen := st.buffer.length-st.buffer.length%2
  let chunkBytes := st.buffer.take completeLen
  modify ({· with buffer := []})
  if chunkBytes = [] then pure [] else
  let chunk ← chunkFromBytes config chunkBytes true
  pure [chunk]

def pushAll : List (List UInt8) → Emitting (List AudioChunk)
  | [] => pure []
  | bytes::pushes => do
    let chunks ← push config bytes
    let more ← pushAll pushes
    pure (chunks ++ more)

def emitAll (pushes : List (List UInt8)) : Emitting (List AudioChunk) := do
  let chunks ← pushAll config pushes
  let last ← flush config
  pure (chunks ++ last)

end Stream

section Frames
variable {config : StreamConfig}

def advance (count : Nat) (frame : List UInt8 × Bool) : Nat := (count+frame.1.length/2)%2^64

def chunkAt (config : StreamConfig) (count : Nat) (frame : List UInt8 × Bool) : AudioChunk :=
  ⟨⟨i16Samples frame.1,config.sampleRate,1⟩,count = 0,frame.2,
    sampleToMs count config.sampleRate,sampleToMs (advance count frame) config.sampleRate⟩

def chunksFrom (config : StreamConfig) : Nat → List (List UInt8 × Bool) → List AudioChunk
  | _, [] => []
  | count, frame::frames => chunkAt config count frame::chunksFrom config (advance count frame) frames

def inner (blocks : List (List UInt8)) : List (List UInt8 × Bool) := blocks.map (·,false)

def frames (size : Nat) (bytes : List UInt8) : List (List UInt8 × Bool) :=
  inner (cut size (bytes.length/size) bytes) ++
    if leftover size bytes = [] then [] else [(leftover size bytes,true)]

theorem chunksAppend (count : Nat) (first second : List (List UInt8 × Bool)) :
    chunksFrom config count (first ++ second) =
      chunksFrom config count first ++ chunksFrom config (first.foldl advance count) second := by
  induction first generalizing count with
  | nil => rfl
  | cons frame first ih =>
    simp only [List.cons_append,chunksFrom,List.foldl_cons,ih]

theorem leftoverWhole {size : Nat} (even : size%2 = 0) {bytes : List UInt8} (whole : bytes.length%2 = 0) :
    (leftover size bytes).length%2 = 0 := by
  have multiple : bytes.length/size*size%2 = 0 :=
    Nat.mod_eq_zero_of_dvd (Nat.dvd_mul_left_of_dvd (Nat.dvd_of_mod_eq_zero even) _)
  rw [leftover,List.length_drop]
  omega

section Mono
variable (mono : config.numChannels = 1)
include mono

theorem frameBytesEven : frameBytes config%2 = 0 := by
  simp only [frameBytes,mono,Nat.mul_one]
  omega

theorem decodeWhole {bytes : List UInt8} (whole : bytes.length%2 = 0) :
    fromI16PcmBytes bytes config.sampleRate (config.numChannels%2^16) = .ok ⟨i16Samples bytes,config.sampleRate,1⟩ := by
  simp [fromI16PcmBytes,mono,whole,Nat.mod_one]

theorem chunkTaken {bytes : List UInt8} (whole : bytes.length%2 = 0) (last : Bool) (st : AudioBytesStream) :
    chunkFromBytes config bytes last st =
      .ok (chunkAt config st.emittedSamples (bytes,last)) ⟨st.buffer,advance st.emittedSamples (bytes,last)⟩ := by
  unfold chunkFromBytes
  rw [attemptThen (decodeWhole mono whole),bindThen (getRun _),bindThen (modifyRun _ _)]
  simp only [samplesLength,mono,Nat.div_one]
  rfl

variable (positive : 0 < frameBytes config)
include positive

omit mono positive in
theorem pushFramesShort {st : AudioBytesStream} (short : st.buffer.length < frameBytes config) (fuel : Nat) :
    pushFrames config fuel st = .ok [] st := by
  cases fuel with
  | zero =>
    unfold pushFrames
    rw [bindThen (getRun st),if_pos short]
    rfl
  | succ fuel =>
    unfold pushFrames
    rw [bindThen (getRun st),if_pos short]
    rfl

theorem pushFramesRun {fuel : Nat} (st : AudioBytesStream) (enough : st.buffer.length/frameBytes config ≤ fuel) :
    let taken := inner (cut (frameBytes config) (st.buffer.length/frameBytes config) st.buffer)
    pushFrames config fuel st = .ok (chunksFrom config st.emittedSamples taken)
      ⟨leftover (frameBytes config) st.buffer,taken.foldl advance st.emittedSamples⟩ := by
  dsimp only
  induction fuel generalizing st with
  | zero =>
    have counted : st.buffer.length/frameBytes config = 0 := Nat.le_zero.mp enough
    have short : st.buffer.length < frameBytes config := (Nat.div_eq_zero_iff_lt positive).mp counted
    rw [pushFramesShort short,counted,leftoverShort short]
    rfl
  | succ fuel ih =>
    rcases Nat.lt_or_ge st.buffer.length (frameBytes config) with short | long
    · rw [pushFramesShort short,Nat.div_eq_of_lt short,leftoverShort short]
      rfl
    · let first := st.buffer.take (frameBytes config)
      let rest := st.buffer.drop (frameBytes config)
      have counted : st.buffer.length/frameBytes config = rest.length/frameBytes config+1 := by
        rw [List.length_drop]
        exact Nat.div_eq_sub_div positive long
      have whole : first.length%2 = 0 := by
        rw [List.length_take,Nat.min_eq_left long]
        exact frameBytesEven mono
      have left : leftover (frameBytes config) rest = leftover (frameBytes config) st.buffer := by
        unfold leftover
        rw [counted,Nat.succ_mul,Nat.add_comm,← List.drop_drop]
      have following := ih ⟨rest,advance st.emittedSamples (first,false)⟩ (by dsimp only; omega)
      unfold pushFrames
      rw [bindThen (getRun st),if_neg (Nat.not_lt.mpr long),bindThen (modifyRun _ st),
        bindThen (chunkTaken mono whole false _),bindThen following,counted,← left]
      rfl

theorem pushRun (valid : validate config = .ok ()) (bytes : List UInt8) (st : AudioBytesStream) :
    let filled := st.buffer ++ bytes
    let taken := inner (cut (frameBytes config) (filled.length/frameBytes config) filled)
    push config bytes st = .ok (chunksFrom config st.emittedSamples taken)
      ⟨leftover (frameBytes config) filled,taken.foldl advance st.emittedSamples⟩ := by
  dsimp only
  unfold push
  rw [attemptThen valid,bindThen (modifyRun _ st),bindThen (getRun _)]
  exact pushFramesRun mono positive ⟨st.buffer ++ bytes,st.emittedSamples⟩ (Nat.le_succ_of_le (Nat.div_le_self _ _))

theorem pushAllRun (valid : validate config = .ok ()) (pushes : List (List UInt8)) (st : AudioBytesStream)
    (short : st.buffer.length < frameBytes config) :
    let taken := inner (cutPieces (frameBytes config) pushes st.buffer)
    pushAll config pushes st = .ok (chunksFrom config st.emittedSamples taken)
      ⟨leftover (frameBytes config) (st.buffer ++ pushes.flatten),taken.foldl advance st.emittedSamples⟩ := by
  dsimp only
  induction pushes generalizing st with
  | nil =>
    rw [List.flatten_nil,List.append_nil,leftoverShort short]
    rfl
  | cons bytes pushes ih =>
    unfold pushAll
    rw [bindThen (pushRun mono positive valid bytes st),bindThen (ih _ (leftoverLength positive))]
    simp only [cutPieces,inner,List.map_append,chunksAppend,List.foldl_append,List.flatten_cons,pureRun]
    rw [(leftoverAppend positive (st.buffer ++ bytes) pushes.flatten).2,List.append_assoc]

omit positive in
theorem flushRun (valid : validate config = .ok ()) {st : AudioBytesStream} (whole : st.buffer.length%2 = 0) :
    let last := if st.buffer = [] then [] else [(st.buffer,true)]
    flush config st = .ok (chunksFrom config st.emittedSamples last) ⟨[],last.foldl advance st.emittedSamples⟩ := by
  dsimp only
  unfold flush
  rw [attemptThen valid,bindThen (getRun st)]
  by_cases empty : st.buffer = []
  · rw [if_pos empty,if_pos empty,← empty]
    rfl
  · have taken : st.buffer.take (st.buffer.length-st.buffer.length%2) = st.buffer := by
      rw [whole,Nat.sub_zero,List.take_length]
    rw [if_neg empty,if_neg empty,taken,bindThen (modifyRun _ st),if_neg empty,bindThen (chunkTaken mono whole true _)]
    rfl

/-- What a stream emits is a matter of the bytes, not of the pushes they came in. -/
theorem emitAllRun (valid : validate config = .ok ()) {bytes : List UInt8} (whole : bytes.length%2 = 0)
    {pushes : List (List UInt8)} (pushed : pushes.flatten = bytes) :
    outcome (emitAll config pushes newStream) = .ok (chunksFrom config 0 (frames (frameBytes config) bytes)) := by
  let taken := inner (cut (frameBytes config) (bytes.length/frameBytes config) bytes)
  let waiting : AudioBytesStream := ⟨leftover (frameBytes config) bytes,taken.foldl advance 0⟩
  have all : pushAll config pushes newStream = .ok (chunksFrom config 0 taken) waiting := by
    have run := pushAllRun mono positive valid pushes newStream positive
    have empty : ([] : List UInt8).length < frameBytes config := positive
    dsimp only [newStream] at run
    rwa [cutPiecesFlatten positive empty,List.nil_append,pushed] at run
  have left : waiting.buffer.length%2 = 0 := leftoverWhole (frameBytesEven mono) whole
  unfold emitAll
  rw [bindThen all,bindThen (flushRun mono valid left),frames,chunksAppend]
  rfl

end Mono

def Contiguous (chunks : List AudioChunk) : Prop :=
  (∀ chunk ∈ chunks.head?, chunk.range.start = 0) ∧ List.IsChain (fun a b => a.range.stop = b.range.start) chunks

theorem chunksSamples {frames : List (List UInt8 × Bool)} (whole : ∀ frame ∈ frames, frame.1.length%2 = 0) (count : Nat) :
    (chunksFrom config count frames).flatMap (·.waveform.samples) = i16Samples (frames.flatMap Prod.fst) := by
  induction frames generalizing count with
  | nil => rfl
  | cons frame frames ih =>
    obtain ⟨first,rest⟩ := List.forall_mem_cons.mp whole
    simp only [chunksFrom,List.flatMap_cons]
    rw [ih rest,samplesAppend first]
    rfl

theorem chunksContiguous (frames : List (List UInt8 × Bool)) (count : Nat) :
    (∀ chunk ∈ (chunksFrom config count frames).head?, chunk.range.start = sampleToMs count config.sampleRate) ∧
    List.IsChain (fun a b => a.range.stop = b.range.start) (chunksFrom config count frames) := by
  induction frames generalizing count with
  | nil => exact ⟨fun _ mem => (by cases mem),.nil⟩
  | cons frame frames ih =>
    obtain ⟨start,linked⟩ := ih (advance count frame)
    constructor
    · intro chunk mem
      obtain rfl := Option.some.inj mem
      rfl
    · exact List.isChain_cons.mpr ⟨fun chunk mem => (start chunk mem).symm,linked⟩

theorem chunksStart {frames : List (List UInt8 × Bool)} (filled : ∀ frame ∈ frames, 2 ≤ frame.1.length) {count : Nat}
    (fits : count+(frames.flatMap Prod.fst).length < 2^64) :
    ∀ (i : Nat) (chunk : AudioChunk), (chunksFrom config count frames)[i]? = some chunk →
      (chunk.isStart = true ↔ count = 0 ∧ i = 0) := by
  induction frames generalizing count with
  | nil => exact fun _ _ found => (by cases found)
  | cons frame frames ih =>
    obtain ⟨first,rest⟩ := List.forall_mem_cons.mp filled
    rw [List.flatMap_cons,List.length_append] at fits
    intro i chunk found
    cases i with
    | zero =>
      obtain rfl := Option.some.inj found
      simp [chunkAt]
    | succ i =>
      have exact_ : advance count frame = count+frame.1.length/2 := Nat.mod_eq_of_lt (by omega)
      have later := @ih rest (advance count frame) (by omega) i chunk found
      rw [later]
      omega

theorem framesFlatten (size : Nat) (bytes : List UInt8) : (frames size bytes).flatMap Prod.fst = bytes := by
  have last : (if leftover size bytes = [] then [] else [(leftover size bytes,true)]).flatMap Prod.fst =
      leftover size bytes := by
    split
    · rename_i empty
      rw [empty]
      rfl
    · simp
  have blocks : (inner (cut size (bytes.length/size) bytes)).flatMap Prod.fst =
      (cut size (bytes.length/size) bytes).flatten := by
    simp [inner,List.flatMap_map]
  rw [frames,List.flatMap_append,last,blocks,cutLeftover]

theorem framesWhole {size : Nat} (positive : 0 < size) (even : size%2 = 0) {bytes : List UInt8}
    (whole : bytes.length%2 = 0) : ∀ frame ∈ frames size bytes, frame.1.length%2 = 0 ∧ 2 ≤ frame.1.length := by
  intro frame inside
  rcases List.mem_append.mp inside with inside | inside
  · obtain ⟨block,taken,rfl⟩ := List.mem_map.mp inside
    have filled : block.length = size := cutLengths (Nat.div_mul_le_self _ _) block taken
    dsimp only
    omega
  · split at inside
    · cases inside
    · rename_i some_
      obtain rfl := List.mem_singleton.mp inside
      have counted := List.length_pos_iff.mpr some_
      have left := leftoverWhole even whole
      dsimp only
      omega

/-- However the bytes are split into pushes, a mono stream emits the same chunks: their samples are
those of the bytes decoded at once, their ranges follow one another, and the first alone is a start.
A slice has fewer than 2^63 bytes. -/
theorem splitInvariant (mono : config.numChannels = 1) (valid : validate config = .ok ())
    (positive : 0 < frameBytes config) {bytes : List UInt8} (whole : bytes.length%2 = 0) (slice : bytes.length < 2^63) :
    ∃ (chunks : List AudioChunk) (waveform : Waveform),
      (∀ pushes : List (List UInt8), pushes.flatten = bytes → outcome (emitAll config pushes newStream) = .ok chunks) ∧
      fromI16PcmBytes bytes config.sampleRate config.numChannels = .ok waveform ∧
      chunks.flatMap (·.waveform.samples) = waveform.samples ∧ Contiguous chunks ∧
      ∀ (i : Nat) (chunk : AudioChunk), chunks[i]? = some chunk → (chunk.isStart = true ↔ i = 0) := by
  have sound := framesWhole positive (frameBytesEven mono) whole
  have joined := framesFlatten (frameBytes config) bytes
  have decoded : fromI16PcmBytes bytes config.sampleRate config.numChannels = .ok ⟨i16Samples bytes,config.sampleRate,1⟩ := by
    have decoded := decodeWhole mono whole
    rwa [mono] at decoded ⊢
  have samples := @chunksSamples config _ (fun frame inside => (sound frame inside).1) 0
  have starts := @chunksStart config _ (fun frame inside => (sound frame inside).2) 0
    (by rw [joined]; omega)
  have ranges := @chunksContiguous config (frames (frameBytes config) bytes) 0
  rw [joined] at samples
  exact ⟨_,_,fun pushes pushed => emitAllRun mono positive valid whole pushed,decoded,samples,
    by simpa [Contiguous,sampleToMs,saturatingMul] using ranges,
    fun i chunk found => by simpa using starts i chunk found⟩

theorem splitInvariantShort :
    let config : StreamConfig := ⟨1000,1,2⟩
    let bytes : List UInt8 := [1,0,255,255,3,128]
    ∃ (chunks : List AudioChunk) (waveform : Waveform),
      (∀ pushes : List (List UInt8), pushes.flatten = bytes → outcome (emitAll config pushes newStream) = .ok chunks) ∧
      fromI16PcmBytes bytes config.sampleRate config.numChannels = .ok waveform ∧
      chunks.flatMap (·.waveform.samples) = waveform.samples ∧ Contiguous chunks ∧
      ∀ (i : Nat) (chunk : AudioChunk), chunks[i]? = some chunk → (chunk.isStart = true ↔ i = 0) :=
  @splitInvariant ⟨1000,1,2⟩ rfl rfl (by decide) [1,0,255,255,3,128] (by decide) (by decide)

end Frames

end Qwen3Asr.AudioStream
