import Mathlib.Algebra.Field.Defs
import Qwen3Asr.Library.Effect
import Qwen3Asr.Library.RunningMax
import Qwen3Asr.Library.Word

/-! Log-mel features of a waveform, all at once and piece by piece. The values of a frame
are a function of the frame's samples; arithmetic is exact. -/
namespace Qwen3Asr.FeatureExtractor
open Library.Effect Library.RunningMax Library.Word

def featureSize : Nat := 128
def hopLength : Nat := 160
def nFft : Nat := 400

section Reflection

def reflectIndex (i : Int) (len : Nat) : Nat :=
  if len ≤ 1 then 0 else
  let period : Int := 2*((len:Int)-1)
  let j := i%period
  (if (len:Int) ≤ j then period-j else j).toNat

theorem reflectIndexLt (i : Int) {len : Nat} (nonempty : 0 < len) : reflectIndex i len < len := by
  unfold reflectIndex
  split
  · exact nonempty
  · have low := Int.emod_nonneg i (show 2*((len:Int)-1) ≠ 0 by omega)
    have high := Int.emod_lt_of_pos i (show 0 < 2*((len:Int)-1) by omega)
    dsimp only
    split <;> omega

theorem reflectNear {i : Int} {len : Nat} (low : -(len:Int) < i) (high : i < len) : reflectIndex i len = i.natAbs := by
  unfold reflectIndex
  split
  · omega
  · have period : 0 < 2*((len:Int)-1) := by omega
    dsimp only
    rcases Int.le_total 0 i with positive | negative
    · rw [Int.emod_eq_of_lt positive (by omega),if_neg (by omega)]
      omega
    · have wrapped : i%(2*((len:Int)-1)) = if i = 0 then 0 else i+2*((len:Int)-1) := by
        split
        · simp [*]
        · rw [← Int.add_emod_right,Int.emod_eq_of_lt (by omega) (by omega)]
      rw [wrapped]
      split <;> split <;> omega

end Reflection

variable {σ K : Type} [Field K] [LinearOrder K]

def frameSamples (wav : List σ) (nonempty : 0 < wav.length) (frameIdx : Nat) : List σ :=
  (List.range nFft).map fun (i : Nat) =>
    wav.get ⟨reflectIndex ((frameIdx*hopLength : Nat)+(i : Int)-(nFft/2 : Nat)) wav.length,reflectIndexLt _ nonempty⟩

def compressLogMel (v : K) (floor : WithBot K) : K :=
  let v := if (v : WithBot K) < floor then floor.unbotD v else v
  (v+4)/4

def floorOf (maxLog : WithBot K) : WithBot K := maxLog.map (· - 8)

structure Features (K : Type) where
  inputFeatures : List (List K)
  featureAttentionMask : List Nat
  deriving DecidableEq, Repr

section Batch
variable (logMel : List σ → Nat → K)

def melRows (wav : List σ) (frames : Nat) : List (List K) :=
  if nonempty : 0 < wav.length then
    (List.range featureSize).map fun mel => (List.range frames).map fun f => logMel (frameSamples wav nonempty f) mel
  else List.replicate featureSize []

/- The maximum is taken frame after frame as the rows are filled. -/
def extractLogMelFrames (wav : List σ) (frames : Nat) : List (List K) :=
  if nonempty : 0 < wav.length then
    let maxLog := maxOver ((List.range frames).map fun f =>
      (List.range featureSize).map (logMel (frameSamples wav nonempty f)))
    (melRows logMel wav frames).map (List.map fun v => compressLogMel v (floorOf maxLog))
  else List.replicate featureSize []

def extractFeatures (wav : List σ) : Features K :=
  let frames := wav.length/hopLength
  if frames = 0 then ⟨List.replicate featureSize [],[]⟩
  else ⟨extractLogMelFrames logMel wav frames,List.replicate frames 1⟩

end Batch

@[ext] structure StreamingFeatureExtractor (σ K : Type) where
  wav : List σ
  rawLogSpec : List (List K)
  inputFeatures : List (List K)
  featureAttentionMask : List Nat
  compressedMaxLog : WithBot K

def newExtractor : StreamingFeatureExtractor σ K where
  wav := []
  rawLogSpec := List.replicate featureSize []
  inputFeatures := List.replicate featureSize []
  featureAttentionMask := []
  compressedMaxLog := ⊥

/- The longest waveform whose frame positions are signed words. -/
def maxWavLen : Nat := (2^63-1)-(nFft/2-1)

section Streaming
variable (logMel : List σ → Nat → K)

abbrev Extracting (σ K : Type) := EStateM String (StreamingFeatureExtractor σ K)

def frameStart (wavLen frameIdx : Nat) : Except String Int := do
  if maxWavLen < wavLen then .error s!"audio too long for reflection padding: wav_len={wavLen}" else
  let start ← okOr (checkedMul frameIdx hopLength) "frame start overflow"
  if wavLen < start then .error s!"internal error: frame start {start} exceeds wav_len {wavLen}"
  else okOr (i64TryFrom start) "frame start overflow"

def pushFrameRaw (frameIdx : Nat) : Extracting σ K Unit := do
  let st ← get
  if nonempty : 0 < st.wav.length then
    let _ ← attempt (frameStart st.wav.length frameIdx)
    modify fun st' => {st' with
      rawLogSpec := st.rawLogSpec.mapIdx fun mel row => row ++ [logMel (frameSamples st.wav nonempty frameIdx) mel]}
  else throw "internal error: cannot extract features on empty audio"

def pushFrames : Nat → Nat → Extracting σ K Unit
  | _, 0 => pure ()
  | frameIdx, left+1 => do
    pushFrameRaw logMel frameIdx
    pushFrames (frameIdx+1) left

def truncated (recomputeFrom : Nat) (st : StreamingFeatureExtractor σ K) : StreamingFeatureExtractor σ K :=
  {st with
    rawLogSpec := st.rawLogSpec.map (·.take recomputeFrom)
    inputFeatures := st.inputFeatures.map (·.take recomputeFrom)
    featureAttentionMask := st.featureAttentionMask.take recomputeFrom}

/- Frames already compressed stay as they are while the loudest value does. -/
def recompressed (recomputeFrom framesTotal : Nat) (st : StreamingFeatureExtractor σ K) : StreamingFeatureExtractor σ K :=
  let maxLog := maxOver st.rawLogSpec
  let compress := fun v => compressLogMel v (floorOf maxLog)
  {st with
    featureAttentionMask := st.featureAttentionMask.take framesTotal ++
      List.replicate (framesTotal-st.featureAttentionMask.length) 1
    compressedMaxLog := maxLog
    inputFeatures :=
      if maxLog ≠ st.compressedMaxLog then List.zipWith (fun _ raw => raw.map compress) st.inputFeatures st.rawLogSpec
      else List.zipWith (fun out raw => out ++ (raw.drop recomputeFrom).map compress) st.inputFeatures st.rawLogSpec}

def update : Extracting σ K Unit := do
  let st ← get
  let framesTotal := st.wav.length/hopLength
  let oldFrames := st.featureAttentionMask.length
  let recomputeFrom := if oldFrames = 0 then 0 else oldFrames-1
  modify (truncated recomputeFrom)
  if framesTotal = 0 then modify ({· with compressedMaxLog := ⊥}) else do
  pushFrames logMel recomputeFrom (framesTotal-recomputeFrom)
  modify (recompressed recomputeFrom framesTotal)

def appendSamples (samples : List σ) : Extracting σ K Unit :=
  if samples = [] then pure () else do
  modify fun st => {st with wav := st.wav ++ samples}
  update logMel

end Streaming

end Qwen3Asr.FeatureExtractor
