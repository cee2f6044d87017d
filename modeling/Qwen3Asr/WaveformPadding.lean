import Mathlib.Algebra.Order.Field.Basic
import Mathlib.Tactic.Linarith
import Qwen3Asr.PreparedRows

/-! Features of a waveform padded with zeros, of which only the frames of the waveform itself are computed. The floor
under the values follows the loudest of them, and that may lie in a frame that is not computed. -/
namespace Qwen3Asr.WaveformPadding
open Library.Effect Library.RunningMax FeatureExtractor BatchPreparation PreparedRows

section Loudest
variable {σ K : Type} [LinearOrder K] (logMel : List σ → Nat → K) (wav : List σ)

def frameValues (f : Nat) : List K :=
  if nonempty : 0 < wav.length then (List.range featureSize).map (logMel (frameSamples wav nonempty f)) else []

def loudest (n : Nat) : WithBot K := maxOver ((List.range n).map (frameValues logMel wav))

variable {logMel wav} {n total : Nat}

end Loudest

variable {K : Type} [Field K] [LinearOrder K]

section Frames
variable {σ : Type} (logMel : List σ → Nat → K) (wav : List σ)

variable {logMel wav}

end Frames

section Floor
variable [IsStrictOrderedRing K]

variable {σ : Type} {logMel : List σ → Nat → K} {wav : List σ} {n total : Nat}

end Floor

section Padded
variable (logMel : List K → Nat → K) (wav : List K) (paddedLen : Nat)

def padded : List K := wav ++ List.replicate (paddedLen-wav.length) 0

def ownFrames : Nat := min (wav.length ⌈/⌉ hopLength) (paddedLen/hopLength)

def ownFeatures : Features K :=
  if ownFrames wav paddedLen = 0 then ⟨List.replicate featureSize [],[]⟩
  else ⟨extractLogMelFrames logMel (padded wav paddedLen) (ownFrames wav paddedLen),List.replicate (ownFrames wav paddedLen) 1⟩

variable {logMel wav paddedLen}

end Padded

section Modes
variable {logMel : List K → Nat → K} {wav : List K} {paddedLen : Nat}

def entryAt (f : Features K) (mel j : Nat) : Option K := (f.inputFeatures[mel]?).bind (·[j]?)

end Modes

section Silence
variable {logMel : List K → Nat → K} {wav : List K} {paddedLen : Nat}

end Silence

section Agreement

end Agreement

end Qwen3Asr.WaveformPadding
