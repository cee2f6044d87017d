import Mathlib.Algebra.Order.Field.Basic
import Mathlib.Algebra.Order.Group.Unbundled.Abs

/-! Audio inputs and their normalization to mono at sixteen kilohertz in [-1, 1]. Decoding and
resampling are parameters; arithmetic is exact. -/
namespace Qwen3Asr.AudioNormalize

def sampleRateHz : Nat := 16000

inductive AudioInput (K : Type) where
  | path (path : String)
  | url (url : String)
  | base64 (b64 : String)
  | waveform (samples : List K) (sampleRate : Nat)
  deriving DecidableEq, Repr

structure AudioCodec (K : Type) where
  decodePath : String → Except String (List K × Nat)
  decodeUrl : String → Except String (List K × Nat)
  decodeBase64 : String → Except String (List K × Nat)
  resampleMono : List K → Nat → Nat → Except String (List K)

variable {K : Type} [Field K] [LinearOrder K]

def decoded (codec : AudioCodec K) : AudioInput K → Except String (List K × Nat)
  | .waveform samples sampleRate => .ok (samples,sampleRate)
  | .path path => codec.decodePath path
  | .url url => codec.decodeUrl url
  | .base64 b64 => codec.decodeBase64 b64

def peakOf (wav : List K) : K := wav.foldl (fun m x => if m < |x| then |x| else m) 0

def clampUnit (x : K) : K := max (-1) (min 1 x)

/- Only a peak above one is scaled down. -/
def scaled (wav : List K) : List K :=
  let peak := peakOf wav
  (if 1 < peak then wav.map (·/peak) else wav).map clampUnit

def normalizeAudioInput (codec : AudioCodec K) (input : AudioInput K) : Except String (List K) := do
  let (wav,sr) ← decoded codec input
  if wav = [] then .ok wav else
  if sr = sampleRateHz then .ok (scaled wav) else
  if sr = 0 then .error "invalid sample_rate=0" else
  codec.resampleMono (scaled wav) sr sampleRateHz

theorem peakLe {wav : List K} {bound m : K} (start : m ≤ bound) (all : ∀ x ∈ wav, |x| ≤ bound) :
    wav.foldl (fun m x => if m < |x| then |x| else m) m ≤ bound := by
  induction wav generalizing m with
  | nil => exact start
  | cons x wav ih =>
    refine ih ?_ fun y inside => all y (List.mem_cons_of_mem _ inside)
    dsimp only
    split
    · exact all x List.mem_cons_self
    · exact start

theorem normalizeInRange [IsStrictOrderedRing K] (codec : AudioCodec K) {samples : List K}
    (range : ∀ x ∈ samples, |x| ≤ 1) :
    normalizeAudioInput codec (.waveform samples sampleRateHz) = .ok samples := by
  have quiet : ¬ 1 < peakOf samples := not_lt.mpr (peakLe zero_le_one range)
  have kept : samples.map clampUnit = samples := by
    conv_rhs => rw [← List.map_id samples]
    refine List.map_congr_left fun x inside => ?_
    obtain ⟨low,high⟩ := abs_le.mp (range x inside)
    rw [clampUnit,min_eq_right high,max_eq_right low]
    rfl
  have same : scaled samples = samples := by
    unfold scaled
    dsimp only
    rw [if_neg quiet,kept]
  change (if samples = [] then _ else _) = _
  split
  · rfl
  · rw [if_pos rfl,same]

end Qwen3Asr.AudioNormalize
