import Qwen3Asr.EncoderBlocks
import Qwen3Asr.StreamingFeatures
import Qwen3Asr.Streaming

/-! Tokens of complete segments are cached between the steps of a stream. What a step hands on is
what the encoder makes of all frames of the step. -/
namespace Qwen3Asr.EncoderCache
open Library Library.Effect Library.RunningMax Library.Word
open FeatureExtractor StreamingFeatures PromptBuilder AudioEncoder EncoderBlocks Streaming

variable {K η : Type} {setup : StreamSetup K η}

theorem segmentFlash {segmentFrames : Nat} (enabled : audioCacheSegmentFrames setup = .ok (some segmentFrames)) :
    setup.tower.useFlashAttn = true ∧ segmentFrames ≠ 0 := by
  unfold audioCacheSegmentFrames at enabled
  split at enabled
  · cases enabled
  · next flash =>
    obtain ⟨w,_,enabled⟩ := exceptBind.mp enabled
    split at enabled
    · cases enabled
    · dsimp only at enabled
      split at enabled
      · cases enabled
      · obtain ⟨n,_,enabled⟩ := exceptBind.mp enabled
        split at enabled
        · cases enabled
        · next nonzero =>
          cases Except.ok.inj enabled
          exact ⟨not_not.mp flash,nonzero⟩

theorem segmentsGo [Zero K] {g : Grid K} {v : List η} (ok : forwardOne setup.tower g = .ok v) :
    ∃ segments, audioCacheSegmentFrames setup = .ok segments := by
  unfold forwardOne at ok
  dsimp only at ok
  split at ok
  · cases ok
  · obtain ⟨w,windowed,_⟩ := exceptBind.mp ok
    unfold AudioEncoder.window at windowed
    obtain ⟨w',doubled,made⟩ := exceptBind.mp windowed
    split at made
    · cases made
    · next nonzero =>
      unfold audioCacheSegmentFrames
      split
      · exact ⟨_,rfl⟩
      · rw [okOrOk.mpr (okOrOk.mp doubled)]
        change ∃ segments, (if w' = 0 then _ else _) = Except.ok segments
        rw [if_neg nonzero]
        split
        · exact ⟨_,rfl⟩
        · have small : w'*(setup.tower.nWindowInfer/w') < 2^64 :=
            (Nat.mul_div_le _ _).trans_lt setup.tower.nWindowInferFits
          rw [okOrOk.mpr (checkedMulSome.mpr ⟨small,rfl⟩)]
          change ∃ segments, (if _ = 0 then _ else _) = Except.ok segments
          split <;> exact ⟨_,rfl⟩

theorem expectRowsOk {when_ : String} {n : Nat} {v w : List η} : expectRows when_ n v = .ok w ↔ v = w ∧ v.length = n := by
  unfold expectRows
  split
  · next differs => exact ⟨fun bad => (by cases bad),fun good => absurd good.2 differs⟩
  · next same => exact ⟨fun good => ⟨Except.ok.inj good,not_not.mp same⟩,fun good => congrArg Except.ok good.1⟩

section Direct
variable [Field K]

def encoderOutput (setup : StreamSetup K η) (features : StreamingFeatureExtractor K K) : Except String (List η) := do
  let (_,start,stop) ← stepRange setup features
  let audioFeatures ← computeAudioFeatures setup features start stop
  expectRows "" (featExtractOutputLength (stop-start)) audioFeatures

theorem encoderOutputOk {s : AudioState K η} {start stop framesTotal : Nat} (ranged : stepRange setup s.features = .ok (framesTotal,start,stop)) {w : List η} :
    encoderOutput setup s.features = .ok w ↔
      computeAudioFeatures setup s.features start stop = .ok w ∧ w.length = featExtractOutputLength (stop-start) := by
  unfold encoderOutput
  rw [ranged]
  change (computeAudioFeatures setup s.features start stop >>= expectRows "" (featExtractOutputLength (stop-start))) = .ok w ↔ _
  rw [exceptBind]
  constructor
  · intro ⟨v,made,checked⟩
    obtain ⟨rfl,counted⟩ := expectRowsOk.mp checked
    exact ⟨made,counted⟩
  · intro ⟨made,counted⟩
    exact ⟨w,made,expectRowsOk.mpr ⟨rfl,counted⟩⟩

def direct (setup : StreamSetup K η) (features : StreamingFeatureExtractor K K) (when_ : String) (start stop : Nat) :
    EStateM String (AudioState K η) (List η) := do
  let audioFeatures ← attempt (computeAudioFeatures setup features start stop)
  attempt (expectRows when_ (featExtractOutputLength (stop-start)) audioFeatures)

theorem directOutcome {when_ : String} {start stop : Nat} {features : StreamingFeatureExtractor K K} {t : AudioState K η} {w : List η} :
    outcome (direct setup features when_ start stop t) = .ok w ↔
      computeAudioFeatures setup features start stop = .ok w ∧ w.length = featExtractOutputLength (stop-start) := by
  rw [outcomeOk]
  constructor
  · intro ⟨u,ok⟩
    obtain ⟨v,_,made,checked⟩ := bindOk.mp ok
    obtain ⟨rfl,counted⟩ := expectRowsOk.mp (attemptOk.mp checked).1
    exact ⟨(attemptOk.mp made).1,counted⟩
  · intro ⟨made,counted⟩
    exact ⟨t,bindOk.mpr ⟨w,t,attemptOk.mpr ⟨made,rfl⟩,attemptOk.mpr ⟨expectRowsOk.mpr ⟨rfl,counted⟩,rfl⟩⟩⟩

theorem directLeaves {when_ : String} {start stop : Nat} {features : StreamingFeatureExtractor K K} (t : AudioState K η) :
    after (direct setup features when_ start stop t) = t :=
  (withinBind (R := (· = ·)) (withinAttempt _) (fun _ => withinAttempt _) t).symm

end Direct

variable [Field K] [LinearOrder K]

/- A history of audio handed to the extractor and of steps taken, whatever became of the steps. -/
inductive History (setup : StreamSetup K η) : List K → AudioState K η → Prop where
  | start : History setup [] ⟨newExtractor,none⟩
  | append {wav : List K} {s : AudioState K η} {features : StreamingFeatureExtractor K K} (samples : List K) (earlier : History setup wav s)
      (ok : appendSamples setup.logMel samples s.features = .ok () features) :
      History setup (wav ++ samples) {s with features}
  | step {wav : List K} {s : AudioState K η} (earlier : History setup wav s) : History setup wav (after (audioFeaturesForStep setup s))

section Matrix

def frameMatrix (setup : StreamSetup K η) (wav : List K) : Grid K where
  rows := (extractFeatures setup.logMel wav).inputFeatures
  width := wav.length/hopLength
  rectangular row inside := by
    rw [extractedRows] at inside
    obtain ⟨raw,there,rfl⟩ := List.mem_map.mp inside
    rw [List.length_map]
    rcases Nat.eq_zero_or_pos wav.length with empty | nonempty
    · rw [empty,Nat.zero_div,melRowsNone] at there
      rw [List.eq_of_mem_replicate there,empty]
      rfl
    · exact melRowLength nonempty there

theorem frameMatrixRows (wav : List K) : (frameMatrix setup wav).rows.length = featureSize := by
  change (extractFeatures setup.logMel wav).inputFeatures.length = _
  rw [extractedRows,compressedLength,melRowsLength]

theorem featureDimsExtracted (wav : List K) :
    featureDims (extracted setup.logMel wav) = .ok (featureSize,wav.length/hopLength) := by
  have rows : (extracted setup.logMel wav).inputFeatures.length = featureSize := frameMatrixRows wav
  have lengths (row : List K) (inside : row ∈ (extracted setup.logMel wav).inputFeatures) : row.length = wav.length/hopLength :=
    (frameMatrix setup wav).rectangular row inside
  have first : ((extracted setup.logMel wav).inputFeatures.headD []).length = wav.length/hopLength := by
    cases listed : (extracted setup.logMel wav).inputFeatures with
    | nil =>
      rw [listed] at rows
      cases rows
    | cons row rest => exact lengths row (by rw [listed]; exact List.mem_cons_self)
  have mask : (extracted setup.logMel wav).featureAttentionMask.length = wav.length/hopLength := by
    rw [extracted,extractedMask,List.length_replicate]
  unfold featureDims
  dsimp only
  rw [rows,if_neg (by decide),first,mask]
  refine exceptBind.mpr ⟨_,(exceptMapIdxChecked (P := fun row => row.length = wav.length/hopLength) (g := fun _ => ())
    fun row i found b => ?_).mpr ⟨lengths,rfl⟩,if_neg (not_not.mpr rfl)⟩
  dsimp only
  split
  · next differs => exact ⟨fun bad => (by cases bad),fun good => absurd good.1 differs⟩
  · next same => exact ⟨fun good => ⟨not_not.mp same,Except.ok.inj good⟩,fun good => congrArg Except.ok good.2⟩

def encodeRange (setup : StreamSetup K η) (wav : List K) (start stop : Nat) : Except String (List η) :=
  forwardOne setup.tower ((frameMatrix setup wav).columns start (stop-start))

theorem computeExtracted {wav : List K} (fits : wav.length ≤ maxWavLen) {start stop : Nat} (some_ : start < stop)
    (within : stop ≤ wav.length/hopLength) {v : List η} :
    computeAudioFeatures setup (extracted setup.logMel wav) start stop = .ok v ↔ encodeRange setup wav start stop = .ok v := by
  have width : ((frameMatrix setup wav).columns start (stop-start)).width = stop-start := Grid.columnsWidth within
  have rows : ((frameMatrix setup wav).columns start (stop-start)).rows.length = (frameMatrix setup wav).rows.length := by
    simp [Grid.columns]
  have tensor : buildFeatureTensors (extracted setup.logMel wav) start stop =
      .ok ((frameMatrix setup wav).columns start (stop-start),stop-start) := by
    have small : featureSize*(stop-start) < 2^64 := by
      unfold featureSize
      unfold maxWavLen nFft at fits
      unfold hopLength at within
      omega
    have real : (((extracted setup.logMel wav).featureAttentionMask.drop start).take (stop-start)).countP (· ≠ 0) = stop-start := by
      rw [extracted,extractedMask,List.drop_replicate,List.take_replicate,List.countP_replicate]
      simp
      omega
    unfold buildFeatureTensors
    refine exceptBind.mpr ⟨_,featureDimsExtracted wav,?_⟩
    dsimp only
    rw [if_neg (by omega),if_neg (by omega)]
    refine exceptBind.mpr ⟨_,okOrOk.mpr (checkedMulSome.mpr ⟨small,rfl⟩),exceptBind.mpr ⟨_,okOrOk.mpr (Grid.ofRowsSome.mpr ⟨rfl,width,?_⟩),?_⟩⟩
    · intro row inside
      exact (((frameMatrix setup wav).columns start (stop-start)).rectangular row inside).trans width
    · rw [real]
  unfold computeAudioFeatures encodeRange
  rw [tensor]
  change forwardWithLens setup.tower _ (stop-start) = .ok v ↔ _
  unfold forwardWithLens
  rw [width]
  split
  · next bins =>
    refine ⟨fun bad => (by cases bad),fun ok => ?_⟩
    unfold forwardOne at ok
    rw [if_pos bins] at ok
    cases ok
  · have whole := Grid.columnsWhole ((frameMatrix setup wav).columns start (stop-start))
    rw [width] at whole
    rw [if_neg (Nat.lt_irrefl _),if_neg (by omega),whole]

/- Frames before the last one are as they were, as long as the loudest value is. -/
theorem encodeStable {old rest : List K} {r : Nat} (before : r+1 ≤ old.length/hopLength)
    (loudest : (extracted setup.logMel (old ++ rest)).compressedMaxLog = (extracted setup.logMel old).compressedMaxLog) :
    encodeRange setup (old ++ rest) 0 r = encodeRange setup old 0 r := by
  have grown : old.length/hopLength ≤ (old ++ rest).length/hopLength := Nat.div_le_div_right (by simp)
  have taken (wav : List K) (within : r ≤ wav.length/hopLength) : ((frameMatrix setup wav).columns 0 (r-0)).rows =
      (melRows setup.logMel wav r).map (List.map fun v =>
        compressLogMel v (floorOf (extracted setup.logMel wav).compressedMaxLog)) := by
    change (extractFeatures setup.logMel wav).inputFeatures.map (fun row => (row.drop 0).take (r-0)) = _
    rw [extractedRows,← melRowsTake wav within,compressed,List.map_map,List.map_map]
    exact List.map_congr_left fun row _ => (List.map_take).symm
  have same : (frameMatrix setup (old ++ rest)).columns 0 (r-0) = (frameMatrix setup old).columns 0 (r-0) := by
    refine Grid.ext ?_ ?_
    · rw [taken _ (by omega),taken _ (by omega),melRowsStable rest (Or.inl before),loudest]
    · rw [Grid.columnsWidth (by change r ≤ (old ++ rest).length/hopLength; omega),
        Grid.columnsWidth (by change r ≤ old.length/hopLength; omega)]
  unfold encodeRange
  rw [same]

end Matrix

section Blocks
variable {segmentFrames : Nat} {wav : List K}

theorem splitWidths (setup : StreamSetup K η) (start : Nat) {middle stop : Nat} (second : middle < stop)
    (within : stop ≤ wav.length/hopLength) :
    ((frameMatrix setup wav).columns start (middle-start)).width = middle-start ∧
      ((frameMatrix setup wav).columns middle (stop-middle)).width = stop-middle :=
  ⟨Grid.columnsWidth (second.le.trans within),Grid.columnsWidth within⟩

theorem rangeSplit (independent : BlockIndependent setup.tower segmentFrames) {start middle stop : Nat} (first : start < middle)
    (second : middle < stop) (within : stop ≤ wav.length/hopLength) (whole : segmentFrames ∣ middle-start) {v : List η}
    (ok : encodeRange setup wav start stop = .ok v) :
    ∃ a b, encodeRange setup wav start middle = .ok a ∧ encodeRange setup wav middle stop = .ok b ∧ v = a ++ b := by
  obtain ⟨width,width'⟩ := splitWidths setup start second within
  unfold encodeRange at ok
  rw [← Grid.columnsAppend (frameMatrix setup wav) first.le second.le within] at ok
  exact independent.split _ _ (by simp [Grid.columns]) (by rwa [width]) (by omega) (by omega) v ok

theorem rangeJoin (independent : BlockIndependent setup.tower segmentFrames) {start middle stop : Nat} (first : start < middle)
    (second : middle < stop) (within : stop ≤ wav.length/hopLength) (whole : segmentFrames ∣ middle-start) {a b : List η}
    (left : encodeRange setup wav start middle = .ok a) (right : encodeRange setup wav middle stop = .ok b)
    (places : Placed setup.tower (stop-start)) : encodeRange setup wav start stop = .ok (a ++ b) := by
  obtain ⟨width,width'⟩ := splitWidths setup start second within
  unfold encodeRange
  rw [← Grid.columnsAppend (frameMatrix setup wav) first.le second.le within]
  refine independent.join _ _ (by simp [Grid.columns]) (by rwa [width]) (by omega) (by omega) a b left right ?_
  rw [width,width',show middle-start+(stop-middle) = stop-start by omega]
  exact places

theorem rangeLength (flash : setup.tower.useFlashAttn = true) {start stop : Nat} (some_ : start < stop)
    (within : stop ≤ wav.length/hopLength) {v : List η} (ok : encodeRange setup wav start stop = .ok v) :
    v.length = featExtractOutputLength (stop-start) := by
  have width : ((frameMatrix setup wav).columns start (stop-start)).width = stop-start := Grid.columnsWidth within
  rw [forwardOneLength flash (by omega) ok,width]

/- Tokens that stand for the first frames of some audio: all of them, and those of every whole number of segments. -/
structure Encodes (setup : StreamSetup K η) (segmentFrames : Nat) (wav : List K) (v : List η) : Prop where
  whole : ∀ w, encodeRange setup wav 0 (wav.length/hopLength) = .ok w → v = w
  blocks : ∀ r, segmentFrames ∣ r → 0 < r → r ≤ wav.length/hopLength → ∀ a, encodeRange setup wav 0 r = .ok a →
    v.take (featExtractOutputLength r) = a
  encoded : (∀ n, n ≤ wav.length/hopLength → 0 < n → Placed setup.tower n) → encodeRange setup wav 0 (wav.length/hopLength) = .ok v

theorem encodesWhole (flash : setup.tower.useFlashAttn = true) (independent : BlockIndependent setup.tower segmentFrames)
    {v : List η} (ok : encodeRange setup wav 0 (wav.length/hopLength) = .ok v) : Encodes setup segmentFrames wav v where
  whole w again := Except.ok.inj (ok.symm.trans again)
  blocks r segments positive within a part := by
    rcases Nat.lt_or_ge r (wav.length/hopLength) with before | last
    · obtain ⟨a',b,left,_,rfl⟩ := rangeSplit independent positive before (Nat.le_refl _) (by rwa [Nat.sub_zero]) ok
      cases left.symm.trans part
      have length := rangeLength flash positive within left
      rw [Nat.sub_zero] at length
      rw [List.take_left' length]
    · obtain rfl : r = wav.length/hopLength := by omega
      cases ok.symm.trans part
      have length := rangeLength flash positive within ok
      rw [Nat.sub_zero] at length
      rw [List.take_of_length_le (Nat.le_of_eq length)]
  encoded _ := ok

theorem featLengthMono {m n : Nat} (fewer : m ≤ n) (small : n < 2^63) :
    featExtractOutputLength m ≤ featExtractOutputLength n := by
  rw [featLengthIs (by omega),featLengthIs small]
  omega

theorem encodesResumed (flash : setup.tower.useFlashAttn = true) (independent : BlockIndependent setup.tower segmentFrames)
    {old rest : List K} {v tail : List η} {r : Nat} (fits : (old ++ rest).length ≤ maxWavLen) (before : Encodes setup segmentFrames old v)
    (segments : segmentFrames ∣ r) (positive : 0 < r) (stable : r+1 ≤ old.length/hopLength)
    (loudest : (extracted setup.logMel (old ++ rest)).compressedMaxLog = (extracted setup.logMel old).compressedMaxLog)
    (enough : featExtractOutputLength r ≤ v.length)
    (ok : encodeRange setup (old ++ rest) r ((old ++ rest).length/hopLength) = .ok tail) :
    Encodes setup segmentFrames (old ++ rest) (v.take (featExtractOutputLength r) ++ tail) := by
  have grown : old.length/hopLength ≤ (old ++ rest).length/hopLength := Nat.div_le_div_right (by simp)
  have kept (s : Nat) (segments : segmentFrames ∣ s) (positive : 0 < s) (within : s ≤ r) {a : List η}
      (part : encodeRange setup (old ++ rest) 0 s = .ok a) : v.take (featExtractOutputLength s) = a := by
    rw [encodeStable (by omega) loudest] at part
    exact before.blocks s segments positive (by omega) a part
  have first {s : Nat} (after : r < s) (within : s ≤ (old ++ rest).length/hopLength) {w : List η}
      (part : encodeRange setup (old ++ rest) 0 s = .ok w) : ∃ b, encodeRange setup (old ++ rest) r s = .ok b ∧
        v.take (featExtractOutputLength r) ++ b = w := by
    obtain ⟨a,b,left,right,rfl⟩ := rangeSplit independent positive after within (by rwa [Nat.sub_zero]) part
    exact ⟨b,right,by rw [kept r segments positive (Nat.le_refl _) left]⟩
  have small : r < 2^63 := by
    unfold maxWavLen nFft at fits
    unfold hopLength at grown stable
    omega
  refine ⟨fun w whole => ?_,fun s segments' positive' within a part => ?_,fun places => ?_⟩
  · obtain ⟨b,right,same⟩ := first (by omega) (Nat.le_refl _) whole
    cases ok.symm.trans right
    exact same
  · rcases Nat.lt_or_ge r s with after | within'
    · obtain ⟨b,right,same⟩ := first after within part
      have length := rangeLength flash positive' within part
      rw [Nat.sub_zero] at length
      rcases Nat.lt_or_ge s ((old ++ rest).length/hopLength) with inner | last
      · obtain ⟨b',c,left,_,rfl⟩ := rangeSplit independent after inner (Nat.le_refl _) (Nat.dvd_sub segments' segments) ok
        cases left.symm.trans right
        rw [← List.append_assoc,same,List.take_left' length]
      · obtain rfl : s = (old ++ rest).length/hopLength := by omega
        cases ok.symm.trans right
        rw [same,List.take_of_length_le (Nat.le_of_eq length)]
    · have shorter := featLengthMono within' small
      rw [List.take_append_of_le_length (by rw [List.length_take]; omega),List.take_take,Nat.min_eq_left shorter]
      exact kept s segments' positive' within' part
  · have whole := before.encoded fun n within some_ => places n (by omega) some_
    obtain ⟨a,b,left,_,rfl⟩ := rangeSplit independent positive stable (Nat.le_refl _) (by rwa [Nat.sub_zero]) whole
    have length := rangeLength flash positive (by omega) left
    rw [Nat.sub_zero] at length
    rw [List.take_left' length]
    rw [← encodeStable stable loudest] at left
    exact rangeJoin independent positive (by omega) (Nat.le_refl _) (by rwa [Nat.sub_zero]) left ok (places _ (by omega) (by omega))

end Blocks

section Steps
variable {s : AudioState K η} {wav : List K}

/- The cache stands for the audio of an earlier step. -/
def Cached (setup : StreamSetup K η) (wav : List K) (cache : AudioFeaturesCache K η) : Prop :=
  ∃ segmentFrames old rest, audioCacheSegmentFrames setup = .ok (some segmentFrames) ∧ wav = old ++ rest ∧
    cache.frames = old.length/hopLength ∧ cache.wavLenSamples = old.length ∧
    cache.compressedMaxLog = (extracted setup.logMel old).compressedMaxLog ∧
    Encodes setup segmentFrames old cache.audioFeatures

structure Sound (setup : StreamSetup K η) (wav : List K) (s : AudioState K η) : Prop where
  features : s.features = extracted setup.logMel wav
  fits : wav.length ≤ maxWavLen
  cache : ∀ cache, s.audioCache = some cache → Cached setup wav cache

theorem cachedLater {cache : AudioFeaturesCache K η} (cached : Cached setup wav cache) (samples : List K) :
    Cached setup (wav ++ samples) cache := by
  obtain ⟨segmentFrames,old,rest,enabled,rfl,facts⟩ := cached
  exact ⟨segmentFrames,old,rest ++ samples,enabled,List.append_assoc _ _ _,facts⟩

variable {segmentFrames : Nat}

/- What a step without a hit makes, stands for the audio so far; and it makes it where the encoder can. -/
theorem freshSound (sound : Sound setup wav s) (enabled : audioCacheSegmentFrames setup = .ok (some segmentFrames))
    (independent : BlockIndependent setup.tower segmentFrames) (some_ : 0 < wav.length/hopLength) :
    (∀ v, freshFeatures setup s segmentFrames (wav.length/hopLength) = .ok v → Encodes setup segmentFrames wav v) ∧
    (∀ w, encodeRange setup wav 0 (wav.length/hopLength) = .ok w →
      freshFeatures setup s segmentFrames (wav.length/hopLength) = .ok w) := by
  obtain ⟨flash,nonzero⟩ := segmentFlash enabled
  have full : (∀ v, computeAudioFeatures setup s.features 0 (wav.length/hopLength) = .ok v → Encodes setup segmentFrames wav v) ∧
      (∀ w, encodeRange setup wav 0 (wav.length/hopLength) = .ok w →
        computeAudioFeatures setup s.features 0 (wav.length/hopLength) = .ok w) := by
    rw [sound.features]
    exact ⟨fun v ok => encodesWhole flash independent ((computeExtracted sound.fits some_ (Nat.le_refl _)).mp ok),
      fun w ok => (computeExtracted sound.fits some_ (Nat.le_refl _)).mpr ok⟩
  unfold freshFeatures
  cases held : s.audioCache with
  | none => exact full
  | some cache =>
    obtain ⟨segmentFrames',old,rest,enabled',rfl,frames,_,loud,encodes⟩ := sound.cache cache held
    cases enabled.symm.trans enabled'
    dsimp only
    split
    · exact full
    · next usable =>
      split
      · exact full
      · next positive =>
        rw [not_or,not_not] at usable
        have loudest : (extracted setup.logMel (old ++ rest)).compressedMaxLog = (extracted setup.logMel old).compressedMaxLog := by
          rw [← loud,usable.1,sound.features]
        generalize cut : recomputeFromForStreamAppend cache.frames segmentFrames = r at positive ⊢
        rw [recomputeFromForStreamAppend,if_neg nonzero] at cut
        have segments : segmentFrames ∣ r := ⟨_,by rw [← cut,Nat.mul_comm]⟩
        have stable : r+1 ≤ old.length/hopLength := by
          have below := Nat.div_mul_le_self (cache.frames-1) segmentFrames
          omega
        have grown : old.length/hopLength ≤ (old ++ rest).length/hopLength := Nat.div_le_div_right (by simp)
        unfold resumedFeatures
        rw [if_neg (by omega)]
        constructor
        · intro v ok
          dsimp only at ok
          split at ok
          · cases ok
          · next enough =>
            obtain ⟨tail,made,ok⟩ := exceptBind.mp ok
            cases Except.ok.inj ok
            rw [sound.features] at made
            exact encodesResumed flash independent sound.fits encodes segments (Nat.pos_of_ne_zero positive) stable loudest
              (Nat.not_lt.mp enough) ((computeExtracted sound.fits (by omega) (Nat.le_refl _)).mp made)
        · intro w whole
          obtain ⟨a,b,left,right,rfl⟩ := rangeSplit independent (Nat.pos_of_ne_zero positive) (by omega) (Nat.le_refl _)
            (by rwa [Nat.sub_zero]) whole
          have length := rangeLength flash (Nat.pos_of_ne_zero positive) (by omega) left
          rw [Nat.sub_zero] at length
          rw [encodeStable stable loudest] at left
          have kept := encodes.blocks r segments (Nat.pos_of_ne_zero positive) (by omega) a left
          have enough : featExtractOutputLength r ≤ cache.audioFeatures.length := by
            rw [← length,← kept]
            exact List.length_take_le' _ _
          dsimp only
          rw [if_neg (Nat.not_lt.mpr enough),sound.features]
          refine exceptBind.mpr ⟨b,(computeExtracted sound.fits (by omega) (Nat.le_refl _)).mpr right,?_⟩
          rw [kept]

theorem hitSound {v : List η} (sound : Sound setup wav s) (enabled : audioCacheSegmentFrames setup = .ok (some segmentFrames))
    (hit : cacheHit s (wav.length/hopLength) = some v) : Encodes setup segmentFrames wav v := by
  unfold cacheHit at hit
  cases held : s.audioCache with
  | none => rw [held] at hit; cases hit
  | some cache =>
    rw [held] at hit
    dsimp only at hit
    split at hit
    · next same =>
      cases hit
      obtain ⟨segmentFrames',old,rest,enabled',rfl,_,samples,_,encodes⟩ := sound.cache cache held
      cases enabled.symm.trans enabled'
      have all : s.features.wav.length = (old ++ rest).length := by rw [sound.features]; rfl
      have none : rest = [] := by
        refine List.length_eq_zero_iff.mp ?_
        have counted := same.2.1
        rw [samples,all,List.length_append] at counted
        omega
      rw [none,List.append_nil]
      exact encodes
    · cases hit

theorem stepRangeOk {framesTotal start stop : Nat} (sound : Sound setup wav s)
    (ranged : stepRange setup s.features = .ok (framesTotal,start,stop)) :
    framesTotal = wav.length/hopLength ∧ 0 < framesTotal := by
  unfold stepRange at ranged
  rw [sound.features,featureDimsExtracted] at ranged
  change (if wav.length/hopLength = 0 then _ else _) = _ at ranged
  split at ranged
  · cases ranged
  · next some_ =>
    obtain ⟨⟨start',stop'⟩,_,ranged⟩ := exceptBind.mp ranged
    dsimp only at ranged
    split at ranged
    · cases ranged
    · cases Except.ok.inj ranged
      exact ⟨rfl,Nat.pos_of_ne_zero some_⟩

structure Agrees (setup : StreamSetup K η) (wav : List K) (s : AudioState K η)
    (r : EStateM.Result String (AudioState K η) (List η)) : Prop where
  sound : Sound setup wav (after r)
  handsOn : ∀ w, encoderOutput setup s.features = .ok w → outcome r = .ok w
  encoded : ∀ v, outcome r = .ok v → (∀ n, n ≤ wav.length/hopLength → 0 < n → Placed setup.tower n) →
    encoderOutput setup s.features = .ok v

theorem directAgrees {framesTotal start stop : Nat} (when_ : String) (ranged : stepRange setup s.features = .ok (framesTotal,start,stop))
    {t : AudioState K η} (sound : Sound setup wav t) :
    Agrees setup wav s (direct setup s.features when_ start stop t) where
  sound := by
    rw [directLeaves]
    exact sound
  handsOn w ok := directOutcome.mpr ((encoderOutputOk ranged).mp ok)
  encoded v ok _ := (encoderOutputOk ranged).mpr (directOutcome.mp ok)

def cachedStep (setup : StreamSetup K η) (state : AudioState K η) (segmentFrames framesTotal expectedTokens : Nat) :
    EStateM String (AudioState K η) (List η) :=
  match cacheHit state framesTotal with
  | some audioFeatures => pure audioFeatures
  | none => do
    let audioFeatures ← attempt (freshFeatures setup state segmentFrames framesTotal)
    let audioFeatures ← attempt (expectRows " after caching" expectedTokens audioFeatures)
    let cache := ⟨framesTotal,state.features.wav.length,state.features.compressedMaxLog,audioFeatures⟩
    modify ({· with audioCache := some cache})
    pure audioFeatures

theorem cachedAgrees {segmentFrames : Nat} (sound : Sound setup wav s)
    (ranged : stepRange setup s.features = .ok (wav.length/hopLength,0,wav.length/hopLength))
    (enabled : audioCacheSegmentFrames setup = .ok (some segmentFrames))
    (independent : BlockIndependent setup.tower segmentFrames) : Agrees setup wav s
      (cachedStep setup s segmentFrames (wav.length/hopLength) (featExtractOutputLength (wav.length/hopLength-0)) s) := by
  have some_ := (stepRangeOk sound ranged).2
  obtain ⟨flash,_⟩ := segmentFlash enabled
  have output (w : List η) : encoderOutput setup s.features = .ok w ↔ encodeRange setup wav 0 (wav.length/hopLength) = .ok w := by
    rw [encoderOutputOk ranged,sound.features,computeExtracted sound.fits some_ (Nat.le_refl _)]
    exact and_iff_left_of_imp fun ok => rangeLength flash some_ (Nat.le_refl _) ok
  unfold cachedStep
  cases hit : cacheHit s (wav.length/hopLength) with
  | some v =>
    have encodes := hitSound sound enabled hit
    refine ⟨sound,fun w ok => ?_,fun v' ok places => ?_⟩
    · exact congrArg Except.ok (encodes.whole w ((output w).mp ok))
    · obtain rfl : v = v' := Except.ok.inj ok
      exact (output v).mpr (encodes.encoded places)
  | none =>
    obtain ⟨stands,goes⟩ := freshSound sound enabled independent some_
    dsimp only
    cases made : freshFeatures setup s segmentFrames (wav.length/hopLength) with
    | error e =>
      refine ⟨sound,fun w ok => ?_,fun v ok => (by cases ok)⟩
      cases made.symm.trans (goes w ((output w).mp ok))
    | ok v =>
      have encodes := stands v made
      rw [attemptThen rfl]
      cases checked : expectRows " after caching" (featExtractOutputLength (wav.length/hopLength-0)) v with
      | error e =>
        refine ⟨sound,fun w ok => ?_,fun v ok => (by cases ok)⟩
        have whole := (output w).mp ok
        cases made.symm.trans (goes w whole)
        cases checked.symm.trans (expectRowsOk.mpr ⟨rfl,rangeLength flash some_ (Nat.le_refl _) whole⟩)
      | ok v' =>
        obtain ⟨rfl,_⟩ := expectRowsOk.mp checked
        rw [attemptThen rfl,bindThen (modifyRun _ _)]
        refine ⟨⟨sound.features,sound.fits,fun cache held => ?_⟩,fun w ok => ?_,fun v' ok places => ?_⟩
        · cases held
          rw [sound.features]
          exact ⟨segmentFrames,wav,[],enabled,(List.append_nil wav).symm,rfl,rfl,rfl,encodes⟩
        · exact congrArg Except.ok (encodes.whole w ((output w).mp ok))
        · obtain rfl : v = v' := Except.ok.inj ok
          exact (output v).mpr (encodes.encoded places)

theorem stepAgrees (sound : Sound setup wav s)
    (independent : ∀ segmentFrames, audioCacheSegmentFrames setup = .ok (some segmentFrames) →
      BlockIndependent setup.tower segmentFrames) : Agrees setup wav s (audioFeaturesForStep setup s) := by
  unfold audioFeaturesForStep
  rw [bindThen (getRun s)]
  cases ranged : stepRange setup s.features with
  | error e =>
    refine ⟨sound,fun w ok => ?_,fun v ok => (by cases ok)⟩
    unfold encoderOutput at ok
    rw [ranged] at ok
    cases ok
  | ok range =>
    obtain ⟨framesTotal,start,stop⟩ := range
    obtain ⟨rfl,some_⟩ := stepRangeOk sound ranged
    rw [attemptThen rfl]
    dsimp only
    split
    · rw [bindThen (modifyRun _ _)]
      exact directAgrees " (windowed)" ranged ⟨sound.features,sound.fits,fun cache held => (by cases held)⟩
    · next entire =>
      obtain ⟨rfl,rfl⟩ : start = 0 ∧ stop = wav.length/hopLength := by omega
      cases enabled : audioCacheSegmentFrames setup with
      | error e =>
        refine ⟨sound,fun w ok => ?_,fun v ok => (by cases ok)⟩
        obtain ⟨made,_⟩ := (encoderOutputOk ranged).mp ok
        rw [sound.features] at made
        obtain ⟨_,known⟩ := segmentsGo ((computeExtracted sound.fits some_ (Nat.le_refl _)).mp made)
        cases enabled.symm.trans known
      | ok segments =>
        rw [attemptThen rfl]
        cases segments with
        | none => exact directAgrees "" ranged sound
        | some segmentFrames => exact cachedAgrees sound ranged enabled (independent segmentFrames enabled)

theorem historySound (independent : ∀ segmentFrames, audioCacheSegmentFrames setup = .ok (some segmentFrames) →
      BlockIndependent setup.tower segmentFrames) (history : History setup wav s) : Sound setup wav s := by
  induction history with
  | start => exact ⟨extractedNil.symm,Nat.zero_le _,fun cache held => (by cases held)⟩
  | append samples _ ok ih =>
    rw [ih.features] at ok
    rcases Nat.lt_or_ge maxWavLen (_ ++ samples).length with long | short
    · exact absurd ok (appendTooLong ih.fits long)
    · rw [appendGoes short] at ok
      cases ok
      exact ⟨rfl,short,fun cache held => cachedLater (ih.cache cache held) samples⟩
  | step _ ih => exact (stepAgrees ih independent).sound

/-- After any history a step hands on what the encoder makes of all frames of the step; what it hands on,
the encoder makes wherever it can place the tokens. -/
theorem audioFeaturesAgree (independent : ∀ segmentFrames, audioCacheSegmentFrames setup = .ok (some segmentFrames) →
      BlockIndependent setup.tower segmentFrames) (history : History setup wav s) :
    (∀ w, encoderOutput setup s.features = .ok w → outcome (audioFeaturesForStep setup s) = .ok w) ∧
    (∀ v, outcome (audioFeaturesForStep setup s) = .ok v →
      (∀ n, n ≤ wav.length/hopLength → 0 < n → Placed setup.tower n) → encoderOutput setup s.features = .ok v) := by
  have agrees := stepAgrees (historySound independent history) independent
  exact ⟨agrees.handsOn,agrees.encoded⟩

section Resumed
variable {segmentFrames : Nat}

theorem stepRangeWhole (unwindowed : setup.audioWindowFrames = .ok none) (some_ : 0 < wav.length/hopLength) :
    stepRange setup (extracted setup.logMel wav) = .ok (wav.length/hopLength,0,wav.length/hopLength) := by
  unfold stepRange
  rw [featureDimsExtracted]
  refine exceptBind.mpr ⟨_,rfl,?_⟩
  dsimp only
  rw [if_neg (Nat.ne_of_gt some_),framesRangeForStep,unwindowed]
  exact if_neg (Nat.ne_of_gt some_)

theorem stepWhole (sound : Sound setup wav s) (unwindowed : setup.audioWindowFrames = .ok none)
    (enabled : audioCacheSegmentFrames setup = .ok (some segmentFrames)) (some_ : 0 < wav.length/hopLength) :
    audioFeaturesForStep setup s = cachedStep setup s segmentFrames (wav.length/hopLength)
      (featExtractOutputLength (wav.length/hopLength)) s := by
  have ranged : stepRange setup s.features = .ok (wav.length/hopLength,0,wav.length/hopLength) := by
    rw [sound.features,stepRangeWhole unwindowed some_]
  unfold audioFeaturesForStep
  rw [bindThen (getRun s),ranged,attemptThen rfl]
  dsimp only
  rw [if_neg (by omega),enabled,attemptThen rfl]
  rfl

theorem cachedKeeps {framesTotal expectedTokens : Nat} {v : List η}
    (ok : outcome (cachedStep setup s segmentFrames framesTotal expectedTokens s) = .ok v) :
    ∃ cache, (after (cachedStep setup s segmentFrames framesTotal expectedTokens s)).audioCache = some cache ∧
      cache.frames = framesTotal ∧ cache.compressedMaxLog = s.features.compressedMaxLog ∧ cache.audioFeatures = v := by
  unfold cachedStep at ok ⊢
  cases hit : cacheHit s framesTotal with
  | some kept =>
    rw [hit] at ok
    cases ok
    unfold cacheHit at hit
    cases held : s.audioCache with
    | none => rw [held] at hit; cases hit
    | some cache =>
      rw [held] at hit
      dsimp only at hit
      split at hit
      · next same => exact ⟨cache,held,same.1,same.2.2,Option.some.inj hit⟩
      · cases hit
  | none =>
    rw [hit] at ok
    dsimp only at ok ⊢
    obtain ⟨t,ok⟩ := outcomeOk.mp ok
    obtain ⟨made,_,fresh,ok⟩ := bindOk.mp ok
    obtain ⟨_,rfl⟩ := attemptOk.mp fresh
    obtain ⟨rows,_,checked,ok⟩ := bindOk.mp ok
    obtain ⟨_,rfl⟩ := attemptOk.mp checked
    rw [bindThen fresh,bindThen checked,bindThen (modifyRun _ _)]
    rw [bindThen (modifyRun _ _)] at ok
    cases ok
    exact ⟨_,rfl,rfl,rfl,rfl⟩

end Resumed

def numberedSetup : StreamSetup ℚ Nat where
  logMel _ _ := 0
  tower := ⟨featureSize,50,100,by decide,13,true,.ok (),fun _ place => place,[]⟩
  audioWindowFrames := .ok none
  encode _ := .ok []
  decode _ := .ok ""
  generateIds _ _ _ := .ok []
  parseAsrOutput raw := ("",raw)
  audioTokenId := 0
  promptRaw := ""
  chunkSizeSamples := 320
  chunkPositive := by decide
  unfixedChunkNum := 0
  unfixedTokenNum := 0
  textWindowTokens := none

theorem numberedHidden (rows : List (List ℚ)) (offset : Nat) (lengths : List Nat) :
    hiddenStates numberedSetup.tower 100 rows offset lengths = (lengths.map fun len => List.range (featExtractOutputLength len)).flatten := by
  induction lengths generalizing offset with
  | nil => rfl
  | cons len lengths ih =>
    rw [hiddenStates,ih,List.map_cons,List.flatten_cons]
    exact congrArg (· ++ _) (List.map_id _)

theorem numberedEntry {wav : List ℚ} {n : Nat} (some_ : 0 < n) (nonempty : 0 < wav.length) (v : ℚ) :
    (∃ row ∈ melRows numberedSetup.logMel wav n, v ∈ row) ↔ v = 0 := by
  rw [melRows,dif_pos nonempty]
  constructor
  · rintro ⟨row,inside,entry⟩
    obtain ⟨_,_,rfl⟩ := List.mem_map.mp inside
    obtain ⟨_,_,rfl⟩ := List.mem_map.mp entry
    rfl
  · rintro rfl
    exact ⟨_,List.mem_map_of_mem (List.mem_range.mpr (show 0 < featureSize by decide)),
      List.mem_map.mpr ⟨0,List.mem_range.mpr some_,rfl⟩⟩

theorem numberedLoudest {old rest : List ℚ} (some_ : 0 < old.length/hopLength) :
    (extracted numberedSetup.logMel (old ++ rest)).compressedMaxLog = (extracted numberedSetup.logMel old).compressedMaxLog := by
  have nonempty : 0 < old.length := by
    by_contra empty
    rw [Nat.eq_zero_of_not_pos empty] at some_
    exact absurd some_ (by decide)
  have grown : old.length/hopLength ≤ (old ++ rest).length/hopLength := Nat.div_le_div_right (by simp)
  refine maxOverSame fun v => ?_
  rw [numberedEntry (some_.trans_le grown) (by rw [List.length_append]; omega),numberedEntry some_ nonempty]

theorem numberedEncodes {wav : List ℚ} {n : Nat} (some_ : 0 < n) (within : n ≤ wav.length/hopLength)
    (indexed : keptIndices 100 (chunkLengths n 100) = .ok ()) :
    encodeRange numberedSetup wav 0 n = .ok ((chunkLengths n 100).map fun len => List.range (featExtractOutputLength len)).flatten := by
  have width : ((frameMatrix numberedSetup wav).columns 0 (n-0)).width = n := Grid.columnsWidth within
  refine (forwardHundred rfl rfl ?_).mpr ?_
  · rwa [width]
  · rw [width]
    refine ⟨?_,(by decide),indexed,fun _ => rfl,(by decide),(by decide),numberedHidden _ 0 _⟩
    exact (List.length_map _).trans (frameMatrixRows wav)

theorem numberedApart (segmentFrames : Nat) (enabled : audioCacheSegmentFrames numberedSetup = .ok (some segmentFrames)) :
    BlockIndependent numberedSetup.tower segmentFrames := by
  have hundred : audioCacheSegmentFrames numberedSetup = .ok (some 100) := rfl
  cases hundred.symm.trans enabled
  exact blockIndependentHundred rfl rfl

theorem numberedReturns {wav : List ℚ} {s : AudioState ℚ Nat} (sound : Sound numberedSetup wav s) (some_ : 0 < wav.length/hopLength)
    (indexed : keptIndices 100 (chunkLengths (wav.length/hopLength) 100) = .ok ()) :
    outcome (audioFeaturesForStep numberedSetup s) =
      .ok ((chunkLengths (wav.length/hopLength) 100).map fun len => List.range (featExtractOutputLength len)).flatten := by
  have encodes := numberedEncodes some_ (Nat.le_refl _) indexed
  have ranged : stepRange numberedSetup s.features = .ok (wav.length/hopLength,0,wav.length/hopLength) := by
    rw [sound.features,stepRangeWhole rfl some_]
  refine (stepAgrees sound numberedApart).handsOn _ ((encoderOutputOk ranged).mpr ⟨?_,rangeLength rfl some_ (Nat.le_refl _) encodes⟩)
  rw [sound.features]
  exact (computeExtracted sound.fits some_ (Nat.le_refl _)).mpr encodes

def numberedLater (wav rest : List ℚ) : AudioState ℚ Nat :=
  {after (audioFeaturesForStep numberedSetup ⟨extracted numberedSetup.logMel wav,none⟩) with
    features := extracted numberedSetup.logMel (wav ++ rest)}

theorem numberedHistory {wav rest : List ℚ} (fits : (wav ++ rest).length ≤ maxWavLen) :
    History numberedSetup (wav ++ rest) (numberedLater wav rest) := by
  have before : History numberedSetup wav ⟨extracted numberedSetup.logMel wav,none⟩ :=
    .append wav .start (appendGoes (by rw [List.length_append] at fits; exact (Nat.le_add_right _ _).trans fits))
  refine .append rest before.step ?_
  rw [(historySound numberedApart before.step).features]
  exact appendGoes fits

theorem numberedResumes {wav rest : List ℚ} (fits : (wav ++ rest).length ≤ maxWavLen) (frames : wav.length/hopLength = 101)
    (grown : 101 < (wav ++ rest).length/hopLength) :
    ∃ cache, (numberedLater wav rest).audioCache = some cache ∧
      cacheHit (numberedLater wav rest) ((wav ++ rest).length/hopLength) = none ∧
      freshFeatures numberedSetup (numberedLater wav rest) 100 ((wav ++ rest).length/hopLength) =
        resumedFeatures numberedSetup (numberedLater wav rest).features cache 100 ((wav ++ rest).length/hopLength) := by
  have first : Sound numberedSetup wav ⟨extracted numberedSetup.logMel wav,none⟩ :=
    ⟨rfl,by rw [List.length_append] at fits; omega,fun cache held => (by cases held)⟩
  have some_ : 0 < wav.length/hopLength := by omega
  have returns := numberedReturns first some_ (by rw [frames]; decide)
  have whole := stepWhole first rfl (show audioCacheSegmentFrames numberedSetup = .ok (some 100) from rfl) some_
  rw [whole] at returns
  obtain ⟨cache,held,counted,loudest,_⟩ := cachedKeeps returns
  rw [← whole] at held
  have held : (numberedLater wav rest).audioCache = some cache := held
  have loudest : cache.compressedMaxLog = (numberedLater wav rest).features.compressedMaxLog :=
    loudest.trans (numberedLoudest some_).symm
  refine ⟨cache,held,?_,?_⟩
  · unfold cacheHit
    rw [held]
    exact if_neg fun same => by omega
  · unfold freshFeatures
    rw [held]
    dsimp only
    rw [if_neg (not_or.mpr ⟨not_not.mpr loudest,by omega⟩),counted,frames]
    rfl

/- The step after seventeen thousand samples keeps the first hundred frames' tokens and encodes eleven frames. -/
theorem audioFeaturesAgreeNumbered :
    let wav := List.replicate 16160 (1 : ℚ)
    let s := numberedLater wav (List.replicate 1600 1)
    (∃ cache, s.audioCache = some cache ∧ cacheHit s 111 = none ∧
      freshFeatures numberedSetup s 100 111 = resumedFeatures numberedSetup s.features cache 100 111) ∧
    outcome (audioFeaturesForStep numberedSetup s) = .ok (List.range 13 ++ List.range 2) ∧
    (∀ w, encoderOutput numberedSetup s.features = .ok w → outcome (audioFeaturesForStep numberedSetup s) = .ok w) ∧
    (∀ v, outcome (audioFeaturesForStep numberedSetup s) = .ok v →
      (∀ n, n ≤ (wav ++ List.replicate 1600 (1 : ℚ)).length/hopLength → 0 < n → Placed numberedSetup.tower n) →
      encoderOutput numberedSetup s.features = .ok v) := by
  have frames : (List.replicate 16160 (1 : ℚ) ++ List.replicate 1600 1).length/hopLength = 111 := by
    rw [List.length_append,List.length_replicate,List.length_replicate]
    rfl
  have fits : (List.replicate 16160 (1 : ℚ) ++ List.replicate 1600 1).length ≤ maxWavLen := by
    rw [List.length_append,List.length_replicate,List.length_replicate]
    decide
  have history := numberedHistory fits
  have resumes := numberedResumes fits (by rw [List.length_replicate]; rfl) (by omega)
  have returns := numberedReturns (historySound numberedApart history) (by omega) (by rw [frames]; decide)
  rw [frames] at resumes returns
  exact ⟨resumes,returns,audioFeaturesAgree numberedApart history⟩

end Steps

end Qwen3Asr.EncoderCache
