import Mathlib.Data.List.Intervals
import Qwen3Asr.Library.Effect
import Qwen3Asr.Pipeline

/-! The slices of a waveform hold all speech that was detected, and each is the audio of its range. -/
namespace Qwen3Asr.VadSlices
open Library.Word Library.Effect MediaData Pipeline

/- A waveform of whole frames that fits into memory; counts of its milliseconds are exact. -/
structure WellFormed (waveform : Waveform) : Prop where
  rate : waveform.sampleRate < 2^32
  whole : waveform.channels ∣ waveform.samples.length
  fits : waveform.samples.length*1000 < 2^53

def frameAt (waveform : Waveform) (i : Nat) : List ℚ := (waveform.samples.drop (i*waveform.channels)).take waveform.channels

def Within (waveform : Waveform) (range : TimeRange) (i : Nat) : Prop :=
  range.start*waveform.sampleRate ≤ i*1000 ∧ i*1000 < range.stop*waveform.sampleRate

/- A frame lasts until the next one begins: some of it is in the range. -/
def Meets (waveform : Waveform) (range : TimeRange) (i : Nat) : Prop :=
  range.start < range.stop ∧ range.start*waveform.sampleRate < (i+1)*1000 ∧ i*1000 < range.stop*waveform.sampleRate

instance (waveform : Waveform) (range : TimeRange) : DecidablePred (Meets waveform range) :=
  fun _ => inferInstanceAs (Decidable (_ ∧ _))

def audioOf (waveform : Waveform) (range : TimeRange) : List ℚ :=
  ((List.range (frameCount waveform)).filter (Meets waveform range)).flatMap (frameAt waveform)

section Slices
variable {waveform : Waveform} {range : TimeRange}

theorem frameCountFits (formed : WellFormed waveform) : frameCount waveform*1000 < 2^53 := by
  have fits := formed.fits
  unfold frameCount
  split
  · decide
  · have fewer := Nat.div_le_self waveform.samples.length waveform.channels
    exact (Nat.mul_le_mul_right 1000 fewer).trans_lt fits

theorem ceilDivLt {n m k : Nat} (positive : 0 < m) : k < n ⌈/⌉ m ↔ k*m < n := by
  rw [← Nat.not_le,ceilDiv_le_iff_le_mul positive,Nat.not_le,Nat.mul_comm]

theorem positionFits (formed : WellFormed waveform) {ms : Nat} (within : ms ≤ audioEnd waveform) :
    ms*waveform.sampleRate < 2^64 := by
  have frames := frameCountFits formed
  have rate := formed.rate
  unfold audioEnd at within
  split at within
  · obtain rfl : ms = 0 := by omega
    rw [Nat.zero_mul]
    decide
  · next some_ =>
    rw [not_or] at some_
    have before : (ms-1)*waveform.sampleRate ≤ frameCount waveform*1000 := by
      rcases Nat.eq_zero_or_pos ms with rfl | positive
      · simp
      · exact Nat.le_of_lt ((ceilDivLt (Nat.pos_of_ne_zero some_.1)).mp (show ms-1 < _ by omega))
    rw [Nat.sub_mul,Nat.one_mul] at before
    omega

theorem audioEndFits (formed : WellFormed waveform) : audioEnd waveform < 2^53 := by
  have frames := frameCountFits formed
  unfold audioEnd
  split
  · decide
  · next some_ =>
    rw [not_or] at some_
    have slower : (frameCount waveform*1000) ⌈/⌉ waveform.sampleRate ≤ frameCount waveform*1000 :=
      (ceilDiv_le_iff_le_mul (Nat.pos_of_ne_zero some_.1)).mpr (Nat.le_mul_of_pos_left _ (Nat.pos_of_ne_zero some_.1))
    omega

theorem meetsBounds (waveform : Waveform) {range : TimeRange} (some_ : range.start < range.stop) (i : Nat) :
    Meets waveform range i ↔
      range.start*waveform.sampleRate/1000 ≤ i ∧ i < (range.stop*waveform.sampleRate) ⌈/⌉ 1000 := by
  unfold Meets
  rw [ceilDivLt (by omega),← Nat.lt_succ_iff,Nat.div_lt_iff_lt_mul (by omega)]
  exact and_iff_right some_

theorem framesFrom (waveform : Waveform) (first n : Nat) : (List.range' first n).flatMap (frameAt waveform) =
    (waveform.samples.drop (first*waveform.channels)).take (n*waveform.channels) := by
  induction n generalizing first with
  | zero => simp
  | succ n ih =>
    rw [List.range'_succ,List.flatMap_cons,ih,Nat.succ_mul n,Nat.add_comm _ waveform.channels,List.take_add,List.drop_drop,
      Nat.succ_mul first]
    rfl

theorem audioOfRange (some_ : range.start < range.stop) : audioOf waveform range =
    let first := range.start*waveform.sampleRate/1000
    let stop := min ((range.stop*waveform.sampleRate) ⌈/⌉ 1000) (frameCount waveform)
    (waveform.samples.drop (first*waveform.channels)).take ((stop-first)*waveform.channels) := by
  have both : (List.range (frameCount waveform)).filter (Meets waveform range) =
      ((List.range (frameCount waveform)).filter fun i => i < (range.stop*waveform.sampleRate) ⌈/⌉ 1000).filter
        fun i => range.start*waveform.sampleRate/1000 ≤ i := by
    rw [List.filter_filter]
    refine List.filter_congr fun i _ => ?_
    rw [← Bool.decide_and]
    exact decide_eq_decide.mpr (meetsBounds waveform some_ i)
  have chosen : (List.range (frameCount waveform)).filter (Meets waveform range) =
      List.Ico (range.start*waveform.sampleRate/1000) (min ((range.stop*waveform.sampleRate) ⌈/⌉ 1000) (frameCount waveform)) := by
    rw [both,← List.Ico.zero_bot,List.Ico.filter_lt,List.Ico.filter_le,Nat.zero_max,Nat.min_comm]
  unfold audioOf
  rw [chosen]
  exact framesFrom waveform _ _

theorem audioOfNone (none : range.stop ≤ range.start) : audioOf waveform range = [] := by
  unfold audioOf
  rw [List.flatMap_eq_nil_iff]
  intro i inside
  obtain ⟨some_,_⟩ := of_decide_eq_true (List.mem_filter.mp inside).2
  omega

theorem sliceFrame {first n i : Nat}
    (inside : i < frameCount {waveform with samples := (waveform.samples.drop (first*waveform.channels)).take (n*waveform.channels)}) :
    frameAt {waveform with samples := (waveform.samples.drop (first*waveform.channels)).take (n*waveform.channels)} i =
      frameAt waveform (first+i) := by
  unfold frameCount at inside
  unfold frameAt
  split at inside
  · cases inside
  · next channels =>
    have last := (Nat.le_div_iff_mul_le (Nat.pos_of_ne_zero channels)).mp (Nat.succ_le_of_lt inside)
    dsimp only at last ⊢
    rw [List.length_take,Nat.succ_mul] at last
    rw [List.drop_take,List.take_take,List.drop_drop,← Nat.add_mul,Nat.min_eq_left (by omega)]

theorem minSaturating {a b n : Nat} (small : n < 2^64) : min (saturatingMul a b) n = min (a*b) n := by
  unfold saturatingMul
  omega

theorem sliceOk (formed : WellFormed waveform) (start : range.start ≤ audioEnd waveform) (stop : range.stop ≤ audioEnd waveform) :
    sliceMs waveform range.start range.stop = .ok {waveform with samples := audioOf waveform range} := by
  unfold sliceMs
  split
  · next none =>
    have silent : audioOf waveform range = [] := by
      unfold audioOf
      rw [List.flatMap_eq_nil_iff]
      intro i inside
      obtain ⟨inside,meets⟩ := List.mem_filter.mp inside
      obtain ⟨some_,_,before⟩ := of_decide_eq_true meets
      rcases none with longer | rate | channels
      · omega
      · rw [rate] at before
        omega
      · rw [frameCount,if_pos channels] at inside
        cases inside
    rw [silent]
  · next some_ =>
    simp only [not_or,Nat.not_le] at some_
    have small : waveform.samples.length < 2^64 := by
      have fits := formed.fits
      omega
    obtain ⟨some_,_,channels⟩ := some_
    have length : frameCount waveform*waveform.channels = waveform.samples.length := by
      rw [frameCount,if_neg channels]
      exact Nat.div_mul_cancel formed.whole
    have ordered : range.start*waveform.sampleRate/1000 ≤ (range.stop*waveform.sampleRate) ⌈/⌉ 1000 := by
      have scaled : range.start*waveform.sampleRate ≤ range.stop*waveform.sampleRate := Nat.mul_le_mul_right _ some_.le
      rw [Nat.ceilDiv_eq_add_pred_div]
      exact Nat.div_le_div_right (by omega)
    rw [audioOfRange some_]
    dsimp only
    rw [saturatingMulFits (positionFits formed start),saturatingMulFits (positionFits formed stop),minSaturating small,
      minSaturating small]
    generalize range.start*waveform.sampleRate/1000 = first at ordered ⊢
    generalize (range.stop*waveform.sampleRate) ⌈/⌉ 1000 = last at ordered ⊢
    rcases Nat.le_total first (min last (frameCount waveform)) with before | behind
    · have starts : first*waveform.channels ≤ waveform.samples.length := by
        rw [← length]
        exact Nat.mul_le_mul_right _ (by omega)
      have stops : min last (frameCount waveform)*waveform.channels ≤ waveform.samples.length := by
        rw [← length]
        exact Nat.mul_le_mul_right _ (Nat.min_le_right _ _)
      rw [Nat.min_eq_left starts,Nat.min_eq_left stops,if_neg (Nat.not_lt.mpr (Nat.mul_le_mul_right _ before)),Nat.sub_mul]
    · have same : min (first*waveform.channels) waveform.samples.length =
          min (min last (frameCount waveform)*waveform.channels) waveform.samples.length := by
        rcases Nat.le_total last (frameCount waveform) with fewer | more
        · obtain rfl : first = last := by omega
          rw [Nat.min_eq_left fewer]
        · rw [Nat.min_eq_right more] at behind ⊢
          have longer := Nat.mul_le_mul_right waveform.channels behind
          omega
      rw [← same,if_neg (Nat.lt_irrefl _),Nat.sub_self,Nat.sub_eq_zero_of_le behind]
      simp

theorem slicesOk (formed : WellFormed waveform) {segments : List VadSegment}
    (inside : ∀ segment ∈ segments, segment.range.start ≤ audioEnd waveform ∧ segment.range.stop ≤ audioEnd waveform) :
    segments.mapM (fun segment => sliceMs waveform segment.range.start segment.range.stop) =
      .ok (segments.map fun segment => {waveform with samples := audioOf waveform segment.range}) := by
  refine exceptMapM.mpr (List.forall₂_map_right_iff.mpr (List.forall₂_same.mpr fun segment mem => ?_))
  exact sliceOk formed (inside segment mem).1 (inside segment mem).2

end Slices

section Merging
variable {maxGapMs maxSegmentMs : Nat}

def Inside (segment outer : VadSegment) : Prop :=
  outer.range.start ≤ segment.range.start ∧ segment.range.stop ≤ outer.range.stop

instance : IsTrans VadSegment Earlier where
  trans a b c := by
    unfold Earlier
    omega

instance : Std.Total Earlier where
  total a b := by
    unfold Earlier
    omega

theorem mergeCovers {last : VadSegment} {segments : List VadSegment}
    (sorted : (last::segments).Pairwise fun a b => a.range.start ≤ b.range.start) :
    ∀ segment ∈ last::segments, ∃ merged ∈ mergeFrom maxGapMs maxSegmentMs last segments, Inside segment merged := by
  induction segments generalizing last with
  | nil => exact fun segment mem => ⟨segment,mem,Nat.le_refl _,Nat.le_refl _⟩
  | cons next segments ih =>
    obtain ⟨first,rest⟩ := List.pairwise_cons.mp sorted
    intro segment mem
    unfold mergeFrom
    dsimp only
    split
    · have joined := @ih ⟨⟨last.range.start,max last.range.stop next.range.stop⟩,max last.probability next.probability⟩
        (List.pairwise_cons.mpr ⟨fun later found => first later (List.mem_cons_of_mem _ found),(List.pairwise_cons.mp rest).2⟩)
      obtain ⟨merged,found,low,high⟩ := joined _ List.mem_cons_self
      dsimp only at low high
      have started := first next List.mem_cons_self
      rcases List.mem_cons.mp mem with rfl | mem
      · exact ⟨merged,found,low,by omega⟩
      · rcases List.mem_cons.mp mem with rfl | later
        · exact ⟨merged,found,by omega,by omega⟩
        · exact joined segment (List.mem_cons_of_mem _ later)
    · rcases List.mem_cons.mp mem with rfl | later
      · exact ⟨segment,List.mem_cons_self,Nat.le_refl _,Nat.le_refl _⟩
      · obtain ⟨merged,found,inside⟩ := ih rest segment later
        exact ⟨merged,List.mem_cons_of_mem _ found,inside⟩

theorem mergeBounded {bound : Nat} {last : VadSegment} {segments : List VadSegment}
    (bounded : ∀ segment ∈ last::segments, segment.range.start ≤ bound ∧ segment.range.stop ≤ bound) :
    ∀ merged ∈ mergeFrom maxGapMs maxSegmentMs last segments, merged.range.start ≤ bound ∧ merged.range.stop ≤ bound := by
  induction segments generalizing last with
  | nil => exact bounded
  | cons next segments ih =>
    have first := bounded last List.mem_cons_self
    have second := bounded next (List.mem_cons_of_mem _ List.mem_cons_self)
    have later (segment : VadSegment) (mem : segment ∈ segments) :=
      bounded segment (List.mem_cons_of_mem _ (List.mem_cons_of_mem _ mem))
    unfold mergeFrom
    dsimp only
    split
    · exact ih (List.forall_mem_cons.mpr ⟨⟨first.1,Nat.max_le.mpr ⟨first.2,second.2⟩⟩,later⟩)
    · exact List.forall_mem_cons.mpr ⟨first,ih (List.forall_mem_cons.mpr ⟨second,later⟩)⟩

theorem mergedSegments {segments : List VadSegment} {bound : Nat}
    (bounded : ∀ segment ∈ segments, segment.range.start ≤ bound ∧ segment.range.stop ≤ bound) :
    (∀ segment ∈ segments, ∃ merged ∈ mergeVadSegmentsForAsr segments maxGapMs maxSegmentMs, Inside segment merged) ∧
    ∀ merged ∈ mergeVadSegmentsForAsr segments maxGapMs maxSegmentMs, merged.range.start ≤ bound ∧ merged.range.stop ≤ bound := by
  unfold mergeVadSegmentsForAsr
  split
  · exact ⟨fun segment mem => ⟨segment,mem,Nat.le_refl _,Nat.le_refl _⟩,bounded⟩
  · have sorted := List.pairwise_insertionSort Earlier segments
    have same (segment : VadSegment) : segment ∈ segments.insertionSort Earlier ↔ segment ∈ segments :=
      List.mem_insertionSort Earlier
    cases ordered : segments.insertionSort Earlier with
    | nil =>
      rw [ordered] at same
      exact ⟨fun segment mem => (by cases (same segment).mpr mem),fun _ mem => (by cases mem)⟩
    | cons first rest =>
      rw [ordered] at same sorted
      refine ⟨fun segment mem => mergeCovers (sorted.imp fun earlier => ?_) segment ((same segment).mpr mem),
        mergeBounded fun segment mem => bounded segment ((same segment).mp mem)⟩
      unfold Earlier at earlier
      omega

end Merging

section Stage
variable {waveform : Waveform}

theorem paddedMeets (formed : WellFormed waveform) {segment merged : VadSegment} (inside : Inside segment merged)
    (bounded : merged.range.stop ≤ audioEnd waveform) {i : Nat} (within : Within waveform segment.range i) :
    Meets waveform (paddedAsrRange waveform merged) i := by
  obtain ⟨low,high⟩ := inside
  obtain ⟨after_,before⟩ := within
  have fits := audioEndFits formed
  have starts : (paddedAsrRange waveform merged).start ≤ segment.range.start := (Nat.sub_le _ _).trans low
  have ends := high.trans bounded
  have stops : segment.range.stop ≤ (paddedAsrRange waveform merged).stop :=
    Nat.le_min.mpr ⟨high.trans (leSaturatingAdd (bounded.trans_lt (fits.trans (by decide))) _),ends⟩
  have some_ : segment.range.start < segment.range.stop := Nat.lt_of_mul_lt_mul_right (after_.trans_lt before)
  have startsAt := Nat.mul_le_mul_right waveform.sampleRate starts
  have stopsAt := Nat.mul_le_mul_right waveform.sampleRate stops
  exact ⟨by omega,by omega,by omega⟩

theorem paddedBounded {segment : VadSegment} (bounded : segment.range.start ≤ audioEnd waveform) :
    (paddedAsrRange waveform segment).start ≤ audioEnd waveform ∧ (paddedAsrRange waveform segment).stop ≤ audioEnd waveform :=
  ⟨(Nat.sub_le _ _).trans bounded,Nat.min_le_right _ _⟩

/- Times in a slice, against times in the audio it was cut from: the slice begins with the frame that the
start of its range falls in. -/
structure ShiftedBack (waveform : Waveform) (range : TimeRange) (slice : Waveform) : Prop where
  frames : ∀ i < frameCount slice, frameAt slice i = frameAt waveform (range.start*waveform.sampleRate/1000+i)
  /-- Shifted by the start of the range, a time is in the same frame or in the next. -/
  times : ∀ t, let i := range.start*waveform.sampleRate/1000+t*waveform.sampleRate/1000
    i ≤ (range.start+t)*waveform.sampleRate/1000 ∧ (range.start+t)*waveform.sampleRate/1000 ≤ i+1 ∧
    (1000 ∣ range.start*waveform.sampleRate → (range.start+t)*waveform.sampleRate/1000 = i)
  annotations : ∀ annotations, (∀ a ∈ annotations, a.range.start ≤ audioEnd waveform ∧
      a.range.stop ≤ audioEnd waveform) → offsetAnnotations annotations range.start =
    annotations.map fun a => {a with range := ⟨range.start+a.range.start,range.start+a.range.stop⟩}

def SpeechKept (waveform : Waveform) (segments : List VadSegment) : VadPreparation → Prop
  | .disabled => False
  | .noSpeech => segments = []
  | .fullSpeech speechAnnotations => speechAnnotations = segments.map speechAnnotation
  | .speech prepared =>
    prepared.segments.length = prepared.slices.length ∧
    (∀ segment ∈ segments, ∀ i < frameCount waveform, Within waveform segment.range i →
      ∃ padded ∈ prepared.segments, Meets waveform padded.range i) ∧
    ∀ (k : Nat) (segment : VadSegment) (slice : Waveform), prepared.segments[k]? = some segment → prepared.slices[k]? = some slice →
      slice = {waveform with samples := audioOf waveform segment.range} ∧ ShiftedBack waveform segment.range slice

theorem shiftedBack (formed : WellFormed waveform) {range : TimeRange} (bounded : range.start ≤ audioEnd waveform) :
    ShiftedBack waveform range {waveform with samples := audioOf waveform range} where
  frames i inside := by
    rcases Nat.lt_or_ge range.start range.stop with some_ | none
    · rw [audioOfRange some_] at inside ⊢
      exact sliceFrame inside
    · have silent : audioOf waveform range = [] := audioOfNone none
      rw [silent] at inside
      simp [frameCount] at inside
  times t := by
    dsimp only
    rw [Nat.add_mul]
    refine ⟨by omega,by omega,fun whole => by omega⟩
  annotations annotations inside := by
    have fits := audioEndFits formed
    refine List.map_congr_left fun annotation mem => ?_
    obtain ⟨starts,stops⟩ := inside annotation mem
    rw [saturatingAddFits (by omega),saturatingAddFits (by omega),Nat.add_comm,Nat.add_comm annotation.range.stop]

variable {Options : Type} {pipeline : OfflinePipeline Options} {vadOptions : VadOptions} {segments : List VadSegment}

theorem stageDetected {detect : Waveform → VadOptions → Except String (List VadSegment)} (vad : pipeline.vad = some detect)
    (detected : detect waveform vadOptions = .ok segments) : prepareVadStage pipeline waveform vadOptions =
      if segments = [] then .ok .noSpeech else
      if coversFullWaveform waveform (asrSegments waveform vadOptions segments) then
        .ok (.fullSpeech (segments.map speechAnnotation))
      else ((asrSegments waveform vadOptions segments).mapM fun segment =>
          sliceMs waveform segment.range.start segment.range.stop) >>= fun slices =>
        .ok (.speech ⟨segments.map speechAnnotation,asrSegments waveform vadOptions segments,slices⟩) := by
  unfold prepareVadStage
  rw [vad]
  dsimp only
  rw [detected]
  rfl

theorem fullSpeechWhole {speechAnnotations : List Annotation} {options : Options} {timeline : Timeline}
    (prepared : prepareVadStage pipeline waveform vadOptions = .ok (.fullSpeech speechAnnotations))
    (recognized : pipeline.asr.transcribe waveform options = .ok timeline) :
    transcribeWithVadOptions pipeline waveform options vadOptions =
      .ok {newTimeline "offline_audio" with annotations := speechAnnotations ++ timeline.annotations} := by
  unfold transcribeWithVadOptions
  rw [prepared]
  change (pipeline.asr.transcribe waveform options >>= _) = _
  rw [recognized]
  rfl

/-- Every frame of detected speech is in a slice, and every slice is the audio of its range; where the stage
finds speech throughout, all of the waveform is recognized. -/
theorem speechKept {detect : Waveform → VadOptions → Except String (List VadSegment)} (vad : pipeline.vad = some detect)
    (formed : WellFormed waveform) (detected : detect waveform vadOptions = .ok segments)
    (inside : ∀ segment ∈ segments, segment.range.start ≤ segment.range.stop ∧ segment.range.stop ≤ audioEnd waveform) :
    ∃ preparation, prepareVadStage pipeline waveform vadOptions = .ok preparation ∧ SpeechKept waveform segments preparation ∧
      ∀ speechAnnotations, preparation = .fullSpeech speechAnnotations → ∀ options timeline,
        pipeline.asr.transcribe waveform options = .ok timeline → transcribeWithVadOptions pipeline waveform options vadOptions =
          .ok {newTimeline "offline_audio" with annotations := speechAnnotations ++ timeline.annotations} := by
  have stage := stageDetected vad detected
  obtain ⟨covered,bounded⟩ := @mergedSegments vadOptions.mergeMaxGapMs vadOptions.mergeMaxSegmentMs segments (audioEnd waveform)
    fun segment mem => ⟨(inside segment mem).1.trans (inside segment mem).2,(inside segment mem).2⟩
  have padded (segment : VadSegment) (mem : segment ∈ asrSegments waveform vadOptions segments) :
      segment.range.start ≤ audioEnd waveform ∧ segment.range.stop ≤ audioEnd waveform := by
    obtain ⟨merged,found,rfl⟩ := List.mem_map.mp mem
    exact paddedBounded (bounded merged found).1
  rw [slicesOk formed padded] at stage
  split at stage
  · next silent => exact ⟨_,stage,silent,fun _ bad => (by cases bad)⟩
  · split at stage
    · refine ⟨_,stage,rfl,fun speechAnnotations same options timeline recognized => ?_⟩
      exact fullSpeechWhole (same ▸ stage) recognized
    · refine ⟨_,stage,⟨List.length_map _ |>.symm,fun segment mem i _ within => ?_,fun k segment slice found cut => ?_⟩,
        fun _ bad => (by cases bad)⟩
      · obtain ⟨merged,found,inner⟩ := covered segment mem
        exact ⟨_,List.mem_map.mpr ⟨merged,found,rfl⟩,paddedMeets formed inner (bounded merged found).2 within⟩
      · obtain ⟨segment',found',rfl⟩ := List.getElem?_map.symm.trans cut |> Option.map_eq_some_iff.mp
        cases found.symm.trans found'
        exact ⟨rfl,shiftedBack formed (padded segment (List.mem_of_getElem? found)).1⟩

end Stage

section Slow

def slowWaveform : Waveform := ⟨(List.range 30).map fun (i : Nat) => (i : ℚ),10,1⟩

def slowOptions : VadOptions := ⟨1/2,250,500,2000,30000⟩

def slowPipeline : OfflinePipeline Unit where
  vad := some fun _ _ => .ok [⟨⟨550,560⟩,1⟩]
  asr := ⟨fun _ _ => .ok (newTimeline "slow"),fun waveforms _ => .ok (waveforms.map fun _ => newTimeline "slow")⟩

def pausedSegments : List VadSegment := [⟨⟨1050,2000⟩,9/10⟩,⟨⟨2500,3070⟩,1⟩,⟨⟨9050,9160⟩,3/4⟩]

def pausedWaveform : Waveform := ⟨(List.range 48).map fun (i : Nat) => (i : ℚ),4,1⟩

def pausedPipeline : OfflinePipeline Unit := {slowPipeline with vad := some fun _ _ => .ok pausedSegments}

theorem speechKeptSlow : (∃ preparation, prepareVadStage pausedPipeline pausedWaveform slowOptions = .ok preparation ∧
      SpeechKept pausedWaveform pausedSegments preparation ∧
      ∀ speechAnnotations, preparation = .fullSpeech speechAnnotations → ∀ options timeline,
        pausedPipeline.asr.transcribe pausedWaveform options = .ok timeline →
        transcribeWithVadOptions pausedPipeline pausedWaveform options slowOptions =
          .ok {newTimeline "offline_audio" with annotations := speechAnnotations ++ timeline.annotations}) ∧
    ∃ prepared, prepareVadStage pausedPipeline pausedWaveform slowOptions = .ok (.speech prepared) ∧
      prepared.segments.map VadSegment.range = [⟨550,3570⟩,⟨8550,9660⟩] ∧ prepared.slices.length = 2 := by
  refine ⟨speechKept rfl ⟨by decide,by decide,by decide⟩ rfl (by decide),_,rfl,?_,?_⟩
  · decide
  · decide

/- The slice of the range from 50 ms begins with the frame at 0 ms: at 100 ms of the slice there is the frame that
is at 100 ms of the audio, and the shift would have it at 150 ms. -/
theorem sliceBeginsEarly : ∃ slice,
    prepareVadStage slowPipeline slowWaveform slowOptions =
      .ok (.speech ⟨[ speechAnnotation ⟨⟨550,560⟩,1⟩],[⟨⟨50,1060⟩,1⟩],[slice]⟩) ∧
    frameAt slice 0 = frameAt slowWaveform 0 ∧ ¬ Within slowWaveform ⟨50,1060⟩ 0 ∧
    frameAt slice (100*10/1000) = frameAt slowWaveform (100*10/1000) ∧ 50+100 ≠ 100 := by
  refine ⟨⟨(List.range 11).map fun (i : Nat) => (i : ℚ),10,1⟩,rfl,?_,?_,?_,by decide⟩
  · decide
  · unfold Within
    decide
  · decide

end Slow

end Qwen3Asr.VadSlices
