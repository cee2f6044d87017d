import Qwen3Asr.FeatureExtractor

/-! The features of a waveform that arrives piece by piece are those of the whole waveform. -/
namespace Qwen3Asr.StreamingFeatures
open Library Library.Effect Library.RunningMax Library.Word FeatureExtractor

variable {σ K : Type} {logMel : List σ → Nat → K}

section Frames

/- Every frame but the last of a waveform reads the same samples once more have come. -/
theorem frameStable {wav more : List σ} (nonempty : 0 < wav.length) (longer : 0 < (wav ++ more).length)
    {frameIdx : Nat} (before : frameIdx+1 < wav.length/hopLength) :
    frameSamples (wav ++ more) longer frameIdx = frameSamples wav nonempty frameIdx := by
  have complete : (frameIdx+2)*hopLength ≤ wav.length := by
    unfold hopLength at *
    omega
  unfold frameSamples
  refine List.map_congr_left fun i inside => ?_
  have near : reflectIndex ((frameIdx*hopLength : Nat)+(i : Int)-(nFft/2 : Nat)) (wav ++ more).length =
      reflectIndex ((frameIdx*hopLength : Nat)+(i : Int)-(nFft/2 : Nat)) wav.length := by
    have inFrame := List.mem_range.mp inside
    have grown : wav.length ≤ (wav ++ more).length := by simp
    unfold nFft hopLength at *
    rw [reflectNear (by omega) (by omega),reflectNear (by omega) (by omega)]
  simp only [List.get_eq_getElem,near]
  exact List.getElem_append_left _

theorem melRowsLength (wav : List σ) (frames : Nat) : (melRows logMel wav frames).length = featureSize := by
  unfold melRows
  split <;> simp

theorem melRowLength {wav : List σ} (nonempty : 0 < wav.length) {frames : Nat} {row : List K}
    (inside : row ∈ melRows logMel wav frames) : row.length = frames := by
  rw [melRows,dif_pos nonempty] at inside
  obtain ⟨mel,_,rfl⟩ := List.mem_map.mp inside
  simp

theorem melRowsTake (wav : List σ) {frames n : Nat} (within : n ≤ frames) :
    (melRows logMel wav frames).map (·.take n) = melRows logMel wav n := by
  unfold melRows
  split
  · rw [List.map_map]
    refine List.map_congr_left fun mel _ => ?_
    simp [← List.map_take,List.take_range,Nat.min_eq_left within]
  · simp

theorem melRowsStable {wav : List σ} (more : List σ) {n : Nat} (before : n+1 ≤ wav.length/hopLength ∨ n = 0) :
    melRows logMel (wav ++ more) n = melRows logMel wav n := by
  rcases before with before | rfl
  · have nonempty : 0 < wav.length := by
      rcases Nat.eq_zero_or_pos wav.length with empty | positive
      · simp [empty] at before
      · exact positive
    have longer : 0 < (wav ++ more).length := by
      rw [List.length_append]
      omega
    rw [melRows,melRows,dif_pos nonempty,dif_pos longer]
    refine List.map_congr_left fun mel _ => List.map_congr_left fun f inside => ?_
    rw [frameStable nonempty longer (by have := List.mem_range.mp inside; omega)]
  · unfold melRows
    split <;> split <;> simp [List.map_const']

theorem melRowsNone (wav : List σ) : melRows logMel wav 0 = List.replicate featureSize [] := by
  unfold melRows
  split <;> simp [List.map_const']

theorem melRowsPush {wav : List σ} (nonempty : 0 < wav.length) (n : Nat) :
    (melRows logMel wav n).mapIdx (fun mel row => row ++ [logMel (frameSamples wav nonempty n) mel]) =
      melRows logMel wav (n+1) := by
  rw [melRows,melRows,dif_pos nonempty,dif_pos nonempty]
  refine List.ext_getElem? fun mel => ?_
  rcases Nat.lt_or_ge mel featureSize with inside | past
  · simp [inside,List.range_succ]
  · simp [past]

end Frames

section Compression
variable [LinearOrder K]

theorem maxByFrames {wav : List σ} (nonempty : 0 < wav.length) (frames : Nat) :
    maxOver ((List.range frames).map fun f => (List.range featureSize).map (logMel (frameSamples wav nonempty f))) =
      maxOver (melRows logMel wav frames) := by
  refine maxOverSame fun v => ?_
  rw [melRows,dif_pos nonempty]
  simp only [List.mem_map,exists_exists_and_eq_and]
  constructor
  · intro ⟨f,frame,mel,bin,value⟩
    exact ⟨mel,bin,f,frame,value⟩
  · intro ⟨mel,bin,f,frame,value⟩
    exact ⟨f,frame,mel,bin,value⟩

theorem maxOverEmpty (n : Nat) : maxOver (List.replicate n ([] : List K)) = ⊥ := by
  refine le_bot_iff.mp (maxOverLe.mpr fun row inside v entry => ?_)
  rw [List.eq_of_mem_replicate inside] at entry
  cases entry

variable [Field K]

def compressed (rows : List (List K)) : List (List K) :=
  rows.map (List.map fun v => compressLogMel v (floorOf (maxOver rows)))

theorem extractedRows (wav : List σ) :
    (extractFeatures logMel wav).inputFeatures = compressed (melRows logMel wav (wav.length/hopLength)) := by
  unfold extractFeatures
  dsimp only
  split
  · next none =>
    rw [none,melRowsNone]
    simp [compressed]
  · next some =>
    have nonempty : 0 < wav.length := by
      rcases Nat.eq_zero_or_pos wav.length with empty | positive
      · simp [empty] at some
      · exact positive
    dsimp only
    rw [extractLogMelFrames,dif_pos nonempty,maxByFrames]
    rfl

def extracted (logMel : List σ → Nat → K) (wav : List σ) : StreamingFeatureExtractor σ K where
  wav := wav
  rawLogSpec := melRows logMel wav (wav.length/hopLength)
  inputFeatures := (extractFeatures logMel wav).inputFeatures
  featureAttentionMask := (extractFeatures logMel wav).featureAttentionMask
  compressedMaxLog := maxOver (melRows logMel wav (wav.length/hopLength))

theorem extractedMask (wav : List σ) :
    (extractFeatures logMel wav).featureAttentionMask = List.replicate (wav.length/hopLength) 1 := by
  unfold extractFeatures
  dsimp only
  split
  · next none => rw [none]; rfl
  · rfl

theorem extractedNil : extracted logMel [] = newExtractor := by
  have none : ([] : List σ).length/hopLength = 0 := by simp
  unfold extracted newExtractor
  rw [extractedRows,extractedMask,none,melRowsNone,maxOverEmpty]
  simp [compressed]

end Compression

section Push
variable {st : StreamingFeatureExtractor σ K}

theorem frameStartGoes {wav : List σ} (fits : wav.length ≤ maxWavLen) {frameIdx : Nat} (within : frameIdx < wav.length/hopLength) :
    ∃ start, frameStart wav.length frameIdx = .ok start := by
  unfold maxWavLen nFft at fits
  unfold hopLength at within
  unfold frameStart hopLength
  rw [if_neg (by unfold maxWavLen nFft; omega),okOrOk.mpr (checkedMulSome.mpr ⟨by omega,rfl⟩)]
  change ∃ start, (if wav.length < frameIdx*160 then _ else okOr (i64TryFrom (frameIdx*160)) _) = .ok start
  rw [if_neg (by omega)]
  exact ⟨_,okOrOk.mpr (i64TryFromSome.mpr ⟨by omega,rfl⟩)⟩

theorem pushFrameGoes (nonempty : 0 < st.wav.length) (fits : st.wav.length ≤ maxWavLen) {n : Nat}
    (within : n < st.wav.length/hopLength) (rows : st.rawLogSpec = melRows logMel st.wav n) :
    pushFrameRaw logMel n st = .ok () {st with rawLogSpec := melRows logMel st.wav (n+1)} := by
  obtain ⟨start,ok⟩ := frameStartGoes fits within
  unfold pushFrameRaw
  rw [bindThen (getRun st),dif_pos nonempty,attemptThen ok,rows,melRowsPush nonempty]
  rfl

theorem pushFramesGo (nonempty : 0 < st.wav.length) (fits : st.wav.length ≤ maxWavLen) {n m : Nat}
    (within : n+m ≤ st.wav.length/hopLength) (rows : st.rawLogSpec = melRows logMel st.wav n) :
    pushFrames logMel n m st = .ok () {st with rawLogSpec := melRows logMel st.wav (n+m)} := by
  induction m generalizing n st with
  | zero =>
    rw [Nat.add_zero,← rows]
    rfl
  | succ m ih =>
    have rest := @ih {st with rawLogSpec := melRows logMel st.wav (n+1)} nonempty fits (n+1) (by dsimp only; omega) rfl
    rw [pushFrames,bindThen (pushFrameGoes nonempty fits (by omega) rows),rest]
    simp only [Nat.add_assoc,Nat.add_comm 1]

theorem pushFramesTooLong {st t : StreamingFeatureExtractor σ K} (long : maxWavLen < st.wav.length) {n m : Nat} :
    pushFrames logMel n (m+1) st ≠ .ok () t := by
  intro ok
  obtain ⟨_,_,pushed,_⟩ := bindOk.mp ok
  unfold pushFrameRaw at pushed
  rw [bindThen (getRun st),dif_pos (by omega)] at pushed
  obtain ⟨_,_,started,_⟩ := bindOk.mp pushed
  have failed := (attemptOk.mp started).1
  rw [frameStart,if_pos long] at failed
  cases failed

end Push

def stableFrames (wav : List σ) : Nat := wav.length/hopLength-1

theorem stableRows {wav : List σ} (samples : List σ) :
    (melRows logMel wav (wav.length/hopLength)).map (·.take (stableFrames wav)) =
      melRows logMel (wav ++ samples) (stableFrames wav) := by
  unfold stableFrames
  rw [melRowsTake wav (Nat.sub_le _ _),melRowsStable]
  omega

section Updates
variable [Field K] [LinearOrder K]

/- Entries compressed under the same floor are kept, the others made anew. -/
theorem recompressedRows {rows inputs : List (List K)} {most : WithBot K} {n : Nat} (counted : inputs.length = rows.length)
    (kept : maxOver rows = most →
      inputs = rows.map fun row => (row.take n).map fun v => compressLogMel v (floorOf (maxOver rows))) :
    (if maxOver rows ≠ most then List.zipWith (fun _ raw => raw.map fun v => compressLogMel v (floorOf (maxOver rows))) inputs rows
      else List.zipWith (fun out raw => out ++ (raw.drop n).map fun v => compressLogMel v (floorOf (maxOver rows))) inputs rows) =
      compressed rows := by
  split
  · refine List.ext_getElem (by simp [counted,compressed]) fun i _ _ => ?_
    simp [compressed]
  · next same =>
    rw [kept (not_not.mp same),List.zipWith_map_left,List.zipWith_self]
    refine List.map_congr_left fun row _ => ?_
    rw [← List.map_append,List.take_append_drop]

theorem compressedLength (rows : List (List K)) : (compressed rows).length = rows.length := by
  simp [compressed]

variable {wav samples : List σ}

/- What is left of the extractor's state when more samples have come and its last frame is dropped. -/
def rewound (logMel : List σ → Nat → K) (wav samples : List σ) : StreamingFeatureExtractor σ K where
  wav := wav ++ samples
  rawLogSpec := melRows logMel (wav ++ samples) (stableFrames wav)
  inputFeatures := (melRows logMel (wav ++ samples) (stableFrames wav)).map
    (List.map fun v => compressLogMel v (floorOf (maxOver (melRows logMel wav (wav.length/hopLength)))))
  featureAttentionMask := List.replicate (stableFrames wav) 1
  compressedMaxLog := maxOver (melRows logMel wav (wav.length/hopLength))

theorem truncatedState (wav samples : List σ) :
    truncated (stableFrames wav) {extracted logMel wav with wav := wav ++ samples} = rewound logMel wav samples := by
  have fewer : stableFrames wav ≤ wav.length/hopLength := Nat.sub_le _ _
  unfold rewound
  rw [← stableRows samples]
  refine StreamingFeatureExtractor.ext rfl rfl ?_ ?_ rfl
  · change (extractFeatures logMel wav).inputFeatures.map (·.take (stableFrames wav)) = _
    rw [extractedRows,compressed,List.map_map,List.map_map]
    exact List.map_congr_left fun row _ => (List.map_take).symm
  · change (extractFeatures logMel wav).featureAttentionMask.take (stableFrames wav) = _
    rw [extractedMask,List.take_replicate,Nat.min_eq_left fewer]

theorem updateGoes (fits : (wav ++ samples).length ≤ maxWavLen) :
    update logMel {extracted logMel wav with wav := wav ++ samples} = .ok () (extracted logMel (wav ++ samples)) := by
  have counted : (extracted logMel wav).featureAttentionMask.length = wav.length/hopLength := by
    rw [extracted,extractedMask,List.length_replicate]
  have cut : (if wav.length/hopLength = 0 then 0 else wav.length/hopLength-1) = stableFrames wav := by
    unfold stableFrames
    split <;> omega
  have grown : wav.length/hopLength ≤ (wav ++ samples).length/hopLength := Nat.div_le_div_right (by simp)
  have fewer : stableFrames wav ≤ (wav ++ samples).length/hopLength := (Nat.sub_le _ _).trans grown
  unfold update
  rw [bindThen (getRun _)]
  dsimp only
  rw [counted,cut,bindThen (modifyRun _ _),truncatedState]
  split
  · next none =>
    have start : stableFrames wav = 0 := by omega
    rw [modifyRun]
    refine congrArg (EStateM.Result.ok ()) (StreamingFeatureExtractor.ext rfl ?_ ?_ ?_ ?_)
    · rw [rewound,extracted,none,start]
    · rw [rewound,extracted,extractedRows,none,start,melRowsNone,compressed]
      simp
    · rw [rewound,extracted,extractedMask,none,start]
    · rw [extracted,none,melRowsNone,maxOverEmpty]
  · next some =>
    have nonempty : 0 < (wav ++ samples).length := by
      rcases Nat.eq_zero_or_pos (wav ++ samples).length with empty | positive
      · simp [empty] at some
      · exact positive
    have all : stableFrames wav+((wav ++ samples).length/hopLength-stableFrames wav) = (wav ++ samples).length/hopLength := by
      omega
    have pushed := @pushFramesGo σ K logMel (rewound logMel wav samples) nonempty fits (stableFrames wav)
      ((wav ++ samples).length/hopLength-stableFrames wav) (Nat.le_of_eq all) rfl
    rw [bindThen pushed,modifyRun,all]
    refine congrArg (EStateM.Result.ok ()) (StreamingFeatureExtractor.ext rfl rfl ?_ ?_ rfl)
    · rw [extracted,extractedRows]
      refine recompressedRows (by simp [rewound,melRowsLength]) fun same => ?_
      change (melRows logMel (wav ++ samples) (stableFrames wav)).map _ = _
      rw [same,← melRowsTake (wav ++ samples) fewer,List.map_map]
      rfl
    · rw [extracted,extractedMask]
      change (List.replicate (stableFrames wav) 1).take _ ++ List.replicate (_-(List.replicate (stableFrames wav) 1).length) 1 = _
      rw [List.take_replicate,List.length_replicate,Nat.min_eq_right fewer,List.replicate_append_replicate,all]

theorem appendGoes (fits : (wav ++ samples).length ≤ maxWavLen) :
    appendSamples logMel samples (extracted logMel wav) = .ok () (extracted logMel (wav ++ samples)) := by
  unfold appendSamples
  split
  · next none => rw [none,List.append_nil]; rfl
  · rw [bindThen (modifyRun _ _)]
    exact updateGoes fits

theorem appendTooLong (fits : wav.length ≤ maxWavLen) (long : maxWavLen < (wav ++ samples).length)
    {st : StreamingFeatureExtractor σ K} : appendSamples logMel samples (extracted logMel wav) ≠ .ok () st := by
  intro ok
  unfold appendSamples at ok
  split at ok
  · next none =>
    rw [none,List.append_nil] at long
    omega
  · rw [bindThen (modifyRun _ _)] at ok
    unfold update at ok
    rw [bindThen (getRun _)] at ok
    dsimp only at ok
    rw [bindThen (modifyRun _ _)] at ok
    have counted : (extracted logMel wav).featureAttentionMask.length = wav.length/hopLength := by
      rw [extracted,extractedMask,List.length_replicate]
    have seen : (extracted logMel wav).wav = wav := rfl
    rw [counted,seen] at ok
    have grown : wav.length/hopLength ≤ (wav ++ samples).length/hopLength := Nat.div_le_div_right (by simp)
    have some : 0 < (wav ++ samples).length/hopLength := by
      unfold maxWavLen nFft at long
      unfold hopLength
      omega
    rw [if_neg (Nat.ne_of_gt some)] at ok
    obtain ⟨_,t,pushed,_⟩ := bindOk.mp ok
    obtain ⟨m,left⟩ : ∃ m, (wav ++ samples).length/hopLength -
        (if wav.length/hopLength = 0 then 0 else wav.length/hopLength-1) = m+1 :=
      Nat.exists_eq_succ_of_ne_zero (by split <;> omega)
    rw [left] at pushed
    exact pushFramesTooLong long pushed

end Updates

section Runs
variable [Field K] [LinearOrder K]

def appendAll (logMel : List σ → Nat → K) : List (List σ) → Extracting σ K Unit
  | [] => pure ()
  | samples::pushes => do
    appendSamples logMel samples
    appendAll logMel pushes

theorem appendAllGoes {pushes : List (List σ)} {wav : List σ} (fits : (wav ++ pushes.flatten).length ≤ maxWavLen) :
    appendAll logMel pushes (extracted logMel wav) = .ok () (extracted logMel (wav ++ pushes.flatten)) := by
  induction pushes generalizing wav with
  | nil => simp [appendAll]
  | cons samples pushes ih =>
    rw [List.flatten_cons,← List.append_assoc] at fits ⊢
    have first : (wav ++ samples).length ≤ maxWavLen := by
      rw [List.length_append] at fits
      omega
    rw [appendAll,bindThen (appendGoes first),ih fits]

theorem appendAllFits {pushes : List (List σ)} {wav : List σ} {st : StreamingFeatureExtractor σ K}
    (fits : wav.length ≤ maxWavLen) (ok : appendAll logMel pushes (extracted logMel wav) = .ok () st) :
    (wav ++ pushes.flatten).length ≤ maxWavLen := by
  induction pushes generalizing wav with
  | nil => simpa using fits
  | cons samples pushes ih =>
    obtain ⟨_,t,first,rest⟩ := bindOk.mp ok
    rw [List.flatten_cons,← List.append_assoc]
    rcases Nat.lt_or_ge maxWavLen (wav ++ samples).length with long | short
    · exact absurd first (appendTooLong fits long)
    · rw [appendGoes short] at first
      cases first
      exact ih short rest

/-- Whatever the pieces, the features are those of the whole waveform; only a waveform past the longest one fails. -/
theorem streamingEqualsBatch (logMel : List σ → Nat → K) (pushes : List (List σ)) :
    match appendAll logMel pushes newExtractor with
    | .ok _ st => st.inputFeatures = (extractFeatures logMel pushes.flatten).inputFeatures ∧
        st.featureAttentionMask = (extractFeatures logMel pushes.flatten).featureAttentionMask
    | .error _ _ => maxWavLen < pushes.flatten.length := by
  have fresh : newExtractor = extracted logMel [] := extractedNil.symm
  rw [fresh]
  rcases Nat.lt_or_ge maxWavLen pushes.flatten.length with long | short
  · split
    · next ok =>
      have fits := appendAllFits (Nat.zero_le _) ok
      rw [List.nil_append] at fits
      omega
    · exact long
  · rw [appendAllGoes (by rwa [List.nil_append]),List.nil_append]
    exact ⟨rfl,rfl⟩

end Runs

end Qwen3Asr.StreamingFeatures
