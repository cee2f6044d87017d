import Qwen3Asr.E2EVadRefinement

/-! Chunks of frames: what a call leaves of the counters, which segments it reports, and that
the calls of a run together make one run of the endpointer. -/
namespace Qwen3Asr.E2EVadChunks
open Library.Word
open E2EVad E2EVadModel VadWindow Endpointer E2EVadRefinement

section Frames
variable {m : E2EVadModel}

def bookkeeping (m : E2EVadModel) : Int × Nat × Int × Int :=
  (m.frmCnt,m.outputDataBufOffset,m.idxPreChunk,m.dataBufAllSize)

theorem popOnly (n : Nat) (m : E2EVadModel) :
    ∃ dataBufStartFrame dataBufSize, popFrames n m = {m with dataBufStartFrame, dataBufSize} := by
  induction n generalizing m with
  | zero => exact ⟨_,_,rfl⟩
  | succ n ih =>
    unfold popFrames
    split
    · obtain ⟨start,size,rest⟩ := ih {m with
        dataBufStartFrame := m.dataBufStartFrame+1
        dataBufSize := asI32 (m.dataBufAllSize-asI32 ((m.dataBufStartFrame+1)*m.frameShift))}
      exact ⟨start,size,rest⟩
    · exact ⟨_,_,rfl⟩

theorem silenceOnly (m : E2EVadModel) (frame : Int) :
    ∃ dataBufStartFrame dataBufSize lastestConfirmedSilenceFrame, m.onSilenceDetected frame =
      {m with dataBufStartFrame, dataBufSize, lastestConfirmedSilenceFrame} := by
  unfold onSilenceDetected popDataBufTillFrame
  dsimp only
  split
  · obtain ⟨start,size,popped⟩ := popOnly (frame-m.dataBufStartFrame).toNat {m with lastestConfirmedSilenceFrame := frame}
    exact ⟨start,size,frame,popped⟩
  · exact ⟨_,_,frame,rfl⟩

theorem silencesOnly (frames : List Int) (m : E2EVadModel) :
    ∃ dataBufStartFrame dataBufSize lastestConfirmedSilenceFrame, frames.foldl onSilenceDetected m =
      {m with dataBufStartFrame, dataBufSize, lastestConfirmedSilenceFrame} := by
  induction frames generalizing m with
  | nil => exact ⟨_,_,_,rfl⟩
  | cons frame frames ih =>
    obtain ⟨_,_,_,first⟩ := silenceOnly m frame
    obtain ⟨start,size,last,rest⟩ := ih (m.onSilenceDetected frame)
    exact ⟨start,size,last,by rw [List.foldl_cons,rest,first]⟩

theorem handedKeeps (m : E2EVadModel) (start count : Int) (starts ends : Bool) :
    bookkeeping (m.popDataToOutputBuf start count starts ends) = bookkeeping m := by
  obtain ⟨_,_,popped⟩ := popOnly (start-m.dataBufStartFrame).toNat m
  unfold popDataToOutputBuf popDataBufTillFrame
  rw [popped]
  rfl

theorem voicesKeep (frames : List Int) (m : E2EVadModel) :
    bookkeeping (frames.foldl onVoiceDetected m) = bookkeeping m := by
  induction frames generalizing m with
  | nil => rfl
  | cons frame frames ih => exact (ih _).trans (handedKeeps _ _ _ _ _)

theorem voiceStartKeeps (m : E2EVadModel) (frame : Int) (fake : Bool) :
    bookkeeping (m.onVoiceStart frame fake) = bookkeeping m := by
  unfold onVoiceStart
  dsimp only
  split
  · exact handedKeeps _ _ _ _ _
  · rfl

theorem voiceEndKeeps (m : E2EVadModel) (frame : Int) (fake : Bool) :
    bookkeeping (m.onVoiceEnd frame fake) = bookkeeping m := by
  have voices := voicesKeep (frames (m.latestConfirmedSpeechFrame+1) frame) m
  have handed := handedKeeps {(frames (m.latestConfirmedSpeechFrame+1) frame).foldl onVoiceDetected m with
    confirmedEndFrame := frame} frame 1 false true
  unfold onVoiceEnd
  cases fake with
  | true => exact voices
  | false => exact handed.trans voices

theorem speechKeeps (m : E2EVadModel) (frame : Int) (isLast : Bool) :
    bookkeeping (m.speechGoesOn frame isLast) = bookkeeping m := by
  unfold speechGoesOn maybeOnVoiceEndIfLastFrame
  split
  · exact voiceEndKeeps m frame false
  · split
    · exact handedKeeps _ _ _ _ _
    · split
      · exact voiceEndKeeps m frame false
      · rfl

theorem sil2SpeechKeeps (m : E2EVadModel) (frame : Int) (isLast : Bool) :
    bookkeeping (m.onSil2Speech frame isLast) = bookkeeping m := by
  unfold onSil2Speech
  dsimp only
  split
  · have begun := voiceStartKeeps (m.setSilence 0)
      (max (m.setSilence 0).dataBufStartFrame (frame-(m.setSilence 0).latencyFrmNumAtStartPoint)) false
    exact (voicesKeep _ _).trans begun
  · exact (speechKeeps _ _ _).trans (voicesKeep _ (m.setSilence 0))
  · rfl

theorem onSpeechKeeps (m : E2EVadModel) (frame : Int) (isLast : Bool) :
    bookkeeping (m.onSpeech frame isLast) = bookkeeping m := by
  unfold onSpeech
  dsimp only
  split
  · exact speechKeeps (m.setSilence 0) frame isLast
  · rfl

theorem silenceKeeps (m : E2EVadModel) (frame : Int) : bookkeeping (m.onSilenceDetected frame) = bookkeeping m := by
  obtain ⟨_,_,_,same⟩ := silenceOnly m frame
  rw [same]
  rfl

theorem sil2SilKeeps (m : E2EVadModel) (frame : Int) (isLast : Bool) :
    bookkeeping (m.onSil2Sil frame isLast) = bookkeeping m := by
  obtain ⟨q,quieter⟩ : ∃ q, q = m.setSilence (m.continousSilenceFrameCount+1) := ⟨_,rfl⟩
  have same : bookkeeping q = bookkeeping m := by rw [quieter]; rfl
  unfold onSil2Sil
  rw [← quieter,← same]
  dsimp only
  split
  · split_ifs
    · obtain ⟨_,_,_,silences⟩ := silencesOnly (frames (q.lastestConfirmedSilenceFrame+1) frame) q
      have begun := voiceStartKeeps ((frames (q.lastestConfirmedSilenceFrame+1) frame).foldl onSilenceDetected q) 0 true
      have ended := voiceEndKeeps
        (((frames (q.lastestConfirmedSilenceFrame+1) frame).foldl onSilenceDetected q).onVoiceStart 0 true) 0 true
      refine ended.trans (begun.trans ?_)
      rw [silences]
      rfl
    · exact silenceKeeps q _
    · rfl
  · split_ifs
    · exact voiceEndKeeps q _ false
    · exact voiceEndKeeps q frame false
    · exact handedKeeps _ _ _ _ _
    · rfl
    · unfold maybeOnVoiceEndIfLastFrame
      split
      · exact voiceEndKeeps q frame false
      · rfl
  · rfl

theorem changeKeeps (m : E2EVadModel) (change : AudioChangeState) (frame : Int) (isLast : Bool) :
    bookkeeping (m.onChange change frame isLast) = bookkeeping m := by
  cases change with
  | sil2Speech => exact sil2SpeechKeeps m frame isLast
  | sil2Sil => exact sil2SilKeeps m frame isLast
  | _ => exact onSpeechKeeps m frame isLast

theorem frameKeeps (m : E2EVadModel) (state : FrameState) (frame : Int) (isLast : Bool) :
    bookkeeping (m.detectOneFrame state frame isLast) = bookkeeping m := by
  unfold detectOneFrame resetIfEnded
  dsimp only
  split
  · exact changeKeeps {m with windowsDetector := _} _ _ _
  · exact changeKeeps {m with windowsDetector := _} _ _ _

end Frames

section Last
variable {starved : Bool} {threshold : Int} {m : E2EVadModel} {e : Detection} {start latest c : Int}

def Outputs (m : E2EVadModel) (closed : List (Int × Int)) : Prop :=
  ∃ rest, m.outputDataBuf = closed.map endedBuf ++ rest ∧ ∀ seg ∈ rest, complete seg = false

theorem tracksOutputs (tracks : Follows threshold m e) : Outputs m e.closed := by
  have phase := tracks.phase
  cases place : e.phase with
  | waiting =>
    rw [place] at phase
    exact ⟨[],by rw [phase.2.2,List.append_nil],by simp⟩
  | speaking start latest =>
    rw [place] at phase
    exact ⟨[openBuf start latest],phase.2.2.2,by simp [openBuf,complete]⟩

theorem lastSpeech (m : E2EVadModel) (c : Int) : m.speechGoesOn c true = (m.onVoiceEnd c false).endPoint := by
  unfold speechGoesOn maybeOnVoiceEndIfLastFrame
  split <;> rfl

theorem lastSpeechOutputs (tracks : Tracks starved threshold m e) (place : e.phase = .speaking start latest)
    (following : starved = false → latest+1 ≤ e.taken) (ahead : latest < c) :
    Outputs (m.onSpeech c true).resetIfEnded (e.closed ++ [(start,c)]) := by
  have silenced := silenceTracks tracks 0
  have inside : (m.setSilence 0).vadStateMachine = .inSpeechSegment := (openTracks silenced.toFollows place).1
  unfold onSpeech
  simp only [inside,if_true,lastSpeech]
  exact tracksOutputs (closeTracks silenced place following ahead).toFollows

theorem lastResumeOutputs (tracks : Tracks starved threshold m e) (place : e.phase = .speaking start latest)
    (following : starved = false → latest+1 ≤ e.taken) (ahead : latest < c) :
    Outputs (m.onSil2Speech c true).resetIfEnded (e.closed ++ [(start,c)]) := by
  have silenced := silenceTracks tracks 0
  have inside := (openTracks silenced.toFollows place).1
  have filled := filledTracks silenced place following ahead
  have closed := closeTracks filled rfl (fun fed => by have := following fed; dsimp only; omega) (by omega : c-1 < c)
  unfold onSil2Speech
  simp only [inside,lastSpeech]
  exact tracksOutputs closed.toFollows

theorem lastHushOutputs (tracks : Tracks starved threshold m e) (place : e.phase = .speaking start latest)
    (following : starved = false → latest+1 ≤ e.taken)
    (pause : 0 ≤ e.silence ∧ latest = c-1-max (e.silence-lookahead) 0) :
    Outputs (m.onSil2Sil c true).resetIfEnded
      (if (e.silence+1)*10 ≥ threshold then e.closed ++ [(start,c-lookback threshold)] else e.closed ++ [(start,c)]) := by
  have quieter : Tracks starved threshold (m.setSilence (m.continousSilenceFrameCount+1)) {e with silence := e.silence+1} := by
    rw [tracks.silence]
    exact silenceTracks tracks (e.silence+1)
  obtain ⟨inside,begun,_⟩ := openTracks quieter.toFollows place
  have opts : (m.setSilence (m.continousSilenceFrameCount+1)).opts = {} := tracks.opts
  have back := lookbackDefault opts quieter.threshold
  unfold lookahead at pause
  unfold onSil2Sil
  simp only [inside,back,quieter.silence,quieter.threshold,opts]
  by_cases ended : (e.silence+1)*10 ≥ threshold
  · rw [if_pos ended,if_pos ended]
    have within := lookbackWithin (by omega) ended
    exact tracksOutputs (closeTracks quieter place following (by omega)).toFollows
  · rw [if_neg ended,if_neg ended]
    have closed := tracksOutputs (closeTracks quieter place following (by omega : latest < c)).toFollows
    split
    · exact closed
    · exact closed

theorem fakeEndOutput (reached : m.latestConfirmedSpeechFrame = 0) :
    ((m.onVoiceStart 0 true).onVoiceEnd 0 true).endPoint.resetIfEnded.outputDataBuf = m.outputDataBuf := by
  have kept (r : E2EVadModel) : r.resetIfEnded.outputDataBuf = r.outputDataBuf := by
    unfold resetIfEnded
    split <;> rfl
  have begun : m.onVoiceStart 0 true = {m with confirmedStartFrame := 0} := rfl
  have empty : frames (m.latestConfirmedSpeechFrame+1) 0 = [] := by simp [frames,reached]
  rw [kept,begun]
  unfold onVoiceEnd
  simp only [empty]
  rfl

theorem lastWaitOutputs (tracks : Tracks starved threshold m e) (place : e.phase = .waiting) (low : 0 ≤ e.taken)
    (within : c ≤ m.frmCnt) : Outputs (m.onSil2Sil c true).resetIfEnded e.closed := by
  have phase := tracks.phase
  rw [place] at phase
  obtain ⟨outside,reached,buffer⟩ := phase
  obtain ⟨q,quieter⟩ : ∃ q, q = m.setSilence (m.continousSilenceFrameCount+1) := ⟨_,rfl⟩
  have outside' : q.vadStateMachine = .startPointNotDetected := by rw [quieter]; exact outside
  by_cases none : q.numberEndTimeDetected = 0
  · have reached' : q.latestConfirmedSpeechFrame = 0 := by rw [quieter]; exact reached
    have buffer' : q.outputDataBuf = e.closed.map endedBuf := by rw [quieter]; exact buffer
    have silent : ((frames (q.lastestConfirmedSilenceFrame+1) c).foldl onSilenceDetected q).latestConfirmedSpeechFrame = 0 ∧
        ((frames (q.lastestConfirmedSilenceFrame+1) c).foldl onSilenceDetected q).outputDataBuf = e.closed.map endedBuf := by
      obtain ⟨_,_,_,silences⟩ := silencesOnly (frames (q.lastestConfirmedSilenceFrame+1) c) q
      rw [silences]
      exact ⟨reached',buffer'⟩
    unfold onSil2Sil
    rw [← quieter]
    simp only [outside']
    rw [if_pos (Or.inr ⟨trivial,none⟩)]
    exact ⟨[],by rw [fakeEndOutput silent.1,silent.2,List.append_nil],by simp⟩
  · have same : m.onSil2Sil c true = m.onSil2Sil c false := by
      unfold onSil2Sil
      rw [← quieter]
      simp only [outside',none,Bool.false_eq_true,and_false]
    rw [same]
    have outputs := tracksOutputs (waitTracks tracks place low within).toFollows
    exact outputs

theorem lastSpeakOutputs (tracks : Tracks starved threshold m e) (place : e.phase = .waiting) (low : 0 ≤ e.taken)
    (before : e.taken < c) (within : c ≤ m.frmCnt) : Outputs (m.onSil2Speech c true).resetIfEnded e.closed := by
  have phase := (silenceTracks tracks 0).phase
  rw [place] at phase
  have same : m.onSil2Speech c true = m.onSil2Speech c false := by
    unfold onSil2Speech
    simp only [phase.1]
  rw [same]
  have outputs := tracksOutputs (speakTracks tracks place low before within).toFollows
  exact outputs

/- The last frame ends an open segment; a segment it only begins is not reported. -/
theorem lastOutputs (tracks : Tracks starved threshold m e) (sound : Sound starved e c) (within : c ≤ m.frmCnt)
    (state : FrameState) : Outputs (m.detectOneFrame state c true) (lastStep threshold e state c) := by
  have detected := detectedTracks tracks sound.window state
  obtain ⟨before,_⟩ := windowChange e.window state
  have early (place : e.phase = .waiting) (starts : (e.window.detectOneFrame state).1 = .sil2Speech) : e.taken < c :=
    startsLater sound place starts
  obtain ⟨_,⟨low,_⟩,phase⟩ := sound
  unfold detectOneFrame lastStep
  rw [tracks.window] at detected ⊢
  cases place : e.phase with
  | waiting =>
    simp only [place] at phase ⊢
    cases change : (e.window.detectOneFrame state).1 with
    | sil2Speech =>
      have outputs := lastSpeakOutputs detected place low (early place change) within
      exact outputs
    | sil2Sil =>
      have outputs := lastWaitOutputs detected place low within
      exact outputs
    | speech2Sil => simp [before,change,changeFrom] at phase
    | speech2Speech => simp [before,change,changeFrom] at phase
  | speaking start latest =>
    simp only [place] at phase ⊢
    obtain ⟨speaking,loud⟩ := phase
    have pause := speaking.pause
    have hand : starved = false → latest+1 ≤ e.taken := fun fed => Int.le_of_eq (speaking.ordered fed).1.symm
    cases change : (e.window.detectOneFrame state).1 with
    | sil2Sil =>
      have outputs := lastHushOutputs detected place hand pause
      simp only [true_and]
      exact outputs
    | sil2Speech =>
      have outputs := lastResumeOutputs (c := c) detected place hand (by omega)
      exact outputs
    | speech2Sil =>
      have outputs := lastSpeechOutputs (c := c) detected place hand (by omega)
      exact outputs
    | speech2Speech =>
      have outputs := lastSpeechOutputs (c := c) detected place hand (by omega)
      exact outputs

end Last

section Loop
variable {starved : Bool} {threshold : Int} {m : E2EVadModel} {e : Detection} {c : Int}

structure At (m : E2EVadModel) (scores : List FrameState) (c : Int) (n : Nat) : Prop where
  within : n ≤ scores.length
  count : m.frmCnt = c+n
  before : m.idxPreChunk = c+n-scores.length

theorem loopFrame {scores : List FrameState} {n : Nat} (here : At m scores c (n+1)) (isLast : Bool) :
    ∃ state, scores.drop (scores.length-(n+1)) = state::scores.drop (scores.length-n) ∧
      m.detectFrames scores isLast (n+1) =
        (m.detectOneFrame state c (isLast ∧ n = 0)).detectFrames scores isLast n := by
  have bound : scores.length-(n+1) < scores.length := by have := here.within; omega
  have next : scores.length-(n+1)+1 = scores.length-n := by have := here.within; omega
  have frame : m.frmCnt-1-n = c := by have := here.count; omega
  have place : (c-m.idxPreChunk).toNat = scores.length-(n+1) := by
    have := here.before
    have := here.within
    omega
  have nonneg : ¬c-m.idxPreChunk < 0 := by
    have := here.before
    have := here.within
    omega
  refine ⟨scores[scores.length-(n+1)],by rw [List.drop_eq_getElem_cons bound,next],?_⟩
  have state : m.getFrameState c scores = scores[scores.length-(n+1)] := by
    unfold getFrameState
    simp only [nonneg,if_false,place]
    exact (List.getElem_eq_getD _).symm
  simp only [detectFrames,frame,state]

theorem loopNext {scores : List FrameState} {n : Nat} (here : At m scores c (n+1)) (state : FrameState) (isLast : Bool) :
    At (m.detectOneFrame state c isLast) scores (c+1) n := by
  have kept := frameKeeps m state c isLast
  have count : (m.detectOneFrame state c isLast).frmCnt = m.frmCnt := congrArg Prod.fst kept
  have before : (m.detectOneFrame state c isLast).idxPreChunk = m.idxPreChunk := congrArg (·.2.2.1) kept
  obtain ⟨within,counted,started⟩ := here
  exact ⟨by omega,by omega,by omega⟩

theorem loopKeeps (scores : List FrameState) (isLast : Bool) (n : Nat) (m : E2EVadModel) :
    bookkeeping (m.detectFrames scores isLast n) = bookkeeping m := by
  induction n generalizing m with
  | zero => rfl
  | succ n ih => exact (ih _).trans (frameKeeps m _ _ _)

theorem loopTracks {scores : List FrameState} (n : Nat) (here : At m scores c n) (tracks : Tracks starved threshold m e)
    (sound : Sound starved e c) : Tracks starved threshold (m.detectFrames scores false n)
      (run starved threshold e c (scores.drop (scores.length-n))) := by
  induction n generalizing m e c with
  | zero => simpa [detectFrames,run] using tracks
  | succ n ih =>
    obtain ⟨state,rest,stepped⟩ := loopFrame here false
    have within : c ≤ m.frmCnt := by have := here.count; omega
    rw [rest,stepped]
    exact ih (loopNext here state false) (stepTracks tracks sound within state) (stepSound state sound)

theorem lastLoop {scores : List FrameState} (n : Nat) (here : At m scores c (n+1))
    (tracks : Tracks starved threshold m e) (sound : Sound starved e c) :
    Outputs (m.detectFrames scores true (n+1))
      (lastRun starved threshold e c (scores.drop (scores.length-(n+1)))) := by
  induction n generalizing m e c with
  | zero =>
    obtain ⟨state,rest,stepped⟩ := loopFrame here true
    have within : c ≤ m.frmCnt := by have := here.count; omega
    rw [rest,stepped,Nat.sub_zero,List.drop_length]
    exact lastOutputs tracks sound within state
  | succ n ih =>
    obtain ⟨state,rest,stepped⟩ := loopFrame here true
    have within : c ≤ m.frmCnt := by have := here.count; omega
    have more : (true ∧ n+1 = 0 : Bool) = false := by simp
    rw [more] at stepped
    have next := loopNext here state false
    have outputs := ih next (stepTracks tracks sound within state) (stepSound state sound)
    obtain ⟨second,others,split⟩ : ∃ second others, scores.drop (scores.length-(n+1)) = second::others :=
      List.exists_cons_of_ne_nil (by have := next.within; simp; omega)
    rw [split] at outputs
    rw [rest,stepped,split]
    exact outputs

end Loop

section Calls
variable {m : E2EVadModel} {e : Detection} {c : Int} {samples n : Nat} {scores : List FrameState}

def spanMs (segment : Int × Int) : Nat × Nat := ((segment.1*10).toNat,((segment.2+1)*10).toNat)

theorem doneReported {done rest : List SpeechSegmentBuf} (buffer : m.outputDataBuf = done ++ rest)
    (ended : ∀ seg ∈ done, complete seg) (unfinished : ∀ seg ∈ rest, complete seg = false)
    (emitted : m.outputDataBufOffset ≤ done.length) : m.outputSegments =
      ((done.drop m.outputDataBufOffset).map fun seg => (seg.startMs.toNat,seg.endMs.toNat),
        {m with outputDataBufOffset := done.length}) := by
  have finished : (done.drop m.outputDataBufOffset).filter complete = done.drop m.outputDataBufOffset :=
    List.filter_eq_self.mpr fun seg inside => ended seg (List.mem_of_mem_drop inside)
  have found : (m.outputDataBuf.drop m.outputDataBufOffset).filter complete = done.drop m.outputDataBufOffset := by
    rw [buffer,List.drop_append_of_le_length emitted,List.filter_append,finished,
      List.filter_eq_nil_iff.mpr (by simpa using unfinished),List.append_nil]
  have count : m.outputDataBufOffset+(done.length-m.outputDataBufOffset) = done.length := by omega
  unfold outputSegments
  simp only [found,List.length_drop,count]

theorem outputsReported {closed : List (Int × Int)} (outputs : Outputs m closed)
    (emitted : m.outputDataBufOffset ≤ closed.length) : m.outputSegments =
      ((closed.drop m.outputDataBufOffset).map spanMs,{m with outputDataBufOffset := closed.length}) := by
  obtain ⟨rest,buffer,unfinished⟩ := outputs
  have reported := doneReported buffer (List.forall_mem_map.mpr fun _ _ => rfl) unfinished (by rw [List.length_map]; exact emitted)
  rw [reported,List.length_map,← List.map_drop,List.map_map]
  rfl

structure Fed (samples : Nat) (m : E2EVadModel) (c : Int) : Prop where
  all : m.dataBufAllSize = samples
  fits : samples < 2^31
  room : samples ≠ 0 → 160 ≤ m.dataBufSize ∧ 160*c+240 ≤ samples
  fresh : samples = 0 → c = 0

structure Between (m : E2EVadModel) (e : Detection) (c : Int) (samples : Nat) : Prop where
  follows : Follows m.maxEndSilFrameCntThresh m e
  sound : Sound false e c
  count : m.frmCnt = c
  before : m.idxPreChunk = c
  emitted : m.outputDataBufOffset = e.closed.length
  fed : Fed samples m c

/- A chunk of `k` frames comes with the samples of these frames. -/
def Framed (scores : List FrameState) (samples : Nat) : Prop :=
  scores ≠ [] ∧ (scores.length-1)*160+400 ≤ samples

def entered (m : E2EVadModel) (scores : List FrameState) (samples : Nat) (maxEndSilenceMs : Int) : E2EVadModel :=
  ((m.setEndSilence maxEndSilenceMs).computeDecibel samples).computeScores scores

theorem fedNext (fed : Fed samples m c) (framed : Framed scores n) (fits : samples+n < 2^31) (maxEndSilenceMs : Int) :
    Fed (samples+n) (entered m scores n maxEndSilenceMs) (c+scores.length) := by
  obtain ⟨all,_,room,fresh⟩ := fed
  have some := List.length_pos_iff.mpr framed.1
  have covered := framed.2
  have given : asI32 n = n := asI32Fits (by omega) (by omega)
  have sum : asI32 (samples+n) = samples+n := asI32Fits (by omega) (by omega)
  by_cases first : samples = 0
  · have start := fresh first
    have counted : (m.setEndSilence maxEndSilenceMs).computeDecibel n = _ :=
      if_pos (show m.dataBufAllSize = 0 by omega)
    unfold entered
    rw [counted,given]
    exact ⟨by dsimp only [computeScores]; omega,fits,fun _ => ⟨by dsimp only [computeScores]; omega,by omega⟩,by omega⟩
  · obtain ⟨enough,covers⟩ := room first
    have counted : (m.setEndSilence maxEndSilenceMs).computeDecibel n = _ :=
      if_neg (show m.dataBufAllSize ≠ 0 by omega)
    have total : asI32 ((m.setEndSilence maxEndSilenceMs).dataBufAllSize+n) = samples+n := by
      rw [← sum,← all]
      rfl
    unfold entered
    rw [counted,given,total]
    exact ⟨by dsimp only [computeScores]; omega,fits,fun _ => ⟨enough,by omega⟩,by omega⟩

theorem enteredCount (m : E2EVadModel) (scores : List FrameState) (samples : Nat) (maxEndSilenceMs : Int) :
    (entered m scores samples maxEndSilenceMs).frmCnt = m.frmCnt+scores.length ∧
    (entered m scores samples maxEndSilenceMs).idxPreChunk = m.idxPreChunk ∧
    (entered m scores samples maxEndSilenceMs).outputDataBufOffset = m.outputDataBufOffset ∧
    (entered m scores samples maxEndSilenceMs).vadStateMachine = m.vadStateMachine ∧
    ∀ threshold e, Follows threshold m e → Follows (maxEndSilenceMs-150) (entered m scores samples maxEndSilenceMs) e := by
  unfold entered computeScores computeDecibel
  split <;> exact ⟨rfl,rfl,rfl,rfl,fun threshold e follows => {follows with
    threshold := by
      change maxEndSilenceMs-m.opts.speechToSilTimeThres = _
      rw [follows.opts]}⟩

theorem notEnded {threshold : Int} (follows : Follows threshold m e) : m.vadStateMachine ≠ .endPointDetected := by
  have phase := follows.phase
  cases place : e.phase with
  | waiting => rw [place] at phase; simp [phase.1]
  | speaking start latest => rw [place] at phase; simp [phase.1]

theorem enterCall (between : Between m e c samples) (framed : Framed scores n) (fits : samples+n < 2^31)
    (maxEndSilenceMs : Int) :
    Tracks false (maxEndSilenceMs-150) (entered m scores n maxEndSilenceMs) e ∧
    At (entered m scores n maxEndSilenceMs) scores c scores.length ∧
    (entered m scores n maxEndSilenceMs).outputDataBufOffset = e.closed.length ∧
    Fed (samples+n) (entered m scores n maxEndSilenceMs) (c+scores.length) := by
  obtain ⟨count,before,emitted,_,follows⟩ := enteredCount m scores n maxEndSilenceMs
  have fed := fedNext between.fed framed fits maxEndSilenceMs
  have some := List.length_pos_iff.mpr framed.1
  have covered := framed.2
  obtain ⟨enough,room⟩ := fed.room (by omega)
  have tracks : Tracks false (maxEndSilenceMs-150) (entered m scores n maxEndSilenceMs) e :=
    {follows _ e between.follows with
      buffers := ⟨enough,by rw [fed.all,count,between.count]; exact room,by rw [fed.all]; exact_mod_cast fed.fits⟩}
  exact ⟨tracks,⟨Nat.le_refl _,by rw [count,between.count],by rw [before,between.before]; omega⟩,
    emitted.trans between.emitted,fed⟩

theorem commonCall (between : Between m e c samples) (framed : Framed scores n) (fits : samples+n < 2^31)
    (maxEndSilenceMs : Int) :
    (m.detectChunk scores n false maxEndSilenceMs).1 =
      ((run false (maxEndSilenceMs-150) e c scores).closed.drop e.closed.length).map spanMs ∧
    Between (m.detectChunk scores n false maxEndSilenceMs).2 (run false (maxEndSilenceMs-150) e c scores)
      (c+scores.length) (samples+n) := by
  obtain ⟨tracks,here,emitted,fed⟩ := enterCall between framed fits maxEndSilenceMs
  obtain ⟨m1,entry⟩ : ∃ m1, m1 = entered m scores n maxEndSilenceMs := ⟨_,rfl⟩
  rw [← entry] at tracks here emitted fed
  have looped := loopTracks scores.length here tracks between.sound
  have sound : Sound false (run false (maxEndSilenceMs-150) e c scores) (c+scores.length) :=
    runSound scores between.sound
  have kept := loopKeeps scores false scores.length m1
  have grown : e.closed.length ≤ (run false (maxEndSilenceMs-150) e c scores).closed.length :=
    (runGrows scores e c).length_le
  rw [Nat.sub_self,List.drop_zero] at looped
  obtain ⟨m2,walked⟩ : ∃ m2, m2 = m1.detectFrames scores false scores.length := ⟨_,rfl⟩
  rw [← walked] at looped kept
  have offset : m2.outputDataBufOffset = e.closed.length := (congrArg (·.2.1) kept).trans emitted
  have common : m1.detectCommonFrames scores = {m2 with idxPreChunk := m2.idxPreChunk+scores.length} := by
    rw [walked]
    exact if_neg (notEnded tracks.toFollows)
  have outputs : Outputs m2 (run false (maxEndSilenceMs-150) e c scores).closed := tracksOutputs looped.toFollows
  have reported : ({m2 with idxPreChunk := m2.idxPreChunk+scores.length} : E2EVadModel).outputSegments =
      (((run false (maxEndSilenceMs-150) e c scores).closed.drop m2.outputDataBufOffset).map spanMs,_) :=
    outputsReported outputs (by rw [show _ = e.closed.length from offset]; exact grown)
  have called : m.detectChunk scores n false maxEndSilenceMs =
      ({m2 with idxPreChunk := m2.idxPreChunk+scores.length} : E2EVadModel).outputSegments := by
    rw [← common,entry]
    rfl
  have count : m2.frmCnt = c+scores.length := (congrArg Prod.fst kept).trans here.count
  have start : m1.idxPreChunk = c := by have := here.before; omega
  have before : m2.idxPreChunk = c := (congrArg (·.2.2.1) kept).trans start
  have all : m2.dataBufAllSize = ((samples+n : Nat) : Int) := (congrArg (·.2.2.2) kept).trans fed.all
  rw [called,reported,offset]
  exact ⟨rfl,{
    follows := {looped.toFollows with threshold := rfl}
    sound := sound
    count := count
    before := by rw [← before]
    emitted := rfl
    fed := ⟨all,fed.fits,fun some => ⟨looped.buffers.1,(fed.room some).2⟩,fed.fresh⟩}⟩

theorem lastCall {starved : Bool} {threshold : Int} (some : scores ≠ []) (here : At m scores c scores.length)
    (tracks : Tracks starved threshold m e) (sound : Sound starved e c) (emitted : m.outputDataBufOffset = e.closed.length) :
    (m.detectLastFrames scores).outputSegments.1 =
      ((lastRun starved threshold e c scores).drop e.closed.length).map spanMs := by
  obtain ⟨n,size⟩ := Nat.exists_eq_succ_of_ne_zero (mt List.length_eq_zero_iff.mp some)
  have outputs := lastLoop n (size ▸ here) tracks sound
  have kept := loopKeeps scores true scores.length m
  have offset : (m.detectFrames scores true scores.length).outputDataBufOffset = e.closed.length :=
    (congrArg (·.2.1) kept).trans emitted
  have last : m.detectLastFrames scores = m.detectFrames scores true scores.length := if_neg (notEnded tracks.toFollows)
  rw [← Nat.succ_eq_add_one,← size,Nat.sub_self,List.drop_zero] at outputs
  rw [last,outputsReported outputs (by rw [offset]; exact (lastRunGrows scores e c).length_le),offset]

theorem finalCall (between : Between m e c samples) (framed : Framed scores n) (fits : samples+n < 2^31)
    (maxEndSilenceMs : Int) : (m.detectChunk scores n true maxEndSilenceMs).1 =
      ((lastRun false (maxEndSilenceMs-150) e c scores).drop e.closed.length).map spanMs := by
  obtain ⟨tracks,here,emitted,_⟩ := enterCall between framed fits maxEndSilenceMs
  exact lastCall framed.1 here tracks between.sound emitted

theorem voiceEndOutput {done : List SpeechSegmentBuf} {start latest taken last : Int} (opts : m.opts = {})
    (following : latest+1 ≤ taken) (behind : latest ≤ last) :
    ((openAt m done start latest taken).onVoiceEnd last false).outputDataBuf = done ++ [endedBuf (start,last)] := by
  rcases Int.lt_or_eq_of_le behind with ahead | rfl
  · rw [voiceEnd done start opts (Or.inl following) ahead]
  · have handed := handOn (f := latest) (m := {openAt m done start latest taken with confirmedEndFrame := latest}) opts
      (Or.inl (by dsimp only [openAt]; omega)) (rfl : _ = done ++ [⟨start*10,(latest+1)*10,true,false⟩]) true
    have empty : frames ((openAt m done start latest taken).latestConfirmedSpeechFrame+1) latest = [] := by
      simp [frames,openAt]
    unfold onVoiceEnd
    simp only [empty,List.foldl_nil,Bool.false_eq_true,if_false,handed]
    rfl

theorem finalizeCall (between : Between m e c samples) (maxEndSilenceMs : Int) :
    (m.finalizeStreaming maxEndSilenceMs).1 = ((finish e c).drop e.closed.length).map spanMs := by
  obtain ⟨m1,set⟩ : ∃ m1, m1 = m.setEndSilence maxEndSilenceMs := ⟨_,rfl⟩
  have follows : Follows (maxEndSilenceMs-150) m1 e := by
    rw [set]
    exact {between.follows with
      threshold := by
        change maxEndSilenceMs-m.opts.speechToSilTimeThres = _
        rw [between.follows.opts]}
  have count : m1.frmCnt = c := by rw [set]; exact between.count
  have emitted : m1.outputDataBufOffset = e.closed.length := by rw [set]; exact between.emitted
  have phase := follows.phase
  have sound := between.sound.phase
  unfold finalizeStreaming finish
  rw [← set]
  cases place : e.phase with
  | waiting =>
    have outputs := outputsReported (tracksOutputs follows) (Nat.le_of_eq emitted)
    rw [place] at phase
    have outside : ¬(m1.vadStateMachine = .inSpeechSegment ∧ m1.frmCnt > 0) := by simp [phase.1]
    simp only [if_neg outside,outputs,emitted]
  | speaking start latest =>
    obtain ⟨inside,_,opened⟩ := openTracks follows place
    rw [place] at sound
    obtain ⟨speaking,_⟩ := sound
    have pause := speaking.pause
    have begun := speaking.begun
    have during : m1.vadStateMachine = .inSpeechSegment ∧ m1.frmCnt > 0 := ⟨inside,by omega⟩
    have output : (m1.maybeOnVoiceEndIfLastFrame true (m1.frmCnt-1)).outputDataBuf =
        e.closed.map endedBuf ++ [endedBuf (start,c-1)] := by
      have ended : ((openAt m1 (e.closed.map endedBuf) start latest e.taken).onVoiceEnd (c-1) false).outputDataBuf =
          e.closed.map endedBuf ++ [endedBuf (start,c-1)] :=
        voiceEndOutput follows.opts (Int.le_of_eq (speaking.ordered rfl).1.symm) (by omega)
      rw [count]
      rwa [← opened] at ended
    have outputs : Outputs (m1.maybeOnVoiceEndIfLastFrame true (m1.frmCnt-1)) (e.closed ++ [(start,c-1)]) :=
      ⟨[],by rw [output]; simp,by simp⟩
    have offset : (m1.maybeOnVoiceEndIfLastFrame true (m1.frmCnt-1)).outputDataBufOffset = e.closed.length :=
      (congrArg (·.2.1) (voiceEndKeeps m1 (m1.frmCnt-1) false)).trans emitted
    simp only [if_pos during,outputsReported outputs (by rw [offset]; simp),offset]

theorem newBetween : Between (new {}) (initial {}) 0 0 where
  follows := ⟨rfl,rfl,rfl,rfl,rfl,rfl,rfl,rfl,rfl⟩
  sound := initialSound
  count := rfl
  before := rfl
  emitted := rfl
  fed := ⟨rfl,by decide,by simp,fun _ => rfl⟩

end Calls

end Qwen3Asr.E2EVadChunks
