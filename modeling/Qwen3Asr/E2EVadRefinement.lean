import Qwen3Asr.Endpointer

/-! The detector of the code is the endpointer: with the default configuration each of its frames
is a step of the endpointer, as long as the sample counter feeds it or once it starves. -/
namespace Qwen3Asr.E2EVadRefinement
open Library.Word
open E2EVad E2EVadModel VadWindow Endpointer

/- The sample counters allow every silent frame seen so far to be dropped, or none. -/
def Buffers (starved : Bool) (m : E2EVadModel) : Prop := match starved with
  | true => m.dataBufSize < 160
  | false => 160 ≤ m.dataBufSize ∧ 160*m.frmCnt+240 ≤ m.dataBufAllSize ∧ m.dataBufAllSize < 2^31

def endedBuf (segment : Int × Int) : SpeechSegmentBuf := ⟨segment.1*10,(segment.2+1)*10,true,true⟩

def openBuf (start latest : Int) : SpeechSegmentBuf := ⟨start*10,(latest+1)*10,true,false⟩

def PhaseTracks (m : E2EVadModel) (closed : List (Int × Int)) : Phase → Prop
  | .waiting => m.vadStateMachine = .startPointNotDetected ∧ m.latestConfirmedSpeechFrame = 0 ∧
      m.outputDataBuf = closed.map endedBuf
  | .speaking start latest => m.vadStateMachine = .inSpeechSegment ∧ m.confirmedStartFrame = start ∧
      m.latestConfirmedSpeechFrame = latest ∧ m.outputDataBuf = closed.map endedBuf ++ [openBuf start latest]

structure Follows (threshold : Int) (m : E2EVadModel) (e : Detection) : Prop where
  opts : m.opts = {}
  threshold : m.maxEndSilFrameCntThresh = threshold
  window : m.windowsDetector = e.window
  windowSize : e.window.winSizeFrame = 20
  silence : m.continousSilenceFrameCount = e.silence
  taken : m.dataBufStartFrame = e.taken
  phase : PhaseTracks m e.closed e.phase

structure Tracks (starved : Bool) (threshold : Int) (m : E2EVadModel) (e : Detection) : Prop
    extends Follows threshold m e where
  buffers : Buffers starved m

section Pops
variable {m : E2EVadModel}

theorem shiftDefault (opts : m.opts = {}) : m.frameShift = 160 := by
  unfold frameShift
  rw [opts]
  rfl

theorem popStopped (opts : m.opts = {}) {frame : Int} (stopped : frame ≤ m.dataBufStartFrame ∨ m.dataBufSize < 160) :
    m.popDataBufTillFrame frame = m := by
  unfold popDataBufTillFrame
  rcases stopped with reached | short
  · rw [Int.toNat_of_nonpos (by omega)]
    rfl
  · cases (frame-m.dataBufStartFrame).toNat with
    | zero => rfl
    | succ n => exact if_neg (by rw [shiftDefault opts]; omega)

theorem popFed (opts : m.opts = {}) (n : Nat) (buffers : Buffers false m) (low : 0 ≤ m.dataBufStartFrame)
    (within : m.dataBufStartFrame+n ≤ m.frmCnt) :
    ∃ size, 160 ≤ size ∧
      popFrames n m = {m with dataBufStartFrame := m.dataBufStartFrame+n, dataBufSize := size} := by
  induction n generalizing m with
  | zero => exact ⟨m.dataBufSize,buffers.1,by simp [popFrames]⟩
  | succ n ih =>
    obtain ⟨enough,room,fits⟩ := buffers
    have product : asI32 ((m.dataBufStartFrame+1)*160) = (m.dataBufStartFrame+1)*160 :=
      asI32Fits (by omega) (by omega)
    have rest : asI32 (m.dataBufAllSize-(m.dataBufStartFrame+1)*160) = m.dataBufAllSize-(m.dataBufStartFrame+1)*160 :=
      asI32Fits (by omega) (by omega)
    obtain ⟨size,left,popped⟩ := ih (m := {m with
      dataBufStartFrame := m.dataBufStartFrame+1
      dataBufSize := m.dataBufAllSize-(m.dataBufStartFrame+1)*160}) opts
      ⟨by dsimp only; omega,room,fits⟩ (by dsimp only; omega) (by dsimp only; omega)
    refine ⟨size,left,?_⟩
    simp only [popFrames,shiftDefault opts,if_pos enough,product,rest,popped,Int.natCast_succ]
    congr 1
    omega

theorem popTill {starved : Bool} (opts : m.opts = {}) (frame : Int) (buffers : Buffers starved m)
    (low : 0 ≤ m.dataBufStartFrame) (within : frame ≤ m.frmCnt) :
    ∃ size, Buffers starved {m with dataBufSize := size} ∧ m.popDataBufTillFrame frame =
      {m with dataBufStartFrame := skipTo starved m.dataBufStartFrame frame, dataBufSize := size} := by
  cases starved with
  | true => exact ⟨m.dataBufSize,buffers,by rw [popStopped opts (Or.inr buffers)]; rfl⟩
  | false =>
    rcases Int.le_total frame m.dataBufStartFrame with reached | ahead
    · exact ⟨m.dataBufSize,buffers,by rw [popStopped opts (Or.inl reached),skipToFed,Int.max_eq_left reached]⟩
    · obtain ⟨size,enough,popped⟩ := popFed opts (frame-m.dataBufStartFrame).toNat buffers low (by omega)
      refine ⟨size,⟨enough,buffers.2⟩,?_⟩
      unfold popDataBufTillFrame
      rw [popped,skipToFed,Int.max_eq_right ahead]
      congr 1
      omega

end Pops

section Voice
variable {m : E2EVadModel} {done : List SpeechSegmentBuf} {start latest taken : Int}

def openAt (m : E2EVadModel) (done : List SpeechSegmentBuf) (start latest taken : Int) : E2EVadModel :=
  {m with
    latestConfirmedSpeechFrame := latest
    dataBufStartFrame := taken
    outputDataBuf := done ++ [openBuf start latest]}

theorem modifyOpen (done : List SpeechSegmentBuf) (last : SpeechSegmentBuf) (f : SpeechSegmentBuf → SpeechSegmentBuf) :
    (done ++ [last]).modify done.length f = done ++ [f last] := by
  induction done with
  | nil => rfl
  | cons _ done ih => simpa using ih

theorem handOn (opts : m.opts = {}) {f endMs : Int} (following : f ≤ m.dataBufStartFrame ∨ m.dataBufSize < 160)
    (opened : m.outputDataBuf = done ++ [⟨start*10,endMs,true,false⟩]) (ends : Bool) :
    m.popDataToOutputBuf f 1 false ends = {m with
      dataBufStartFrame := m.dataBufStartFrame+1
      outputDataBuf := done ++ [⟨start*10,(f+1)*10,true,ends⟩]} := by
  have some : ¬(m.outputDataBuf = [] ∨ false = true) := by simp [opened]
  unfold popDataToOutputBuf
  simp only [popStopped opts following,if_neg some]
  simp [opened,opts,modifyOpen]

variable (done start)

theorem voiceAfter (opts : m.opts = {}) (following : latest+1 ≤ taken ∨ m.dataBufSize < 160) :
    (openAt m done start latest taken).onVoiceDetected (latest+1) = openAt m done start (latest+1) (taken+1) :=
  handOn (m := {openAt m done start latest taken with latestConfirmedSpeechFrame := latest+1}) opts following rfl false

theorem voiceRun (opts : m.opts = {}) (following : latest+1 ≤ taken ∨ m.dataBufSize < 160) (n : Nat) :
    ((List.range n).map fun i : Nat => latest+1+(i:Int)).foldl onVoiceDetected (openAt m done start latest taken) =
      openAt m done start (latest+n) (taken+n) := by
  induction n with
  | zero => simp
  | succ n ih =>
    have next : (openAt m done start (latest+n) (taken+n)).onVoiceDetected (latest+n+1) =
        openAt m done start (latest+n+1) (taken+n+1) := voiceAfter done start opts (by omega)
    have frame : latest+1+(n:Int) = latest+n+1 := by omega
    rw [List.range_succ,List.map_append,List.foldl_append,ih]
    simp only [List.map_cons,List.map_nil,List.foldl_cons,List.foldl_nil,frame,next,Int.natCast_succ,← Int.add_assoc]

theorem voiceUpTo (opts : m.opts = {}) (following : latest+1 ≤ taken ∨ m.dataBufSize < 160) {stop : Int}
    (ahead : latest < stop) : (frames (latest+1) stop).foldl onVoiceDetected (openAt m done start latest taken) =
      openAt m done start (stop-1) (taken+(stop-1-latest)) := by
  have count : ((stop-(latest+1)).toNat : Int) = stop-1-latest := by omega
  have frame : latest+(stop-1-latest) = stop-1 := by omega
  unfold frames
  rw [voiceRun done start opts following,count,frame]

theorem voiceEnd (opts : m.opts = {}) (following : latest+1 ≤ taken ∨ m.dataBufSize < 160) {last : Int}
    (ahead : latest < last) : (openAt m done start latest taken).onVoiceEnd last false = {m with
      latestConfirmedSpeechFrame := last-1
      dataBufStartFrame := taken+(last-latest)
      confirmedEndFrame := last
      outputDataBuf := done ++ [endedBuf (start,last)]
      numberEndTimeDetected := m.numberEndTimeDetected+1} := by
  have handed := handOn (f := last)
    (m := {openAt m done start (last-1) (taken+(last-1-latest)) with confirmedEndFrame := last}) opts (by dsimp only [openAt]; omega) (rfl : _ = done ++ [openBuf start (last-1)]) true
  have taken' : taken+(last-1-latest)+1 = taken+(last-latest) := by omega
  have spoken : (frames ((openAt m done start latest taken).latestConfirmedSpeechFrame+1) last).foldl onVoiceDetected
      (openAt m done start latest taken) = openAt m done start (last-1) (taken+(last-1-latest)) :=
    voiceUpTo done start opts following ahead
  unfold onVoiceEnd
  simp only [spoken,Bool.false_eq_true,if_false,handed]
  simp only [openAt,taken',endedBuf]

end Voice

section Simulation
variable {starved : Bool} {threshold : Int} {m : E2EVadModel} {e : Detection} {start latest c : Int}

theorem openTracks (tracks : Follows threshold m e) (place : e.phase = .speaking start latest) :
    m.vadStateMachine = .inSpeechSegment ∧ m.confirmedStartFrame = start ∧
    m = openAt m (e.closed.map endedBuf) start latest e.taken := by
  have phase := tracks.phase
  rw [place] at phase
  obtain ⟨inside,begun,reached,buffer⟩ := phase
  subst reached
  exact ⟨inside,begun,by simp only [openAt,← buffer,← tracks.taken]⟩

theorem nextOrStopped (tracks : Tracks starved threshold m e) (following : starved = false → latest+1 ≤ e.taken) :
    latest+1 ≤ e.taken ∨ m.dataBufSize < 160 := by
  cases starved with
  | true => exact Or.inr tracks.buffers
  | false => exact Or.inl (following rfl)

theorem tooLongDefault (opts : m.opts = {}) (begun : m.confirmedStartFrame = start) :
    m.tooLong c = decide (c-start+1 > maxFrames) := by
  unfold tooLong
  rw [begun,opts]
  rfl

theorem insideKept (inside : m.vadStateMachine = .inSpeechSegment) : m.resetIfEnded = m :=
  if_neg (by simp [inside])

theorem outsideKept (outside : m.vadStateMachine = .startPointNotDetected) : m.resetIfEnded = m :=
  if_neg (by simp [outside])

theorem endedReset (opts : m.opts = {}) : m.endPoint.resetIfEnded = m.endPoint.resetDetection :=
  if_pos ⟨rfl,by change m.opts.detectMode = 1; rw [opts]⟩

theorem closeTracks (tracks : Tracks starved threshold m e) (place : e.phase = .speaking start latest)
    (following : starved = false → latest+1 ≤ e.taken) {last : Int} (ahead : latest < last) :
    Tracks starved threshold (m.onVoiceEnd last false).endPoint.resetIfEnded (close e start latest last) := by
  obtain ⟨_,_,opened⟩ := openTracks tracks.toFollows place
  have ended := voiceEnd (m := m) (e.closed.map endedBuf) start tracks.opts (nextOrStopped tracks following) ahead
  rw [← opened] at ended
  have closed : (close e start latest last).closed.map endedBuf = e.closed.map endedBuf ++ [endedBuf (start,last)] :=
    List.map_append
  rw [endedReset (by rw [ended]; exact tracks.opts),ended]
  exact {
    opts := tracks.opts
    threshold := tracks.threshold
    window := congrArg WindowDetector.reset tracks.window
    windowSize := tracks.windowSize
    silence := rfl
    taken := rfl
    phase := ⟨rfl,rfl,closed.symm⟩
    buffers := tracks.buffers}

theorem openStep (tracks : Tracks starved threshold m e) (place : e.phase = .speaking start latest)
    (begun : m.confirmedStartFrame = start) (later : Int) (taken : Int) :
    Tracks starved threshold (openAt m (e.closed.map endedBuf) start later taken)
      {e with taken, phase := .speaking start later} where
  opts := tracks.opts
  threshold := tracks.threshold
  window := tracks.window
  windowSize := tracks.windowSize
  silence := tracks.silence
  taken := rfl
  phase := ⟨(openTracks tracks.toFollows place).1,begun,rfl,rfl⟩
  buffers := tracks.buffers

theorem heardTracks (tracks : Tracks starved threshold m e) (place : e.phase = .speaking start latest)
    (following : starved = false → latest+1 ≤ e.taken) (next : c = latest+1) :
    Tracks starved threshold (m.onVoiceDetected c) {e with taken := e.taken+(c-latest), phase := .speaking start c} := by
  obtain ⟨inside,begun,opened⟩ := openTracks tracks.toFollows place
  have spoken := voiceAfter (m := m) (e.closed.map endedBuf) start tracks.opts (nextOrStopped tracks following)
  rw [← opened] at spoken
  subst next
  rw [spoken,show latest+1-latest = 1 by omega]
  exact openStep tracks place begun (latest+1) (e.taken+1)

theorem hearTracks (tracks : Tracks starved threshold m e) (place : e.phase = .speaking start latest)
    (following : starved = false → latest+1 ≤ e.taken) (quiet : e.silence = 0) (next : c = latest+1) :
    Tracks starved threshold (m.speechGoesOn c false).resetIfEnded (hear e start latest c) := by
  obtain ⟨inside,begun,_⟩ := openTracks tracks.toFollows place
  unfold speechGoesOn hear
  rw [tooLongDefault tracks.opts begun]
  by_cases long : c-start+1 > maxFrames
  · simp only [long,decide_true,if_true]
    exact closeTracks tracks place following (by omega)
  · have heard := heardTracks tracks place following next
    have kept : (m.onVoiceDetected c).resetIfEnded = m.onVoiceDetected c := insideKept (openTracks heard.toFollows rfl).1
    simp only [long,decide_false,Bool.false_eq_true,if_false,Bool.not_false,if_true,kept]
    have silent : ({e with silence := 0, taken := e.taken+(c-latest), phase := .speaking start c} : Detection) =
        {e with taken := e.taken+(c-latest), phase := .speaking start c} := by rw [quiet]
    rw [silent]
    exact heard

theorem silenceTracks (tracks : Tracks starved threshold m e) (count : Int) :
    Tracks starved threshold (m.setSilence count) {e with silence := count} := {tracks with silence := rfl}

theorem onSpeechTracks (tracks : Tracks starved threshold m e) (place : e.phase = .speaking start latest)
    (following : starved = false → latest+1 ≤ e.taken) (next : c = latest+1) :
    Tracks starved threshold (m.onSpeech c false).resetIfEnded (hear e start latest c) := by
  have inside : (m.setSilence 0).vadStateMachine = .inSpeechSegment := (openTracks tracks.toFollows place).1
  have heard := hearTracks (silenceTracks tracks 0) place following rfl next
  unfold onSpeech
  simp only [inside,if_true]
  exact heard

theorem filledTracks (tracks : Tracks starved threshold m e) (place : e.phase = .speaking start latest)
    (following : starved = false → latest+1 ≤ e.taken) (ahead : latest < c) :
    Tracks starved threshold ((frames (m.latestConfirmedSpeechFrame+1) c).foldl onVoiceDetected m)
      {e with taken := e.taken+(c-1-latest), phase := .speaking start (c-1)} := by
  obtain ⟨inside,begun,opened⟩ := openTracks tracks.toFollows place
  have reached : m.latestConfirmedSpeechFrame = latest := by rw [opened]; rfl
  have spoken := voiceUpTo (m := m) (e.closed.map endedBuf) start tracks.opts (nextOrStopped tracks following) ahead
  rw [← opened] at spoken
  rw [reached,spoken]
  exact openStep tracks place begun (c-1) (e.taken+(c-1-latest))

theorem resumeTracks (tracks : Tracks starved threshold m e) (place : e.phase = .speaking start latest)
    (following : starved = false → latest+1 ≤ e.taken) (ahead : latest < c) :
    Tracks starved threshold (m.onSil2Speech c false).resetIfEnded (hear e start latest c) := by
  have silenced := silenceTracks tracks 0
  have inside := (openTracks silenced.toFollows place).1
  have filled := filledTracks silenced place following ahead
  have heard := hearTracks (c := c) filled rfl (fun fed => by have := following fed; dsimp only; omega) rfl (by omega)
  have taken : e.taken+(c-1-latest)+(c-(c-1)) = e.taken+(c-latest) := by omega
  unfold onSil2Speech
  simp only [inside]
  simp only [hear,close,taken] at heard ⊢
  exact heard

theorem lookbackDefault (opts : m.opts = {}) (limit : m.maxEndSilFrameCntThresh = threshold) :
    m.lookbackFrame = lookback threshold := by
  unfold lookbackFrame lookback
  rw [opts,limit]
  change max (threshold.tdiv 10-10-1) 0 = _
  omega

theorem hushTracks (tracks : Tracks starved threshold m e) (place : e.phase = .speaking start latest)
    (following : starved = false → latest+1 ≤ e.taken)
    (pause : 0 ≤ e.silence ∧ latest = c-1-max (e.silence-lookahead) 0) :
    Tracks starved threshold (m.onSil2Sil c false).resetIfEnded (hush threshold e start latest c) := by
  have quieter : Tracks starved threshold (m.setSilence (m.continousSilenceFrameCount+1)) {e with silence := e.silence+1} := by
    rw [tracks.silence]
    exact silenceTracks tracks (e.silence+1)
  obtain ⟨inside,begun,_⟩ := openTracks quieter.toFollows place
  have opts : (m.setSilence (m.continousSilenceFrameCount+1)).opts = {} := tracks.opts
  have long := tooLongDefault (c := c) opts begun
  have back := lookbackDefault opts quieter.threshold
  unfold lookahead at pause
  unfold onSil2Sil hush
  simp only [inside,long,back,quieter.silence,quieter.threshold,opts]
  by_cases ended : (e.silence+1)*10 ≥ threshold
  · rw [if_pos ended,if_pos ended]
    have within := lookbackWithin (by omega) ended
    exact closeTracks quieter place following (by omega)
  · rw [if_neg ended,if_neg ended]
    by_cases tooLong : c-start+1 > maxFrames
    · simp only [tooLong,decide_true,if_true]
      exact closeTracks quieter place following (by omega)
    · simp only [tooLong,decide_false,Bool.false_eq_true,if_false,Bool.not_false,and_self,if_true]
      by_cases near : e.silence+1 ≤ lookahead
      · have heard := heardTracks (c := c) quieter place following (by unfold lookahead at near; omega)
        have default : e.silence+1 ≤ Int.tdiv 100 10 := near
        rw [if_pos near,if_pos default,insideKept (openTracks heard.toFollows rfl).1]
        exact heard
      · have default : ¬e.silence+1 ≤ Int.tdiv 100 10 := near
        rw [if_neg near,if_neg default,insideKept inside]
        exact {quieter with phase := by have phase := quieter.phase; rwa [place] at phase}

theorem foldLatest {states : List Int} (some : states ≠ []) (m : E2EVadModel) (latest : Int) :
    states.foldl onVoiceDetected m = states.foldl onVoiceDetected {m with latestConfirmedSpeechFrame := latest} := by
  cases states with
  | nil => contradiction
  | cons state states => rfl

theorem latencyDefault (opts : m.opts = {}) (size : m.windowsDetector.winSizeFrame = 20) :
    m.latencyFrmNumAtStartPoint = latency := by
  unfold latencyFrmNumAtStartPoint
  rw [opts,size]
  rfl

theorem openedBuf (opts : m.opts = {}) (f : Int) (buffers : Buffers starved m) (low : 0 ≤ m.dataBufStartFrame)
    (within : f ≤ m.frmCnt) : ∃ size, Buffers starved {m with dataBufSize := size} ∧
      m.popDataToOutputBuf f 1 true false = {m with
        dataBufStartFrame := skipTo starved m.dataBufStartFrame f+1
        dataBufSize := size
        outputDataBuf := m.outputDataBuf ++ [openBuf f f]} := by
  obtain ⟨rest,fed,popped⟩ := popTill opts f buffers low within
  refine ⟨rest,fed,?_⟩
  unfold popDataToOutputBuf
  simp only [popped]
  simp [opts,openBuf,modifyOpen]

theorem speakTracks (tracks : Tracks starved threshold m e) (place : e.phase = .waiting) (low : 0 ≤ e.taken)
    (before : e.taken < c) (within : c ≤ m.frmCnt) :
    Tracks starved threshold (m.onSil2Speech c false).resetIfEnded (speak starved e c) := by
  have silenced := silenceTracks tracks 0
  have phase := silenced.phase
  rw [place] at phase
  obtain ⟨outside,_,buffer⟩ := phase
  have size : (m.setSilence 0).windowsDetector.winSizeFrame = 20 := by
    rw [silenced.window]
    exact silenced.windowSize
  obtain ⟨start,chosen⟩ : ∃ start, start = max e.taken (c-latency) := ⟨_,rfl⟩
  have early : start < c := by unfold latency at chosen; omega
  have startFrame : max (m.setSilence 0).dataBufStartFrame (c-(m.setSilence 0).latencyFrmNumAtStartPoint) = start := by
    rw [silenced.taken,latencyDefault silenced.opts size]
    exact chosen.symm
  obtain ⟨rest,fed,opened⟩ := openedBuf (m := {m.setSilence 0 with confirmedStartFrame := start}) silenced.opts start
    silenced.buffers (by rw [show _ = e.taken from silenced.taken]; exact low) (by dsimp only [setSilence]; omega)
  have begun : (m.setSilence 0).onVoiceStart start false = _ := (if_pos ⟨rfl,outside⟩).trans opened
  obtain ⟨q,same⟩ : ∃ q : E2EVadModel, q = {m.setSilence 0 with
    confirmedStartFrame := start
    dataBufSize := rest
    vadStateMachine := .inSpeechSegment} := ⟨_,rfl⟩
  have opts : q.opts = {} := by rw [same]; exact silenced.opts
  have buffers : Buffers starved q := by rw [same]; exact fed
  have taken : (m.setSilence 0).dataBufStartFrame = e.taken := silenced.taken
  have following : start+1 ≤ skipTo starved e.taken start+1 ∨ q.dataBufSize < 160 := by
    cases starved with
    | true => exact Or.inr buffers
    | false => exact Or.inl (by rw [skipToFed]; omega)
  have spoken : (frames (start+1) (c+1)).foldl onVoiceDetected
      (openAt q (e.closed.map endedBuf) start start (skipTo starved e.taken start+1)) = _ :=
    voiceUpTo (e.closed.map endedBuf) start opts following (by omega)
  have some : frames (start+1) (c+1) ≠ [] := by
    have count : (c+1-(start+1)).toNat ≠ 0 := by omega
    simpa [frames] using count
  have begins : {({(m.setSilence 0).onVoiceStart start false with vadStateMachine := .inSpeechSegment} : E2EVadModel) with
      latestConfirmedSpeechFrame := start} =
      openAt q (e.closed.map endedBuf) start start (skipTo starved e.taken start+1) := by
    rw [begun,same,← taken,← buffer]
    rfl
  have arrived : (m.onSil2Speech c false) = openAt q (e.closed.map endedBuf) start (c+1-1)
      (skipTo starved e.taken start+1+(c+1-1-start)) := by
    rw [← spoken,← begins,← foldLatest some]
    unfold onSil2Speech
    simp only [outside,startFrame]
  have count : c+1-1 = c := by omega
  have handed : skipTo starved e.taken start+1+(c-start) = skipTo starved e.taken start+(c+1-start) := by omega
  have window : q.windowsDetector = e.window := by rw [same]; exact silenced.window
  have threshold' : q.maxEndSilFrameCntThresh = threshold := by rw [same]; exact silenced.threshold
  have inside : q.vadStateMachine = .inSpeechSegment := by rw [same]
  have confirmed : q.confirmedStartFrame = start := by rw [same]
  have quiet : q.continousSilenceFrameCount = 0 := by rw [same]; rfl
  have kept (later taken : Int) : (openAt q (e.closed.map endedBuf) start later taken).resetIfEnded =
      openAt q (e.closed.map endedBuf) start later taken := insideKept inside
  rw [arrived,count,handed,kept]
  unfold speak
  rw [← chosen]
  exact {
    opts := opts
    threshold := threshold'
    window := window
    windowSize := tracks.windowSize
    silence := quiet
    taken := rfl
    phase := ⟨inside,confirmed,rfl,rfl⟩
    buffers := buffers}

theorem silenceDropped (tracks : Tracks starved threshold m e) (place : e.phase = .waiting) (low : 0 ≤ e.taken)
    {f : Int} (within : f ≤ m.frmCnt) : Tracks starved threshold (m.onSilenceDetected f)
      {e with taken := skipTo starved e.taken f, phase := .waiting} := by
  have phase := tracks.phase
  rw [place] at phase
  obtain ⟨outside,reached,buffer⟩ := phase
  have low' : 0 ≤ m.dataBufStartFrame := by rw [tracks.taken]; exact low
  obtain ⟨rest,fed,popped⟩ := popTill (m := {m with lastestConfirmedSilenceFrame := f}) tracks.opts f tracks.buffers
    low' within
  have dropped : m.onSilenceDetected f = _ := (if_pos outside).trans popped
  rw [dropped]
  exact {tracks with
    taken := congrArg (skipTo starved · f) tracks.taken
    phase := ⟨outside,reached,buffer⟩
    buffers := fed}

theorem waitTracks (tracks : Tracks starved threshold m e) (place : e.phase = .waiting) (low : 0 ≤ e.taken)
    (within : c ≤ m.frmCnt) :
    Tracks starved threshold (m.onSil2Sil c false).resetIfEnded (wait starved e c) := by
  have quieter : Tracks starved threshold (m.setSilence (m.continousSilenceFrameCount+1)) {e with silence := e.silence+1} := by
    rw [tracks.silence]
    exact silenceTracks tracks (e.silence+1)
  have phase := quieter.phase
  rw [place] at phase
  obtain ⟨outside,reached,buffer⟩ := phase
  have opts : (m.setSilence (m.continousSilenceFrameCount+1)).opts = {} := tracks.opts
  have size : (m.setSilence (m.continousSilenceFrameCount+1)).windowsDetector.winSizeFrame = 20 := by
    rw [quieter.window]
    exact quieter.windowSize
  unfold onSil2Sil wait
  simp only [outside,opts,latencyDefault opts size]
  rw [if_neg (by rintro (⟨zero,_⟩ | ⟨last,_⟩) <;> contradiction)]
  by_cases late : c ≥ latency
  · have dropped := silenceDropped quieter place low (f := c-latency) (by unfold latency; dsimp only [setSilence]; omega)
    rw [if_pos late,if_pos late,outsideKept dropped.phase.1]
    exact dropped
  · rw [if_neg late,if_neg late,outsideKept outside]
    exact {quieter with phase := ⟨outside,reached,buffer⟩}

theorem detectedTracks (tracks : Tracks starved threshold m e) (sliding : Sliding e.window) (state : FrameState) :
    Tracks starved threshold {m with windowsDetector := (m.windowsDetector.detectOneFrame state).2}
      {e with window := (e.window.detectOneFrame state).2} := {tracks with
  window := by rw [tracks.window]
  windowSize := (detectSliding sliding state).size}

/- While waiting, a voice can only start on frames that are still to be handed on. -/
theorem startsLater (sound : Sound starved e c) (place : e.phase = .waiting) {state : FrameState}
    (starts : (e.window.detectOneFrame state).1 = .sil2Speech) : e.taken < c := by
  have phase := sound.phase
  rw [place] at phase
  obtain ⟨_,room,_⟩ := phase
  have loud := startLoud sound.window starts
  have sum := slideSum sound.window state
  omega

/- One frame of the code is one step of the endpointer. -/
theorem stepTracks (tracks : Tracks starved threshold m e) (sound : Sound starved e c) (within : c ≤ m.frmCnt)
    (state : FrameState) :
    Tracks starved threshold (m.detectOneFrame state c false) (step starved threshold e state c) := by
  have detected := detectedTracks tracks sound.window state
  obtain ⟨before,_⟩ := windowChange e.window state
  have early (place : e.phase = .waiting) (starts : (e.window.detectOneFrame state).1 = .sil2Speech) : e.taken < c :=
    startsLater sound place starts
  obtain ⟨_,⟨low,_⟩,phase⟩ := sound
  unfold detectOneFrame step act
  rw [tracks.window] at detected ⊢
  cases place : e.phase with
  | waiting =>
    simp only [place] at phase ⊢
    rw [place] at detected
    cases change : (e.window.detectOneFrame state).1 with
    | sil2Speech => exact speakTracks detected rfl low (early place change) within
    | sil2Sil => exact waitTracks detected rfl low within
    | speech2Sil => simp [before,change,changeFrom] at phase
    | speech2Speech => simp [before,change,changeFrom] at phase
  | speaking start latest =>
    simp only [place] at phase ⊢
    rw [place] at detected
    obtain ⟨speaking,loud⟩ := phase
    have pause := speaking.pause
    have hand : starved = false → latest+1 ≤ e.taken := fun fed => Int.le_of_eq (speaking.ordered fed).1.symm
    cases change : (e.window.detectOneFrame state).1 with
    | sil2Sil => exact hushTracks detected rfl hand pause
    | sil2Speech => exact resumeTracks detected rfl hand (by omega)
    | speech2Sil =>
      have quiet := loud (by rw [before,change]; rfl)
      exact onSpeechTracks detected rfl hand (by unfold lookahead at pause; omega)
    | speech2Speech =>
      have quiet := loud (by rw [before,change]; rfl)
      exact onSpeechTracks detected rfl hand (by unfold lookahead at pause; omega)

end Simulation

end Qwen3Asr.E2EVadRefinement
