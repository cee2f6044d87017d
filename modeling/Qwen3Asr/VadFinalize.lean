import Qwen3Asr.VadSegments
import Qwen3Asr.VadStream

/-! Closing late. A segment that is open when no more audio comes is ended either by the frame
that is flagged final or by `finalize_streaming` after it. Over any configuration, the detector
keeps a ledger of the segments that ended and of the one that is open. -/
namespace Qwen3Asr.VadFinalize
open E2EVad E2EVadModel VadWindow E2EVadRefinement E2EVadChunks VadSegments

/- Start and end of the segments that ended, and the start of the open one, in milliseconds. -/
structure Ledger where
  closed : List (Int × Int)
  opened : Option Int
  deriving DecidableEq, Repr

inductive Event where
  | quiet
  | starts (startMs : Int)
  | ends (endMs : Int)
  deriving DecidableEq, Repr

namespace Ledger

def close (l : Ledger) (endMs : Int) : Ledger := match l.opened with
  | some startMs => ⟨l.closed ++ [(startMs,endMs)],none⟩
  | none => l

def next (l : Ledger) : Event → Ledger
  | .quiet => l
  | .starts startMs => {l with opened := some startMs}
  | .ends endMs => l.close endMs

def last (l : Ledger) (event : Event) (endMs : Int) : Ledger := match event with
  | .starts startMs => {l with opened := some startMs}
  | event => (l.next event).close endMs

def after (l : Ledger) (isLast : Bool) (event : Event) (endMs : Int) : Ledger :=
  if isLast then l.last event endMs else l.next event

variable {l : Ledger}

theorem closeClosed (none_ : l.opened = none) (endMs : Int) : l.close endMs = l := by
  unfold close
  rw [none_]

theorem closeOpened {startMs : Int} (opened : l.opened = some startMs) (endMs : Int) :
    l.close endMs = ⟨l.closed ++ [(startMs,endMs)],none⟩ := by
  unfold close
  rw [opened]

theorem closeGrows (l : Ledger) (endMs : Int) : l.closed <+: (l.close endMs).closed := by
  cases opened : l.opened with
  | none =>
    have same : l.close endMs = l := closeClosed opened endMs
    exact same.symm ▸ List.prefix_refl _
  | some startMs =>
    rw [closeOpened opened]
    exact List.prefix_append _ _

theorem nextGrows (l : Ledger) (event : Event) : l.closed <+: (l.next event).closed := by
  cases event with
  | ends endMs => exact closeGrows l endMs
  | _ => exact List.prefix_refl _

theorem lastGrows (l : Ledger) (event : Event) (endMs : Int) : l.closed <+: (l.last event endMs).closed := by
  cases event with
  | starts startMs => exact List.prefix_refl _
  | quiet => exact closeGrows l endMs
  | ends first => exact (closeGrows l first).trans (closeGrows _ endMs)

/- Closing after the frame and closing with it differ on a start alone. -/
theorem lateOrLast {α : Type} (f : Int × Int → α) (l : Ledger) (event : Event) (endMs : Int) :
    ((l.next event).close endMs).closed.map f = (l.last event endMs).closed.map f ↔
      ¬∃ startMs, event = .starts startMs := by
  cases event with
  | starts startMs =>
    have late : ((l.next (.starts startMs)).close endMs).closed = l.closed ++ [(startMs,endMs)] := rfl
    have lost : (l.last (.starts startMs) endMs).closed = l.closed := rfl
    rw [late,lost]
    simp
  | _ => simp [last]

def starts (l : Ledger) : List Int := l.closed.map Prod.fst ++ l.opened.toList

theorem startsClosed (l : Ledger) (endMs : Int) : (l.close endMs).closed.map Prod.fst = l.starts := by
  unfold starts
  cases opened : l.opened with
  | none => simp [closeClosed opened]
  | some startMs => simp [closeOpened opened]

end Ledger

section Frames
variable {opts : E2EVadConfig} {m : E2EVadModel} {closed : List (Int × Int)} {startMs c : Int}

def endedSeg (segment : Int × Int) : SpeechSegmentBuf := ⟨segment.1,segment.2,true,true⟩

structure Shut (opts : E2EVadConfig) (m : E2EVadModel) (closed : List (Int × Int)) : Prop where
  opts : m.opts = opts
  outside : m.vadStateMachine ≠ .inSpeechSegment
  reached : m.vadStateMachine = .startPointNotDetected → m.latestConfirmedSpeechFrame = 0
  buffer : m.outputDataBuf = closed.map endedSeg

structure Open (opts : E2EVadConfig) (m : E2EVadModel) (closed : List (Int × Int)) (startMs : Int) : Prop where
  opts : m.opts = opts
  inside : m.vadStateMachine = .inSpeechSegment
  buffer : ∃ endMs, m.outputDataBuf = closed.map endedSeg ++ [⟨startMs,endMs,true,false⟩]

def Books (opts : E2EVadConfig) (m : E2EVadModel) (l : Ledger) : Prop := match l.opened with
  | none => Shut opts m l.closed
  | some startMs => Open opts m l.closed startMs

def changeEvent (m : E2EVadModel) (change : AudioChangeState) (c : Int) : Event := match m.vadStateMachine with
  | .startPointNotDetected =>
    if change = .sil2Speech then
      .starts (max m.dataBufStartFrame (c-m.latencyFrmNumAtStartPoint)*m.opts.frameInMs)
    else .quiet
  | .inSpeechSegment =>
    if change = .sil2Sil ∧ (m.continousSilenceFrameCount+1)*m.opts.frameInMs ≥ m.maxEndSilFrameCntThresh then
      .ends ((c-m.lookbackFrame+1)*m.opts.frameInMs)
    else if m.tooLong c then .ends ((c+1)*m.opts.frameInMs) else .quiet
  | .endPointDetected => .quiet

def frameEvent (m : E2EVadModel) (state : FrameState) (c : Int) : Event :=
  let seen := m.windowsDetector.detectOneFrame state
  changeEvent {m with windowsDetector := seen.2} seen.1 c

theorem handedFirst (m : E2EVadModel) (f : Int) : ∃ dataBufStartFrame dataBufSize,
    m.popDataToOutputBuf f 1 true false = {m with
      dataBufStartFrame, dataBufSize
      outputDataBuf := m.outputDataBuf ++ [⟨f*m.opts.frameInMs,(f+1)*m.opts.frameInMs,true,false⟩]} := by
  obtain ⟨start,size,popped⟩ := popOnly (f-m.dataBufStartFrame).toNat m
  unfold popDataToOutputBuf popDataBufTillFrame
  simp only [popped]
  exact ⟨start+1,size,by simp [modifyOpen]⟩

theorem handedOn {done : List SpeechSegmentBuf} {seg : SpeechSegmentBuf} (buffer : m.outputDataBuf = done ++ [seg])
    (f : Int) (ends : Bool) : ∃ dataBufStartFrame dataBufSize, m.popDataToOutputBuf f 1 false ends = {m with
      dataBufStartFrame, dataBufSize
      outputDataBuf := done ++ [{seg with
        endMs := (f+1)*m.opts.frameInMs
        containSegEndPoint := seg.containSegEndPoint || ends}]} := by
  obtain ⟨start,size,popped⟩ := popOnly (f-m.dataBufStartFrame).toNat m
  have some : ¬(m.outputDataBuf = [] ∨ false = true) := by simp [buffer]
  unfold popDataToOutputBuf popDataBufTillFrame
  simp only [popped,if_neg some]
  exact ⟨start+1,size,by simp [buffer,modifyOpen]⟩

theorem voicesOpen (open_ : Open opts m closed startMs) (frames : List Int) :
    ∃ dataBufStartFrame dataBufSize latestConfirmedSpeechFrame endMs, frames.foldl onVoiceDetected m = {m with
      dataBufStartFrame, dataBufSize, latestConfirmedSpeechFrame
      outputDataBuf := closed.map endedSeg ++ [⟨startMs,endMs,true,false⟩]} := by
  induction frames generalizing m with
  | nil =>
    obtain ⟨endMs,buffer⟩ := open_.buffer
    exact ⟨_,_,_,endMs,by rw [← buffer]; rfl⟩
  | cons f frames ih =>
    obtain ⟨endMs,buffer⟩ := open_.buffer
    obtain ⟨start,size,handed⟩ := handedOn (m := {m with latestConfirmedSpeechFrame := f}) buffer f false
    have head : m.onVoiceDetected f = _ := handed
    have next : Open opts (m.onVoiceDetected f) closed startMs := by
      rw [head]
      exact ⟨open_.opts,open_.inside,_,rfl⟩
    obtain ⟨_,_,_,last,rest⟩ := ih next
    rw [List.foldl_cons,rest,head]
    exact ⟨_,_,_,last,rfl⟩

theorem endedOpen (open_ : Open opts m closed startMs) (last : Int) :
    ∃ dataBufStartFrame dataBufSize latestConfirmedSpeechFrame, m.onVoiceEnd last false = {m with
      dataBufStartFrame, dataBufSize, latestConfirmedSpeechFrame
      confirmedEndFrame := last
      outputDataBuf := (closed ++ [(startMs,(last+1)*m.opts.frameInMs)]).map endedSeg
      numberEndTimeDetected := m.numberEndTimeDetected+1} := by
  obtain ⟨start,size,latest,endMs,voices⟩ := voicesOpen open_ (frames (m.latestConfirmedSpeechFrame+1) last)
  obtain ⟨start,size,handed⟩ := handedOn (m := {m with
    dataBufStartFrame := start
    dataBufSize := size
    latestConfirmedSpeechFrame := latest
    confirmedEndFrame := last
    outputDataBuf := closed.map endedSeg ++ [⟨startMs,endMs,true,false⟩]}) rfl last true
  unfold onVoiceEnd
  simp only [voices,Bool.false_eq_true,if_false,handed]
  exact ⟨start,size,latest,by simp [endedSeg]⟩

theorem resetShut (shut : Shut opts m closed) : Shut opts m.resetIfEnded closed := by
  unfold resetIfEnded
  split
  · exact ⟨shut.opts,by simp [resetDetection],fun _ => rfl,shut.buffer⟩
  · exact shut

theorem endPointShut (open_ : Open opts m closed startMs) (last : Int) :
    Shut opts (m.onVoiceEnd last false).endPoint (closed ++ [(startMs,(last+1)*m.opts.frameInMs)]) := by
  obtain ⟨_,_,_,ended⟩ := endedOpen open_ last
  rw [ended]
  exact ⟨open_.opts,by simp [endPoint],by simp [endPoint],rfl⟩

theorem endShut (open_ : Open opts m closed startMs) (last : Int) :
    Shut opts (m.onVoiceEnd last false).endPoint.resetIfEnded (closed ++ [(startMs,(last+1)*m.opts.frameInMs)]) :=
  resetShut (endPointShut open_ last)

theorem spokenOpen (open_ : Open opts m closed startMs) (isLast : Bool) :
    Books opts (m.speechGoesOn c isLast).resetIfEnded
      ((⟨closed,some startMs⟩ : Ledger).after isLast
        (if m.tooLong c then .ends ((c+1)*m.opts.frameInMs) else .quiet) ((c+1)*m.opts.frameInMs)) := by
  have ended := endShut open_ c
  unfold speechGoesOn
  cases long : m.tooLong c with
  | true => cases isLast <;> exact ended
  | false =>
    cases isLast with
    | true => exact ended
    | false =>
      obtain ⟨_,_,_,_,spoken⟩ := voicesOpen open_ [c]
      have kept : (m.onVoiceDetected c).resetIfEnded = m.onVoiceDetected c :=
        insideKept (by rw [show m.onVoiceDetected c = _ from spoken]; exact open_.inside)
      simp only [Bool.false_eq_true,if_false,Bool.not_false,if_true,kept]
      rw [show m.onVoiceDetected c = _ from spoken]
      exact ⟨open_.opts,open_.inside,_,rfl⟩

theorem resumedOpen (open_ : Open opts m closed startMs) (isLast : Bool) :
    Books opts (m.onSil2Speech c isLast).resetIfEnded
      ((⟨closed,some startMs⟩ : Ledger).after isLast
        (if m.tooLong c then .ends ((c+1)*m.opts.frameInMs) else .quiet) ((c+1)*m.opts.frameInMs)) := by
  have quiet : Open opts (m.setSilence 0) closed startMs := ⟨open_.opts,open_.inside,open_.buffer⟩
  obtain ⟨q,filled⟩ : ∃ q, q = (frames ((m.setSilence 0).latestConfirmedSpeechFrame+1) c).foldl onVoiceDetected
    (m.setSilence 0) := ⟨_,rfl⟩
  obtain ⟨_,_,_,_,voices⟩ := voicesOpen quiet (frames ((m.setSilence 0).latestConfirmedSpeechFrame+1) c)
  rw [← filled] at voices
  have stays : Open opts q closed startMs := by rw [voices]; exact ⟨quiet.opts,quiet.inside,_,rfl⟩
  have long : q.tooLong c = m.tooLong c := by rw [voices]; rfl
  have same : q.opts = m.opts := by rw [voices]; rfl
  have spoken := spokenOpen (c := c) stays isLast
  rw [long,same] at spoken
  unfold onSil2Speech
  simp only [quiet.inside,← filled]
  exact spoken

theorem heardOpen (open_ : Open opts m closed startMs) (isLast : Bool) :
    Books opts (m.onSpeech c isLast).resetIfEnded
      ((⟨closed,some startMs⟩ : Ledger).after isLast
        (if m.tooLong c then .ends ((c+1)*m.opts.frameInMs) else .quiet) ((c+1)*m.opts.frameInMs)) := by
  have quiet : Open opts (m.setSilence 0) closed startMs := ⟨open_.opts,open_.inside,open_.buffer⟩
  unfold onSpeech
  simp only [quiet.inside,if_true]
  exact spokenOpen quiet isLast

theorem hushedOpen (open_ : Open opts m closed startMs) (isLast : Bool) :
    Books opts (m.onSil2Sil c isLast).resetIfEnded
      ((⟨closed,some startMs⟩ : Ledger).after isLast
        (if (m.continousSilenceFrameCount+1)*m.opts.frameInMs ≥ m.maxEndSilFrameCntThresh then
          .ends ((c-m.lookbackFrame+1)*m.opts.frameInMs)
        else if m.tooLong c then .ends ((c+1)*m.opts.frameInMs) else .quiet) ((c+1)*m.opts.frameInMs)) := by
  obtain ⟨q,quieter⟩ : ∃ q, q = m.setSilence (m.continousSilenceFrameCount+1) := ⟨_,rfl⟩
  have quiet : Open opts q closed startMs := by rw [quieter]; exact ⟨open_.opts,open_.inside,open_.buffer⟩
  have ended (last : Int) := endShut quiet last
  have silence : q.continousSilenceFrameCount = m.continousSilenceFrameCount+1 := by rw [quieter]; rfl
  have same : q.opts = m.opts := by rw [quieter]; rfl
  have threshold : q.maxEndSilFrameCntThresh = m.maxEndSilFrameCntThresh := by rw [quieter]; rfl
  have long : q.tooLong c = m.tooLong c := by rw [quieter]; rfl
  have back : q.lookbackFrame = m.lookbackFrame := by rw [quieter]; rfl
  rw [same] at ended
  unfold onSil2Sil
  rw [← quieter]
  simp only [quiet.inside,silence,same,threshold,long,back]
  split_ifs with silent tooLong extended near
  · cases isLast <;> exact ended _
  · cases isLast <;> exact ended _
  · have later : isLast = false := by simpa using extended.2
    obtain ⟨_,_,_,_,spoken⟩ := voicesOpen quiet [c]
    have handed : q.onVoiceDetected c = _ := spoken
    rw [later,handed,insideKept (by exact quiet.inside)]
    exact ⟨quiet.opts,quiet.inside,_,rfl⟩
  · have later : isLast = false := by simpa using extended.2
    rw [later,insideKept quiet.inside]
    exact quiet
  · cases isLast with
    | true => exact ended c
    | false =>
      rw [show q.maybeOnVoiceEndIfLastFrame false c = q from rfl,insideKept quiet.inside]
      exact quiet

theorem fakeShut (shut : Shut opts m closed) (reached : m.latestConfirmedSpeechFrame = 0) :
    Shut opts ((m.onVoiceStart 0 true).onVoiceEnd 0 true).endPoint.resetIfEnded closed := by
  have empty : frames (m.latestConfirmedSpeechFrame+1) 0 = [] := by simp [frames,reached]
  have begun : m.onVoiceStart 0 true = {m with confirmedStartFrame := 0} := rfl
  have ended : (m.onVoiceStart 0 true).onVoiceEnd 0 true = {m with
      confirmedStartFrame := 0
      confirmedEndFrame := 0
      numberEndTimeDetected := m.numberEndTimeDetected+1} := by
    rw [begun]
    unfold onVoiceEnd
    simp only [empty]
    rfl
  rw [ended]
  exact resetShut ⟨shut.opts,by simp [endPoint],by simp [endPoint],shut.buffer⟩

theorem hushedShut (shut : Shut opts m closed) (isLast : Bool) : Shut opts (m.onSil2Sil c isLast).resetIfEnded closed := by
  obtain ⟨q,quieter⟩ : ∃ q, q = m.setSilence (m.continousSilenceFrameCount+1) := ⟨_,rfl⟩
  have quiet : Shut opts q closed := by rw [quieter]; exact ⟨shut.opts,shut.outside,shut.reached,shut.buffer⟩
  unfold onSil2Sil
  rw [← quieter]
  dsimp only
  split
  · next waiting =>
    split_ifs
    · obtain ⟨_,_,_,silences⟩ := silencesOnly (frames (q.lastestConfirmedSilenceFrame+1) c) q
      have silent : Shut opts ((frames (q.lastestConfirmedSilenceFrame+1) c).foldl onSilenceDetected q) closed := by
        rw [silences]
        exact ⟨quiet.opts,quiet.outside,quiet.reached,quiet.buffer⟩
      exact fakeShut silent (by rw [silences]; exact quiet.reached waiting)
    · obtain ⟨_,_,_,silent⟩ := silenceOnly q (c-q.latencyFrmNumAtStartPoint)
      rw [silent]
      exact resetShut ⟨quiet.opts,quiet.outside,quiet.reached,quiet.buffer⟩
    · exact resetShut quiet
  · next inside => exact absurd inside quiet.outside
  · exact resetShut quiet

theorem begunOpen (shut : Shut opts m closed) (waiting : m.vadStateMachine = .startPointNotDetected) (f : Int) :
    Open opts {m.onVoiceStart f false with vadStateMachine := .inSpeechSegment} closed (f*m.opts.frameInMs) := by
  obtain ⟨start,size,handed⟩ := handedFirst {m with confirmedStartFrame := f} f
  have begun : m.onVoiceStart f false = _ := (if_pos ⟨rfl,waiting⟩).trans handed
  have buffer : (m.onVoiceStart f false).outputDataBuf =
      closed.map endedSeg ++ [⟨f*m.opts.frameInMs,(f+1)*m.opts.frameInMs,true,false⟩] := by
    rw [begun,← shut.buffer]
  exact ⟨(congrArg E2EVadModel.opts begun).trans shut.opts,rfl,_,buffer⟩

theorem startedShut (shut : Shut opts m closed) (waiting : m.vadStateMachine = .startPointNotDetected) (isLast : Bool) :
    Open opts (m.onSil2Speech c isLast).resetIfEnded closed
      (max m.dataBufStartFrame (c-m.latencyFrmNumAtStartPoint)*m.opts.frameInMs) := by
  obtain ⟨q,quieter⟩ : ∃ q, q = m.setSilence 0 := ⟨_,rfl⟩
  have quiet : Shut opts q closed := by rw [quieter]; exact ⟨shut.opts,shut.outside,shut.reached,shut.buffer⟩
  have outside : q.vadStateMachine = .startPointNotDetected := by rw [quieter]; exact waiting
  obtain ⟨f,first⟩ : ∃ f, f = max q.dataBufStartFrame (c-q.latencyFrmNumAtStartPoint) := ⟨_,rfl⟩
  have begun := begunOpen quiet outside f
  obtain ⟨_,_,_,_,voices⟩ := voicesOpen begun (frames (f+1) (c+1))
  have spoken : Open opts ((frames (f+1) (c+1)).foldl onVoiceDetected
      {q.onVoiceStart f false with vadStateMachine := .inSpeechSegment}) closed (f*q.opts.frameInMs) := by
    rw [voices]
    exact ⟨begun.opts,begun.inside,_,rfl⟩
  have start : max m.dataBufStartFrame (c-m.latencyFrmNumAtStartPoint)*m.opts.frameInMs = f*q.opts.frameInMs := by
    rw [first,quieter]
    rfl
  unfold onSil2Speech
  rw [start,← quieter]
  simp only [outside,← first]
  rw [insideKept spoken.inside]
  exact spoken

theorem heardShut (shut : Shut opts m closed) (isLast : Bool) : Shut opts (m.onSpeech c isLast).resetIfEnded closed := by
  have quiet : Shut opts (m.setSilence 0) closed := ⟨shut.opts,shut.outside,shut.reached,shut.buffer⟩
  unfold onSpeech
  simp only [quiet.outside,if_false]
  exact resetShut quiet

theorem endedShut (shut : Shut opts m closed) (ended : m.vadStateMachine = .endPointDetected) (isLast : Bool) :
    Shut opts (m.onSil2Speech c isLast).resetIfEnded closed := by
  have quiet : Shut opts (m.setSilence 0) closed := ⟨shut.opts,shut.outside,shut.reached,shut.buffer⟩
  have same : (m.setSilence 0).vadStateMachine = .endPointDetected := ended
  unfold onSil2Speech
  simp only [same]
  exact resetShut quiet

theorem changeShut (shut : Shut opts m closed) (change : AudioChangeState) (c : Int) (isLast : Bool) :
    Books opts (m.onChange change c isLast).resetIfEnded
      ((⟨closed,none⟩ : Ledger).after isLast (changeEvent m change c) ((c+1)*m.opts.frameInMs)) := by
  have still : (⟨closed,none⟩ : Ledger).after isLast .quiet ((c+1)*m.opts.frameInMs) = ⟨closed,none⟩ := by
    cases isLast <;> rfl
  unfold changeEvent
  cases place : m.vadStateMachine with
  | inSpeechSegment => exact absurd place shut.outside
  | startPointNotDetected =>
    cases change with
    | sil2Speech =>
      have started := startedShut (c := c) shut place isLast
      cases isLast <;> exact started
    | sil2Sil =>
      simp only [reduceCtorEq,if_false,still]
      exact hushedShut shut isLast
    | _ =>
      simp only [reduceCtorEq,if_false,still]
      exact heardShut shut isLast
  | endPointDetected =>
    simp only [still]
    cases change with
    | sil2Speech => exact endedShut shut place isLast
    | sil2Sil => exact hushedShut shut isLast
    | _ => exact heardShut shut isLast

theorem changeOpen (open_ : Open opts m closed startMs) (change : AudioChangeState) (c : Int) (isLast : Bool) :
    Books opts (m.onChange change c isLast).resetIfEnded
      ((⟨closed,some startMs⟩ : Ledger).after isLast (changeEvent m change c) ((c+1)*m.opts.frameInMs)) := by
  unfold changeEvent
  simp only [open_.inside]
  cases change with
  | sil2Sil =>
    simp only [true_and]
    exact hushedOpen open_ isLast
  | sil2Speech =>
    simp only [reduceCtorEq,false_and,if_false]
    exact resumedOpen open_ isLast
  | _ =>
    simp only [reduceCtorEq,false_and,if_false]
    exact heardOpen open_ isLast

theorem frameBooks {l : Ledger} (books : Books opts m l) (state : FrameState) (c : Int) (isLast : Bool) :
    Books opts (m.detectOneFrame state c isLast) (l.after isLast (frameEvent m state c) ((c+1)*m.opts.frameInMs)) := by
  obtain ⟨closed,opened⟩ := l
  cases opened with
  | none =>
    have shut : Shut opts {m with windowsDetector := (m.windowsDetector.detectOneFrame state).2} closed :=
      ⟨books.opts,books.outside,books.reached,books.buffer⟩
    exact changeShut shut _ c isLast
  | some startMs =>
    have open_ : Open opts {m with windowsDetector := (m.windowsDetector.detectOneFrame state).2} closed startMs :=
      ⟨books.opts,books.inside,books.buffer⟩
    exact changeOpen open_ _ c isLast

end Frames

section Calls
variable {opts : E2EVadConfig} {m : E2EVadModel} {l : Ledger} {scores : List FrameState}

def beforeLast (m : E2EVadModel) (scores : List FrameState) : Nat → E2EVadModel
  | 0 | 1 => m
  | i+2 =>
    let frameIdx := m.frmCnt-1-(i+1 : Nat)
    beforeLast (m.detectOneFrame (m.getFrameState frameIdx scores) frameIdx false) scores (i+1)

theorem lastFrame (n : Nat) (m : E2EVadModel) (scores : List FrameState) (isLast : Bool) :
    m.detectFrames scores isLast (n+1) = (beforeLast m scores (n+1)).detectOneFrame
      (m.getFrameState (m.frmCnt-1) scores) (m.frmCnt-1) isLast := by
  induction n generalizing m with
  | zero =>
    have frame : m.frmCnt-1-(0 : Nat) = m.frmCnt-1 := Int.sub_zero _
    simp only [detectFrames,beforeLast,frame,and_true,Bool.decide_eq_true]
  | succ n ih =>
    obtain ⟨next,stepped⟩ : ∃ next, next = m.detectOneFrame (m.getFrameState (m.frmCnt-1-(n+1 : Nat)) scores)
      (m.frmCnt-1-(n+1 : Nat)) false := ⟨_,rfl⟩
    have flag : decide (isLast = true ∧ n+1 = 0) = false := by simp
    have kept : bookkeeping next = bookkeeping m := by rw [stepped]; exact frameKeeps m _ _ _
    have count : next.frmCnt = m.frmCnt := congrArg Prod.fst kept
    have before : next.idxPreChunk = m.idxPreChunk := congrArg (·.2.2.1) kept
    have state : next.getFrameState (m.frmCnt-1) scores = m.getFrameState (m.frmCnt-1) scores := by
      unfold getFrameState
      rw [before]
    have rest := ih next
    rw [count,state] at rest
    rw [detectFrames]
    simp only [flag,beforeLast,← stepped]
    exact rest

theorem beforeBooks (n : Nat) (books : Books opts m l) :
    ∃ later, Books opts (beforeLast m scores n) later ∧ l.closed <+: later.closed := by
  induction n generalizing m l with
  | zero => exact ⟨l,books,List.prefix_refl _⟩
  | succ n ih =>
    cases n with
    | zero => exact ⟨l,books,List.prefix_refl _⟩
    | succ n =>
      obtain ⟨later,last,grown⟩ := ih (frameBooks books (m.getFrameState (m.frmCnt-1-(n+1 : Nat)) scores)
        (m.frmCnt-1-(n+1 : Nat)) false)
      exact ⟨later,last,(l.nextGrows _).trans grown⟩

theorem beforeKeeps (n : Nat) (m : E2EVadModel) : bookkeeping (beforeLast m scores n) = bookkeeping m := by
  induction n generalizing m with
  | zero => rfl
  | succ n ih =>
    cases n with
    | zero => rfl
    | succ n => exact (ih _).trans (frameKeeps m _ _ _)

def awaiting (m : E2EVadModel) (chunk : Chunk) : E2EVadModel :=
  let m := entered m chunk.scores chunk.samples chunk.maxEndSilenceMs
  if m.vadStateMachine = .endPointDetected then m else beforeLast m chunk.scores chunk.scores.length

/- A voice that starts on the last frame of the chunk. -/
def StartsOnLast (m : E2EVadModel) (chunk : Chunk) : Prop :=
  let m := awaiting m chunk
  m.vadStateMachine = .startPointNotDetected ∧
    (m.windowsDetector.detectOneFrame (m.getFrameState (m.frmCnt-1) chunk.scores)).1 = .sil2Speech

theorem startsEvent (state : FrameState) (c : Int) : (∃ startMs, frameEvent m state c = .starts startMs) ↔
    m.vadStateMachine = .startPointNotDetected ∧ (m.windowsDetector.detectOneFrame state).1 = .sil2Speech := by
  unfold frameEvent changeEvent
  dsimp only
  split
  · next waiting =>
    split <;> simp_all
  · next inside =>
    split_ifs <;> simp [inside]
  · next ended => simp [ended]

def span (segment : Int × Int) : Nat × Nat := (segment.1.toNat,segment.2.toNat)

theorem booksReported (books : Books opts m l) (told : m.outputDataBufOffset ≤ l.closed.length) : m.outputSegments =
    ((l.closed.drop m.outputDataBufOffset).map span,{m with outputDataBufOffset := l.closed.length}) := by
  obtain ⟨rest,buffer,unfinished⟩ : ∃ rest, m.outputDataBuf = l.closed.map endedSeg ++ rest ∧
      ∀ seg ∈ rest, complete seg = false := by
    obtain ⟨closed,opened⟩ := l
    cases opened with
    | none => exact ⟨[],by rw [List.append_nil]; exact books.buffer,by simp⟩
    | some startMs =>
      obtain ⟨endMs,buffer⟩ := books.buffer
      exact ⟨_,buffer,by simp [complete]⟩
  have reported := doneReported buffer (List.forall_mem_map.mpr fun _ _ => rfl) unfinished (by rw [List.length_map]; exact told)
  rw [reported,List.length_map,← List.map_drop,List.map_map]
  rfl

structure Kept (opts : E2EVadConfig) (m : E2EVadModel) (l : Ledger) : Prop where
  books : Books opts m l
  told : m.outputDataBufOffset = l.closed.length
  counted : 0 ≤ m.frmCnt ∧ (m.vadStateMachine = .inSpeechSegment → 0 < m.frmCnt)

theorem booksCongr {q : E2EVadModel} (books : Books opts m l) (same : q.opts = m.opts)
    (machine : q.vadStateMachine = m.vadStateMachine)
    (latest : q.latestConfirmedSpeechFrame = m.latestConfirmedSpeechFrame) (buffer : q.outputDataBuf = m.outputDataBuf) :
    Books opts q l := by
  obtain ⟨closed,opened⟩ := l
  cases opened with
  | none => exact ⟨same.trans books.opts,by rw [machine]; exact books.outside,
      by rw [machine,latest]; exact books.reached,buffer.trans books.buffer⟩
  | some startMs =>
    obtain ⟨endMs,held⟩ := books.buffer
    exact ⟨same.trans books.opts,machine.trans books.inside,endMs,buffer.trans held⟩

theorem enteredBooks (books : Books opts m l) (scores : List FrameState) (samples : Nat) (maxEndSilenceMs : Int) :
    Books opts (entered m scores samples maxEndSilenceMs) l := by
  unfold entered computeScores computeDecibel
  split <;> exact booksCongr books rfl rfl rfl rfl

theorem booksOpts (books : Books opts m l) : m.opts = opts := by
  obtain ⟨closed,opened⟩ := l
  cases opened <;> exact books.opts

theorem booksInside (books : Books opts m l) : m.vadStateMachine = .inSpeechSegment ↔ l.opened ≠ none := by
  obtain ⟨closed,opened⟩ := l
  cases opened with
  | none => simpa using books.outside
  | some startMs => simpa using books.inside

theorem newKept (opts : E2EVadConfig) : Kept opts (new opts) ⟨[],none⟩ where
  books := ⟨rfl,by simp [new,resetDetection],fun _ => rfl,rfl⟩
  told := rfl
  counted := ⟨Int.le_refl 0,by simp [new,resetDetection]⟩

def heardChunk (m : E2EVadModel) (scores : List FrameState) (isLast : Bool) : E2EVadModel :=
  if m.vadStateMachine = .endPointDetected then m else m.detectFrames scores isLast scores.length

theorem heardKeeps (m : E2EVadModel) (scores : List FrameState) (isLast : Bool) :
    bookkeeping (heardChunk m scores isLast) = bookkeeping m := by
  unfold heardChunk
  split
  · rfl
  · exact loopKeeps scores isLast scores.length m

/- Both ways a chunk may end are one event away from the same ledger. -/
theorem chunkBooks {chunk : Chunk} (books : Books opts m l) (some_ : chunk.scores ≠ []) :
    ∃ (before : Ledger) (event : Event), l.closed <+: before.closed ∧
      (StartsOnLast m chunk ↔ ∃ startMs, event = .starts startMs) ∧
      ∀ isLast, Books opts
        (heardChunk (entered m chunk.scores chunk.samples chunk.maxEndSilenceMs) chunk.scores isLast)
        (before.after isLast event
          ((entered m chunk.scores chunk.samples chunk.maxEndSilenceMs).frmCnt*opts.frameInMs)) := by
  obtain ⟨q,entry⟩ : ∃ q, q = entered m chunk.scores chunk.samples chunk.maxEndSilenceMs := ⟨_,rfl⟩
  have entryBooks : Books opts q l := by rw [entry]; exact enteredBooks books _ _ _
  unfold StartsOnLast awaiting heardChunk
  rw [← entry]
  by_cases ended : q.vadStateMachine = .endPointDetected
  · have shut : l.opened = none := by
      have outside : ¬l.opened ≠ none := by
        rw [← booksInside entryBooks,ended]
        decide
      exact not_not.mp outside
    refine ⟨l,.quiet,List.prefix_refl _,by simp [ended],fun isLast => ?_⟩
    rw [if_pos ended]
    cases isLast with
    | true =>
      have same : l.after true .quiet (q.frmCnt*opts.frameInMs) = l := Ledger.closeClosed shut _
      rw [same]
      exact entryBooks
    | false => exact entryBooks
  · obtain ⟨n,size⟩ := Nat.exists_eq_succ_of_ne_zero (mt List.length_eq_zero_iff.mp some_)
    obtain ⟨before,reached,grown⟩ := @beforeBooks _ _ _ chunk.scores (n+1) entryBooks
    have kept := @beforeKeeps chunk.scores (n+1) q
    have count : (beforeLast q chunk.scores (n+1)).frmCnt = q.frmCnt := congrArg Prod.fst kept
    have index : (beforeLast q chunk.scores (n+1)).idxPreChunk = q.idxPreChunk := congrArg (·.2.2.1) kept
    have state : (beforeLast q chunk.scores (n+1)).getFrameState (q.frmCnt-1) chunk.scores =
        q.getFrameState (q.frmCnt-1) chunk.scores := by
      unfold getFrameState
      rw [index]
    simp only [if_neg ended,size,Nat.succ_eq_add_one,count,state,lastFrame]
    refine ⟨before,_,grown,(startsEvent _ (q.frmCnt-1)).symm,fun isLast => ?_⟩
    have final := frameBooks reached (q.getFrameState (q.frmCnt-1) chunk.scores) (q.frmCnt-1) isLast
    rw [Int.sub_add_cancel,booksOpts reached] at final
    exact final

theorem commonHeard (m : E2EVadModel) (scores : List FrameState) :
    ∃ idxPreChunk, m.detectCommonFrames scores = {heardChunk m scores false with idxPreChunk} := by
  unfold detectCommonFrames heardChunk
  split <;> exact ⟨_,rfl⟩

theorem commonReported (kept : Kept opts m l) (chunk : Chunk) {later : Ledger} (grown : l.closed <+: later.closed)
    (heard : Books opts (heardChunk (entered m chunk.scores chunk.samples chunk.maxEndSilenceMs) chunk.scores false)
      later) :
    (m.detectChunk chunk.scores chunk.samples false chunk.maxEndSilenceMs).1 =
      (later.closed.drop l.closed.length).map span ∧
    Kept opts (m.detectChunk chunk.scores chunk.samples false chunk.maxEndSilenceMs).2 later := by
  obtain ⟨q,entry⟩ : ∃ q, q = entered m chunk.scores chunk.samples chunk.maxEndSilenceMs := ⟨_,rfl⟩
  obtain ⟨count,_,emitted,machine,_⟩ := enteredCount m chunk.scores chunk.samples chunk.maxEndSilenceMs
  rw [← entry] at heard count emitted machine
  obtain ⟨index,common⟩ := commonHeard q chunk.scores
  have keeps := heardKeeps q chunk.scores false
  have told : (heardChunk q chunk.scores false).outputDataBufOffset = l.closed.length :=
    (congrArg (·.2.1) keeps).trans (emitted.trans kept.told)
  have frames : (heardChunk q chunk.scores false).frmCnt = m.frmCnt+chunk.scores.length :=
    (congrArg Prod.fst keeps).trans count
  have reported := booksReported (booksCongr (q := {heardChunk q chunk.scores false with idxPreChunk := index})
    heard rfl rfl rfl rfl) (by rw [told]; exact grown.length_le)
  have called : m.detectChunk chunk.scores chunk.samples false chunk.maxEndSilenceMs =
      ({heardChunk q chunk.scores false with idxPreChunk := index} : E2EVadModel).outputSegments := by
    rw [← common,entry]
    rfl
  rw [called,reported,told]
  refine ⟨rfl,booksCongr heard rfl rfl rfl rfl,rfl,?_,fun inside => ?_⟩
  · have low := kept.counted.1
    dsimp only
    omega
  · dsimp only at inside ⊢
    rw [frames]
    cases some_ : chunk.scores with
    | nil =>
      have same : heardChunk q chunk.scores false = q := by
        rw [some_]
        unfold heardChunk
        split <;> rfl
      rw [same,machine] at inside
      have before := kept.counted.2 inside
      rw [List.length_nil]
      omega
    | cons =>
      have low := kept.counted.1
      rw [List.length_cons]
      omega

theorem commonKept (kept : Kept opts m l) (chunk : Chunk) : ∃ later : Ledger, l.closed <+: later.closed ∧
    (m.detectChunk chunk.scores chunk.samples false chunk.maxEndSilenceMs).1 =
      (later.closed.drop l.closed.length).map span ∧
    Kept opts (m.detectChunk chunk.scores chunk.samples false chunk.maxEndSilenceMs).2 later := by
  by_cases some_ : chunk.scores = []
  · have same (q : E2EVadModel) : heardChunk q chunk.scores false = q := by
      rw [some_]
      unfold heardChunk
      split <;> rfl
    have heard := enteredBooks kept.books chunk.scores chunk.samples chunk.maxEndSilenceMs
    rw [← same (entered m chunk.scores chunk.samples chunk.maxEndSilenceMs)] at heard
    exact ⟨l,List.prefix_refl _,commonReported kept chunk (List.prefix_refl _) heard⟩
  · obtain ⟨before,event,grown,_,heard⟩ := chunkBooks kept.books some_
    have onward := grown.trans (before.nextGrows event)
    exact ⟨before.next event,onward,commonReported kept chunk onward (heard false)⟩

theorem chunksKept (chunks : List Chunk) (kept : Kept opts m l) : ∃ later : Ledger, l.closed <+: later.closed ∧
    (detectChunks m chunks).1 = (later.closed.drop l.closed.length).map span ∧
    Kept opts (detectChunks m chunks).2 later := by
  induction chunks generalizing m l with
  | nil => exact ⟨l,List.prefix_refl _,by simp [detectChunks],kept⟩
  | cons chunk chunks ih =>
    obtain ⟨middle,first,reported,next⟩ := commonKept kept chunk
    obtain ⟨later,second,more,last⟩ := ih next
    have joined := reportedOnward span first second
    rw [← reported,← more] at joined
    exact ⟨later,first.trans second,joined,last⟩

theorem finalizeReported (kept : Kept opts m l) (maxEndSilenceMs : Int) : (m.finalizeStreaming maxEndSilenceMs).1 =
    ((l.close (m.frmCnt*opts.frameInMs)).closed.drop l.closed.length).map span := by
  obtain ⟨q,set⟩ : ∃ q, q = m.setEndSilence maxEndSilenceMs := ⟨_,rfl⟩
  have books : Books opts q l := by rw [set]; exact booksCongr kept.books rfl rfl rfl rfl
  have told : q.outputDataBufOffset = l.closed.length := by rw [set]; exact kept.told
  have count : q.frmCnt = m.frmCnt := by rw [set]; rfl
  have machine : q.vadStateMachine = m.vadStateMachine := by rw [set]; rfl
  have counted := kept.counted.2
  unfold finalizeStreaming
  rw [← set]
  dsimp only
  obtain ⟨closed,opened⟩ := l
  cases opened with
  | none =>
    have outside : ¬(q.vadStateMachine = .inSpeechSegment ∧ q.frmCnt > 0) := fun inside => books.outside inside.1
    rw [if_neg outside,booksReported books (Nat.le_of_eq told),told,Ledger.closeClosed rfl]
  | some startMs =>
    have inside : q.vadStateMachine = .inSpeechSegment ∧ q.frmCnt > 0 :=
      ⟨books.inside,by rw [count]; exact counted (machine.symm.trans books.inside)⟩
    have shut := endPointShut books (q.frmCnt-1)
    rw [Int.sub_add_cancel,count,booksOpts books] at shut
    have offset : (q.onVoiceEnd (m.frmCnt-1) false).endPoint.outputDataBufOffset = closed.length :=
      (congrArg (·.2.1) (voiceEndKeeps q (m.frmCnt-1) false)).trans told
    have ended : q.maybeOnVoiceEndIfLastFrame true (q.frmCnt-1) = (q.onVoiceEnd (m.frmCnt-1) false).endPoint := by
      rw [count]
      rfl
    have reported := booksReported (l := ⟨closed ++ [(startMs,m.frmCnt*opts.frameInMs)],none⟩) shut
      (by rw [offset,List.length_append]; omega)
    rw [if_pos inside,ended,reported,offset,Ledger.closeOpened rfl]

theorem finalReported (kept : Kept opts m l) (chunk : Chunk) {later : Ledger} (grown : l.closed <+: later.closed)
    (heard : Books opts (heardChunk (entered m chunk.scores chunk.samples chunk.maxEndSilenceMs) chunk.scores true)
      later) : (m.detectChunk chunk.scores chunk.samples true chunk.maxEndSilenceMs).1 =
      (later.closed.drop l.closed.length).map span := by
  obtain ⟨q,entry⟩ : ∃ q, q = entered m chunk.scores chunk.samples chunk.maxEndSilenceMs := ⟨_,rfl⟩
  obtain ⟨_,_,emitted,_⟩ := enteredCount m chunk.scores chunk.samples chunk.maxEndSilenceMs
  rw [← entry] at heard emitted
  have told : (heardChunk q chunk.scores true).outputDataBufOffset = l.closed.length :=
    (congrArg (·.2.1) (heardKeeps q chunk.scores true)).trans (emitted.trans kept.told)
  have called : (m.detectChunk chunk.scores chunk.samples true chunk.maxEndSilenceMs).1 =
      (heardChunk q chunk.scores true).outputSegments.1 := by
    rw [entry]
    rfl
  rw [called,booksReported heard (by rw [told]; exact grown.length_le),told]

end Calls

section Sessions
variable {opts : E2EVadConfig} {m : E2EVadModel} {l : Ledger}

def session (opts : E2EVadConfig) (chunks : List Chunk) (ending : Ending) : List (Nat × Nat) :=
  let (segments,m) := detectChunks (new opts) chunks
  segments ++ detectEnding m ending

def registered (m : E2EVadModel) : List Nat :=
  (m.outputDataBuf.filter SpeechSegmentBuf.containSegStartPoint).map fun seg => seg.startMs.toNat

theorem booksRegistered (books : Books opts m l) : registered m = l.starts.map Int.toNat := by
  have all : (l.closed.map endedSeg).filter SpeechSegmentBuf.containSegStartPoint = l.closed.map endedSeg :=
    List.filter_eq_self.mpr (List.forall_mem_map.mpr fun _ _ => rfl)
  obtain ⟨closed,opened⟩ := l
  unfold registered Ledger.starts
  cases opened with
  | none =>
    have buffer : m.outputDataBuf = closed.map endedSeg := books.buffer
    rw [buffer,all]
    simp [endedSeg,Function.comp_def]
  | some startMs =>
    obtain ⟨endMs,buffer⟩ := books.buffer
    rw [buffer,List.filter_append,all]
    simp [endedSeg,Function.comp_def]

theorem detectAppend (first second : List Chunk) (m : E2EVadModel) : detectChunks m (first ++ second) =
    ((detectChunks m first).1 ++ (detectChunks (detectChunks m first).2 second).1,
      (detectChunks (detectChunks m first).2 second).2) := by
  induction first generalizing m with
  | nil => rfl
  | cons chunk first ih => simp only [List.cons_append,detectChunks,ih,List.append_assoc]

theorem reportedWhole {α β : Type} (f : α → β) {first second : List α} (grown : first <+: second) :
    first.map f ++ (second.drop first.length).map f = second.map f := by
  obtain ⟨rest,rfl⟩ := grown
  rw [List.drop_left,List.map_append]

theorem sessionKept (opts : E2EVadConfig) (chunks : List Chunk) : ∃ l : Ledger,
    (detectChunks (new opts) chunks).1 = l.closed.map span ∧ Kept opts (detectChunks (new opts) chunks).2 l := by
  obtain ⟨l,_,reported,kept⟩ := chunksKept chunks (newKept opts)
  exact ⟨l,reported,kept⟩

section Reports
variable {chunks : List Chunk} {later : Ledger} (reported : (detectChunks (new opts) chunks).1 = l.closed.map span)
  (kept : Kept opts (detectChunks (new opts) chunks).2 l)
include reported kept

theorem sessionFinalized (maxEndSilenceMs : Int) : session opts chunks (.finalize maxEndSilenceMs) =
    (l.close ((detectChunks (new opts) chunks).2.frmCnt*opts.frameInMs)).closed.map span := by
  have called : session opts chunks (.finalize maxEndSilenceMs) = (detectChunks (new opts) chunks).1 ++
      ((detectChunks (new opts) chunks).2.finalizeStreaming maxEndSilenceMs).1 := rfl
  rw [called,reported,finalizeReported kept]
  exact reportedWhole span (l.closeGrows _)

theorem sessionFlagged (last : Chunk) (grown : l.closed <+: later.closed)
    (heard : Books opts (heardChunk (entered (detectChunks (new opts) chunks).2 last.scores last.samples
      last.maxEndSilenceMs) last.scores true) later) : session opts chunks (.final last) = later.closed.map span := by
  have called : session opts chunks (.final last) = (detectChunks (new opts) chunks).1 ++
      ((detectChunks (new opts) chunks).2.detectChunk last.scores last.samples true last.maxEndSilenceMs).1 := rfl
  rw [called,reported,finalReported kept last grown heard]
  exact reportedWhole span grown

theorem sessionFed (last : Chunk) (grown : l.closed <+: later.closed)
    (heard : Books opts (heardChunk (entered (detectChunks (new opts) chunks).2 last.scores last.samples
      last.maxEndSilenceMs) last.scores false) later) :
    (detectChunks (new opts) (chunks ++ [last])).1 = later.closed.map span ∧
    Kept opts (detectChunks (new opts) (chunks ++ [last])).2 later ∧
    (detectChunks (new opts) (chunks ++ [last])).2.frmCnt = (entered (detectChunks (new opts) chunks).2 last.scores
      last.samples last.maxEndSilenceMs).frmCnt := by
  obtain ⟨told,next⟩ := commonReported kept last grown heard
  have count := VadStream.commonCount (detectChunks (new opts) chunks).2 last.scores last.samples last.maxEndSilenceMs
  have fed : detectChunks (new opts) (chunks ++ [last]) = ((detectChunks (new opts) chunks).1 ++
      (((detectChunks (new opts) chunks).2.detectChunk last.scores last.samples false last.maxEndSilenceMs).1 ++ []),
      ((detectChunks (new opts) chunks).2.detectChunk last.scores last.samples false last.maxEndSilenceMs).2) :=
    detectAppend chunks [last] (new opts)
  rw [fed,List.append_nil,reported,told]
  exact ⟨reportedWhole span grown,next,count.trans (enteredCount _ _ _ _).1.symm⟩

end Reports

/-- Finalizing late reports every voice that has started, with its end. -/
theorem finalizedStarts (opts : E2EVadConfig) (chunks : List Chunk) (maxEndSilenceMs : Int) :
    (session opts chunks (.finalize maxEndSilenceMs)).map Prod.fst = registered (detectChunks (new opts) chunks).2 := by
  obtain ⟨l,reported,kept⟩ := sessionKept opts chunks
  rw [sessionFinalized reported kept,booksRegistered kept.books,
    ← l.startsClosed ((detectChunks (new opts) chunks).2.frmCnt*opts.frameInMs),List.map_map,List.map_map]
  rfl

/-- A session whose last frame is flagged final reports what it does when finalized late, and with
it each voice that has started, exactly if no voice starts on that frame. -/
theorem lateFinalization (opts : E2EVadConfig) (chunks : List Chunk) (last : Chunk) (maxEndSilenceMs : Int)
    (some_ : last.scores ≠ []) :
    (session opts (chunks ++ [last]) (.finalize maxEndSilenceMs) = session opts chunks (.final last) ∧
      ∀ reports ∈ [session opts (chunks ++ [last]) (.finalize maxEndSilenceMs),session opts chunks (.final last)],
        reports.map Prod.fst = registered (detectChunks (new opts) (chunks ++ [last])).2) ↔
      ¬StartsOnLast (detectChunks (new opts) chunks).2 last := by
  obtain ⟨l,reported,kept⟩ := sessionKept opts chunks
  obtain ⟨before,event,grown,starts,heard⟩ := chunkBooks kept.books some_
  obtain ⟨told,next,count⟩ := sessionFed reported kept last (grown.trans (before.nextGrows event)) (heard false)
  have late := sessionFinalized told next maxEndSilenceMs
  have flagged := sessionFlagged reported kept last (grown.trans (before.lastGrows event _)) (heard true)
  have alike := before.lateOrLast span event ((detectChunks (new opts) (chunks ++ [last])).2.frmCnt*opts.frameInMs)
  rw [← late,count,← flagged,← starts] at alike
  have ended := finalizedStarts opts (chunks ++ [last]) maxEndSilenceMs
  constructor
  · intro property
    exact alike.mp property.1
  · intro quiet
    have same := alike.mpr quiet
    refine ⟨same,fun reports inside => ?_⟩
    rcases List.mem_pair.mp inside with rfl | rfl
    · exact ended
    · rw [← same]
      exact ended

theorem silenceLast : ¬StartsOnLast (detectChunks (new {}) [⟨List.replicate 20 .speech,3440,800⟩]).2
      ⟨[.sil],400,800⟩ ∧
    session {} [⟨List.replicate 20 .speech,3440,800⟩,⟨[.sil],400,800⟩] (.finalize 800) = [(0,210)] ∧
    session {} [⟨List.replicate 20 .speech,3440,800⟩] (.final ⟨[.sil],400,800⟩) = [(0,210)] := by
  have quiet : ¬StartsOnLast (detectChunks (new {}) [⟨List.replicate 20 .speech,3440,800⟩]).2 ⟨[.sil],400,800⟩ := by
    unfold StartsOnLast
    decide +kernel
  have same := ((lateFinalization {} [⟨List.replicate 20 .speech,3440,800⟩] ⟨[.sil],400,800⟩ 800 (by decide)).mpr
    quiet).1
  exact ⟨quiet,by decide +kernel,by rw [← same]; decide +kernel⟩

/- The fifteenth frame of speech starts a voice. Flagged final, it is never reported. -/
theorem startOnLast : session {} [⟨List.replicate 15 .speech,2640,800⟩] (.finalize 800) = [(0,150)] ∧
    session {} [] (.final ⟨List.replicate 15 .speech,2640,800⟩) = [] ∧
    registered (detectChunks (new {}) [⟨List.replicate 15 .speech,2640,800⟩]).2 = [0] := by
  decide +kernel

end Sessions
end Qwen3Asr.VadFinalize
