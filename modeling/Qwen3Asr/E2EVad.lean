import Mathlib.Data.List.Basic
import Qwen3Asr.Library.Word

/-! The frame-level endpoint detector. A frame is the decision `get_frame_state` takes from its
scores and its energy, a waveform the number of its samples. Sample counters are 32-bit, as they
are the first to leave that range; frames and milliseconds are integers. -/
namespace Qwen3Asr.E2EVad
open Library.Word

inductive VadStateMachine where
  | startPointNotDetected | inSpeechSegment | endPointDetected
  deriving DecidableEq, Repr

inductive FrameState where
  | sil | speech
  deriving DecidableEq, Repr

inductive AudioChangeState where
  | speech2Speech | speech2Sil | sil2Sil | sil2Speech
  deriving DecidableEq, Repr

structure E2EVadConfig where
  sampleRate : Int := 16000
  detectMode : Int := 1
  maxEndSilenceTime : Int := 800
  maxStartSilenceTime : Int := 3000
  windowSizeMs : Int := 200
  silToSpeechTimeThres : Int := 150
  speechToSilTimeThres : Int := 150
  doExtend : Bool := true
  lookbackTimeStartPoint : Int := 200
  lookaheadTimeEndPoint : Int := 100
  maxSingleSegmentTime : Int := 60000
  frameInMs : Int := 10
  deriving DecidableEq, Repr

structure SpeechSegmentBuf where
  startMs : Int
  endMs : Int
  containSegStartPoint : Bool
  containSegEndPoint : Bool
  deriving DecidableEq, Repr

structure WindowDetector where
  winSizeFrame : Int
  winSum : Int
  winState : List Int
  curWinPos : Nat
  preFrameState : FrameState
  silToSpeechFrmcntThres : Int
  speechToSilFrmcntThres : Int
  deriving DecidableEq, Repr

namespace WindowDetector

def new (windowSizeMs silToSpeechTime speechToSilTime frameSizeMs : Int) : WindowDetector :=
  let winSizeFrame := windowSizeMs.tdiv frameSizeMs
  {winSizeFrame, winSum := 0, winState := List.replicate winSizeFrame.toNat 0, curWinPos := 0
   preFrameState := .sil
   silToSpeechFrmcntThres := silToSpeechTime.tdiv frameSizeMs
   speechToSilFrmcntThres := speechToSilTime.tdiv frameSizeMs}

def reset (w : WindowDetector) : WindowDetector :=
  {w with curWinPos := 0, winSum := 0, winState := List.replicate w.winState.length 0, preFrameState := .sil}

def curFrameState : FrameState → Int
  | .speech => 1
  | .sil => 0

def slide (w : WindowDetector) (frameState : FrameState) : WindowDetector :=
  {w with
    winSum := w.winSum-w.winState.getD w.curWinPos 0+curFrameState frameState
    winState := w.winState.set w.curWinPos (curFrameState frameState)
    curWinPos := (w.curWinPos+1) % w.winSizeFrame.toNat}

def detectOneFrame (w : WindowDetector) (frameState : FrameState) : AudioChangeState × WindowDetector :=
  let w := w.slide frameState
  if w.preFrameState = .sil ∧ w.winSum ≥ w.silToSpeechFrmcntThres then
    (.sil2Speech,{w with preFrameState := .speech})
  else if w.preFrameState = .speech ∧ w.winSum ≤ w.speechToSilFrmcntThres then
    (.speech2Sil,{w with preFrameState := .sil})
  else if w.preFrameState = .sil then (.sil2Sil,w) else (.speech2Speech,w)

end WindowDetector

structure E2EVadModel where
  opts : E2EVadConfig
  windowsDetector : WindowDetector
  dataBufStartFrame : Int
  frmCnt : Int
  latestConfirmedSpeechFrame : Int
  lastestConfirmedSilenceFrame : Int
  continousSilenceFrameCount : Int
  vadStateMachine : VadStateMachine
  confirmedStartFrame : Int
  confirmedEndFrame : Int
  numberEndTimeDetected : Int
  outputDataBuf : List SpeechSegmentBuf
  outputDataBufOffset : Nat
  maxEndSilFrameCntThresh : Int
  idxPreChunk : Int
  dataBufSize : Int
  dataBufAllSize : Int
  deriving DecidableEq, Repr

namespace E2EVadModel

def resetDetection (m : E2EVadModel) : E2EVadModel :=
  {m with
    continousSilenceFrameCount := 0
    latestConfirmedSpeechFrame := 0
    lastestConfirmedSilenceFrame := -1
    confirmedStartFrame := -1
    confirmedEndFrame := -1
    vadStateMachine := .startPointNotDetected
    windowsDetector := m.windowsDetector.reset}

def new (opts : E2EVadConfig) : E2EVadModel :=
  resetDetection {
    opts
    windowsDetector := .new opts.windowSizeMs opts.silToSpeechTimeThres opts.speechToSilTimeThres opts.frameInMs
    dataBufStartFrame := 0
    frmCnt := 0
    latestConfirmedSpeechFrame := 0
    lastestConfirmedSilenceFrame := -1
    continousSilenceFrameCount := 0
    vadStateMachine := .startPointNotDetected
    confirmedStartFrame := -1
    confirmedEndFrame := -1
    numberEndTimeDetected := 0
    outputDataBuf := []
    outputDataBufOffset := 0
    maxEndSilFrameCntThresh := opts.maxEndSilenceTime-opts.speechToSilTimeThres
    idxPreChunk := 0
    dataBufSize := 0
    dataBufAllSize := 0}

def allResetDetection (m : E2EVadModel) : E2EVadModel :=
  resetDetection {m with
    dataBufStartFrame := 0
    frmCnt := 0
    outputDataBuf := []
    outputDataBufOffset := 0
    idxPreChunk := 0
    dataBufSize := 0
    dataBufAllSize := 0
    numberEndTimeDetected := 0
    maxEndSilFrameCntThresh := m.opts.maxEndSilenceTime-m.opts.speechToSilTimeThres}

/- The part of `compute_decibel` that counts the samples. -/
def computeDecibel (m : E2EVadModel) (samples : Nat) : E2EVadModel :=
  if m.dataBufAllSize = 0 then {m with dataBufAllSize := asI32 samples, dataBufSize := asI32 samples}
  else {m with dataBufAllSize := asI32 (m.dataBufAllSize+asI32 samples)}

def computeScores (m : E2EVadModel) (scores : List FrameState) : E2EVadModel :=
  {m with frmCnt := m.frmCnt+scores.length}

def frameShift (m : E2EVadModel) : Int := (m.opts.frameInMs*m.opts.sampleRate).tdiv 1000

def popFrames : Nat → E2EVadModel → E2EVadModel
  | 0, m => m
  | n+1, m =>
    if m.dataBufSize ≥ m.frameShift then
      let start := m.dataBufStartFrame+1
      popFrames n {m with
        dataBufStartFrame := start
        dataBufSize := asI32 (m.dataBufAllSize-asI32 (start*m.frameShift))}
    else m

def popDataBufTillFrame (m : E2EVadModel) (frameIdx : Int) : E2EVadModel :=
  popFrames (frameIdx-m.dataBufStartFrame).toNat m

/- The source also computes how many samples to hand on, and drops the number. -/
def popDataToOutputBuf (m : E2EVadModel) (startFrm frmCnt : Int) (firstFrmIsStartPoint lastFrmIsEndPoint : Bool) :
    E2EVadModel :=
  let m := m.popDataBufTillFrame startFrm
  let bufs := if m.outputDataBuf = [] ∨ firstFrmIsStartPoint then
      m.outputDataBuf ++ [⟨startFrm*m.opts.frameInMs,startFrm*m.opts.frameInMs,false,false⟩]
    else m.outputDataBuf
  let curIdx := bufs.length-1
  {m with
    dataBufStartFrame := m.dataBufStartFrame+frmCnt
    outputDataBuf := bufs.modify curIdx fun cur => {cur with
      endMs := (startFrm+frmCnt)*m.opts.frameInMs
      containSegStartPoint := cur.containSegStartPoint || firstFrmIsStartPoint
      containSegEndPoint := cur.containSegEndPoint || lastFrmIsEndPoint}}

def onSilenceDetected (m : E2EVadModel) (validFrame : Int) : E2EVadModel :=
  let m := {m with lastestConfirmedSilenceFrame := validFrame}
  if m.vadStateMachine = .startPointNotDetected then m.popDataBufTillFrame validFrame else m

def onVoiceDetected (m : E2EVadModel) (validFrame : Int) : E2EVadModel :=
  popDataToOutputBuf {m with latestConfirmedSpeechFrame := validFrame} validFrame 1 false false

def onVoiceStart (m : E2EVadModel) (startFrame : Int) (fakeResult : Bool) : E2EVadModel :=
  let m := {m with confirmedStartFrame := startFrame}
  if !fakeResult ∧ m.vadStateMachine = .startPointNotDetected then
    m.popDataToOutputBuf m.confirmedStartFrame 1 true false
  else m

def frames (first stop : Int) : List Int := (List.range (stop-first).toNat).map fun i : Nat => first+(i:Int)

def onVoiceEnd (m : E2EVadModel) (endFrame : Int) (fakeResult : Bool) : E2EVadModel :=
  let m := (frames (m.latestConfirmedSpeechFrame+1) endFrame).foldl onVoiceDetected m
  let m := {m with confirmedEndFrame := endFrame}
  let m := if fakeResult then m else m.popDataToOutputBuf m.confirmedEndFrame 1 false true
  {m with numberEndTimeDetected := m.numberEndTimeDetected+1}

def endPoint (m : E2EVadModel) : E2EVadModel := {m with vadStateMachine := .endPointDetected}

def maybeOnVoiceEndIfLastFrame (m : E2EVadModel) (isFinalFrame : Bool) (curFrmIdx : Int) : E2EVadModel :=
  if isFinalFrame then (m.onVoiceEnd curFrmIdx false).endPoint else m

def latencyFrmNumAtStartPoint (m : E2EVadModel) : Int :=
  m.windowsDetector.winSizeFrame +
    if m.opts.doExtend then m.opts.lookbackTimeStartPoint.tdiv m.opts.frameInMs else 0

def tooLong (m : E2EVadModel) (curFrmIdx : Int) : Bool :=
  curFrmIdx-m.confirmedStartFrame+1 > m.opts.maxSingleSegmentTime.tdiv m.opts.frameInMs

def speechGoesOn (m : E2EVadModel) (curFrmIdx : Int) (isFinalFrame : Bool) : E2EVadModel :=
  if m.tooLong curFrmIdx then (m.onVoiceEnd curFrmIdx false).endPoint
  else if !isFinalFrame then m.onVoiceDetected curFrmIdx
  else m.maybeOnVoiceEndIfLastFrame isFinalFrame curFrmIdx

def lookbackFrame (m : E2EVadModel) : Int :=
  let lookback := m.maxEndSilFrameCntThresh.tdiv m.opts.frameInMs
  if m.opts.doExtend then max (lookback-m.opts.lookaheadTimeEndPoint.tdiv m.opts.frameInMs-1) 0 else lookback

def setSilence (m : E2EVadModel) (count : Int) : E2EVadModel := {m with continousSilenceFrameCount := count}

def onSil2Speech (m : E2EVadModel) (curFrmIdx : Int) (isFinalFrame : Bool) : E2EVadModel :=
  let m := m.setSilence 0
  match m.vadStateMachine with
  | .startPointNotDetected =>
    let startFrame := max m.dataBufStartFrame (curFrmIdx-m.latencyFrmNumAtStartPoint)
    let m := {m.onVoiceStart startFrame false with vadStateMachine := .inSpeechSegment}
    (frames (startFrame+1) (curFrmIdx+1)).foldl onVoiceDetected m
  | .inSpeechSegment =>
    let m := (frames (m.latestConfirmedSpeechFrame+1) curFrmIdx).foldl onVoiceDetected m
    m.speechGoesOn curFrmIdx isFinalFrame
  | .endPointDetected => m

def onSpeech (m : E2EVadModel) (curFrmIdx : Int) (isFinalFrame : Bool) : E2EVadModel :=
  let m := m.setSilence 0
  if m.vadStateMachine = .inSpeechSegment then m.speechGoesOn curFrmIdx isFinalFrame else m

def onSil2Sil (m : E2EVadModel) (curFrmIdx : Int) (isFinalFrame : Bool) : E2EVadModel :=
  let m := m.setSilence (m.continousSilenceFrameCount+1)
  match m.vadStateMachine with
  | .startPointNotDetected =>
    if (m.opts.detectMode = 0 ∧ m.continousSilenceFrameCount*m.opts.frameInMs > m.opts.maxStartSilenceTime) ∨
        (isFinalFrame ∧ m.numberEndTimeDetected = 0) then
      let m := (frames (m.lastestConfirmedSilenceFrame+1) curFrmIdx).foldl onSilenceDetected m
      ((m.onVoiceStart 0 true).onVoiceEnd 0 true).endPoint
    else if curFrmIdx ≥ m.latencyFrmNumAtStartPoint then
      m.onSilenceDetected (curFrmIdx-m.latencyFrmNumAtStartPoint)
    else m
  | .inSpeechSegment =>
    if m.continousSilenceFrameCount*m.opts.frameInMs ≥ m.maxEndSilFrameCntThresh then
      (m.onVoiceEnd (curFrmIdx-m.lookbackFrame) false).endPoint
    else if m.tooLong curFrmIdx then (m.onVoiceEnd curFrmIdx false).endPoint
    else if m.opts.doExtend ∧ !isFinalFrame then
      if m.continousSilenceFrameCount ≤ m.opts.lookaheadTimeEndPoint.tdiv m.opts.frameInMs then
        m.onVoiceDetected curFrmIdx
      else m
    else m.maybeOnVoiceEndIfLastFrame isFinalFrame curFrmIdx
  | .endPointDetected => m

def onChange (m : E2EVadModel) (stateChange : AudioChangeState) (curFrmIdx : Int) (isFinalFrame : Bool) :
    E2EVadModel := match stateChange with
  | .sil2Speech => m.onSil2Speech curFrmIdx isFinalFrame
  | .speech2Sil | .speech2Speech => m.onSpeech curFrmIdx isFinalFrame
  | .sil2Sil => m.onSil2Sil curFrmIdx isFinalFrame

def resetIfEnded (m : E2EVadModel) : E2EVadModel :=
  if m.vadStateMachine = .endPointDetected ∧ m.opts.detectMode = 1 then m.resetDetection else m

def detectOneFrame (m : E2EVadModel) (curFrmState : FrameState) (curFrmIdx : Int) (isFinalFrame : Bool) :
    E2EVadModel :=
  let seen := m.windowsDetector.detectOneFrame curFrmState
  (onChange {m with windowsDetector := seen.2} seen.1 curFrmIdx isFinalFrame).resetIfEnded

/- The scores of a frame are looked up in its chunk; a frame outside it counts as silence. -/
def getFrameState (m : E2EVadModel) (t : Int) (scores : List FrameState) : FrameState :=
  let localT := t-m.idxPreChunk
  if localT < 0 then .sil else scores.getD localT.toNat .sil

/- The loop over a chunk counts down to its last frame. -/
def detectFrames (m : E2EVadModel) (scores : List FrameState) (isLast : Bool) : Nat → E2EVadModel
  | 0 => m
  | i+1 =>
    let frameIdx := m.frmCnt-1-i
    (m.detectOneFrame (m.getFrameState frameIdx scores) frameIdx (isLast ∧ i = 0)).detectFrames scores isLast i

def detectCommonFrames (m : E2EVadModel) (scores : List FrameState) : E2EVadModel :=
  if m.vadStateMachine = .endPointDetected then m else
    let m := m.detectFrames scores false scores.length
    {m with idxPreChunk := m.idxPreChunk+scores.length}

def detectLastFrames (m : E2EVadModel) (scores : List FrameState) : E2EVadModel :=
  if m.vadStateMachine = .endPointDetected then m else m.detectFrames scores true scores.length

def complete (seg : SpeechSegmentBuf) : Bool := seg.containSegStartPoint && seg.containSegEndPoint

def outputSegments (m : E2EVadModel) : List (Nat × Nat) × E2EVadModel :=
  let found := (m.outputDataBuf.drop m.outputDataBufOffset).filter complete
  (found.map fun seg => (seg.startMs.toNat,seg.endMs.toNat),
    {m with outputDataBufOffset := m.outputDataBufOffset+found.length})

def setEndSilence (m : E2EVadModel) (maxEndSilenceMs : Int) : E2EVadModel :=
  {m with maxEndSilFrameCntThresh := maxEndSilenceMs-m.opts.speechToSilTimeThres}

def detectOffline (m : E2EVadModel) (scores : List FrameState) (samples : Nat) (maxEndSilenceMs : Int) :
    List (Nat × Nat) × E2EVadModel :=
  let m := (m.allResetDetection).setEndSilence maxEndSilenceMs
  let m := ((m.computeDecibel samples).computeScores scores).detectLastFrames scores
  let (segments,m) := m.outputSegments
  (segments,m.allResetDetection)

def detectChunk (m : E2EVadModel) (scores : List FrameState) (samples : Nat) (isFinal : Bool)
    (maxEndSilenceMs : Int) : List (Nat × Nat) × E2EVadModel :=
  let m := m.setEndSilence maxEndSilenceMs
  let m := (m.computeDecibel samples).computeScores scores
  let m := if isFinal then m.detectLastFrames scores else m.detectCommonFrames scores
  let (segments,m) := m.outputSegments
  (segments,if isFinal then m.allResetDetection else m)

def finalizeStreaming (m : E2EVadModel) (maxEndSilenceMs : Int) : List (Nat × Nat) × E2EVadModel :=
  let m := m.setEndSilence maxEndSilenceMs
  let m := if m.vadStateMachine = .inSpeechSegment ∧ m.frmCnt > 0 then
      m.maybeOnVoiceEndIfLastFrame true (m.frmCnt-1)
    else m
  let (segments,m) := m.outputSegments
  (segments,m.allResetDetection)

end E2EVadModel
end Qwen3Asr.E2EVad
