import Mathlib.Algebra.BigOperators.Group.List.Basic
import Mathlib.Algebra.Ring.Int.Defs
import Qwen3Asr.E2EVad

/-! The sliding window of the detector: its sum is that of the frames it holds, and it reports
the change from the state it was in to the state it is in. -/
namespace Qwen3Asr.VadWindow
open E2EVad WindowDetector

structure Sliding (w : WindowDetector) : Prop where
  size : w.winSizeFrame = 20
  loud : w.silToSpeechFrmcntThres = 15
  quiet : w.speechToSilFrmcntThres = 15
  length : w.winState.length = 20
  position : w.curWinPos < 20
  decisions : ∀ x ∈ w.winState, 0 ≤ x ∧ x ≤ 1
  sum : w.winSum = w.winState.sum

variable {w : WindowDetector}

theorem sumWithin {decisions : List Int} (each : ∀ x ∈ decisions, 0 ≤ x ∧ x ≤ 1) :
    0 ≤ decisions.sum ∧ decisions.sum ≤ decisions.length := by
  induction decisions with
  | nil => simp
  | cons x decisions ih =>
    have head := each x List.mem_cons_self
    have tail := ih fun y inside => each y (List.mem_cons_of_mem x inside)
    rw [List.sum_cons,List.length_cons]
    omega

theorem slidingSum (sliding : Sliding w) : 0 ≤ w.winSum ∧ w.winSum ≤ 20 := by
  have within := sumWithin sliding.decisions
  rw [sliding.length,← sliding.sum] at within
  exact within

theorem decisionWithin (state : FrameState) : 0 ≤ curFrameState state ∧ curFrameState state ≤ 1 := by
  cases state <;> simp [curFrameState]

theorem leavingWithin (sliding : Sliding w) :
    ∃ here : w.curWinPos < w.winState.length, w.winState.getD w.curWinPos 0 = w.winState[w.curWinPos] := by
  have here : w.curWinPos < w.winState.length := by rw [sliding.length]; exact sliding.position
  exact ⟨here,(List.getElem_eq_getD 0).symm⟩

theorem slideSliding (sliding : Sliding w) (state : FrameState) : Sliding (w.slide state) where
  size := sliding.size
  loud := sliding.loud
  quiet := sliding.quiet
  length := by simpa [WindowDetector.slide] using sliding.length
  position := by simpa [WindowDetector.slide,sliding.size] using Nat.mod_lt _ (by decide)
  decisions x inside := by
    rcases List.mem_or_eq_of_mem_set inside with before | rfl
    · exact sliding.decisions x before
    · exact decisionWithin state
  sum := by
    obtain ⟨here,leaving⟩ := leavingWithin sliding
    unfold WindowDetector.slide
    rw [List.sum_set']
    simp only [here,dif_pos,leaving,sliding.sum]
    omega

theorem slideSum (sliding : Sliding w) (state : FrameState) : (w.slide state).winSum ≤ w.winSum+1 := by
  obtain ⟨here,leaving⟩ := leavingWithin sliding
  have left := (sliding.decisions _ (List.getElem_mem here)).1
  have entering := (decisionWithin state).2
  unfold WindowDetector.slide
  dsimp only
  omega

def changeFrom : AudioChangeState → FrameState
  | .sil2Sil | .sil2Speech => .sil
  | .speech2Sil | .speech2Speech => .speech

def changeTo : AudioChangeState → FrameState
  | .sil2Sil | .speech2Sil => .sil
  | .sil2Speech | .speech2Speech => .speech

theorem windowChange (w : WindowDetector) (state : FrameState) :
    w.preFrameState = changeFrom (w.detectOneFrame state).1 ∧
    (w.detectOneFrame state).2.preFrameState = changeTo (w.detectOneFrame state).1 := by
  have kept : (w.slide state).preFrameState = w.preFrameState := rfl
  simp only [detectOneFrame,kept]
  cases pre : w.preFrameState with
  | sil => by_cases loud : (w.slide state).winSum ≥ (w.slide state).silToSpeechFrmcntThres <;>
      simp [loud,kept,pre,changeFrom,changeTo]
  | speech => by_cases quiet : (w.slide state).winSum ≤ (w.slide state).speechToSilFrmcntThres <;>
      simp [quiet,kept,pre,changeFrom,changeTo]

theorem windowSlid (w : WindowDetector) (state : FrameState) :
    ∃ preFrameState, (w.detectOneFrame state).2 = {w.slide state with preFrameState} := by
  unfold detectOneFrame
  dsimp only
  split_ifs <;> exact ⟨_,rfl⟩

theorem startLoud (sliding : Sliding w) {state : FrameState} (starts : (w.detectOneFrame state).1 = .sil2Speech) :
    15 ≤ (w.slide state).winSum := by
  have thres : (w.slide state).silToSpeechFrmcntThres = 15 := sliding.loud
  unfold WindowDetector.detectOneFrame at starts
  dsimp only at starts
  split_ifs at starts with first
  omega

theorem detectSliding (sliding : Sliding w) (state : FrameState) : Sliding (w.detectOneFrame state).2 := by
  have slid := slideSliding sliding state
  obtain ⟨pre,same⟩ := windowSlid w state
  rw [same]
  exact ⟨slid.size,slid.loud,slid.quiet,slid.length,slid.position,slid.decisions,slid.sum⟩

theorem detectSum (w : WindowDetector) (state : FrameState) :
    (w.detectOneFrame state).2.winSum = (w.slide state).winSum := by
  obtain ⟨pre,same⟩ := windowSlid w state
  rw [same]

theorem resetSliding (sliding : Sliding w) : Sliding w.reset where
  size := sliding.size
  loud := sliding.loud
  quiet := sliding.quiet
  length := by simpa [WindowDetector.reset] using sliding.length
  position := by simp [WindowDetector.reset]
  decisions x inside := by simp [List.eq_of_mem_replicate inside]
  sum := by simp [WindowDetector.reset]

structure Loud (w : WindowDetector) : Prop extends Sliding w where
  speech : w.preFrameState = .speech
  full : 16 ≤ w.winSum

theorem speechSum (sliding : Sliding w) : w.winSum ≤ (w.slide .speech).winSum := by
  obtain ⟨here,leaving⟩ := leavingWithin sliding
  have left := (sliding.decisions _ (List.getElem_mem here)).2
  unfold WindowDetector.slide curFrameState
  dsimp only
  omega

theorem loudSpeech (loud : Loud w) :
    (w.detectOneFrame .speech).1 = .speech2Speech ∧ Loud (w.detectOneFrame .speech).2 := by
  have sum := speechSum loud.toSliding
  have full := loud.full
  have pre : (w.slide .speech).preFrameState = .speech := loud.speech
  have quiet : (w.slide .speech).speechToSilFrmcntThres = 15 := loud.quiet
  have stays : ¬(w.slide .speech).winSum ≤ 15 := by omega
  have seen : w.detectOneFrame .speech = (.speech2Speech,w.slide .speech) := by
    simp [detectOneFrame,pre,quiet,stays]
  rw [seen]
  exact ⟨rfl,{slideSliding loud.toSliding .speech with speech := pre, full := by dsimp only; omega}⟩

end Qwen3Asr.VadWindow
