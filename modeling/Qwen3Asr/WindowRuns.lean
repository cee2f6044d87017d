import Qwen3Asr.Library.Ring
import Qwen3Asr.VadWindow

/-! Whole runs of the sliding window, of any size and with any thresholds: what it has been told
since it was last cleared, what it has reported since then, and how the one follows from the other. -/
namespace Qwen3Asr.WindowRuns
open Library E2EVad E2EVad.WindowDetector VadWindow

/- The decisions and the reports since the window was built or cleared, and the window. A step reads
`win_state[cur_win_pos]`, which panics outside of the window. -/
inductive Ran (built : WindowDetector) : List FrameState → List AudioChangeState → WindowDetector → Prop where
  | new : Ran built [] [] built
  | decided {decisions reports w} (ran : Ran built decisions reports w)
      (inside : w.curWinPos < w.winState.length) (frameState : FrameState) :
      Ran built (decisions ++ [frameState]) (reports ++ [(w.detectOneFrame frameState).1])
        (w.detectOneFrame frameState).2
  | reset {decisions reports w} (ran : Ran built decisions reports w) : Ran built [] [] w.reset

def speechFrames (size : Nat) (decisions : List FrameState) : Nat := (decisions.rtake size).count .speech

def isTransition : AudioChangeState → Bool
  | .sil2Speech | .speech2Sil => true
  | .sil2Sil | .speech2Speech => false

def transitions (reports : List AudioChangeState) : List AudioChangeState := reports.filter isTransition

def transitionFrom : FrameState → AudioChangeState
  | .sil => .sil2Speech
  | .speech => .speech2Sil

def Alternates : FrameState → List AudioChangeState → Prop
  | _, [] => True
  | state, change::changes => change = transitionFrom state ∧ Alternates (changeTo (transitionFrom state)) changes

def stateAfter (reports : List AudioChangeState) : FrameState :=
  (transitions reports).getLast?.elim .sil changeTo

/- The windowed sum is at or beyond the threshold that ends the state. -/
def Crosses (silToSpeech speechToSil : Int) : FrameState → Int → Prop
  | .sil, sum => silToSpeech ≤ sum
  | .speech, sum => sum ≤ speechToSil

section Ring
variable {built w : WindowDetector} {decisions : List FrameState} {reports : List AudioChangeState}

def ring (w : WindowDetector) : Library.Ring Int := ⟨w.winState,w.curWinPos,w.winSum⟩

structure Sized (built w : WindowDetector) : Prop where
  cells : w.winState.length = built.winState.length
  size : w.winSizeFrame = built.winSizeFrame
  loud : w.silToSpeechFrmcntThres = built.silToSpeechFrmcntThres
  quiet : w.speechToSilFrmcntThres = built.speechToSilFrmcntThres

theorem detectSized (sized : Sized built w) (frameState : FrameState) :
    Sized built (w.detectOneFrame frameState).2 := by
  obtain ⟨pre,same⟩ := windowSlid w frameState
  rw [same]
  exact ⟨List.length_set.trans sized.cells,sized.size,sized.loud,sized.quiet⟩

theorem ranSized (ran : Ran built decisions reports w) : Sized built w := by
  induction ran with
  | new => exact ⟨rfl,rfl,rfl,rfl⟩
  | decided _ _ frameState sized => exact detectSized sized frameState
  | reset _ sized => exact ⟨List.length_replicate.trans sized.cells,sized.size,sized.loud,sized.quiet⟩

structure Fresh (built : WindowDetector) : Prop where
  cells : built.winState = List.replicate built.winSizeFrame.toNat 0
  sum : built.winSum = 0
  position : built.curWinPos = 0
  silent : built.preFrameState = .sil

theorem newFresh (windowSizeMs silToSpeechTime speechToSilTime frameSizeMs : Int) :
    Fresh (.new windowSizeMs silToSpeechTime speechToSilTime frameSizeMs) := ⟨rfl,rfl,rfl,rfl⟩

theorem freshLength (fresh : Fresh built) : built.winState.length = built.winSizeFrame.toNat := by
  rw [fresh.cells,List.length_replicate]

theorem slideRing (size : w.winState.length = w.winSizeFrame.toNat) (frameState : FrameState) :
    ring (w.slide frameState) = (ring w).push (curFrameState frameState) := by
  unfold ring WindowDetector.slide Ring.push
  dsimp only
  rw [size]

theorem detectRing (size : w.winState.length = w.winSizeFrame.toNat) (frameState : FrameState) :
    ring (w.detectOneFrame frameState).2 = (ring w).push (curFrameState frameState) := by
  obtain ⟨pre,same⟩ := windowSlid w frameState
  rw [same,← slideRing size]
  rfl

theorem ranLength (fresh : Fresh built) (ran : Ran built decisions reports w) :
    w.winState.length = w.winSizeFrame.toNat := by
  have sized := ranSized ran
  rw [sized.cells,sized.size,freshLength fresh]

theorem ranHolds (fresh : Fresh built) (ran : Ran built decisions reports w) :
    (ring w).Holds (decisions.map curFrameState) := by
  induction ran with
  | new =>
    have empty : ring built = ⟨List.replicate built.winSizeFrame.toNat 0,0,0⟩ := by
      rw [ring,fresh.cells,fresh.sum,fresh.position]
    rw [empty]
    exact Ring.emptyHolds _
  | decided ran inside frameState holds =>
    rw [detectRing (ranLength fresh ran),List.map_append]
    exact Ring.pushHolds inside holds _
  | reset => exact Ring.emptyHolds _

theorem countSum (decisions : List FrameState) : (decisions.map curFrameState).sum = decisions.count .speech := by
  induction decisions with
  | nil => rfl
  | cons frameState decisions ih =>
    rw [List.map_cons,List.sum_cons,List.count_cons,ih]
    cases frameState <;> simp [curFrameState,Int.add_comm]

theorem ranSum (fresh : Fresh built) (ran : Ran built decisions reports w) :
    w.winSum = speechFrames built.winSizeFrame.toNat decisions := by
  have spanned : (decisions.map curFrameState).rtake w.winState.length =
      (decisions.rtake w.winState.length).map curFrameState := by
    rw [List.rtake,List.rtake,List.length_map,List.map_drop]
  have summed := Ring.holdsSum (ranHolds fresh ran)
  change w.winSum = ((decisions.map curFrameState).rtake w.winState.length).sum at summed
  rw [summed,spanned,countSum,(ranSized ran).cells,freshLength fresh]
  rfl

/- A window of at least one frame never reads outside of itself. -/
theorem ranInside (fresh : Fresh built) (some_ : 0 < built.winSizeFrame) (ran : Ran built decisions reports w) :
    w.curWinPos < w.winState.length := by
  induction ran with
  | new =>
    rw [freshLength fresh,fresh.position]
    omega
  | decided ran inside frameState _ =>
    have pushed := Ring.pushInside (r := ring _) inside (curFrameState frameState)
    rw [← detectRing (ranLength fresh ran)] at pushed
    exact pushed
  | reset ran inside =>
    exact (Nat.zero_lt_of_lt inside).trans_eq (List.length_replicate).symm

end Ring

section Reports
variable {built w : WindowDetector} {decisions : List FrameState} {reports : List AudioChangeState}

theorem detectCrosses (w : WindowDetector) (frameState : FrameState) :
    isTransition (w.detectOneFrame frameState).1 = true ↔
      Crosses w.silToSpeechFrmcntThres w.speechToSilFrmcntThres w.preFrameState (w.detectOneFrame frameState).2.winSum := by
  rw [detectSum]
  have loud : (w.slide frameState).silToSpeechFrmcntThres = w.silToSpeechFrmcntThres := rfl
  have quiet : (w.slide frameState).speechToSilFrmcntThres = w.speechToSilFrmcntThres := rfl
  have kept : (w.slide frameState).preFrameState = w.preFrameState := rfl
  unfold detectOneFrame
  dsimp only
  rw [loud,quiet,kept]
  cases w.preFrameState with
  | sil =>
    by_cases beyond : w.silToSpeechFrmcntThres ≤ (w.slide frameState).winSum <;>
      simp [beyond,isTransition,Crosses]
  | speech =>
    by_cases beyond : (w.slide frameState).winSum ≤ w.speechToSilFrmcntThres <;>
      simp [beyond,isTransition,Crosses]

theorem transitionOf {change : AudioChangeState} (turns : isTransition change = true) :
    change = transitionFrom (changeFrom change) := by
  cases change <;> first | rfl | cases turns

theorem steadyOf {change : AudioChangeState} (steady : isTransition change = false) :
    changeTo change = changeFrom change := by
  cases change <;> first | rfl | cases steady

theorem transitionsSnoc (reports : List AudioChangeState) (change : AudioChangeState) :
    transitions (reports ++ [change]) =
      transitions reports ++ if isTransition change then [change] else [] := by
  rw [transitions,List.filter_append,List.filter_singleton]
  cases isTransition change <;> rfl

theorem stateSnoc (reports : List AudioChangeState) (change : AudioChangeState) :
    stateAfter (reports ++ [change]) = if isTransition change then changeTo change else stateAfter reports := by
  unfold stateAfter
  rw [transitionsSnoc]
  cases isTransition change <;> simp

theorem alternatesSnoc {state : FrameState} {changes : List AudioChangeState} (before : Alternates state changes) :
    Alternates state (changes ++ [transitionFrom (changes.getLast?.elim state changeTo)]) := by
  induction changes generalizing state with
  | nil => exact ⟨rfl,trivial⟩
  | cons change changes ih =>
    obtain ⟨rfl,after⟩ := before
    have last : (transitionFrom state::changes).getLast?.elim state changeTo =
        changes.getLast?.elim (changeTo (transitionFrom state)) changeTo := by
      rw [List.getLast?_cons]
      cases changes.getLast? <;> rfl
    rw [last]
    exact ⟨rfl,ih after⟩

/-- What a run has reported, decision by decision. -/
structure Reported (size : Nat) (silToSpeech speechToSil : Int) (decisions : List FrameState)
    (reports : List AudioChangeState) : Prop where
  each : reports.length = decisions.length
  alternates : Alternates .sil (transitions reports)
  exactly : ∀ i report, reports[i]? = some report → (isTransition report = true ↔
    Crosses silToSpeech speechToSil (stateAfter (reports.take i)) (speechFrames size (decisions.take (i+1))))

variable {size : Nat} {silToSpeech speechToSil : Int}

theorem reportedSnoc (reported : Reported size silToSpeech speechToSil decisions reports) {frameState : FrameState}
    {change : AudioChangeState} (leaves : changeFrom change = stateAfter reports)
    (crosses : isTransition change = true ↔ Crosses silToSpeech speechToSil (stateAfter reports)
      (speechFrames size (decisions ++ [frameState]))) :
    Reported size silToSpeech speechToSil (decisions ++ [frameState]) (reports ++ [change]) where
  each := by rw [List.length_append,List.length_append,reported.each,List.length_singleton,List.length_singleton]
  alternates := by
    rw [transitionsSnoc]
    cases turns : isTransition change with
    | false => simpa using reported.alternates
    | true =>
      have next := alternatesSnoc reported.alternates
      have same : change = transitionFrom ((transitions reports).getLast?.elim .sil changeTo) :=
        (transitionOf turns).trans (congrArg transitionFrom leaves)
      rw [← same] at next
      exact next
  exactly i report found := by
    rcases Nat.lt_or_ge i reports.length with earlier | later
    · have within : i+1 ≤ decisions.length := by rw [← reported.each]; exact earlier
      rw [List.getElem?_append_left earlier] at found
      rw [List.take_append_of_le_length earlier.le,List.take_append_of_le_length within]
      exact reported.exactly i report found
    · obtain ⟨rfl,rfl⟩ : i = reports.length ∧ change = report := by
        rw [List.getElem?_append_right later] at found
        obtain ⟨here,same⟩ := List.getElem?_eq_some_iff.mp found
        rw [List.length_singleton] at here
        exact ⟨by omega,by simpa using same⟩
      have whole : (decisions ++ [frameState]).take (reports.length+1) = decisions ++ [frameState] :=
        List.take_of_length_le (by rw [List.length_append,reported.each]; rfl)
      rw [List.take_left,whole]
      exact crosses

theorem ranState (fresh : Fresh built) (ran : Ran built decisions reports w) : w.preFrameState = stateAfter reports := by
  induction ran with
  | new => exact fresh.silent
  | @decided decisions reports w ran inside frameState ih =>
    obtain ⟨leaves,enters⟩ := windowChange w frameState
    rw [enters,stateSnoc]
    cases turns : isTransition (w.detectOneFrame frameState).1 with
    | false => rw [steadyOf turns,← leaves,ih]; rfl
    | true => rfl
  | reset => rfl

/-- The window counts the speech frames among the last ones it was told, and what it reports follows
from that count and its state alone. With room for a frame it can be told any decision. -/
theorem windowCounts (windowSizeMs silToSpeechTime speechToSilTime frameSizeMs : Int)
    (decisions : List FrameState) (reports : List AudioChangeState) (w : WindowDetector)
    (ran : Ran (.new windowSizeMs silToSpeechTime speechToSilTime frameSizeMs) decisions reports w) :
    w.winSum = speechFrames (windowSizeMs.tdiv frameSizeMs).toNat decisions ∧
    Reported (windowSizeMs.tdiv frameSizeMs).toNat (silToSpeechTime.tdiv frameSizeMs)
      (speechToSilTime.tdiv frameSizeMs) decisions reports ∧
    (0 < windowSizeMs.tdiv frameSizeMs → w.curWinPos < w.winState.length) := by
  have fresh := newFresh windowSizeMs silToSpeechTime speechToSilTime frameSizeMs
  refine ⟨ranSum fresh ran,?_,fun room => ranInside fresh room ran⟩
  induction ran with
  | new => exact ⟨rfl,trivial,fun i report found => by cases found⟩
  | @decided decisions reports w ran inside frameState ih =>
    have sized := ranSized ran
    have state := ranState fresh ran
    have sum := ranSum fresh (ran.decided inside frameState)
    have crosses := detectCrosses w frameState
    rw [sized.loud,sized.quiet,sum,state] at crosses
    exact reportedSnoc ih ((windowChange w frameState).1.symm.trans state) crosses
  | reset => exact ⟨rfl,trivial,fun i report found => by cases found⟩

theorem windowOfThree :
    Ran (.new 30 20 10 10) [.speech,.speech,.sil,.sil] [.sil2Sil,.sil2Speech,.speech2Speech,.speech2Sil]
      ⟨3,1,[0,1,0],1,.sil,2,1⟩ ∧
    ((1 : Int) = speechFrames 3 [.speech,.speech,.sil,.sil] ∧
    Reported 3 2 1 [.speech,.speech,.sil,.sil] [.sil2Sil,.sil2Speech,.speech2Speech,.speech2Sil] ∧
    (0 < (3 : Int) → 1 < [(0 : Int),1,0].length)) := by
  have ran : Ran (.new 30 20 10 10) [.speech,.speech,.sil,.sil]
      [.sil2Sil,.sil2Speech,.speech2Speech,.speech2Sil] ⟨3,1,[0,1,0],1,.sil,2,1⟩ :=
    .decided (.decided (.decided (.decided .new (by decide) .speech) (by decide) .speech) (by decide) .sil)
      (by decide) .sil
  exact ⟨ran,windowCounts 30 20 10 10 _ _ _ ran⟩

end Reports
end Qwen3Asr.WindowRuns
