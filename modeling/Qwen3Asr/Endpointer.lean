import Mathlib.Tactic.SplitIfs
import Qwen3Asr.VadWindow

/-! What the detector is for: silence, then a segment that grows, then its end, over one
sequence of frames without chunks or buffers. Frames are counted from 0; `starved` stands for a
detector whose sample counter has stopped, so that it drops no silence any more. -/
namespace Qwen3Asr.Endpointer
open E2EVad VadWindow

inductive Phase where
  | waiting
  | speaking (start latest : Int)
  deriving DecidableEq, Repr

structure Detection where
  window : WindowDetector
  silence : Int
  /-- Frames handed on or dropped so far. -/
  taken : Int
  phase : Phase
  /-- First and last frame of the segments that have ended. -/
  closed : List (Int × Int)
  deriving DecidableEq, Repr

def latency : Int := 40
def maxFrames : Int := 6000
def lookahead : Int := 10

def lookback (threshold : Int) : Int := max (threshold.tdiv 10-11) 0

def skipTo (starved : Bool) (taken frame : Int) : Int := if starved then taken else max taken frame

def close (e : Detection) (start latest last : Int) : Detection where
  window := e.window.reset
  silence := 0
  taken := e.taken+(last-latest)
  phase := .waiting
  closed := e.closed ++ [(start,last)]

def hear (e : Detection) (start latest c : Int) : Detection :=
  if c-start+1 > maxFrames then close e start latest c
  else {e with silence := 0, taken := e.taken+(c-latest), phase := .speaking start c}

def hush (threshold : Int) (e : Detection) (start latest c : Int) : Detection :=
  let silence := e.silence+1
  if silence*10 ≥ threshold then close e start latest (c-lookback threshold)
  else if c-start+1 > maxFrames then close e start latest c
  else if silence ≤ lookahead then {e with silence, taken := e.taken+(c-latest), phase := .speaking start c}
  else {e with silence, phase := .speaking start latest}

def speak (starved : Bool) (e : Detection) (c : Int) : Detection :=
  let start := max e.taken (c-latency)
  {e with silence := 0, taken := skipTo starved e.taken start+(c+1-start), phase := .speaking start c}

def wait (starved : Bool) (e : Detection) (c : Int) : Detection :=
  {e with
    silence := e.silence+1
    taken := if c ≥ latency then skipTo starved e.taken (c-latency) else e.taken
    phase := .waiting}

def act (starved : Bool) (threshold : Int) (e : Detection) (change : AudioChangeState) (c : Int) : Detection :=
  match e.phase with
  | .waiting => match change with
    | .sil2Speech => speak starved e c
    | .sil2Sil => wait starved e c
    | _ => {e with silence := 0}
  | .speaking start latest => match change with
    | .sil2Sil => hush threshold e start latest c
    | _ => hear e start latest c

def step (starved : Bool) (threshold : Int) (e : Detection) (state : FrameState) (c : Int) : Detection :=
  let seen := e.window.detectOneFrame state
  act starved threshold {e with window := seen.2} seen.1 c

def run (starved : Bool) (threshold : Int) : Detection → Int → List FrameState → Detection
  | e, _, [] => e
  | e, c, state::rest => run starved threshold (step starved threshold e state c) (c+1) rest

def lastStep (threshold : Int) (e : Detection) (state : FrameState) (c : Int) : List (Int × Int) :=
  match e.phase with
  | .waiting => e.closed
  | .speaking start _ =>
    if (e.window.detectOneFrame state).1 = .sil2Sil ∧ (e.silence+1)*10 ≥ threshold then
      e.closed ++ [(start,c-lookback threshold)]
    else e.closed ++ [(start,c)]

def lastRun (starved : Bool) (threshold : Int) : Detection → Int → List FrameState → List (Int × Int)
  | e, _, [] => e.closed
  | e, c, [state] => lastStep threshold e state c
  | e, c, state::next::rest => lastRun starved threshold (step starved threshold e state c) (c+1) (next::rest)

def finish (e : Detection) (c : Int) : List (Int × Int) := match e.phase with
  | .waiting => e.closed
  | .speaking start _ => e.closed ++ [(start,c-1)]

def initial (opts : E2EVadConfig) : Detection where
  window := (E2EVadModel.new opts).windowsDetector
  silence := 0
  taken := 0
  phase := .waiting
  closed := []

structure InOrder (closed : List (Int × Int)) (bound : Int) : Prop where
  within : ∀ segment ∈ closed, 0 ≤ segment.1 ∧ segment.1 ≤ segment.2 ∧ segment.2 < bound ∧
    segment.2-segment.1 ≤ maxFrames
  apart : closed.Pairwise fun a b => a.2 < b.1

structure Speaking (starved : Bool) (e : Detection) (start latest c : Int) : Prop where
  begun : 0 ≤ start ∧ start ≤ latest
  short : c-start ≤ maxFrames
  pause : 0 ≤ e.silence ∧ latest = c-1-max (e.silence-lookahead) 0
  behind : e.taken ≤ latest+1
  ordered : starved = false → e.taken = latest+1 ∧ InOrder e.closed start

/- What holds before frame `c`; while waiting, the speech in the window comes after all that was
handed on. -/
structure Sound (starved : Bool) (e : Detection) (c : Int) : Prop where
  window : Sliding e.window
  taken : 0 ≤ e.taken ∧ e.taken ≤ c
  phase : match e.phase with
    | .waiting => e.window.preFrameState = .sil ∧ e.taken+e.window.winSum ≤ c ∧
        (starved = false → InOrder e.closed e.taken)
    | .speaking start latest => Speaking starved e start latest c ∧ (e.window.preFrameState = .speech → e.silence = 0)

theorem inOrderLater {closed : List (Int × Int)} {a b : Int} (ordered : InOrder closed a) (later : a ≤ b) :
    InOrder closed b where
  within segment inside := by
    have := ordered.within segment inside
    omega
  apart := ordered.apart

theorem inOrderClose {closed : List (Int × Int)} {start last : Int} (ordered : InOrder closed start)
    (low : 0 ≤ start) (positive : start ≤ last) (short : last-start ≤ maxFrames) :
    InOrder (closed ++ [(start,last)]) (last+1) where
  within segment inside := by
    rcases List.mem_append.mp inside with before | final
    · have := ordered.within segment before
      omega
    · cases List.mem_singleton.mp final
      exact ⟨low,positive,by omega,short⟩
  apart := List.pairwise_append.mpr ⟨ordered.apart,List.pairwise_singleton _ _,fun segment inside _ final => by
    cases List.mem_singleton.mp final
    exact (ordered.within segment inside).2.2.1⟩

theorem lookbackWithin {threshold silence : Int} (positive : 0 ≤ silence) (ended : silence*10 ≥ threshold) :
    0 ≤ lookback threshold ∧ lookback threshold ≤ max (silence-11) 0 := by
  have quotient : threshold.tdiv 10 ≤ (silence*10).tdiv 10 := Int.tdiv_le_tdiv (by decide) ended
  rw [Int.mul_tdiv_cancel silence (by decide)] at quotient
  unfold lookback
  omega

section Steps
variable {starved : Bool} {threshold c : Int} {e : Detection}

@[simp] theorem skipToFed (taken frame : Int) : skipTo false taken frame = max taken frame := rfl

theorem skipToWithin (starved : Bool) (taken frame : Int) :
    taken ≤ skipTo starved taken frame ∧ skipTo starved taken frame ≤ max taken frame := by
  unfold skipTo
  split <;> omega

theorem closeSound {start latest last : Int} (window : Sliding e.window) (low : 0 ≤ e.taken)
    (speaking : Speaking starved e start latest c) (after : latest < last) (high : last ≤ c) :
    Sound starved (close e start latest last) (c+1) := by
  have behind := speaking.behind
  have begun := speaking.begun
  have short := speaking.short
  have taken : (close e start latest last).taken = e.taken+(last-latest) := rfl
  refine ⟨resetSliding window,by omega,rfl,?_,fun fed => ?_⟩
  · change (close e start latest last).taken+0 ≤ c+1
    omega
  · obtain ⟨here,ordered⟩ := speaking.ordered fed
    exact inOrderLater (inOrderClose ordered begun.1 (by omega : start ≤ last) (by omega)) (by omega)

theorem hearSound {start latest : Int} (window : Sliding e.window) (low : 0 ≤ e.taken)
    (speaking : Speaking starved e start latest c) : Sound starved (hear e start latest c) (c+1) := by
  have pause := speaking.pause
  have begun := speaking.begun
  have behind := speaking.behind
  unfold hear
  split
  · exact closeSound window low speaking (by omega) (Int.le_refl c)
  · next short =>
    refine ⟨window,by dsimp only; omega,⟨by omega,by omega,by dsimp only [lookahead]; omega,by dsimp only; omega,
      fun fed => ?_⟩,fun _ => rfl⟩
    obtain ⟨taken,ordered⟩ := speaking.ordered fed
    exact ⟨by dsimp only; omega,ordered⟩

theorem hushSound {start latest : Int} (window : Sliding e.window) (silent : e.window.preFrameState = .sil)
    (low : 0 ≤ e.taken) (speaking : Speaking starved e start latest c) :
    Sound starved (hush threshold e start latest c) (c+1) := by
  have pause := speaking.pause
  have begun := speaking.begun
  have behind := speaking.behind
  have noSpeech : e.window.preFrameState = .speech → e.silence+1 = 0 := by simp [silent]
  unfold lookahead at pause
  unfold hush
  dsimp only
  split
  · next ended =>
    have back := lookbackWithin (by omega) ended
    exact closeSound window low speaking (by omega) (by omega)
  · split
    · exact closeSound window low speaking (by omega) (Int.le_refl c)
    · next short =>
      split
      · next near =>
        unfold lookahead at near
        refine ⟨window,by dsimp only; omega,⟨by omega,by omega,by dsimp only [lookahead]; omega,by dsimp only; omega,
          fun fed => ?_⟩,noSpeech⟩
        obtain ⟨taken,ordered⟩ := speaking.ordered fed
        exact ⟨by dsimp only; omega,ordered⟩
      · next far =>
        unfold lookahead at far
        exact ⟨window,by dsimp only; omega,⟨begun,by omega,by dsimp only [lookahead]; omega,behind,speaking.ordered⟩,
          noSpeech⟩

theorem speakingWindow {start latest : Int} (window : WindowDetector) (speaking : Speaking starved e start latest c) :
    Speaking starved {e with window} start latest c :=
  ⟨speaking.begun,speaking.short,speaking.pause,speaking.behind,speaking.ordered⟩

theorem speakSound (window : Sliding e.window) (low : 0 ≤ e.taken) (high : e.taken ≤ c)
    (ordered : starved = false → InOrder e.closed e.taken) : Sound starved (speak starved e c) (c+1) := by
  have skipped := skipToWithin starved e.taken (max e.taken (c-latency))
  unfold speak
  unfold latency at skipped ⊢
  refine ⟨window,by dsimp only; omega,⟨by omega,by unfold maxFrames; omega,by dsimp only [lookahead]; omega,
    by dsimp only; omega,?_⟩,fun _ => rfl⟩
  rintro rfl
  exact ⟨by simp only [skipToFed]; omega,inOrderLater (ordered rfl) (by omega)⟩

theorem waitSound (window : Sliding e.window) (silent : e.window.preFrameState = .sil) (low : 0 ≤ e.taken)
    (room : e.taken+e.window.winSum ≤ c+1) (high : e.taken ≤ c) (ordered : starved = false → InOrder e.closed e.taken) :
    Sound starved (wait starved e c) (c+1) := by
  have skipped := skipToWithin starved e.taken (c-latency)
  have sum := slidingSum window
  have later : e.taken ≤ (wait starved e c).taken ∧ (wait starved e c).taken ≤ max e.taken (c-latency) := by
    unfold wait
    dsimp only
    split <;> omega
  unfold latency at later
  have same : (wait starved e c).window.winSum = e.window.winSum := rfl
  exact ⟨window,by omega,silent,by omega,fun fed => inOrderLater (ordered fed) later.1⟩

theorem stepSound (state : FrameState) (sound : Sound starved e c) :
    Sound starved (step starved threshold e state c) (c+1) := by
  obtain ⟨before,after⟩ := windowChange e.window state
  have seen := detectSliding sound.window state
  have sum := slideSum sound.window state
  rw [← detectSum] at sum
  obtain ⟨window,⟨low,high⟩,phase⟩ := sound
  unfold step act
  cases place : e.phase with
  | waiting =>
    simp only [place] at phase ⊢
    obtain ⟨silent,room,ordered⟩ := phase
    cases change : (e.window.detectOneFrame state).1 with
    | sil2Speech => exact speakSound seen low high ordered
    | sil2Sil => exact waitSound seen (by rw [after,change]; rfl) low (by dsimp only; omega) high ordered
    | speech2Sil => simp [before,change,changeFrom] at silent
    | speech2Speech => simp [before,change,changeFrom] at silent
  | speaking start latest =>
    simp only [place] at phase ⊢
    have speaking := speakingWindow (e.window.detectOneFrame state).2 phase.1
    rw [place] at speaking
    cases change : (e.window.detectOneFrame state).1 with
    | sil2Sil => exact hushSound seen (by rw [after,change]; rfl) low speaking
    | _ => exact hearSound seen low speaking

theorem runSound (states : List FrameState) (sound : Sound starved e c) :
    Sound starved (run starved threshold e c states) (c+states.length) := by
  induction states generalizing e c with
  | nil => simpa [run] using sound
  | cons state states ih =>
    have count : c+(state::states).length = c+1+states.length := by
      rw [List.length_cons]
      omega
    rw [count]
    exact ih (stepSound state sound)

theorem initialSound : Sound starved (initial {}) 0 := by
  have window : Sliding (initial {}).window := ⟨rfl,rfl,rfl,rfl,by decide,by decide,rfl⟩
  exact ⟨window,⟨Int.le_refl 0,Int.le_refl 0⟩,rfl,Int.le_refl 0,fun _ => ⟨by simp [initial],.nil⟩⟩

theorem closedInOrder (sound : Sound false e c) : InOrder e.closed c := by
  obtain ⟨_,⟨_,high⟩,phase⟩ := sound
  cases place : e.phase with
  | waiting =>
    simp only [place] at phase
    exact inOrderLater (phase.2.2 trivial) high
  | speaking start latest =>
    simp only [place] at phase
    have pause := phase.1.pause
    have begun := phase.1.begun
    exact inOrderLater (phase.1.ordered rfl).2 (by omega)

theorem speakingInOrder {start latest last : Int} (speaking : Speaking false e start latest c) (after : latest ≤ last)
    (high : last ≤ c) : InOrder (e.closed ++ [(start,last)]) (last+1) := by
  have begun := speaking.begun
  have short := speaking.short
  exact inOrderClose (speaking.ordered rfl).2 begun.1 (by omega) (by omega)

theorem lastInOrder (state : FrameState) (sound : Sound false e c) :
    InOrder (lastStep threshold e state c) (c+1) := by
  have closed := closedInOrder sound
  obtain ⟨_,⟨low,high⟩,phase⟩ := sound
  unfold lastStep
  cases place : e.phase with
  | waiting => exact inOrderLater closed (by omega)
  | speaking start latest =>
    simp only [place] at phase ⊢
    have pause := phase.1.pause
    have begun := phase.1.begun
    split
    · next ended =>
      have back := lookbackWithin (by omega) ended.2
      unfold lookahead at pause
      exact inOrderLater (speakingInOrder phase.1 (by omega : latest ≤ c-lookback threshold) (by omega)) (by omega)
    · exact speakingInOrder phase.1 (by omega) (Int.le_refl c)

theorem finishInOrder (sound : Sound false e c) : InOrder (finish e c) c := by
  have closed := closedInOrder sound
  obtain ⟨_,_,phase⟩ := sound
  unfold finish
  cases place : e.phase with
  | waiting => exact closed
  | speaking start latest =>
    simp only [place] at phase ⊢
    have pause := phase.1.pause
    exact inOrderLater (speakingInOrder phase.1 (by omega : latest ≤ c-1) (by omega)) (by omega)

theorem closeGrows (e : Detection) (start latest last : Int) : e.closed <+: (close e start latest last).closed :=
  List.prefix_append _ _

theorem hearGrows (e : Detection) (start latest c : Int) : e.closed <+: (hear e start latest c).closed := by
  unfold hear
  split
  · exact closeGrows e start latest c
  · exact List.prefix_refl _

theorem hushGrows (e : Detection) (start latest c : Int) : e.closed <+: (hush threshold e start latest c).closed := by
  unfold hush
  dsimp only
  split_ifs
  · exact closeGrows e start latest _
  · exact closeGrows e start latest c
  · exact List.prefix_refl _
  · exact List.prefix_refl _

theorem actGrows (e : Detection) (change : AudioChangeState) (c : Int) :
    e.closed <+: (act starved threshold e change c).closed := by
  unfold act
  split
  · cases change <;> exact List.prefix_refl _
  · next start latest _ => cases change with
    | sil2Sil => exact hushGrows e start latest c
    | _ => exact hearGrows e start latest c

theorem stepGrows (e : Detection) (state : FrameState) (c : Int) :
    e.closed <+: (step starved threshold e state c).closed :=
  actGrows {e with window := (e.window.detectOneFrame state).2} _ c

theorem runGrows (states : List FrameState) (e : Detection) (c : Int) :
    e.closed <+: (run starved threshold e c states).closed := by
  induction states generalizing e c with
  | nil => exact List.prefix_refl _
  | cons state states ih => exact (stepGrows e state c).trans (ih _ _)

theorem lastGrows (e : Detection) (state : FrameState) (c : Int) : e.closed <+: lastStep threshold e state c := by
  unfold lastStep
  split
  · exact List.prefix_refl _
  · split <;> exact List.prefix_append _ _

theorem lastRunGrows (states : List FrameState) (e : Detection) (c : Int) :
    e.closed <+: lastRun starved threshold e c states := by
  induction states generalizing e c with
  | nil => exact List.prefix_refl _
  | cons state states ih => cases states with
    | nil => exact lastGrows e state c
    | cons next rest => exact (stepGrows e state c).trans (ih _ _)

theorem lastRunInOrder {states : List FrameState} (some : states ≠ []) (sound : Sound false e c) :
    InOrder (lastRun false threshold e c states) (c+states.length) := by
  induction states generalizing e c with
  | nil => contradiction
  | cons state states ih => cases states with
    | nil => exact lastInOrder state sound
    | cons next rest =>
      have count : c+(state::next::rest).length = c+1+(next::rest).length := by
        rw [List.length_cons]
        omega
      rw [count]
      exact ih (by simp) (stepSound state sound)

theorem runAppend (first second : List FrameState) (e : Detection) (c : Int) :
    run starved threshold e c (first ++ second) =
      run starved threshold (run starved threshold e c first) (c+first.length) second := by
  induction first generalizing e c with
  | nil => simp [run]
  | cons state first ih =>
    have count : c+(state::first).length = c+1+first.length := by
      rw [List.length_cons]
      omega
    rw [count]
    exact ih _ _

theorem lastRunAppend (first : List FrameState) {second : List FrameState} (some : second ≠ []) (e : Detection) (c : Int) :
    lastRun starved threshold e c (first ++ second) =
      lastRun starved threshold (run starved threshold e c first) (c+first.length) second := by
  induction first generalizing e c with
  | nil => simp [run]
  | cons state first ih =>
    have count : c+(state::first).length = c+1+first.length := by
      rw [List.length_cons]
      omega
    obtain ⟨next,rest,more⟩ : ∃ next rest, first ++ second = next::rest := List.exists_cons_of_ne_nil (by simp [some])
    rw [count,List.cons_append,more,lastRun,← more]
    exact ih _ _

theorem resetFresh {w : WindowDetector} (sliding : Sliding w) : w.reset = (initial {}).window := by
  obtain ⟨size,loud,quiet,length,_,_,_⟩ := sliding
  unfold WindowDetector.reset
  rw [length]
  cases w
  simp only at size loud quiet
  subst size loud quiet
  rfl

theorem speechRun {start : Int} (n : Nat) (loud : Loud e.window) (quiet : e.silence = 0)
    (place : e.phase = .speaking start (c-1)) (short : c-start+n ≤ maxFrames) :
    ∃ window, Loud window ∧ run starved threshold e c (List.replicate n .speech) =
      {e with window, taken := e.taken+n, phase := .speaking start (c-1+n)} := by
  induction n generalizing e c with
  | zero => exact ⟨e.window,loud,by simp [run,← place]⟩
  | succ n ih =>
    obtain ⟨change,next⟩ := loudSpeech loud
    have within : ¬c-start+1 > maxFrames := by omega
    have stepped : step starved threshold e .speech c =
        {e with window := (e.window.detectOneFrame .speech).2, taken := e.taken+1, phase := .speaking start c} := by
      have count : c-(c-1) = 1 := by omega
      unfold step act hear
      simp only [place,change,if_neg within,count]
      rw [quiet]
    obtain ⟨window,last,rest⟩ := ih (c := c+1) (e := step starved threshold e .speech c) (by rw [stepped]; exact next)
      (by rw [stepped]; exact quiet) (by rw [stepped,Int.add_sub_cancel]) (by omega)
    have count : e.taken+1+(n:Int) = e.taken+((n:Int)+1) := by omega
    have reached : c+1-1+(n:Int) = c-1+((n:Int)+1) := by omega
    refine ⟨window,last,?_⟩
    rw [List.replicate_succ,run,rest,stepped]
    simp only [Int.natCast_succ,count,reached]

/-- Speech that does not pause is cut right after the longest segment there may be. -/
theorem speechCut {start : Int} (n : Nat) (loud : Loud e.window) (quiet : e.silence = 0)
    (place : e.phase = .speaking start (c-1)) (long : c-start+n = maxFrames) :
    run starved threshold e c (List.replicate (n+1) .speech) = {
      window := (initial {}).window
      silence := 0
      taken := e.taken+n+1
      phase := .waiting
      closed := e.closed ++ [(start,start+maxFrames)]} := by
  obtain ⟨window,last,spoken⟩ : ∃ window, Loud window ∧ run starved threshold e c (List.replicate n .speech) =
      {e with window, taken := e.taken+n, phase := .speaking start (c-1+n)} := speechRun n loud quiet place (by omega)
  obtain ⟨change,next⟩ := loudSpeech last
  have fresh := resetFresh next.toSliding
  have tooLong : c+(n:Int)-start+1 > maxFrames := by omega
  have end' : c+(n:Int) = start+maxFrames := by omega
  have count : e.taken+(n:Int)+(c+(n:Int)-(c-1+(n:Int))) = e.taken+n+1 := by omega
  rw [List.replicate_succ',runAppend,spoken,List.length_replicate,run,run]
  unfold step act hear close
  simp only [change,if_pos tooLong,fresh,count]
  rw [end']

def startedWindow : WindowDetector where
  winSizeFrame := 20
  winSum := 16
  winState := List.replicate 16 1 ++ List.replicate 4 0
  curWinPos := 16
  preFrameState := .speech
  silToSpeechFrmcntThres := 15
  speechToSilFrmcntThres := 15

theorem startedLoud : Loud startedWindow :=
  {size := rfl, loud := rfl, quiet := rfl, length := rfl, position := by decide, decisions := by decide
   sum := rfl, speech := rfl, full := by decide}

theorem startedCut {start taken : Int} {closed : List (Int × Int)} (n : Nat)
    (starts : run starved threshold e c (List.replicate 16 .speech) =
      ⟨startedWindow,0,taken,.speaking start (c+15),closed⟩) (long : c+16-start+n = maxFrames) :
    run starved threshold e c (List.replicate (16+(n+1)) .speech) =
      ⟨(initial {}).window,0,taken+n+1,.waiting,closed ++ [(start,start+maxFrames)]⟩ := by
  have place : Phase.speaking start (c+15) = .speaking start (c+(16 : Nat)-1) := by
    congr 1
    omega
  rw [← List.replicate_append_replicate,runAppend,starts,List.length_replicate]
  exact speechCut n startedLoud rfl place long

end Steps
end Qwen3Asr.Endpointer
