import Mathlib.Algebra.GroupWithZero.Nat
import Qwen3Asr.E2EVadChunks

/-! Whole runs of the detector: the segments it reports come in order and inside the audio, and
however the frames are cut into chunks they are those of one offline call. -/
namespace Qwen3Asr.VadSegments
open Library.Word
open E2EVad E2EVadModel VadWindow Endpointer E2EVadRefinement E2EVadChunks

structure Chunk where
  scores : List FrameState
  samples : Nat
  maxEndSilenceMs : Int
  deriving DecidableEq, Repr

/- A run ends with a chunk flagged final, or is finalized after its last chunk. -/
inductive Ending where
  | final (chunk : Chunk)
  | finalize (maxEndSilenceMs : Int)
  deriving DecidableEq, Repr

def Ending.chunks : Ending → List Chunk
  | .final chunk => [chunk]
  | .finalize _ => []

def detectChunks (m : E2EVadModel) : List Chunk → List (Nat × Nat) × E2EVadModel
  | [] => ([],m)
  | chunk::rest =>
    let (segments,m) := m.detectChunk chunk.scores chunk.samples false chunk.maxEndSilenceMs
    let (more,m) := detectChunks m rest
    (segments ++ more,m)

def detectEnding (m : E2EVadModel) : Ending → List (Nat × Nat)
  | .final chunk => (m.detectChunk chunk.scores chunk.samples true chunk.maxEndSilenceMs).1
  | .finalize maxEndSilenceMs => (m.finalizeStreaming maxEndSilenceMs).1

def detectRun (chunks : List Chunk) (ending : Ending) : List (Nat × Nat) :=
  let (segments,m) := detectChunks (new {}) chunks
  segments ++ detectEnding m ending

def frameCount (chunks : List Chunk) : Nat := (chunks.map fun chunk => chunk.scores.length).sum

def sampleCount (chunks : List Chunk) : Nat := (chunks.map Chunk.samples).sum

structure WellFormed (segments : List (Nat × Nat)) (frames : Nat) : Prop where
  within : ∀ segment ∈ segments, segment.1 < segment.2 ∧ segment.2 ≤ frames*10 ∧ segment.2-segment.1 ≤ 60000+10
  ordered : segments.Pairwise fun a b => a.2 ≤ b.1

section Runs
variable {m : E2EVadModel} {e : Detection} {c : Int} {samples : Nat}

/- The endpointer over the chunks, each with its own silence limit. -/
def heard : Detection → Int → List Chunk → Detection
  | e, _, [] => e
  | e, c, chunk::rest =>
    heard (run false (chunk.maxEndSilenceMs-150) e c chunk.scores) (c+chunk.scores.length) rest

def ended (e : Detection) (c : Int) : Ending → List (Int × Int)
  | .final chunk => lastRun false (chunk.maxEndSilenceMs-150) e c chunk.scores
  | .finalize _ => finish e c

theorem heardGrows (chunks : List Chunk) (e : Detection) (c : Int) : e.closed <+: (heard e c chunks).closed := by
  induction chunks generalizing e c with
  | nil => exact List.prefix_refl _
  | cons chunk chunks ih => exact (runGrows chunk.scores e c).trans (ih _ _)

theorem finishGrows (e : Detection) (c : Int) : e.closed <+: finish e c := by
  unfold finish
  split
  · exact List.prefix_refl _
  · exact List.prefix_append _ _

theorem endedGrows (ending : Ending) (e : Detection) (c : Int) : e.closed <+: ended e c ending := by
  cases ending with
  | final chunk => exact lastRunGrows chunk.scores e c
  | finalize => exact finishGrows e c

theorem reportedOnward {α β : Type} (f : α → β) {first second third : List α} (grown : first <+: second)
    (further : second <+: third) :
    (second.drop first.length).map f ++ (third.drop second.length).map f = (third.drop first.length).map f := by
  obtain ⟨middle,rfl⟩ := grown
  obtain ⟨last,rfl⟩ := further
  rw [List.append_assoc,List.drop_left,List.drop_left,← List.append_assoc,List.drop_left,List.map_append]

theorem countFrames (chunk : Chunk) (chunks : List Chunk) (c : Int) :
    c+chunk.scores.length+frameCount chunks = c+frameCount (chunk::chunks) := by
  simp only [frameCount,List.map_cons,List.sum_cons,Int.natCast_add]
  omega

theorem countSamples (chunk : Chunk) (chunks : List Chunk) (samples : Nat) :
    samples+chunk.samples+sampleCount chunks = samples+sampleCount (chunk::chunks) := by
  simp only [sampleCount,List.map_cons,List.sum_cons]
  omega

theorem chunksCall (chunks : List Chunk) (between : Between m e c samples)
    (framed : ∀ chunk ∈ chunks, Framed chunk.scores chunk.samples) (fits : samples+sampleCount chunks < 2^31) :
    (detectChunks m chunks).1 = ((heard e c chunks).closed.drop e.closed.length).map spanMs ∧
    Between (detectChunks m chunks).2 (heard e c chunks) (c+frameCount chunks) (samples+sampleCount chunks) := by
  induction chunks generalizing m e c samples with
  | nil => exact ⟨by simp [detectChunks,heard],by simpa [detectChunks,heard,frameCount,sampleCount] using between⟩
  | cons chunk chunks ih =>
    have head := framed chunk List.mem_cons_self
    have total := countSamples chunk chunks samples
    obtain ⟨reported,next⟩ := commonCall between head (by omega) chunk.maxEndSilenceMs
    obtain ⟨rest,last⟩ := ih next (fun other inside => framed other (List.mem_cons_of_mem chunk inside)) (by omega)
    rw [countFrames,total] at last
    refine ⟨?_,last⟩
    have joined := reportedOnward spanMs (runGrows chunk.scores e c)
      (heardGrows chunks (run false (chunk.maxEndSilenceMs-150) e c chunk.scores) (c+chunk.scores.length))
    simp only [detectChunks,reported,rest]
    exact joined

theorem endingCall (between : Between m e c samples) (ending : Ending)
    (framed : ∀ chunk ∈ ending.chunks, Framed chunk.scores chunk.samples)
    (fits : samples+sampleCount ending.chunks < 2^31) :
    detectEnding m ending = ((ended e c ending).drop e.closed.length).map spanMs := by
  cases ending with
  | final chunk =>
    exact finalCall between (framed chunk List.mem_cons_self) (by simpa [Ending.chunks,sampleCount] using fits) _
  | finalize maxEndSilenceMs => exact finalizeCall between maxEndSilenceMs

theorem countAppend (first second : List Chunk) : frameCount (first ++ second) = frameCount first+frameCount second ∧
    sampleCount (first ++ second) = sampleCount first+sampleCount second := by
  simp [frameCount,sampleCount]

theorem runCall (chunks : List Chunk) (ending : Ending)
    (framed : ∀ chunk ∈ chunks ++ ending.chunks, Framed chunk.scores chunk.samples)
    (fits : sampleCount (chunks ++ ending.chunks) < 2^31) :
    detectRun chunks ending = (ended (heard (initial {}) 0 chunks) (0+frameCount chunks) ending).map spanMs := by
  have total := (countAppend chunks ending.chunks).2
  obtain ⟨reported,between⟩ := chunksCall chunks newBetween
    (fun chunk inside => framed chunk (List.mem_append_left _ inside)) (by omega)
  have last := endingCall between ending (fun chunk inside => framed chunk (List.mem_append_right _ inside)) (by omega)
  have joined := reportedOnward spanMs (heardGrows chunks (initial {}) 0)
    (endedGrows ending (heard (initial {}) 0 chunks) (0+frameCount chunks))
  have calls : detectRun chunks ending =
      (detectChunks (new {}) chunks).1 ++ detectEnding (detectChunks (new {}) chunks).2 ending := rfl
  rw [calls,reported,last]
  exact joined

theorem heardSound (chunks : List Chunk) (sound : Sound false e c) :
    Sound false (heard e c chunks) (c+frameCount chunks) := by
  induction chunks generalizing e c with
  | nil => simpa [heard,frameCount] using sound
  | cons chunk chunks ih =>
    rw [← countFrames]
    exact ih (runSound chunk.scores sound)

theorem endedInOrder (sound : Sound false e c) (ending : Ending) (some : ∀ chunk ∈ ending.chunks, chunk.scores ≠ []) :
    InOrder (ended e c ending) (c+frameCount ending.chunks) := by
  cases ending with
  | final chunk =>
    have ordered : InOrder (lastRun false (chunk.maxEndSilenceMs-150) e c chunk.scores) (c+chunk.scores.length) :=
      lastRunInOrder (some chunk List.mem_cons_self) sound
    simpa [Ending.chunks,frameCount,ended] using ordered
  | finalize => simpa [Ending.chunks,frameCount,ended] using finishInOrder sound

theorem spansWellFormed {closed : List (Int × Int)} {frames : Nat} (ordered : InOrder closed frames) :
    WellFormed (closed.map spanMs) frames where
  within span inside := by
    obtain ⟨segment,member,rfl⟩ := List.mem_map.mp inside
    have bounds := ordered.within segment member
    unfold maxFrames at bounds
    dsimp only [spanMs]
    omega
  ordered := by
    refine List.pairwise_map.mpr (ordered.apart.imp_of_mem fun first _ before => ?_)
    have low := (ordered.within _ first).1
    dsimp only [spanMs]
    omega

/- A sample counter that has left its range drops no silence any more. -/
theorem starvedCall {scores : List FrameState} (some : scores ≠ []) (short : asI32 samples < 160)
    (maxEndSilenceMs : Int) : ((new {}).detectOffline scores samples maxEndSilenceMs).1 =
      (lastRun true (maxEndSilenceMs-150) (initial {}) 0 scores).map spanMs := by
  obtain ⟨count,before,emitted,_,follows⟩ := enteredCount (new {}) scores samples maxEndSilenceMs
  have size : (entered (new {}) scores samples maxEndSilenceMs).dataBufSize = asI32 samples := by
    have first : ((new {}).setEndSilence maxEndSilenceMs).computeDecibel samples = _ := if_pos rfl
    simp only [entered,first,computeScores]
  have starved : Buffers true (entered (new {}) scores samples maxEndSilenceMs) := by
    change (entered (new {}) scores samples maxEndSilenceMs).dataBufSize < 160
    rwa [size]
  have tracks : Tracks true (maxEndSilenceMs-150) (entered (new {}) scores samples maxEndSilenceMs) (initial {}) :=
    {follows _ _ newBetween.follows with buffers := starved}
  have here : At (entered (new {}) scores samples maxEndSilenceMs) scores 0 scores.length :=
    ⟨Nat.le_refl _,count,by rw [before]; change 0 = _; omega⟩
  exact lastCall some here tracks initialSound emitted

/-- In every run of the default detector whose samples number below `2^31`, the segments reported
are non-empty, in order, inside the audio and at most one frame over the maximum. -/
theorem segmentsWellFormed (chunks : List Chunk) (ending : Ending)
    (framed : ∀ chunk ∈ chunks ++ ending.chunks, Framed chunk.scores chunk.samples)
    (fits : sampleCount (chunks ++ ending.chunks) < 2^31) :
    WellFormed (detectRun chunks ending) (frameCount (chunks ++ ending.chunks)) := by
  have sound : Sound false (heard (initial {}) 0 chunks) (0+frameCount chunks) := heardSound chunks initialSound
  have ordered := endedInOrder sound ending
    (fun chunk inside => (framed chunk (List.mem_append_right _ inside)).1)
  have frames : 0+(frameCount chunks : Int)+frameCount ending.chunks = frameCount (chunks ++ ending.chunks) := by
    rw [(countAppend chunks ending.chunks).1]
    omega
  rw [frames] at ordered
  rw [runCall chunks ending framed fits]
  exact spansWellFormed ordered

def pausedChunks : List Chunk :=
  [⟨List.replicate 40 .speech,6640,800⟩,⟨List.replicate 90 .sil ++ List.replicate 30 .speech,19440,800⟩,
    ⟨List.replicate 20 .speech,3440,800⟩]

def pausedEnding : Ending :=
  .final ⟨List.replicate 20 .speech ++ List.replicate 90 .sil ++ List.replicate 40 .speech,24240,800⟩

theorem speechWellFormed : detectRun pausedChunks pausedEnding = [(0,560),(1040,2160),(2640,3300)] ∧
    WellFormed (detectRun pausedChunks pausedEnding) 330 :=
  ⟨by decide +kernel,segmentsWellFormed pausedChunks pausedEnding (by unfold Framed; decide) (by decide)⟩

/- Speech that starts after a pause, of `2^31+112` samples in all. -/
def overflowScores : List FrameState := List.replicate 40 .sil ++ List.replicate 13421732 .speech

def overflowSamples : Nat := 2147483760

theorem overflowLength : overflowScores.length = 13421772 := by
  rw [overflowScores,List.length_append,List.length_replicate,List.length_replicate]

theorem overflowFramed : Framed overflowScores overflowSamples := by
  have some : overflowScores ≠ [] := List.ne_nil_of_length_pos (by rw [overflowLength]; decide)
  exact ⟨some,by rw [overflowLength]; decide⟩

theorem overflowFirst (starved : Bool) : run starved 650 (initial {}) 0
    (List.replicate 40 .sil ++ List.replicate (16+(5958+1)) .speech) =
      ⟨(initial {}).window,0,if starved then 6001 else 6015,.waiting,[(14,6014)]⟩ := by
  have silent : run starved 650 (initial {}) 0 (List.replicate 40 .sil) = {initial {} with silence := 40} := by
    cases starved <;> decide +kernel
  have starts : run starved 650 {initial {} with silence := 40} 40 (List.replicate 16 .speech) =
      ⟨startedWindow,0,if starved then 42 else 56,.speaking 14 (40+15),[]⟩ := by
    cases starved <;> decide +kernel
  rw [runAppend,silent,List.length_replicate]
  cases starved <;> exact startedCut 5958 starts rfl

theorem overflowSecond : run true 650 (initial {}) 0
    (List.replicate 40 .sil ++ List.replicate (16+(5958+1)) .speech ++ List.replicate (16+(5970+1)) .speech) =
      ⟨(initial {}).window,0,12002,.waiting,[(14,6014),(6001,12001)]⟩ := by
  have starts : run true 650 ⟨(initial {}).window,0,6001,.waiting,[(14,6014)]⟩ 6015 (List.replicate 16 .speech) =
      ⟨startedWindow,0,6031,.speaking 6001 (6015+15),[(14,6014)]⟩ := by decide +kernel
  rw [runAppend,overflowFirst,List.length_append,List.length_replicate,List.length_replicate]
  exact startedCut 5970 starts rfl

theorem overflowOffline : [(140,60150),(60010,120020)] <+: ((new {}).detectOffline overflowScores overflowSamples 800).1 := by
  have split : overflowScores = List.replicate 40 .sil ++ List.replicate (16+(5958+1)) .speech ++
      List.replicate (16+(5970+1)) .speech ++ List.replicate 13409770 .speech := by
    rw [overflowScores,List.append_assoc,List.append_assoc,List.replicate_append_replicate,List.replicate_append_replicate]
  have short : asI32 overflowSamples < 160 := by decide
  have grown : [(14,6014),(6001,12001)] <+: lastRun true 650
      ⟨(initial {}).window,0,12002,.waiting,[(14,6014),(6001,12001)]⟩ 12002 (List.replicate 13409770 .speech) :=
    lastRunGrows _ ⟨(initial {}).window,0,12002,.waiting,[(14,6014),(6001,12001)]⟩ 12002
  have some : List.replicate 13409770 FrameState.speech ≠ [] := List.cons_ne_nil _ _
  have output := starvedCall overflowFramed.1 short 800
  rw [split,lastRunAppend _ some,show (800-150 : Int) = 650 from rfl,overflowSecond,List.length_append,
    List.length_append,List.length_replicate,List.length_replicate,List.length_replicate,← split] at output
  rw [output]
  exact grown.map spanMs

theorem singleOffline (chunk : Chunk) : detectRun [] (.final chunk) =
    ((new {}).detectOffline chunk.scores chunk.samples chunk.maxEndSilenceMs).1 := rfl

/- With more samples than the counter holds, the second segment starts before the first has ended. -/
theorem overflowOverlaps : Framed overflowScores overflowSamples ∧
    ¬WellFormed (detectRun [] (.final ⟨overflowScores,overflowSamples,800⟩)) overflowScores.length := by
  refine ⟨overflowFramed,fun wellFormed => ?_⟩
  rw [singleOffline] at wellFormed
  have ordered : List.Pairwise _ [(140,60150),(60010,120020)] := wellFormed.ordered.sublist overflowOffline.sublist
  simp at ordered

theorem heardWhole (chunks : List Chunk) (e : Detection) (c maxEndSilenceMs : Int)
    (same : ∀ chunk ∈ chunks, chunk.maxEndSilenceMs = maxEndSilenceMs) :
    heard e c chunks = run false (maxEndSilenceMs-150) e c (chunks.flatMap Chunk.scores) := by
  induction chunks generalizing e c with
  | nil => rfl
  | cons chunk chunks ih =>
    have limit := same chunk List.mem_cons_self
    have rest := ih (run false (maxEndSilenceMs-150) e c chunk.scores) (c+chunk.scores.length)
      fun other inside => same other (List.mem_cons_of_mem chunk inside)
    rw [List.flatMap_cons,runAppend,← rest,← limit]
    rfl

theorem resetBetween : Between (new {}).allResetDetection (initial {}) 0 0 := newBetween

theorem offlineCall {scores : List FrameState} (framed : Framed scores samples) (fits : samples < 2^31)
    (maxEndSilenceMs : Int) : ((new {}).detectOffline scores samples maxEndSilenceMs).1 =
      (lastRun false (maxEndSilenceMs-150) (initial {}) 0 scores).map spanMs := by
  obtain ⟨tracks,here,emitted,_⟩ := enterCall resetBetween framed (by omega) maxEndSilenceMs
  exact lastCall framed.1 here tracks initialSound emitted

/-- Below `2^31` samples, cutting the frames into chunks of which the last is final reports the
segments of one offline call over all of them. -/
theorem chunksMatchOffline (chunks : List Chunk) (last : Chunk) (samples : Nat) (maxEndSilenceMs : Int)
    (same : ∀ chunk ∈ chunks ++ [last], chunk.maxEndSilenceMs = maxEndSilenceMs)
    (framed : ∀ chunk ∈ chunks ++ [last], Framed chunk.scores chunk.samples)
    (whole : Framed ((chunks ++ [last]).flatMap Chunk.scores) samples)
    (fits : sampleCount (chunks ++ [last]) < 2^31 ∧ samples < 2^31) :
    detectRun chunks (.final last) =
      ((new {}).detectOffline ((chunks ++ [last]).flatMap Chunk.scores) samples maxEndSilenceMs).1 := by
  have inside : last ∈ chunks ++ [last] := List.mem_append_right chunks List.mem_cons_self
  have frames : (frameCount chunks : Int) = (chunks.flatMap Chunk.scores).length := by
    rw [List.length_flatMap]
    rfl
  have joined : lastRun false (maxEndSilenceMs-150) (initial {}) 0 (chunks.flatMap Chunk.scores ++ last.scores) = _ :=
    lastRunAppend (chunks.flatMap Chunk.scores) (framed last inside).1 (initial {}) 0
  rw [offlineCall whole fits.2,runCall chunks (.final last) framed fits.1,List.flatMap_append,List.flatMap_singleton,
    joined,← frames,← heardWhole chunks _ _ maxEndSilenceMs fun chunk member => same chunk (List.mem_append_left _ member),
    ← same last inside]
  rfl

theorem speechMatchesOffline :
    detectRun [⟨List.replicate 20 .speech,3440,800⟩] (.final ⟨List.replicate 20 .speech,3440,800⟩) = [(0,400)] ∧
    detectRun [⟨List.replicate 20 .speech,3440,800⟩] (.final ⟨List.replicate 20 .speech,3440,800⟩) =
      ((new {}).detectOffline (List.replicate 40 .speech) 6640 800).1 :=
  ⟨by decide +kernel,chunksMatchOffline [⟨List.replicate 20 .speech,3440,800⟩] ⟨List.replicate 20 .speech,3440,800⟩
    6640 800 (by simp) (by simp [Framed]) (by simp [Framed]) (by decide)⟩

def overflowStart : Chunk where
  scores := List.replicate 40 .sil ++ List.replicate (16+(5958+1)) .speech ++ List.replicate (16+(5984+1)) .speech
  samples := 1922800
  maxEndSilenceMs := 800

def overflowRest : Chunk where
  scores := List.replicate 13409756 .speech
  samples := 2145561200
  maxEndSilenceMs := 800

theorem overflowCut : overflowStart.scores ++ overflowRest.scores = overflowScores := by
  simp only [overflowStart,overflowRest,overflowScores,List.append_assoc,List.replicate_append_replicate]

theorem overflowPartsFramed : Framed overflowStart.scores overflowStart.samples ∧
    Framed overflowRest.scores overflowRest.samples := by
  have first : overflowStart.scores.length = 12016 := by
    simp only [overflowStart,List.length_append,List.length_replicate]
  have second : overflowRest.scores.length = 13409756 := List.length_replicate
  exact ⟨⟨List.ne_nil_of_length_pos (by rw [first]; decide),by rw [first]; decide⟩,
    ⟨List.ne_nil_of_length_pos (by rw [second]; decide),by rw [second]; decide⟩⟩

theorem overflowChunked : [(140,60150),(60150,120160)] <+: detectRun [overflowStart] (.final overflowRest) := by
  have starts : run false 650 ⟨(initial {}).window,0,6015,.waiting,[(14,6014)]⟩ 6015 (List.replicate 16 .speech) =
      ⟨startedWindow,0,6031,.speaking 6015 (6015+15),[(14,6014)]⟩ := by decide +kernel
  have cut : run false 650 (initial {}) 0 overflowStart.scores =
      ⟨(initial {}).window,0,12016,.waiting,[(14,6014),(6015,12015)]⟩ := by
    unfold overflowStart
    rw [runAppend,overflowFirst,List.length_append,List.length_replicate,List.length_replicate]
    exact startedCut 5984 starts rfl
  obtain ⟨reported,_⟩ := chunksCall [overflowStart] newBetween (by simpa using overflowPartsFramed.1) (by decide)
  have ended : (detectChunks (new {}) [overflowStart]).1 = [(140,60150),(60150,120160)] := by
    rw [reported]
    unfold heard
    rw [show overflowStart.maxEndSilenceMs-150 = 650 from rfl,cut]
    rfl
  rw [← ended]
  exact List.prefix_append _ _

/- Offline, the sample counter of the same speech is out of its range from the first frame on. -/
theorem overflowDiffers :
    (∀ chunk ∈ [overflowStart] ++ [overflowRest], chunk.maxEndSilenceMs = 800 ∧ Framed chunk.scores chunk.samples) ∧
    Framed (([overflowStart] ++ [overflowRest]).flatMap Chunk.scores) overflowSamples ∧
    detectRun [overflowStart] (.final overflowRest) ≠
      ((new {}).detectOffline (([overflowStart] ++ [overflowRest]).flatMap Chunk.scores) overflowSamples 800).1 := by
  have whole : ([overflowStart] ++ [overflowRest]).flatMap Chunk.scores = overflowScores := by
    rw [← overflowCut]
    exact congrArg (overflowStart.scores ++ ·) (List.append_nil _)
  rw [whole]
  refine ⟨?_,overflowFramed,fun same => ?_⟩
  · rintro chunk inside
    rcases List.mem_pair.mp inside with rfl | rfl
    · exact ⟨rfl,overflowPartsFramed.1⟩
    · exact ⟨rfl,overflowPartsFramed.2⟩
  · obtain ⟨_,chunked⟩ := overflowChunked
    obtain ⟨_,offline⟩ := overflowOffline
    rw [← chunked,← offline] at same
    simp at same

end Runs

end Qwen3Asr.VadSegments
