import Mathlib.Data.Rat.Floor
import Qwen3Asr.Library.FirstLeast

/-! Long audio is cut near every full chunk where it is quiet: at the least sample of the quietest
window around the nominal cut. Samples are of any type with the operations of the search, seconds are exact. -/
namespace Qwen3Asr.AudioChunking
open Library.FirstLeast

structure AudioChunk (K : Type) where
  wav : List K
  offsetSec : ℚ
  deriving DecidableEq, Repr

def minAsrInputSeconds : ℚ := 1/2

def defaultSearchExpandSec : ℚ := 5

def defaultMinWindowMs : ℚ := 100

section Search
variable {K : Type} [Zero K] [Add K] [Sub K] [Neg K] [LT K] [DecidableLT K]

def abs (x : K) : K := if x < 0 then -x else x

structure WindowSearch (K : Type) where
  windowSum : K
  minSum : K
  minPos : Nat

def slideWindow (segAbs : List K) (win : Nat) (s : WindowSearch K) (pos : Nat) : WindowSearch K :=
  let windowSum := s.windowSum+segAbs.getD (pos+win-1) 0-segAbs.getD (pos-1) 0
  if windowSum < s.minSum then ⟨windowSum,windowSum,pos⟩ else ⟨windowSum,s.minSum,s.minPos⟩

def minPos (segAbs : List K) (win : Nat) : Nat :=
  let windowSum := (segAbs.take win).foldl (· + ·) 0
  ((List.range' 1 (segAbs.length-win)).foldl (slideWindow segAbs win) ⟨windowSum,windowSum,0⟩).minPos

/- The least sample of a window, the first of equal ones. -/
def innerPos (window : List K) : Nat :=
  ((List.range' 1 (window.length-1)).foldl (fun (inner : Nat × K) idx =>
    if window.getD idx 0 < inner.2 then (idx,window.getD idx 0) else inner) (0,window.getD 0 0)).1

/- What the cuts go by, in samples: the longest chunk, how far around it is searched and the window of the search. -/
structure CutPlan where
  maxLen : Nat
  expand : Nat
  win : Nat
  long : 0 < maxLen
  half : expand ≤ maxLen/2
  wide : 0 < win

def cutPlan (sr : Nat) (maxChunkSec : ℚ) : CutPlan :=
  let maxLen := max ⌊maxChunkSec*sr⌋₊ 1
  let expand := min ⌊defaultSearchExpandSec*sr⌋₊ (maxLen/2)
  let win := max ⌊defaultMinWindowMs/1000*sr⌋₊ 4
  ⟨maxLen,expand,win,by omega,by omega,by omega⟩

section Loop
variable (plan : CutPlan) (wav : List K) (start : Nat)

def left : Nat := max (start+plan.maxLen-plan.expand) start

def right : Nat := min (start+plan.maxLen+plan.expand) wav.length

def segAbs : List K := ((wav.drop (left plan start)).take (right plan wav start-left plan start)).map abs

def searchedBoundary : Nat :=
  if right plan wav start-left plan start ≤ plan.win then start+plan.maxLen else
  let seg := segAbs plan wav start
  if seg.length ≤ plan.win then start+plan.maxLen else
  let pos := minPos seg plan.win
  left plan start+pos+innerPos ((seg.drop pos).take plan.win)

def boundary : Nat := min (max (searchedBoundary plan wav start) (start+1)) wav.length

theorem startLtBoundary (inside : start < wav.length) : start < boundary plan wav start := by
  unfold boundary
  omega

def cutChunks (sr start : Nat) (offsetSec : ℚ) : List (AudioChunk K) :=
  if plan.maxLen < wav.length-start then
    let next := boundary plan wav start
    ⟨(wav.drop start).take (next-start),offsetSec⟩::cutChunks sr next (offsetSec+(next-start : Nat)/sr)
  else [⟨wav.drop start,offsetSec⟩]
  termination_by wav.length-start
  decreasing_by
    have := startLtBoundary plan wav start (by omega)
    omega

end Loop

def padChunk (minLen : Nat) (chunk : AudioChunk K) : AudioChunk K :=
  if chunk.wav.length < minLen then
    {chunk with wav := chunk.wav ++ List.replicate (minLen-chunk.wav.length) 0}
  else chunk

/- Whether a waveform stays whole, how it is cut and how long a chunk has to be are read off seconds in f32. -/
def chunksOf (whole : Bool) (plan : CutPlan) (minLen : Nat) (wav : List K) (sr : Nat) : List (AudioChunk K) :=
  if whole then [⟨wav,0⟩] else
  let chunks := cutChunks plan wav sr 0 0
  if 0 < minLen then chunks.map (padChunk minLen) else chunks

/- `none` is a length that is not a finite number. -/
def splitAudioIntoChunks (wav : List K) (sr : Nat) (maxChunkSec : Option ℚ) : Except String (List (AudioChunk K)) :=
  if sr = 0 then .error "invalid sample_rate=0" else
  match maxChunkSec with
  | none => .error "max_chunk_sec must be finite and > 0"
  | some maxChunkSec =>
    if maxChunkSec ≤ 0 then .error "max_chunk_sec must be finite and > 0" else
    let totalSec : ℚ := wav.length/sr
    .ok (chunksOf (totalSec ≤ maxChunkSec) (cutPlan sr maxChunkSec) ⌊minAsrInputSeconds*sr⌋₊ wav sr)

section Bounds
variable (seg : List K) (win : Nat)

def runningSum : Nat → K
  | 0 => (seg.take win).foldl (· + ·) 0
  | pos+1 => runningSum pos+seg.getD (pos+win) 0-seg.getD pos 0

omit [Neg K] in
theorem minPosScan : minPos seg win = scan (runningSum seg win) (seg.length-win) := by
  let f := runningSum seg win
  let state (k : Nat) : WindowSearch K := ⟨f k,f (scan f k),scan f k⟩
  have turn (k : Nat) : slideWindow seg win (state k) (k+1) = state (k+1) := by
    have moved : f k+seg.getD (k+1+win-1) 0-seg.getD (k+1-1) 0 = f (k+1) := by
      rw [show k+1+win-1 = k+win by omega]
      rfl
    simp only [slideWindow,state,moved]
    split
    · next less => rw [scanLess less]
    · next more => rw [scanKept more]
  exact congrArg WindowSearch.minPos (foldTurns turn (seg.length-win))

omit [Add K] [Sub K] [Neg K] in
theorem innerPosScan (window : List K) : innerPos window = scan (window.getD · 0) (window.length-1) := by
  let f := (window.getD · 0)
  let state (k : Nat) : Nat × K := (scan f k,f (scan f k))
  have turn (k : Nat) : (if f (k+1) < (state k).2 then (k+1,f (k+1)) else state k) = state (k+1) := by
    simp only [state]
    split
    · next less => rw [scanLess less]
    · next more => rw [scanKept more]
  exact congrArg Prod.fst (@foldTurns _ (fun inner idx => if f idx < inner.2 then (idx,f idx) else inner) state turn (window.length-1))

end Bounds

section Cut
variable {plan : CutPlan} {wav : List K} {start sr : Nat} {offsetSec : ℚ}

omit [Add K] [Sub K] in
theorem segLength : (segAbs plan wav start).length = right plan wav start-left plan start := by
  have within : right plan wav start ≤ wav.length := Nat.min_le_right _ _
  rw [segAbs,List.length_map,List.length_take,List.length_drop]
  omega

theorem searchedInside (long : plan.win < right plan wav start-left plan start) :
    minPos (segAbs plan wav start) plan.win+
      innerPos (((segAbs plan wav start).drop (minPos (segAbs plan wav start) plan.win)).take plan.win) <
        right plan wav start-left plan start := by
  have outer := scanLe (runningSum (segAbs plan wav start) plan.win) ((segAbs plan wav start).length-plan.win)
  rw [← minPosScan,segLength] at outer
  have inner := scanLe
    ((((segAbs plan wav start).drop (minPos (segAbs plan wav start) plan.win)).take plan.win).getD · 0)
    ((((segAbs plan wav start).drop (minPos (segAbs plan wav start) plan.win)).take plan.win).length-1)
  rw [← innerPosScan,List.length_take,List.length_drop,segLength] at inner
  have wide := plan.wide
  omega

/- Every cut takes a sample at least and leaves one at least. -/
theorem boundaryInside (more : plan.maxLen < wav.length-start) :
    start < boundary plan wav start ∧ boundary plan wav start < wav.length := by
  have searched : searchedBoundary plan wav start < wav.length := by
    unfold searchedBoundary
    split
    · omega
    · next wide =>
      dsimp only
      rw [segLength,if_neg wide]
      have inside := searchedInside (Nat.not_le.mp wide)
      have within : right plan wav start ≤ wav.length := Nat.min_le_right _ _
      omega
  have long := plan.long
  unfold boundary
  omega

structure CutFrom (wav : List K) (sr start : Nat) (offsetSec : ℚ) (chunks : List (AudioChunk K)) : Prop where
  joined : (chunks.map AudioChunk.wav).flatten = wav.drop start
  filled : start < wav.length → ∀ chunk ∈ chunks, chunk.wav ≠ []
  offsets : ∀ (k : Nat) chunk, chunks[k]? = some chunk →
    chunk.offsetSec = offsetSec+(((chunks.take k).map AudioChunk.wav).flatten.length : ℚ)/sr

theorem cutsFrom : CutFrom wav sr start offsetSec (cutChunks plan wav sr start offsetSec) := by
  fun_induction cutChunks plan wav sr start offsetSec with
  | case1 start offsetSec more next ih =>
    obtain ⟨later,before⟩ := boundaryInside more
    have piece : ((wav.drop start).take (next-start)).length = next-start := by
      rw [List.length_take,List.length_drop]
      omega
    have rest : start+(next-start) = next := by omega
    constructor
    · rw [List.map_cons,List.flatten_cons,ih.joined]
      calc (wav.drop start).take (next-start) ++ wav.drop next
          = (wav.drop start).take (next-start) ++ (wav.drop start).drop (next-start) := by rw [List.drop_drop,rest]
        _ = wav.drop start := List.take_append_drop _ _
    · intro _
      have some_ : 0 < ((wav.drop start).take (next-start)).length := by omega
      exact List.forall_mem_cons.mpr ⟨List.ne_nil_of_length_pos some_,ih.filled before⟩
    · intro k chunk found
      cases k with
      | zero => cases found; simp
      | succ k =>
        rw [ih.offsets k chunk found,List.take_succ_cons,List.map_cons,List.flatten_cons,List.length_append,piece]
        push_cast
        ring
  | case2 start offsetSec done =>
    refine ⟨by simp,?_,?_⟩
    · intro inside chunk found
      rw [List.mem_singleton.mp found]
      exact List.ne_nil_of_length_pos (by rw [List.length_drop]; omega)
    · intro k chunk found
      cases k with
      | zero => cases found; simp
      | succ k => cases found

end Cut

section Split
variable {plan : CutPlan} {wav : List K} {sr : Nat} {maxChunkSec : Option ℚ}

def Refused (sr : Nat) (maxChunkSec : Option ℚ) : Prop := sr = 0 ∨ ∀ sec, maxChunkSec = some sec → sec ≤ 0

structure CutInto (wav : List K) (sr : Nat) (pieces : List (List K)) (chunks : List (AudioChunk K)) : Prop where
  joined : pieces.flatten = wav
  padded : List.Forall₂ (fun piece chunk => ∃ n, chunk.wav = piece ++ List.replicate n 0) pieces chunks
  offsets : ∀ (k : Nat) chunk, chunks[k]? = some chunk → chunk.offsetSec = ((pieces.take k).flatten.length : ℚ)/sr

def cutPieces (whole : Bool) (plan : CutPlan) (wav : List K) (sr : Nat) : List (List K) :=
  if whole then [wav] else (cutChunks plan wav sr 0 0).map AudioChunk.wav

def piecesOf (wav : List K) (sr : Nat) (maxChunkSec : ℚ) : List (List K) :=
  cutPieces ((wav.length : ℚ)/sr ≤ maxChunkSec) (cutPlan sr maxChunkSec) wav sr

omit [Add K] [Sub K] [Neg K] [LT K] [DecidableLT K] in
theorem padChunkParts (minLen : Nat) (chunk : AudioChunk K) :
    (∃ n, (padChunk minLen chunk).wav = chunk.wav ++ List.replicate n 0) ∧
      (padChunk minLen chunk).offsetSec = chunk.offsetSec := by
  unfold padChunk
  split
  · exact ⟨⟨_,rfl⟩,rfl⟩
  · exact ⟨⟨0,by simp⟩,rfl⟩

omit [Add K] [Sub K] [Neg K] [LT K] [DecidableLT K] in
theorem padNothing {minLen : Nat} (none_ : ¬0 < minLen) (chunks : List (AudioChunk K)) :
    chunks.map (padChunk minLen) = chunks := by
  have kept (chunk : AudioChunk K) : padChunk minLen chunk = chunk := if_neg (by omega)
  exact (List.map_congr_left fun chunk _ => kept chunk).trans (List.map_id _)

omit [Add K] [Sub K] [Neg K] [LT K] [DecidableLT K] in
theorem cutInto {chunks : List (AudioChunk K)} (cuts : CutFrom wav sr 0 0 chunks) (minLen : Nat) :
    CutInto wav sr (chunks.map AudioChunk.wav) (chunks.map (padChunk minLen)) where
  joined := cuts.joined
  padded := by
    rw [List.forall₂_map_left_iff,List.forall₂_map_right_iff,List.forall₂_same]
    exact fun chunk _ => (padChunkParts minLen chunk).1
  offsets k chunk found := by
    rw [List.getElem?_map] at found
    obtain ⟨cut,there,rfl⟩ := Option.map_eq_some_iff.mp found
    rw [(padChunkParts minLen cut).2,cuts.offsets k cut there,zero_add,List.map_take]

theorem chunksInto (whole : Bool) (plan : CutPlan) (minLen : Nat) (wav : List K) (sr : Nat) :
    CutInto wav sr (cutPieces whole plan wav sr) (chunksOf whole plan minLen wav sr) := by
  cases whole with
  | true =>
    refine ⟨by simp [cutPieces],.cons ⟨0,by simp⟩ .nil,fun k chunk found => ?_⟩
    cases k with
    | zero => cases found; simp
    | succ k => cases found
  | false =>
    have cuts : CutFrom wav sr 0 0 (cutChunks plan wav sr 0 0) := cutsFrom
    have padded := cutInto cuts minLen
    unfold chunksOf cutPieces
    simp only [Bool.false_eq_true,if_false]
    split
    · exact padded
    · next none_ => rwa [padNothing none_] at padded

theorem cutFilled {whole : Bool} (some_ : wav ≠ []) : ∀ piece ∈ cutPieces whole plan wav sr, piece ≠ [] := by
  unfold cutPieces
  split
  · simpa using some_
  · intro piece found
    obtain ⟨chunk,inside,rfl⟩ := List.mem_map.mp found
    exact cutsFrom.filled (List.length_pos_of_ne_nil some_) chunk inside

theorem splitPieces {sec : ℚ} (rate : 0 < sr) (positive : 0 < sec) :
    ∃ chunks, splitAudioIntoChunks wav sr (some sec) = .ok chunks ∧ CutInto wav sr (piecesOf wav sr sec) chunks := by
  unfold splitAudioIntoChunks
  dsimp only
  rw [if_neg (by omega),if_neg (not_le.mpr positive)]
  exact ⟨_,rfl,chunksInto _ _ _ _ _⟩

theorem splitEmpty {sec : ℚ} (rate : 0 < sr) (positive : 0 < sec) :
    splitAudioIntoChunks ([] : List K) sr (some sec) = .ok [⟨[],0⟩] := by
  unfold splitAudioIntoChunks
  dsimp only
  rw [if_neg (by omega),if_neg (not_le.mpr positive),chunksOf,if_pos (by simpa using positive.le)]

/-- Any waveform is cut into pieces that make it up again, none of them empty unless the waveform
is, each handed on at the time that the pieces before it take, with nothing but silence behind it.
The pieces are as good whatever rounding makes of the plan. -/
theorem chunksRebuild (wav : List K) (sr : Nat) (maxChunkSec : Option ℚ) :
    (Refused sr maxChunkSec → ∃ error, splitAudioIntoChunks wav sr maxChunkSec = .error error) ∧
    (¬Refused sr maxChunkSec → ∃ chunks pieces, splitAudioIntoChunks wav sr maxChunkSec = .ok chunks ∧
      CutInto wav sr pieces chunks ∧ (wav ≠ [] → ∀ piece ∈ pieces, piece ≠ []) ∧ (wav = [] → chunks = [⟨[],0⟩])) ∧
    ∀ whole plan minLen, ∃ pieces, CutInto wav sr pieces (chunksOf whole plan minLen wav sr) ∧
      (wav ≠ [] → ∀ piece ∈ pieces, piece ≠ []) := by
  refine ⟨fun refused => ?_,fun accepted => ?_,fun whole plan minLen => ⟨_,chunksInto whole plan minLen wav sr,cutFilled⟩⟩
  · unfold splitAudioIntoChunks
    split
    · exact ⟨_,rfl⟩
    · next rate =>
      cases maxChunkSec with
      | none => exact ⟨_,rfl⟩
      | some sec =>
        have none_ : sec ≤ 0 := (refused.resolve_left rate) sec rfl
        exact ⟨_,if_pos none_⟩
  · obtain ⟨rate,timed⟩ := not_or.mp accepted
    push Not at timed
    obtain ⟨sec,rfl,positive⟩ := timed
    have rate : 0 < sr := Nat.pos_of_ne_zero rate
    obtain ⟨chunks,done,into⟩ := @splitPieces K _ _ _ _ _ _ wav sr sec rate positive
    refine ⟨chunks,_,done,into,cutFilled,?_⟩
    rintro rfl
    rw [splitEmpty rate positive] at done
    exact (Except.ok.inj done).symm

theorem emptyPiece : splitAudioIntoChunks ([] : List ℚ) 10 (some 1) = .ok [⟨[],0⟩] ∧
    CutInto ([] : List ℚ) 10 [[]] [⟨[],0⟩] := by
  refine ⟨splitEmpty (by decide) one_pos,rfl,.cons ⟨0,rfl⟩ .nil,?_⟩
  intro k chunk found
  cases k with
  | zero => cases found; simp
  | succ k => cases found

end Split

end Search

end Qwen3Asr.AudioChunking
