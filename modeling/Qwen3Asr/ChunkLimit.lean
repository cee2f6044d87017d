import Mathlib.Algebra.Order.Floor.Semiring
import Mathlib.Data.List.GetD
import Mathlib.Logic.Relation
import Qwen3Asr.AudioChunking

/-! How long the chunks of long audio become. A cut falls where the audio is quietest around the
full chunk, before its end or behind it, so the longest chunk asked for holds only where no such
quiet lies behind. How quiet a window is is what the running sum of the search makes of it, in
any arithmetic of samples. -/
namespace Qwen3Asr.ChunkLimit
open Library.FirstLeast AudioChunking

section Quiet
variable {K : Type} [Zero K] [Add K] [Sub K] [Neg K] [LT K] [DecidableLT K] {seg : List K} {win pos p q : Nat}

/- The last low point of the samples of the window that is the last low point of the running sums. -/
def Quietest (seg : List K) (win p : Nat) : Prop :=
  ∃ pos inner, p = pos+inner ∧ Lowest (runningSum seg win) (seg.length-win) pos ∧
    Lowest (fun k => seg.getD (pos+k) 0) (win-1) inner

end Quiet

section Exact
variable {K : Type} [AddCommGroup K] [LinearOrder K] {seg : List K} {win pos p : Nat}

def windowEnergy (seg : List K) (win pos : Nat) : K := ((seg.drop pos).take win).sum

omit [LinearOrder K] in
/- With exact arithmetic the sum that is kept up is the energy of the window. -/
theorem runningEnergy (within : pos+win ≤ seg.length) : runningSum seg win pos = windowEnergy seg win pos := by
  induction pos with
  | zero => simp [runningSum,windowEnergy,List.sum_eq_foldl]
  | succ pos ih =>
    have first : pos < seg.length := by omega
    have last : win < (seg.drop pos).length := by rw [List.length_drop]; omega
    have both : windowEnergy seg win pos+seg.getD (pos+win) 0 = seg.getD pos 0+windowEnergy seg win (pos+1) := by
      have next : seg.getD (pos+win) 0 = (seg.drop pos)[win] := by
        rw [List.getElem_drop,List.getD_eq_getElem _ _ (by omega)]
      have head : seg.drop pos = seg.getD pos 0::seg.drop (pos+1) := by
        simp [List.getD_eq_getElem?_getD,first]
      calc windowEnergy seg win pos+seg.getD (pos+win) 0
          = ((seg.drop pos).take (win+1)).sum := by
            rw [windowEnergy,next,List.take_succ_eq_append_getElem last,List.sum_append,List.sum_singleton]
        _ = seg.getD pos 0+windowEnergy seg win (pos+1) := by
            rw [head,List.take_succ_cons,List.sum_cons,windowEnergy]
    rw [runningSum,ih (by omega),both,add_sub_cancel_left]

/-- With exact arithmetic the cut is at the first of the least samples in the first of the windows with the least energy. -/
theorem quietestExact (long : win ≤ seg.length) : Quietest seg win p ↔
    ∃ pos inner, p = pos+inner ∧ First (windowEnergy seg win) (seg.length-win) pos ∧
      First (fun k => seg.getD (pos+k) 0) (win-1) inner := by
  have same : scan (runningSum seg win) (seg.length-win) = scan (windowEnergy seg win) (seg.length-win) :=
    scanCongr fun k within => runningEnergy (by omega)
  have window (pos : Nat) : Lowest (runningSum seg win) (seg.length-win) pos ↔
      First (windowEnergy seg win) (seg.length-win) pos := by
    constructor
    · intro lowest
      rw [← lowestUnique lowest,same]
      exact scanFirst _ _
    · intro first
      rw [firstUnique first (scanFirst _ _),← same]
      exact lowestScan _ _
  simp only [Quietest,window,lowestFirst]

end Exact

section Cuts
variable {K : Type} [Zero K] [Add K] [Sub K] [Neg K] [LT K] [DecidableLT K] {plan : CutPlan} {wav : List K} {start cut sr : Nat} {offsetSec : ℚ}

/- Where the chunk from a start on ends, if it is not the last: at the full chunk, or where it is
quietest around it when there is room for a window. -/
inductive Cuts (plan : CutPlan) (wav : List K) : Nat → Nat → Prop
  | nominal {start : Nat} (more : plan.maxLen < wav.length-start)
      (narrow : right plan wav start-left plan start ≤ plan.win) : Cuts plan wav start (start+plan.maxLen)
  | quiet {start p : Nat} (more : plan.maxLen < wav.length-start) (wide : plan.win < right plan wav start-left plan start)
      (quietest : Quietest (segAbs plan wav start) plan.win p) : Cuts plan wav start (left plan start+p)

end Cuts

section Seconds
variable {K : Type} [Zero K] [Add K] [Sub K] [Neg K] [LT K] [DecidableLT K] {wav : List K} {sr : Nat} {sec : ℚ}

end Seconds

end Qwen3Asr.ChunkLimit
