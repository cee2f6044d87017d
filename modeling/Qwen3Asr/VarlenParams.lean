import Qwen3Asr.Library.Packing
import Qwen3Asr.PagedMetadata

/-! Parameters of the varlen kernels. The lengths of the sequences travel as running totals, and
are read back as differences of neighbours. -/
namespace Qwen3Asr.VarlenParams
open Library.Effect Library.Word Library.Packing PagedMetadata

def makeFlashParams (queryLens kvLens : List Nat) (causal : Bool) : Except String (Option FlashParams) := do
  let cuSeqlensQ ← cumulativeSeqlensFromLengths queryLens
  let cuSeqlensKv ← cumulativeSeqlensFromLengths kvLens
  .ok (newPrefill queryLens.max? (some cuSeqlensQ) kvLens.max? (some cuSeqlensKv) causal)

def sequenceLengthsFromCu (cu : List Nat) : Except String (List Nat) :=
  if cu.length < 2 then .error s!"cumulative seqlens must contain at least two entries, got {cu.length}"
  else .ok (List.zipWith (fun first second => second-first) cu cu.tail)

section Totals
variable {lengths cu : List Nat}

theorem cumulativeFromOk {total : Nat} {out : List Nat} (ok : cumulativeFrom total lengths = .ok out) :
    total::out = (starts lengths).map (total + ·) := by
  induction lengths generalizing total out with
  | nil =>
    cases ok
    rfl
  | cons len rest ih =>
    obtain ⟨lenU32,first,ok⟩ := exceptBind.mp ok
    obtain ⟨next,second,ok⟩ := exceptBind.mp ok
    obtain ⟨tail,later,ok⟩ := exceptBind.mp ok
    cases ok
    obtain ⟨_,rfl⟩ := u32TryFromSome.mp (okOrOk.mp first)
    obtain ⟨_,rfl⟩ := u32TryFromSome.mp (okOrOk.mp second)
    rw [ih later,startsCons,List.map_cons,List.map_map]
    simp only [Nat.add_zero,Function.comp_def,Nat.add_assoc]

theorem cumulativeStarts (ok : cumulativeSeqlensFromLengths lengths = .ok cu) : cu = starts lengths := by
  obtain ⟨out,made,ok⟩ := exceptBind.mp ok
  cases ok
  rw [cumulativeFromOk made]
  simp

theorem cumulativeGoes (small : lengths.sum < 2^32) : cumulativeSeqlensFromLengths lengths = .ok (starts lengths) := by
  obtain ⟨out,made⟩ := (@cumulativeFits 0 lengths (by decide)).mpr (by rwa [Nat.zero_add])
  have ok : cumulativeSeqlensFromLengths lengths = .ok (0::out) := exceptBind.mpr ⟨out,made,rfl⟩
  rw [ok,cumulativeStarts ok]

theorem lengthsOfStarts (some : lengths ≠ []) : sequenceLengthsFromCu (starts lengths) = .ok lengths := by
  have size : (starts lengths).length = lengths.length+1 := by simp [starts]
  have positive := List.length_pos_of_ne_nil some
  unfold sequenceLengthsFromCu
  rw [if_neg (by omega)]
  refine congrArg _ (List.ext_getElem? fun i => ?_)
  rcases Nat.lt_or_ge i lengths.length with inside | past
  · have found : lengths[i]? = .some lengths[i] := List.getElem?_eq_getElem inside
    have here := startsAt (Nat.le_of_lt inside)
    have next := startsAt (Nat.succ_le_of_lt inside)
    rw [List.getElem?_zipWith,here,List.getElem?_tail,next,found]
    refine congrArg Option.some ?_
    rw [startNext found,Nat.add_sub_cancel_left]
  · rw [List.getElem?_eq_none past,List.getElem?_eq_none]
    rw [List.length_zipWith,List.length_tail,size]
    omega

end Totals

end Qwen3Asr.VarlenParams
