import Qwen3Asr.PrefixReuse

/-! The column an eager prefill goes on from. It is counted from the valid tokens of a row, so it
is the last one of them only where no padding stands before or between them. -/
namespace Qwen3Asr.PrefillLogits
open Library Library.Effect Library.Word
open PagedMetadata PromptPositions BatchEngine KvCache EagerThinker BatchPrefill PrefixReuse

structure LastUnmasked (mask : List Nat) (column : Nat) : Prop where
  unmasked : ∃ m, mask[column]? = some m ∧ m ≠ 0
  last : ∀ j m, column < j → mask[j]? = some m → m = 0

variable {φ η κ : Type}

section Mask
variable {mask : List Nat} {column : Nat}

theorem solidFront {n : Nat} (count : validLen mask = n) (last : ∀ j m, n ≤ j → mask[j]? = some m → m = 0) :
    (∀ m ∈ mask.take n, m ≠ 0) ∧ ∀ m ∈ mask.drop n, m = 0 := by
  have zero : ∀ m ∈ mask.drop n, m = 0 := by
    intro m inside
    obtain ⟨k,found⟩ := List.mem_iff_getElem?.mp inside
    rw [List.getElem?_drop] at found
    exact last (n+k) m (Nat.le_add_right n k) found
  have none : (mask.drop n).countP (· ≠ 0) = 0 := List.countP_eq_zero.mpr (by simpa using zero)
  have front : (mask.take n).countP (· ≠ 0) = n := by
    have parts : validLen mask = (mask.take n).countP (· ≠ 0) + (mask.drop n).countP (· ≠ 0) := by
      rw [validLen,← List.countP_append,List.take_append_drop]
    omega
  have full : (mask.take n).length = n := by
    have bound : (mask.take n).countP (· ≠ 0) ≤ (mask.take n).length := List.countP_le_length
    have cut : (mask.take n).length ≤ n := List.length_take_le n mask
    omega
  have all : (mask.take n).countP (· ≠ 0) = (mask.take n).length := front.trans full.symm
  exact ⟨by simpa using List.countP_eq_length.mp all,zero⟩

/- The valid tokens end at their count exactly in front of nothing but padding. -/
theorem countedColumn (positive : 0 < validLen mask) :
    LastUnmasked mask (validLen mask-1) ↔ attentionMaskIsRightPadded mask = true := by
  constructor
  · rintro ⟨_,last⟩
    have past : ∀ j m, validLen mask ≤ j → mask[j]? = some m → m = 0 :=
      fun j m far => last j m (by omega)
    obtain ⟨nonzero,zero⟩ := solidFront rfl past
    exact rightPaddedParts.mpr ⟨_,_,(List.take_append_drop _ _).symm,nonzero,zero⟩
  · intro padded
    obtain ⟨valid,pads,rfl,nonzero,zero⟩ := rightPaddedParts.mp padded
    rw [validLenAppend nonzero zero] at positive ⊢
    have inside : valid.length-1 < valid.length := by omega
    constructor
    · refine ⟨valid[valid.length-1],?_,nonzero _ (List.getElem_mem inside)⟩
      rw [List.getElem?_append_left inside,List.getElem?_eq_getElem inside]
    · intro j m far found
      rw [List.getElem?_append_right (by omega)] at found
      exact zero m (List.mem_of_getElem? found)

end Mask

section Runs
variable {thinker : CausalThinker φ η κ} {inputIds attentionMask : Grid Nat} {opts : GreedyGenerateBatchOpts φ}
  {templates t : Templates κ} {p : EagerPrefilled κ} {logits : Grid Nat} {start : Nat}

inductive ReadFrom (thinker : CausalThinker φ η κ) (inputIds attentionMask : Grid Nat)
    (opts : GreedyGenerateBatchOpts φ) (templates : Templates κ) : Grid Nat → Nat → Prop
  | whole {logits cache}
      (absent : cachedPrefix thinker inputIds attentionMask opts.audioFeatures templates = none)
      (ran : fullPrefill thinker inputIds attentionMask opts.audioFeatures
        (withMaxSeqLen thinker.layers.length (inputIds.width+opts.maxNewTokens)) = .ok (logits,cache)) :
      ReadFrom thinker inputIds attentionMask opts templates logits 0
  | resumed {template logits cache}
      (kept : cachedPrefix thinker inputIds attentionMask opts.audioFeatures templates = some template)
      (ran : remainderPrefill thinker inputIds attentionMask opts.audioFeatures
        (prefixLenOf thinker inputIds attentionMask opts.audioFeatures) template = .ok (logits,cache)) :
      ReadFrom thinker inputIds attentionMask opts templates logits
        (prefixLenOf thinker inputIds attentionMask opts.audioFeatures)

/- Whichever logits a prefill reads, it looks in them for the valid tokens they do not yet hold. -/
theorem prefillReads (ok : prefillBatch thinker inputIds attentionMask opts templates = .ok p t) :
    p.promptLens = attentionMask.rows.map (fun mask => (validLen mask : Int)) ∧
    ∃ logits start, ReadFrom thinker inputIds attentionMask opts templates logits start ∧
      nextIdsAt logits (p.promptLens.map (· - (start : Int))) = .ok p.nextIds := by
  cases found : cachedPrefix thinker inputIds attentionMask opts.audioFeatures templates with
  | none =>
    have run := prefillFull found ok
    obtain ⟨logits,ran,picked⟩ := run.ran
    exact ⟨promptLensOk run.lens,logits,0,.whole found ran,by simpa using picked⟩
  | some template =>
    obtain ⟨_,_,first,ok⟩ := bindOk.mp ok
    obtain ⟨_,rfl⟩ := attemptOk.mp first
    obtain ⟨lens,_,second,ok⟩ := bindOk.mp ok
    obtain ⟨counts,rfl⟩ := attemptOk.mp second
    rw [bindThen (getRun _),found] at ok
    obtain ⟨resumed,rfl⟩ := attemptOk.mp ok
    obtain ⟨⟨logits,cache⟩,ran,ok⟩ := exceptBind.mp resumed
    obtain ⟨_,len,ok⟩ := exceptBind.mp ok
    obtain ⟨_,rfl⟩ := i64TryFromSome.mp (okOrOk.mp len)
    obtain ⟨next,picked,ok⟩ := exceptBind.mp ok
    cases ok
    exact ⟨promptLensOk counts,logits,_,.resumed found ran,picked⟩

/-- A prefill goes on from one logit column for each row of the batch, at the count of valid
tokens, less the columns it resumed behind. That column belongs to the last unmasked token of
the row if and only if the row is padded on the right. -/
theorem pickedAtLastUnmasked (ok : prefillBatch thinker inputIds attentionMask opts templates = .ok p t) :
    ∃ logits start columns, ReadFrom thinker inputIds attentionMask opts templates logits start ∧
      gatherLastLogitsForPromptLens logits.rows.length logits.width (p.promptLens.map (· - (start : Int))) = .ok columns ∧
      p.nextIds = columns.map (fun (i,column) => (logits.rows.getD i []).getD column 0) ∧
      columns.length = attentionMask.rows.length ∧
      ∀ (i : Nat) mask, attentionMask.rows[i]? = some mask → ∃ column, columns[i]? = some (i,column) ∧
        (LastUnmasked mask (start+column) ↔ attentionMaskIsRightPadded mask = true) := by
  obtain ⟨lens,logits,start,source,picked⟩ := prefillReads ok
  obtain ⟨columns,gathered,made⟩ := exceptBind.mp picked
  obtain ⟨_,bounds,rfl⟩ := gatherOk.mp gathered
  refine ⟨logits,start,_,source,gathered,(Except.ok.inj made).symm,?_,?_⟩
  · simp [lens]
  · intro i mask found
    have entry : ((p.promptLens.map (· - (start : Int))).zipIdx)[i]? = some ((validLen mask : Int)-start,i) := by
      simp [lens,found]
    obtain ⟨positive,_,_⟩ := bounds _ (List.mem_of_getElem? entry)
    refine ⟨((validLen mask : Int)-start).toNat-1,?_,?_⟩
    · simp only [List.getElem?_map,entry,Option.map_some]
    · have column : start+(((validLen mask : Int)-start).toNat-1) = validLen mask-1 := by omega
      rw [column]
      exact countedColumn (by omega)

end Runs

def mixedIds : Grid Nat := ⟨[[3,5,0],[0,5,6]],3,by decide⟩

def mixedMasks : Grid Nat := ⟨[[1,1,0],[0,1,1]],3,by decide⟩

theorem mixedRuns : ((returned (prefillBatch addingThinker mixedIds mixedMasks ⟨none,4,[0]⟩ (fun _ => none))).any fun p =>
    p.promptLens = [2,2] ∧ p.nextIds = [5,0]) = true := by decide +kernel

theorem pickedAtLastUnmaskedMixed : ∃ (p : EagerPrefilled Nat) (logits : Grid Nat) (start : Nat) (columns : List (Nat × Nat)),
    p.nextIds = columns.map (fun (i,column) => (logits.rows.getD i []).getD column 0) ∧
    (∃ column, columns[0]? = some (0,column) ∧ LastUnmasked [1,1,0] (start+column)) ∧
    ∃ column, columns[1]? = some (1,column) ∧ ¬ LastUnmasked [0,1,1] (start+column) := by
  obtain ⟨p,found,_⟩ := (Option.any_eq_true _ _).mp mixedRuns
  obtain ⟨t,ok⟩ := returnedSome.mp found
  obtain ⟨logits,start,columns,_,_,made,_,each⟩ := pickedAtLastUnmasked ok
  obtain ⟨front,first,right⟩ := each 0 [1,1,0] rfl
  obtain ⟨back,second,left⟩ := each 1 [0,1,1] rfl
  exact ⟨p,logits,start,columns,made,⟨front,first,right.mpr (by decide)⟩,
    ⟨back,second,fun here => absurd (left.mp here) (by decide)⟩⟩

theorem leftPaddedMisread : ∃ p t logits, prefillBatch addingThinker mixedIds mixedMasks ⟨none,4,[0]⟩ (fun _ => none) = .ok p t ∧
    ReadFrom addingThinker mixedIds mixedMasks ⟨none,4,[0]⟩ (fun _ => none) logits 0 ∧
    mixedMasks.rows[1]? = some [0,1,1] ∧ LastUnmasked [0,1,1] 2 ∧
    gatherLastLogitsForPromptLens logits.rows.length logits.width p.promptLens = .ok [(0,1),(1,1)] ∧
    logits.rows[1]? = some [0,0,5] ∧ p.nextIds[1]? = some 0 := by
  obtain ⟨p,found,lens⟩ := (Option.any_eq_true _ _).mp mixedRuns
  obtain ⟨counts,next⟩ := of_decide_eq_true lens
  obtain ⟨t,ok⟩ := returnedSome.mp found
  have absent : cachedPrefix addingThinker mixedIds mixedMasks none (fun _ => none) = none := rfl
  have logits : ((fullPrefill addingThinker mixedIds mixedMasks none (withMaxSeqLen 2 7)).toOption.any fun l =>
      l.1.rows = [[8,5,0],[0,0,5]] ∧ l.1.width = 3) = true := by decide +kernel
  obtain ⟨⟨logits,cache⟩,ran,rows⟩ := (Option.any_eq_true _ _).mp logits
  obtain ⟨rows,width⟩ := of_decide_eq_true rows
  have ran : fullPrefill addingThinker mixedIds mixedMasks none (withMaxSeqLen 2 7) = .ok (logits,cache) := by
    cases made : fullPrefill addingThinker mixedIds mixedMasks none (withMaxSeqLen 2 7) with
    | error e => rw [made] at ran; cases ran
    | ok out => rw [made] at ran; cases ran; rfl
  dsimp only at rows width
  refine ⟨p,t,logits,ok,.whole absent ran,rfl,⟨⟨1,rfl,by decide⟩,?_⟩,?_,by rw [rows]; rfl,by rw [next]; rfl⟩
  · intro j m far found
    have short : j < 3 := (List.getElem?_eq_some_iff.mp found).1
    omega
  · rw [rows,width,counts]
    rfl

end Qwen3Asr.PrefillLogits
