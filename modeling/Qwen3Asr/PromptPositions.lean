import Mathlib.Data.List.GetD
import Mathlib.Data.List.TakeWhile
import Qwen3Asr.Library.Effect
import Qwen3Asr.Library.Word
import Qwen3Asr.PagedMetadata

/-! Prompt rows and their position ids. A mask marks the valid tokens of a row by
nonzero entries; the counts the source keeps in `f32` are exact at these sizes. -/
namespace Qwen3Asr.PromptPositions
open Library.Word PagedMetadata

def attentionMaskIsRightPadded (mask : List Nat) : Bool :=
  (mask.dropWhile (· ≠ 0)).all (· = 0)

section Padding
variable {mask valid pads : List Nat}

theorem rightPaddedParts : attentionMaskIsRightPadded mask = true ↔
    ∃ valid pads, mask = valid ++ pads ∧ (∀ m ∈ valid, m ≠ 0) ∧ (∀ m ∈ pads, m = 0) := by
  unfold attentionMaskIsRightPadded
  constructor
  · intro padded
    refine ⟨mask.takeWhile (· ≠ 0),mask.dropWhile (· ≠ 0),List.takeWhile_append_dropWhile.symm,?_,?_⟩
    · intro m inside
      simpa using List.mem_takeWhile_imp inside
    · simpa using padded
  · rintro ⟨valid,pads,rfl,nonzero,zero⟩
    have front : (valid ++ pads).dropWhile (· ≠ 0) = pads := by
      rw [List.dropWhile_append_of_pos (by simpa using nonzero)]
      cases pads with
      | nil => rfl
      | cons m rest => simp [zero m (.head _)]
    rw [front]
    simpa using zero

theorem validLenAppend (nonzero : ∀ m ∈ valid, m ≠ 0) (zero : ∀ m ∈ pads, m = 0) :
    validLen (valid ++ pads) = valid.length := by
  have all : valid.countP (· ≠ 0) = valid.length := List.countP_eq_length.mpr (by simpa using nonzero)
  have none : pads.countP (· ≠ 0) = 0 := List.countP_eq_zero.mpr (by simpa using zero)
  rw [validLen,List.countP_append,all,none,Nat.add_zero]

end Padding

def attentionMasksAreRightPadded (masks : List (List Nat)) : Bool := masks.all attentionMaskIsRightPadded

def attentionMaskIsDense (mask : List Nat) : Bool := mask.all (· ≠ 0)

def attentionMasksAreDense (masks : List (List Nat)) : Bool := masks.all attentionMaskIsDense

/- Position ids of one row: valid tokens count from 0, padding gets 1. -/
def ropeRow (mask : List Nat) : List Int :=
  mask.zipIdx.map fun (m,j) => if m ≠ 0 then (validLen (mask.take (j+1)) : Int) - 1 else 1

def ropeDelta (mask : List Nat) : Int :=
  max ((ropeRow mask).foldl max 0) 1 + 1 - validLen mask

/- The three planes of the position ids are equal; one of them is kept. -/
def getRopeIndex (attentionMask : List (List Nat)) : Except String (List (List Int) × List Int) :=
  let seqLen := (attentionMask.map List.length).headD 0
  if seqLen = 0 then .error "attention_mask seq_len must be > 0"
  else .ok (attentionMask.map ropeRow,attentionMask.map ropeDelta)

def positionIdsForStep (promptLens : List Int) (step : Nat) : Except String (List (List Int)) := do
  if promptLens = [] then .error "prompt_lens is empty" else
  let stepI64 ← okOr (i64TryFrom step) s!"step overflows i64: {step}"
  promptLens.zipIdx.mapM fun (base,i) => do
    let p ← okOr (i64CheckedAdd base stepI64)
      s!"position id overflow at batch index {i}: base={base} step={stepI64}"
    .ok [p]

def validIds (ids mask : List Nat) : List Nat := ((ids.zip mask).filter (·.2 ≠ 0)).map Prod.fst

def padIdOf (ids mask : List Nat) : Nat :=
  (((ids.zip mask).find? (·.2 = 0)).map Prod.fst).getD (ids.headD 0)

/- Valid tokens first, then padding; the mask becomes ones followed by zeros. -/
def normalizeBatchForPagedPrefill (inputIds attentionMask : List (List Nat)) :
    Except String (List (List Nat × List Nat × Nat)) := do
  if inputIds.length ≠ attentionMask.length then
    .error s!"input_ids/attention_mask batch mismatch: input_ids={inputIds.length} attention_mask={attentionMask.length}"
  else
  let seqLen := (inputIds.map List.length).headD 0
  (inputIds.zip attentionMask).zipIdx.mapM fun ((ids,mask),i) =>
    if ids.length ≠ seqLen ∨ mask.length ≠ seqLen then
      .error s!"batch row len mismatch at {i}: ids={ids.length} mask={mask.length} expected={seqLen}"
    else
      let len := validLen mask
      if len = 0 ∨ seqLen < len then
        .error s!"invalid prompt length at batch index {i}: len={len} seq_len={seqLen}"
      else
        let rowIds := validIds ids mask ++ List.replicate (seqLen-len) (padIdOf ids mask)
        let rowMask := List.replicate len 1 ++ List.replicate (seqLen-len) 0
        .ok (rowIds,rowMask,len)

def gatherLastLogitsForPromptLens (batch seqLen : Nat) (promptLens : List Int) :
    Except String (List (Nat × Nat)) := do
  if promptLens.length ≠ batch then
    .error s!"prompt_lens batch mismatch: expected={batch}, got={promptLens.length}"
  else
  promptLens.zipIdx.mapM fun (lenI64,i) =>
    if lenI64 ≤ 0 then .error s!"prompt length must be > 0 at batch index {i}: {lenI64}"
    else
      let len := lenI64.toNat
      if seqLen < len then
        .error s!"prompt length exceeds seq_len at batch index {i}: len={len} seq_len={seqLen}"
      else do
        let flat ← okOr ((checkedMul i seqLen).bind (checkedAdd · (len-1)))
          s!"gather index overflow for batch index {i}"
        let _ ← okOr (u32TryFrom flat) s!"gather index overflows u32 at batch index {i}: {flat}"
        .ok (i,len-1)

end Qwen3Asr.PromptPositions
