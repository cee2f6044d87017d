import Mathlib.Algebra.BigOperators.Group.List.Lemmas
import Qwen3Asr.CallHistory

/-! The columns a prefill feeds for each of its prompts, padded or packed: its tokens, and
the audio features of its placeholders. -/
namespace Qwen3Asr.PromptColumns
open Library.Effect Library.Word
open BlockManager PagedMetadata PromptPositions BatchEngine PrefillOutcome CallHistory

variable {φ : Type} {audioTokenId : Nat}

theorem flattenGet {α : Type} {parts : List (List α)} {k j : Nat} {part : List α} (found : parts[k]? = some part)
    (bound : j < part.length) :
    parts.flatten[((parts.map List.length).take k).sum+j]? = part[j]? := by
  induction parts generalizing k with
  | nil => cases found
  | cons first parts ih =>
    cases k with
    | zero =>
      cases found
      simpa using List.getElem?_append_left bound
    | succ k =>
      have rest := ih (by simpa using found)
      rw [List.map_cons,List.take_succ_cons,List.sum_cons,List.flatten_cons,Nat.add_assoc,
        List.getElem?_append_right (Nat.le_add_right _ _),Nat.add_sub_cancel_left]
      exact rest

section Merge

theorem mergeRowLength (audio : List φ) (offset : Nat) (row : List Nat) :
    (mergeRow audioTokenId audio offset row).length = row.length := by
  induction row generalizing offset with
  | nil => rfl
  | cons id row ih => unfold mergeRow; split <;> simp [ih]

theorem mergeRowCongr {audio audio' : List φ} {offset offset' : Nat} {row : List Nat}
    (same : ∀ j, j < row.count audioTokenId → audio[offset+j]? = audio'[offset'+j]?) :
    mergeRow audioTokenId audio offset row = mergeRow audioTokenId audio' offset' row := by
  induction row generalizing offset offset' with
  | nil => rfl
  | cons id row ih =>
    unfold mergeRow
    split
    · rename_i placeholder
      rw [placeholder,List.count_cons_self] at same
      have head : audio[offset]? = audio'[offset']? := same 0 (by omega)
      have tail : mergeRow audioTokenId audio (offset+1) row = mergeRow audioTokenId audio' (offset'+1) row :=
        ih fun j less => by
          have next := same (j+1) (by omega)
          rwa [Nat.add_comm j,← Nat.add_assoc,← Nat.add_assoc] at next
      rw [head,tail]
    · rename_i other
      rw [List.count_cons_of_ne other] at same
      rw [ih same]

theorem mergeRowNone {audio : List φ} {offset : Nat} {row : List Nat} (none : audioTokenId ∉ row) :
    mergeRow audioTokenId audio offset row = row.map (⟨·,Option.none⟩) := by
  induction row generalizing offset with
  | nil => rfl
  | cons id row ih =>
    obtain ⟨other,none⟩ := not_or.mp (mt List.mem_cons.mpr none)
    unfold mergeRow
    rw [if_neg (Ne.symm other),ih none,List.map_cons]

theorem mergeRowAppend (audio : List φ) (offset : Nat) (row rest : List Nat) :
    mergeRow audioTokenId audio offset (row ++ rest) =
      mergeRow audioTokenId audio offset row ++
        mergeRow audioTokenId audio (offset+row.count audioTokenId) rest := by
  induction row generalizing offset with
  | nil => rfl
  | cons id row ih =>
    rw [List.cons_append,mergeRow,mergeRow]
    by_cases placeholder : id = audioTokenId
    · rw [if_pos placeholder,if_pos placeholder,ih,placeholder,List.count_cons_self,Nat.add_assoc,Nat.add_comm 1]
      rfl
    · rw [if_neg placeholder,if_neg placeholder,ih,List.count_cons_of_ne placeholder]
      rfl

theorem mergeRowFlatten (audio : List φ) (offset : Nat) (rows : List (List Nat)) :
    mergeRow audioTokenId audio offset rows.flatten = (mergeRows audioTokenId audio offset rows).flatten := by
  induction rows generalizing offset with
  | nil => rfl
  | cons row rows ih => rw [List.flatten_cons,mergeRowAppend,ih,mergeRows,List.flatten_cons]

theorem mergeRowsLengths (audioTokenId : Nat) (audio : List φ) (offset : Nat) (rows : List (List Nat)) :
    (mergeRows audioTokenId audio offset rows).map List.length = rows.map List.length := by
  induction rows generalizing offset with
  | nil => rfl
  | cons row rows ih => rw [mergeRows,List.map_cons,List.map_cons,mergeRowLength,ih]

theorem mergeRowsLength (audioTokenId : Nat) (audio : List φ) (offset : Nat) (rows : List (List Nat)) :
    (mergeRows audioTokenId audio offset rows).length = rows.length := by
  simpa using congrArg List.length (mergeRowsLengths audioTokenId audio offset rows)

theorem mergeRowsGet (audioTokenId : Nat) (audio : List φ) (offset : Nat) {rows : List (List Nat)} {k : Nat} {row : List Nat}
    (found : rows[k]? = some row) : (mergeRows audioTokenId audio offset rows)[k]? =
      some (mergeRow audioTokenId audio (offset+((rows.map (·.count audioTokenId)).take k).sum) row) := by
  induction rows generalizing offset k with
  | nil => cases found
  | cons first rows ih =>
    cases k with
    | zero => cases found; rfl
    | succ k =>
      have rest := ih (offset+first.count audioTokenId) (k := k) (by simpa using found)
      rw [mergeRows,List.getElem?_cons_succ,rest,List.map_cons,List.take_succ_cons,List.sum_cons,Nat.add_assoc]

theorem countFlatten (rows : List (List Nat)) :
    rows.flatten.count audioTokenId = (rows.map (·.count audioTokenId)).sum := List.count_flatten ..

theorem embedMerge {rows : List (List Nat)} {audio : List φ} {offset : Nat}
    (none : (rows.map (·.count audioTokenId)).sum = 0) :
    embedTokens rows = mergeRows audioTokenId audio offset rows := by
  induction rows generalizing offset with
  | nil => rfl
  | cons row rows ih =>
    rw [List.map_cons,List.sum_cons,Nat.add_eq_zero_iff] at none
    have rest : embedTokens rows = mergeRows audioTokenId audio (offset+row.count audioTokenId) rows := ih none.2
    unfold embedTokens at rest ⊢
    rw [List.map_cons,rest,mergeRows,mergeRowNone (List.count_eq_zero.mp none.1)]

theorem mergeFeaturesOk {rows : List (List Nat)} {audio : List φ} {columns : List (List (Column φ))}
    (ok : mergeAudioFeatures rows audioTokenId audio (rows.map (·.count audioTokenId)).sum = .ok columns) :
    columns = mergeRows audioTokenId audio 0 rows ∧ (rows.map (·.count audioTokenId)).sum = audio.length := by
  unfold mergeAudioFeatures at ok
  dsimp only at ok
  split at ok <;> try contradiction
  split at ok <;> try contradiction
  rename_i counted
  split at ok
  · rename_i none
    cases ok
    exact ⟨embedMerge none,not_not.mp counted⟩
  · cases ok
    exact ⟨rfl,not_not.mp counted⟩

end Merge

/- A row and its mask: the prompt under ones, then padding without placeholders under zeros. -/
def Pads (audioTokenId : Nat) (row : List Nat × List Nat) (prompt : List Nat) : Prop :=
  ∃ pad, audioTokenId ∉ pad ∧ row.1 = prompt ++ pad ∧
    row.2 = List.replicate prompt.length 1 ++ List.replicate pad.length 0

section Padding
variable {row : List Nat × List Nat} {prompt : List Nat}

theorem padsLen (pads : Pads audioTokenId row prompt) : validLen row.2 = prompt.length := by
  obtain ⟨pad,_,_,mask⟩ := pads
  rw [mask,validLenOnes]

theorem padsTake (pads : Pads audioTokenId row prompt) : row.1.take prompt.length = prompt := by
  obtain ⟨pad,_,ids,_⟩ := pads
  rw [ids,List.take_left' rfl]

theorem padsCount (pads : Pads audioTokenId row prompt) :
    row.1.count audioTokenId = prompt.count audioTokenId := by
  obtain ⟨pad,none,ids,_⟩ := pads
  rw [ids,List.count_append,List.count_eq_zero.mpr none,Nat.add_zero]

theorem padsRight (pads : Pads audioTokenId row prompt) : attentionMaskIsRightPadded row.2 = true := by
  obtain ⟨pad,_,_,mask⟩ := pads
  have ones : ∀ n, (List.replicate n 1 ++ List.replicate pad.length 0).dropWhile (· ≠ 0) =
      List.replicate pad.length 0 := by
    intro n
    induction n with
    | zero => cases pad.length <;> simp [List.replicate_succ]
    | succ n ih => simp [List.replicate_succ]
  unfold attentionMaskIsRightPadded
  rw [mask,ones]
  simp

theorem padsColumns (audio : List φ) (offset : Nat) (pads : Pads audioTokenId row prompt) :
    (mergeRow audioTokenId audio offset row.1).take prompt.length = mergeRow audioTokenId audio offset prompt := by
  obtain ⟨pad,_,ids,_⟩ := pads
  rw [ids,mergeRowAppend,List.take_left' (mergeRowLength _ _ _)]

end Padding

structure RowPads (audioTokenId : Nat) (row : PromptRow) (prompt : List Nat) : Prop where
  pads : Pads audioTokenId (row.ids,row.mask) prompt
  len : row.len = prompt.length

section Rows
variable {rows : List PromptRow} {prompts : List (List Nat)}

theorem rowsCount (pads : List.Forall₂ (RowPads audioTokenId) rows prompts) :
    (rows.map PromptRow.ids).map (·.count audioTokenId) = prompts.map (·.count audioTokenId) := by
  induction pads with
  | nil => rfl
  | cons head _ ih => exact List.cons_eq_cons.mpr ⟨padsCount head.pads,ih⟩

theorem rowsLen (pads : List.Forall₂ (RowPads audioTokenId) rows prompts) :
    rows.map PromptRow.len = prompts.map List.length := by
  induction pads with
  | nil => rfl
  | cons head _ ih => exact List.cons_eq_cons.mpr ⟨head.len,ih⟩

theorem rowsTake (pads : List.Forall₂ (RowPads audioTokenId) rows prompts) :
    rows.map (fun row => row.ids.take row.len) = prompts := by
  induction pads with
  | nil => rfl
  | cons head _ ih =>
    have first := padsTake head.pads
    rw [← head.len] at first
    exact List.cons_eq_cons.mpr ⟨first,ih⟩

theorem rowsColumns (audio : List φ) (offset : Nat) (pads : List.Forall₂ (RowPads audioTokenId) rows prompts) :
    List.Forall₂ (fun padded prompt => padded.take prompt.length = prompt)
      (mergeRows audioTokenId audio offset (rows.map PromptRow.ids))
      (mergeRows audioTokenId audio offset prompts) := by
  induction pads generalizing offset with
  | nil => exact .nil
  | @cons row prompt _ _ head _ ih =>
    have first := padsColumns audio offset head.pads
    have count : row.ids.count audioTokenId = prompt.count audioTokenId := padsCount head.pads
    rw [List.map_cons,mergeRows,mergeRows,count]
    exact .cons (by rw [mergeRowLength]; exact first) (ih _)

end Rows

theorem promptRowsPads {inputIds attentionMask prompts : List (List Nat)} {config : PagedBatchConfig}
    {seqLen : Nat} {rows : List PromptRow} (ok : promptRows inputIds attentionMask config = .ok (seqLen,rows))
    (pads : List.Forall₂ (Pads audioTokenId) (inputIds.zip attentionMask) prompts) :
    List.Forall₂ (RowPads audioTokenId) rows prompts := by
  obtain ⟨_,_,_,_,_,⟨_,rfl⟩ | ⟨ragged,same,_⟩⟩ := promptRowsParts ok
  · rw [List.forall₂_map_left_iff]
    exact pads.imp fun _ _ row => ⟨row,padsLen row⟩
  · have right : attentionMasksAreRightPadded attentionMask = true := by
      unfold attentionMasksAreRightPadded
      rw [List.all_eq_true]
      intro mask inside
      obtain ⟨k,bound,rfl⟩ := List.getElem_of_mem inside
      have zipped : k < (inputIds.zip attentionMask).length := by
        rw [List.length_zip]
        omega
      have row := (List.forall₂_iff_get.mp pads).2 k zipped (by rw [← pads.length_eq]; exact zipped)
      simpa using padsRight row
    rw [right] at ragged
    cases ragged

theorem narrowOk {α : Type} {xs ys : List α} {start len : Nat} (ok : narrow xs start len = .ok ys) :
    start+len ≤ xs.length ∧ ys = (xs.drop start).take len := by
  unfold narrow at ok
  split at ok <;> try contradiction
  cases ok
  exact ⟨‹_›,rfl⟩

theorem narrowLength {α : Type} {xs ys : List α} {start len : Nat} (ok : narrow xs start len = .ok ys) :
    ys.length = len := by
  obtain ⟨bound,rfl⟩ := narrowOk ok
  rw [List.length_take,List.length_drop]
  omega

theorem packAudioOk {audio parts : List φ} {offset last : Nat} {rows : List (List Nat)}
    (ok : packAudio audioTokenId audio offset rows = .ok (parts,last)) :
    last = offset+(rows.map (·.count audioTokenId)).sum ∧
      parts = (audio.drop offset).take (rows.map (·.count audioTokenId)).sum ∧
      parts.length = (rows.map (·.count audioTokenId)).sum := by
  induction rows generalizing offset parts with
  | nil => cases ok; simp
  | cons row rows ih =>
    have first : ∃ part, (part = (audio.drop offset).take (row.count audioTokenId) ∧
        part.length = row.count audioTokenId) ∧
        (packAudio audioTokenId audio (offset+row.count audioTokenId) rows >>=
          fun tail => Except.ok (part ++ tail.1,tail.2)) = Except.ok (parts,last) := by
      unfold packAudio at ok
      dsimp only at ok
      split at ok
      · obtain ⟨part,slice,ok⟩ := exceptBind.mp ok
        exact ⟨part,⟨(narrowOk slice).2,narrowLength slice⟩,ok⟩
      · rename_i none
        have zero : row.count audioTokenId = 0 := by omega
        exact ⟨[],by simp [zero],ok⟩
    obtain ⟨part,own,ok⟩ := first
    obtain ⟨⟨rest,_⟩,tail,ok⟩ := exceptBind.mp ok
    cases ok
    obtain ⟨total,consecutive,counted⟩ := ih tail
    rw [List.map_cons,List.sum_cons]
    have joined := List.take_add (l := audio.drop offset) (i := row.count audioTokenId)
      (j := (rows.map (·.count audioTokenId)).sum)
    rw [List.drop_drop] at joined
    exact ⟨by omega,by rw [joined,own.1,consecutive],by rw [List.length_append,own.2,counted]⟩

section Prefill
variable {thinker : Thinker φ} {cache : PagedKvCache} {requestIds : List Nat} {blockTables : List (List Nat)}
  {seqLen : Nat} {rows : List PromptRow} {audio : List φ} {prefilled : Prefilled φ} {prompts : List (List Nat)}

theorem packedColumns {packedAudio : Option (List φ)} {columns : List (List (Column φ))}
    (features : packFeatures thinker.audioTokenId prompts (prompts.map (·.count thinker.audioTokenId)).sum
      (some audio) = .ok packedAudio)
    (ok : inputsEmbedsWithAudioFeatures thinker [prompts.flatten] packedAudio
      (prompts.map (·.count thinker.audioTokenId)).sum = .ok columns) :
    columns = [(mergeRows thinker.audioTokenId audio 0 prompts).flatten] := by
  unfold packFeatures at features
  obtain ⟨⟨parts,_⟩,packs,features⟩ := exceptBind.mp features
  obtain ⟨_,slices,counted⟩ := packAudioOk packs
  rw [List.drop_zero] at slices
  dsimp only at features
  split at features <;> try contradiction
  have flat : ([prompts.flatten].map (·.count thinker.audioTokenId)).sum =
      (prompts.map (·.count thinker.audioTokenId)).sum := by
    simpa using countFlatten prompts
  have rows : mergeRows thinker.audioTokenId audio 0 [prompts.flatten] =
      [(mergeRows thinker.audioTokenId audio 0 prompts).flatten] :=
    congrArg (fun row => [row]) (mergeRowFlatten audio 0 prompts)
  rw [← rows]
  split at features
  · rename_i empty
    cases features
    cases ok
    rw [empty,List.length_nil] at counted
    exact embedMerge (by rw [flat,← counted])
  · cases features
    unfold inputsEmbedsWithAudioFeatures at ok
    dsimp only at ok
    rw [← flat] at ok
    rw [(mergeFeaturesOk ok).1]
    have same : mergeRow thinker.audioTokenId parts 0 prompts.flatten =
        mergeRow thinker.audioTokenId audio 0 prompts.flatten := mergeRowCongr fun j less => by
      rw [countFlatten] at less
      rw [slices,List.getElem?_take_of_lt (by omega)]
    simp only [mergeRows,same]

theorem flattenSlice {α : Type} {parts : List (List α)} {k : Nat} {part : List α} (found : parts[k]? = some part) :
    (parts.flatten.drop ((parts.map List.length).take k).sum).take part.length = part := by
  obtain ⟨bound,rfl⟩ := List.getElem?_eq_some_iff.mp found
  have slice := List.drop_take_succ_flatten_eq_getElem parts k bound
  have next : ((parts.map List.length).take (k+1)).sum = ((parts.map List.length).take k).sum+parts[k].length := by
    rw [List.sum_take_succ _ k (by simpa using bound),List.getElem_map]
  rw [List.drop_take,next,Nat.add_sub_cancel_left] at slice
  exact slice

/-- Both prefill modes feed each prompt its tokens with the features of its placeholders. -/
theorem prefillColumns (pads : List.Forall₂ (RowPads thinker.audioTokenId) rows prompts)
    (ok : prefillCall thinker cache requestIds blockTables seqLen rows (some audio) = .ok prefilled)
    {k : Nat} {prompt : List (Column φ)} (found : (mergeRows thinker.audioTokenId audio 0 prompts)[k]? = some prompt) :
    promptColumns thinker.usePackedCudaPrefill prefilled.call (rows.map PromptRow.len) k = prompt := by
  have counts := rowsCount pads
  have lengths := mergeRowsLengths thinker.audioTokenId audio 0 prompts
  have length : (prompts.map List.length)[k]? = some prompt.length := by
    rw [← lengths,List.getElem?_map,found]
    rfl
  unfold prefillCall at ok
  dsimp only at ok
  obtain ⟨⟨positionIds,_⟩,_,ok⟩ := exceptBind.mp ok
  dsimp only at ok
  rw [Option.isSome_some,if_pos rfl,countAudioPlaceholdersBatch,counts] at ok
  unfold promptColumns
  rw [rowsLen pads,List.getD_eq_getElem?_getD,length,Option.getD_some]
  split at ok
  · rename_i packed
    rw [if_pos packed]
    unfold packedPrefillCall at ok
    dsimp only at ok
    obtain ⟨packedAudio,features,ok⟩ := exceptBind.mp ok
    obtain ⟨columns,merged,ok⟩ := exceptBind.mp ok
    simp only [exceptBind] at ok
    obtain ⟨_,_,_,_,_,_,same⟩ := ok
    cases same
    rw [rowsTake pads] at features merged
    rw [packedColumns features merged,← lengths]
    exact flattenSlice found
  · rename_i padded
    rw [if_neg padded]
    unfold paddedPrefillCall at ok
    dsimp only at ok
    obtain ⟨columns,merged,ok⟩ := exceptBind.mp ok
    simp only [exceptBind] at ok
    obtain ⟨_,_,_,_,_,_,same⟩ := ok
    cases same
    unfold inputsEmbedsWithAudioFeatures at merged
    dsimp only at merged
    rw [← counts] at merged
    rw [(mergeFeaturesOk merged).1]
    obtain ⟨bound,rfl⟩ := List.getElem?_eq_some_iff.mp found
    have columns := rowsColumns audio 0 pads
    have inside : k < (mergeRows thinker.audioTokenId audio 0 (rows.map PromptRow.ids)).length := by
      rw [columns.length_eq]
      exact bound
    have row := (List.forall₂_iff_get.mp columns).2 k inside bound
    rw [List.getD_eq_getElem?_getD,List.getElem?_eq_getElem inside]
    exact row

end Prefill

end Qwen3Asr.PromptColumns
