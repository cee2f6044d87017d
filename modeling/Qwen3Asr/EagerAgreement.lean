import Qwen3Asr.EagerDecode
import Qwen3Asr.Library.Greedy

/-! Greedy decoding on the eager path, three ways. Recomputed from scratch for every token, over a
key/value cache, or in a padded batch over one cache, a prompt is continued by the same tokens. -/
namespace Qwen3Asr.EagerAgreement
open Library Library.Effect Library.Word Library.CausalStack Library.Greedy
open PagedMetadata PromptPositions BatchEngine CausalMask KvCache EagerThinker EagerRows BatchPrefill PrefixReuse
open EagerGeneration EagerDecode

variable {φ η κ : Type}

/- Sizes at which positions are counted exactly and index tensors hold every column. -/
structure Sized (batch seqLen maxNewTokens : Nat) : Prop where
  positions : seqLen+maxNewTokens ≤ 2^24
  columns : batch*(seqLen+seqLen) < 2^32

structure Unpadded (ids attn : List Nat) : Prop where
  nonempty : ids ≠ []
  same : attn.length = ids.length
  valid : ∀ m ∈ attn, m ≠ 0

section Unpadded
variable {ids attn : List Nat}

theorem unpaddedRow (plain : Unpadded ids attn) : PaddedRow ids attn ∧ validLen attn = ids.length ∧ rowTokens ids attn [] = ids := by
  have padded : attentionMaskIsRightPadded attn = true :=
    rightPaddedParts.mpr ⟨attn,[],(List.append_nil attn).symm,plain.valid,fun _ none_ => by cases none_⟩
  have counted : validLen attn = ids.length := by
    rw [validLen,List.countP_eq_length.mpr (by simpa using plain.valid),plain.same]
  refine ⟨⟨plain.same.symm,padded⟩,counted,?_⟩
  rw [rowTokens,counted,List.take_length,List.append_nil]

theorem unpaddedNext (plain : Unpadded ids attn) (token : Nat) : Unpadded (ids ++ [token]) (attn ++ [1]) where
  nonempty := by simp
  same := by simp [plain.same]
  valid m inside := by
    rcases List.mem_append.mp inside with old | new
    · exact plain.valid m old
    · cases List.mem_singleton.mp new
      exact Nat.one_ne_zero

end Unpadded

section Plain
variable {thinker : CausalThinker φ η κ} {ids attn eosTokenIds : List Nat}

theorem layersGo (allowed : List (List (List Bool))) {positionIds : Grid Int} {hidden : Grid η} (layers : List (Layer η Int κ))
    (same : SameShape hidden positionIds) (flash : makeFlashParams hidden.rows.length hidden.width hidden.width = .ok ()) :
    ∃ out, forwardLayers allowed positionIds layers hidden = .ok out ∧ out.width = hidden.width := by
  induction layers generalizing hidden with
  | nil => exact ⟨hidden,rfl,rfl⟩
  | cons layer layers ih =>
    obtain ⟨rows,width⟩ := attentionShape layer (some allowed) (Grid.zipWith layer.project hidden positionIds) same
    obtain ⟨out,ran,wide⟩ := ih (attentionSame layer (some allowed) (Grid.zipWith layer.project hidden positionIds) same)
      (by rw [rows,width]; exact flash)
    exact ⟨out,exceptBind.mpr ⟨(),flash,ran⟩,wide.trans width⟩

theorem plainForward (thinker : CausalThinker φ η κ) (plain : Unpadded ids attn) (small : ids.length < 2^32) :
    ∃ inputIds attentionMask logits, tensor ids.length [ids] = .ok inputIds ∧ tensor ids.length [attn] = .ok attentionMask ∧
      forwardWithAudioFeatures thinker inputIds attentionMask none 0 = .ok logits ∧ lastPick logits = nextToken thinker ids := by
  obtain ⟨padded,counted,tokens⟩ := unpaddedRow plain
  have long : 0 < ids.length := List.length_pos_of_ne_nil plain.nonempty
  have evenIds : ∀ row ∈ [ids], row.length = ids.length := by simp
  have evenMask : ∀ row ∈ [attn], row.length = ids.length := by simp [plain.same]
  obtain ⟨inputIds,made⟩ := tensorGoes evenIds
  obtain ⟨attentionMask,masked⟩ := tensorGoes evenMask
  obtain ⟨idRows,idWidth,_⟩ := tensorOk.mp made
  obtain ⟨maskRows,maskWidth,_⟩ := tensorOk.mp masked
  obtain ⟨positionIds,rope⟩ := @ropePositionsGo attentionMask (by simp [maskRows]) (by omega)
  obtain ⟨ropeRows,ropeWidth⟩ := ropePositionsOk rope
  rw [maskRows,List.map_singleton] at ropeRows
  generalize embedded : inputIds.map (fun id => thinker.embed ⟨id,none⟩) = embeds
  have embedRows : embeds.rows = [(tokenColumns ids).map thinker.embed] := by
    simp [← embedded,Grid.map,idRows,tokenColumns,Function.comp_def]
  have embedWidth : embeds.width = ids.length := by simp [← embedded,Grid.map,idWidth]
  have same : SameShape embeds positionIds := ⟨by simp [ropeRows,embedRows],by rw [ropeWidth,maskWidth,embedWidth]⟩
  have flash : makeFlashParams embeds.rows.length embeds.width embeds.width = .ok () := by
    refine flashFits.mpr (.inr ?_)
    simpa [embedRows,embedWidth] using small
  obtain ⟨out,ran,outWidth⟩ := layersGo (makeCausalMask attentionMask.rows embeds.width) thinker.layers same flash
  have columns : (tokenColumns ids : List (Column φ)).length = attn.length := by rw [tokenColumnsLength,plain.same]
  obtain ⟨hiddens,positions,bits⟩ := promptParts thinker columns
  have row : RowInputs embeds positionIds 0 (promptInputs thinker (tokenColumns ids) attn) :=
    ⟨by simp [embedRows,hiddens],by simp [ropeRows,positions]⟩
  have sees : SeesCausally κ (some (makeCausalMask attentionMask.rows embeds.width)) 0 []
      ((promptInputs thinker (tokenColumns ids) attn).map Input.holds) := by
    intro t query keys _
    rw [bits,bitsLength,plain.same] at query
    have found : attentionMask.rows[0]? = some attn := by simp [maskRows]
    rw [allowedPlain found (by rw [plain.same,embedWidth]) (by rw [embedWidth]; exact query),bits]
    simp
  have picked := layersRow ran sees row
  refine ⟨inputIds,attentionMask,out.map thinker.pick,made,masked,?_,?_⟩
  · unfold forwardWithAudioFeatures
    refine exceptBind.mpr ⟨embeds,congrArg Except.ok embedded,exceptBind.mpr ⟨positionIds,rope,?_⟩⟩
    have dims : ¬(attentionMask.rows.length ≠ embeds.rows.length ∨ attentionMask.width ≠ embeds.width) := by
      simp [maskRows,embedRows,maskWidth,embedWidth]
    rw [if_neg dims]
    exact exceptBind.mpr ⟨out,ran,rfl⟩
  · have first := @pickedFirst _ _ _ thinker _ _ padded (by omega)
    rw [counted,tokens] at first
    rw [← first,lastPick]
    have head : (out.map thinker.pick).rows.headD [] = picks thinker (promptInputs thinker (tokenColumns ids) attn) := by
      have here := Grid.mapRow thinker.pick picked
      rw [← List.head?_eq_getElem?] at here
      rw [List.headD_eq_head?_getD,here,Option.getD_some,picks,List.map_map]
      rfl
    have width : (out.map thinker.pick).width = ids.length := outWidth.trans embedWidth
    rw [head,width]

theorem plainFrom (thinker : CausalThinker φ η κ) (eosTokenIds : List Nat) {prompt : List Nat} (left : Nat)
    {generated attn : List Nat} (plain : Unpadded (prompt ++ generated) attn) (small : prompt.length+generated.length+left < 2^32) :
    generateFrom thinker none 0 eosTokenIds left (prompt ++ generated) attn generated =
      .ok (greedyFrom (fun out => nextToken thinker (prompt ++ out)) eosTokenIds.contains left generated) := by
  induction left generalizing generated attn with
  | zero => rfl
  | succ left ih =>
    obtain ⟨inputIds,attentionMask,logits,made,masked,ran,last⟩ := plainForward thinker plain
      (by rw [List.length_append]; omega)
    unfold generateFrom greedyFrom
    refine exceptBind.mpr ⟨inputIds,made,exceptBind.mpr ⟨attentionMask,masked,exceptBind.mpr ⟨logits,ran,?_⟩⟩⟩
    dsimp only
    rw [last]
    split
    · rfl
    · have next := unpaddedNext plain (nextToken thinker (prompt ++ generated))
      rw [List.append_assoc] at next ⊢
      exact ih next (by rw [List.length_append,List.length_singleton]; omega)

theorem singleChecksGo (some_ : eosTokenIds ≠ []) (plain : Unpadded ids attn) : singleChecks ids attn eosTokenIds = .ok () := by
  unfold singleChecks
  rw [if_neg plain.nonempty,if_neg (not_not.mpr plain.same),if_neg some_]

theorem plainGreedy (thinker : CausalThinker φ η κ) (some_ : eosTokenIds ≠ []) (plain : Unpadded ids attn) {maxNewTokens : Nat}
    (small : ids.length+maxNewTokens < 2^32) : greedyGenerate thinker ids attn none maxNewTokens eosTokenIds =
      .ok (greedy (fun out => nextToken thinker (ids ++ out)) eosTokenIds.contains maxNewTokens) := by
  refine exceptBind.mpr ⟨(),singleChecksGo some_ plain,?_⟩
  split
  · next none_ =>
    rw [none_]
    rfl
  · have whole : Unpadded (ids ++ []) attn := by rwa [List.append_nil]
    have ran := plainFrom thinker eosTokenIds maxNewTokens whole (by simpa using small)
    rw [List.append_nil] at ran
    exact ran

end Plain

section Positions
variable {promptLens : List Int} {masks : List (List Nat)} {seqLen step maxSteps : Nat}

theorem positionIdsGo (some_ : promptLens ≠ []) (small : ∀ len ∈ promptLens, 0 ≤ len ∧ len+step < 2^63) :
    positionIdsForStep promptLens step = .ok (promptLens.map fun len => [len+step]) := by
  have stepSmall : step < 2^63 := by
    obtain ⟨len,lens,rfl⟩ := List.exists_cons_of_ne_nil some_
    have first := small len List.mem_cons_self
    omega
  unfold positionIdsForStep
  rw [if_neg some_]
  refine exceptBind.mpr ⟨step,okOrOk.mpr (i64TryFromSome.mpr ⟨stepSmall,rfl⟩),exceptMapIdxAll fun len i found => ?_⟩
  obtain ⟨low,high⟩ := small len (List.mem_of_getElem? found)
  exact exceptBind.mpr ⟨_,okOrOk.mpr (i64CheckedAddSome.mpr ⟨⟨by omega,high⟩,rfl⟩),rfl⟩

theorem decodeStepsGo (some_ : promptLens ≠ []) (small : ∀ len ∈ promptLens, 0 ≤ len ∧ len+maxSteps < 2^63) :
    ∃ table, positionIdsForDecodeStepsBatch promptLens maxSteps = .ok table ∧
      ∀ step, step < maxSteps → table[step]? = some (promptLens.map fun len : Int => [len+(step : Int)]) := by
  refine ⟨(List.range maxSteps).map fun step : Nat => promptLens.map fun len : Int => [len+(step : Int)],?_,fun step before => ?_⟩
  · refine exceptMapAll fun step inside => positionIdsGo some_ fun len there => ?_
    have before := List.mem_range.mp inside
    have bounds := small len there
    omega
  · simp [before]

theorem promptLensGo (even : ∀ mask ∈ masks, mask.length = seqLen) (small : seqLen < 2^63) :
    promptLensFromAttentionMasks masks seqLen = .ok (masks.map fun mask => (validLen mask : Int)) := by
  refine promptLensAll.mpr ⟨fun mask inside => ⟨even mask inside,?_⟩,rfl⟩
  have within := validLenLe mask
  rw [even mask inside] at within
  omega

theorem ropeLast (mask : List Nat) (step : Nat) : (ropeRow (mask ++ List.replicate (step+1) 1)).getLastD 0 = validLen mask+step := by
  have counted : validLen (mask ++ List.replicate (step+1) 1) = validLen mask+(step+1) := by
    simp [validLen,List.countP_append,List.countP_replicate]
  have split : mask ++ List.replicate (step+1) 1 = (mask ++ List.replicate step 1) ++ [1] := by
    rw [List.replicate_succ',List.append_assoc]
  have last : (ropeRow (mask ++ List.replicate (step+1) 1)).getLast? =
      some ((validLen (mask ++ List.replicate (step+1) 1) : Int)-1) := by
    unfold ropeRow
    rw [split,List.zipIdx_append,List.map_append]
    have whole : (mask ++ (List.replicate step 1 ++ [1])).length ≤ mask.length+step+1 := by simp; omega
    simp [List.take_of_length_le whole]
  rw [List.getLastD_eq_getLast?,last,counted,Option.getD_some]
  omega

/- The position a step computes for a row is the one that the mask with the tokens so far gives its last column. -/
theorem stepMatchesRope (some_ : masks ≠ []) (even : ∀ mask ∈ masks, mask.length = seqLen) (small : seqLen+step+1 ≤ 2^24) :
    ∃ promptLens positionIds deltas, promptLensFromAttentionMasks masks seqLen = .ok promptLens ∧
      getRopeIndex (masks.map (· ++ List.replicate (step+1) 1)) = .ok (positionIds,deltas) ∧
      positionIdsForStep promptLens step = .ok (positionIds.map fun row => [row.getLastD 0]) := by
  have wide : ((masks.map (· ++ List.replicate (step+1) 1)).map List.length).headD 0 ≠ 0 := by
    obtain ⟨mask,rest,rfl⟩ := List.exists_cons_of_ne_nil some_
    simp
  refine ⟨_,_,_,promptLensGo even (by omega),if_neg wide,?_⟩
  rw [positionIdsGo (by simpa using some_) fun len inside => ?_]
  · simp only [List.map_map]
    refine congrArg Except.ok (List.map_congr_left fun mask _ => ?_)
    exact congrArg (fun p => [p]) (ropeLast mask step).symm
  · obtain ⟨mask,there,rfl⟩ := List.mem_map.mp inside
    have within := validLenLe mask
    rw [even mask there] at within
    omega

end Positions

section Prefill
variable {thinker : CausalThinker φ η κ} {inputIds attentionMask : Grid Nat} {maxNewTokens : Nat} {dense : Bool}

structure PaddedBatch (inputIds attentionMask : Grid Nat) : Prop where
  nonempty : inputIds.rows ≠ []
  counted : attentionMask.rows.length = inputIds.rows.length
  width : attentionMask.width = inputIds.width
  rows : ∀ (i : Nat) (ids mask : List Nat), inputIds.rows[i]? = some ids → attentionMask.rows[i]? = some mask →
    PaddedRow ids mask ∧ 0 < validLen mask

def rowAt (g : Grid Nat) (i : Nat) : List Nat := g.rows.getD i []

theorem batchRows (padded : PaddedBatch inputIds attentionMask) {i : Nat} (inside : i < inputIds.rows.length) :
    inputIds.rows[i]? = some (rowAt inputIds i) ∧ attentionMask.rows[i]? = some (rowAt attentionMask i) ∧
      PaddedRow (rowAt inputIds i) (rowAt attentionMask i) ∧ 0 < validLen (rowAt attentionMask i) := by
  have ids : inputIds.rows[i]? = some (rowAt inputIds i) := by
    simp [rowAt,List.getD_eq_getElem?_getD,inside]
  have mask : attentionMask.rows[i]? = some (rowAt attentionMask i) := by
    simp [rowAt,List.getD_eq_getElem?_getD,padded.counted,inside]
  exact ⟨ids,mask,padded.rows i _ _ ids mask⟩

theorem batchWide (padded : PaddedBatch inputIds attentionMask) : 0 < inputIds.rows.length ∧ 0 < inputIds.width := by
  have first : 0 < inputIds.rows.length := List.length_pos_of_ne_nil padded.nonempty
  obtain ⟨_,mask,_,some_⟩ := batchRows padded first
  have within := validLenLe (rowAt attentionMask 0)
  rw [Grid.rowLength mask,padded.width] at within
  omega

theorem prefillGoes (thinker : CausalThinker φ η κ) (padded : PaddedBatch inputIds attentionMask)
    (sized : Sized inputIds.rows.length inputIds.width maxNewTokens) :
    ∃ logits cache, fullPrefill thinker inputIds attentionMask none
        (withMaxSeqLen thinker.layers.length (inputIds.width+maxNewTokens)) = .ok (logits,cache) ∧
      cache.maxSeqLen = some (inputIds.width+maxNewTokens) := by
  have positions := sized.positions
  obtain ⟨first,wide⟩ := batchWide padded
  obtain ⟨embeds,embedded⟩ := @inputsEmbedsGo _ _ _ inputIds none thinker _ (placeholdersOwn inputIds.rows)
    fun audio absent => by cases absent
  obtain ⟨_,embedRows,embedWidth⟩ := (inputsEmbedsOk (placeholdersOwn inputIds.rows)).mp embedded
  have size : embeds.rows.length = inputIds.rows.length := by rw [embedRows,List.length_map,columnsCount]
  have masked : attentionMask.rows ≠ [] := List.ne_nil_of_length_pos (by rw [padded.counted]; exact first)
  obtain ⟨positionIds,rope⟩ := ropePositionsGo masked (by rw [padded.width]; omega)
  obtain ⟨ropeRows,ropeWidth⟩ := ropePositionsOk rope
  have same : SameShape embeds positionIds :=
    ⟨by rw [ropeRows,List.length_map,padded.counted,size],by rw [ropeWidth,padded.width,embedWidth]⟩
  have fresh := freshHolds thinker thinker.layers.length (inputIds.width+maxNewTokens) embeds.rows.length
  have fits : PassFits (withMaxSeqLen thinker.layers.length (inputIds.width+maxNewTokens) : KVCache κ) embeds.rows.length 0
      embeds.width := {
    room := fun maxLen reserved => by
      cases reserved
      omega
    flash := flashFits.mpr (.inr (by
      have columns := sized.columns
      have half : inputIds.rows.length*inputIds.width ≤ inputIds.rows.length*(inputIds.width+inputIds.width) :=
        Nat.mul_le_mul_left _ (Nat.le_add_right _ _)
      rw [size,embedWidth,Nat.zero_add]
      exact ⟨Nat.lt_of_le_of_lt half columns,columns⟩))}
  obtain ⟨logits,cache,ran⟩ := forwardEmbedsGo same fresh fits (by omega) (by omega) (padded.counted.trans size.symm)
    (by rw [padded.width,embedWidth,Nat.zero_add])
  have left := forwardEmbedsRan ran same fresh
  exact ⟨logits,cache,exceptBind.mpr ⟨embeds,embedded,exceptBind.mpr ⟨positionIds,rope,ran⟩⟩,left.reserved⟩

/- After the prefill every row holds its prompt with the padding, and picks what it goes on with. -/
theorem prefillFed (thinker : CausalThinker φ η κ) (padded : PaddedBatch inputIds attentionMask)
    (sized : Sized inputIds.rows.length inputIds.width maxNewTokens)
    (unmasked : dense = true → ∀ mask ∈ attentionMask.rows, attentionMaskIsDense mask = true) :
    ∃ logits cache, fullPrefill thinker inputIds attentionMask none
        (withMaxSeqLen thinker.layers.length (inputIds.width+maxNewTokens)) = .ok (logits,cache) ∧
      logits.rows.length = inputIds.rows.length ∧ logits.width = inputIds.width ∧
      (∀ i, i < inputIds.rows.length → ∃ row, logits.rows[i]? = some row ∧
        row.getD (validLen (rowAt attentionMask i)-1) 0 =
          nextToken thinker (rowTokens (rowAt inputIds i) (rowAt attentionMask i) [])) ∧
      Fed thinker dense inputIds.rows.length inputIds.width (inputIds.width+maxNewTokens)
        (fun i => rowInputs thinker (rowAt inputIds i) (rowAt attentionMask i) []) ⟨cache,attentionMask⟩ := by
  obtain ⟨logits,cache,ran,reserved⟩ := prefillGoes thinker padded sized
  have full := fullPrefillOk ran
  have each (i : Nat) (inside : i < inputIds.rows.length) :
      RowCached thinker cache i (promptInputs thinker (tokenColumns (rowAt inputIds i)) (rowAt attentionMask i)) ∧
      logits.rows[i]? = some (picks thinker (promptInputs thinker (tokenColumns (rowAt inputIds i)) (rowAt attentionMask i))) := by
    obtain ⟨ids,mask,_⟩ := batchRows padded inside
    have columns : (columnsOf thinker.audioTokenId (none : Option (List φ)) inputIds.rows)[i]? =
        some (tokenColumns (rowAt inputIds i)) := by
      rw [columnsOf,embedTokens,List.getElem?_map,ids]
      rfl
    exact full.rows i _ _ columns mask
  refine ⟨logits,cache,ran,full.logitRows,full.logitWidth,fun i inside => ?_,{
    holds := full.holds
    reserved
    cached := fun i inside => by
      rw [rowInputsNil]
      exact (each i inside).1
    length := fun i inside => by
      obtain ⟨ids,mask,row,_⟩ := batchRows padded inside
      rw [rowInputsLength row.same,← row.same,Grid.rowLength ids]
      rfl
    unmasked := fun same i inside c there => ?_
    masked := fun _ => ⟨padded.counted,padded.width,fun i inside => ?_⟩}⟩
  · obtain ⟨_,_,row,some_⟩ := batchRows padded inside
    exact ⟨_,(each i inside).2,pickedFirst row some_⟩
  · obtain ⟨_,mask,row,_⟩ := batchRows padded inside
    have valid : ∀ m ∈ rowAt attentionMask i, m ≠ 0 := by
      simpa [attentionMaskIsDense] using unmasked same _ (List.mem_of_getElem? mask)
    have bits := (promptParts thinker (by rw [tokenColumnsLength,row.same] : (tokenColumns (rowAt inputIds i) :
      List (Column φ)).length = (rowAt attentionMask i).length)).2.2
    rw [rowInputsNil] at there
    have bit : c.holds ∈ holdsBits (rowAt attentionMask i) := by
      rw [← bits]
      exact List.mem_map_of_mem there
    obtain ⟨m,found,here⟩ := List.mem_map.mp bit
    rw [← here]
    exact decide_eq_true (valid m found)
  · obtain ⟨_,mask,row,_⟩ := batchRows padded inside
    have bits := (promptParts thinker (by rw [tokenColumnsLength,row.same] : (tokenColumns (rowAt inputIds i) :
      List (Column φ)).length = (rowAt attentionMask i).length)).2.2
    refine ⟨_,mask,?_⟩
    rw [rowInputsNil]
    exact bits.symm

end Prefill

section Loops
variable {thinker : CausalThinker φ η κ} {dense : Bool} {batch seqLen step maxNewTokens : Nat} {ids masks feds : Nat → List Nat}
  {promptLens : List Int} {columns : CachedColumns κ} {eosTokenIds : List Nat}

structure Decoding (thinker : CausalThinker φ η κ) (dense : Bool) (batch seqLen maxNewTokens : Nat) (ids masks : Nat → List Nat)
    (promptLens : List Int) (step : Nat) (feds : Nat → List Nat) (columns : CachedColumns κ) : Prop where
  rows : ∀ i, i < batch → PaddedRow (ids i) (masks i)
  counted : promptLens.length = batch
  lens : ∀ i, i < batch → promptLens[i]? = some (validLen (masks i) : Int)
  steps : ∀ i, i < batch → (feds i).length = step
  small : seqLen+maxNewTokens ≤ 2^24
  fed : Fed thinker dense batch (seqLen+step) (seqLen+maxNewTokens) (fun i => rowInputs thinker (ids i) (masks i) (feds i)) columns

theorem fedCongr {len reserve : Nat} {all all' : Nat → List (Input η Int)} (fed : Fed thinker dense batch len reserve all columns)
    (same : ∀ i, i < batch → all i = all' i) : Fed thinker dense batch len reserve all' columns where
  holds := fed.holds
  reserved := fed.reserved
  cached i inside := same i inside ▸ fed.cached i inside
  length i inside := same i inside ▸ fed.length i inside
  unmasked dense i inside := same i inside ▸ fed.unmasked dense i inside
  masked dense := by
    obtain ⟨rows,width,each⟩ := fed.masked dense
    exact ⟨rows,width,fun i inside => same i inside ▸ each i inside⟩

theorem decodingNext (decoding : Decoding thinker dense batch seqLen maxNewTokens ids masks promptLens step feds columns)
    (room : step < maxNewTokens) {tokens : List Nat} (counted : tokens.length = batch) :
    ∃ next columns', decodeColumn thinker dense (promptLens.map fun len => [len+step]) tokens columns = .ok (next,columns') ∧
      Decoding thinker dense batch seqLen maxNewTokens ids masks promptLens (step+1) (fun i => feds i ++ [tokens.getD i 0])
        columns' ∧
      next.length = batch ∧ ∀ i, i < batch → next[i]? =
        some (nextToken thinker (rowTokens (ids i) (masks i) (feds i ++ [tokens.getD i 0]))) := by
  have small := decoding.small
  have placed : (promptLens.map (· + (step : Int))).length = batch := by rw [List.length_map,decoding.counted]
  have column (i : Nat) (inside : i < batch) : fedColumn thinker (promptLens.map (· + (step : Int))) tokens i =
      ⟨thinker.embed ⟨tokens.getD i 0,none⟩,((validLen (masks i)+(feds i).length : Nat) : Int),true⟩ := by
    simp [fedColumn,List.getD_eq_getElem?_getD,decoding.lens i inside,decoding.steps i inside]
  obtain ⟨next,columns',ran,fed,length,picked⟩ := decodeColumnGoes decoding.fed (by omega) (by omega) counted placed
  have all (i : Nat) (inside : i < batch) : rowInputs thinker (ids i) (masks i) (feds i) ++
      [fedColumn thinker (promptLens.map (· + (step : Int))) tokens i] =
        rowInputs thinker (ids i) (masks i) (feds i ++ [tokens.getD i 0]) := by
    rw [column i inside,rowInputsNext]
  refine ⟨next,columns',?_,{decoding with
    steps := fun i inside => by simp [decoding.steps i inside]
    fed := fedCongr fed all},length,fun i inside => ?_⟩
  · rw [List.map_map] at ran
    exact ran
  · rw [picked i inside,all i inside,pickedNext (decoding.rows i inside)]
    rfl

def chosen (thinker : CausalThinker φ η κ) (prompt : List Nat) (out : List Nat) : Nat := nextToken thinker (prompt ++ out)

theorem cachedFrom {table : List (List (List Int))} (tabled : ∀ step, step < maxNewTokens →
      table[step]? = some (promptLens.map fun len => [len+(step : Int)])) (left : Nat)
    (decoding : Decoding thinker dense 1 seqLen maxNewTokens ids masks promptLens step feds columns)
    (limit : step+left = maxNewTokens) :
    generateCachedFrom thinker dense eosTokenIds table left step
      (chosen thinker (rowTokens (ids 0) (masks 0) []) (feds 0)) (feds 0) columns =
        .ok (greedyFrom (chosen thinker (rowTokens (ids 0) (masks 0) [])) eosTokenIds.contains left (feds 0)) := by
  induction left generalizing step feds columns with
  | zero => rfl
  | succ left ih =>
    generalize pending : chosen thinker (rowTokens (ids 0) (masks 0) []) (feds 0) = token
    unfold generateCachedFrom greedyFrom
    rw [pending]
    split
    · rfl
    · obtain ⟨next,columns',ran,rest,_,picked⟩ := @decodingNext _ _ _ _ _ _ _ _ _ _ _ _ _ _ decoding (by omega) [token] rfl
      have tokens : rowTokens (ids 0) (masks 0) (feds 0 ++ [token]) = rowTokens (ids 0) (masks 0) [] ++ (feds 0 ++ [token]) := by
        simp [rowTokens]
      have head : next.headD 0 = chosen thinker (rowTokens (ids 0) (masks 0) []) (feds 0 ++ [token]) := by
        rw [chosen,← tokens,List.headD_eq_head?_getD,List.head?_eq_getElem?,picked 0 Nat.zero_lt_one]
        rfl
      refine exceptBind.mpr ⟨_,okOrOk.mpr (tabled step (by omega)),exceptBind.mpr ⟨_,ran,?_⟩⟩
      dsimp only
      rw [head]
      exact ih rest (by omega)

/- A row of the batch against its own run: what it has is a part of it, or all of it. -/
structure RowUnder (thinker : CausalThinker φ η κ) (eosTokenIds prompt answer : List Nat) (left : Nat) (row : EagerRow)
    (fed : List Nat) : Prop where
  done : row.finished = true → row.generated = answer
  going : row.finished = false → fed = row.generated ∧ row.nextId = chosen thinker prompt fed ∧
    greedyFrom (chosen thinker prompt) eosTokenIds.contains left fed = answer

theorem rowStarts (thinker : CausalThinker φ η κ) (eosTokenIds prompt : List Nat) {nextId : Nat}
    (picked : nextId = chosen thinker prompt []) : RowUnder thinker eosTokenIds prompt
      (greedy (chosen thinker prompt) eosTokenIds.contains maxNewTokens) maxNewTokens
      ⟨nextId,[],eosTokenIds.contains nextId⟩ [] where
  done finished := by
    dsimp only at finished ⊢
    rw [picked] at finished
    cases maxNewTokens with
    | zero => rfl
    | succ limit => rw [greedy,greedyFrom,if_pos finished]
  going _ := ⟨rfl,picked,rfl⟩

theorem rowTaken {prompt answer fed : List Nat} {left : Nat} {row : EagerRow}
    (under : RowUnder thinker eosTokenIds prompt answer (left+1) row fed) {next : Nat}
    (picked : next = chosen thinker prompt (fed ++ [(takePending eosTokenIds row).2])) :
    RowUnder thinker eosTokenIds prompt answer left {(takePending eosTokenIds row).1 with nextId := next}
      (fed ++ [(takePending eosTokenIds row).2]) := by
  cases finished : row.finished with
  | true =>
    have taken : takePending eosTokenIds row = (row,eosTokenIds.headD 0) := if_pos finished
    rw [taken]
    exact ⟨fun _ => under.done finished,fun going => by cases finished.symm.trans going⟩
  | false =>
    have awake : ¬row.finished = true := by simp [finished]
    obtain ⟨rfl,pending,answered⟩ := under.going finished
    rw [greedyFrom,← pending] at answered
    by_cases stop : eosTokenIds.contains row.nextId = true
    · have taken : takePending eosTokenIds row = ({row with finished := true},eosTokenIds.headD 0) :=
        (if_neg awake).trans (if_pos stop)
      rw [if_pos stop] at answered
      rw [taken]
      exact ⟨fun _ => answered,fun going => by cases going⟩
    · have taken : takePending eosTokenIds row = ({row with generated := row.generated ++ [row.nextId]},row.nextId) :=
        (if_neg awake).trans (if_neg stop)
      rw [if_neg stop] at answered
      rw [taken] at picked ⊢
      exact ⟨fun done => (by cases finished.symm.trans done),fun _ => ⟨rfl,picked,answered⟩⟩

theorem rowAnswered {prompt answer fed : List Nat} {row : EagerRow} {left : Nat}
    (under : RowUnder thinker eosTokenIds prompt answer left row fed) (through : left = 0 ∨ row.finished = true) :
    row.generated = answer := by
  cases finished : row.finished with
  | true => exact under.done finished
  | false =>
    rcases through with rfl | done
    · obtain ⟨rfl,_,answered⟩ := under.going finished
      exact answered
    · cases finished.symm.trans done

/- The loop over a batch gives every row its own run, whenever the others finish. -/
theorem rowsFrom {table : List (List (List Int))} (tabled : ∀ step, step < maxNewTokens →
      table[step]? = some (promptLens.map fun len => [len+(step : Int)])) {answers : Nat → List Nat} (left : Nat)
    (decoding : Decoding thinker dense batch seqLen maxNewTokens ids masks promptLens step feds columns)
    (limit : step+left = maxNewTokens) {rows : List EagerRow} (counted : rows.length = batch)
    (under : ∀ i row, rows[i]? = some row →
      RowUnder thinker eosTokenIds (rowTokens (ids i) (masks i) []) (answers i) left row (feds i)) :
    ∃ out, generateRowsFrom thinker dense eosTokenIds table left step rows columns = .ok out ∧ out.length = batch ∧
      ∀ i row, out[i]? = some row → row.generated = answers i := by
  induction left generalizing step feds columns rows with
  | zero => exact ⟨rows,rfl,counted,fun i row found => rowAnswered (under i row found) (.inl rfl)⟩
  | succ left ih =>
    unfold generateRowsFrom
    split
    · next all =>
      have finished : ∀ row ∈ rows, row.finished = true := by simpa using all
      exact ⟨rows,rfl,counted,fun i row found => rowAnswered (under i row found) (.inr (finished row (List.mem_of_getElem? found)))⟩
    · have fedCount : ((rows.map (takePending eosTokenIds)).map Prod.snd).length = batch := by simp [counted]
      obtain ⟨next,columns',ran,rest,length,picked⟩ := decodingNext decoding (by omega) fedCount
      have pendings : (pendingRows next ((rows.map (takePending eosTokenIds)).map Prod.fst)).length = batch := by
        simp [pendingRows,length,counted]
      obtain ⟨out,through,outCount,answered⟩ := ih rest (by omega) pendings fun i row found => by
        unfold pendingRows at found
        obtain ⟨taken,nextId,there,here,rfl⟩ := List.getElem?_zipWith_eq_some.mp found
        rw [List.map_map,List.getElem?_map] at there
        obtain ⟨old,before,rfl⟩ := Option.map_eq_some_iff.mp there
        have inside : i < batch := counted ▸ (List.getElem?_eq_some_iff.mp before).1
        have token : ((rows.map (takePending eosTokenIds)).map Prod.snd).getD i 0 = (takePending eosTokenIds old).2 := by
          simp [List.getD_eq_getElem?_getD,before]
        have choice := picked i inside
        rw [here,token] at choice
        rw [token]
        refine rowTaken (under i old before) ((Option.some.inj choice).trans ?_)
        simp [chosen,rowTokens]
      exact ⟨out,exceptBind.mpr ⟨_,okOrOk.mpr (tabled step (by omega)),exceptBind.mpr ⟨_,ran,through⟩⟩,outCount,answered⟩

end Loops

section Single
variable {thinker : CausalThinker φ η κ} {ids attn eosTokenIds : List Nat} {maxNewTokens : Nat}

theorem singleBatch (plain : Unpadded ids attn) {inputIds attentionMask : Grid Nat} (idRows : inputIds.rows = [ids])
    (maskRows : attentionMask.rows = [attn]) (width : attentionMask.width = inputIds.width) : PaddedBatch inputIds attentionMask where
  nonempty := by simp [idRows]
  counted := by simp [idRows,maskRows]
  width := width
  rows i ids' mask found masked := by
    obtain ⟨row,counted,_⟩ := unpaddedRow plain
    have long : 0 < ids.length := List.length_pos_of_ne_nil plain.nonempty
    rw [idRows] at found
    rw [maskRows] at masked
    cases i with
    | zero =>
      cases found
      cases masked
      exact ⟨row,by omega⟩
    | succ i => cases found

theorem cachedGreedy (thinker : CausalThinker φ η κ) (some_ : eosTokenIds ≠ []) (plain : Unpadded ids attn)
    (sized : Sized 1 ids.length maxNewTokens) : greedyGenerateCached thinker eosTokenIds ids attn none maxNewTokens =
      .ok (greedy (chosen thinker ids) eosTokenIds.contains maxNewTokens) := by
  obtain ⟨row,counted,tokens⟩ := unpaddedRow plain
  have positions := sized.positions
  refine exceptBind.mpr ⟨(),singleChecksGo some_ plain,?_⟩
  split
  · next none_ =>
    rw [none_]
    rfl
  · have evenIds : ∀ row ∈ [ids], row.length = ids.length := by simp
    have evenMask : ∀ row ∈ [attn], row.length = ids.length := by simp [plain.same]
    obtain ⟨inputIds,made⟩ := tensorGoes evenIds
    obtain ⟨attentionMask,masked⟩ := tensorGoes evenMask
    obtain ⟨idRows,idWidth,_⟩ := tensorOk.mp made
    obtain ⟨maskRows,maskWidth,_⟩ := tensorOk.mp masked
    have size : inputIds.rows.length = 1 := by simp [idRows]
    have here : rowAt inputIds 0 = ids ∧ rowAt attentionMask 0 = attn := by simp [rowAt,idRows,maskRows]
    obtain ⟨logits,cache,ran,logitRows,logitWidth,picked,fed⟩ := @prefillFed _ _ _ _ _ _ (attentionMaskIsDense attn) thinker
      (singleBatch plain idRows maskRows (maskWidth.trans idWidth.symm)) (by rw [size,idWidth]; exact sized)
      (by simp [maskRows])
    rw [idWidth] at ran logitWidth fed
    rw [size] at picked fed
    obtain ⟨first,found,next⟩ := picked 0 Nat.zero_lt_one
    rw [here.1,here.2,tokens,counted] at next
    have last : lastPick logits = chosen thinker (rowTokens (rowAt inputIds 0) (rowAt attentionMask 0) []) [] := by
      rw [here.1,here.2,tokens,chosen,List.append_nil,← next,lastPick,logitWidth,List.headD_eq_head?_getD,
        List.head?_eq_getElem?,found]
      rfl
    obtain ⟨table,tabled,steps⟩ := @decodeStepsGo [(ids.length : Int)] maxNewTokens (List.cons_ne_nil _ _) fun len inside => by
      cases List.mem_singleton.mp inside
      omega
    have decoding : Decoding thinker (attentionMaskIsDense attn) 1 ids.length maxNewTokens (rowAt inputIds) (rowAt attentionMask)
        [(ids.length : Int)] 0 (fun _ => []) ⟨cache,attentionMask⟩ := {
      rows := fun i inside => by
        obtain rfl : i = 0 := by omega
        rw [here.1,here.2]
        exact row
      counted := rfl
      lens := fun i inside => by
        obtain rfl : i = 0 := by omega
        rw [here.2,counted]
        rfl
      steps := fun _ _ => rfl
      small := positions
      fed}
    have loop := @cachedFrom _ _ _ _ _ _ _ _ _ _ _ _ _ eosTokenIds table steps maxNewTokens decoding (Nat.zero_add _)
    have len : promptLenFromLeftPaddedMask attn ids.length = .ok (ids.length : Int) := by
      unfold promptLenFromLeftPaddedMask
      rw [if_neg (not_not.mpr plain.same)]
      exact okOrOk.mpr (i64TryFromSome.mpr ⟨by omega,by rw [counted]⟩)
    rw [← last,here.1,here.2,tokens] at loop
    exact exceptBind.mpr ⟨_,kvCacheOk.mpr ⟨by omega,rfl⟩,exceptBind.mpr ⟨inputIds,made,exceptBind.mpr ⟨attentionMask,masked,
      exceptBind.mpr ⟨(logits,cache),ran,exceptBind.mpr ⟨_,len,exceptBind.mpr ⟨table,tabled,loop⟩⟩⟩⟩⟩⟩

end Single

section Batch
variable {thinker : CausalThinker φ η κ} {inputIds attentionMask : List (List Nat)} {eosTokenIds : List Nat}
  {seqLen maxNewTokens : Nat}

structure RightPadded (inputIds attentionMask : List (List Nat)) (seqLen : Nat) : Prop where
  counted : attentionMask.length = inputIds.length
  ids : ∀ row ∈ inputIds, row.length = seqLen
  masks : ∀ mask ∈ attentionMask, mask.length = seqLen ∧ attentionMaskIsRightPadded mask = true ∧ 0 < validLen mask

theorem checksGo (padded : RightPadded inputIds attentionMask seqLen) (nonempty : inputIds ≠ []) (some_ : eosTokenIds ≠ []) :
    ∃ ids mask, batchChecks inputIds attentionMask eosTokenIds = .ok (ids,mask) ∧ ids.rows = inputIds ∧
      mask.rows = attentionMask ∧ ids.width = seqLen ∧ PaddedBatch ids mask := by
  have first : 0 < inputIds.length := List.length_pos_of_ne_nil nonempty
  have head : (inputIds.headD []).length = seqLen := by
    obtain ⟨row,rows,rfl⟩ := List.exists_cons_of_ne_nil nonempty
    exact padded.ids row List.mem_cons_self
  have masked : attentionMask ≠ [] := List.ne_nil_of_length_pos (by rw [padded.counted]; exact first)
  have wide : seqLen ≠ 0 := by
    obtain ⟨mask,masks,rfl⟩ := List.exists_cons_of_ne_nil masked
    obtain ⟨length,_,valid⟩ := padded.masks mask List.mem_cons_self
    have within := validLenLe mask
    omega
  obtain ⟨ids,made⟩ := tensorGoes padded.ids
  obtain ⟨mask,madeMask⟩ := tensorGoes fun mask inside => (padded.masks mask inside).1
  obtain ⟨idRows,idWidth,_⟩ := tensorOk.mp made
  obtain ⟨maskRows,maskWidth,_⟩ := tensorOk.mp madeMask
  refine ⟨ids,mask,?_,idRows,maskRows,idWidth,{
    nonempty := by rwa [idRows]
    counted := by rw [maskRows,idRows,padded.counted]
    width := maskWidth.trans idWidth.symm
    rows := fun i row mask found there => ?_}⟩
  · unfold batchChecks
    dsimp only
    rw [if_neg (not_not.mpr padded.counted),head,if_neg wide,if_neg some_]
    refine exceptBind.mpr ⟨_,exceptMapIdxAll (g := fun _ => ()) fun row i found => ?_,
      exceptBind.mpr ⟨_,exceptMapIdxAll (g := fun _ => ()) fun row i found => ?_,
        exceptBind.mpr ⟨ids,made,exceptBind.mpr ⟨mask,madeMask,rfl⟩⟩⟩⟩
    · exact if_neg (not_not.mpr (padded.ids row (List.mem_of_getElem? found)))
    · exact if_neg (not_not.mpr (padded.masks row (List.mem_of_getElem? found)).1)
  · rw [idRows] at found
    rw [maskRows] at there
    obtain ⟨length,right,valid⟩ := padded.masks mask (List.mem_of_getElem? there)
    exact ⟨⟨(padded.ids row (List.mem_of_getElem? found)).trans length.symm,right⟩,valid⟩

theorem prefillBatchGoes (thinker : CausalThinker φ η κ) {ids mask : Grid Nat} (padded : PaddedBatch ids mask)
    (sized : Sized ids.rows.length ids.width maxNewTokens) (templates : Templates κ) (dense : Bool)
    (unmasked : dense = true → ∀ row ∈ mask.rows, attentionMaskIsDense row = true) :
    ∃ p, prefillBatch thinker ids mask ⟨none,maxNewTokens,eosTokenIds⟩ templates = .ok p templates ∧
      p.nextIds.length = ids.rows.length ∧
      (∀ i nextId, p.nextIds[i]? = some nextId →
        nextId = chosen thinker (rowTokens (rowAt ids i) (rowAt mask i) []) []) ∧
      Decoding thinker dense ids.rows.length ids.width maxNewTokens (rowAt ids) (rowAt mask) p.promptLens 0 (fun _ => [])
        ⟨p.cache,mask⟩ := by
  have positions := sized.positions
  obtain ⟨logits,cache,ran,logitRows,logitWidth,picked,fed⟩ := prefillFed thinker padded sized unmasked
  have even : ∀ row ∈ mask.rows, row.length = ids.width := fun row inside => (mask.rectangular row inside).trans padded.width
  have lens := promptLensGo even (by omega)
  generalize counts : (mask.rows.map fun row => (validLen row : Int)) = promptLens at lens
  have size : promptLens.length = ids.rows.length := by rw [← counts,List.length_map,padded.counted]
  have lenAt (i : Nat) (inside : i < ids.rows.length) : promptLens[i]? = some (validLen (rowAt mask i) : Int) := by
    obtain ⟨_,masked,_⟩ := batchRows padded inside
    rw [← counts,List.getElem?_map,masked]
    rfl
  have fits : ∀ q ∈ promptLens.zipIdx, 0 < q.1 ∧ q.1.toNat ≤ logits.width ∧ q.2*logits.width+(q.1.toNat-1) < 2^32 := by
    rintro ⟨len,i⟩ inside
    have there : promptLens[i]? = some len := List.mem_zipIdx_iff_getElem?.mp inside
    have bound : i < ids.rows.length := size ▸ (List.getElem?_eq_some_iff.mp there).1
    obtain ⟨_,masked,_,valid⟩ := batchRows padded bound
    obtain rfl := Option.some.inj ((lenAt i bound).symm.trans there)
    have within := validLenLe (rowAt mask i)
    rw [Grid.rowLength masked,padded.width] at within
    have before : (i+1)*ids.width ≤ ids.rows.length*(ids.width+ids.width) :=
      Nat.le_trans (Nat.mul_le_mul_right _ bound) (Nat.mul_le_mul_left _ (Nat.le_add_right _ _))
    have columns := sized.columns
    rw [Nat.succ_mul] at before
    rw [logitWidth]
    dsimp only
    omega
  have next := nextIdsOk.mpr ⟨size.trans logitRows.symm,fits,rfl⟩
  generalize made : (promptLens.zipIdx.map fun q => (logits.rows.getD q.2 []).getD (q.1.toNat-1) 0) = nextIds at next
  refine ⟨⟨cache,promptLens,nextIds⟩,?_,by simp [← made,size],fun i nextId found => ?_,{
    rows := fun i inside => (batchRows padded inside).2.2.1
    counted := size
    lens := lenAt
    steps := fun _ _ => rfl
    small := positions
    fed}⟩
  · have absent : cachedPrefix thinker ids mask (none : Option (List φ)) templates = none := rfl
    have stored : storePrefix thinker ids mask (none : Option (List φ)) cache templates = .ok () templates := rfl
    unfold prefillBatch
    rw [attemptThen (kvCacheOk.mpr ⟨by dsimp only; omega,rfl⟩),attemptThen lens,bindThen (getRun templates)]
    dsimp only
    rw [absent]
    dsimp only
    unfold wholePrefill
    rw [attemptThen ran]
    dsimp only
    rw [bindThen stored,attemptThen next]
    rfl
  · have inside : i < ids.rows.length := by
      have bound := (List.getElem?_eq_some_iff.mp found).1
      simpa [← made,size] using bound
    obtain ⟨row,there,same⟩ := picked i inside
    have column : nextIds[i]? = some (row.getD (validLen (rowAt mask i)-1) 0) := by
      simp [← made,List.getElem?_zipIdx,lenAt i inside,there,List.getD_eq_getElem?_getD]
    rw [chosen,List.append_nil,← same]
    exact Option.some.inj (found.symm.trans column)

theorem decodeGoes {ids mask : Grid Nat} {p : EagerPrefilled κ} (nonempty : ids.rows ≠ []) (counted : p.nextIds.length = ids.rows.length)
    (picked : ∀ i nextId, p.nextIds[i]? = some nextId →
      nextId = chosen thinker (rowTokens (rowAt ids i) (rowAt mask i) []) [])
    (decoding : Decoding thinker (attentionMasksAreDense mask.rows) ids.rows.length ids.width maxNewTokens (rowAt ids)
      (rowAt mask) p.promptLens 0 (fun _ => []) ⟨p.cache,mask⟩) :
    ∃ out, decodePrefilled thinker mask ⟨none,maxNewTokens,eosTokenIds⟩ p = .ok out ∧ out.length = ids.rows.length ∧
      ∀ i row, out[i]? = some row → row =
        greedy (chosen thinker (rowTokens (rowAt ids i) (rowAt mask i) [])) eosTokenIds.contains maxNewTokens := by
  have first : 0 < ids.rows.length := List.length_pos_of_ne_nil nonempty
  have small := decoding.small
  have some_ : p.promptLens ≠ [] := List.ne_nil_of_length_pos (by rw [decoding.counted]; exact first)
  obtain ⟨table,tabled,steps⟩ := @decodeStepsGo _ maxNewTokens some_ fun len inside => by
    obtain ⟨i,found⟩ := List.mem_iff_getElem?.mp inside
    have bound : i < ids.rows.length := decoding.counted ▸ (List.getElem?_eq_some_iff.mp found).1
    obtain rfl := Option.some.inj ((decoding.lens i bound).symm.trans found)
    have fed := decoding.fed.length i bound
    have within := validLenLe (rowAt mask i)
    rw [rowInputsLength (decoding.rows i bound).same] at fed
    simp only [List.length_nil] at fed
    omega
  have starts (i : Nat) (row : EagerRow)
      (found : (p.nextIds.map fun nextId => (⟨nextId,[],eosTokenIds.contains nextId⟩ : EagerRow))[i]? = some row) :
      RowUnder thinker eosTokenIds (rowTokens (rowAt ids i) (rowAt mask i) [])
        (greedy (chosen thinker (rowTokens (rowAt ids i) (rowAt mask i) [])) eosTokenIds.contains maxNewTokens)
        maxNewTokens row [] := by
    rw [List.getElem?_map] at found
    obtain ⟨nextId,there,rfl⟩ := Option.map_eq_some_iff.mp found
    exact rowStarts thinker eosTokenIds _ (picked i nextId there)
  obtain ⟨rows,ran,length,answers⟩ := rowsFrom steps maxNewTokens decoding (Nat.zero_add _) (by simpa using counted) starts
  refine ⟨rows.map EagerRow.generated,exceptBind.mpr ⟨table,tabled,exceptBind.mpr ⟨rows,ran,rfl⟩⟩,by simp [length],
    fun i row found => ?_⟩
  rw [List.getElem?_map] at found
  obtain ⟨last,there,rfl⟩ := Option.map_eq_some_iff.mp found
  exact answers i last there

theorem unpaddedPart {ids mask : List Nat} (row : PaddedRow ids mask) (some_ : 0 < validLen mask) :
    Unpadded (ids.take (validLen mask)) (mask.take (validLen mask)) := by
  have within := validLenLe mask
  have same := row.same
  refine ⟨List.ne_nil_of_length_pos ?_,?_,(frontValid row.padded).1⟩
  · rw [List.length_take]
    omega
  · rw [List.length_take,List.length_take,same]

theorem batchGreedy (thinker : CausalThinker φ η κ) (some_ : eosTokenIds ≠ []) (templates : Templates κ)
    (padded : RightPadded inputIds attentionMask seqLen) (sized : Sized inputIds.length seqLen maxNewTokens) :
    ∃ out, greedyGenerateCachedBatch thinker inputIds attentionMask ⟨none,maxNewTokens,eosTokenIds⟩ templates = .ok out templates ∧
      out.length = inputIds.length ∧ ∀ (i : Nat) (ids mask row : List Nat), inputIds[i]? = some ids →
        attentionMask[i]? = some mask → out[i]? = some row →
        row = greedy (chosen thinker (ids.take (validLen mask))) eosTokenIds.contains maxNewTokens := by
  unfold greedyGenerateCachedBatch
  by_cases nonempty : inputIds = []
  · subst nonempty
    exact ⟨[],rfl,rfl,fun i ids mask row found => by cases found⟩
  · obtain ⟨ids,mask,checked,idRows,maskRows,idWidth,batch⟩ := checksGo padded nonempty some_
    rw [if_neg nonempty,attemptThen checked]
    dsimp only
    split
    · next none_ =>
      refine ⟨_,rfl,List.length_replicate,fun i ids mask row _ _ found => ?_⟩
      rw [List.getElem?_replicate] at found
      split at found <;> cases found
      rw [none_]
      rfl
    · rw [← idRows,← idWidth] at sized
      have unmasked (dense : attentionMasksAreDense mask.rows = true) : ∀ row ∈ mask.rows, attentionMaskIsDense row = true := by
        simpa [attentionMasksAreDense] using dense
      obtain ⟨p,prefilled,counted,picked,decoding⟩ := @prefillBatchGoes _ _ _ eosTokenIds maxNewTokens thinker ids mask batch sized
        templates (attentionMasksAreDense mask.rows) unmasked
      obtain ⟨out,ran,length,answers⟩ := @decodeGoes _ _ _ thinker eosTokenIds _ _ _ _ batch.nonempty counted picked decoding
      refine ⟨out,(bindThen prefilled).trans (attemptOk.mpr ⟨ran,rfl⟩),by rw [length,idRows],fun i row mask' out' found there here => ?_⟩
      have idsAt : rowAt ids i = row := by simp [rowAt,List.getD_eq_getElem?_getD,idRows,found]
      have maskAt : rowAt mask i = mask' := by simp [rowAt,List.getD_eq_getElem?_getD,maskRows,there]
      have answer := answers i out' here
      rw [idsAt,maskAt,rowTokens,List.append_nil] at answer
      exact answer

section Overflow
variable {ids attn : List Nat}

theorem cacheRefuses (thinker : CausalThinker φ η κ) (large : 2^64 ≤ seqLen+maxNewTokens) :
    kvCacheForGeneration thinker seqLen maxNewTokens = .error "kv cache capacity overflow" := by
  have refused : checkedAdd seqLen maxNewTokens = none :=
    Option.eq_none_iff_forall_ne_some.mpr fun n found => absurd (checkedAddSome.mp found).1 (Nat.not_lt.mpr large)
  unfold kvCacheForGeneration
  rw [refused]
  rfl

theorem batchRefuses (thinker : CausalThinker φ η κ) (some_ : eosTokenIds ≠ []) (templates : Templates κ)
    (padded : RightPadded inputIds attentionMask seqLen) (nonempty : inputIds ≠ []) (asked : maxNewTokens ≠ 0)
    (large : 2^64 ≤ seqLen+maxNewTokens) :
    greedyGenerateCachedBatch thinker inputIds attentionMask ⟨none,maxNewTokens,eosTokenIds⟩ templates =
      .error "kv cache capacity overflow" templates := by
  obtain ⟨ids,mask,checked,_,_,idWidth,_⟩ := checksGo padded nonempty some_
  unfold greedyGenerateCachedBatch
  rw [if_neg nonempty,attemptThen checked]
  dsimp only
  rw [if_neg asked]
  unfold prefillBatch
  rw [idWidth,cacheRefuses thinker large]
  rfl

theorem cachedRefuses (thinker : CausalThinker φ η κ) (some_ : eosTokenIds ≠ []) (plain : Unpadded ids attn)
    (asked : maxNewTokens ≠ 0) (large : 2^64 ≤ ids.length+maxNewTokens) :
    greedyGenerateCached thinker eosTokenIds ids attn none maxNewTokens = .error "kv cache capacity overflow" := by
  unfold greedyGenerateCached
  rw [singleChecksGo some_ plain]
  change (if maxNewTokens = 0 then _ else _) = _
  rw [if_neg asked,cacheRefuses thinker large]
  rfl

end Overflow

/-- With sizes that are counted exactly, decoding a padded batch over one cache gives each row what decoding it
from scratch gives its tokens alone, as decoding them over a cache of their own does; and the positions of the tokens
fed are those of the mask with them. A capacity that leaves the word is refused. -/
theorem eagerGreedyAgrees (thinker : CausalThinker φ η κ) (eosTokenIds : List Nat) (some_ : eosTokenIds ≠ []) (maxNewTokens : Nat) :
    (∀ inputIds attentionMask seqLen templates, RightPadded inputIds attentionMask seqLen →
      Sized inputIds.length seqLen maxNewTokens →
      ∃ out, greedyGenerateCachedBatch thinker inputIds attentionMask ⟨none,maxNewTokens,eosTokenIds⟩ templates = .ok out templates ∧
        out.length = inputIds.length ∧
        ∀ (i : Nat) (ids mask row : List Nat), inputIds[i]? = some ids → attentionMask[i]? = some mask → out[i]? = some row →
          greedyGenerate thinker (ids.take (validLen mask)) (mask.take (validLen mask)) none maxNewTokens eosTokenIds = .ok row) ∧
    (∀ ids attn, Unpadded ids attn → Sized 1 ids.length maxNewTokens →
      ∃ out, greedyGenerateCached thinker eosTokenIds ids attn none maxNewTokens = .ok out ∧
        greedyGenerate thinker ids attn none maxNewTokens eosTokenIds = .ok out) ∧
    (∀ inputIds attentionMask seqLen templates, RightPadded inputIds attentionMask seqLen → inputIds ≠ [] →
      maxNewTokens ≠ 0 → 2^64 ≤ seqLen+maxNewTokens →
      greedyGenerateCachedBatch thinker inputIds attentionMask ⟨none,maxNewTokens,eosTokenIds⟩ templates =
        .error "kv cache capacity overflow" templates) ∧
    (∀ ids attn, Unpadded ids attn → maxNewTokens ≠ 0 → 2^64 ≤ ids.length+maxNewTokens →
      greedyGenerateCached thinker eosTokenIds ids attn none maxNewTokens = .error "kv cache capacity overflow") ∧
    ∀ masks seqLen step, masks ≠ [] → (∀ mask ∈ masks, mask.length = seqLen) → seqLen+step+1 ≤ 2^24 →
      ∃ promptLens positionIds deltas, promptLensFromAttentionMasks masks seqLen = .ok promptLens ∧
        getRopeIndex (masks.map (· ++ List.replicate (step+1) 1)) = .ok (positionIds,deltas) ∧
        positionIdsForStep promptLens step = .ok (positionIds.map fun row => [row.getLastD 0]) := by
  refine ⟨fun inputIds attentionMask seqLen templates padded sized => ?_,fun ids attn plain sized => ?_,
    fun inputIds attentionMask seqLen templates padded nonempty asked large =>
      batchRefuses thinker some_ templates padded nonempty asked large,
    fun ids attn plain asked large => cachedRefuses thinker some_ plain asked large,
    fun masks seqLen step nonempty even small => stepMatchesRope nonempty even small⟩
  · obtain ⟨out,ran,length,answers⟩ := batchGreedy thinker some_ templates padded sized
    refine ⟨out,ran,length,fun i ids mask row found masked here => ?_⟩
    have positions := sized.positions
    have same := padded.ids ids (List.mem_of_getElem? found)
    obtain ⟨maskLength,right,valid⟩ := padded.masks mask (List.mem_of_getElem? masked)
    have plain := unpaddedPart ⟨same.trans maskLength.symm,right⟩ valid
    rw [answers i ids mask row found masked here]
    exact plainGreedy thinker some_ plain (by rw [List.length_take]; omega)
  · have positions := sized.positions
    exact ⟨_,cachedGreedy thinker some_ plain sized,plainGreedy thinker some_ plain (by omega)⟩

theorem eagerGreedyAgreesThreeRows : (∃ out, greedyGenerateCachedBatch addingThinker [[1,2,3],[4,0,0],[5,6,9]]
      [[1,1,1],[1,0,0],[1,7,0]] ⟨none,8,[0,3]⟩ (fun _ => none) = .ok out (fun _ => none) ∧ out.length = 3 ∧
      ∀ row, out[1]? = some row → greedyGenerate addingThinker [4] [1] none 8 [0,3] = .ok row) ∧
    greedyGenerateCached addingThinker [0,3] [4] [1] none (2^64-1) = .error "kv cache capacity overflow" := by
  refine ⟨?_,(eagerGreedyAgrees addingThinker [0,3] (by decide) (2^64-1)).2.2.2.1 [4] [1]
    ⟨by decide,rfl,by decide⟩ (by decide) (by decide)⟩
  obtain ⟨out,ran,length,rows⟩ := (eagerGreedyAgrees addingThinker [0,3] (by decide) 8).1 [[1,2,3],[4,0,0],[5,6,9]]
    [[1,1,1],[1,0,0],[1,7,0]] 3 (fun _ => none) ⟨rfl,by decide,by decide⟩ ⟨by decide,by decide⟩
  exact ⟨out,ran,length,fun row found => rows 1 [4,0,0] [1,0,0] row rfl rfl found⟩

/- A limit near the greatest word leaves no capacity for a cache, whatever the prompt. -/
theorem capacityOverflows : greedyGenerate addingThinker [1] [1] none (2^64-1) [6] = .ok [] ∧
    greedyGenerateCached addingThinker [6] [1] [1] none (2^64-1) = .error "kv cache capacity overflow" ∧
    outcome (greedyGenerateCachedBatch addingThinker [[1]] [[1]] ⟨none,2^64-1,[6]⟩ (fun _ => none)) =
      .error "kv cache capacity overflow" := by
  refine ⟨?_,?_,?_⟩
  · rfl
  · rfl
  · rfl

end Batch

end Qwen3Asr.EagerAgreement
