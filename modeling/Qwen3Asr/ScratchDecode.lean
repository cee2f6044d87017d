import Qwen3Asr.EagerAgreement

/-! Decoding from scratch with audio features. Every pass runs the whole prompt with the features at their
placeholders, and the tokens so far behind it. -/
namespace Qwen3Asr.ScratchDecode
open Library Library.Effect Library.Word Library.CausalStack Library.Greedy
open PagedMetadata PromptPositions BatchEngine PromptColumns CausalMask EagerThinker EagerRows EagerGeneration
open EagerDecode PrefixReuse EagerAgreement

variable {φ η κ : Type}

section Scratch
variable {thinker : CausalThinker φ η κ} {ids attn eosTokenIds : List Nat} {audio : List φ}

def pickedLast (thinker : CausalThinker φ η κ) (columns : List (Column φ)) : Nat :=
  (picks thinker (denseInputs thinker columns)).getLast?.getD 0

theorem unpaddedInputs (thinker : CausalThinker φ η κ) (plain : Unpadded ids attn) {columns : List (Column φ)}
    (same : columns.length = ids.length) : promptInputs thinker columns attn = denseInputs thinker columns := by
  have counted : columns.length = attn.length := same.trans plain.same.symm
  have whole : (promptInputs thinker columns attn).take attn.length = denseInputs thinker (columns.take attn.length) :=
    promptTake counted (Nat.le_refl _) fun m inside => plain.valid m (List.mem_of_mem_take inside)
  have long : (promptInputs thinker columns attn).length = attn.length := (EagerRows.promptLength counted).trans counted
  rwa [← long,List.take_length,long,← counted,List.take_length] at whole

theorem layersShape {allowed : List (List (List Bool))} {positionIds : Grid Int} {layers : List (Layer η Int κ)} {hidden out : Grid η}
    (same : SameShape hidden positionIds) (ok : forwardLayers allowed positionIds layers hidden = .ok out) :
    out.rows.length = hidden.rows.length ∧ out.width = hidden.width := by
  induction layers generalizing hidden with
  | nil =>
    cases ok
    exact ⟨rfl,rfl⟩
  | cons layer layers ih =>
    obtain ⟨_,_,ok⟩ := exceptBind.mp ok
    obtain ⟨rows,width⟩ := attentionShape layer (some allowed) (Grid.zipWith layer.project hidden positionIds) same
    obtain ⟨laterRows,laterWidth⟩ := ih (attentionSame layer (some allowed) (Grid.zipWith layer.project hidden positionIds) same) ok
    exact ⟨laterRows.trans rows,laterWidth.trans width⟩

theorem scratchRow (thinker : CausalThinker φ η κ) (audio : List φ) (plain : Unpadded ids attn) (small : ids.length < 2^32)
    (counted : ids.count thinker.audioTokenId = audio.length) :
    ∃ inputIds attentionMask logits, tensor ids.length [ids] = .ok inputIds ∧ tensor ids.length [attn] = .ok attentionMask ∧
      forwardWithAudioFeatures thinker inputIds attentionMask (some audio) audio.length = .ok logits ∧
      logits.rows = [picks thinker (denseInputs thinker (mergeRow thinker.audioTokenId audio 0 ids))] ∧
      logits.width = ids.length := by
  have long : 0 < ids.length := List.length_pos_of_ne_nil plain.nonempty
  have evenIds : ∀ row ∈ [ids], row.length = ids.length := by simp
  have evenMask : ∀ row ∈ [attn], row.length = ids.length := by simp [plain.same]
  obtain ⟨inputIds,made⟩ := tensorGoes evenIds
  obtain ⟨attentionMask,masked⟩ := tensorGoes evenMask
  obtain ⟨idRows,idWidth,_⟩ := tensorOk.mp made
  obtain ⟨maskRows,maskWidth,_⟩ := tensorOk.mp masked
  obtain ⟨positionIds,rope⟩ := @ropePositionsGo attentionMask (by simp [maskRows]) (by omega)
  obtain ⟨ropeRows,ropeWidth⟩ := ropePositionsOk rope
  rw [maskRows,List.map_singleton] at ropeRows
  have own : (some audio).isSome → audio.length = countAudioPlaceholdersBatch inputIds.rows thinker.audioTokenId := fun _ => by
    simp [countAudioPlaceholdersBatch,idRows,counted]
  have features : Counted thinker.audioTokenId (some audio) inputIds.rows := fun _ same => by
    cases same
    exact (own rfl).symm
  obtain ⟨embeds,embedded⟩ := inputsEmbedsGo thinker own features
  obtain ⟨_,embedRows,embedWidth⟩ := (inputsEmbedsOk own).mp embedded
  rw [idRows] at embedRows
  have embedRows : embeds.rows = [(mergeRow thinker.audioTokenId audio 0 ids).map thinker.embed] := embedRows
  have embedWidth : embeds.width = ids.length := embedWidth.trans idWidth
  have same : SameShape embeds positionIds := ⟨by simp [ropeRows,embedRows],by rw [ropeWidth,maskWidth,embedWidth]⟩
  have flash : makeFlashParams embeds.rows.length embeds.width embeds.width = .ok () := by
    refine flashFits.mpr (.inr ?_)
    simpa [embedRows,embedWidth] using small
  obtain ⟨out,ran,outWidth⟩ := layersGo (makeCausalMask attentionMask.rows embeds.width) thinker.layers same flash
  have columns : (mergeRow thinker.audioTokenId audio 0 ids).length = ids.length := mergeRowLength audio 0 ids
  have inputs := unpaddedInputs thinker plain columns
  obtain ⟨hiddens,positions,bits⟩ := promptParts thinker (columns.trans plain.same.symm)
  have row : RowInputs embeds positionIds 0 (promptInputs thinker (mergeRow thinker.audioTokenId audio 0 ids) attn) :=
    ⟨by simp [embedRows,hiddens],by simp [ropeRows,positions]⟩
  have sees : SeesCausally κ (some (makeCausalMask attentionMask.rows embeds.width)) 0 []
      ((promptInputs thinker (mergeRow thinker.audioTokenId audio 0 ids) attn).map Input.holds) := by
    intro t query keys _
    rw [bits,bitsLength,plain.same] at query
    have found : attentionMask.rows[0]? = some attn := by simp [maskRows]
    rw [allowedPlain found (by rw [plain.same,embedWidth]) (by rw [embedWidth]; exact query),bits]
    simp
  have picked := layersRow ran sees row
  rw [inputs] at picked
  refine ⟨inputIds,attentionMask,out.map thinker.pick,made,masked,?_,?_,outWidth.trans embedWidth⟩
  · unfold forwardWithAudioFeatures
    refine exceptBind.mpr ⟨embeds,embedded,exceptBind.mpr ⟨positionIds,rope,?_⟩⟩
    have dims : ¬(attentionMask.rows.length ≠ embeds.rows.length ∨ attentionMask.width ≠ embeds.width) := by
      simp [maskRows,embedRows,maskWidth,embedWidth]
    rw [if_neg dims]
    exact exceptBind.mpr ⟨out,ran,rfl⟩
  · have one : (out.map thinker.pick).rows.length = 1 := by
      have kept := (layersShape same ran).1
      rw [embedRows] at kept
      simpa [Grid.map] using kept
    obtain ⟨only,single⟩ := List.length_eq_one_iff.mp one
    have here := Grid.mapRow thinker.pick picked
    rw [single] at here ⊢
    rw [Option.some.inj here,picks,List.map_map]
    rfl

theorem scratchForward (thinker : CausalThinker φ η κ) (audio : List φ) (plain : Unpadded ids attn) (small : ids.length < 2^32)
    (counted : ids.count thinker.audioTokenId = audio.length) :
    ∃ inputIds attentionMask logits, tensor ids.length [ids] = .ok inputIds ∧ tensor ids.length [attn] = .ok attentionMask ∧
      forwardWithAudioFeatures thinker inputIds attentionMask (some audio) audio.length = .ok logits ∧
      lastPick logits = pickedLast thinker (mergeRow thinker.audioTokenId audio 0 ids) := by
  obtain ⟨inputIds,attentionMask,logits,made,masked,ran,row,width⟩ := scratchRow thinker audio plain small counted
  have columns : (mergeRow thinker.audioTokenId audio 0 ids).length = ids.length := mergeRowLength audio 0 ids
  refine ⟨inputIds,attentionMask,logits,made,masked,ran,?_⟩
  rw [lastPick,row,width,pickedLast,List.getLast?_eq_getElem?,List.headD_cons,List.getD_eq_getElem?_getD,picksLength,denseLength,
    columns]

theorem scratchFrom (thinker : CausalThinker φ η κ) (eosTokenIds : List Nat) {prompt : List Nat}
    (counted : prompt.count thinker.audioTokenId = audio.length) (left : Nat) {generated attn : List Nat}
    (plain : Unpadded (prompt ++ generated) attn) (small : prompt.length+generated.length+left < 2^32)
    (apart : thinker.audioTokenId ∉ greedyFrom (fun out =>
      pickedLast thinker (mergeRow thinker.audioTokenId audio 0 prompt ++ tokenColumns out)) eosTokenIds.contains left generated) :
    generateFrom thinker (some audio) audio.length eosTokenIds left (prompt ++ generated) attn generated =
      .ok (greedyFrom (fun out => pickedLast thinker (mergeRow thinker.audioTokenId audio 0 prompt ++ tokenColumns out))
        eosTokenIds.contains left generated) := by
  induction left generalizing generated attn with
  | zero => rfl
  | succ left ih =>
    have none_ : thinker.audioTokenId ∉ generated := fun inside => apart ((greedyExtends _ _ _ _).subset inside)
    obtain ⟨inputIds,attentionMask,logits,made,masked,ran,last⟩ := scratchForward thinker audio plain
      (by rw [List.length_append]; omega) (by rw [List.count_append,counted,List.count_eq_zero_of_not_mem none_,Nat.add_zero])
    rw [mergeRowAppend,mergeRowNone none_] at last
    unfold greedyFrom at apart
    unfold generateFrom greedyFrom
    refine exceptBind.mpr ⟨inputIds,made,exceptBind.mpr ⟨attentionMask,masked,exceptBind.mpr ⟨logits,ran,?_⟩⟩⟩
    dsimp only at apart ⊢
    rw [last]
    change (if eosTokenIds.contains (pickedLast thinker (mergeRow thinker.audioTokenId audio 0 prompt ++ tokenColumns generated)) then _ else _) = _
    split
    · rfl
    · next goes =>
      rw [if_neg goes] at apart
      have next := unpaddedNext plain (pickedLast thinker (mergeRow thinker.audioTokenId audio 0 prompt ++ tokenColumns generated))
      rw [List.append_assoc] at next ⊢
      exact ih next (by rw [List.length_append,List.length_singleton]; omega) apart

theorem scratchGreedy (thinker : CausalThinker φ η κ) (some_ : eosTokenIds ≠ []) {prompt : List Nat} (nonempty : prompt ≠ [])
    (counted : prompt.count thinker.audioTokenId = audio.length) {maxNewTokens : Nat} (sized : Sized 1 prompt.length maxNewTokens)
    (apart : thinker.audioTokenId ∉ greedy (fun out =>
      pickedLast thinker (mergeRow thinker.audioTokenId audio 0 prompt ++ tokenColumns out)) eosTokenIds.contains maxNewTokens) :
    greedyGenerate thinker prompt (List.replicate prompt.length 1) (some audio) maxNewTokens eosTokenIds =
      .ok (greedy (fun out => pickedLast thinker (mergeRow thinker.audioTokenId audio 0 prompt ++ tokenColumns out))
        eosTokenIds.contains maxNewTokens) := by
  have plain : Unpadded prompt (List.replicate prompt.length 1) :=
    ⟨nonempty,List.length_replicate,fun m inside => by rw [List.eq_of_mem_replicate inside]; exact Nat.one_ne_zero⟩
  refine exceptBind.mpr ⟨(),singleChecksGo some_ plain,?_⟩
  split
  · next none_ =>
    rw [none_]
    rfl
  · have whole : Unpadded (prompt ++ []) (List.replicate prompt.length 1) := by rwa [List.append_nil]
    have positions := sized.positions
    have ran := scratchFrom thinker eosTokenIds counted maxNewTokens whole (by rw [List.length_nil]; omega) apart
    rw [List.append_nil] at ran
    have placeholders : placeholdersOf thinker (some audio) prompt = audio.length := counted
    rw [placeholders]
    exact ran

end Scratch

end Qwen3Asr.ScratchDecode
