import Qwen3Asr.DecodeOutcome

/-! What a prefill hands back: the row of each prompt, and the calls it makes. -/
namespace Qwen3Asr.PrefillOutcome
open Library.Effect Library.Word
open BlockManager PagedMetadata PromptPositions BatchEngine DecodeOutcome

variable {φ : Type}

structure PrefillOk (thinker : Thinker φ) (inputIds attentionMask : List (List Nat))
    (audioFeatures : Option (List φ)) (config : PagedBatchConfig) (r : PagedCacheRuntime φ)
    (state : PagedBatchState) (t : PagedCacheRuntime φ) where
  seqLen : Nat
  rows : List PromptRow
  checked : promptRows inputIds attentionMask config = .ok (seqLen,rows)
  requestIds : List Nat
  m : PagedBlockManager
  allocated : allocatePrompts config rows r.manager = .ok requestIds m
  blockTables : List (List Nat)
  read : blockTablesFor m requestIds = .ok blockTables
  prefilled : Prefilled φ
  noneSpare : attentionMask.length ≤ inputIds.length
  call : prefillCall thinker r.cache requestIds blockTables seqLen rows audioFeatures = .ok prefilled
  logits : Nat → Nat → Nat
  answered : thinker.forward r.history prefilled.call = .ok logits
  last : List (Nat × Nat)
  gathered : lastLogits thinker rows.length prefilled = .ok last
  made : state.rows = prefilledRows config.eosTokenIds logits requestIds blockTables rows prefilled.promptLens last
  runtime : t = {r with
    manager := trimEnded config.eosTokenIds state.rows m
    history := prefilled.call::r.history}
  decodeStep : state.decodeStep = 0
  maxNewTokens : state.maxNewTokens = config.maxNewTokens
  eosTokenIds : state.eosTokenIds = config.eosTokenIds

theorem spareMasksFail {thinker : Thinker φ} {blockTables : List (List Nat)} {rows : List PromptRow} {spare : List (List Nat)}
    {audioFeatures : Option (List φ)} {prefilled : Prefilled φ} :
    spareMasks thinker blockTables rows spare audioFeatures ≠ .ok prefilled := by
  intro ok
  unfold spareMasks at ok
  dsimp only at ok
  obtain ⟨_,_,ok⟩ := exceptBind.mp ok
  split at ok
  · obtain ⟨_,_,ok⟩ := exceptBind.mp ok
    split at ok <;> try contradiction
    obtain ⟨_,_,ok⟩ := exceptBind.mp ok
    cases ok
  · obtain ⟨_,_,ok⟩ := exceptBind.mp ok
    cases ok

/- A call is only made where no mask is left over. -/
theorem callWithMasksOk {thinker : Thinker φ} {cache : PagedKvCache} {requestIds : List Nat} {blockTables : List (List Nat)}
    {seqLen : Nat} {rows : List PromptRow} {spare : List (List Nat)} {audioFeatures : Option (List φ)} {prefilled : Prefilled φ}
    (ok : prefillCallWithMasks thinker cache requestIds blockTables seqLen rows spare audioFeatures = .ok prefilled) :
    spare = [] ∧ prefillCall thinker cache requestIds blockTables seqLen rows audioFeatures = .ok prefilled := by
  unfold prefillCallWithMasks at ok
  split at ok
  · exact ⟨‹_›,ok⟩
  · exact absurd ok spareMasksFail

theorem prefillOk {thinker : Thinker φ} {inputIds attentionMask : List (List Nat)}
    {audioFeatures : Option (List φ)} {config : PagedBatchConfig} {r t : PagedCacheRuntime φ}
    {state : PagedBatchState}
    (ok : pagedBatchPrefill thinker inputIds attentionMask audioFeatures config r = .ok state t) :
    Nonempty (PrefillOk thinker inputIds attentionMask audioFeatures config r state t) := by
  unfold pagedBatchPrefill at ok
  obtain ⟨⟨seqLen,rows⟩,_,check,ok⟩ := bindOk.mp ok
  obtain ⟨checked,rfl⟩ := attemptOk.mp check
  obtain ⟨requestIds,_,allocate,ok⟩ := bindOk.mp ok
  obtain ⟨m,allocated,rfl⟩ := managerMutOk.mp allocate
  obtain ⟨_,_,same,ok⟩ := bindOk.mp ok
  cases same
  obtain ⟨blockTables,_,tables,ok⟩ := bindOk.mp ok
  obtain ⟨read,rfl⟩ := attemptOk.mp tables
  obtain ⟨prefilled,_,prepare,ok⟩ := bindOk.mp ok
  obtain ⟨called,rfl⟩ := attemptOk.mp prepare
  obtain ⟨spare,call⟩ := callWithMasksOk called
  obtain ⟨logits,_,forward,ok⟩ := bindOk.mp ok
  obtain ⟨answered,rfl⟩ := runForwardOk.mp forward
  obtain ⟨last,_,gather,ok⟩ := bindOk.mp ok
  obtain ⟨gathered,rfl⟩ := attemptOk.mp gather
  obtain ⟨_,_,trim,ok⟩ := bindOk.mp ok
  obtain ⟨_,trimmed,rfl⟩ := managerMutOk.mp trim
  cases trimmed
  cases ok
  exact ⟨⟨seqLen,rows,checked,requestIds,m,allocated,blockTables,read,prefilled,List.drop_eq_nil_iff.mp spare,call,logits,
    answered,last,gathered,rfl,rfl,rfl,rfl,rfl⟩⟩

theorem validLenOnes (len extra : Nat) : validLen (List.replicate len 1 ++ List.replicate extra 0) = len := by
  simp [validLen,List.countP_append,List.countP_replicate]

theorem mapMUnit {α : Type} {f : α → Except String Unit} {xs : List α} {out : List Unit}
    (ok : xs.mapM f = .ok out) : ∀ a ∈ xs, f a = .ok () := by
  intro a inside
  obtain ⟨_,_,done⟩ := pairedMem (exceptMapM.mp ok) inside
  exact done

theorem checkedRowLength {xss : List (List Nat)} {width : Nat} (word : String) {out : List Unit}
    (checked : xss.zipIdx.mapM (fun ((row,i) : List Nat × Nat) =>
      if row.length ≠ width then
        Except.error s!"paged batch {word}[{i}] length mismatch: expected={width}, got={row.length}"
      else .ok ()) = .ok out) : ∀ row ∈ xss, row.length = width := by
  intro row inside
  obtain ⟨i,found⟩ := List.mem_iff_getElem?.mp inside
  have passed := mapMUnit checked (row,i) (List.mem_zipIdx_iff_getElem?.mpr found)
  dsimp only at passed
  split at passed <;> try contradiction
  rename_i same
  exact not_not.mp same

theorem promptRowsParts {inputIds attentionMask : List (List Nat)} {config : PagedBatchConfig} {seqLen : Nat}
    {rows : List PromptRow} (ok : promptRows inputIds attentionMask config = .ok (seqLen,rows)) :
    0 < inputIds.length ∧ 0 < seqLen ∧ (∀ mask ∈ attentionMask, mask.length = seqLen) ∧
    (∀ ids ∈ inputIds, ids.length = seqLen) ∧ inputIds.length ≤ attentionMask.length ∧
    ((attentionMasksAreRightPadded attentionMask = true ∧
        rows = (inputIds.zip attentionMask).map fun (ids,mask) => ⟨ids,mask,validLen mask⟩) ∨
      (attentionMasksAreRightPadded attentionMask = false ∧ inputIds.length = attentionMask.length ∧
        ∃ normalized, normalizeBatchForPagedPrefill inputIds attentionMask = .ok normalized ∧
          rows = normalized.map fun (ids,mask,len) => ⟨ids,mask,len⟩)) := by
  unfold promptRows at ok
  dsimp only at ok
  split at ok <;> try contradiction
  rename_i nonempty
  split at ok <;> try contradiction
  split at ok <;> try contradiction
  rename_i wide
  obtain ⟨_,idRows,ok⟩ := exceptBind.mp ok
  obtain ⟨_,maskRows,ok⟩ := exceptBind.mp ok
  have ids := checkedRowLength "input_ids" idRows
  have masks := checkedRowLength "attention_mask" maskRows
  split at ok
  · rename_i padded
    split at ok <;> try contradiction
    rename_i same
    cases ok
    exact ⟨List.length_pos_iff.mpr fun none => nonempty (by simp [none]),Nat.pos_of_ne_zero wide,masks,ids,
      not_lt.mp same,.inl ⟨padded,rfl⟩⟩
  · rename_i ragged
    obtain ⟨normalized,normal,ok⟩ := exceptBind.mp ok
    cases ok
    have same : inputIds.length = attentionMask.length := by
      unfold normalizeBatchForPagedPrefill at normal
      split at normal <;> try contradiction
      rename_i same
      exact not_not.mp same
    exact ⟨List.length_pos_iff.mpr fun none => nonempty (by simp [none]),Nat.pos_of_ne_zero wide,masks,ids,
      same.le,.inr ⟨by simpa using ragged,same,normalized,normal,rfl⟩⟩

theorem PrefillOk.even {thinker : Thinker φ} {inputIds attentionMask : List (List Nat)}
    {audioFeatures : Option (List φ)} {config : PagedBatchConfig} {r t : PagedCacheRuntime φ}
    {state : PagedBatchState} (p : PrefillOk thinker inputIds attentionMask audioFeatures config r state t) :
    inputIds.length = attentionMask.length :=
  Nat.le_antisymm (promptRowsParts p.checked).2.2.2.2.1 p.noneSpare

theorem normalizedRow {seqLen i : Nat} {ids mask : List Nat} {out : List Nat × List Nat × Nat}
    (ok : (if ids.length ≠ seqLen ∨ mask.length ≠ seqLen then
        Except.error s!"batch row len mismatch at {i}: ids={ids.length} mask={mask.length} expected={seqLen}"
      else
        let len := validLen mask
        if len = 0 ∨ seqLen < len then
          .error s!"invalid prompt length at batch index {i}: len={len} seq_len={seqLen}"
        else
          let rowIds := validIds ids mask ++ List.replicate (seqLen-len) (padIdOf ids mask)
          let rowMask := List.replicate len 1 ++ List.replicate (seqLen-len) 0
          .ok (rowIds,rowMask,len)) = .ok out) :
    validLen mask ≤ seqLen ∧
    out = (validIds ids mask ++ List.replicate (seqLen-validLen mask) (padIdOf ids mask),
      List.replicate (validLen mask) 1 ++ List.replicate (seqLen-validLen mask) 0,validLen mask) := by
  split at ok <;> try contradiction
  dsimp only at ok
  split at ok <;> try contradiction
  rename_i valid
  cases ok
  exact ⟨by omega,rfl⟩

theorem promptRowsOk {inputIds attentionMask : List (List Nat)} {config : PagedBatchConfig} {seqLen : Nat}
    {rows : List PromptRow} (ok : promptRows inputIds attentionMask config = .ok (seqLen,rows)) :
    rows.length = inputIds.length ∧ ∀ row ∈ rows, row.len = validLen row.mask := by
  obtain ⟨_,_,masks,_,enough,⟨_,rfl⟩ | ⟨_,same,normalized,normal,rfl⟩⟩ := promptRowsParts ok
  · refine ⟨by simp [enough],fun row inside => ?_⟩
    obtain ⟨p,there,rfl⟩ := List.mem_map.mp inside
    rfl
  · unfold normalizeBatchForPagedPrefill at normal
    rw [if_neg (not_not.mpr same)] at normal
    have pairs := exceptMapM.mp normal
    refine ⟨by simp [← pairs.length_eq,same],fun row inside => ?_⟩
    obtain ⟨p,there,rfl⟩ := List.mem_map.mp inside
    obtain ⟨_,_,made⟩ := pairedSource pairs there
    rw [(normalizedRow made).2]
    exact (validLenOnes _ _).symm

theorem allocateChain {config : PagedBatchConfig} {rows : List (PromptRow × Nat)} {m t : PagedBlockManager}
    {requestIds : List Nat} (chain : Chain (fun ((row,i) : PromptRow × Nat) => do
      let requestId := config.requestIdBase+i
      allocateSlots requestId row.len
      pure requestId) rows m requestIds t) :
    requestIds = rows.map fun p => config.requestIdBase+p.2 := by
  induction chain with
  | nil => rfl
  | cons head _ ih =>
    obtain ⟨_,_,_,last⟩ := bindOk.mp head
    cases last
    rw [ih,List.map_cons]

theorem allocatePromptsOk {config : PagedBatchConfig} {rows : List PromptRow} {m t : PagedBlockManager}
    {requestIds : List Nat} (ok : allocatePrompts config rows m = .ok requestIds t) :
    requestIds = (List.range rows.length).map (config.requestIdBase+·) := by
  have made := allocateChain (mapMChain.mp ok)
  have indices : rows.zipIdx.map Prod.snd = List.range rows.length := by
    rw [List.zipIdx_map_snd,List.range_eq_range']
  rw [made,← indices,List.map_map]
  rfl

theorem promptLensOk {lens : List Nat} {promptLens : List Int}
    (ok : lens.mapM (fun len => okOr (i64TryFrom len) s!"query_len overflows i64: {len}") = .ok promptLens) :
    promptLens = lens.map fun len : Nat => (len:Int) := by
  have pairs := exceptMapM.mp ok
  have each : List.Forall₂ (fun (len : Nat) (lenI64 : Int) => (len:Int) = lenI64) lens promptLens :=
    pairs.imp fun _ _ found => (i64TryFromSome.mp (okOrOk.mp found)).2
  rw [← List.forall₂_map_left_iff (f := fun len : Nat => (len:Int)),List.forall₂_eq_eq_eq] at each
  exact each.symm

theorem queryLensMetadata {cache : PagedKvCache} {blockTables : List (List Nat)} {lens : List Nat}
    {metadata : PagedInputMetadata} (ok : inputMetadataFromQueryLens cache blockTables lens = .ok metadata) :
    metadata.queryLens = some lens := by
  unfold inputMetadataFromQueryLens at ok
  dsimp only at ok
  split at ok <;> try contradiction
  split at ok <;> try contradiction
  split at ok <;> try contradiction
  simp only [exceptBind] at ok
  obtain ⟨_,_,_,_,_,_,_,_,_,_,same⟩ := ok
  cases same
  rfl

theorem maskMetadata {cache : PagedKvCache} {blockTables masks : List (List Nat)}
    {metadata : PagedInputMetadata} (ok : inputMetadataFromAttentionMasks cache blockTables masks = .ok metadata) :
    metadata.queryLens = some (masks.map validLen) := by
  obtain ⟨slots,read⟩ := maskedRead ok
  exact read.queryLens

theorem prefillCallOk {thinker : Thinker φ} {cache : PagedKvCache} {requestIds : List Nat}
    {blockTables : List (List Nat)} {seqLen : Nat} {rows : List PromptRow} {audioFeatures : Option (List φ)}
    {prefilled : Prefilled φ} (counted : ∀ row ∈ rows, row.len = validLen row.mask)
    (ok : prefillCall thinker cache requestIds blockTables seqLen rows audioFeatures = .ok prefilled) :
    prefilled.call.requestIds = requestIds ∧
    prefilled.call.metadata.queryLens = some (rows.map PromptRow.len) ∧
    prefilled.promptLens = (rows.map PromptRow.len).map fun len : Nat => (len:Int) := by
  unfold prefillCall at ok
  dsimp only at ok
  obtain ⟨⟨positionIds,_⟩,_,ok⟩ := exceptBind.mp ok
  dsimp only at ok
  split at ok
  · unfold packedPrefillCall at ok
    dsimp only at ok
    obtain ⟨packedAudio,_,ok⟩ := exceptBind.mp ok
    obtain ⟨columns,_,ok⟩ := exceptBind.mp ok
    obtain ⟨metadata,built,ok⟩ := exceptBind.mp ok
    obtain ⟨queryLens,found,ok⟩ := exceptBind.mp ok
    obtain ⟨promptLens,each,ok⟩ := exceptBind.mp ok
    cases ok
    have lens := queryLensMetadata built
    rw [okOrOk,lens] at found
    cases found
    exact ⟨rfl,lens,promptLensOk each⟩
  · unfold paddedPrefillCall at ok
    dsimp only at ok
    obtain ⟨columns,_,ok⟩ := exceptBind.mp ok
    obtain ⟨metadata,built,ok⟩ := exceptBind.mp ok
    obtain ⟨queryLens,found,ok⟩ := exceptBind.mp ok
    obtain ⟨promptLens,each,ok⟩ := exceptBind.mp ok
    cases ok
    have lens := maskMetadata built
    have masks : (rows.map PromptRow.mask).map validLen = rows.map PromptRow.len := by
      rw [List.map_map]
      exact List.map_congr_left fun row inside => (counted row inside).symm
    rw [masks] at lens
    have kept : (if metadata.prefillCausalOnly then metadata
        else {metadata with prefillAttentionMask := some (makeCausalMask (rows.map PromptRow.mask) seqLen)}).queryLens =
          some (rows.map PromptRow.len) := by
      split <;> exact lens
    rw [okOrOk,kept] at found
    cases found
    exact ⟨rfl,kept,promptLensOk each⟩

def answerAt (packed : Bool) (lens : List Nat) (k : Nat) : Nat × Nat :=
  if packed then (0,(lens.take k).sum+(lens.getD k 0-1)) else (k,lens.getD k 0-1)

theorem gatherPackedOk {totalTokens offset : Nat} {lens : List Nat} {first : Nat} {out : List (Nat × Nat)}
    {last : Nat} (ok : gatherPacked totalTokens offset ((lens.map fun len : Nat => (len:Int)).zipIdx first) =
      .ok (out,last)) :
    out.length = lens.length ∧ ∀ k, k < lens.length →
      out[k]? = some (0,offset+((lens.take k).sum+(lens.getD k 0-1))) := by
  induction lens generalizing offset first out with
  | nil => cases ok; exact ⟨rfl,fun k bound => absurd bound (Nat.not_lt_zero k)⟩
  | cons len lens ih =>
    rw [List.map_cons,List.zipIdx_cons] at ok
    unfold gatherPacked at ok
    split at ok <;> try contradiction
    simp only [exceptBind,okOrOk,checkedAddSome,Int.toNat_natCast] at ok
    obtain ⟨idx,⟨_,rfl⟩,ok⟩ := ok
    split at ok <;> try contradiction
    simp only [exceptBind,okOrOk,checkedAddSome] at ok
    obtain ⟨_,_,_,⟨_,rfl⟩,⟨indices,rest⟩,tail,same⟩ := ok
    cases same
    obtain ⟨counted,each⟩ := ih tail
    refine ⟨by simp [counted],fun k bound => ?_⟩
    cases k with
    | zero => simp
    | succ k =>
      rw [List.getElem?_cons_succ,each k (by simpa using bound)]
      simp [Nat.add_assoc]

theorem lastLogitsOk {thinker : Thinker φ} {batch : Nat} {prefilled : Prefilled φ} {lens : List Nat}
    {last : List (Nat × Nat)} (made : prefilled.promptLens = lens.map fun len : Nat => (len:Int))
    (ok : lastLogits thinker batch prefilled = .ok last) :
    last.length = lens.length ∧ ∀ k, k < lens.length →
      last[k]? = some (answerAt thinker.usePackedCudaPrefill lens k) := by
  unfold lastLogits at ok
  rw [made] at ok
  cases packed : thinker.usePackedCudaPrefill with
  | true =>
    rw [if_pos packed] at ok
    unfold gatherLastLogitsForPackedPromptLens at ok
    obtain ⟨⟨indices,_⟩,gathered,ok⟩ := exceptBind.mp ok
    dsimp only at ok
    split at ok <;> try contradiction
    cases ok
    simpa [answerAt] using gatherPackedOk gathered
  | false =>
    rw [if_neg (by simp [packed])] at ok
    unfold gatherLastLogitsForPromptLens at ok
    split at ok <;> try contradiction
    have pairs := exceptMapM.mp ok
    have counted : last.length = lens.length := by simpa using pairs.length_eq.symm
    refine ⟨counted,fun k bound => ?_⟩
    have inside : k < last.length := by omega
    have row := (List.forall₂_iff_get.mp pairs).2 k (by simpa using bound) inside
    simp only [List.get_eq_getElem,List.getElem_zipIdx,List.getElem_map,Nat.zero_add,Int.toNat_natCast] at row
    split at row <;> try contradiction
    split at row <;> try contradiction
    simp only [exceptBind] at row
    obtain ⟨_,_,_,_,same⟩ := row
    rw [List.getElem?_eq_getElem inside,← Except.ok.inj same]
    simp [answerAt,bound]

/-- Row `k` of a prefill: its request, its length, and the token its last column picks. -/
theorem prefilledRow {thinker : Thinker φ} {inputIds attentionMask : List (List Nat)}
    {audioFeatures : Option (List φ)} {config : PagedBatchConfig} {r t : PagedCacheRuntime φ}
    {state : PagedBatchState} (p : PrefillOk thinker inputIds attentionMask audioFeatures config r state t) :
    state.rows.length = inputIds.length ∧
    p.prefilled.call.requestIds = (List.range inputIds.length).map (config.requestIdBase+·) ∧
    p.prefilled.call.metadata.queryLens = some (p.rows.map PromptRow.len) ∧
    ∀ k row, state.rows[k]? = some row → ∃ prompt table, p.rows[k]? = some prompt ∧
      let nextId := p.logits (answerAt thinker.usePackedCudaPrefill (p.rows.map PromptRow.len) k).1
        (answerAt thinker.usePackedCudaPrefill (p.rows.map PromptRow.len) k).2
      row = {
        requestId := config.requestIdBase+k, promptLenUsize := prompt.len, promptLenI64 := prompt.len
        blockTable := table, nextId, generated := [], finished := config.eosTokenIds.contains nextId} := by
  obtain ⟨counted,valid⟩ := promptRowsOk p.checked
  have ids := allocatePromptsOk p.allocated
  obtain ⟨calledFor,lens,promptLens⟩ := prefillCallOk valid p.call
  obtain ⟨answers,each⟩ := lastLogitsOk promptLens p.gathered
  have tables : p.blockTables.length = p.rows.length := by
    rw [← (exceptMapM.mp p.read).length_eq,ids]
    simp
  have lengths : state.rows.length = p.rows.length := by
    rw [p.made]
    simp [prefilledRows,ids,tables,promptLens,answers]
  refine ⟨lengths.trans counted,by rw [calledFor,ids,counted],lens,fun k row found => ?_⟩
  have bound : k < p.rows.length := by
    rw [← lengths]
    exact (List.getElem?_eq_some_iff.mp found).1
  refine ⟨p.rows[k],p.blockTables[k],List.getElem?_eq_getElem bound,?_⟩
  have last := each k (by simpa using bound)
  obtain ⟨inside,value⟩ := List.getElem?_eq_some_iff.mp last
  rw [p.made,prefilledRows,List.getElem?_map,Option.map_eq_some_iff] at found
  obtain ⟨q,zipped,rfl⟩ := found
  obtain ⟨_,same⟩ := List.getElem?_eq_some_iff.mp zipped
  rw [← same]
  simp [ids,promptLens,value]

end Qwen3Asr.PrefillOutcome
