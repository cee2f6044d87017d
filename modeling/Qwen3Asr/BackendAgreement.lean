import Qwen3Asr.EagerBatch
import Qwen3Asr.PagedEager

/-! Two ways to answer a batch: continuous batching over the paged cache, in waves and groups of steps, and one padded
eager batch over one cache, resumed from whatever prefixes earlier calls left. They give the same tokens. -/
namespace Qwen3Asr.BackendAgreement
open Library Library.Effect Library.Word Library.Greedy
open BlockManager PagedMetadata BatchEngine PromptColumns EagerThinker EagerRows BatchPrefill PrefixReuse EagerGeneration
open EagerDecode EagerAgreement ScratchDecode CachedBatch EagerBatch RowOracle Scheduler GreedyRefinement PagedLayers PagedMemory
open PagedGreedy PagedEager

variable {φ η κ : Type}

section Padded
variable {audioTokenId seqLen : Nat} {inputIds attentionMask prompts : List (List Nat)}

theorem padsCounts (pads : List.Forall₂ (Pads audioTokenId) (inputIds.zip attentionMask) prompts)
    (counted : attentionMask.length = inputIds.length) :
    inputIds.map (·.count audioTokenId) = prompts.map (·.count audioTokenId) := by
  have same : (inputIds.zip attentionMask).map (fun row => row.1.count audioTokenId) = prompts.map (·.count audioTokenId) := by
    generalize inputIds.zip attentionMask = rows at pads
    induction pads with
    | nil => rfl
    | cons head _ ih => exact List.cons_eq_cons.mpr ⟨padsCount head,ih⟩
  conv_lhs => rw [← List.map_fst_zip counted.ge,List.map_map]
  exact same

theorem padsRow (pads : List.Forall₂ (Pads audioTokenId) (inputIds.zip attentionMask) prompts)
    (counted : attentionMask.length = inputIds.length) (audio : List φ) {i : Nat} {mask prompt : List Nat}
    (masked : attentionMask[i]? = some mask) (found : prompts[i]? = some prompt) :
    ∃ columns, (columnsOf audioTokenId (some audio) inputIds)[i]? = some columns ∧
      (mergeRows audioTokenId audio 0 prompts)[i]? = some (promptRow columns mask) := by
  obtain ⟨bound,_⟩ := List.getElem?_eq_some_iff.mp masked
  obtain ⟨ids,row⟩ : ∃ ids, inputIds[i]? = some ids := ⟨_,List.getElem?_eq_getElem (counted ▸ bound)⟩
  have zipped : (inputIds.zip attentionMask)[i]? = some (ids,mask) := List.getElem?_zip_eq_some.mpr ⟨row,masked⟩
  obtain ⟨here,first⟩ := List.getElem?_eq_some_iff.mp zipped
  obtain ⟨there,second⟩ := List.getElem?_eq_some_iff.mp found
  have own := (List.forall₂_iff_get.mp pads).2 i here there
  rw [List.get_eq_getElem,List.get_eq_getElem,first,second] at own
  refine ⟨_,mergeRowsGet audioTokenId audio 0 row,?_⟩
  rw [mergeRowsGet audioTokenId audio 0 found,promptRow,padsCounts pads counted,padsLen own]
  exact congrArg some (padsColumns audio _ own).symm

end Padded

section Backends
variable {μ ρ ω : Type}

/-- A batch that the paged cache answers is answered the same by one padded eager batch. -/
theorem backendsAgree {thinker : PagedThinker φ η μ κ ρ ω} {blockSize numBlocks : Nat} {reads : μ → Nat → κ}
    (fitted : Fitted thinker blockSize reads) {cudaGraph : Bool} {r : PagedCacheRuntime φ}
    (fresh : newRuntime numBlocks blockSize cudaGraph = .ok r) {batches : List (Batch φ)} (served : Batches thinker r batches)
    (earlier : List (PrefillCall φ)) :
    ∀ batch ∈ batches, batch.run.eosTokenIds ≠ [] → ∀ (inputIds attentionMask : List (List Nat)) (seqLen : Nat),
      RightPadded inputIds attentionMask seqLen → Sized inputIds.length seqLen batch.run.maxNewTokens →
      List.Forall₂ (Pads thinker.audioTokenId) (inputIds.zip attentionMask) batch.prompts →
      ∃ templates, greedyGenerateCachedBatch (causal thinker) inputIds attentionMask
        ⟨some batch.run.audioFeatures,batch.run.maxNewTokens,batch.run.eosTokenIds⟩ (templatesAfter (causal thinker) earlier) =
          .ok batch.outputs templates := by
  intro batch inside some_ inputIds attentionMask seqLen padded sized pads
  obtain ⟨model,prepared,features,outputs⟩ :=
    batchesServed fitted (idleFresh fresh) served batch inside
  have audioToken : batch.run.thinker.audioTokenId = thinker.audioTokenId := by rw [model]; rfl
  have rows : inputIds.length = batch.prompts.length := by
    rw [← pads.length_eq,List.length_zip,padded.counted,Nat.min_self]
  have prompted : (clientPrompts batch.run batch.prompts).length = batch.prompts.length := PromptColumns.mergeRowsLength _ _ _ _
  by_cases nonempty : inputIds = []
  · have none_ : batch.outputs = [] := by
      rw [nonempty] at rows
      rw [outputs,goals,List.length_eq_zero_iff.mp (prompted.trans rows.symm)]
      rfl
    rw [nonempty,none_]
    exact ⟨_,rfl⟩
  by_cases limit : batch.run.maxNewTokens = 0
  · obtain ⟨ids,mask,checked,_⟩ := checksGo padded nonempty some_
    have empty : batch.outputs = List.replicate inputIds.length [] := by
      rw [outputs,goals,limit,List.eq_replicate_iff]
      exact ⟨by simp [prompted,rows],fun out inside => by
        obtain ⟨_,_,rfl⟩ := List.mem_map.mp inside
        rfl⟩
    refine ⟨templatesAfter (causal thinker) earlier,?_⟩
    unfold greedyGenerateCachedBatch
    rw [if_neg nonempty,attemptThen checked,empty,limit]
    rfl
  · have clients : batch.run.prepared ≠ [] := List.ne_nil_of_length_pos (by
      rw [prepared.rows.length_eq,← rows]
      exact List.length_pos_of_ne_nil nonempty)
    have counted : Counted (causal thinker).audioTokenId (some batch.run.audioFeatures) inputIds := by
      intro audio same
      cases same
      rw [← features clients limit,audioLens prepared,audioToken]
      exact congrArg List.sum (padsCounts pads padded.counted)
    obtain ⟨out,templates,ran,length,answers⟩ := batchGreedy (causal thinker) earlier some_ padded sized counted
    have same : out = batch.outputs := by
      have long : batch.outputs.length = inputIds.length := by rw [outputs,goals,List.length_map,prompted,rows]
      refine List.ext_getElem? fun i => ?_
      rcases Nat.lt_or_ge i inputIds.length with before | past
      · obtain ⟨mask,masked⟩ : ∃ mask, attentionMask[i]? = some mask :=
          ⟨_,List.getElem?_eq_getElem (padded.counted.symm ▸ before)⟩
        obtain ⟨prompt,found⟩ : ∃ prompt, batch.prompts[i]? = some prompt := ⟨_,List.getElem?_eq_getElem (rows ▸ before)⟩
        obtain ⟨row,answered⟩ : ∃ row, out[i]? = some row := ⟨_,List.getElem?_eq_getElem (length.symm ▸ before)⟩
        obtain ⟨columns,there,own⟩ := padsRow pads padded.counted batch.run.audioFeatures masked found
        rw [answered,answers i columns mask row there masked answered,outputs,goals,List.getElem?_map,clientPrompts,audioToken,own]
        exact congrArg (fun choose => some (greedy choose _ _)) (funext fun out => (chooseScratch thinker _ out).symm)
      · rw [List.getElem?_eq_none (length ▸ past),List.getElem?_eq_none (long ▸ past)]
    exact ⟨templates,same ▸ ran⟩

def sharedBatch : Batch Nat :=
  ⟨addingRun [⟨[1,2,3,4,5,6,7,8,9,3],[1,1,1,1,1,1,1,1,1,1]⟩,⟨[1,2,3,4,5,6,7,8,9,0],[1,1,1,1,1,1,1,1,1,0]⟩] [5,4],
    [[1,2,3,4,5,6,7,8,9,3],[1,2,3,4,5,6,7,8,9]],[[5,1,0],[1]]⟩

def sixFree : PagedCacheRuntime Nat := ⟨⟨8,7,56,false⟩,new 7 8,[]⟩

theorem sharedServed : Batches adding sixFree [sharedBatch] := by
  have rows : Prepared sharedBatch.run sharedBatch.prompts :=
    ⟨.cons ⟨[],by decide,rfl,rfl⟩ (.cons ⟨[0],by decide,rfl,rfl⟩ .nil),by decide⟩
  exact @batchRuns _ _ 0 _ rfl rows (by decide +kernel) (by decide +kernel) (by decide +kernel) (.nil _)

theorem backendsAgreeAdding : (templatesAfter (causal adding) [sharing] [1,2,3,4,5,6,7,8]).isSome = true ∧
    ∃ templates, greedyGenerateCachedBatch (causal adding) [[1,2,3,4,5,6,7,8,9,3],[1,2,3,4,5,6,7,8,9,0]]
      [[1,1,1,1,1,1,1,1,1,1],[1,1,1,1,1,1,1,1,1,0]] ⟨some [5,4],3,[2]⟩ (templatesAfter (causal adding) [sharing]) =
        .ok [[5,1,0],[1]] templates :=
  ⟨by decide +kernel,@backendsAgree _ _ _ _ _ _ adding 8 7 _ addingFitted false sixFree rfl _ sharedServed [sharing]
    sharedBatch List.mem_cons_self (by decide) _ _ 10 ⟨rfl,by decide,by decide⟩ ⟨by decide,by decide⟩
    (.cons ⟨[],by decide,rfl,rfl⟩ (.cons ⟨[0],by decide,rfl,rfl⟩ .nil))⟩

end Backends

end Qwen3Asr.BackendAgreement
