import Qwen3Asr.PagedGreedy
import Qwen3Asr.ScratchDecode

/-! Continuous batching over the paged cache and decoding from scratch: the eager model, run over a
prompt and its features alone, generates what the client of a batch is answered. -/
namespace Qwen3Asr.PagedEager
open Library Library.Effect Library.Word Library.CausalStack Library.Greedy Library.Packing
open BlockManager PagedMetadata PromptPositions BatchEngine PromptColumns CausalMask EagerThinker EagerRows EagerGeneration
open EagerDecode PrefixReuse EagerAgreement ScratchDecode RowOracle Scheduler GreedyRefinement PagedLayers PagedMemory PagedGreedy

variable {φ η κ : Type}

section Clients
variable {μ ρ ω : Type}

theorem chooseScratch (thinker : PagedThinker φ η μ κ ρ ω) (prompt : List (Column φ)) (out : List Nat) :
    choose thinker prompt out = pickedLast (causal thinker) (prompt ++ tokenColumns out) := by
  rw [choose,pickedLast,picks,List.getLast?_map]
  rfl

def clientAudio (run : ContinuousRun φ) (client : Nat) : List φ :=
  (run.audioFeatures.drop ((audioOffsets run).getD client 0)).take ((rowAudioLens run).getD client 0)

variable {run : ContinuousRun φ} {prompts : List (List Nat)} {client : Nat} {prompt : List Nat}

theorem clientPlaces (prepared : Prepared run prompts) (found : prompts[client]? = some prompt) :
    (audioOffsets run).getD client 0 = ((prompts.map (·.count run.thinker.audioTokenId)).take client).sum ∧
      (rowAudioLens run).getD client 0 = prompt.count run.thinker.audioTokenId := by
  have lens := audioLens prepared
  have bound : client < run.prepared.length := by
    rw [prepared.rows.length_eq]
    exact (List.getElem?_eq_some_iff.mp found).1
  exact ⟨by simp [audioOffsets,List.getD_eq_getElem?_getD,bound,lens],by simp [lens,List.getD_eq_getElem?_getD,found]⟩

theorem clientColumns (prepared : Prepared run prompts) (found : prompts[client]? = some prompt) :
    (clientPrompts run prompts)[client]? =
      some (mergeRow run.thinker.audioTokenId (clientAudio run client) 0 prompt) := by
  obtain ⟨offset,len⟩ := clientPlaces prepared found
  rw [clientPrompts,mergeRowsGet _ _ _ found,Nat.zero_add]
  refine congrArg some (mergeRowCongr fun j less => ?_)
  rw [clientAudio,offset,len,Nat.zero_add,List.getElem?_take_of_lt less,List.getElem?_drop]

theorem clientCounted (prepared : Prepared run prompts) (found : prompts[client]? = some prompt)
    (features : (rowAudioLens run).sum = run.audioFeatures.length) :
    prompt.count run.thinker.audioTokenId = (clientAudio run client).length := by
  obtain ⟨offset,len⟩ := clientPlaces prepared found
  have own : (prompts.map (·.count run.thinker.audioTokenId))[client]? = some (prompt.count run.thinker.audioTokenId) := by
    rw [List.getElem?_map,found]
    rfl
  have within := startWithin own
  rw [audioLens prepared] at features
  rw [start] at within
  rw [clientAudio,offset,len,List.length_take,List.length_drop]
  omega

/-- What a client of any batch on the paged cache is answered, the eager model generates from the
client's prompt and features alone, as long as no token of the answer is a placeholder. -/
theorem batchesEager {thinker : PagedThinker φ η μ κ ρ ω} {blockSize numBlocks : Nat} {reads : μ → Nat → κ}
    (fitted : Fitted thinker blockSize reads) {cudaGraph : Bool} {r : PagedCacheRuntime φ}
    (fresh : newRuntime numBlocks blockSize cudaGraph = .ok r) {batches : List (Batch φ)} (served : Batches thinker r batches) :
    ∀ batch ∈ batches, batch.run.eosTokenIds ≠ [] →
      ∀ (client : Nat) (prompt row : List Nat), batch.prompts[client]? = some prompt → prompt ≠ [] →
        Sized 1 prompt.length batch.run.maxNewTokens → batch.outputs[client]? = some row → thinker.audioTokenId ∉ row →
        greedyGenerate (causal thinker) prompt (List.replicate prompt.length 1) (some (clientAudio batch.run client))
          batch.run.maxNewTokens batch.run.eosTokenIds = .ok row := by
  intro batch inside some_ client prompt row found nonempty sized answered apart
  obtain ⟨model,prepared,features,outputs⟩ :=
    batchesServed fitted (idleFresh fresh) served batch inside
  have audioToken : batch.run.thinker.audioTokenId = thinker.audioTokenId := by rw [model]; rfl
  have columns := clientColumns prepared found
  rw [audioToken] at columns
  rw [outputs,goals,List.getElem?_map,columns,Option.map_some,Option.some.injEq,greedyDecode] at answered
  have same : choose thinker (mergeRow thinker.audioTokenId (clientAudio batch.run client) 0 prompt) = fun out =>
      pickedLast (causal thinker) (mergeRow thinker.audioTokenId (clientAudio batch.run client) 0 prompt ++ tokenColumns out) :=
    funext fun out => chooseScratch thinker _ out
  rw [same] at answered
  rcases Nat.eq_zero_or_pos batch.run.maxNewTokens with zero | limit
  · have plain : Unpadded prompt (List.replicate prompt.length 1) :=
      ⟨nonempty,List.length_replicate,fun m inside => by rw [List.eq_of_mem_replicate inside]; exact Nat.one_ne_zero⟩
    rw [zero] at answered ⊢
    subst answered
    exact exceptBind.mpr ⟨(),singleChecksGo some_ plain,rfl⟩
  · have clients : batch.run.prepared ≠ [] := by
      have bound := (List.getElem?_eq_some_iff.mp found).1
      rw [← prepared.rows.length_eq] at bound
      exact List.ne_nil_of_length_pos (by omega)
    have counted := clientCounted prepared found (features clients (by omega))
    rw [audioToken] at counted
    rw [← answered] at apart ⊢
    exact scratchGreedy (causal thinker) some_ nonempty counted sized apart

theorem batchesEagerAdding : greedyGenerate (causal adding) [9,8,9] [1,1,1] (some [4,5]) 3 [2] = .ok [5] :=
  batchesEager addingFitted fourFreeMade addingServed firstBatch List.mem_cons_self (by decide) 1 [9,8,9] [5] rfl
    (by decide) ⟨by decide,by decide⟩ rfl (by decide)

end Clients

end Qwen3Asr.PagedEager
