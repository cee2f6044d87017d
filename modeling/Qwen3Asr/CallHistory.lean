import Qwen3Asr.PrefillOutcome

/-! What the forward calls of a cache runtime fed each request: the columns of its
prompt, and the rows decoded for it since. -/
namespace Qwen3Asr.CallHistory
open Library.Effect Library.Word Library.Holding
open BlockManager PagedMetadata PromptPositions BatchEngine DecodeOutcome PrefillOutcome

variable {φ : Type}

theorem idxOfGet {ids : List Nat} {k requestId : Nat} (once : ids.Nodup) (found : ids[k]? = some requestId) :
    ids.idxOf requestId = k := by
  obtain ⟨bound,rfl⟩ := List.getElem?_eq_some_iff.mp found
  exact once.idxOf_getElem k bound

structure DecodeRow where
  token : Nat
  position : List Int
  slot : Int
  contextLen : Nat
  blockTable : List Nat
  deriving DecidableEq, Repr

def decodeRowAt (call : ForwardCall φ) (k : Nat) : DecodeRow where
  token := ((call.columns.getD k []).head?.map Column.id).getD 0
  position := call.positionIds.getD k []
  slot := call.metadata.slotMapping.getD k padSlotId
  contextLen := call.metadata.contextLens.getD k 0
  blockTable := call.metadata.blockTables.getD k []

/- Only prefill calls carry query lengths. -/
def decodeRows (requestId : Nat) : List (ForwardCall φ) → List DecodeRow
  | [] => []
  | call::older =>
    if requestId ∈ call.requestIds then
      if call.metadata.queryLens.isSome then []
      else decodeRows requestId older ++ [decodeRowAt call (call.requestIds.idxOf requestId)]
    else decodeRows requestId older

def promptColumns (packed : Bool) (call : ForwardCall φ) (lens : List Nat) (k : Nat) : List (Column φ) :=
  if packed then ((call.columns.headD []).drop (lens.take k).sum).take (lens.getD k 0)
  else (call.columns.getD k []).take (lens.getD k 0)

def promptOf (packed : Bool) (requestId : Nat) : List (ForwardCall φ) → List (Column φ)
  | [] => []
  | call::older =>
    if requestId ∈ call.requestIds then match call.metadata.queryLens with
      | some lens => promptColumns packed call lens (call.requestIds.idxOf requestId)
      | none => promptOf packed requestId older
    else promptOf packed requestId older

structure AtPosition (cache : PagedKvCache) (m : PagedBlockManager) (requestId p : Nat) (row : DecodeRow) : Prop where
  position : row.position = [(p:Int)]
  context : row.contextLen = p+1
  slot : ∃ seq ids cols, row.blockTable = ids ++ List.replicate cols 0 ∧ ids <+: table m requestId ∧
    slotInTable "seq" cache.blockSize cache.numBlocks seq ids p = .ok row.slot

structure Untouched (requestId : Nat) (r t : PagedCacheRuntime φ) : Prop where
  cache : t.cache = r.cache
  calls : ∃ calls, t.history = calls ++ r.history ∧ ∀ call ∈ calls, requestId ∉ call.requestIds
  grows : table r.manager requestId <+: table t.manager requestId

theorem untouchedRefl (requestId : Nat) (r : PagedCacheRuntime φ) : Untouched requestId r r :=
  ⟨rfl,⟨[],rfl,by simp⟩,List.prefix_refl _⟩

theorem untouchedManager {requestId : Nat} {r : PagedCacheRuntime φ} {m : PagedBlockManager}
    (grows : table r.manager requestId <+: table m requestId) : Untouched requestId r {r with manager := m} :=
  ⟨rfl,⟨[],rfl,by simp⟩,grows⟩

theorem untouchedCall {requestId : Nat} {r : PagedCacheRuntime φ} {m : PagedBlockManager} {call : ForwardCall φ}
    (out : requestId ∉ call.requestIds) (grows : table r.manager requestId <+: table m requestId) :
    Untouched requestId r {r with manager := m, history := call::r.history} :=
  ⟨rfl,⟨[call],rfl,by simpa using out⟩,grows⟩

theorem untouchedRows {requestId : Nat} {r t : PagedCacheRuntime φ} (untouched : Untouched requestId r t) :
    decodeRows requestId t.history = decodeRows requestId r.history := by
  obtain ⟨calls,same,out⟩ := untouched.calls
  rw [same]
  clear same
  induction calls with
  | nil => rfl
  | cons call calls ih =>
    rw [List.cons_append,decodeRows,if_neg (out _ List.mem_cons_self)]
    exact ih fun other inside => out other (List.mem_cons_of_mem _ inside)

theorem untouchedPrompt {requestId : Nat} {packed : Bool} {r t : PagedCacheRuntime φ}
    (untouched : Untouched requestId r t) :
    promptOf packed requestId t.history = promptOf packed requestId r.history := by
  obtain ⟨calls,same,out⟩ := untouched.calls
  rw [same]
  clear same
  induction calls with
  | nil => rfl
  | cons call calls ih =>
    rw [List.cons_append,promptOf,if_neg (out _ List.mem_cons_self)]
    exact ih fun other inside => out other (List.mem_cons_of_mem _ inside)

theorem positionGrows {cache : PagedKvCache} {m t : PagedBlockManager} {requestId p : Nat} {row : DecodeRow}
    (grows : table m requestId <+: table t requestId) (placed : AtPosition cache m requestId p row) :
    AtPosition cache t requestId p row := by
  obtain ⟨seq,ids,cols,host,own,slot⟩ := placed.slot
  exact ⟨placed.position,placed.context,seq,ids,cols,host,own.trans grows,slot⟩

section Tables

theorem tableGranted (m : PagedBlockManager) (k n j : Nat) : table m j <+: table (granted m k n) j := by
  by_cases same : j = k
  · subst same
    have grown : table (granted m j n) j = table m j ++ m.free.take n := heldInsert _ _ _
    rw [grown]
    exact List.prefix_append _ _
  · have kept : table (granted m k n) j = table m j := heldInsertNe same
    rw [kept]

theorem tryAllocateGrows {requestId numTokens : Nat} {m t : PagedBlockManager} {granted : Bool}
    (ok : tryAllocateSlots requestId numTokens m = .ok granted t) (j : Nat) : table m j <+: table t j := by
  rcases tryAllocateCases m requestId numTokens with ⟨_,same⟩ | ⟨_,same⟩ | ⟨_,_,same⟩
  all_goals
    rw [same] at ok
    cases ok
  · exact List.prefix_refl _
  · exact List.prefix_refl _
  · exact tableGranted m requestId _ j

theorem allocateGrows {requestId numTokens : Nat} {m t : PagedBlockManager}
    (ok : allocateSlots requestId numTokens m = .ok () t) (j : Nat) : table m j <+: table t j := by
  rcases allocateCases m requestId numTokens with ⟨e,failed,_⟩ | ⟨u,done,granted⟩
  · rw [failed] at ok
    cases ok
  · rw [done] at ok
    cases ok
    exact tryAllocateGrows granted j

theorem chainGrows {α β : Type} {f : α → Managed β}
    (each : ∀ a m b t, f a m = .ok b t → ∀ j, table m j <+: table t j) {xs : List α} {ys : List β}
    {m t : PagedBlockManager} (chain : Chain f xs m ys t) (j : Nat) : table m j <+: table t j := by
  induction chain with
  | nil => exact List.prefix_refl _
  | cons head _ ih => exact (each _ _ _ _ head j).trans ih

theorem tableTrimmed {m : PagedBlockManager} {requestId numTokens j : Nat} (apart : j ≠ requestId) :
    table (trimRequestToNumTokens m requestId numTokens) j = table m j := by
  unfold trimRequestToNumTokens
  split
  · rfl
  · dsimp only
    split
    · rfl
    · exact heldInsertNe apart

theorem tableFreed {m : PagedBlockManager} {requestId j : Nat} (apart : j ≠ requestId) :
    table (freeRequest m requestId) j = table m j := by
  unfold freeRequest
  split
  · rfl
  · exact heldEraseNe apart

theorem tableFreedMany {m : PagedBlockManager} {requestIds : List Nat} {j : Nat} (out : j ∉ requestIds) :
    table (freeMany m requestIds) j = table m j := by
  induction requestIds generalizing m with
  | nil => rfl
  | cons k ks ih =>
    obtain ⟨apart,out⟩ := not_or.mp (mt List.mem_cons.mpr out)
    have rest := ih (m := freeRequest m k) out
    exact rest.trans (tableFreed apart)

theorem tableTrimEnded {eosTokenIds : List Nat} {rows : List PagedBatchRow} {m : PagedBlockManager} {j : Nat}
    (stays : ∀ row ∈ rows, row.requestId = j → eosTokenIds.contains row.nextId = false) :
    table (trimEnded eosTokenIds rows m) j = table m j := by
  induction rows generalizing m with
  | nil => rfl
  | cons row rows ih =>
    have others := fun other inside => stays other (List.mem_cons_of_mem _ inside)
    have rest := fun m => ih (m := m) others
    unfold trimEnded at rest ⊢
    rw [List.foldl_cons,rest]
    split
    · rename_i ends
      exact tableTrimmed fun same => by
        have goes := stays row List.mem_cons_self same.symm
        rw [goes] at ends
        cases ends
    · rfl

end Tables

theorem positionIdsAt {promptLens : List Int} {step : Nat} {positionIds : List (List Int)}
    (ok : positionIdsForStep promptLens step = .ok positionIds) {k : Nat} {base : Int}
    (found : promptLens[k]? = some base) : positionIds[k]? = some [base+step] := by
  unfold positionIdsForStep at ok
  split at ok <;> try contradiction
  simp only [exceptBind,okOrOk,i64TryFromSome] at ok
  obtain ⟨_,⟨_,rfl⟩,each⟩ := ok
  have pairs := exceptMapM.mp each
  obtain ⟨bound,rfl⟩ := List.getElem?_eq_some_iff.mp found
  have inside : k < positionIds.length := by simpa [← pairs.length_eq] using bound
  have row := (List.forall₂_iff_get.mp pairs).2 k (by simpa using bound) inside
  simp only [List.get_eq_getElem,List.getElem_zipIdx,exceptBind,okOrOk,i64CheckedAddSome] at row
  obtain ⟨_,⟨_,rfl⟩,same⟩ := row
  rw [List.getElem?_eq_getElem inside,← Except.ok.inj same]

theorem forwardedToken {thinker : Thinker φ} {active : List PagedBatchRow} {blockTables : List (List Nat)}
    {step : Nat} {r : PagedCacheRuntime φ} {call : ForwardCall φ} {logits : Nat → Nat → Nat}
    (forward : Forwarded thinker active blockTables step r call logits) {k : Nat} {row : PagedBatchRow}
    (found : active[k]? = some row) : (decodeRowAt call k).token = row.generated.getLastD row.nextId := by
  have columns : call.columns[k]? = some [⟨row.generated.getLastD row.nextId,none⟩] := by
    rw [forward.columns,List.getElem?_map,found]
    rfl
  simp [decodeRowAt,List.getD_eq_getElem?_getD,columns]

theorem forwardedRow {thinker : Thinker φ} {active : List PagedBatchRow} {m : PagedBlockManager}
    {blockTables : List (List Nat)} {step : Nat} {r : PagedCacheRuntime φ} {call : ForwardCall φ}
    {logits : Nat → Nat → Nat} (forward : Forwarded thinker active blockTables step r call logits)
    (read : blockTablesFor m (active.map PagedBatchRow.requestId) = .ok blockTables)
    {k : Nat} {row : PagedBatchRow} (found : active[k]? = some row)
    (same : row.promptLenI64 = row.promptLenUsize) :
    AtPosition r.cache m row.requestId (row.promptLenUsize+step) (decodeRowAt call k) := by
  have position := positionIdsAt forward.positions
    (show (active.map PagedBatchRow.promptLenI64)[k]? = some row.promptLenI64 by simp [found])
  have ids := tableAt read (show (active.map PagedBatchRow.requestId)[k]? = some row.requestId by simp [found])
  obtain ⟨slot,slots,placed,contexts⟩ := decodeMetadataRow forward.metadata
    (show (active.map PagedBatchRow.promptLenUsize)[k]? = some row.promptLenUsize by simp [found])
  obtain ⟨_,hosts,_⟩ := decodeMetadataParts forward.metadata
  have host := blockTableHostRow hosts ids
  have slotOk := (slotForBlockTablePositionOk ids).mp placed
  exact {
    position := by simp [decodeRowAt,List.getD_eq_getElem?_getD,position,same]
    context := by simp [decodeRowAt,List.getD_eq_getElem?_getD,contexts]
    slot := ⟨k,table m row.requestId,_,by simp only [decodeRowAt,List.getD_eq_getElem?_getD,host]; rfl,
      List.prefix_refl _,by simpa [decodeRowAt,List.getD_eq_getElem?_getD,slots] using slotOk⟩}

theorem prefillUntouched {thinker : Thinker φ} {inputIds attentionMask : List (List Nat)}
    {audioFeatures : Option (List φ)} {config : PagedBatchConfig} {r t : PagedCacheRuntime φ}
    {state : PagedBatchState} (p : PrefillOk thinker inputIds attentionMask audioFeatures config r state t)
    {requestId : Nat} (before : requestId < config.requestIdBase) : Untouched requestId r t := by
  obtain ⟨_,called,_,each⟩ := prefilledRow p
  have out : requestId ∉ p.prefilled.call.requestIds := by
    rw [called]
    intro inside
    obtain ⟨k,_,same⟩ := List.mem_map.mp inside
    omega
  have allocated : table r.manager requestId <+: table p.m requestId := by
    have chain := mapMChain.mp p.allocated
    exact chainGrows (fun _ _ _ _ ok => by
      obtain ⟨_,_,ok,last⟩ := bindOk.mp ok
      cases last
      exact allocateGrows ok) chain requestId
  have kept : table (trimEnded config.eosTokenIds state.rows p.m) requestId = table p.m requestId :=
    tableTrimEnded fun row inside same => by
      obtain ⟨k,found⟩ := List.mem_iff_getElem?.mp inside
      obtain ⟨_,_,_,made⟩ := each k row found
      rw [made] at same
      dsimp only at same
      omega
  rw [p.runtime]
  exact untouchedCall out (kept ▸ allocated)

end Qwen3Asr.CallHistory
