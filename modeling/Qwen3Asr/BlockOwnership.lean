import Qwen3Asr.PrefillOutcome

/-! Whose blocks the manager holds, through every step of the engine whether it returns
or fails. -/
namespace Qwen3Asr.BlockOwnership
open Library.Holding Library.Effect Library.Word
open BlockManager PagedMetadata PromptPositions BatchEngine DecodeOutcome PrefillOutcome

variable {φ : Type}

structure Pooled (numBlocks : Nat) (m : PagedBlockManager) : Prop where
  size : 0 < m.blockSize
  free : m.free.Perm (List.range' 1 (numBlocks-1))
  empty : m.requestBlocks = ∅

structure Owns (numBlocks : Nat) (ids : List Nat) (m : PagedBlockManager) : Prop where
  size : 0 < m.blockSize
  conserved : ∃ l : Blocks numBlocks, Represents l m
  listed : ∀ k, k ∈ m.requestBlocks → k ∈ ids

def Holds (m t : PagedBlockManager) : Prop := ∀ k, k ∈ m.requestBlocks → k ∈ t.requestBlocks

instance : IsPreorder PagedBlockManager Holds where
  refl _ _ := id
  trans _ _ _ first second k inside := second k (first k inside)

theorem pooledOwns {numBlocks : Nat} {m : PagedBlockManager} (pooled : Pooled numBlocks m) (ids : List Nat) :
    Owns numBlocks ids m where
  size := pooled.size
  conserved := ⟨⟨m.free,m.requestBlocks,by simpa [pooled.empty] using pooled.free⟩,⟨rfl,rfl⟩⟩
  listed k inside := by
    rw [pooled.empty] at inside
    exact absurd inside (AList.notMem_empty k)

theorem ownsPooled {numBlocks : Nat} {m : PagedBlockManager} (owns : Owns numBlocks [] m) : Pooled numBlocks m := by
  obtain ⟨l,r⟩ := owns.conserved
  have empty : m.requestBlocks = ∅ := by
    refine AList.ext (List.eq_nil_iff_forall_not_mem.mpr fun e inside => ?_)
    have member : e.1 ∈ m.requestBlocks := List.mem_map.mpr ⟨e,inside,rfl⟩
    exact absurd (owns.listed e.1 member) (List.not_mem_nil)
  have split := l.conserved
  rw [← r.free,← r.blocks,empty,contentsEmpty,List.append_nil] at split
  exact ⟨owns.size,split,empty⟩

theorem ownsMono {numBlocks : Nat} {ids ids' : List Nat} {m : PagedBlockManager} (owns : Owns numBlocks ids m)
    (more : ∀ k ∈ ids, k ∈ ids') : Owns numBlocks ids' m :=
  ⟨owns.size,owns.conserved,fun k inside => more k (owns.listed k inside)⟩

@[simp] theorem freeSize (m : PagedBlockManager) (k : Nat) : (freeRequest m k).blockSize = m.blockSize := by
  unfold freeRequest
  split <;> rfl

@[simp] theorem freeManySize (m : PagedBlockManager) (ks : List Nat) : (freeMany m ks).blockSize = m.blockSize := by
  induction ks generalizing m with
  | nil => rfl
  | cons k ks ih => exact (ih (freeRequest m k)).trans (freeSize m k)

theorem freeKeys {m : PagedBlockManager} {j k : Nat} :
    k ∈ (freeRequest m j).requestBlocks ↔ k ≠ j ∧ k ∈ m.requestBlocks := by
  unfold freeRequest
  split
  · rename_i unknown
    have absent : j ∉ m.requestBlocks := AList.lookup_eq_none.mp unknown
    exact ⟨fun inside => ⟨fun same => absent (same ▸ inside),inside⟩,fun both => both.2⟩
  · exact AList.mem_erase

theorem freeManyKeys {m : PagedBlockManager} {ks : List Nat} {k : Nat} :
    k ∈ (freeMany m ks).requestBlocks ↔ k ∉ ks ∧ k ∈ m.requestBlocks := by
  induction ks generalizing m with
  | nil => exact ⟨fun inside => ⟨List.not_mem_nil,inside⟩,fun both => both.2⟩
  | cons j ks ih =>
    have rest := ih (m := freeRequest m j)
    rw [freeKeys] at rest
    rw [List.mem_cons,not_or]
    exact rest.trans ⟨fun ⟨out,apart,inside⟩ => ⟨⟨apart,out⟩,inside⟩,
      fun ⟨⟨apart,out⟩,inside⟩ => ⟨out,apart,inside⟩⟩

theorem ownsFreeMany {numBlocks : Nat} {ids ids' ks : List Nat} {m : PagedBlockManager}
    (owns : Owns numBlocks ids m) (rest : ∀ k ∈ ids, k ∉ ks → k ∈ ids') : Owns numBlocks ids' (freeMany m ks) where
  size := by
    rw [freeManySize]
    exact owns.size
  conserved := by
    obtain ⟨l,r⟩ := owns.conserved
    exact freeManyRepresents r ks
  listed k inside := by
    obtain ⟨out,before⟩ := freeManyKeys.mp inside
    exact rest k (owns.listed k before) out

theorem freeManyUnknown {m : PagedBlockManager} (empty : m.requestBlocks = ∅) (ks : List Nat) :
    freeMany m ks = m := by
  induction ks with
  | nil => rfl
  | cons k ks ih =>
    have same : freeRequest m k = m := by simp [freeRequest,empty]
    change freeMany (freeRequest m k) ks = m
    rw [same,ih]

structure Stable (ids : List Nat) (R : PagedBlockManager → PagedBlockManager → Prop) : Prop where
  order : IsPreorder PagedBlockManager R
  grant : ∀ k ∈ ids, ∀ numTokens, Within R (tryAllocateSlots k numTokens)
  trim : ∀ k numTokens m, R m (trimRequestToNumTokens m k numTokens)

theorem trimKeys {m : PagedBlockManager} {requestId numTokens k : Nat} :
    k ∈ (trimRequestToNumTokens m requestId numTokens).requestBlocks ↔ k ∈ m.requestBlocks := by
  unfold trimRequestToNumTokens
  split
  · rfl
  · rename_i ids found
    dsimp only
    split
    · rfl
    · have member : requestId ∈ m.requestBlocks := AList.lookup_isSome.mp (by simp [found])
      rw [AList.mem_insert]
      exact ⟨fun either => either.elim (fun same => same ▸ member) id,.inr⟩

@[simp] theorem trimSize (m : PagedBlockManager) (k numTokens : Nat) :
    (trimRequestToNumTokens m k numTokens).blockSize = m.blockSize := by
  unfold trimRequestToNumTokens
  split
  · rfl
  · dsimp only
    split <;> rfl

theorem ownsStable (numBlocks : Nat) (ids : List Nat) : Stable ids (Keeps (Owns numBlocks ids)) where
  order := inferInstance
  grant k inside numTokens m owns := by
    obtain ⟨l,r⟩ := owns.conserved
    have kept := tryAllocateRepresents r k numTokens
    rcases tryAllocateCases m k numTokens with ⟨_,same⟩ | ⟨_,same⟩ | ⟨_,_,same⟩
    all_goals rw [same] at kept ⊢
    · exact owns
    · exact owns
    · exact ⟨owns.size,kept,fun j member => by
        rcases (AList.mem_insert _).mp member with rfl | before
        · exact inside
        · exact owns.listed j before⟩
  trim k numTokens m owns := by
    obtain ⟨l,r⟩ := owns.conserved
    exact ⟨by rw [trimSize]; exact owns.size,trimRepresents r k numTokens,
      fun j member => owns.listed j (trimKeys.mp member)⟩

theorem holdsStable (ids : List Nat) : Stable ids Holds where
  order := inferInstance
  grant k _ numTokens m j member := by
    rcases tryAllocateCases m k numTokens with ⟨_,same⟩ | ⟨_,same⟩ | ⟨_,_,same⟩
    all_goals rw [same]
    · exact member
    · exact member
    · exact (AList.mem_insert _).mpr (.inr member)
  trim k numTokens m j member := trimKeys.mpr member

abbrev OnManager (R : PagedBlockManager → PagedBlockManager → Prop) (r t : PagedCacheRuntime φ) : Prop :=
  R r.manager t.manager

instance (R : PagedBlockManager → PagedBlockManager → Prop) [IsPreorder PagedBlockManager R] :
    IsPreorder (PagedCacheRuntime φ) (OnManager R) where
  refl r := refl_of R r.manager
  trans _ _ _ first second := trans_of R first second

section Steps
variable {ids : List Nat} {R : PagedBlockManager → PagedBlockManager → Prop}

theorem withinManager [IsPreorder PagedBlockManager R] {α : Type} {x : Managed α} (rule : Within R x) :
    Within (OnManager R) (managerMut x : Engine φ α) := withinZoom (fun _ _ related => related) rule

theorem withinForward [IsPreorder PagedBlockManager R] (thinker : Thinker φ) (call : ForwardCall φ) :
    Within (OnManager R) (runForward thinker call) := by
  intro r
  unfold runForward
  cases thinker.forward r.history call <;> exact refl_of R r.manager

theorem allocateStable (stable : Stable ids R) {k : Nat} (inside : k ∈ ids) (numTokens : Nat) :
    Within R (allocateSlots k numTokens) := by
  have := stable.order
  exact withinBind (stable.grant k inside numTokens) fun granted => by
    cases granted with
    | true => exact withinPure ()
    | false => exact withinGetBind fun m => withinThrow _

theorem trimEndedStable (stable : Stable ids R) (eosTokenIds : List Nat) (rows : List PagedBatchRow)
    (m : PagedBlockManager) : R m (trimEnded eosTokenIds rows m) := by
  have := stable.order
  induction rows generalizing m with
  | nil => exact refl_of R m
  | cons row rows ih =>
    change R m (trimEnded eosTokenIds rows (if eosTokenIds.contains row.nextId then _ else m))
    split
    · exact trans_of R (stable.trim _ _ m) (ih _)
    · exact ih m

theorem trimStable (stable : Stable ids R) (eosTokenIds : List Nat) (rows : List PagedBatchRow) :
    Within (OnManager R) (managerMut (modify (trimEnded eosTokenIds rows)) : Engine φ Unit) := by
  have := stable.order
  exact withinManager (withinModify fun m => trimEndedStable stable eosTokenIds rows m)

theorem decodeForwardStable (stable : Stable ids R) (thinker : Thinker φ) (rows : List PagedBatchRow)
    (blockTables : List (List Nat)) (step : Nat) : Within (OnManager R) (decodeForward thinker rows blockTables step) := by
  have := stable.order
  exact withinBind (withinAttempt _) fun _ => withinGetBind fun _ => withinBind (withinAttempt _) fun _ =>
    withinBind (withinForward thinker _) fun _ => withinPure _

theorem allocateNextStable (stable : Stable ids R) (step : Nat) {slot : PagedDecodeSlot}
    (inside : slot.requestId ∈ ids) : Within R (allocateNext step slot) := by
  have := stable.order
  unfold allocateNext
  split
  · exact withinBind (withinAttempt _) fun numTokens => stable.grant _ inside numTokens
  · exact withinPure false

theorem decodeSlotsStable (stable : Stable ids R) (thinker : Thinker φ) {slots : List PagedDecodeSlot}
    (step maxNewTokens : Nat) (eosTokenIds : List Nat) (known : ∀ slot ∈ slots, slot.requestId ∈ ids) :
    Within (OnManager R) (pagedBatchDecodeSlotsAtStep thinker slots step maxNewTokens eosTokenIds) := by
  have := stable.order
  unfold pagedBatchDecodeSlotsAtStep
  split
  · exact withinPure _
  split
  · exact withinPure _
  split
  · exact withinThrow _
  split
  · exact withinPure _
  exact withinBind (withinManager (withinMapM fun slot inside => allocateNextStable stable step (known slot inside)))
    fun granted => by
      split
      · exact withinPure _
      exact withinBind (trimStable stable _ _) fun _ => by
        dsimp only
        split
        · exact withinPure _
        exact withinGetBind fun _ => withinBind (withinAttempt _) fun _ =>
          withinBind (decodeForwardStable stable thinker _ _ step) fun _ => withinPure _

theorem decodeStepStable (stable : Stable ids R) (thinker : Thinker φ) {state : PagedBatchState}
    (known : ∀ row ∈ state.rows, row.requestId ∈ ids) : Within (OnManager R) (pagedBatchDecodeStep thinker state) := by
  have := stable.order
  unfold pagedBatchDecodeStep
  split
  · exact withinPure _
  split
  · exact withinPure _
  have rows : Within R (state.rows.mapM (allocateRow state.decodeStep)) := withinMapM fun row inside => by
    unfold allocateRow
    split
    · exact withinPure ()
    · exact withinBind (withinAttempt _) fun numTokens => allocateStable stable (known row inside) numTokens
  exact withinBind (withinManager rows) fun _ => withinGetBind fun _ => withinBind (withinAttempt _) fun _ =>
    withinBind (trimStable stable _ _) fun _ => by
      dsimp only
      split
      · exact withinPure _
      · exact withinBind (decodeForwardStable stable thinker _ _ _) fun _ => withinPure _

theorem takeRowIds (eosTokenIds : List Nat) (row : PagedBatchRow) :
    (takeRowToken eosTokenIds row).requestId = row.requestId := by
  unfold takeRowToken takeToken
  split
  · rfl
  · split <;> rfl

theorem setNextIds (rows : List PagedBatchRow) (next : List Nat) :
    (setNext rows next).map PagedBatchRow.requestId = rows.map PagedBatchRow.requestId := by
  induction rows generalizing next with
  | nil => rfl
  | cons row rows ih =>
    unfold setNext
    split
    · simp [ih]
    · cases next <;> simp [ih]

theorem blockTableIds {rows : List PagedBatchRow} {blockTables : List (List Nat)}
    (counted : rows.length = blockTables.length) :
    (rows.zipWith (fun row blockTable => {row with blockTable}) blockTables).map PagedBatchRow.requestId =
      rows.map PagedBatchRow.requestId := by
  induction rows generalizing blockTables with
  | nil => rfl
  | cons row rows ih =>
    cases blockTables with
    | nil => cases counted
    | cons blockTable blockTables =>
      rw [List.zipWith_cons_cons,List.map_cons,List.map_cons,ih (Nat.succ.inj counted)]

theorem decodeStepIds {thinker : Thinker φ} {state state' : PagedBatchState} {r t : PagedCacheRuntime φ}
    {continued : Bool} (ok : pagedBatchDecodeStep thinker state r = .ok (continued,state') t) :
    state'.rows.map PagedBatchRow.requestId = state.rows.map PagedBatchRow.requestId := by
  unfold pagedBatchDecodeStep at ok
  split at ok
  · cases ok; rfl
  split at ok
  · cases ok; rfl
  obtain ⟨_,_,_,ok⟩ := bindOk.mp ok
  obtain ⟨_,_,same,ok⟩ := bindOk.mp ok
  cases same
  obtain ⟨blockTables,_,tables,ok⟩ := bindOk.mp ok
  obtain ⟨read,rfl⟩ := attemptOk.mp tables
  obtain ⟨_,_,_,ok⟩ := bindOk.mp ok
  have counted : state.rows.length = blockTables.length := by simpa using (exceptMapM.mp read).length_eq
  have taken : ((state.rows.zipWith (fun row blockTable => {row with blockTable}) blockTables).map
      (takeRowToken state.eosTokenIds)).map PagedBatchRow.requestId = state.rows.map PagedBatchRow.requestId := by
    rw [List.map_map,← blockTableIds counted]
    exact List.map_congr_left fun row _ => takeRowIds _ row
  dsimp only at ok
  split at ok
  · cases ok
    exact taken
  · obtain ⟨next,_,_,ok⟩ := bindOk.mp ok
    cases ok
    exact (setNextIds _ _).trans taken

theorem runStepsStable (stable : Stable ids R) (thinker : Thinker φ) (turns : Nat) {state : PagedBatchState}
    (known : ∀ row ∈ state.rows, row.requestId ∈ ids) :
    Within (OnManager R) (runSteps thinker turns state) := by
  have := stable.order
  induction turns generalizing state with
  | zero => exact withinPure state
  | succ turns ih =>
    unfold runSteps
    split
    · intro r
      have first := decodeStepStable stable thinker known r
      change OnManager R r (after (EStateM.bind _ _ r))
      unfold EStateM.bind
      cases step : pagedBatchDecodeStep thinker state r with
      | error e t => rwa [step] at first
      | ok out t =>
        obtain ⟨continued,state'⟩ := out
        rw [step] at first
        cases continued with
        | false => exact first
        | true =>
          have same := decodeStepIds step
          have known' : ∀ row ∈ state'.rows, row.requestId ∈ ids := fun row inside => by
            have member := List.mem_map_of_mem (f := PagedBatchRow.requestId) inside
            rw [same] at member
            obtain ⟨row',there,equal⟩ := List.mem_map.mp member
            exact equal ▸ known row' there
          exact trans_of (OnManager R) first (ih known' t)
    · exact withinPure state

theorem runStepsIds {thinker : Thinker φ} {turns : Nat} {state state' : PagedBatchState}
    {r t : PagedCacheRuntime φ} (ok : runSteps thinker turns state r = .ok state' t) :
    state'.rows.map PagedBatchRow.requestId = state.rows.map PagedBatchRow.requestId := by
  induction turns generalizing state r with
  | zero => cases ok; rfl
  | succ turns ih =>
    unfold runSteps at ok
    split at ok
    · obtain ⟨⟨continued,next⟩,_,step,ok⟩ := bindOk.mp ok
      have same := decodeStepIds step
      cases continued with
      | false => cases ok; exact same
      | true => exact (ih ok).trans same
    · cases ok; rfl

theorem allocatePromptsStable (stable : Stable ids R) {config : PagedBatchConfig} {rows : List PromptRow}
    (known : ∀ i < rows.length, config.requestIdBase+i ∈ ids) : Within R (allocatePrompts config rows) := by
  have := stable.order
  exact withinMapM fun p inside => by
    obtain ⟨row,i⟩ := p
    have bound := (List.getElem?_eq_some_iff.mp (List.mem_zipIdx_iff_getElem?.mp inside)).1
    exact withinBind (allocateStable stable (known i bound) row.len) fun _ => withinPure _

theorem prefillStable (stable : Stable ids R) (thinker : Thinker φ) {inputIds attentionMask : List (List Nat)}
    (audioFeatures : Option (List φ)) {config : PagedBatchConfig}
    (known : ∀ i < inputIds.length, config.requestIdBase+i ∈ ids) :
    Within (OnManager R) (pagedBatchPrefill thinker inputIds attentionMask audioFeatures config) := by
  have := stable.order
  intro r
  change OnManager R r (after (EStateM.bind _ _ r))
  unfold EStateM.bind
  cases check : promptRows inputIds attentionMask config with
  | error e => exact refl_of R r.manager
  | ok checked =>
    obtain ⟨seqLen,rows⟩ := checked
    have counted := (promptRowsOk check).1
    have allocated : Within (OnManager R) (managerMut (allocatePrompts config rows) : Engine φ (List Nat)) :=
      withinManager (allocatePromptsStable stable fun i bound => known i (by omega))
    exact withinBind allocated (fun _ => withinGetBind fun _ => withinBind (withinAttempt _) fun _ =>
      withinBind (withinAttempt _) fun _ => withinBind (withinForward thinker _) fun _ =>
      withinBind (withinAttempt _) fun _ => withinBind (trimStable stable _ _) fun _ => withinPure _) r

end Steps

end Qwen3Asr.BlockOwnership
