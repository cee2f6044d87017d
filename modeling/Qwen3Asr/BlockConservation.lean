import Qwen3Asr.BlockOwnership

/-! Conservation of blocks over a whole batch. What fails before the first grant, and what
returns, leaves the pool full; what fails later does not. -/
namespace Qwen3Asr.BlockConservation
open Library.Holding Library.Effect Library.Word
open BlockManager PagedMetadata PromptPositions BatchEngine DecodeOutcome PrefillOutcome BlockOwnership

variable {φ : Type}

def hasTokens (p : PromptRow × Nat) : Bool := 0 < p.1.len

def takesBlocks (config : PagedBatchConfig) (rows : List PromptRow) (m : PagedBlockManager) : Bool :=
  (rows.zipIdx.find? hasTokens).any fun p => slotsAvailableFor m (config.requestIdBase+p.2) p.1.len

/- The prefill fails after it has taken blocks. -/
def PrefillLeaks (thinker : Thinker φ) (inputIds attentionMask : List (List Nat)) (audioFeatures : Option (List φ))
    (config : PagedBatchConfig) (r : PagedCacheRuntime φ) : Prop :=
  (∃ e t, pagedBatchPrefill thinker inputIds attentionMask audioFeatures config r = .error e t) ∧
  ∃ seqLen rows, promptRows inputIds attentionMask config = .ok (seqLen,rows) ∧
    takesBlocks config rows r.manager = true

/- The prefill or one of the steps after it fails with blocks taken. -/
def RunLeaks (thinker : Thinker φ) (inputIds attentionMask : List (List Nat)) (audioFeatures : Option (List φ))
    (config : PagedBatchConfig) (r : PagedCacheRuntime φ) : Prop :=
  inputIds ≠ [] ∧ config.maxNewTokens ≠ 0 ∧
  (PrefillLeaks thinker inputIds attentionMask audioFeatures config r ∨
    ∃ state t, pagedBatchPrefill thinker inputIds attentionMask audioFeatures config r = .ok state t ∧
      ∃ e u, runSteps thinker config.maxNewTokens state t = .error e u)

section Allocation
variable {config : PagedBatchConfig}

abbrev allocatePrompt (config : PagedBatchConfig) : PromptRow × Nat → Managed Nat := fun (row,i) => do
  let requestId := config.requestIdBase+i
  allocateSlots requestId row.len
  pure requestId

theorem afterMapM {α β : Type} {f : α → Managed β} {a : α} {xs : List α} {m : PagedBlockManager} :
    after ((a::xs).mapM f m) = match f a m with
      | .ok _ t => after (xs.mapM f t)
      | .error _ t => t := by
  rw [List.mapM_cons,afterBind]
  cases f a m with
  | error e t => rfl
  | ok b t =>
    dsimp only
    rw [afterBind]
    cases xs.mapM f t <;> rfl

theorem allocateEmpty {p : PromptRow × Nat} (empty : hasTokens p = false) (m : PagedBlockManager) :
    allocatePrompt config p m = .ok (config.requestIdBase+p.2) m := by
  have zero : p.1.len = 0 := by simpa [hasTokens] using empty
  have none : needed m (config.requestIdBase+p.2) p.1.len = 0 := by simp [needed,zero]
  rcases tryAllocateCases m (config.requestIdBase+p.2) p.1.len with ⟨_,same⟩ | ⟨short,_⟩ | ⟨positive,_⟩
  · exact bindOk.mpr ⟨(),m,bindOk.mpr ⟨true,m,same,rfl⟩,rfl⟩
  · omega
  · omega

theorem allocateNothing {ps : List (PromptRow × Nat)} {m : PagedBlockManager}
    (none : ((ps.find? hasTokens).any fun p => slotsAvailableFor m (config.requestIdBase+p.2) p.1.len) = false) :
    after (ps.mapM (allocatePrompt config) m) = m := by
  induction ps with
  | nil => rfl
  | cons p ps ih =>
    rw [afterMapM]
    cases tokens : hasTokens p with
    | false =>
      rw [List.find?_cons_of_neg (by simp [tokens])] at none
      rw [allocateEmpty tokens]
      exact ih none
    | true =>
      rw [List.find?_cons_of_pos tokens,Option.any_some] at none
      have refused := (refusedIff _ _ _).mpr none
      rcases allocateCases m (config.requestIdBase+p.2) p.1.len with ⟨e,failed,_⟩ | ⟨t,_,granted⟩
      · have same : allocatePrompt config p m = .error e m := bindError.mpr (.inl failed)
        rw [same]
      · rw [refused] at granted
        cases granted

theorem allocateSomething {ps : List (PromptRow × Nat)} {m : PagedBlockManager} (positive : 0 < m.blockSize)
    (fresh : ∀ p ∈ ps, config.requestIdBase+p.2 ∉ m.requestBlocks)
    (takes : ((ps.find? hasTokens).any fun p => slotsAvailableFor m (config.requestIdBase+p.2) p.1.len) = true) :
    ∃ p ∈ ps, config.requestIdBase+p.2 ∈ (after (ps.mapM (allocatePrompt config) m)).requestBlocks := by
  induction ps with
  | nil => cases takes
  | cons p ps ih =>
    rw [afterMapM]
    cases tokens : hasTokens p with
    | false =>
      rw [List.find?_cons_of_neg (by simp [tokens])] at takes
      rw [allocateEmpty tokens]
      obtain ⟨q,inside,held⟩ := ih (fun q inside => fresh q (List.mem_cons_of_mem _ inside)) takes
      exact ⟨q,List.mem_cons_of_mem _ inside,held⟩
    | true =>
      rw [List.find?_cons_of_pos tokens,Option.any_some] at takes
      have absent := fresh p List.mem_cons_self
      have unheld : blocksForRequest m (config.requestIdBase+p.2) = 0 := by
        simp [blocksForRequest,table,held,AList.lookup_eq_none.mpr absent]
      have some : 0 < needed m (config.requestIdBase+p.2) p.1.len := by
        have len : 0 < p.1.len := by simpa [hasTokens] using tokens
        rw [needed,unheld,Nat.sub_zero,Nat.ceilDiv_eq_add_pred_div]
        exact Nat.div_pos (by omega) positive
      have granted : ∃ t, tryAllocateSlots (config.requestIdBase+p.2) p.1.len m = .ok true t ∧
          config.requestIdBase+p.2 ∈ t.requestBlocks := by
        rcases tryAllocateCases m (config.requestIdBase+p.2) p.1.len with ⟨zero,_⟩ | ⟨_,same⟩ | ⟨_,_,same⟩
        · omega
        · rw [(refusedIff _ _ _).mp same] at takes
          cases takes
        · exact ⟨_,same,(AList.mem_insert _).mpr (.inl rfl)⟩
      obtain ⟨t,ok,inside⟩ := granted
      have same : allocatePrompt config p m = .ok (config.requestIdBase+p.2) t :=
        bindOk.mpr ⟨(),t,bindOk.mpr ⟨true,t,ok,rfl⟩,rfl⟩
      rw [same]
      have later : Within Holds (ps.mapM (allocatePrompt config)) := withinMapM fun q _ =>
        withinBind (allocateStable (holdsStable [config.requestIdBase+q.2]) List.mem_cons_self q.1.len)
          fun _ => withinPure _
      exact ⟨p,List.mem_cons_self,later t _ inside⟩

end Allocation

section Prefill
variable {thinker : Thinker φ} {inputIds attentionMask : List (List Nat)} {audioFeatures : Option (List φ)}
  {config : PagedBatchConfig} {r t : PagedCacheRuntime φ}

theorem prefillFailed {e : String}
    (failed : pagedBatchPrefill thinker inputIds attentionMask audioFeatures config r = .error e t) :
    (∃ e', promptRows inputIds attentionMask config = .error e') ∧ t.manager = r.manager ∨
    ∃ seqLen rows, promptRows inputIds attentionMask config = .ok (seqLen,rows) ∧
      t.manager = after (allocatePrompts config rows r.manager) := by
  unfold pagedBatchPrefill at failed
  rcases bindError.mp failed with check | ⟨⟨seqLen,rows⟩,_,check,failed⟩
  · obtain ⟨bad,rfl⟩ := attemptError.mp check
    exact .inl ⟨⟨_,bad⟩,rfl⟩
  obtain ⟨checked,rfl⟩ := attemptOk.mp check
  refine .inr ⟨seqLen,rows,checked,?_⟩
  rcases bindError.mp failed with allocate | ⟨requestIds,_,allocate,failed⟩
  · obtain ⟨m,bad,rfl⟩ := zoomError.mp allocate
    rw [bad]
    rfl
  obtain ⟨m,allocated,rfl⟩ := managerMutOk.mp allocate
  rw [allocated]
  rcases bindError.mp failed with got | ⟨_,_,same,failed⟩
  · cases got
  cases same
  rcases bindError.mp failed with tables | ⟨blockTables,_,tables,failed⟩
  · obtain ⟨_,rfl⟩ := attemptError.mp tables
    rfl
  obtain ⟨_,rfl⟩ := attemptOk.mp tables
  rcases bindError.mp failed with call | ⟨prefilled,_,call,failed⟩
  · obtain ⟨_,rfl⟩ := attemptError.mp call
    rfl
  obtain ⟨_,rfl⟩ := attemptOk.mp call
  rcases bindError.mp failed with forward | ⟨logits,_,forward,failed⟩
  · unfold runForward at forward
    split at forward <;> cases forward
    rfl
  obtain ⟨_,rfl⟩ := runForwardOk.mp forward
  rcases bindError.mp failed with gather | ⟨last,_,gather,failed⟩
  · obtain ⟨_,rfl⟩ := attemptError.mp gather
    rfl
  obtain ⟨_,rfl⟩ := attemptOk.mp gather
  rcases bindError.mp failed with trim | ⟨_,_,_,failed⟩
  · obtain ⟨_,bad,_⟩ := zoomError.mp trim
    cases bad
  · cases failed

theorem prefillUnchanged {e : String}
    (failed : pagedBatchPrefill thinker inputIds attentionMask audioFeatures config r = .error e t)
    (clean : ¬ PrefillLeaks thinker inputIds attentionMask audioFeatures config r) : t.manager = r.manager := by
  rcases prefillFailed failed with ⟨_,same⟩ | ⟨seqLen,rows,checked,same⟩
  · exact same
  · rw [same]
    refine allocateNothing ?_
    rw [← Bool.not_eq_true]
    exact fun takes => clean ⟨⟨e,t,failed⟩,seqLen,rows,checked,takes⟩

theorem prefillLeft {e : String} (positive : 0 < r.manager.blockSize)
    (fresh : ∀ i, config.requestIdBase+i ∉ r.manager.requestBlocks)
    (failed : pagedBatchPrefill thinker inputIds attentionMask audioFeatures config r = .error e t)
    (leaks : PrefillLeaks thinker inputIds attentionMask audioFeatures config r) :
    ∃ i, config.requestIdBase+i ∈ t.manager.requestBlocks := by
  obtain ⟨_,seqLen,rows,checked,takes⟩ := leaks
  rcases prefillFailed failed with ⟨⟨_,bad⟩,_⟩ | ⟨seqLen',rows',checked',same⟩
  · rw [bad] at checked
    cases checked
  · rw [checked] at checked'
    cases checked'
    obtain ⟨p,_,held⟩ := allocateSomething positive (fun p _ => fresh p.2) takes
    exact ⟨p.2,same ▸ held⟩

theorem prefillEntered {state : PagedBatchState}
    (ok : pagedBatchPrefill thinker inputIds attentionMask audioFeatures config r = .ok state t) :
    config.requestIdBase ∈ t.manager.requestBlocks := by
  obtain ⟨p⟩ := prefillOk ok
  have nonempty : 0 < p.rows.length := by
    rw [(promptRowsOk p.checked).1]
    exact (promptRowsParts p.checked).1
  have first : p.requestIds[0]? = some config.requestIdBase := by
    rw [allocatePromptsOk p.allocated]
    simp [nonempty]
  obtain ⟨_,_,read⟩ := pairedAt (exceptMapM.mp p.read) first
  unfold blockIds at read
  split at read <;> try contradiction
  rename_i ids found
  have member : config.requestIdBase ∈ p.m.requestBlocks := AList.lookup_isSome.mp (by simp [found])
  have manager := congrArg PagedCacheRuntime.manager p.runtime
  rw [manager]
  exact trimEndedStable (holdsStable []) _ _ _ _ member

theorem prefillRowIds {state : PagedBatchState}
    (ok : pagedBatchPrefill thinker inputIds attentionMask audioFeatures config r = .ok state t) :
    state.rows.map PagedBatchRow.requestId = (List.range inputIds.length).map (config.requestIdBase+·) := by
  obtain ⟨p⟩ := prefillOk ok
  obtain ⟨counted,_,_,each⟩ := prefilledRow p
  refine List.ext_getElem (by simp [counted]) fun k bound _ => ?_
  have inside : k < state.rows.length := by simpa using bound
  obtain ⟨_,_,_,made⟩ := each k _ (List.getElem?_eq_getElem inside)
  rw [List.getElem_map,made]
  simp

end Prefill

/-- A batch gives every block back unless it fails with blocks taken. -/
theorem batchRunPooled {numBlocks : Nat} {r : PagedCacheRuntime φ} (pooled : Pooled numBlocks r.manager)
    (thinker : Thinker φ) (inputIds attentionMask : List (List Nat))
    (audioFeatures : Option (List φ)) (config : PagedBatchConfig) :
    Pooled numBlocks (after (pagedBatchRun thinker inputIds attentionMask audioFeatures config r)).manager ↔
      ¬ RunLeaks thinker inputIds attentionMask audioFeatures config r := by
  have absent (k : Nat) : k ∉ r.manager.requestBlocks := by
    rw [pooled.empty]
    exact AList.notMem_empty k
  have entered {m : PagedBlockManager} {k : Nat} (inside : k ∈ m.requestBlocks) : ¬ Pooled numBlocks m := fun full => by
    rw [full.empty] at inside
    exact AList.notMem_empty k inside
  unfold pagedBatchRun
  split
  · rename_i none
    exact ⟨fun _ leaks => leaks.1 (List.length_eq_zero_iff.mp none),fun _ => pooled⟩
  rename_i some
  split
  · rename_i none
    exact ⟨fun _ leaks => leaks.2.1 none,fun _ => pooled⟩
  rename_i more
  have nonempty : inputIds ≠ [] := fun none => some (by rw [none]; rfl)
  have freed : (managerMut (modify (freeMany · ((List.range inputIds.length).map (config.requestIdBase+·)))) :
      Engine φ Unit) r = .ok () r := by
    have same := freeManyUnknown pooled.empty ((List.range inputIds.length).map (config.requestIdBase+·))
    exact managerMutOk.mpr ⟨_,rfl,congrArg (fun manager => ({r with manager} : PagedCacheRuntime φ)) same⟩
  have ids : ∀ i < inputIds.length,
      config.requestIdBase+i ∈ (List.range inputIds.length).map (config.requestIdBase+·) := fun i bound =>
    List.mem_map.mpr ⟨i,List.mem_range.mpr bound,rfl⟩
  rw [afterBind,freed]
  dsimp only
  rw [afterBind]
  cases first : pagedBatchPrefill thinker inputIds attentionMask audioFeatures config r with
  | error e t =>
    dsimp only
    constructor
    · rintro full ⟨_,_,leaks | ⟨_,_,ok,_⟩⟩
      · obtain ⟨i,held⟩ := prefillLeft pooled.size (fun i => absent _) first leaks
        exact entered held full
      · rw [first] at ok
        cases ok
    · intro clean
      rw [prefillUnchanged first fun leaks => clean ⟨nonempty,more,.inl leaks⟩]
      exact pooled
  | ok state t =>
    dsimp only
    rw [afterBind]
    have owns : Owns numBlocks ((List.range inputIds.length).map (config.requestIdBase+·)) t.manager :=
      withinOk (prefillStable (ownsStable numBlocks _) thinker audioFeatures ids) first (pooledOwns pooled _)
    have known : ∀ row ∈ state.rows, row.requestId ∈ (List.range inputIds.length).map (config.requestIdBase+·) :=
      fun row inside => prefillRowIds first ▸ List.mem_map_of_mem inside
    cases steps : runSteps thinker config.maxNewTokens state t with
    | error e u =>
      have held := withinError (runStepsStable (holdsStable _) thinker config.maxNewTokens known) steps _
        (prefillEntered first)
      exact ⟨fun full => absurd full (entered held),
        fun clean => absurd ⟨nonempty,more,.inr ⟨state,t,first,e,u,steps⟩⟩ clean⟩
    | ok state' u =>
      have kept := withinOk (runStepsStable (ownsStable numBlocks _) thinker config.maxNewTokens known) steps owns
      have released : Pooled numBlocks (freeMany u.manager (state'.rows.map PagedBatchRow.requestId)) := by
        refine ownsPooled (ownsFreeMany kept fun k inside out => absurd ?_ out)
        rwa [runStepsIds steps,prefillRowIds first]
      constructor
      · rintro _ ⟨_,_,⟨⟨e,v,bad⟩,_⟩ | ⟨_,_,ok,e,v,bad⟩⟩
        · rw [first] at bad
          cases bad
        · rw [first] at ok
          cases ok
          rw [steps] at bad
          cases bad
      · exact fun _ => released

end Qwen3Asr.BlockConservation
