import Mathlib.Algebra.Order.Floor.Div
import Mathlib.GroupTheory.GroupAction.Ring
import Qwen3Asr.SchedulerConservation
import Qwen3Asr.SchedulerPositions

/-! What the admit loop promises its prefill. The wave it chooses leaves room for the blocks
of every prompt and one block more for every running sequence. -/
namespace Qwen3Asr.SchedulerAdmission
open Library.Holding Library.Effect Library.Word Library.Loop Library.Scatter
open BlockManager PagedMetadata PromptPositions BatchEngine DecodeOutcome PrefillOutcome SlotFate
open BlockOwnership BlockConservation Scheduler SchedulerTurn SchedulerRules SchedulerConservation
open SchedulerPositions

variable {φ : Type} {run : ContinuousRun φ} {numBlocks : Nat}

def promptBlocks (run : ContinuousRun φ) (blockSize clientIndex : Nat) : Nat := promptLenOf run clientIndex ⌈/⌉ blockSize

theorem admitWaveFits (manager : PagedBlockManager) (capacity maxSlots : Nat) (slots : List (Option RunningSlot × Nat))
    (used count : Nat) (waiting : List Nat) :
    let wave := (admitWave run manager capacity maxSlots slots used count waiting).1
    wave = [] ∨ used + ((wave.map Prod.fst).map (promptBlocks run manager.blockSize)).sum + (count+wave.length) ≤ capacity := by
  induction slots generalizing used count waiting with
  | nil => exact .inl rfl
  | cons slot slots ih =>
    obtain ⟨entry,slotIdx⟩ := slot
    cases entry with
    | some entry => exact ih used count waiting
    | none =>
      dsimp only
      unfold admitWave
      split
      · exact .inl rfl
      · cases waiting with
        | nil => exact .inl rfl
        | cons clientIndex waiting =>
          dsimp only
          split
          · rename_i admitted
            have fits : used + promptBlocks run manager.blockSize clientIndex + (count+1) ≤ capacity := by
              simpa [canAdmitWithProjectedKv,promptBlocks] using admitted
            have later := ih (used + promptBlocks run manager.blockSize clientIndex) (count+1) waiting
            right
            rw [List.map_cons,List.map_cons,List.sum_cons,List.length_cons]
            dsimp only
            rcases later with none | room
            · unfold promptBlocks at none fits ⊢
              rw [none,List.map_nil,List.map_nil,List.sum_nil,List.length_nil]
              omega
            · unfold promptBlocks at fits room ⊢
              omega
          · exact .inl rfl

section Grants

theorem allocateFits {m : PagedBlockManager} {requestId numTokens : Nat}
    (room : numTokens ⌈/⌉ m.blockSize ≤ m.free.length) :
    ∃ t, allocateSlots requestId numTokens m = .ok () t ∧ t.blockSize = m.blockSize ∧
      m.free.length ≤ t.free.length + numTokens ⌈/⌉ m.blockSize := by
  have most : needed m requestId numTokens ≤ numTokens ⌈/⌉ m.blockSize := Nat.sub_le _ _
  rcases tryAllocateCases m requestId numTokens with ⟨_,same⟩ | ⟨short,_⟩ | ⟨_,enough,same⟩
  · exact ⟨m,bindOk.mpr ⟨true,m,same,rfl⟩,rfl,Nat.le_add_right _ _⟩
  · omega
  · refine ⟨_,bindOk.mpr ⟨true,_,same,rfl⟩,rfl,?_⟩
    change m.free.length ≤ (m.free.drop _).length + _
    rw [List.length_drop]
    omega

/- Prompts whose blocks fit beside a reserve are all granted, and the reserve stays free. -/
theorem promptsFit {config : PagedBatchConfig} {ps : List (PromptRow × Nat)} {m : PagedBlockManager} {reserve : Nat}
    (room : (ps.map fun p => p.1.len ⌈/⌉ m.blockSize).sum + reserve ≤ m.free.length) :
    ∃ requestIds t, ps.mapM (allocatePrompt config) m = .ok requestIds t ∧ reserve ≤ t.free.length := by
  induction ps generalizing m with
  | nil => exact ⟨[],m,rfl,by simpa using room⟩
  | cons p ps ih =>
    rw [List.map_cons,List.sum_cons] at room
    obtain ⟨t,granted,size,left⟩ := @allocateFits m (config.requestIdBase+p.2) p.1.len (by omega)
    obtain ⟨requestIds,u,rest,kept⟩ := ih (m := t) (by rw [size]; omega)
    have first : allocatePrompt config p m = .ok (config.requestIdBase+p.2) t := bindOk.mpr ⟨(),t,granted,rfl⟩
    refine ⟨(config.requestIdBase+p.2)::requestIds,u,?_,kept⟩
    rw [List.mapM_cons]
    exact bindOk.mpr ⟨_,t,first,bindOk.mpr ⟨_,u,rest,rfl⟩⟩

theorem trimFrees (m : PagedBlockManager) (requestId numTokens : Nat) :
    m.free.length ≤ (trimRequestToNumTokens m requestId numTokens).free.length := by
  unfold trimRequestToNumTokens
  split
  · exact Nat.le_refl _
  · dsimp only
    split
    · exact Nat.le_refl _
    · rw [List.length_append]
      exact Nat.le_add_right _ _

theorem trimEndedFrees (eosTokenIds : List Nat) (rows : List PagedBatchRow) (m : PagedBlockManager) :
    m.free.length ≤ (trimEnded eosTokenIds rows m).free.length := by
  induction rows generalizing m with
  | nil => exact Nat.le_refl _
  | cons row rows ih =>
    change _ ≤ (trimEnded eosTokenIds rows (if eosTokenIds.contains row.nextId then _ else m)).free.length
    split
    · exact (trimFrees m _ _).trans (ih _)
    · exact ih m

end Grants

section Wave

theorem promptRowsLens {inputIds attentionMask : List (List Nat)} {config : PagedBatchConfig} {seqLen : Nat}
    {rows : List PromptRow} (same : inputIds.length = attentionMask.length)
    (ok : promptRows inputIds attentionMask config = .ok (seqLen,rows)) :
    rows.map PromptRow.len = attentionMask.map validLen := by
  obtain ⟨_,_,_,_,_,⟨_,rfl⟩ | ⟨_,_,normalized,normal,rfl⟩⟩ := promptRowsParts ok
  · have masks : (inputIds.zip attentionMask).map Prod.snd = attentionMask := List.map_snd_zip (by omega)
    conv_rhs => rw [← masks,List.map_map]
    rw [List.map_map]
    rfl
  · have masks : ((inputIds.zip attentionMask).zipIdx.map Prod.fst).map Prod.snd = attentionMask := by
      rw [List.zipIdx_map_fst]
      exact List.map_snd_zip (by omega)
    unfold normalizeBatchForPagedPrefill at normal
    rw [if_neg (not_not.mpr same)] at normal
    have each : List.Forall₂ (fun (p : (List Nat × List Nat) × Nat) (out : List Nat × List Nat × Nat) =>
        out.2.2 = validLen p.1.2) (inputIds.zip attentionMask).zipIdx normalized :=
      (exceptMapM.mp normal).imp fun p out made => by rw [(normalizedRow made).2]
    conv_rhs => rw [← masks,List.map_map,List.map_map]
    rw [List.map_map,← List.forall₂_eq_eq_eq,List.forall₂_map_left_iff,List.forall₂_map_right_iff]
    exact each.flip

theorem validLenTake (mask : List Nat) (len extra : Nat) :
    validLen (mask.take len ++ List.replicate extra 0) ≤ validLen mask := by
  have front : validLen (mask.take len) ≤ validLen mask := (List.take_sublist len mask).countP_le
  simpa [validLen,List.countP_append,List.countP_replicate] using front

theorem ceilDivMono {m n : Nat} (le : m ≤ n) (k : Nat) : m ⌈/⌉ k ≤ n ⌈/⌉ k := by
  rw [Nat.ceilDiv_eq_add_pred_div,Nat.ceilDiv_eq_add_pred_div]
  exact Nat.div_le_div_right (by omega)

theorem waveBlocks {clients : List Nat} {ids masks : List (List Nat)} {audio : List φ} {config : PagedBatchConfig}
    {seqLen : Nat} {rows : List PromptRow} (inputs : prefillInputs run clients = .ok ((ids,masks),audio))
    (checked : promptRows ids masks config = .ok (seqLen,rows)) (blockSize : Nat) :
    (rows.zipIdx.map fun p => p.1.len ⌈/⌉ blockSize).sum ≤ (clients.map (promptBlocks run blockSize)).sum := by
  obtain ⟨paired,counted,width,each⟩ := padWaveOk (prefillInputsOk inputs).1
  have blocks : rows.zipIdx.map (fun p => p.1.len ⌈/⌉ blockSize) = masks.map (fun mask => validLen mask ⌈/⌉ blockSize) := by
    have lens := congrArg (List.map (· ⌈/⌉ blockSize)) (promptRowsLens (paired.trans counted.symm) checked)
    rw [List.map_map,List.map_map,← List.zipIdx_map_fst 0 rows,List.map_map] at lens
    exact lens
  rw [blocks]
  refine List.Forall₂.sum_le_sum (List.forall₂_map_left_iff.mpr (List.forall₂_map_right_iff.mpr
    (List.forall₂_iff_get.mpr ⟨counted,fun k bound bound' => ?_⟩)))
  obtain ⟨row,found,_,_,_,mask⟩ := each k clients[k] (List.getElem?_eq_getElem bound')
  have here : masks[k] = _ := Option.some.inj ((List.getElem?_eq_getElem bound).symm.trans mask)
  have len : promptLenOf run clients[k] = preparedPromptLen row := by simp [promptLenOf,found]
  rw [List.get_eq_getElem,List.get_eq_getElem,here,promptBlocks,len]
  exact ceilDivMono (validLenTake _ _ _) blockSize

theorem occupiedCount (entry : RunningSlot) (running : List (Option RunningSlot)) (i : Nat) :
    ((running.modify i (occupy entry)).filterMap id).length ≤ (running.filterMap id).length+1 := by
  induction running generalizing i with
  | nil => simp
  | cons head running ih =>
    cases i with
    | zero => cases head <;> simp [occupy]
    | succ i =>
      have rest := ih i
      rw [List.modify_succ_cons]
      cases head with
      | none => simpa using rest
      | some head => simpa using rest

theorem placedCount (running : List (Option RunningSlot)) (writes : List (Nat × RunningSlot)) :
    ((scatter occupy running writes).filterMap id).length ≤ (running.filterMap id).length + writes.length := by
  induction writes generalizing running with
  | nil => exact Nat.le_refl _
  | cons write writes ih =>
    have one := occupiedCount write.2 running write.1
    have rest := ih (running.modify write.1 (occupy write.2))
    rw [List.length_cons]
    change ((scatter occupy (running.modify write.1 (occupy write.2)) writes).filterMap id).length ≤ _
    omega

end Wave

section Pool

structure Conserved (numBlocks : Nat) (s : LoopState φ) : Prop where
  pool : ∃ l : Blocks numBlocks, Represents l s.runtime.manager
  blocks : s.runtime.cache.numBlocks = numBlocks

theorem conservedStable (numBlocks : Nat) (ids : List Nat) :
    Stable ids (Keeps fun m => ∃ l : Blocks numBlocks, Represents l m) where
  order := inferInstance
  grant k _ numTokens _ := fun ⟨_,r⟩ => tryAllocateRepresents r k numTokens
  trim k numTokens _ := fun ⟨_,r⟩ => trimRepresents r k numTokens

theorem decodedCache {thinker : Thinker φ} {slots slots' : List PagedDecodeSlot} {step maxNewTokens : Nat}
    {eosTokenIds : List Nat} {r t : PagedCacheRuntime φ}
    (decoded : Decoded thinker slots step maxNewTokens eosTokenIds r slots' t) : t.cache = r.cache := by
  cases decoded <;> rfl

theorem conservedKept (run : ContinuousRun φ) (numBlocks : Nat) :
    Kept run (fun _ _ => True) (Conserved numBlocks) where
  free s kept := by
    obtain ⟨l,r⟩ := kept.pool
    exact ⟨freeManyRepresents r _,kept.blocks⟩
  group group s t _ _ kept ok := by
    obtain ⟨g⟩ := groupOk ok
    have runtime : t.runtime = g.runtime := congrArg LoopState.runtime g.same
    have pool := withinOk (decodeSlotsStable (conservedStable numBlocks (g.slots.map (·.requestId))) run.thinker group.1
      run.maxNewTokens run.eosTokenIds fun slot inside => List.mem_map_of_mem inside) g.engine kept.pool
    exact ⟨runtime ▸ pool,by rw [runtime,decodedCache g.decoded]; exact kept.blocks⟩
  limit s kept := ⟨kept.pool,kept.blocks⟩
  wave wave rest s t kept _ _ _ ok := by
    obtain ⟨w⟩ := waveOk ok
    obtain ⟨p⟩ := prefillOk w.prefill
    have runtime := waveRuntime w
    have pool := withinOk (prefillStable (conservedStable numBlocks
      ((List.range w.ids.length).map (s.nextRequestId+·))) run.thinker (some w.audio) fun i bound =>
        List.mem_map.mpr ⟨i,List.mem_range.mpr bound,rfl⟩) w.prefill kept.pool
    exact ⟨runtime ▸ pool,by rw [runtime,p.runtime]; exact kept.blocks⟩

theorem freeCounted {s : LoopState φ} (kept : Conserved numBlocks s)
    (owned : ∀ k, k ∉ requestIds s → table s.runtime.manager k = []) :
    allocatableBlockCapacity numBlocks ≤
      s.runtime.manager.free.length + runningKvBlocks s.running s.runtime.manager := by
  obtain ⟨l,r⟩ := kept.pool
  have total := l.total
  rw [← r.free,← r.blocks,List.length_range'] at total
  have listed := contentsListed owned
  have ids : (requestIds s).map (fun k => (held s.runtime.manager.requestBlocks k).length) =
      (entries s).map fun entry => blocksForRequest s.runtime.manager entry.slot.requestId := List.map_map
  rw [ids] at listed
  have running : runningKvBlocks s.running s.runtime.manager =
      ((entries s).map fun entry => blocksForRequest s.runtime.manager entry.slot.requestId).sum := rfl
  have capacity : allocatableBlockCapacity numBlocks = numBlocks-1 := rfl
  omega

theorem nextWaveFits {s : LoopState φ} (kept : Conserved numBlocks s)
    (owned : ∀ k, k ∉ requestIds s → table s.runtime.manager k = []) (some_ : (nextWave run s).1 ≠ []) :
    (((nextWave run s).1.map Prod.fst).map (promptBlocks run s.runtime.manager.blockSize)).sum +
      ((entries s).length+(nextWave run s).1.length) ≤ s.runtime.manager.free.length := by
  have fits : runningKvBlocks s.running s.runtime.manager +
      (((nextWave run s).1.map Prod.fst).map (promptBlocks run s.runtime.manager.blockSize)).sum +
      ((entries s).length+(nextWave run s).1.length) ≤ allocatableBlockCapacity s.runtime.cache.numBlocks :=
    (admitWaveFits _ _ _ _ _ _ _).resolve_left some_
  have free := freeCounted kept owned
  rw [kept.blocks] at fits
  omega

end Pool

section Admitted
variable {s t : LoopState φ} {wave : List (Nat × Nat)}

theorem waveGranted {ids masks : List (List Nat)} {audio : List φ} {config : PagedBatchConfig} {seqLen reserve : Nat}
    {rows : List PromptRow} {m : PagedBlockManager}
    (room : ((wave.map Prod.fst).map (promptBlocks run m.blockSize)).sum+reserve ≤ m.free.length)
    (inputs : prefillInputs run (wave.map Prod.fst) = .ok ((ids,masks),audio))
    (checked : promptRows ids masks config = .ok (seqLen,rows)) :
    ∃ requestIds t, allocatePrompts config rows m = .ok requestIds t ∧ reserve ≤ freeBlocks t := by
  have blocks := waveBlocks inputs checked m.blockSize
  exact promptsFit (by omega)

theorem waveLeaves (room : ((wave.map Prod.fst).map (promptBlocks run s.runtime.manager.blockSize)).sum +
      ((entries s).length+wave.length) ≤ s.runtime.manager.free.length) {rest : List Nat}
    (w : WaveOk run wave {s with waiting := rest} t) :
    (entries t).length ≤ freeBlocks t.runtime.manager := by
  obtain ⟨p⟩ := prefillOk w.prefill
  obtain ⟨requestIds,m,granted,reserve⟩ := waveGranted room w.inputs p.checked
  rw [p.allocated] at granted
  obtain ⟨rfl,rfl⟩ : p.requestIds = requestIds ∧ p.m = m := by simpa using granted
  have manager : t.runtime.manager = trimEnded run.eosTokenIds w.state.rows p.m := by
    have runtime := congrArg PagedCacheRuntime.manager p.runtime
    rw [show t.runtime = w.runtime from congrArg LoopState.runtime w.same]
    exact runtime
  have trimmed := trimEndedFrees run.eosTokenIds w.state.rows p.m
  have running : t.running = scatter occupy s.running (placements wave w.state.rows) :=
    (congrArg LoopState.running w.same).trans (placeWaveOk w.placed).2
  have placed : _ ≤ (entries s).length+_ := placedCount s.running (placements wave w.state.rows)
  have entered : (placements wave w.state.rows).length ≤ wave.length := by simp [placements]
  have count : (entries t).length = ((scatter occupy s.running (placements wave w.state.rows)).filterMap id).length := by
    rw [entries,running]
  unfold freeBlocks at reserve ⊢
  rw [manager]
  omega

end Admitted

/-- Where all blocks in use belong to running slots, the wave let in next is granted all its blocks, and its prefill
leaves a free block for every running sequence. -/
theorem admissionGuarantee (run : ContinuousRun φ) (nextRequestId numBlocks blockSize : Nat) (cudaGraph : Bool)
    (fresh : PagedCacheRuntime φ) (made : newRuntime numBlocks blockSize cudaGraph = .ok fresh) (ops : List Op)
    (history : List (ForwardCall φ)) (s decoded : LoopState φ)
    (reached : Reaches (body run) (initial run nextRequestId {fresh with manager := runOps fresh.manager ops, history}) s)
    (groups : decodeGroups run (groupsOf (freeFinishedRunning s)) (freeFinishedRunning s) = .ok () decoded)
    (owned : ∀ k, k ∉ requestIds (settled run decoded) → table (settled run decoded).runtime.manager k = [])
    (some_ : (nextWave run (settled run decoded)).1 ≠ []) :
    let ready := settled run decoded
    let wave := (nextWave run ready).1
    let config : PagedBatchConfig := ⟨run.maxNewTokens,run.eosTokenIds,ready.nextRequestId⟩
    (∀ ids masks audio seqLen rows, prefillInputs run (wave.map Prod.fst) = .ok ((ids,masks),audio) →
      promptRows ids masks config = .ok (seqLen,rows) →
      ∃ requestIds m, allocatePrompts config rows ready.runtime.manager = .ok requestIds m ∧
        (entries ready).length+wave.length ≤ freeBlocks m) ∧
    ∀ t, prefillWave run wave {ready with waiting := (nextWave run ready).2} = .ok () t →
      (entries t).length ≤ freeBlocks t.runtime.manager := by
  have conserved : Conserved numBlocks (settled run decoded) := by
    have start : Conserved numBlocks
        (initial run nextRequestId {fresh with manager := runOps fresh.manager ops, history}) := by
      unfold newRuntime at made
      split at made <;> try contradiction
      split at made <;> try contradiction
      cases made
      exact ⟨runRepresents (newRepresents numBlocks blockSize) ops,rfl⟩
    have there := invariant (fun t u inv next =>
      keptTurn (conservedKept run numBlocks) (everyTrivial _ _) inv (bodyNext.mp next)) reached start
    exact keptSettled (conservedKept run numBlocks) (everyTrivial _ _) there groups
  generalize settled run decoded = ready at owned some_ conserved
  have room := nextWaveFits conserved owned some_
  exact ⟨fun _ _ _ _ _ inputs checked => waveGranted room inputs checked,fun t placed => by
    obtain ⟨w⟩ := waveOk placed
    exact waveLeaves room w⟩

def twoRowsReady : LoopState Unit := settled twoRows (freeFinishedRunning (initial twoRows 0 fourBlocks))

theorem admissionGuaranteeTwoRows : (nextWave twoRows twoRowsReady).1.length = 2 ∧
    ∃ t, prefillWave twoRows (nextWave twoRows twoRowsReady).1
        {twoRowsReady with waiting := (nextWave twoRows twoRowsReady).2} = .ok () t ∧
      (entries t).length ≤ freeBlocks t.runtime.manager := by
  have both : (nextWave twoRows twoRowsReady).1.length = 2 := by decide +kernel
  have goes : (returned (prefillWave twoRows (nextWave twoRows twoRowsReady).1
      {twoRowsReady with waiting := (nextWave twoRows twoRowsReady).2})).isSome = true := by decide +kernel
  obtain ⟨_,same⟩ := Option.isSome_iff_exists.mp goes
  obtain ⟨t,ok⟩ := returnedSome.mp same
  have guarantee := admissionGuarantee twoRows 0 5 8 false fourBlocks rfl [] [] (initial twoRows 0 fourBlocks)
    (freeFinishedRunning (initial twoRows 0 fourBlocks)) .refl rfl (fun _ _ => rfl)
    (List.ne_nil_of_length_pos (Nat.lt_of_lt_of_eq Nat.two_pos both.symm))
  exact ⟨both,t,ok,guarantee.2 t ok⟩

end Qwen3Asr.SchedulerAdmission
