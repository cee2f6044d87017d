import Qwen3Asr.PrefillOutcome
import Qwen3Asr.Scheduler

/-! One turn of the continuous batching loop, taken apart into its phases. -/
namespace Qwen3Asr.SchedulerTurn
open Library.Effect Library.Word Library.Loop Library.Scatter
open BlockManager PagedMetadata BatchEngine DecodeOutcome PrefillOutcome Scheduler

variable {φ : Type} {run : ContinuousRun φ}

abbrev entries (s : LoopState φ) : List RunningSlot := s.running.filterMap id

def settled (run : ContinuousRun φ) (s : LoopState φ) : LoopState φ :=
  freeFinishedRunning (finishAtLimit run.maxNewTokens s)

def groupsOf (s : LoopState φ) : List (Nat × List Nat) := groupRunningByDecodeStep (activeSteps s.running)

def Drained (s : LoopState φ) : Prop := s.waiting = [] ∧ s.running.any Option.isSome = false

structure TurnOk (run : ContinuousRun φ) (s : LoopState φ) (goesOn : Bool) (t : LoopState φ) where
  decoded : LoopState φ
  groups : decodeGroups run (groupsOf (freeFinishedRunning s)) (freeFinishedRunning s) = .ok () decoded
  wave : (nextWave run (settled run decoded)).1 = [] ∧
      t = {settled run decoded with waiting := (nextWave run (settled run decoded)).2} ∨
    (nextWave run (settled run decoded)).1 ≠ [] ∧
      prefillWave run (nextWave run (settled run decoded)).1
        {settled run decoded with waiting := (nextWave run (settled run decoded)).2} = .ok () t
  leaves : goesOn = false → Drained t
  stays : goesOn = true → ¬ Drained t ∧
    ¬ ((nextWave run (settled run decoded)).1 = [] ∧ activeSteps (freeFinishedRunning s).running = [] ∧
      t.running.any Option.isSome = false)

theorem turnOk {s t : LoopState φ} {goesOn : Bool} (ok : turn run s = .ok goesOn t) :
    Nonempty (TurnOk run s goesOn t) := by
  unfold turn at ok
  obtain ⟨_,_,freed,ok⟩ := bindOk.mp ok
  cases freed
  obtain ⟨_,_,same,ok⟩ := bindOk.mp ok
  cases same
  obtain ⟨_,decoded,groups,ok⟩ := bindOk.mp ok
  obtain ⟨_,_,limited,ok⟩ := bindOk.mp ok
  cases limited
  obtain ⟨_,_,freed,ok⟩ := bindOk.mp ok
  cases freed
  obtain ⟨_,_,same,ok⟩ := bindOk.mp ok
  cases same
  obtain ⟨_,_,queued,ok⟩ := bindOk.mp ok
  cases queued
  obtain ⟨_,u,placed,ok⟩ := bindOk.mp ok
  obtain ⟨_,_,same,ok⟩ := bindOk.mp ok
  cases same
  have wave : (nextWave run (settled run decoded)).1 = [] ∧
        u = {settled run decoded with waiting := (nextWave run (settled run decoded)).2} ∨
      (nextWave run (settled run decoded)).1 ≠ [] ∧
        prefillWave run (nextWave run (settled run decoded)).1
          {settled run decoded with waiting := (nextWave run (settled run decoded)).2} = .ok () u := by
    unfold admitNext at placed
    split at placed
    · rename_i none
      cases placed
      exact .inl ⟨none,rfl⟩
    · rename_i some
      exact .inr ⟨some,placed⟩
  split at ok
  · rename_i drained
    cases ok
    exact ⟨⟨decoded,groups,wave,fun _ => ⟨drained.1,by simpa using drained.2⟩,fun yes => Bool.noConfusion yes⟩⟩
  · rename_i busy
    split at ok
    · cases ok
    · rename_i live
      cases ok
      refine ⟨⟨decoded,groups,wave,fun no => Bool.noConfusion no,fun _ => ⟨fun drained => ?_,fun stuck => ?_⟩⟩⟩
      · exact busy ⟨drained.1,by simp [drained.2]⟩
      · exact live ⟨stuck.1,stuck.2.1,by simp [stuck.2.2],fun empty => busy ⟨empty,by simp [stuck.2.2]⟩⟩

theorem bodyNext {s t : LoopState φ} : body run s = .next t ↔ turn run s = .ok true t := by
  unfold body
  cases h : turn run s with
  | ok goesOn u => cases goesOn <;> simp
  | error e u => simp

theorem slotAtSome {running : List (Option RunningSlot)} {slotIdx : Nat} {slot : PagedDecodeSlot} :
    slotAt running slotIdx = some slot ↔
      ∃ entry, running[slotIdx]? = some (some entry) ∧ entry.slot = slot := by
  unfold slotAt
  cases h : running[slotIdx]? with
  | none => simp
  | some entry => cases entry <;> simp

theorem activeStepsMem {running : List (Option RunningSlot)} {slotIdx step : Nat} :
    (slotIdx,step) ∈ activeSteps running ↔
      ∃ slot, slotAt running slotIdx = some slot ∧ slot.finished = false ∧ slot.decodeStep = step := by
  unfold activeSteps
  simp only [List.mem_filterMap,List.mem_zipIdx_iff_getElem?,Prod.exists]
  constructor
  · rintro ⟨entry,i,found,ok⟩
    cases entry with
    | none => simp at ok
    | some entry =>
      dsimp only at ok
      split at ok <;> try contradiction
      rename_i live
      cases ok
      exact ⟨entry.slot,slotAtSome.mpr ⟨entry,found,rfl⟩,by simpa using live,rfl⟩
  · rintro ⟨slot,found,live,rfl⟩
    obtain ⟨entry,here,rfl⟩ := slotAtSome.mp found
    exact ⟨some entry,slotIdx,here,by simp [live]⟩

theorem activeStepsOnce (running : List (Option RunningSlot)) :
    ((activeSteps running).map Prod.fst).Nodup := by
  have indices : ((activeSteps running).map Prod.fst).Sublist (running.zipIdx.map Prod.snd) := by
    unfold activeSteps
    generalize running.zipIdx = pairs
    induction pairs with
    | nil => exact .slnil
    | cons p pairs ih =>
      obtain ⟨entry,i⟩ := p
      cases entry with
      | none => exact ih.cons _
      | some entry =>
        cases h : entry.slot.finished with
        | true => simpa [List.filterMap_cons,h] using ih.cons _
        | false => simpa [List.filterMap_cons,h] using ih.cons_cons i
  refine indices.nodup ?_
  rw [List.zipIdx_map_snd]
  exact List.nodup_range'

theorem groupMembers {running : List (Option RunningSlot)} {step : Nat} {slotIndices : List Nat}
    (inside : (step,slotIndices) ∈ groupRunningByDecodeStep (activeSteps running)) :
    slotIndices.Nodup ∧ slotIndices ≠ [] ∧
    ∀ slotIdx ∈ slotIndices, ∃ slot, slotAt running slotIdx = some slot ∧ atStep step slot = true := by
  unfold groupRunningByDecodeStep at inside
  obtain ⟨_,member,same⟩ := List.mem_map.mp inside
  cases same
  rw [(List.perm_insertionSort _ _).mem_iff,List.mem_dedup] at member
  refine ⟨?_,?_,fun slotIdx there => ?_⟩
  · exact ((List.filter_sublist).map Prod.fst).nodup (activeStepsOnce running)
  · obtain ⟨p,there,rfl⟩ := List.mem_map.mp member
    have kept : p ∈ (activeSteps running).filter (·.2 = p.2) := by simp [there]
    intro empty
    have none := List.map_eq_nil_iff.mp empty
    rw [none] at kept
    exact absurd kept (by simp)
  · obtain ⟨⟨i,n⟩,kept,rfl⟩ := List.mem_map.mp there
    obtain ⟨here,rfl⟩ : (i,n) ∈ activeSteps running ∧ n = _ := by simpa using kept
    obtain ⟨slot,found,live,atTheStep⟩ := activeStepsMem.mp here
    exact ⟨slot,found,by simp [atStep,live,atTheStep]⟩

theorem groupsOnce (s : LoopState φ) : ∀ group ∈ groupsOf s, group.2.Nodup :=
  fun ⟨_,_⟩ inside => (groupMembers inside).1

theorem groupCovers {running : List (Option RunningSlot)} {slotIdx : Nat} {slot : PagedDecodeSlot}
    (found : slotAt running slotIdx = some slot) (live : slot.finished = false) :
    ∃ slotIndices, (slot.decodeStep,slotIndices) ∈ groupRunningByDecodeStep (activeSteps running) ∧
      slotIdx ∈ slotIndices := by
  have there := activeStepsMem.mpr ⟨slot,found,live,rfl⟩
  refine ⟨_,List.mem_map.mpr ⟨slot.decodeStep,?_,rfl⟩,?_⟩
  · rw [(List.perm_insertionSort _ _).mem_iff,List.mem_dedup]
    exact List.mem_map.mpr ⟨_,there,rfl⟩
  · exact List.mem_map.mpr ⟨(slotIdx,slot.decodeStep),by simpa using there,rfl⟩

structure GroupOk (run : ContinuousRun φ) (group : Nat × List Nat) (s t : LoopState φ) where
  slots : List PagedDecodeSlot
  read : List.Forall₂ (fun slotIdx slot => slotAt s.running slotIdx = some slot) group.2 slots
  slots' : List PagedDecodeSlot
  runtime : PagedCacheRuntime φ
  engine : pagedBatchDecodeSlotsAtStep run.thinker slots group.1 run.maxNewTokens run.eosTokenIds s.runtime =
    .ok slots' runtime
  decoded : Decoded run.thinker slots group.1 run.maxNewTokens run.eosTokenIds s.runtime slots' runtime
  same : t = {s with runtime, running := scatter writeSlot s.running (group.2.zip slots')}

theorem groupOk {group : Nat × List Nat} {s t : LoopState φ} (ok : decodeGroup run group s = .ok () t) :
    Nonempty (GroupOk run group s t) := by
  unfold decodeGroup at ok
  obtain ⟨_,_,same,ok⟩ := bindOk.mp ok
  cases same
  obtain ⟨slots,_,gather,ok⟩ := bindOk.mp ok
  obtain ⟨gathered,rfl⟩ := attemptOk.mp gather
  obtain ⟨slots',_,decode,ok⟩ := bindOk.mp ok
  obtain ⟨runtime,decoded,rfl⟩ := zoomOk.mp decode
  cases ok
  exact ⟨⟨slots,(exceptMapM.mp gathered).imp fun _ _ found => okOrOk.mp found,slots',runtime,
    decoded,decodeSlotsOk decoded,rfl⟩⟩

theorem groupRunning {group : Nat × List Nat} {s t : LoopState φ} (g : GroupOk run group s t) :
    t.running = scatter writeSlot s.running (group.2.zip g.slots') := by
  have same := congrArg LoopState.running g.same
  exact same

theorem groupWaiting {group : Nat × List Nat} {s t : LoopState φ} (g : GroupOk run group s t) :
    t.waiting = s.waiting := by
  have same := congrArg LoopState.waiting g.same
  exact same

theorem groupEntries {group : Nat × List Nat} {s t : LoopState φ} (g : GroupOk run group s t)
    (once : group.2.Nodup) {Q : PagedDecodeSlot → PagedDecodeSlot → Prop} {R : RunningSlot → RunningSlot → Prop}
    (work : List.Forall₂ Q g.slots g.slots') (write : ∀ entry slot, Q entry.slot slot → R entry {entry with slot})
    (keep : ∀ entry, R entry entry) : List.Forall₂ (Option.Rel R) s.running t.running := by
  rw [groupRunning g]
  refine scatterRelated (P := fun entry slot => entry.map RunningSlot.slot = some slot) once ?_ work ?_ ?_
  · refine g.read.imp fun slotIdx slot found => ?_
    obtain ⟨entry,here,rfl⟩ := slotAtSome.mp found
    exact ⟨some entry,here,rfl⟩
  · intro entry slot slot' here related
    obtain ⟨entry,rfl,rfl⟩ := Option.map_eq_some_iff.mp here
    exact .some (write _ _ related)
  · intro entry
    cases entry with
    | none => exact .none
    | some entry => exact .some (keep entry)

theorem groupReads {group : Nat × List Nat} {s t : LoopState φ} (g : GroupOk run group s t)
    (once : group.2.Nodup) (counted : g.slots'.length = g.slots.length) :
    List.Forall₂ (fun slotIdx slot => slotAt t.running slotIdx = some slot) group.2 g.slots' := by
  have lengths := g.read.length_eq
  have placed : List.Forall₂ (fun slotIdx slot => ∃ entry, s.running[slotIdx]? = some entry ∧
      (writeSlot slot entry).map RunningSlot.slot = some slot) group.2 g.slots' := by
    refine List.forall₂_iff_get.mpr ⟨by omega,fun n bound _ => ?_⟩
    obtain ⟨entry,found,_⟩ := slotAtSome.mp ((List.forall₂_iff_get.mp g.read).2 n bound (by omega))
    exact ⟨some entry,found,rfl⟩
  have again := scatterReads (P := fun (entry : Option RunningSlot) slot => entry.map RunningSlot.slot = some slot)
    (f := writeSlot) once placed
  rw [← groupRunning g] at again
  refine again.imp fun slotIdx slot ⟨entry,found,holds⟩ => ?_
  obtain ⟨entry,rfl,rfl⟩ := Option.map_eq_some_iff.mp holds
  exact slotAtSome.mpr ⟨entry,found,rfl⟩

theorem admitWaveQueue (manager : PagedBlockManager) (capacity maxSlots : Nat)
    (slots : List (Option RunningSlot × Nat)) (used count : Nat) (waiting : List Nat) :
    let next := admitWave run manager capacity maxSlots slots used count waiting
    waiting = next.1.map Prod.fst ++ next.2 ∧
      (next.1.map Prod.snd).Sublist ((slots.filter (·.1.isNone)).map Prod.snd) := by
  induction slots generalizing used count waiting with
  | nil => simp [admitWave]
  | cons slot slots ih =>
    obtain ⟨entry,slotIdx⟩ := slot
    cases entry with
    | some entry => simpa [admitWave] using ih used count waiting
    | none =>
      dsimp only
      unfold admitWave
      split
      · simp
      · cases waiting with
        | nil => simp
        | cons clientIndex waiting =>
          dsimp only
          split
          · obtain ⟨queue,places⟩ := ih (used + promptLenOf run clientIndex ⌈/⌉ manager.blockSize)
              (count+1) waiting
            exact ⟨by simpa using queue,by simpa using places⟩
          · simp

theorem nextWaveQueue (run : ContinuousRun φ) (s : LoopState φ) :
    s.waiting = (nextWave run s).1.map Prod.fst ++ (nextWave run s).2 :=
  (admitWaveQueue _ _ _ _ _ _ _).1

theorem nextWavePlaces (run : ContinuousRun φ) (s : LoopState φ) :
    ((nextWave run s).1.map Prod.snd).Nodup ∧
    ∀ slotIdx ∈ (nextWave run s).1.map Prod.snd, s.running[slotIdx]? = some none := by
  have places : ((nextWave run s).1.map Prod.snd).Sublist
    ((s.running.zipIdx.filter (·.1.isNone)).map Prod.snd) :=
    (admitWaveQueue _ _ _ _ _ _ _).2
  refine ⟨?_,fun slotIdx inside => ?_⟩
  · refine (places.trans ((List.filter_sublist).map Prod.snd)).nodup ?_
    rw [List.zipIdx_map_snd]
    exact List.nodup_range'
  · obtain ⟨p,kept,rfl⟩ := List.mem_map.mp (places.subset inside)
    obtain ⟨there,free⟩ := List.mem_filter.mp kept
    have found := List.mem_zipIdx_iff_getElem?.mp there
    rw [found]
    simpa using free

theorem padWaveOk {prepared : List PreparedInputs} {clients : List Nat} {padId : Nat} {ids masks : List (List Nat)}
    (ok : padPreparedWaveForPrefill prepared clients padId = .ok (ids,masks)) :
    ids.length = clients.length ∧ masks.length = clients.length ∧
    ∃ width, ∀ (k client : Nat), clients[k]? = some client → ∃ row, prepared[client]? = some row ∧
      preparedPromptLen row ≤ row.inputIds.length ∧ preparedPromptLen row ≤ row.attentionMask.length ∧
      ids[k]? = some (row.inputIds.take (preparedPromptLen row) ++
        List.replicate (width-preparedPromptLen row) padId) ∧
      masks[k]? = some (row.attentionMask.take (preparedPromptLen row) ++
        List.replicate (width-preparedPromptLen row) 0) := by
  unfold padPreparedWaveForPrefill at ok
  split at ok <;> try contradiction
  obtain ⟨rows,read,ok⟩ := exceptBind.mp ok
  dsimp only at ok
  split at ok <;> try contradiction
  obtain ⟨padded,pads,ok⟩ := exceptBind.mp ok
  cases ok
  have reads := exceptMapM.mp read
  have pairs := exceptMapM.mp pads
  have rowsLength := reads.length_eq
  have paddedLength : padded.length = clients.length := by
    rw [← pairs.length_eq,List.length_zip,← rowsLength,Nat.min_self]
  refine ⟨by simp [paddedLength],by simp [paddedLength],maxOf (rows.map preparedPromptLen),fun k client found => ?_⟩
  obtain ⟨bound,rfl⟩ := List.getElem?_eq_some_iff.mp found
  have inside : k < padded.length := by omega
  have zipped : k < (clients.zip rows).length := by rw [pairs.length_eq]; exact inside
  have here := (List.forall₂_iff_get.mp reads).2 k bound (by omega)
  have row := (List.forall₂_iff_get.mp pairs).2 k zipped inside
  simp only [List.get_eq_getElem,List.getElem_zip] at here row
  split at row <;> try contradiction
  rename_i fits
  have same := Except.ok.inj row
  refine ⟨rows[k],okOrOk.mp here,by omega,by omega,?_,?_⟩
  · rw [List.getElem?_map,List.getElem?_eq_getElem inside,← same]
    rfl
  · rw [List.getElem?_map,List.getElem?_eq_getElem inside,← same]
    rfl

theorem prefillInputsOk {clients : List Nat} {ids masks : List (List Nat)} {audio : List φ}
    (ok : prefillInputs run clients = .ok ((ids,masks),audio)) :
    padPreparedWaveForPrefill run.prepared clients run.padId = .ok (ids,masks) ∧
      concatPreparedAudio run.audioFeatures (audioOffsets run) (rowAudioLens run) clients = .ok audio := by
  unfold prefillInputs at ok
  obtain ⟨rows,padded,ok⟩ := exceptBind.mp ok
  obtain ⟨features,narrowed,ok⟩ := exceptBind.mp ok
  cases ok
  exact ⟨padded,narrowed⟩

structure WaveOk (run : ContinuousRun φ) (wave : List (Nat × Nat)) (s t : LoopState φ) where
  ids : List (List Nat)
  masks : List (List Nat)
  audio : List φ
  inputs : prefillInputs run (wave.map Prod.fst) = .ok ((ids,masks),audio)
  state : PagedBatchState
  runtime : PagedCacheRuntime φ
  prefill : pagedBatchPrefill run.thinker ids masks (some audio)
    ⟨run.maxNewTokens,run.eosTokenIds,s.nextRequestId⟩ s.runtime = .ok state runtime
  running : List (Option RunningSlot)
  placed : placeWave s.running state wave = .ok running
  same : t = {s with runtime, running, nextRequestId := s.nextRequestId+wave.length}

theorem waveOk {wave : List (Nat × Nat)} {s t : LoopState φ} (ok : prefillWave run wave s = .ok () t) :
    Nonempty (WaveOk run wave s t) := by
  unfold prefillWave at ok
  obtain ⟨_,_,same,ok⟩ := bindOk.mp ok
  cases same
  obtain ⟨_,_,counted,ok⟩ := bindOk.mp ok
  cases counted
  obtain ⟨⟨⟨ids,masks⟩,audio⟩,_,prepare,ok⟩ := bindOk.mp ok
  obtain ⟨inputs,rfl⟩ := attemptOk.mp prepare
  obtain ⟨state,_,fill,ok⟩ := bindOk.mp ok
  obtain ⟨runtime,prefill,rfl⟩ := zoomOk.mp fill
  obtain ⟨running,_,place,ok⟩ := bindOk.mp ok
  obtain ⟨placed,rfl⟩ := attemptOk.mp place
  cases ok
  exact ⟨⟨ids,masks,audio,inputs,state,runtime,prefill,running,placed,rfl⟩⟩

theorem waveRuntime {wave : List (Nat × Nat)} {s t : LoopState φ} (w : WaveOk run wave s t) : t.runtime = w.runtime :=
  congrArg LoopState.runtime w.same

theorem waveHistory {wave : List (Nat × Nat)} {s t : LoopState φ} (w : WaveOk run wave s t)
    (p : PrefillOk run.thinker w.ids w.masks (some w.audio) ⟨run.maxNewTokens,run.eosTokenIds,s.nextRequestId⟩ s.runtime
      w.state w.runtime) : t.runtime.history = p.prefilled.call::s.runtime.history := by
  have after := congrArg PagedCacheRuntime.history p.runtime
  exact (congrArg PagedCacheRuntime.history (waveRuntime w)).trans after

def prefillSlot (row : PagedBatchRow) : PagedDecodeSlot := {row with generated := [], decodeStep := 0}

def placements (wave : List (Nat × Nat)) (rows : List PagedBatchRow) : List (Nat × RunningSlot) :=
  (wave.zip rows).map fun ((clientIndex,slotIdx),row) => (slotIdx,⟨clientIndex,prefillSlot row⟩)

def occupy (entry : RunningSlot) (_ : Option RunningSlot) : Option RunningSlot := some entry

theorem placeWaveFrom {state : PagedBatchState} {wave : List (Nat × Nat)} {first : Nat}
    {running running' : List (Option RunningSlot)}
    (ok : (wave.zipIdx first).foldlM (fun running ((clientIndex,slotIdx),waveRow) => do
      let slot ← fromPrefillState state waveRow
      .ok (running.set slotIdx (some ⟨clientIndex,slot⟩))) running = Except.ok running') :
    wave.length ≤ (state.rows.drop first).length ∧
      running' = scatter occupy running (placements wave (state.rows.drop first)) := by
  induction wave generalizing first running with
  | nil => cases ok; exact ⟨by simp,rfl⟩
  | cons w wave ih =>
    obtain ⟨clientIndex,slotIdx⟩ := w
    rw [List.zipIdx_cons,List.foldlM_cons] at ok
    obtain ⟨_,placed,rest⟩ := exceptBind.mp ok
    obtain ⟨slot,read,placed⟩ := exceptBind.mp placed
    cases placed
    obtain ⟨row,found,made⟩ := exceptBind.mp read
    cases made
    obtain ⟨bound,rfl⟩ := List.getElem?_eq_some_iff.mp (okOrOk.mp found)
    obtain ⟨lengths,same⟩ := ih rest
    have split := List.drop_eq_getElem_cons bound
    rw [split,same,List.set_eq_modify]
    exact ⟨Nat.succ_le_succ lengths,rfl⟩

theorem placeWaveOk {state : PagedBatchState} {wave : List (Nat × Nat)}
    {running running' : List (Option RunningSlot)} (ok : placeWave running state wave = .ok running') :
    wave.length ≤ state.rows.length ∧ running' = scatter occupy running (placements wave state.rows) := by
  simpa using placeWaveFrom ok

theorem placeWaveTotal {state : PagedBatchState} {wave : List (Nat × Nat)} {first : Nat}
    {running : List (Option RunningSlot)} (enough : first+wave.length ≤ state.rows.length) :
    ∃ running', (wave.zipIdx first).foldlM (fun running ((clientIndex,slotIdx),waveRow) => do
      let slot ← fromPrefillState state waveRow
      .ok (running.set slotIdx (some ⟨clientIndex,slot⟩))) running = Except.ok running' := by
  induction wave generalizing first running with
  | nil => exact ⟨running,rfl⟩
  | cons w wave ih =>
    rw [List.length_cons] at enough
    have bound : first < state.rows.length := by omega
    have read : fromPrefillState state first = .ok (prefillSlot state.rows[first]) := by
      unfold fromPrefillState
      rw [List.getElem?_eq_getElem bound]
      rfl
    obtain ⟨running',rest⟩ := ih (show first+1+wave.length ≤ state.rows.length by omega)
    refine ⟨running',?_⟩
    rw [List.zipIdx_cons,List.foldlM_cons]
    exact exceptBind.mpr ⟨_,exceptBind.mpr ⟨_,read,rfl⟩,rest⟩

theorem waveFailed {wave : List (Nat × Nat)} {s t : LoopState φ} {e : String}
    (failed : prefillWave run wave s = .error e t) : t.running = s.running ∧
    (t.runtime = s.runtime ∨ ∃ ids masks audio, prefillInputs run (wave.map Prod.fst) = .ok ((ids,masks),audio) ∧
      pagedBatchPrefill run.thinker ids masks (some audio) ⟨run.maxNewTokens,run.eosTokenIds,s.nextRequestId⟩
        s.runtime = .error e t.runtime) := by
  unfold prefillWave at failed
  rcases bindError.mp failed with got | ⟨_,_,same,failed⟩
  · cases got
  cases same
  rcases bindError.mp failed with counted | ⟨_,_,counted,failed⟩
  · cases counted
  cases counted
  rcases bindError.mp failed with prepare | ⟨⟨⟨ids,masks⟩,audio⟩,_,prepare,failed⟩
  · obtain ⟨_,rfl⟩ := attemptError.mp prepare
    exact ⟨rfl,.inl rfl⟩
  obtain ⟨inputs,rfl⟩ := attemptOk.mp prepare
  rcases bindError.mp failed with fill | ⟨state,_,fill,failed⟩
  · obtain ⟨r,prefill,rfl⟩ := zoomError.mp fill
    exact ⟨rfl,.inr ⟨ids,masks,audio,inputs,prefill⟩⟩
  obtain ⟨r,prefill,rfl⟩ := zoomOk.mp fill
  rcases bindError.mp failed with place | ⟨_,_,_,failed⟩
  · obtain ⟨p⟩ := prefillOk prefill
    have rows : state.rows.length = wave.length := by
      rw [(prefilledRow p).1,(padWaveOk (prefillInputsOk inputs).1).1,List.length_map]
    have total : ∃ running', placeWave s.running state wave = .ok running' :=
      placeWaveTotal (by omega)
    obtain ⟨_,placed⟩ := total
    obtain ⟨unplaced,_⟩ := attemptError.mp place
    rw [placed] at unplaced
    cases unplaced
  · cases failed

end Qwen3Asr.SchedulerTurn
