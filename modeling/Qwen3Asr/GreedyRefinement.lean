import Qwen3Asr.RowOracle
import Qwen3Asr.SchedulerRules

/-! Continuous batching generates for every client the greedy decode of its prompt, whatever
the order of admission, when no step is refused a block. -/
namespace Qwen3Asr.GreedyRefinement
open Library.Effect Library.Loop Library.Greedy
open BlockManager PagedMetadata BatchEngine DecodeOutcome PrefillOutcome PromptColumns CallHistory SlotFate RowOracle
open Scheduler SchedulerTurn SchedulerRules

variable {φ : Type} {run : ContinuousRun φ} {prompts : List (List Nat)}

/- The prepared rows hold the prompts, padded with a token that is no placeholder. -/
structure Prepared (run : ContinuousRun φ) (prompts : List (List Nat)) : Prop where
  rows : List.Forall₂ (fun row prompt => Pads run.thinker.audioTokenId (row.inputIds,row.attentionMask) prompt)
    run.prepared prompts
  padding : run.padId ≠ run.thinker.audioTokenId

def clientPrompts (run : ContinuousRun φ) (prompts : List (List Nat)) : List (List (Column φ)) :=
  mergeRows run.thinker.audioTokenId run.audioFeatures 0 prompts

/- Below the limit every slot of the group is granted the block of its next token. -/
def NoneRefused (run : ContinuousRun φ) (group : Nat × List Nat) (s : LoopState φ) : Prop :=
  group.1 < run.maxNewTokens → ∀ granted ∈ grants group.1 (groupSlots s group) s.runtime.manager, granted = true

instance (run : ContinuousRun φ) (group : Nat × List Nat) (s : LoopState φ) : Decidable (NoneRefused run group s) :=
  inferInstanceAs (Decidable (_ → _))

theorem noneSkips {group : Nat × List Nat} {s : LoopState φ} (none : NoneRefused run group s) :
    ¬ SkipsRefused run.eosTokenIds run.maxNewTokens group.1 (groupSlots s group) s.runtime.manager := by
  rintro ⟨below,_,_,p,inside,refused,_⟩
  have granted := none below p.2 (List.of_mem_zip inside).2
  rw [refused] at granted
  cases granted

section Wave

theorem preparedRow (prepared : Prepared run prompts) {client : Nat} {row : PreparedInputs}
    (found : run.prepared[client]? = some row) : ∃ prompt, prompts[client]? = some prompt ∧
      Pads run.thinker.audioTokenId (row.inputIds,row.attentionMask) prompt := by
  exact pairedAt prepared.rows found

theorem audioLens (prepared : Prepared run prompts) :
    rowAudioLens run = prompts.map (·.count run.thinker.audioTokenId) := by
  obtain ⟨rows,_⟩ := prepared
  unfold rowAudioLens
  generalize run.prepared = inputs at rows
  induction rows with
  | nil => rfl
  | cons head _ ih => exact List.cons_eq_cons.mpr ⟨padsCount head,ih⟩

def wavePrompts (prompts : List (List Nat)) (clients : List Nat) : List (List Nat) :=
  clients.map fun client => prompts.getD client []

theorem wavePads (prepared : Prepared run prompts) {clients : List Nat} {ids masks : List (List Nat)}
    (ok : padPreparedWaveForPrefill run.prepared clients run.padId = .ok (ids,masks)) :
    List.Forall₂ (Pads run.thinker.audioTokenId) (ids.zip masks) (wavePrompts prompts clients) := by
  obtain ⟨idRows,maskRows,width,each⟩ := padWaveOk ok
  have lengths : (ids.zip masks).length = (wavePrompts prompts clients).length := by
    simp [wavePrompts,idRows,maskRows]
  refine List.forall₂_iff_get.mpr ⟨lengths,fun k bound bound' => ?_⟩
  have index : k < clients.length := by simpa [wavePrompts] using bound'
  obtain ⟨row,found,_,_,rowIds,rowMask⟩ := each k clients[k] (List.getElem?_eq_getElem index)
  obtain ⟨prompt,here,pads⟩ := preparedRow prepared found
  have len : preparedPromptLen row = prompt.length := padsLen pads
  have take : row.inputIds.take prompt.length = prompt := padsTake pads
  have mask : row.attentionMask.take prompt.length = List.replicate prompt.length 1 := by
    obtain ⟨pad,_,_,mask⟩ := pads
    dsimp only at mask
    rw [mask,List.take_left' (List.length_replicate ..)]
  rw [len,take] at rowIds
  rw [len,mask] at rowMask
  have own : (wavePrompts prompts clients)[k]? = some prompt := by
    simp [wavePrompts,List.getD_eq_getElem?_getD,index,here]
  obtain ⟨inside,sameIds⟩ := List.getElem?_eq_some_iff.mp rowIds
  obtain ⟨inside',sameMask⟩ := List.getElem?_eq_some_iff.mp rowMask
  obtain ⟨_,samePrompt⟩ := List.getElem?_eq_some_iff.mp own
  simp only [List.get_eq_getElem,List.getElem_zip,sameIds,sameMask,samePrompt]
  refine ⟨List.replicate (width-prompt.length) run.padId,?_,rfl,by rw [List.length_replicate]⟩
  intro member
  exact prepared.padding (List.eq_of_mem_replicate member).symm

theorem sliceLens {audio : List φ} {offsets lens clients : List Nat} {parts : List (List φ)}
    (pairs : List.Forall₂ (fun client part => narrow audio (offsets.getD client 0) (lens.getD client 0) = .ok part)
      clients parts) : parts.map List.length = clients.map (lens.getD · 0) := by
  induction pairs with
  | nil => rfl
  | cons head _ ih => exact List.cons_eq_cons.mpr ⟨narrowLength head,ih⟩

theorem waveAudio (prepared : Prepared run prompts) {clients : List Nat} {audio : List φ}
    (ok : concatPreparedAudio run.audioFeatures (audioOffsets run) (rowAudioLens run) clients = .ok audio)
    {k client : Nat} {prompt : List Nat} (place : clients[k]? = some client) (found : prompts[client]? = some prompt) :
    (mergeRows run.thinker.audioTokenId audio 0 (wavePrompts prompts clients))[k]? =
      (clientPrompts run prompts)[client]? := by
  unfold concatPreparedAudio at ok
  split at ok <;> try contradiction
  obtain ⟨parts,slices,ok⟩ := exceptBind.mp ok
  cases ok
  have pairs := exceptMapM.mp slices
  have lens := audioLens prepared
  have counts : (wavePrompts prompts clients).map (·.count run.thinker.audioTokenId) = parts.map List.length := by
    rw [sliceLens pairs,lens,wavePrompts,List.map_map]
    exact List.map_congr_left fun client _ =>
      (List.getD_map (l := prompts) (d := []) (n := client) (·.count run.thinker.audioTokenId)).symm
  have own : (wavePrompts prompts clients)[k]? = some prompt := by
    simp [wavePrompts,List.getD_eq_getElem?_getD,place,found]
  have left := mergeRowsGet run.thinker.audioTokenId parts.flatten 0 own
  have right := mergeRowsGet run.thinker.audioTokenId run.audioFeatures 0 found
  rw [left,clientPrompts,right,counts,← lens,Nat.zero_add,Nat.zero_add]
  obtain ⟨bound,rfl⟩ := List.getElem?_eq_some_iff.mp place
  have inside : k < parts.length := by
    rw [← pairs.length_eq]
    exact bound
  have slice := (List.forall₂_iff_get.mp pairs).2 k bound inside
  simp only [List.get_eq_getElem] at slice
  have client := (List.getElem?_eq_some_iff.mp found).1
  have offset : (audioOffsets run).getD clients[k] 0 = ((rowAudioLens run).take clients[k]).sum := by
    rw [← prepared.rows.length_eq] at client
    simp [audioOffsets,List.getD_eq_getElem?_getD,client]
  have len : (rowAudioLens run).getD clients[k] 0 = prompt.count run.thinker.audioTokenId := by
    simp [lens,List.getD_eq_getElem?_getD,found]
  rw [offset,len] at slice
  obtain ⟨_,made⟩ := narrowOk slice
  have same : mergeRow run.thinker.audioTokenId parts.flatten ((parts.map List.length).take k).sum prompt =
      mergeRow run.thinker.audioTokenId run.audioFeatures ((rowAudioLens run).take clients[k]).sum prompt :=
    mergeRowCongr fun j less => by
      rw [flattenGet (List.getElem?_eq_getElem inside) (narrowLength slice ▸ less),made,
        List.getElem?_take_of_lt less,List.getElem?_drop]
  rw [same]

end Wave

section Entry
variable (run : ContinuousRun φ) (choose : List (Column φ) → List Nat → Nat) (prompts : List (List Nat))

/- The entry decodes the prompt of its own client. -/
def Serves (r : PagedCacheRuntime φ) (entry : RunningSlot) : Prop :=
  ∃ prompt, (clientPrompts run prompts)[entry.clientIndex]? = some prompt ∧
    Refines run.thinker choose run.eosTokenIds run.maxNewTokens prompt r entry.slot

theorem waveRow {wave : List (Nat × Nat)} {s t : LoopState φ} (w : WaveOk run wave s t) {k clientIndex slotIdx : Nat}
    (place : wave[k]? = some (clientIndex,slotIdx)) : ∃ row, run.prepared[clientIndex]? = some row := by
  obtain ⟨_,_,_,each⟩ := padWaveOk (prefillInputsOk w.inputs).1
  obtain ⟨row,found,_⟩ := each k clientIndex (by rw [List.getElem?_map,place]; rfl)
  exact ⟨row,found⟩

theorem servesRule (rowWise : RowWise run.thinker choose) (prepared : Prepared run prompts) :
    EntryRule run (NoneRefused run) (Serves run choose prompts) where
  untouched r t entry serves untouched := by
    obtain ⟨prompt,own,refines⟩ := serves
    exact ⟨prompt,own,refinesUntouched untouched refines⟩
  limit r entry serves := by
    unfold limitEntry
    split
    · rename_i past
      obtain ⟨prompt,own,refines⟩ := serves
      obtain ⟨live,past⟩ : entry.slot.finished = false ∧ run.maxNewTokens ≤ entry.slot.decodeStep := by
        simpa using past
      exact ⟨prompt,own,refinesFinished (generatingFull (refines.live live) past)⟩
    · exact serves
  fate group s t entry slot' none serves live fate := by
    obtain ⟨prompt,own,refines⟩ := serves
    obtain ⟨unfinished,here⟩ := atStepLive live
    have generating := refines.live unfinished
    refine ⟨prompt,own,?_⟩
    cases fate with
    | waits untouched => exact refinesUntouched untouched refines
    | limit past => exact refinesFinished (generatingFull generating (here ▸ past))
    | ended stop => exact refinesFinished (generatingStopped generating stop)
    | skipped skips => exact absurd skips (noneSkips none)
    | advanced nextId below goes fed =>
      exact refinesFed rowWise generating unfinished (here ▸ below) goes fed.toAnswered
  prefilled wave s t w k clientIndex slotIdx row place found := by
    obtain ⟨p⟩ := prefillOk w.prefill
    obtain ⟨padded,audio⟩ := prefillInputsOk w.inputs
    obtain ⟨input,there⟩ := waveRow run w place
    obtain ⟨prompt,here,_⟩ := preparedRow prepared there
    have client : (wave.map Prod.fst)[k]? = some clientIndex := by
      rw [List.getElem?_map,place]
      rfl
    have own := mergeRowsGet run.thinker.audioTokenId run.audioFeatures 0 here
    have asked := (waveAudio prepared audio client here).trans own
    obtain ⟨_,nothing,refines⟩ := refinesPrefilled rowWise p (wavePads prepared padded) found asked
    have slot : prefillSlot row = {row with decodeStep := 0} := by
      unfold prefillSlot
      rw [← nothing]
    refine ⟨_,own,?_⟩
    rw [waveRuntime w]
    exact slot ▸ refines

end Entry

def admitted : List (ForwardCall φ) → List Nat
  | [] => []
  | call::older => admitted older ++ if call.metadata.queryLens.isSome then call.requestIds else []

theorem decodedAdmitted {thinker : Thinker φ} {slots slots' : List PagedDecodeSlot} {step maxNewTokens : Nat}
    {eosTokenIds : List Nat} {r t : PagedCacheRuntime φ}
    (decoded : Decoded thinker slots step maxNewTokens eosTokenIds r slots' t) :
    admitted t.history = admitted r.history := by
  cases decoded with
  | idle _ => rfl
  | limit _ => rfl
  | refused _ _ _ _ _ _ => rfl
  | ended _ _ _ _ _ _ => rfl
  | forwarded _ _ _ call _ _ _ _ _ forward =>
    have decodes := decodeQueryLens forward.metadata
    simp [admitted,decodes]

theorem waveAdmitted {wave : List (Nat × Nat)} {s t : LoopState φ} (w : WaveOk run wave s t) :
    admitted t.runtime.history = admitted s.runtime.history ++ List.range' s.nextRequestId wave.length := by
  obtain ⟨p⟩ := prefillOk w.prefill
  obtain ⟨_,called,lens,_⟩ := prefilledRow p
  have rows : w.ids.length = wave.length := by
    rw [(padWaveOk (prefillInputsOk w.inputs).1).1,List.length_map]
  rw [waveHistory w p,admitted,lens,called,rows,List.range'_eq_map_range]
  rfl

section Clients
variable (run : ContinuousRun φ) (choose : List (Column φ) → List Nat → Nat) (prompts : List (List Nat))
  (firstId : Nat) (past : List Nat)

def goals : List (List Nat) :=
  (clientPrompts run prompts).map (greedyDecode choose run.eosTokenIds run.maxNewTokens)

/- The first `m` clients were admitted, in order, under fresh ids: each runs or has its result. -/
structure Served (m : Nat) (s : LoopState φ) : Prop where
  tracked : Tracked (Serves run choose prompts) s
  counted : s.outputs.length = run.prepared.length
  nextId : s.nextRequestId = firstId+m
  within : m ≤ run.prepared.length
  waiting : s.waiting = (List.range run.prepared.length).drop m
  own : ∀ i entry, EntryAt s i entry → entry.slot.requestId = firstId+entry.clientIndex
  delivered : ∀ c, c < m → (∃ i entry, EntryAt s i entry ∧ entry.clientIndex = c) ∨
    s.outputs[c]? = (goals run choose prompts)[c]?
  admits : admitted s.runtime.history = past ++ List.range' firstId m

end Clients

section Phases
variable {choose : List (Column φ) → List Nat → Nat} {firstId m : Nat} {past : List Nat} {s t : LoopState φ}

theorem writeResults {goals : List (List Nat)} {finished : List RunningSlot} {outputs : List (List Nat)}
    (right : ∀ entry ∈ finished, goals[entry.clientIndex]? = some entry.slot.generated)
    (counted : outputs.length = goals.length) {c : Nat}
    (here : c ∈ finished.map RunningSlot.clientIndex ∨ outputs[c]? = goals[c]?) :
    (finished.foldl (fun outputs entry => outputs.set entry.clientIndex entry.slot.generated) outputs)[c]? =
      goals[c]? := by
  induction finished generalizing outputs with
  | nil => simpa using here
  | cons entry finished ih =>
    have first := right entry List.mem_cons_self
    have bound : entry.clientIndex < outputs.length := by
      rw [counted]
      exact (List.getElem?_eq_some_iff.mp first).1
    have rest := fun other inside => right other (List.mem_cons_of_mem _ inside)
    refine ih rest (by simpa using counted) ?_
    by_cases same : entry.clientIndex = c
    · subst same
      exact .inr (by rw [List.getElem?_set_self bound,first])
    · rw [List.getElem?_set_ne same]
      rcases here with member | there
      · rcases List.mem_cons.mp member with equal | later
        · exact absurd equal.symm same
        · exact .inl later
      · exact .inr there

theorem writeResultsLength (finished : List RunningSlot) (outputs : List (List Nat)) :
    (finished.foldl (fun outputs entry => outputs.set entry.clientIndex entry.slot.generated) outputs).length =
      outputs.length := by
  induction finished generalizing outputs with
  | nil => rfl
  | cons entry finished ih =>
    rw [List.foldl_cons,ih,List.length_set]

theorem goalsLength (choose : List (Column φ) → List Nat → Nat) (prepared : Prepared run prompts) :
    (goals run choose prompts).length = run.prepared.length := by
  rw [goals,List.length_map,clientPrompts,mergeRowsLength,prepared.rows.length_eq]

theorem entryMember {i : Nat} {entry : RunningSlot} (found : EntryAt s i entry) : entry ∈ s.running.filterMap id :=
  List.mem_filterMap.mpr ⟨_,List.mem_of_getElem? found,rfl⟩

theorem servedFree (rule : EntryRule run (NoneRefused run) (Serves run choose prompts))
    (prepared : Prepared run prompts) (served : Served run choose prompts firstId past m s) :
    Served run choose prompts firstId past m (freeFinishedRunning s) where
  tracked := (trackedKept rule).free s served.tracked
  counted := (writeResultsLength _ _).trans served.counted
  nextId := served.nextId
  within := served.within
  waiting := served.waiting
  own i entry found := served.own i entry (freedEntry served.tracked.apart found).1
  delivered c less := by
    have right : ∀ entry ∈ (entries s).filter done,
        (goals run choose prompts)[entry.clientIndex]? = some entry.slot.generated := by
      intro entry inside
      obtain ⟨there,ended⟩ := List.mem_filter.mp inside
      obtain ⟨_,member,same⟩ := List.mem_filterMap.mp there
      obtain ⟨i,found⟩ := List.mem_iff_getElem?.mp member
      cases same
      obtain ⟨prompt,asked,refines⟩ := served.tracked.each i entry found
      rw [goals,List.getElem?_map,asked,refines.ended ended]
      rfl
    have lengths := served.counted.trans (goalsLength choose prepared).symm
    rcases served.delivered c less with ⟨i,entry,found,rfl⟩ | there
    · cases ended : entry.slot.finished with
      | true =>
        have member : entry ∈ (entries s).filter done := List.mem_filter.mpr ⟨entryMember found,ended⟩
        exact .inr (writeResults right lengths (.inl (List.mem_map_of_mem member)))
      | false =>
        have stays : EntryAt (freeFinishedRunning s) i entry := by
          unfold EntryAt freeFinishedRunning
          rw [List.getElem?_map,found]
          simp [done,ended]
        exact .inl ⟨i,entry,stays,rfl⟩
    · exact .inr (writeResults right lengths (.inr there))
  admits := served.admits

def SameClients (s t : LoopState φ) : Prop :=
  List.Forall₂ (Option.Rel fun (entry entry' : RunningSlot) => entry'.clientIndex = entry.clientIndex ∧
    entry'.slot.requestId = entry.slot.requestId) s.running t.running

theorem sameClientsForward (same : SameClients s t) {i : Nat} {entry : RunningSlot} (found : EntryAt s i entry) :
    ∃ entry', EntryAt t i entry' ∧ entry'.clientIndex = entry.clientIndex := by
  obtain ⟨_,there,related⟩ := pairedAt same found
  cases related with
  | some kept => exact ⟨_,there,kept.1⟩

theorem sameClientsBackward (same : SameClients s t) {i : Nat} {entry' : RunningSlot} (found : EntryAt t i entry') :
    ∃ entry, EntryAt s i entry ∧ entry'.clientIndex = entry.clientIndex ∧
      entry'.slot.requestId = entry.slot.requestId := by
  obtain ⟨_,there,related⟩ := pairedFrom same found
  cases related with
  | some kept => exact ⟨_,there,kept⟩

theorem servedSame (tracked : Tracked (Serves run choose prompts) t) (same : SameClients s t)
    (queue : t.waiting = s.waiting) (results : t.outputs = s.outputs) (next : t.nextRequestId = s.nextRequestId)
    (calls : admitted t.runtime.history = admitted s.runtime.history)
    (served : Served run choose prompts firstId past m s) : Served run choose prompts firstId past m t where
  tracked := tracked
  counted := by rw [results,served.counted]
  nextId := next.trans served.nextId
  within := served.within
  waiting := queue.trans served.waiting
  own i entry' found := by
    obtain ⟨entry,here,client,request⟩ := sameClientsBackward same found
    rw [request,client]
    exact served.own i entry here
  delivered c less := by
    rcases served.delivered c less with ⟨i,entry,found,rfl⟩ | there
    · obtain ⟨entry',here,client⟩ := sameClientsForward same found
      exact .inl ⟨i,entry',here,client⟩
    · exact .inr (results ▸ there)
  admits := calls.trans served.admits

theorem servedWave (tracked : Tracked (Serves run choose prompts) t) {wave : List (Nat × Nat)} {rest : List Nat}
    (served : Served run choose prompts firstId past m s) (queue : s.waiting = wave.map Prod.fst ++ rest)
    (once : (wave.map Prod.snd).Nodup) (free : ∀ slotIdx ∈ wave.map Prod.snd, s.running[slotIdx]? = some none)
    (ok : prefillWave run wave {s with waiting := rest} = .ok () t) :
    Served run choose prompts firstId past (m+wave.length) t := by
  obtain ⟨w⟩ := waveOk ok
  have waiting : t.waiting = rest := congrArg LoopState.waiting w.same
  have outputs : t.outputs = s.outputs := by rw [w.same]
  have next : t.nextRequestId = s.nextRequestId+wave.length := congrArg LoopState.nextRequestId w.same
  have left := served.waiting
  rw [queue] at left
  have counts := congrArg List.length left
  simp only [List.length_append,List.length_map,List.length_drop,List.length_range] at counts
  have within := served.within
  have order {k clientIndex slotIdx : Nat} (place : wave[k]? = some (clientIndex,slotIdx)) : clientIndex = m+k := by
    have bound := (List.getElem?_eq_some_iff.mp place).1
    have there := congrArg (·[k]?) left
    simp only [List.getElem?_drop] at there
    rw [List.getElem?_append_left (by simpa using bound),List.getElem?_map,place,
      List.getElem?_range (by omega)] at there
    exact Option.some.inj there
  exact {
    tracked
    counted := by rw [outputs,served.counted]
    nextId := by rw [next,served.nextId,Nat.add_assoc]
    within := by omega
    waiting := by
      have drops := congrArg (List.drop wave.length) left
      rw [List.drop_left' (by simp),List.drop_drop] at drops
      exact waiting.trans drops
    own := fun i entry found => by
      rcases waveEntry w once found with before | ⟨k,clientIndex,row,place,read,rfl⟩
      · exact served.own i entry before
      · have id := waveRowId w read
        have client := order place
        have first := served.nextId
        change row.requestId = firstId+clientIndex
        dsimp only at id
        omega
    delivered := fun c less => by
      rcases Nat.lt_or_ge c m with before | past
      · rcases served.delivered c before with ⟨i,entry,found,same⟩ | there
        · exact .inl ⟨i,entry,waveKeeps w once free found,same⟩
        · exact .inr (outputs ▸ there)
      · have inside : c-m < wave.length := by omega
        obtain ⟨⟨clientIndex,slotIdx⟩,place⟩ : ∃ p, wave[c-m]? = some p := ⟨_,List.getElem?_eq_getElem inside⟩
        have enough := (placeWaveOk w.placed).1
        have row : w.state.rows[c-m]? = some w.state.rows[c-m] := List.getElem?_eq_getElem (by omega)
        have client := order place
        exact .inl ⟨slotIdx,_,waveEntered w once free place row,by change clientIndex = c; omega⟩
    admits := by
      have calls := waveAdmitted w
      have before := served.admits
      have first := served.nextId
      dsimp only at calls
      rw [calls,before,first,List.append_assoc,List.range'_append_1]}

end Phases

section Runs
variable {choose : List (Column φ) → List Nat → Nat}

theorem servedKept (rowWise : RowWise run.thinker choose) (prepared : Prepared run prompts) (firstId : Nat)
    (past : List Nat) :
    Kept run (NoneRefused run) (fun s => ∃ m, Served run choose prompts firstId past m s) where
  free s inv := by
    obtain ⟨m,served⟩ := inv
    exact ⟨m,servedFree (servesRule run choose prompts rowWise prepared) prepared served⟩
  group group s t ready none inv ok := by
    obtain ⟨m,served⟩ := inv
    obtain ⟨g⟩ := groupOk ok
    have tracked := (trackedKept (servesRule run choose prompts rowWise prepared)).group group s t ready none
      served.tracked ok
    have clients : SameClients s t := groupEntries g ready.1 (decodedIds g.decoded)
      (fun _ _ same => ⟨rfl,same⟩) (fun _ => ⟨rfl,rfl⟩)
    have runtime : t.runtime = g.runtime := congrArg LoopState.runtime g.same
    exact ⟨m,servedSame tracked clients (groupWaiting g) (by rw [g.same]) (by rw [g.same])
      (runtime ▸ decodedAdmitted g.decoded) served⟩
  limit s inv := by
    obtain ⟨m,served⟩ := inv
    have tracked := (trackedKept (servesRule run choose prompts rowWise prepared)).limit s served.tracked
    have clients : SameClients s (finishAtLimit run.maxNewTokens s) := by
      unfold SameClients finishAtLimit
      rw [List.forall₂_map_right_iff]
      exact List.forall₂_same.mpr fun entry _ => by
        cases entry with
        | none => exact .none
        | some entry => exact .some ⟨by unfold limitEntry; split <;> rfl,limitId _ entry⟩
    exact ⟨m,servedSame tracked clients rfl rfl rfl rfl served⟩
  wave wave rest s t inv queue once free ok := by
    obtain ⟨m,served⟩ := inv
    have tracked := (trackedKept (servesRule run choose prompts rowWise prepared)).wave wave rest s t
      served.tracked queue once free ok
    exact ⟨_,servedWave tracked served queue once free ok⟩

theorem servedInitial (choose : List (Column φ) → List Nat → Nat) (run : ContinuousRun φ) (nextRequestId : Nat)
    (r : PagedCacheRuntime φ) :
    Served run choose prompts nextRequestId (admitted r.history) 0 (initial run nextRequestId r) where
  tracked := trackedInitial _ run nextRequestId r
  counted := List.length_replicate ..
  nextId := rfl
  within := Nat.zero_le _
  waiting := rfl
  own _ _ found := absurd found emptyInitial
  delivered _ less := absurd less (Nat.not_lt_zero _)
  admits := (List.append_nil _).symm

theorem servedDrained (prepared : Prepared run prompts) {firstId m : Nat} {past : List Nat} {s : LoopState φ}
    (served : Served run choose prompts firstId past m s) (drained : Drained s) :
    s.outputs = goals run choose prompts ∧
      admitted s.runtime.history = past ++ List.range' firstId run.prepared.length := by
  have all : m = run.prepared.length := by
    have none := served.waiting
    rw [drained.1] at none
    have counts := congrArg List.length none
    simp only [List.length_nil,List.length_drop,List.length_range] at counts
    have within := served.within
    omega
  subst all
  have lengths := served.counted.trans (goalsLength choose prepared).symm
  refine ⟨List.ext_getElem? fun c => ?_,served.admits⟩
  rcases Nat.lt_or_ge c run.prepared.length with inside | outside
  · rcases served.delivered c inside with ⟨i,entry,found,_⟩ | there
    · have idle := List.any_eq_false.mp drained.2 _ (List.mem_of_getElem? found)
      exact absurd rfl idle
    · exact there
  · rw [List.getElem?_eq_none (by rw [served.counted]; exact outside),
      List.getElem?_eq_none (by rw [← lengths,served.counted]; exact outside)]

theorem bodyExitOk {s : LoopState φ} {outputs : List (List Nat)} {t : LoopState φ}
    (exits : body run s = .exit (.ok outputs,t)) :
    ∃ u, turn run s = .ok false u ∧ outputs = u.outputs ∧ t = freeAllRunning u := by
  unfold body at exits
  cases h : turn run s with
  | ok goesOn u =>
    rw [h] at exits
    cases goesOn with
    | true => cases exits
    | false =>
      cases exits
      exact ⟨u,rfl,rfl,rfl⟩
  | error e u =>
    rw [h] at exits
    cases exits

theorem continuousGreedy (rowWise : RowWise run.thinker choose) (prepared : Prepared run prompts)
    {nextRequestId : Nat} {r : PagedCacheRuntime φ}
    (none : ∀ s, Reaches (body run) (initial run nextRequestId r) s → EveryTurnGroup run (NoneRefused run) s)
    {fuel : Nat} {outputs : List (List Nat)} {left : Nat × PagedCacheRuntime φ}
    (returns : runContinuousPrepared run nextRequestId r fuel = some (.ok outputs,left)) :
    outputs = goals run choose prompts ∧ (run.maxNewTokens ≠ 0 →
      admitted left.2.history = admitted r.history ++ List.range' nextRequestId run.prepared.length) := by
  have lengths := goalsLength choose prepared
  unfold runContinuousPrepared enter at returns
  dsimp only at returns
  split at returns
  · rename_i early
    split at early
    · rename_i empty
      cases early
      cases returns
      rw [empty] at lengths
      exact ⟨(List.eq_nil_of_length_eq_zero lengths).symm,fun _ => by rw [empty]; exact (List.append_nil _).symm⟩
    split at early
    · rename_i zero
      cases early
      cases returns
      refine ⟨?_,fun some => absurd zero some⟩
      have same : goals run choose prompts = (clientPrompts run prompts).map fun _ => [] := by
        unfold goals
        rw [zero]
        rfl
      rw [same,List.map_const',clientPrompts,mergeRowsLength,prepared.rows.length_eq]
    split at early
    · cases early
      cases returns
    · cases early
  · rename_i s entered
    split at entered <;> try contradiction
    split at entered <;> try contradiction
    split at entered <;> try contradiction
    cases entered
    obtain ⟨⟨result,t⟩,exits,same⟩ := Option.map_eq_some_iff.mp returns
    cases same
    obtain ⟨u,reached,last⟩ := runExit exits
    obtain ⟨v,ended,rfl,rfl⟩ := bodyExitOk last
    have kept := servedKept rowWise prepared nextRequestId (admitted r.history)
    have before := keptReached kept (reachesVia none reached) ⟨0,servedInitial choose run nextRequestId r⟩
    obtain ⟨m,served⟩ := keptTurn kept (none u reached) before ended
    obtain ⟨taken⟩ := turnOk ended
    obtain ⟨results,calls⟩ := servedDrained prepared served (taken.leaves rfl)
    exact ⟨results,fun _ => calls⟩

end Runs

end Qwen3Asr.GreedyRefinement
