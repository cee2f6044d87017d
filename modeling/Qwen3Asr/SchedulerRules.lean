import Qwen3Asr.SchedulerTurn
import Qwen3Asr.SlotFate

/-! Invariants of the continuous batching loop: what each phase of a turn keeps, every
turn and every run keeps. -/
namespace Qwen3Asr.SchedulerRules
open Library.Effect Library.Word Library.Loop Library.Scatter
open BlockManager BatchEngine DecodeOutcome PrefillOutcome CallHistory SlotFate Scheduler SchedulerTurn

variable {φ : Type} {run : ContinuousRun φ}

section Groups

def GroupReady (group : Nat × List Nat) (s : LoopState φ) : Prop :=
  group.2.Nodup ∧ ∀ slotIdx ∈ group.2, ∃ slot, slotAt s.running slotIdx = some slot ∧ atStep group.1 slot = true

structure Ready (groups : List (Nat × List Nat)) (s : LoopState φ) : Prop where
  each : ∀ group ∈ groups, GroupReady group s
  apart : groups.Pairwise fun first second => List.Disjoint first.2 second.2

theorem groupsReady (s : LoopState φ) : Ready (groupsOf s) s where
  each := fun ⟨_,_⟩ inside => ⟨(groupMembers inside).1,(groupMembers inside).2.2⟩
  apart := by
    unfold groupsOf groupRunningByDecodeStep
    rw [List.pairwise_map]
    have steps : (((activeSteps s.running).map Prod.snd).dedup.insertionSort (· ≤ ·)).Nodup :=
      (List.perm_insertionSort _ _).nodup_iff.mpr (List.nodup_dedup _)
    exact steps.imp fun {m n} different i left right => by
      obtain ⟨p,kept,rfl⟩ := List.mem_map.mp left
      obtain ⟨q,other,same⟩ := List.mem_map.mp right
      simp only [List.mem_filter,decide_eq_true_eq] at kept other
      have equal := List.inj_on_of_nodup_map (activeStepsOnce s.running) other.1 kept.1 same
      exact different (by rw [← kept.2,← other.2,equal])

theorem groupOutside {group : Nat × List Nat} {s t : LoopState φ} (g : GroupOk run group s t)
    (once : group.2.Nodup) {i : Nat} (out : i ∉ group.2) : t.running[i]? = s.running[i]? := by
  have lengths : group.2.length = g.slots'.length := g.read.length_eq.trans (decodedLength g.decoded)
  have keys : ((group.2.zip g.slots').map Prod.fst).Nodup := by
    rwa [List.map_fst_zip (by omega)]
  have absent : (group.2.zip g.slots').lookup i = none := by
    rw [List.lookup_eq_none_iff]
    intro p inside
    simp only [bne_iff_ne,ne_eq]
    rintro rfl
    exact out (List.of_mem_zip inside).1
  rw [groupRunning g,scatterGet keys,absent]
  cases s.running[i]? <;> rfl

theorem readyRest {group : Nat × List Nat} {rest : List (Nat × List Nat)} {s t : LoopState φ}
    (ready : Ready (group::rest) s) (ok : decodeGroup run group s = .ok () t) : Ready rest t := by
  obtain ⟨g⟩ := groupOk ok
  obtain ⟨disjoint,apart⟩ := List.pairwise_cons.mp ready.apart
  exact ⟨fun other inside => by
    obtain ⟨once,here⟩ := ready.each other (List.mem_cons_of_mem _ inside)
    exact ⟨once,fun slotIdx member => by
      have out : slotIdx ∉ group.2 := fun there => disjoint other inside there member
      have same := groupOutside g (ready.each _ List.mem_cons_self).1 out
      simpa [slotAt,same] using here slotIdx member⟩,apart⟩

def EveryGroup (run : ContinuousRun φ) (Q : Nat × List Nat → LoopState φ → Prop) :
    List (Nat × List Nat) → LoopState φ → Prop
  | [], _ => True
  | group::rest, s => Q group s ∧ match decodeGroup run group s with
    | .ok _ t => EveryGroup run Q rest t
    | .error _ _ => True

instance decidableEveryGroup {Q : Nat × List Nat → LoopState φ → Prop} [∀ group s, Decidable (Q group s)] :
    ∀ groups s, Decidable (EveryGroup run Q groups s)
  | [], _ => isTrue trivial
  | group::rest, s =>
    have : Decidable (match decodeGroup run group s with
        | .ok _ t => EveryGroup run Q rest t
        | .error _ _ => True) := match decodeGroup run group s with
      | .ok _ t => decidableEveryGroup rest t
      | .error _ _ => isTrue trivial
    inferInstanceAs (Decidable (_ ∧ _))

def EveryTurnGroup (run : ContinuousRun φ) (Q : Nat × List Nat → LoopState φ → Prop) (s : LoopState φ) : Prop :=
  EveryGroup run Q (groupsOf (freeFinishedRunning s)) (freeFinishedRunning s)

instance {Q : Nat × List Nat → LoopState φ → Prop} [∀ group s, Decidable (Q group s)] (s : LoopState φ) :
    Decidable (EveryTurnGroup run Q s) := decidableEveryGroup _ _

theorem everyTrivial (groups : List (Nat × List Nat)) (s : LoopState φ) :
    EveryGroup run (fun _ _ => True) groups s := by
  induction groups generalizing s with
  | nil => trivial
  | cons group groups ih =>
    unfold EveryGroup
    cases decodeGroup run group s with
    | ok _ t => exact ⟨trivial,ih t⟩
    | error _ _ => exact ⟨trivial,trivial⟩

theorem groupsRule {Q : Nat × List Nat → LoopState φ → Prop} {Inv : LoopState φ → Prop}
    (step : ∀ group s t, GroupReady group s → Q group s → Inv s → decodeGroup run group s = .ok () t → Inv t)
    {groups : List (Nat × List Nat)} {s t : LoopState φ} (ready : Ready groups s)
    (every : EveryGroup run Q groups s) (start : Inv s) (ok : decodeGroups run groups s = .ok () t) : Inv t := by
  induction groups generalizing s with
  | nil => cases ok; exact start
  | cons group groups ih =>
    obtain ⟨_,u,first,rest⟩ := bindOk.mp ok
    obtain ⟨meets,later⟩ := every
    rw [first] at later
    have here := step group s u (ready.each _ List.mem_cons_self) meets start first
    exact ih (readyRest ready first) later here rest

end Groups

structure Kept (run : ContinuousRun φ) (Q : Nat × List Nat → LoopState φ → Prop) (Inv : LoopState φ → Prop) :
    Prop where
  free : ∀ s, Inv s → Inv (freeFinishedRunning s)
  group : ∀ group s t, GroupReady group s → Q group s → Inv s → decodeGroup run group s = .ok () t → Inv t
  limit : ∀ s, Inv s → Inv (finishAtLimit run.maxNewTokens s)
  wave : ∀ wave rest s t, Inv s → s.waiting = wave.map Prod.fst ++ rest → (wave.map Prod.snd).Nodup →
    (∀ slotIdx ∈ wave.map Prod.snd, s.running[slotIdx]? = some none) →
    prefillWave run wave {s with waiting := rest} = .ok () t → Inv t

theorem keptSettled {Q : Nat × List Nat → LoopState φ → Prop} {Inv : LoopState φ → Prop} (kept : Kept run Q Inv)
    {s decoded : LoopState φ} (every : EveryTurnGroup run Q s) (start : Inv s)
    (ok : decodeGroups run (groupsOf (freeFinishedRunning s)) (freeFinishedRunning s) = .ok () decoded) :
    Inv (settled run decoded) := by
  have freed := kept.free s start
  have after := groupsRule kept.group (groupsReady _) every freed ok
  exact kept.free _ (kept.limit _ after)

theorem keptTurn {Q : Nat × List Nat → LoopState φ → Prop} {Inv : LoopState φ → Prop} (kept : Kept run Q Inv)
    {s t : LoopState φ} {goesOn : Bool} (every : EveryTurnGroup run Q s) (start : Inv s)
    (ok : turn run s = .ok goesOn t) : Inv t := by
  obtain ⟨taken⟩ := turnOk ok
  have ready := keptSettled kept every start taken.groups
  have queue := nextWaveQueue run (settled run taken.decoded)
  rcases taken.wave with ⟨none,same⟩ | ⟨_,placed⟩
  · rw [none,List.map_nil,List.nil_append] at queue
    rw [same,← queue]
    exact ready
  · obtain ⟨once,free⟩ := nextWavePlaces run (settled run taken.decoded)
    exact kept.wave _ _ _ t ready queue once free placed

theorem keptReached {Q : Nat × List Nat → LoopState φ → Prop} {Inv : LoopState φ → Prop} (kept : Kept run Q Inv)
    {s t : LoopState φ} (reached : ReachesVia (EveryTurnGroup run Q) (body run) s t) (start : Inv s) : Inv t :=
  invariantVia (fun _ _ every inv next => keptTurn kept every inv (bodyNext.mp next)) reached start

section Entries

abbrev EntryAt (s : LoopState φ) (i : Nat) (entry : RunningSlot) : Prop := s.running[i]? = some (some entry)

structure Apart (s : LoopState φ) : Prop where
  once : ∀ i j a b, EntryAt s i a → EntryAt s j b → a.slot.requestId = b.slot.requestId → i = j
  fresh : ∀ i entry, EntryAt s i entry → entry.slot.requestId < s.nextRequestId

def groupSlots (s : LoopState φ) (group : Nat × List Nat) : List PagedDecodeSlot :=
  group.2.filterMap (slotAt s.running)

theorem groupSlotsRead {group : Nat × List Nat} {s t : LoopState φ} (g : GroupOk run group s t) :
    groupSlots s group = g.slots := by
  have reads := g.read
  unfold groupSlots
  generalize group.2 = slotIndices at reads
  generalize g.slots = slots at reads
  induction reads with
  | nil => rfl
  | cons found _ ih => rw [List.filterMap_cons_some found,ih]

theorem groupIds {group : Nat × List Nat} {s t : LoopState φ} (g : GroupOk run group s t) (apart : Apart s)
    (once : group.2.Nodup) : (g.slots.map (·.requestId)).Nodup := by
  rw [List.Nodup,List.pairwise_map,List.pairwise_iff_getElem]
  intro m n bound bound' less same
  have lengths := g.read.length_eq
  have first := (List.forall₂_iff_get.mp g.read).2 m (by omega) bound
  have second := (List.forall₂_iff_get.mp g.read).2 n (by omega) bound'
  obtain ⟨a,left,sameLeft⟩ := slotAtSome.mp first
  obtain ⟨b,right,sameRight⟩ := slotAtSome.mp second
  simp only [List.get_eq_getElem] at sameLeft sameRight left right
  have places := apart.once _ _ a b left right (by rw [sameLeft,sameRight,same])
  have equal := (once.getElem_inj_iff).mp places
  omega

theorem groupEntry {group : Nat × List Nat} {s t : LoopState φ} (apart : Apart s) (ready : GroupReady group s)
    (ok : decodeGroup run group s = .ok () t) {i : Nat} {entry' : RunningSlot} (found : EntryAt t i entry') :
    ∃ entry, EntryAt s i entry ∧
      (entry' = entry ∧ Untouched entry.slot.requestId s.runtime t.runtime ∨
        ∃ slot', entry' = {entry with slot := slot'} ∧ atStep group.1 entry.slot = true ∧
          Fate run.thinker run.eosTokenIds run.maxNewTokens group.1 (groupSlots s group) s.runtime t.runtime
            entry.slot slot') := by
  obtain ⟨g⟩ := groupOk ok
  have runtime : t.runtime = g.runtime := congrArg LoopState.runtime g.same
  have once := groupIds g apart ready.1
  have live : ∀ slot ∈ g.slots, atStep group.1 slot = true := by
    intro slot inside
    obtain ⟨slotIdx,member,read⟩ := pairedSource g.read inside
    obtain ⟨slot',there,live⟩ := ready.2 slotIdx member
    rw [there] at read
    cases read
    exact live
  have lengths : group.2.length = g.slots'.length := g.read.length_eq.trans (decodedLength g.decoded)
  have keys : ((group.2.zip g.slots').map Prod.fst).Nodup := by
    rw [List.map_fst_zip (by omega)]
    exact ready.1
  have place : (scatter writeSlot s.running (group.2.zip g.slots'))[i]? = _ := scatterGet keys i
  unfold EntryAt at found
  rw [groupRunning g,place,Option.map_eq_some_iff] at found
  obtain ⟨before,atIndex,made⟩ := found
  cases written : (group.2.zip g.slots').lookup i with
  | none =>
    rw [written] at made
    subst made
    have out : entry'.slot.requestId ∉ g.slots.map (·.requestId) := by
      intro inside
      obtain ⟨slot,there,same⟩ := List.mem_map.mp inside
      obtain ⟨n,bound,rfl⟩ := List.getElem_of_mem there
      have index : n < group.2.length := by rw [g.read.length_eq]; exact bound
      have read := (List.forall₂_iff_get.mp g.read).2 n index bound
      obtain ⟨other,there,same'⟩ := slotAtSome.mp read
      simp only [List.get_eq_getElem] at same' there
      have place := apart.once _ _ other entry' there atIndex (by rw [same',same])
      rw [List.lookup_eq_none_iff] at written
      have pair : (group.2[n],g.slots'[n]) ∈ group.2.zip g.slots' :=
        List.mem_iff_getElem.mpr ⟨n,by simp; omega,by simp⟩
      have different := written _ pair
      simp only [bne_iff_ne,ne_eq] at different
      exact different place.symm
    exact ⟨entry',atIndex,.inl ⟨rfl,runtime ▸ decodedUntouched g.decoded out⟩⟩
  | some slot' =>
    rw [written] at made
    have fates := decodedFates g.decoded live once
    obtain ⟨slot,there,fate⟩ := lookupZip fates written
    obtain ⟨entry,here,rfl⟩ := slotAtSome.mp (lookupRead g.read there)
    rw [here] at atIndex
    cases atIndex
    cases made
    have member : entry.slot ∈ g.slots := by
      obtain ⟨before,after,same,_⟩ := List.lookup_eq_some_iff.mp there
      have pair : (i,entry.slot) ∈ group.2.zip g.slots := by rw [same]; simp
      exact (List.of_mem_zip pair).2
    exact ⟨entry,here,.inr ⟨slot',rfl,live _ member,by rw [groupSlotsRead g,runtime]; exact fate⟩⟩

theorem fateId {thinker : Thinker φ} {eosTokenIds : List Nat} {maxNewTokens step : Nat}
    {slots : List PagedDecodeSlot} {r t : PagedCacheRuntime φ} {slot slot' : PagedDecodeSlot}
    (fate : Fate thinker eosTokenIds maxNewTokens step slots r t slot slot') : slot'.requestId = slot.requestId := by
  cases fate <;> rfl

theorem freedEntry {s : LoopState φ} (apart : Apart s) {i : Nat} {entry : RunningSlot}
    (found : EntryAt (freeFinishedRunning s) i entry) :
    EntryAt s i entry ∧ entry.slot.finished = false ∧
      Untouched entry.slot.requestId s.runtime (freeFinishedRunning s).runtime := by
  unfold EntryAt freeFinishedRunning at found
  simp only [List.getElem?_map,Option.map_eq_some_iff] at found
  obtain ⟨before,here,kept⟩ := found
  obtain ⟨rfl,live⟩ := Option.filter_eq_some_iff.mp kept
  have unfinished : entry.slot.finished = false := by simpa [done] using live
  have out : entry.slot.requestId ∉ (((s.running.filterMap id).filter done).map (·.slot.requestId)) := by
    intro inside
    obtain ⟨other,member,same⟩ := List.mem_map.mp inside
    obtain ⟨there,ended⟩ := List.mem_filter.mp member
    obtain ⟨o,there,same'⟩ := List.mem_filterMap.mp there
    obtain ⟨j,found⟩ := List.mem_iff_getElem?.mp there
    cases same'
    have place := apart.once j i other entry found here same
    subst place
    rw [here] at found
    cases found
    simp [done,unfinished] at ended
  exact ⟨here,unfinished,untouchedManager (by rw [tableFreedMany out])⟩

theorem limitedEntry {s : LoopState φ} {maxNewTokens i : Nat} {entry' : RunningSlot}
    (found : EntryAt (finishAtLimit maxNewTokens s) i entry') :
    ∃ entry, EntryAt s i entry ∧ entry' = limitEntry maxNewTokens entry := by
  unfold EntryAt finishAtLimit at found
  simp only [List.getElem?_map,Option.map_eq_some_iff] at found
  obtain ⟨_,here,entry,rfl,rfl⟩ := found
  exact ⟨entry,here,rfl⟩

theorem limitId (maxNewTokens : Nat) (entry : RunningSlot) :
    (limitEntry maxNewTokens entry).slot.requestId = entry.slot.requestId := by
  unfold limitEntry
  split <;> rfl

theorem waveEntry {wave : List (Nat × Nat)} {s t : LoopState φ} (w : WaveOk run wave s t)
    (once : (wave.map Prod.snd).Nodup) {i : Nat} {entry : RunningSlot} (found : EntryAt t i entry) :
    EntryAt s i entry ∨ ∃ (k clientIndex : Nat) (row : PagedBatchRow), wave[k]? = some (clientIndex,i) ∧ w.state.rows[k]? = some row ∧
      entry = ⟨clientIndex,prefillSlot row⟩ := by
  obtain ⟨enough,placed⟩ := placeWaveOk w.placed
  have running : t.running = scatter occupy s.running (placements wave w.state.rows) :=
    (congrArg LoopState.running w.same).trans placed
  have keys : ((placements wave w.state.rows).map Prod.fst).Nodup := by
    have split : (placements wave w.state.rows).map Prod.fst = ((wave.zip w.state.rows).map Prod.fst).map Prod.snd := by
      simp [placements,Function.comp_def]
    rw [split,List.map_fst_zip enough]
    exact once
  unfold EntryAt at found
  rw [running,scatterGet keys,Option.map_eq_some_iff] at found
  obtain ⟨before,here,made⟩ := found
  cases written : (placements wave w.state.rows).lookup i with
  | none =>
    rw [written] at made
    subst made
    exact .inl here
  | some entering =>
    rw [written] at made
    cases made
    obtain ⟨_,_,same,_⟩ := List.lookup_eq_some_iff.mp written
    have member : (i,entry) ∈ placements wave w.state.rows := by rw [same]; simp
    obtain ⟨⟨⟨clientIndex,slotIdx⟩,row⟩,there,equal⟩ := List.mem_map.mp member
    cases equal
    obtain ⟨k,found⟩ := List.mem_iff_getElem?.mp there
    obtain ⟨atWave,atRow⟩ := List.getElem?_zip_eq_some.mp found
    exact .inr ⟨k,clientIndex,row,atWave,atRow,rfl⟩

theorem placementsZip {wave : List (Nat × Nat)} {rows : List PagedBatchRow} (enough : wave.length ≤ rows.length) :
    placements wave rows =
      (wave.map Prod.snd).zip ((wave.zip rows).map fun p => RunningSlot.mk p.1.1 (prefillSlot p.2)) := by
  induction wave generalizing rows with
  | nil => rfl
  | cons w wave ih =>
    cases rows with
    | nil => cases enough
    | cons row rows =>
      have rest := ih (Nat.le_of_succ_le_succ enough)
      unfold placements at rest ⊢
      rw [List.zip_cons_cons,List.map_cons,rest]
      rfl

theorem waveEntered {wave : List (Nat × Nat)} {s t : LoopState φ} (w : WaveOk run wave s t)
    (once : (wave.map Prod.snd).Nodup) (free : ∀ slotIdx ∈ wave.map Prod.snd, s.running[slotIdx]? = some none)
    {k clientIndex slotIdx : Nat} {row : PagedBatchRow} (place : wave[k]? = some (clientIndex,slotIdx))
    (found : w.state.rows[k]? = some row) : EntryAt t slotIdx ⟨clientIndex,prefillSlot row⟩ := by
  obtain ⟨enough,placed⟩ := placeWaveOk w.placed
  have running : t.running = scatter occupy s.running (placements wave w.state.rows) :=
    (congrArg LoopState.running w.same).trans placed
  rw [placementsZip enough] at running
  have lengths : (wave.zip w.state.rows).length = wave.length := by
    rw [List.length_zip]
    omega
  have reads : List.Forall₂ (fun i (c : RunningSlot) => ∃ a, s.running[i]? = some a ∧ occupy c a = some c)
      (wave.map Prod.snd) ((wave.zip w.state.rows).map fun p => RunningSlot.mk p.1.1 (prefillSlot p.2)) := by
    refine List.forall₂_iff_get.mpr ⟨by simp [lengths],fun n bound _ => ⟨none,?_,rfl⟩⟩
    exact free _ (List.getElem_mem bound)
  have written := scatterReads (P := fun (a : Option RunningSlot) c => a = some c) once reads
  rw [← running] at written
  have bound : k < wave.length := (List.getElem?_eq_some_iff.mp place).1
  obtain ⟨a,there,rfl⟩ := (List.forall₂_iff_get.mp written).2 k (by simpa using bound) (by simp [lengths,bound])
  have atWave : wave[k] = (clientIndex,slotIdx) := (List.getElem?_eq_some_iff.mp place).2
  obtain ⟨bound',atRow⟩ := List.getElem?_eq_some_iff.mp found
  simpa [atWave,atRow] using there

theorem waveKeeps {wave : List (Nat × Nat)} {s t : LoopState φ} (w : WaveOk run wave s t)
    (once : (wave.map Prod.snd).Nodup) (free : ∀ slotIdx ∈ wave.map Prod.snd, s.running[slotIdx]? = some none)
    {i : Nat} {entry : RunningSlot} (found : EntryAt s i entry) : EntryAt t i entry := by
  obtain ⟨enough,placed⟩ := placeWaveOk w.placed
  have running : t.running = scatter occupy s.running (placements wave w.state.rows) :=
    (congrArg LoopState.running w.same).trans placed
  have split : (placements wave w.state.rows).map Prod.fst = wave.map Prod.snd := by
    rw [placementsZip enough,List.map_fst_zip]
    simp [enough]
  have absent : (placements wave w.state.rows).lookup i = none := by
    rw [List.lookup_eq_none_iff]
    intro p inside
    simp only [bne_iff_ne,ne_eq]
    intro same
    have member : i ∈ wave.map Prod.snd := by
      rw [← split,same]
      exact List.mem_map_of_mem inside
    have vacant := free i member
    rw [found] at vacant
    cases vacant
  have place : (scatter occupy s.running (placements wave w.state.rows))[i]? = _ :=
    scatterGet (by rw [split]; exact once) i
  rw [absent,found] at place
  exact (congrArg (·[i]?) running).trans place

end Entries

/- A property of each entry beside its runtime, kept by whatever may befall the entry. -/
structure EntryRule (run : ContinuousRun φ) (Q : Nat × List Nat → LoopState φ → Prop)
    (E : PagedCacheRuntime φ → RunningSlot → Prop) : Prop where
  untouched : ∀ r t entry, E r entry → Untouched entry.slot.requestId r t → E t entry
  limit : ∀ r entry, E r entry → E r (limitEntry run.maxNewTokens entry)
  fate : ∀ (group : Nat × List Nat) (s t : LoopState φ) (entry : RunningSlot) (slot' : PagedDecodeSlot), Q group s → E s.runtime entry → atStep group.1 entry.slot = true →
    Fate run.thinker run.eosTokenIds run.maxNewTokens group.1 (groupSlots s group) s.runtime t.runtime
      entry.slot slot' → E t.runtime {entry with slot := slot'}
  prefilled : ∀ wave s t (w : WaveOk run wave s t) (k clientIndex slotIdx : Nat) (row : PagedBatchRow),
    wave[k]? = some (clientIndex,slotIdx) → w.state.rows[k]? = some row → E t.runtime ⟨clientIndex,prefillSlot row⟩

structure Tracked (E : PagedCacheRuntime φ → RunningSlot → Prop) (s : LoopState φ) : Prop where
  apart : Apart s
  each : ∀ i entry, EntryAt s i entry → E s.runtime entry

theorem apartGroup {group : Nat × List Nat} {s t : LoopState φ} (apart : Apart s) (ready : GroupReady group s)
    (ok : decodeGroup run group s = .ok () t) : Apart t := by
  have origin {i : Nat} {entry' : RunningSlot} (found : EntryAt t i entry') :
      ∃ entry, EntryAt s i entry ∧ entry'.slot.requestId = entry.slot.requestId := by
    obtain ⟨entry,here,⟨rfl,_⟩ | ⟨slot',rfl,_,fate⟩⟩ := groupEntry apart ready ok found
    · exact ⟨_,here,rfl⟩
    · exact ⟨entry,here,fateId fate⟩
  have next : t.nextRequestId = s.nextRequestId := by
    obtain ⟨g⟩ := groupOk ok
    have same := congrArg LoopState.nextRequestId g.same
    exact same
  exact {
    once := fun i j a b left right same => by
      obtain ⟨a',left',sameLeft⟩ := origin left
      obtain ⟨b',right',sameRight⟩ := origin right
      exact apart.once i j a' b' left' right' (by rw [← sameLeft,← sameRight,same])
    fresh := fun i entry found => by
      obtain ⟨entry',here,same⟩ := origin found
      rw [same,next]
      exact apart.fresh i entry' here}

theorem apartFree {s : LoopState φ} (apart : Apart s) : Apart (freeFinishedRunning s) where
  once i j a b left right same := apart.once i j a b (freedEntry apart left).1 (freedEntry apart right).1 same
  fresh i entry found := apart.fresh i entry (freedEntry apart found).1

theorem apartLimit {s : LoopState φ} {maxNewTokens : Nat} (apart : Apart s) : Apart (finishAtLimit maxNewTokens s) where
  once i j a b left right same := by
    obtain ⟨a',left',rfl⟩ := limitedEntry left
    obtain ⟨b',right',rfl⟩ := limitedEntry right
    rw [limitId,limitId] at same
    exact apart.once i j a' b' left' right' same
  fresh i entry found := by
    obtain ⟨entry',here,rfl⟩ := limitedEntry found
    rw [limitId]
    exact apart.fresh i entry' here

theorem waveRowId {wave : List (Nat × Nat)} {s t : LoopState φ} (w : WaveOk run wave s t) {k : Nat}
    {row : PagedBatchRow} (found : w.state.rows[k]? = some row) : row.requestId = s.nextRequestId+k := by
  obtain ⟨p⟩ := prefillOk w.prefill
  obtain ⟨_,_,_,each⟩ := prefilledRow p
  obtain ⟨_,_,_,made⟩ := each k row found
  rw [made]

theorem waveUntouched {wave : List (Nat × Nat)} {s t : LoopState φ} (w : WaveOk run wave s t) {requestId : Nat}
    (before : requestId < s.nextRequestId) : Untouched requestId s.runtime t.runtime := by
  obtain ⟨p⟩ := prefillOk w.prefill
  have runtime : t.runtime = w.runtime := congrArg LoopState.runtime w.same
  rw [runtime]
  exact prefillUntouched p before

theorem apartWave {wave : List (Nat × Nat)} {s t : LoopState φ} (apart : Apart s) (w : WaveOk run wave s t)
    (once : (wave.map Prod.snd).Nodup) : Apart t := by
  have next : t.nextRequestId = s.nextRequestId+wave.length := congrArg LoopState.nextRequestId w.same
  have entering {k clientIndex i : Nat} {row : PagedBatchRow} (place : wave[k]? = some (clientIndex,i))
      (found : w.state.rows[k]? = some row) : (prefillSlot row).requestId = s.nextRequestId+k ∧ k < wave.length :=
    have first := waveRowId w found
    ⟨first,(List.getElem?_eq_some_iff.mp place).1⟩
  exact {
    once := fun i j a b left right same => by
      rcases waveEntry w once left with before | ⟨k,c,row,place,found,rfl⟩ <;>
        rcases waveEntry w once right with before' | ⟨k',c',row',place',found',rfl⟩
      · exact apart.once i j a b before before' same
      · have := apart.fresh i a before
        have := (entering place' found').1
        dsimp only at same
        omega
      · have := apart.fresh j b before'
        have := (entering place found).1
        dsimp only at same
        omega
      · have first := (entering place found).1
        have second := (entering place' found').1
        dsimp only at same
        obtain rfl : k = k' := by omega
        rw [place] at place'
        cases place'
        rfl
    fresh := fun i entry found => by
      rw [next]
      rcases waveEntry w once found with before | ⟨k,c,row,place,read,rfl⟩
      · have := apart.fresh i entry before
        omega
      · obtain ⟨same,bound⟩ := entering place read
        rw [same]
        omega}

theorem apartKept (run : ContinuousRun φ) (Q : Nat × List Nat → LoopState φ → Prop) : Kept run Q Apart where
  free _ apart := apartFree apart
  group _ _ _ ready _ apart ok := apartGroup apart ready ok
  limit _ apart := apartLimit apart
  wave _ rest s _ apart _ once _ ok := by
    obtain ⟨w⟩ := waveOk ok
    have waits : Apart {s with waiting := rest} := ⟨apart.once,apart.fresh⟩
    exact apartWave waits w once

/-- What befalls single entries carries over to the whole table of slots. -/
theorem trackedKept {Q : Nat × List Nat → LoopState φ → Prop} {E : PagedCacheRuntime φ → RunningSlot → Prop}
    (rule : EntryRule run Q E) : Kept run Q (Tracked E) where
  free s tracked := ⟨apartFree tracked.apart,fun i entry found => by
    obtain ⟨here,_,untouched⟩ := freedEntry tracked.apart found
    exact rule.untouched _ _ _ (tracked.each i entry here) untouched⟩
  group group s t ready every tracked ok := ⟨apartGroup tracked.apart ready ok,fun i entry' found => by
    obtain ⟨entry,here,⟨rfl,untouched⟩ | ⟨slot',rfl,live,fate⟩⟩ := groupEntry tracked.apart ready ok found
    · exact rule.untouched _ _ _ (tracked.each i _ here) untouched
    · exact rule.fate group s t entry slot' every (tracked.each i _ here) live fate⟩
  limit s tracked := ⟨apartLimit tracked.apart,fun i entry' found => by
    obtain ⟨entry,here,rfl⟩ := limitedEntry found
    exact rule.limit _ _ (tracked.each i entry here)⟩
  wave wave rest s t tracked queue once free ok := by
    obtain ⟨w⟩ := waveOk ok
    have apart : Apart {s with waiting := rest} := ⟨tracked.apart.once,tracked.apart.fresh⟩
    exact ⟨apartWave apart w once,fun i entry found => by
      rcases waveEntry w once found with before | ⟨k,clientIndex,row,place,read,rfl⟩
      · exact rule.untouched _ _ _ (tracked.each i entry before) (waveUntouched w (apart.fresh i entry before))
      · exact rule.prefilled wave _ t w k clientIndex i row place read⟩

theorem emptyInitial {nextRequestId : Nat} {runtime : PagedCacheRuntime φ} {i : Nat} {entry : RunningSlot} :
    ¬ EntryAt (initial run nextRequestId runtime) i entry := fun found => by
  obtain ⟨_,same⟩ := List.getElem?_eq_some_iff.mp found
  simp [initial] at same

theorem apartInitial (run : ContinuousRun φ) (nextRequestId : Nat) (runtime : PagedCacheRuntime φ) :
    Apart (initial run nextRequestId runtime) :=
  ⟨fun _ _ _ _ left => absurd left emptyInitial,fun _ _ found => absurd found emptyInitial⟩

theorem trackedInitial (E : PagedCacheRuntime φ → RunningSlot → Prop) (run : ContinuousRun φ)
    (nextRequestId : Nat) (runtime : PagedCacheRuntime φ) : Tracked E (initial run nextRequestId runtime) :=
  ⟨apartInitial run nextRequestId runtime,fun _ _ found => absurd found emptyInitial⟩

end Qwen3Asr.SchedulerRules
