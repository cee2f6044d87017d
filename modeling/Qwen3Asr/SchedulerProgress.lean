import Qwen3Asr.SchedulerTurn

/-! Progress of the continuous batching loop. Every turn uses up some of the work
left or hands its own state back, and it hands it back in the starved states only. -/
namespace Qwen3Asr.SchedulerProgress
open Library.Effect Library.Word Library.Loop Library.Scatter
open BlockManager BatchEngine DecodeOutcome Scheduler SchedulerTurn

variable {φ : Type} {run : ContinuousRun φ}

/- Turns a slot may still take: its steps, its finish, its release. -/
def weight (maxNewTokens : Nat) (slot : PagedDecodeSlot) : Nat :=
  if slot.finished then 1 else maxNewTokens-slot.decodeStep+2

def entryWeight (maxNewTokens : Nat) : Option RunningSlot → Nat
  | none => 0
  | some entry => weight maxNewTokens entry.slot

def remaining (maxNewTokens : Nat) (s : LoopState φ) : Nat :=
  (maxNewTokens+3)*s.waiting.length + (s.running.map (entryWeight maxNewTokens)).sum

def Moves (maxNewTokens : Nat) (s t : LoopState φ) : Prop :=
  t = s ∨ remaining maxNewTokens t < remaining maxNewTokens s

theorem movesTrans {maxNewTokens : Nat} {s t u : LoopState φ} (first : Moves maxNewTokens s t)
    (second : Moves maxNewTokens t u) : Moves maxNewTokens s u := by
  rcases first with rfl | less
  · exact second
  · rcases second with rfl | fewer
    · exact .inr less
    · exact .inr (Nat.lt_trans fewer less)

theorem movesFixed {maxNewTokens : Nat} {s t : LoopState φ} (out : Moves maxNewTokens s t)
    (back : Moves maxNewTokens t s) : t = s := by
  rcases out with same | less
  · exact same
  · rcases back with same | more
    · exact same.symm
    · omega

theorem weightPositive (maxNewTokens : Nat) (slot : PagedDecodeSlot) : 0 < weight maxNewTokens slot := by
  unfold weight
  split <;> omega

theorem weightFinished {maxNewTokens : Nat} {slot slot' : PagedDecodeSlot} (live : slot.finished = false)
    (ended : slot'.finished = true) : weight maxNewTokens slot' < weight maxNewTokens slot := by
  simp only [weight,live,ended,if_true,Bool.false_eq_true,if_false]
  omega

theorem weightStep {maxNewTokens : Nat} {slot slot' : PagedDecodeSlot} (live : slot.finished = false)
    (below : slot.decodeStep < maxNewTokens) (next : slot'.decodeStep = slot.decodeStep+1) :
    weight maxNewTokens slot' < weight maxNewTokens slot := by
  simp only [weight,live,next,Bool.false_eq_true,if_false]
  split <;> omega

def Lighter (maxNewTokens : Nat) (p : PagedDecodeSlot × Bool) (slot' : PagedDecodeSlot) : Prop :=
  (p.2 = true → weight maxNewTokens slot' < weight maxNewTokens p.1) ∧
    (slot' = p.1 ∨ weight maxNewTokens slot' < weight maxNewTokens p.1)

theorem lighterOf {maxNewTokens : Nat} {p : PagedDecodeSlot × Bool} {slot' : PagedDecodeSlot}
    (less : weight maxNewTokens slot' < weight maxNewTokens p.1) : Lighter maxNewTokens p slot' :=
  ⟨fun _ => less,.inr less⟩

theorem endingLighter {maxNewTokens step : Nat} {eosTokenIds : List Nat} {p : PagedDecodeSlot × Bool}
    {slot' : PagedDecodeSlot} (below : step < maxNewTokens) (here : p.2 = true → atStep step p.1 = true)
    (ending : Ending eosTokenIds step p slot') : Lighter maxNewTokens p slot' := by
  cases ending with
  | ended slot _ => exact lighterOf (weightFinished (atStepLive (here rfl)).1 rfl)
  | skipped slot =>
    refine ⟨fun yes => Bool.noConfusion yes,?_⟩
    unfold skipStep
    split
    · rename_i there
      obtain ⟨live,rfl⟩ := atStepLive there
      exact .inr (weightStep live below rfl)
    · exact .inl rfl

theorem servedLighter {maxNewTokens step : Nat} {eosTokenIds : List Nat} {active : List PagedBatchRow}
    {logits : Nat → Nat → Nat} {p : PagedDecodeSlot × Bool} {slot' : PagedDecodeSlot}
    (below : step < maxNewTokens) (here : p.2 = true → atStep step p.1 = true)
    (served : Served eosTokenIds active logits p slot') : Lighter maxNewTokens p slot' := by
  cases served with
  | waits slot => exact ⟨fun yes => Bool.noConfusion yes,.inl rfl⟩
  | ended slot _ => exact lighterOf (weightFinished (atStepLive (here rfl)).1 rfl)
  | advanced slot k _ _ =>
    obtain ⟨live,rfl⟩ := atStepLive (here rfl)
    exact lighterOf (weightStep live below rfl)

theorem lighterMoves {maxNewTokens : Nat} {pairs : List (PagedDecodeSlot × Bool)} {slots' : List PagedDecodeSlot}
    (each : List.Forall₂ (Lighter maxNewTokens) pairs slots') (served : ∃ p ∈ pairs, p.2 = true) :
    List.Forall₂ (fun slot slot' => slot' = slot ∨ weight maxNewTokens slot' < weight maxNewTokens slot)
      (pairs.map Prod.fst) slots' ∧ slots' ≠ pairs.map Prod.fst := by
  refine ⟨List.forall₂_map_left_iff.mpr (each.imp fun _ _ related => related.2),fun same => ?_⟩
  subst same
  rw [List.forall₂_map_right_iff] at each
  obtain ⟨p,inside,yes⟩ := served
  have lighter := (List.forall₂_same.mp each p inside).1 yes
  omega

/- The blocks for the next token of the slot are not there. -/
def Starved (m : PagedBlockManager) (slot : PagedDecodeSlot) : Prop :=
  tokensWanted slot < 2^64 ∧ slotsAvailableFor m slot.requestId (tokensWanted slot) = false

/- One decode step hands its inputs back, its slots at the step starved, or makes some slot
lighter and none heavier. -/
theorem decodedMoves {thinker : Thinker φ} {slots slots' : List PagedDecodeSlot} {step maxNewTokens : Nat}
    {eosTokenIds : List Nat} {r t : PagedCacheRuntime φ}
    (decoded : Decoded thinker slots step maxNewTokens eosTokenIds r slots' t) :
    (slots' = slots ∧ t = r ∧ ∀ slot ∈ slots, atStep step slot = true →
      step < maxNewTokens ∧ eosTokenIds ≠ [] ∧ Starved r.manager slot) ∨
    (List.Forall₂ (fun slot slot' => slot' = slot ∨ weight maxNewTokens slot' < weight maxNewTokens slot)
      slots slots' ∧ slots' ≠ slots) := by
  cases decoded with
  | idle away => exact .inl ⟨rfl,rfl,fun slot inside here => by simp [away slot inside] at here⟩
  | limit _ =>
    have each : List.Forall₂ (fun slot slot' => slot' = slot ∨ weight maxNewTokens slot' < weight maxNewTokens slot)
        slots (slots.map ({· with finished := true})) := by
      rw [List.forall₂_map_right_iff]
      refine List.forall₂_same.mpr fun slot _ => ?_
      cases live : slot.finished with
      | true => exact .inl (by rw [← live])
      | false => exact .inr (weightFinished live rfl)
    rcases Classical.em (slots.map ({· with finished := true}) = slots) with same | different
    · refine .inl ⟨same,rfl,fun slot inside here => ?_⟩
      rw [← same] at inside
      obtain ⟨_,_,rfl⟩ := List.mem_map.mp inside
      cases (atStepLive here).1
    · exact .inr ⟨each,different⟩
  | refused granted m below some asked none =>
    obtain ⟨rfl,starved⟩ := chainRefused asked none
    exact .inl ⟨rfl,rfl,fun slot inside here => ⟨below,some,starved slot inside here⟩⟩
  | ended granted m below asked served none =>
    have here := chainGranted asked
    have each := (List.forall₂_and_left _ _).mpr ⟨here,endedSlots here none⟩
    have moved := lighterMoves (each.imp fun _ _ both => endingLighter below both.1 both.2)
      (someGranted (chainLength asked) served)
    rw [zipGranted asked] at moved
    exact .inr moved
  | forwarded granted m blockTables call logits below asked some read forward =>
    have here := chainGranted asked
    have each := (List.forall₂_and_left _ _).mpr ⟨here,forwardedSlots eosTokenIds here logits⟩
    have moved := lighterMoves (each.imp fun _ _ both => servedLighter below both.1 both.2) (someActive some)
    rw [zipGranted asked] at moved
    exact .inr moved

theorem filterKeeps {running : List (Option RunningSlot)} :
    running.map (Option.filter (!done ·)) = running ↔ ∀ entry ∈ running.filterMap id, done entry = false := by
  induction running with
  | nil => simp
  | cons entry running ih =>
    cases entry with
    | none => simpa using ih
    | some entry =>
      cases ended : done entry with
      | false => simpa [Option.filter,ended] using ih
      | true => simp [Option.filter,ended]

theorem freeFinishedIdle {s : LoopState φ} (live : ∀ entry ∈ entries s, done entry = false) :
    freeFinishedRunning s = s := by
  have none : (entries s).filter done = [] := List.filter_eq_nil_iff.mpr fun entry inside => by
    simp [live entry inside]
  unfold freeFinishedRunning
  simp only [none,filterKeeps.mpr live,List.map_nil,List.foldl_nil]
  rfl

theorem freeFinishedMoves (maxNewTokens : Nat) (s : LoopState φ) : Moves maxNewTokens s (freeFinishedRunning s) := by
  have each : List.Forall₂ (fun entry entry' => entry' = entry ∨
      entryWeight maxNewTokens entry' < entryWeight maxNewTokens entry) s.running
      (s.running.map (Option.filter (!done ·))) := by
    rw [List.forall₂_map_right_iff]
    refine List.forall₂_same.mpr fun entry _ => ?_
    cases entry with
    | none => exact .inl rfl
    | some entry =>
      cases ended : done entry with
      | false => exact .inl (by simp [Option.filter,ended])
      | true =>
        refine .inr ?_
        simp only [Option.filter,ended,Bool.not_true,Bool.false_eq_true,if_false,entryWeight]
        exact weightPositive _ _
  rcases sameOrLighter each with same | less
  · exact .inl (freeFinishedIdle (filterKeeps.mp same))
  · exact .inr (Nat.add_lt_add_left less _)

theorem finishAtLimitMoves (maxNewTokens : Nat) (s : LoopState φ) :
    Moves maxNewTokens s (finishAtLimit maxNewTokens s) := by
  have each : List.Forall₂ (fun entry entry' => entry' = entry ∨
      entryWeight maxNewTokens entry' < entryWeight maxNewTokens entry) s.running
      (finishAtLimit maxNewTokens s).running := by
    unfold finishAtLimit
    rw [List.forall₂_map_right_iff]
    refine List.forall₂_same.mpr fun entry _ => ?_
    cases entry with
    | none => exact .inl rfl
    | some entry =>
      simp only [Option.map_some]
      unfold limitEntry
      split
      · rename_i past
        simp only [Bool.and_eq_true,Bool.not_eq_true'] at past
        exact .inr (weightFinished past.1 rfl)
      · exact .inl rfl
  rcases sameOrLighter each with same | less
  · exact .inl (congrArg (fun running => ({s with running} : LoopState φ)) same)
  · exact .inr (Nat.add_lt_add_left less _)

theorem relationEqual {running running' : List (Option RunningSlot)}
    (each : List.Forall₂ (Option.Rel (· = ·)) running running') : running' = running := by
  induction each with
  | nil => rfl
  | cons head _ ih =>
    cases head with
    | none => rw [ih]
    | some same => rw [ih,same]

theorem groupSame {group : Nat × List Nat} {s t : LoopState φ} (g : GroupOk run group s t)
    (once : group.2.Nodup) (counted : g.slots.length = g.slots'.length) (same : t.running = s.running) :
    g.slots' = g.slots := by
  have again := groupReads g once counted.symm
  rw [same] at again
  refine List.ext_getElem counted.symm fun n bound bound' => ?_
  have inside : n < group.2.length := by rw [g.read.length_eq]; exact bound'
  have before := (List.forall₂_iff_get.mp g.read).2 n inside bound'
  have after := (List.forall₂_iff_get.mp again).2 n inside bound
  exact Option.some.inj (after.symm.trans before)

theorem decodeGroupMoves {group : Nat × List Nat} {s t : LoopState φ} (once : group.2.Nodup)
    (ok : decodeGroup run group s = .ok () t) : Moves run.maxNewTokens s t := by
  obtain ⟨g⟩ := groupOk ok
  rcases decodedMoves g.decoded with ⟨slots,runtime,_⟩ | ⟨each,different⟩
  · have unchanged : List.Forall₂ (· = ·) g.slots g.slots' := by rw [slots,List.forall₂_eq_eq_eq]
    have same := relationEqual (groupEntries g once unchanged (fun entry slot same => by subst same; rfl)
      fun _ => rfl)
    have written := (groupRunning g).symm.trans same
    exact .inl (g.same.trans (by rw [written,runtime]))
  · have moved := groupEntries (R := fun entry entry' => entry' = entry ∨
      weight run.maxNewTokens entry'.slot < weight run.maxNewTokens entry.slot) g once each
      (fun entry slot related => related.imp (fun same => by subst same; rfl) id) fun _ => .inl rfl
    have weighed : List.Forall₂ (fun entry entry' => entry' = entry ∨
        entryWeight run.maxNewTokens entry' < entryWeight run.maxNewTokens entry) s.running t.running := by
      refine moved.imp fun entry entry' related => ?_
      cases related with
      | none => exact .inl rfl
      | some related => exact related.imp (congrArg some) id
    rcases sameOrLighter weighed with same | less
    · exact absurd (groupSame g once each.length_eq same) different
    · refine .inr ?_
      unfold remaining
      rw [groupWaiting g]
      exact Nat.add_lt_add_left less _

theorem decodeGroupsMoves {groups : List (Nat × List Nat)} {s t : LoopState φ}
    (once : ∀ group ∈ groups, group.2.Nodup) (ok : decodeGroups run groups s = .ok () t) :
    Moves run.maxNewTokens s t := by
  induction groups generalizing s with
  | nil => cases ok; exact .inl rfl
  | cons group groups ih =>
    obtain ⟨_,u,first,rest⟩ := bindOk.mp ok
    exact movesTrans (decodeGroupMoves (once _ List.mem_cons_self) first)
      (ih (fun group inside => once group (List.mem_cons_of_mem _ inside)) rest)

theorem modifyWeight {α : Type} (w : α → Nat) (xs : List α) (i : Nat) (f : α → α) (bound : Nat)
    (light : ∀ a, w (f a) ≤ bound) : ((xs.modify i f).map w).sum ≤ (xs.map w).sum + bound := by
  induction xs generalizing i with
  | nil => simp
  | cons x xs ih =>
    cases i with
    | zero =>
      have := light x
      simp only [List.modify_zero_cons,List.map_cons,List.sum_cons]
      omega
    | succ i =>
      have := ih i
      simp only [List.modify_succ_cons,List.map_cons,List.sum_cons]
      omega

theorem placementsWeight (maxNewTokens : Nat) (running : List (Option RunningSlot)) (wave : List (Nat × Nat))
    (rows : List PagedBatchRow) :
    ((scatter occupy running (placements wave rows)).map (entryWeight maxNewTokens)).sum ≤
      (running.map (entryWeight maxNewTokens)).sum + (maxNewTokens+2)*wave.length := by
  induction wave generalizing running rows with
  | nil => simp [placements,scatter]
  | cons w wave ih =>
    cases rows with
    | nil => simp [placements,scatter]
    | cons row rows =>
      have first := modifyWeight (entryWeight maxNewTokens) running w.2 (occupy ⟨w.1,prefillSlot row⟩)
        (maxNewTokens+2) (fun entry => by
          simp only [occupy,entryWeight,weight,prefillSlot]
          split <;> omega)
      have rest := ih (running.modify w.2 (occupy ⟨w.1,prefillSlot row⟩)) rows
      change ((scatter occupy (running.modify w.2 (occupy ⟨w.1,prefillSlot row⟩)) (placements wave rows)).map _).sum ≤ _
      rw [List.length_cons,Nat.mul_succ]
      omega

theorem waveMoves {s t : LoopState φ} {wave : List (Nat × Nat)} {rest : List Nat}
    (queue : s.waiting = wave.map Prod.fst ++ rest) (some : wave ≠ [])
    (ok : prefillWave run wave {s with waiting := rest} = .ok () t) :
    remaining run.maxNewTokens t < remaining run.maxNewTokens s := by
  obtain ⟨w⟩ := waveOk ok
  obtain ⟨_,placed⟩ := placeWaveOk w.placed
  have weighed := placementsWeight run.maxNewTokens s.running wave w.state.rows
  rw [← placed] at weighed
  have positive : 0 < wave.length := List.length_pos_iff.mpr some
  rw [w.same]
  unfold remaining
  dsimp only
  rw [queue,List.length_append,List.length_map]
  have split : (run.maxNewTokens+3)*(wave.length+rest.length) =
      (run.maxNewTokens+2)*wave.length+wave.length+(run.maxNewTokens+3)*rest.length := by
    rw [Nat.mul_add,← Nat.succ_mul]
  omega

/- Each turn that goes on, and where it passes on the way. -/
theorem turnPath {s t : LoopState φ} {goesOn : Bool} (ok : TurnOk run s goesOn t) :
    Moves run.maxNewTokens s (freeFinishedRunning s) ∧
    Moves run.maxNewTokens (freeFinishedRunning s) ok.decoded ∧
    Moves run.maxNewTokens ok.decoded (finishAtLimit run.maxNewTokens ok.decoded) ∧
    Moves run.maxNewTokens (finishAtLimit run.maxNewTokens ok.decoded) (settled run ok.decoded) ∧
    Moves run.maxNewTokens (settled run ok.decoded) t ∧
    ((nextWave run (settled run ok.decoded)).1 ≠ [] →
      remaining run.maxNewTokens t < remaining run.maxNewTokens (settled run ok.decoded)) := by
  have queue := nextWaveQueue run (settled run ok.decoded)
  refine ⟨freeFinishedMoves _ _,?_,finishAtLimitMoves _ _,freeFinishedMoves _ _,?_,?_⟩
  · refine decodeGroupsMoves (fun ⟨_,_⟩ inside => ?_) ok.groups
    exact (groupMembers inside).1
  · rcases ok.wave with ⟨none,same⟩ | ⟨some,placed⟩
    · rw [none] at queue
      exact .inl (same.trans
        (congrArg (fun waiting => ({settled run ok.decoded with waiting} : LoopState φ)) queue.symm))
    · exact .inr (waveMoves queue some placed)
  · intro some
    rcases ok.wave with ⟨none,_⟩ | ⟨_,placed⟩
    · exact absurd none some
    · exact waveMoves queue some placed

theorem turnMoves {s t : LoopState φ} {goesOn : Bool} (ok : turn run s = .ok goesOn t) :
    Moves run.maxNewTokens s t := by
  obtain ⟨taken⟩ := turnOk ok
  obtain ⟨freed,decoded,limited,again,waved,_⟩ := turnPath taken
  exact movesTrans freed (movesTrans decoded (movesTrans limited (movesTrans again waved)))

/- Rows run, none of them can be given the block its next token needs, and nobody is let in. -/
structure Stalled (run : ContinuousRun φ) (s : LoopState φ) : Prop where
  busy : entries s ≠ []
  live : ∀ entry ∈ entries s, entry.slot.finished = false
  below : ∀ entry ∈ entries s, entry.slot.decodeStep < run.maxNewTokens
  stops : run.eosTokenIds ≠ []
  starved : ∀ entry ∈ entries s, Starved s.runtime.manager entry.slot
  full : (nextWave run s).1 = []

instance (m : PagedBlockManager) (slot : PagedDecodeSlot) : Decidable (Starved m slot) :=
  inferInstanceAs (Decidable (_ ∧ _))

instance (run : ContinuousRun φ) (s : LoopState φ) : Decidable (Stalled run s) :=
  decidable_of_iff (entries s ≠ [] ∧ (∀ entry ∈ entries s, entry.slot.finished = false) ∧
      (∀ entry ∈ entries s, entry.slot.decodeStep < run.maxNewTokens) ∧ run.eosTokenIds ≠ [] ∧
      (∀ entry ∈ entries s, Starved s.runtime.manager entry.slot) ∧ (nextWave run s).1 = [])
    ⟨fun ⟨busy,live,below,stops,starved,full⟩ => ⟨busy,live,below,stops,starved,full⟩,
      fun stalled => ⟨stalled.busy,stalled.live,stalled.below,stalled.stops,stalled.starved,stalled.full⟩⟩

theorem entriesSlot {s : LoopState φ} {entry : RunningSlot} (inside : entry ∈ entries s) :
    ∃ slotIdx, slotAt s.running slotIdx = some entry.slot := by
  obtain ⟨e,there,same⟩ := List.mem_filterMap.mp inside
  obtain ⟨slotIdx,found⟩ := List.mem_iff_getElem?.mp there
  cases same
  exact ⟨slotIdx,slotAtSome.mpr ⟨entry,found,rfl⟩⟩

theorem slotEntries {s : LoopState φ} {slotIdx : Nat} {slot : PagedDecodeSlot}
    (found : slotAt s.running slotIdx = some slot) : ∃ entry ∈ entries s, entry.slot = slot := by
  obtain ⟨entry,there,same⟩ := slotAtSome.mp found
  exact ⟨entry,List.mem_filterMap.mpr ⟨_,List.mem_of_getElem? there,rfl⟩,same⟩

theorem anyRunning {s : LoopState φ} : s.running.any Option.isSome = false ↔ entries s = [] := by
  unfold entries
  induction s.running with
  | nil => simp
  | cons entry running ih => cases entry <;> simp_all

theorem groupsFixed {groups : List (Nat × List Nat)} {s : LoopState φ}
    (once : ∀ group ∈ groups, group.2.Nodup) (ok : decodeGroups run groups s = .ok () s) :
    ∀ group ∈ groups, decodeGroup run group s = .ok () s := by
  induction groups with
  | nil => simp
  | cons group groups ih =>
    obtain ⟨_,u,first,rest⟩ := bindOk.mp ok
    have later := fun group inside => once group (List.mem_cons_of_mem _ inside)
    have same := movesFixed (decodeGroupMoves (once _ List.mem_cons_self) first) (decodeGroupsMoves later rest)
    subst same
    intro other inside
    rcases List.mem_cons.mp inside with rfl | inside
    · exact first
    · exact ih later rest other inside

theorem groupFixed {group : Nat × List Nat} {s : LoopState φ} (once : group.2.Nodup)
    (ok : decodeGroup run group s = .ok () s) {slotIdx : Nat} (inside : slotIdx ∈ group.2)
    {slot : PagedDecodeSlot} (found : slotAt s.running slotIdx = some slot)
    (here : atStep group.1 slot = true) :
    group.1 < run.maxNewTokens ∧ run.eosTokenIds ≠ [] ∧ Starved s.runtime.manager slot := by
  obtain ⟨g⟩ := groupOk ok
  rcases decodedMoves g.decoded with ⟨_,_,starved⟩ | ⟨each,different⟩
  · obtain ⟨slot',member,read⟩ := pairedMem g.read inside
    have same := Option.some.inj (read.symm.trans found)
    exact starved slot (same ▸ member) here
  · exact absurd (groupSame g once each.length_eq rfl) different

theorem fixedStalled {s : LoopState φ} (fixed : turn run s = .ok true s) : Stalled run s := by
  obtain ⟨taken⟩ := turnOk fixed
  obtain ⟨freed,decoded,limited,again,waved,admits⟩ := turnPath taken
  have atFreed := movesFixed freed (movesTrans decoded (movesTrans limited (movesTrans again waved)))
  have atDecoded := movesFixed (movesTrans freed decoded) (movesTrans limited (movesTrans again waved))
  have atSettled := movesFixed (movesTrans freed (movesTrans decoded (movesTrans limited again))) waved
  have full : (nextWave run s).1 = [] := by
    rw [atSettled] at admits
    rcases Classical.em ((nextWave run s).1 = []) with none | some
    · exact none
    · exact absurd (admits some) (Nat.lt_irrefl _)
  have live : ∀ entry ∈ entries s, done entry = false :=
    filterKeeps.mp (congrArg LoopState.running atFreed)
  have groups := taken.groups
  rw [atFreed,atDecoded] at groups
  have each := groupsFixed (fun ⟨_,_⟩ inside => (groupMembers inside).1) groups
  have starving (entry : RunningSlot) (inside : entry ∈ entries s) :
      entry.slot.decodeStep < run.maxNewTokens ∧ run.eosTokenIds ≠ [] ∧ Starved s.runtime.manager entry.slot := by
    obtain ⟨slotIdx,found⟩ := entriesSlot inside
    have alive : entry.slot.finished = false := live entry inside
    obtain ⟨slotIndices,group,member⟩ := groupCovers found alive
    exact groupFixed (groupMembers group).1 (each _ group) member found (by simp [atStep,alive])
  have busy : entries s ≠ [] := fun none => by
    refine (taken.stays rfl).2 ⟨by rw [atSettled]; exact full,?_,anyRunning.mpr none⟩
    rw [atFreed]
    refine List.eq_nil_iff_forall_not_mem.mpr fun p inside => ?_
    obtain ⟨slot,found,_⟩ := activeStepsMem.mp (show (p.1,p.2) ∈ activeSteps s.running from inside)
    obtain ⟨entry,inside,_⟩ := slotEntries found
    rw [none] at inside
    cases inside
  obtain ⟨entry,inside⟩ := List.exists_mem_of_ne_nil _ busy
  exact ⟨busy,live,fun entry inside => (starving entry inside).1,(starving entry inside).2.1,
    fun entry inside => (starving entry inside).2.2,full⟩

theorem allocateStarved {step : Nat} {slot : PagedDecodeSlot} {m : PagedBlockManager}
    (here : atStep step slot = true) (starved : Starved m slot) : allocateNext step slot m = .ok false m := by
  obtain ⟨fits,refused⟩ := starved
  unfold tokensWanted at fits
  unfold allocateNext
  rw [if_pos here]
  refine bindOk.mpr ⟨tokensWanted slot,m,attemptOk.mpr ⟨?_,rfl⟩,(refusedIff _ _ _).mpr refused⟩
  simp only [okOrOk,Option.bind_eq_some_iff,checkedAddSome]
  exact ⟨_,⟨by omega,rfl⟩,fits,rfl⟩

theorem starvedChain {step : Nat} {slots : List PagedDecodeSlot} {m : PagedBlockManager}
    (here : ∀ slot ∈ slots, atStep step slot = true) (starved : ∀ slot ∈ slots, Starved m slot) :
    Chain (allocateNext step) slots m (slots.map fun _ => false) m := by
  induction slots with
  | nil => exact .nil m
  | cons slot slots ih =>
    exact .cons (allocateStarved (here _ List.mem_cons_self) (starved _ List.mem_cons_self))
      (ih (fun other inside => here other (List.mem_cons_of_mem _ inside))
        fun other inside => starved other (List.mem_cons_of_mem _ inside))

theorem starvedSlots {thinker : Thinker φ} {slots : List PagedDecodeSlot} {step maxNewTokens : Nat}
    {eosTokenIds : List Nat} {r : PagedCacheRuntime φ} (below : step < maxNewTokens) (stops : eosTokenIds ≠ [])
    (here : ∀ slot ∈ slots, atStep step slot = true) (starved : ∀ slot ∈ slots, Starved r.manager slot) :
    pagedBatchDecodeSlotsAtStep thinker slots step maxNewTokens eosTokenIds r = .ok slots r := by
  unfold pagedBatchDecodeSlotsAtStep
  split
  · rfl
  split
  · omega
  split
  · rfl
  refine bindOk.mpr ⟨_,r,managerMutOk.mpr ⟨_,mapMChain.mpr (starvedChain here starved),rfl⟩,?_⟩
  split
  · rfl
  · rename_i served
    simp at served

theorem groupSlots {running : List (Option RunningSlot)} {step : Nat} {slotIndices : List Nat}
    (members : ∀ slotIdx ∈ slotIndices, ∃ slot, slotAt running slotIdx = some slot ∧ atStep step slot = true) :
    ∃ slots, List.Forall₂ (fun slotIdx slot => slotAt running slotIdx = some slot) slotIndices slots ∧
      ∀ slot ∈ slots, atStep step slot = true := by
  induction slotIndices with
  | nil => exact ⟨[],.nil,by simp⟩
  | cons slotIdx slotIndices ih =>
    obtain ⟨slot,found,here⟩ := members _ List.mem_cons_self
    obtain ⟨slots,reads,others⟩ := ih fun other inside => members other (List.mem_cons_of_mem _ inside)
    refine ⟨slot::slots,.cons found reads,fun other inside => ?_⟩
    rcases List.mem_cons.mp inside with rfl | inside
    · exact here
    · exact others other inside

theorem readEntries {s : LoopState φ} {slotIndices : List Nat} {slots : List PagedDecodeSlot}
    (reads : List.Forall₂ (fun slotIdx slot => slotAt s.running slotIdx = some slot) slotIndices slots) :
    ∀ slot ∈ slots, ∃ entry ∈ entries s, entry.slot = slot := by
  intro slot inside
  obtain ⟨_,_,found⟩ := pairedSource reads inside
  exact slotEntries found

theorem scatterSame {running : List (Option RunningSlot)} {slotIndices : List Nat} {slots : List PagedDecodeSlot}
    (once : slotIndices.Nodup)
    (reads : List.Forall₂ (fun slotIdx slot => slotAt running slotIdx = some slot) slotIndices slots) :
    scatter writeSlot running (slotIndices.zip slots) = running := by
  have each : List.Forall₂ (· = ·) running (scatter writeSlot running (slotIndices.zip slots)) := by
    refine scatterRelated (P := fun entry slot => entry.map RunningSlot.slot = some slot) once ?_
      (List.forall₂_same.mpr fun slot _ => rfl) ?_ fun _ => rfl
    · refine reads.imp fun slotIdx slot found => ?_
      obtain ⟨entry,here,rfl⟩ := slotAtSome.mp found
      exact ⟨some entry,here,rfl⟩
    · rintro entry slot _ here rfl
      obtain ⟨entry,rfl,rfl⟩ := Option.map_eq_some_iff.mp here
      rfl
  rw [List.forall₂_eq_eq_eq] at each
  exact each.symm

theorem starvedDecode {group : Nat × List Nat} {s : LoopState φ} (stalled : Stalled run s)
    (inside : group ∈ groupsOf s) : decodeGroup run group s = .ok () s := by
  obtain ⟨step,slotIndices⟩ := group
  obtain ⟨once,nonempty,members⟩ := groupMembers inside
  obtain ⟨slots,reads,here⟩ := groupSlots members
  have known := readEntries reads
  have below : step < run.maxNewTokens := by
    obtain ⟨slotIdx,inside⟩ := List.exists_mem_of_ne_nil _ nonempty
    obtain ⟨slot,found,here⟩ := members slotIdx inside
    obtain ⟨entry,inside,rfl⟩ := slotEntries found
    rw [← (atStepLive here).2]
    exact stalled.below entry inside
  have starved : ∀ slot ∈ slots, Starved s.runtime.manager slot := fun slot inside => by
    obtain ⟨entry,there,rfl⟩ := known slot inside
    exact stalled.starved entry there
  have gathered : slotIndices.mapM (fun slotIdx =>
      okOr (slotAt s.running slotIdx) s!"missing running slot {slotIdx}") = .ok slots :=
    exceptMapM.mpr (reads.imp fun _ _ found => okOrOk.mpr found)
  unfold decodeGroup
  refine bindOk.mpr ⟨s,s,rfl,bindOk.mpr ⟨slots,s,attemptOk.mpr ⟨gathered,rfl⟩,?_⟩⟩
  refine bindOk.mpr ⟨slots,s,zoomOk.mpr ⟨_,starvedSlots below stalled.stops here starved,rfl⟩,?_⟩
  rw [modifyRun,scatterSame once reads]

theorem limitIdle {s : LoopState φ} (below : ∀ entry ∈ entries s, entry.slot.decodeStep < run.maxNewTokens) :
    finishAtLimit run.maxNewTokens s = s := by
  have kept : s.running.map (Option.map (limitEntry run.maxNewTokens)) = s.running := by
    refine (List.map_congr_left fun entry inside => ?_).trans (List.map_id _)
    cases entry with
    | none => rfl
    | some entry =>
      have under := below entry (List.mem_filterMap.mpr ⟨_,inside,rfl⟩)
      simp only [Option.map_some,limitEntry]
      rw [if_neg (by simp [under])]
      rfl
  exact congrArg (fun running => ({s with running} : LoopState φ)) kept

theorem stalledFixed {s : LoopState φ} (stalled : Stalled run s) : turn run s = .ok true s := by
  have freed : freeFinishedRunning s = s := freeFinishedIdle stalled.live
  have groups : decodeGroups run (groupsOf s) s = .ok () s := by
    have each : ∀ group ∈ groupsOf s, decodeGroup run group s = .ok () s := fun group => starvedDecode stalled
    generalize groupsOf s = groups at each
    induction groups with
    | nil => rfl
    | cons group groups ih =>
      exact bindOk.mpr ⟨_,s,each _ List.mem_cons_self,
        ih fun other inside => each other (List.mem_cons_of_mem _ inside)⟩
  have limited : finishAtLimit run.maxNewTokens s = s := limitIdle stalled.below
  have queue := nextWaveQueue run s
  rw [stalled.full,List.map_nil,List.nil_append] at queue
  have running : s.running.any Option.isSome = true := by
    rw [← Bool.not_eq_false,anyRunning]
    exact stalled.busy
  unfold turn
  refine bindOk.mpr ⟨(),s,by rw [modifyRun,freed],bindOk.mpr ⟨s,s,rfl,bindOk.mpr ⟨(),s,groups,?_⟩⟩⟩
  refine bindOk.mpr ⟨(),s,by rw [modifyRun,limited],bindOk.mpr ⟨(),s,by rw [modifyRun,freed],?_⟩⟩
  refine bindOk.mpr ⟨s,s,rfl,bindOk.mpr ⟨(),s,?_,bindOk.mpr ⟨(),s,?_,bindOk.mpr ⟨s,s,rfl,?_⟩⟩⟩⟩
  · rw [modifyRun,← queue]
  · unfold admitNext
    rw [if_pos stalled.full]
    rfl
  · rw [if_neg (by simp [running]),if_neg (by simp [running])]
    rfl

theorem bodyFixedIff {s : LoopState φ} : body run s = .next s ↔ Stalled run s :=
  bodyNext.trans ⟨fixedStalled,stalledFixed⟩

def Terminates (run : ContinuousRun φ) (nextRequestId : Nat) (runtime : PagedCacheRuntime φ) : Prop :=
  ∃ fuel result, runContinuousPrepared run nextRequestId runtime fuel = some result

theorem terminatesLoop {nextRequestId : Nat} {runtime : PagedCacheRuntime φ} {s : LoopState φ}
    (entered : enter run nextRequestId runtime = .loop s) :
    Terminates run nextRequestId runtime ↔ Halts (body run) s := by
  unfold Terminates runContinuousPrepared
  rw [entered]
  constructor
  · rintro ⟨fuel,result,ok⟩
    obtain ⟨out,done,_⟩ := Option.map_eq_some_iff.mp ok
    exact ⟨fuel,out,done⟩
  · rintro ⟨fuel,out,done⟩
    exact ⟨fuel,_,Option.map_eq_some_iff.mpr ⟨out,done,rfl⟩⟩

/-- The call returns exactly when its loop reaches no stalled state. -/
theorem terminatesIffNeverStalled (run : ContinuousRun φ) (nextRequestId : Nat) (runtime : PagedCacheRuntime φ) :
    Terminates run nextRequestId runtime ↔
      ∀ s t, enter run nextRequestId runtime = .loop s → Reaches (body run) s t → ¬ Stalled run t := by
  cases entered : enter run nextRequestId runtime with
  | returned result =>
    refine ⟨fun _ s t same => (by cases same),fun _ => ⟨0,result,?_⟩⟩
    unfold runContinuousPrepared
    rw [entered]
  | loop s =>
    rw [terminatesLoop entered,haltsIffMoves (remaining run.maxNewTokens)
      (fun s t next => turnMoves (bodyNext.mp next))]
    constructor
    · rintro never _ t ⟨⟩ reached stalled
      exact never t reached (bodyFixedIff.mpr stalled)
    · exact fun never t reached fixed => never s t rfl reached (bodyFixedIff.mp fixed)

/- One row of eight tokens in a pool of two blocks, and a model that never ends. -/
def loneRow : ContinuousRun Unit where
  maxNumSeqs := 1
  thinker := ⟨9,false,fun _ _ => .ok fun _ _ => 5⟩
  prepared := [⟨List.replicate 8 7,List.replicate 8 1⟩]
  audioFeatures := []
  maxNewTokens := 9
  eosTokenIds := [2]
  padId := 0

def twoBlocks : PagedCacheRuntime Unit := ⟨⟨8,3,24,false⟩,new 3 8,[]⟩

/-- The row is admitted, fills its second block, and then neither finishes nor fails. -/
theorem loneRowNeverReturns : newRuntime 3 8 false = .ok twoBlocks ∧ loneRow.prepared ≠ [] ∧
    (∀ row ∈ loneRow.prepared, 0 < preparedPromptLen row) ∧ 1 ≤ loneRow.maxNumSeqs ∧
    ¬ Terminates loneRow 0 twoBlocks := by
  refine ⟨rfl,by decide,by decide,by decide,fun returns => ?_⟩
  have entered : enter loneRow 0 twoBlocks = .loop (initial loneRow 0 twoBlocks) := rfl
  have stuck : (steps (body loneRow) 9 (initial loneRow 0 twoBlocks)).any
      (fun t => decide (Stalled loneRow t)) = true := by decide +kernel
  obtain ⟨t,taken,stalled⟩ := (Option.any_eq_true _ _).mp stuck
  have halts := haltsLater (stepsReach taken) ((terminatesLoop entered).mp returns)
  exact fixedNeverHalts (bodyFixedIff.mpr (of_decide_eq_true stalled)) halts

end Qwen3Asr.SchedulerProgress
