import Qwen3Asr.CallSlots
import Qwen3Asr.SchedulerConservation
import Qwen3Asr.SchedulerPositions

/-! Every read of the paged cache in a run of the scheduler finds the reader's own tokens, while blocks
change hands between requests. -/
namespace Qwen3Asr.SchedulerWrites
open Library.Holding Library.Effect Library.Word Library.Loop
open BlockManager PagedMetadata PromptPositions BatchEngine DecodeOutcome PrefillOutcome CallHistory SlotFate BlockOwnership
open CacheWriters CallSlots Scheduler SchedulerTurn SchedulerRules SchedulerConservation SchedulerPositions

variable {φ : Type}

structure Stored (r : PagedCacheRuntime φ) (slot : PagedDecodeSlot) : Prop where
  lengths : slot.promptLenI64 = slot.promptLenUsize
  step : slot.decodeStep = slot.generated.length
  fed : tokensFed slot.requestId r.history = slot.promptLenUsize+slot.generated.length
  written : Written r.manager r.cache.blockSize r.history slot.requestId (slot.promptLenUsize+slot.generated.length)

theorem storedGrows {r t : PagedCacheRuntime φ} {slot : PagedDecodeSlot} (calls : t.history = r.history)
    (cache : t.cache = r.cache) (grows : table r.manager slot.requestId <+: table t.manager slot.requestId)
    (stored : Stored r slot) : Stored t slot where
  lengths := stored.lengths
  step := stored.step
  fed := calls ▸ stored.fed
  written := by
    rw [calls,cache]
    exact writtenGrows grows stored.written

theorem storedAside {r t : PagedCacheRuntime φ} {slot : PagedDecodeSlot} {call : ForwardCall φ} {m : PagedBlockManager}
    {numBlocks : Nat} {l : Blocks numBlocks} (calls : t.history = call::r.history) (cache : t.cache = r.cache)
    (represents : Represents l m) (size : 0 < r.cache.blockSize) (placed : CallPlaced m r.cache.blockSize call)
    (out : slot.requestId ∉ call.requestIds) (before : table r.manager slot.requestId <+: table m slot.requestId)
    (after : table m slot.requestId <+: table t.manager slot.requestId) (stored : Stored r slot) : Stored t slot where
  lengths := stored.lengths
  step := stored.step
  fed := by
    rw [calls,tokensFed,if_neg out]
    exact stored.fed
  written := by
    rw [calls,cache]
    refine writtenGrows after (writtenCall represents size placed fun p less => ?_)
    obtain ⟨s,there,last⟩ := stored.written p less
    exact .inr ⟨s,placedGrows before there,last⟩

section Decode

structure DecodeCall (slots : List PagedDecodeSlot) (step : Nat) (r t : PagedCacheRuntime φ) (call : ForwardCall φ) : Prop where
  calls : t.history = call::r.history
  cache : t.cache = r.cache
  decodes : call.metadata.queryLens = none
  once : call.requestIds.Nodup
  placed : CallPlaced t.manager r.cache.blockSize call
  rows : ∀ (i requestId : Nat), call.requestIds[i]? = some requestId → ∃ slot ∈ slots, slot.requestId = requestId ∧
    call.metadata.contextLens[i]? = some (slot.promptLenUsize+step+1) ∧
    table r.manager requestId <+: table t.manager requestId

variable {thinker : Thinker φ} {eosTokenIds : List Nat} {maxNewTokens step : Nat} {slots slots' : List PagedDecodeSlot}
  {r t : PagedCacheRuntime φ} {call : ForwardCall φ}

theorem activeRow {pairs : List (PagedDecodeSlot × Bool)} (here : ∀ p ∈ pairs, atStep step p.1 = true) {row : PagedBatchRow}
    (inside : row ∈ flagged (pairs.map (takeSlotToken eosTokenIds))) : ∃ p ∈ pairs, p.2 = true ∧
      eosTokenIds.contains p.1.nextId = false ∧
      row = {p.1.toPagedBatchRow with generated := p.1.generated ++ [p.1.nextId]} := by
  obtain ⟨q,kept,rfl⟩ := List.mem_map.mp inside
  obtain ⟨taken,active⟩ := List.mem_filter.mp kept
  obtain ⟨⟨slot,granted⟩,member,rfl⟩ := List.mem_map.mp taken
  cases granted with
  | false => cases active
  | true =>
    rcases takenServed eosTokenIds (atStepLive (here _ member)).1 with ⟨_,same⟩ | ⟨goes,same⟩
    · rw [same] at active
      cases active
    · exact ⟨_,member,rfl,goes,by rw [same]⟩

theorem decodedCall (decoded : Decoded thinker slots step maxNewTokens eosTokenIds r slots' t)
    (here : ∀ slot ∈ slots, atStep step slot = true) (once : (slots.map (·.requestId)).Nodup) :
    t.cache = r.cache ∧ (t.history = r.history ∨ ∃ call, DecodeCall slots step r t call) := by
  cases decoded with
  | idle _ => exact ⟨rfl,.inl rfl⟩
  | limit _ => exact ⟨rfl,.inl rfl⟩
  | refused _ _ _ _ _ _ => exact ⟨rfl,.inl rfl⟩
  | ended _ _ _ _ _ _ => exact ⟨rfl,.inl rfl⟩
  | forwarded granted m blockTables call logits below asked nonempty read forward =>
    have ids := pairIds asked once
    have active : ((flagged ((slots.zip granted).map (takeSlotToken eosTokenIds))).map
        PagedBatchRow.requestId).Nodup := by
      have sublist : List.Sublist _ (((slots.zip granted).map (takeSlotToken eosTokenIds)).map (·.1.requestId)) :=
        flaggedIds
      rw [takenIds] at sublist
      exact sublist.nodup ids
    refine ⟨rfl,.inr ⟨call,rfl,rfl,decodeQueryLens forward.metadata,forward.ids ▸ active,
      forwardedPlaced forward active read,fun i requestId found => ?_⟩⟩
    rw [forward.ids,List.getElem?_map,Option.map_eq_some_iff] at found
    obtain ⟨row,atRow,rfl⟩ := found
    obtain ⟨p,inside,given,goes,rfl⟩ := activeRow (fun p inside => here _ (List.of_mem_zip inside).1)
      (List.mem_of_getElem? atRow)
    refine ⟨p.1,(List.of_mem_zip inside).1,rfl,?_,?_⟩
    · rw [decodeContexts forward,List.getElem?_map,atRow]
      rfl
    · exact trimKeeps asked fun q there given same => by
        cases idOnce ids there inside same
        exact goes

theorem decodeWriter (decodes : call.metadata.queryLens = none) {w : Writer} :
    w ∈ writers call ↔ ∃ (i contextLen : Nat), call.requestIds[i]? = some w.requestId ∧
      call.metadata.contextLens[i]? = some contextLen ∧ w.position = contextLen-1 := by
  rw [writers,decodes]
  dsimp only
  rw [List.mem_map]
  constructor
  · rintro ⟨⟨k,contextLen⟩,inside,rfl⟩
    obtain ⟨i,found⟩ := List.mem_iff_getElem?.mp inside
    obtain ⟨left,right⟩ := List.getElem?_zip_eq_some.mp found
    exact ⟨i,contextLen,left,right,rfl⟩
  · rintro ⟨i,contextLen,left,right,same⟩
    exact ⟨(w.requestId,contextLen),List.mem_of_getElem? (List.getElem?_zip_eq_some.mpr ⟨left,right⟩),by rw [← same]⟩

/- The row of a stored slot: behind the call its next token is stored as well. -/
theorem decodeStored (made : DecodeCall slots step r t call) {numBlocks : Nat} {l : Blocks numBlocks}
    (represents : Represents l t.manager) (size : 0 < r.cache.blockSize)
    {i : Nat} {slot : PagedDecodeSlot} (found : call.requestIds[i]? = some slot.requestId)
    (context : call.metadata.contextLens[i]? = some (slot.promptLenUsize+step+1))
    (grows : table r.manager slot.requestId <+: table t.manager slot.requestId)
    (here : slot.decodeStep = step) (stored : Stored r slot) :
    tokensFed slot.requestId t.history = slot.promptLenUsize+slot.generated.length+1 ∧
    Written t.manager r.cache.blockSize t.history slot.requestId (slot.promptLenUsize+slot.generated.length+1) := by
  have count := stored.step
  constructor
  · rw [made.calls,tokensFed,if_pos (List.mem_of_getElem? found),made.decodes]
    exact congrArg (·+1) stored.fed
  · rw [made.calls]
    refine writtenCall represents size made.placed fun p less => ?_
    rcases Nat.lt_or_ge p (slot.promptLenUsize+slot.generated.length) with before | last
    · obtain ⟨s,there,last⟩ := stored.written p before
      exact .inr ⟨s,placedGrows grows there,last⟩
    · refine .inl ((decodeWriter made.decodes).mpr ⟨i,_,found,context,?_⟩)
      dsimp only
      omega

theorem decodeSound (made : DecodeCall slots step r t call) {numBlocks : Nat} {l : Blocks numBlocks}
    (represents : Represents l t.manager) (size : 0 < r.cache.blockSize)
    (stored : ∀ slot ∈ slots, slot.decodeStep = step ∧ Stored r slot) :
    CallSound r.cache.blockSize r.history call where
  once := made.once
  slots := placedSlots represents size made.placed
  counted := made.placed.each.length_eq
  fresh prefills := by
    rw [made.decodes] at prefills
    cases prefills
  rows i requestId found := by
    obtain ⟨slot,inside,rfl,context,grows⟩ := made.rows i requestId found
    obtain ⟨here,own⟩ := stored slot inside
    obtain ⟨fed,written⟩ := decodeStored made represents size found context grows here own
    have count := own.step
    rw [made.calls] at fed written
    obtain ⟨pad,same⟩ := made.placed.tables i slot.requestId found
    refine ⟨by rw [fed,context,← here,count],?_,?_⟩
    all_goals rw [fed]
    · exact writtenCovers same written
    · exact writtenReads same written

end Decode

section Prefill
variable {thinker : Thinker φ} {inputIds attentionMask : List (List Nat)} {audioFeatures : Option (List φ)}
  {config : PagedBatchConfig} {r t : PagedCacheRuntime φ} {state : PagedBatchState}

variable {numBlocks : Nat} {l : Blocks numBlocks}

theorem prefillWritten (p : PrefillOk thinker inputIds attentionMask audioFeatures config r state t)
    (represents : Represents l p.m) (size : 0 < r.cache.blockSize) {i requestId len : Nat}
    (found : p.prefilled.call.requestIds[i]? = some requestId) (counted : (p.rows.map PromptRow.len)[i]? = some len) :
    tokensFed requestId (p.prefilled.call::r.history) = len ∧
    Written p.m r.cache.blockSize (p.prefilled.call::r.history) requestId len := by
  obtain ⟨_,_,lens,_⟩ := prefilledRow p
  constructor
  · rw [tokensFed,if_pos (List.mem_of_getElem? found),lens,idxOfGet (prefillIds p) found]
    dsimp only
    rw [List.getD_eq_getElem?_getD,counted]
    rfl
  · refine writtenCall represents size (prefillPlaced p) fun position less => .inl ((promptWriter lens).mpr ⟨len,?_,less⟩)
    exact List.mem_of_getElem? (List.getElem?_zip_eq_some.mpr ⟨found,counted⟩)

theorem prefillSound (p : PrefillOk thinker inputIds attentionMask audioFeatures config r state t)
    (represents : Represents l p.m) (size : 0 < r.cache.blockSize)
    (issued : ∀ call ∈ r.history, ∀ k ∈ call.requestIds, k < config.requestIdBase) :
    CallSound r.cache.blockSize r.history p.prefilled.call where
  once := prefillIds p
  slots := placedSlots represents size (prefillPlaced p)
  counted := (prefillPlaced p).each.length_eq
  fresh _ k inside past older there := by
    rw [(prefilledRow p).2.1] at inside
    obtain ⟨i,_,rfl⟩ := List.mem_map.mp inside
    have := issued past older _ there
    omega
  rows i requestId found := by
    have counted : p.prefilled.call.requestIds.length = (p.rows.map PromptRow.len).length := by
      rw [(prefilledRow p).2.1,List.length_map,List.length_range,List.length_map,(promptRowsOk p.checked).1]
    have bound : i < (p.rows.map PromptRow.len).length := counted ▸ (List.getElem?_eq_some_iff.mp found).1
    obtain ⟨fed,written⟩ := prefillWritten p represents size found (List.getElem?_eq_getElem bound)
    obtain ⟨pad,same⟩ := (prefillPlaced p).tables i requestId found
    refine ⟨by rw [fed,(prefillSlots p).contexts,List.getElem?_eq_getElem bound],?_,?_⟩
    all_goals rw [fed]
    · exact writtenCovers same written
    · exact writtenReads same written

theorem allocatedGrows {rows : List PromptRow} {m u : PagedBlockManager} {requestIds : List Nat}
    (ok : allocatePrompts config rows m = .ok requestIds u) (j : Nat) : table m j <+: table u j :=
  chainGrows (fun _ _ _ _ ok => by
    obtain ⟨_,_,ok,last⟩ := bindOk.mp ok
    cases last
    exact allocateGrows ok) (mapMChain.mp ok) j

theorem prefillCache (p : PrefillOk thinker inputIds attentionMask audioFeatures config r state t) : t.cache = r.cache := by
  have same := congrArg PagedCacheRuntime.cache p.runtime
  exact same

/- The trim behind a prefill takes blocks from rows that end. -/
theorem prefillKeeps (p : PrefillOk thinker inputIds attentionMask audioFeatures config r state t) {j : Nat}
    (stays : ∀ k row, state.rows[k]? = some row → config.requestIdBase+k = j → config.eosTokenIds.contains row.nextId = false) :
    table p.m j <+: table t.manager j := by
  have manager : t.manager = trimEnded config.eosTokenIds state.rows p.m := congrArg PagedCacheRuntime.manager p.runtime
  rw [manager,tableTrimEnded fun row inside same => ?_]
  obtain ⟨k,found⟩ := List.mem_iff_getElem?.mp inside
  obtain ⟨_,_,_,made⟩ := (prefilledRow p).2.2.2 k row found
  refine stays k row found ?_
  rw [← same,made]

theorem prefillStored (p : PrefillOk thinker inputIds attentionMask audioFeatures config r state t)
    (represents : Represents l p.m) (size : 0 < r.cache.blockSize) {k : Nat} {row : PagedBatchRow}
    (found : state.rows[k]? = some row) (live : row.finished = false) : Stored t (prefillSlot row) := by
  obtain ⟨counted,called,_,each⟩ := prefilledRow p
  obtain ⟨prompt,_,there,made⟩ := each k row found
  have bound : k < inputIds.length := counted ▸ (List.getElem?_eq_some_iff.mp found).1
  have id : row.requestId = config.requestIdBase+k := by rw [made]
  have len : row.promptLenUsize = prompt.len := by rw [made]
  have lengths : row.promptLenI64 = row.promptLenUsize := by rw [made]
  have goes : config.eosTokenIds.contains row.nextId = false := by
    rw [made] at live ⊢
    exact live
  have listed : p.prefilled.call.requestIds[k]? = some row.requestId := by
    rw [called,id]
    simp [bound]
  obtain ⟨fed,written⟩ := prefillWritten p represents size listed (by rw [List.getElem?_map,there]; rfl)
  have calls : t.history = p.prefilled.call::r.history := congrArg PagedCacheRuntime.history p.runtime
  rw [← calls,← len] at fed written
  refine ⟨lengths,rfl,fed,?_⟩
  rw [prefillCache p]
  refine writtenGrows (prefillKeeps p fun k' row' found' same => ?_) written
  obtain rfl : k' = k := Nat.add_left_cancel (same.trans id)
  rw [found] at found'
  cases found'
  exact goes

end Prefill

section Runs
variable {run : ContinuousRun φ} {numBlocks : Nat} {s t : LoopState φ}

/- Every call so far was sound, and what the unfinished slots have fed is still there. -/
structure Clean (numBlocks : Nat) (s : LoopState φ) : Prop where
  apart : Apart s
  covered : Covered numBlocks s
  size : 0 < s.runtime.cache.blockSize
  stored : ∀ i entry, EntryAt s i entry → entry.slot.finished = false → Stored s.runtime entry.slot
  issued : ∀ call ∈ s.runtime.history, ∀ k ∈ call.requestIds, k < s.nextRequestId
  sound : Sound s.runtime.cache.blockSize s.runtime.history

theorem cleanFree (clean : Clean numBlocks s) : Clean numBlocks (freeFinishedRunning s) where
  apart := apartFree clean.apart
  covered := coveredFree clean.covered
  size := clean.size
  stored i entry found _ := by
    obtain ⟨here,live,untouched⟩ := freedEntry clean.apart found
    exact storedGrows (r := s.runtime) rfl rfl untouched.grows (clean.stored i entry here live)
  issued := clean.issued
  sound := clean.sound

theorem cleanLimit (clean : Clean numBlocks s) : Clean numBlocks (finishAtLimit run.maxNewTokens s) where
  apart := apartLimit clean.apart
  covered := coveredLimit clean.covered
  size := clean.size
  stored i entry found live := by
    obtain ⟨entry,here,rfl⟩ := limitedEntry found
    unfold limitEntry at live ⊢
    split at live
    · cases live
    · rename_i below
      rw [if_neg below]
      exact clean.stored i entry here live
  issued := clean.issued
  sound := clean.sound

theorem groupRuns {group : Nat × List Nat} (ready : GroupReady group s) (g : GroupOk run group s t) {slot : PagedDecodeSlot}
    (inside : slot ∈ g.slots) : ∃ i entry, EntryAt s i entry ∧ entry.slot = slot ∧ atStep group.1 slot = true := by
  obtain ⟨slotIdx,member,read⟩ := pairedSource g.read inside
  obtain ⟨other,there,live⟩ := ready.2 slotIdx member
  rw [there] at read
  cases read
  obtain ⟨entry,here,same⟩ := slotAtSome.mp there
  exact ⟨slotIdx,entry,here,same,live⟩

theorem quietStored {group : Nat × List Nat} (clean : Clean numBlocks s) (ready : GroupReady group s)
    (none_ : NoneSkipped run group s) (ok : decodeGroup run group s = .ok () t)
    (calls : t.runtime.history = s.runtime.history) (cache : t.runtime.cache = s.runtime.cache) {i : Nat} {entry : RunningSlot}
    (found : EntryAt t i entry) (live : entry.slot.finished = false) : Stored t.runtime entry.slot := by
  obtain ⟨entry,here,⟨rfl,untouched⟩ | ⟨slot',rfl,there,fate⟩⟩ := groupEntry clean.apart ready ok found
  · exact storedGrows calls cache untouched.grows (clean.stored i _ here live)
  · have before := clean.stored i entry here (atStepLive there).1
    cases fate with
    | waits untouched => exact storedGrows calls cache untouched.grows before
    | limit _ => cases live
    | ended _ => cases live
    | skipped skips => exact absurd skips none_
    | advanced _ _ _ fed =>
      rw [fed.calls] at calls
      exact absurd calls (List.cons_ne_self _ _)

theorem fedStored {group : Nat × List Nat} {slots : List PagedDecodeSlot} {call : ForwardCall φ} (clean : Clean numBlocks s)
    (ready : GroupReady group s) (none_ : NoneSkipped run group s) (ok : decodeGroup run group s = .ok () t)
    (made : DecodeCall slots group.1 s.runtime t.runtime call)
    (runs : ∀ slot ∈ slots, ∃ i entry, EntryAt s i entry ∧ entry.slot = slot ∧ atStep group.1 slot = true)
    {l : Blocks numBlocks} (represents : Represents l t.runtime.manager) {i : Nat} {entry : RunningSlot}
    (found : EntryAt t i entry) (live : entry.slot.finished = false) : Stored t.runtime entry.slot := by
  have aside {slot : PagedDecodeSlot} (untouched : Untouched slot.requestId s.runtime t.runtime) (stored : Stored s.runtime slot) :
      Stored t.runtime slot := by
    obtain ⟨calls,same,out⟩ := untouched.calls
    rw [made.calls] at same
    obtain rfl : [call] = calls := List.append_cancel_right same
    exact storedAside made.calls made.cache represents clean.size made.placed (out call List.mem_cons_self)
      untouched.grows (List.prefix_refl _) stored
  obtain ⟨entry,here,⟨rfl,untouched⟩ | ⟨slot',rfl,there,fate⟩⟩ := groupEntry clean.apart ready ok found
  · exact aside untouched (clean.stored i _ here live)
  · have before := clean.stored i entry here (atStepLive there).1
    cases fate with
    | waits untouched => exact aside untouched before
    | limit _ => cases live
    | ended _ => cases live
    | skipped skips => exact absurd skips none_
    | advanced nextId _ _ fed =>
      have calls := fed.calls
      rw [made.calls] at calls
      obtain ⟨rfl,_⟩ := List.cons.inj calls
      obtain ⟨n,bound,atIndex⟩ := List.getElem_of_mem fed.listed
      have listed := List.getElem?_eq_some_iff.mpr ⟨bound,atIndex⟩
      obtain ⟨slot,inside,same,context,grows⟩ := made.rows n _ listed
      obtain ⟨j,other,place,rfl,_⟩ := runs slot inside
      obtain rfl := clean.apart.once _ _ _ _ place here same
      cases place.symm.trans here
      obtain ⟨counted,written⟩ := decodeStored made represents clean.size listed context grows (atStepLive there).2 before
      have step := before.step
      refine ⟨before.lengths,by simp [step],by simpa [Nat.add_assoc] using counted,?_⟩
      rw [made.cache]
      simpa [Nat.add_assoc] using written

theorem cleanGroup {group : Nat × List Nat} (clean : Clean numBlocks s) (ready : GroupReady group s)
    (none_ : NoneSkipped run group s) (ok : decodeGroup run group s = .ok () t) : Clean numBlocks t := by
  obtain ⟨g⟩ := groupOk ok
  have runtime : t.runtime = g.runtime := congrArg LoopState.runtime g.same
  have next : t.nextRequestId = s.nextRequestId := by
    have same := congrArg LoopState.nextRequestId g.same
    exact same
  have covered : Covered numBlocks t := by
    have kept := coveredGroup run ready.1 clean.covered
    rw [ok] at kept
    exact kept
  obtain ⟨l,represents⟩ := covered.conserved
  have runs := fun slot (inside : slot ∈ g.slots) => groupRuns ready g inside
  obtain ⟨cache,calls | ⟨call,made⟩⟩ := decodedCall g.decoded
    (fun slot inside => (runs slot inside).choose_spec.choose_spec.2.2) (groupIds g clean.apart ready.1)
  all_goals rw [← runtime] at cache
  · rw [← runtime] at calls
    exact {
      apart := apartGroup clean.apart ready ok, covered
      size := cache ▸ clean.size
      stored := fun i entry found live => quietStored clean ready none_ ok calls cache found live
      issued := by
        rw [calls,next]
        exact clean.issued
      sound := by
        rw [calls,cache]
        exact clean.sound}
  · rw [← runtime] at made
    have stored (slot : PagedDecodeSlot) (inside : slot ∈ g.slots) : slot.decodeStep = group.1 ∧ Stored s.runtime slot := by
      obtain ⟨i,entry,here,rfl,live⟩ := runs slot inside
      exact ⟨(atStepLive live).2,clean.stored i entry here (atStepLive live).1⟩
    exact {
      apart := apartGroup clean.apart ready ok, covered
      size := cache ▸ clean.size
      stored := fun i entry found live => fedStored clean ready none_ ok made runs represents found live
      issued := by
        rw [made.calls,next]
        refine List.forall_mem_cons.mpr ⟨fun k inside => ?_,clean.issued⟩
        obtain ⟨n,bound,rfl⟩ := List.getElem_of_mem inside
        obtain ⟨slot,there,same,_,_⟩ := made.rows n _ (List.getElem?_eq_getElem bound)
        obtain ⟨i,entry,here,rfl,_⟩ := runs slot there
        exact same ▸ clean.apart.fresh i entry here
      sound := by
        rw [made.calls,cache]
        exact ⟨decodeSound made represents clean.size stored,clean.sound⟩}

theorem cleanWave {wave : List (Nat × Nat)} (clean : Clean numBlocks s) (once : (wave.map Prod.snd).Nodup)
    (free : ∀ slotIdx ∈ wave.map Prod.snd, s.running[slotIdx]? = some none) (ok : prefillWave run wave s = .ok () t) :
    Clean numBlocks t := by
  obtain ⟨w⟩ := waveOk ok
  obtain ⟨p⟩ := prefillOk w.prefill
  obtain ⟨_,called,_,_⟩ := prefilledRow p
  have width : w.ids.length = wave.length := by
    rw [(padWaveOk (prefillInputsOk w.inputs).1).1,List.length_map]
  have runtime := waveRuntime w
  have calls := waveHistory w p
  have cache : t.runtime.cache = s.runtime.cache := (congrArg PagedCacheRuntime.cache runtime).trans (prefillCache p)
  have next : t.nextRequestId = s.nextRequestId+wave.length := congrArg LoopState.nextRequestId w.same
  have kept : Owns numBlocks (requestIds s ++ (List.range p.rows.length).map (s.nextRequestId+·)) p.m :=
    withinOk (allocatePromptsStable (ownsStable numBlocks _) fun i bound =>
      List.mem_append_right _ (List.mem_map.mpr ⟨i,List.mem_range.mpr bound,rfl⟩)) p.allocated
      (ownsMono clean.covered fun _ inside => List.mem_append_left _ inside)
  obtain ⟨l,represents⟩ := kept.conserved
  exact {
    apart := apartWave clean.apart w once
    covered := coveredWave once free clean.covered w
    size := cache ▸ clean.size
    stored := fun i entry found live => by
      rcases waveEntry w once found with before | ⟨k,clientIndex,row,place,read,rfl⟩
      · have older := clean.apart.fresh i entry before
        have out : entry.slot.requestId ∉ p.prefilled.call.requestIds := by
          rw [called]
          intro inside
          obtain ⟨n,_,same⟩ := List.mem_map.mp inside
          dsimp only at same
          omega
        have after := prefillKeeps p (j := entry.slot.requestId) fun k row _ same => by
          dsimp only at same
          omega
        exact storedAside calls cache represents clean.size (prefillPlaced p) out (allocatedGrows p.allocated _)
          (after.trans (by rw [runtime]))
          (clean.stored i entry before live)
      · rw [runtime]
        exact prefillStored p represents clean.size read live
    issued := by
      rw [calls,next]
      refine List.forall_mem_cons.mpr ⟨fun k inside => ?_,fun call older k inside => ?_⟩
      · rw [called,width] at inside
        obtain ⟨n,bound,rfl⟩ := List.mem_map.mp inside
        have := List.mem_range.mp bound
        dsimp only
        omega
      · have := clean.issued call older k inside
        omega
    sound := by
      rw [calls,cache]
      exact ⟨prefillSound p represents clean.size clean.issued,clean.sound⟩}

theorem cleanKept (run : ContinuousRun φ) (numBlocks : Nat) : Kept run (NoneSkipped run) (Clean numBlocks) where
  free _ clean := cleanFree clean
  group _ _ _ ready none_ clean ok := cleanGroup clean ready none_ ok
  limit _ clean := cleanLimit clean
  wave _ rest s _ clean _ once free ok := by
    have waits : Clean numBlocks {s with waiting := rest} :=
      ⟨⟨clean.apart.once,clean.apart.fresh⟩,clean.covered,clean.size,clean.stored,clean.issued,clean.sound⟩
    exact cleanWave waits once free ok

theorem cleanInitial (run : ContinuousRun φ) {nextRequestId : Nat} {runtime : PagedCacheRuntime φ}
    (pooled : Pooled numBlocks runtime.manager) (size : 0 < runtime.cache.blockSize)
    (issued : ∀ call ∈ runtime.history, ∀ k ∈ call.requestIds, k < nextRequestId)
    (sound : Sound runtime.cache.blockSize runtime.history) : Clean numBlocks (initial run nextRequestId runtime) where
  apart := apartInitial run nextRequestId runtime
  covered := pooledOwns pooled _
  size := size
  stored _ _ found := absurd found emptyInitial
  issued := issued
  sound := sound

end Runs

/-- While no step skips a slot, every call made reads, through its block tables, the entries last
written for the same tokens of the same requests, though blocks are freed and handed out again. -/
theorem reachedSound (run : ContinuousRun φ) {numBlocks nextRequestId : Nat} {runtime : PagedCacheRuntime φ}
    (pooled : Pooled numBlocks runtime.manager) (size : 0 < runtime.cache.blockSize)
    (issued : ∀ call ∈ runtime.history, ∀ k ∈ call.requestIds, k < nextRequestId)
    (sound : Sound runtime.cache.blockSize runtime.history) {s : LoopState φ}
    (reached : ReachesVia (EveryTurnGroup run (NoneSkipped run)) (body run) (initial run nextRequestId runtime) s) :
    Sound s.runtime.cache.blockSize s.runtime.history ∧
    (∀ call ∈ s.runtime.history, ∀ k ∈ call.requestIds, k < s.nextRequestId) ∧
    ∀ entry ∈ entries s, entry.slot.finished = false → Stored s.runtime entry.slot := by
  have clean := keptReached (cleanKept run numBlocks) reached (cleanInitial run pooled size issued sound)
  refine ⟨clean.sound,clean.issued,fun entry inside live => ?_⟩
  obtain ⟨_,there,same⟩ := List.mem_filterMap.mp inside
  obtain ⟨i,found⟩ := List.mem_iff_getElem?.mp there
  cases same
  exact clean.stored i entry found live

def oneByOne : ContinuousRun Unit where
  maxNumSeqs := 1
  thinker := ⟨9,false,fun older _ => .ok fun _ _ => if older.length%2 = 0 then 5 else 2⟩
  prepared := [⟨[7],[1]⟩,⟨[7],[1]⟩,⟨[7],[1]⟩]
  audioFeatures := []
  maxNewTokens := 4
  eosTokenIds := [2]
  padId := 0

def freshBlocks : PagedCacheRuntime Unit := ⟨⟨8,3,24,false⟩,new 3 8,[]⟩

def Reused (s : LoopState Unit) : Prop :=
  s.runtime.history.head?.map (·.metadata.queryLens) = some none ∧
  lastWriter (s.runtime.history.drop 2) 8 = some ⟨0,0⟩ ∧ lastWriter (s.runtime.history.drop 2) 9 = some ⟨0,1⟩ ∧
  lastWriter s.runtime.history 8 = some ⟨2,0⟩ ∧ lastWriter s.runtime.history 9 = some ⟨2,1⟩

instance (s : LoopState Unit) : Decidable (Reused s) := inferInstanceAs (Decidable (_ ∧ _ ∧ _ ∧ _ ∧ _))

theorem reachedSoundReused : ∃ s,
    ReachesVia (EveryTurnGroup oneByOne (NoneSkipped oneByOne)) (body oneByOne) (initial oneByOne 0 freshBlocks) s ∧
    Reused s ∧ Sound s.runtime.cache.blockSize s.runtime.history := by
  have taken : ((steps (body oneByOne) 6 (initial oneByOne 0 freshBlocks)).any fun s => decide (Reused s)) = true := by
    decide +kernel
  have none_ : ∀ m < 6, (steps (body oneByOne) m (initial oneByOne 0 freshBlocks)).all (fun s => decide
      (EveryTurnGroup oneByOne (NoneSkipped oneByOne) s)) = true := by decide +kernel
  obtain ⟨s,six,written⟩ := (Option.any_eq_true _ _).mp taken
  have reached := stepsVia (P := EveryTurnGroup oneByOne (NoneSkipped oneByOne)) six fun m u less there => by
    have all := none_ m less
    rw [there] at all
    exact of_decide_eq_true all
  have pooled : Pooled 3 freshBlocks.manager := ⟨by decide,List.Perm.refl _,rfl⟩
  exact ⟨s,reached,of_decide_eq_true written,
    (reachedSound oneByOne pooled (by decide) (fun _ inside => by cases inside) (by trivial) reached).1⟩

end Qwen3Asr.SchedulerWrites
