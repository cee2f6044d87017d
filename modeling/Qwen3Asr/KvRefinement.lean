import Mathlib.Algebra.GroupWithZero.Nat
import Mathlib.Data.Option.Basic
import Qwen3Asr.KvStorage

/-! The stored key/value cache against plain concatenation. Whatever updates come and however the
tensors grow, the columns in use of a layer are those that were appended to it; templates and their
copies hold the first columns of the first row. -/
namespace Qwen3Asr.KvRefinement
open Library Library.Effect Library.Backing KvStorage

variable {α β : Type} [Zero α] [Zero β]

section Lookup
variable {cache : KVCache} {layerIdx m : Nat} {entry : KVCacheEntry}

theorem getPadded : (cache.padded layerIdx).get m = cache.get m := by
  unfold KVCache.get KVCache.padded
  exact KvCache.joinPadded cache.entries _ m

theorem getSet : ((cache.padded layerIdx).setEntry layerIdx entry).get m = if m = layerIdx then some entry else cache.get m := by
  split
  · next same =>
    subst same
    unfold KVCache.get KVCache.setEntry KVCache.padded
    dsimp only
    rw [List.getElem?_set_self (by simp; omega)]
    rfl
  · next other =>
    rw [← @getPadded cache layerIdx m]
    unfold KVCache.get KVCache.setEntry
    rw [List.getElem?_set_ne (Ne.symm other)]

end Lookup

section Shows
variable {w w' : World α β} {cache cache' : KvCache.KVCache (α × β)} {layerIdx m : Nat} {block : Grid (α × β)}

/- A cache in a storage shows what was appended to its layers; no two layers share tensors. -/
structure Shows (w : World α β) (cache : KvCache.KVCache (α × β)) : Prop where
  counted : w.cache.seqLen = cache.seqLen
  reserved : w.cache.maxSeqLen = cache.maxSeqLen
  sized : w.cache.entries.length = cache.entries.length
  entries : ∀ m, Option.Rel (EntryShows w.storage w.cache.maxSeqLen) (w.cache.get m) (KvCache.get cache m)
  apart : ∀ m n e e', w.cache.get m = some e → w.cache.get n = some e' → e.backing = e'.backing → m = n

/- Tensors that are not the cache's stay, and the cache gets no others than new ones. -/
structure Moves (w w' : World α β) : Prop where
  longer : w.storage.length ≤ w'.storage.length
  others : ∀ a, a < w.storage.length → (∀ m e, w.cache.get m = some e → e.backing ≠ a) →
    backingAt w'.storage a = backingAt w.storage a
  own : ∀ m e', w'.cache.get m = some e' →
    (∃ e, w.cache.get m = some e ∧ e'.backing = e.backing) ∨ w.storage.length ≤ e'.backing

theorem showsFresh (storage : Storage α β) (numLayers : Nat) (maxSeqLen : Option Nat) :
    Shows ⟨storage,freshCache numLayers maxSeqLen⟩ ⟨List.replicate numLayers none,0,maxSeqLen⟩ := by
  have none_ (m : Nat) : (freshCache numLayers maxSeqLen).get m = none := by
    unfold KVCache.get freshCache
    rw [List.getElem?_replicate]
    split <;> rfl
  have none' (m : Nat) : KvCache.get (⟨List.replicate numLayers none,0,maxSeqLen⟩ : KvCache.KVCache (α × β)) m = none :=
    KvCache.freshNone numLayers m
  refine ⟨rfl,rfl,by simp [freshCache],fun m => ?_,fun m _ e _ found => ?_⟩
  · rw [none_,none']
    exact .none
  · cases (none_ m).symm.trans found

omit [Zero α] [Zero β] in
theorem countColumnsCache (seqLen : Nat) (w : World α β) : countColumns layerIdx seqLen w =
    ⟨w.storage,{w.cache with seqLen := if layerIdx = 0 then seqLen else w.cache.seqLen}⟩ := by
  unfold countColumns
  split <;> rfl

theorem showsAt (shows_ : Shows w cache) {e : KVCacheEntry} (found : w.cache.get m = some e) :
    ∃ abs, KvCache.get cache m = some abs ∧ EntryShows w.storage w.cache.maxSeqLen e abs := by
  have here := shows_.entries m
  rw [found] at here
  generalize seen : KvCache.get cache m = other at here
  cases here with
  | some here => exact ⟨_,rfl,here⟩

theorem showsNone (shows_ : Shows w cache) (found : w.cache.get m = none) : KvCache.get cache m = none := by
  have here := shows_.entries m
  rw [found] at here
  generalize seen : KvCache.get cache m = other at here
  cases here
  rfl

theorem showsSet (shows_ : Shows w cache) {storage : Storage α β} {entry : KVCacheEntry}
    {abs : KvCache.KVCacheEntry (α × β)} (seqLen : Nat) (shown : EntryShows storage w.cache.maxSeqLen entry abs)
    (longer : w.storage.length ≤ storage.length)
    (others : ∀ a, a < w.storage.length → (∀ e, w.cache.get layerIdx = some e → a ≠ e.backing) →
      backingAt storage a = backingAt w.storage a)
    (address : (∃ e, w.cache.get layerIdx = some e ∧ entry.backing = e.backing) ∨ w.storage.length ≤ entry.backing) :
    let stored : World α β := ⟨storage,{(w.cache.padded layerIdx).setEntry layerIdx entry with seqLen}⟩
    Shows stored {cache with
      entries := (cache.entries ++ List.replicate (layerIdx+1-cache.entries.length) none).set layerIdx (some abs), seqLen} ∧
    Moves w stored := by
  intro stored
  have lookup (m : Nat) : stored.cache.get m = if m = layerIdx then some entry else w.cache.get m := getSet
  have stays {m : Nat} {e : KVCacheEntry} (other : m ≠ layerIdx) (found : w.cache.get m = some e)
      (inside : e.backing < w.storage.length) : backingAt storage e.backing = backingAt w.storage e.backing :=
    others e.backing inside fun e' there same => other (shows_.apart m layerIdx e e' found there same)
  have inside {m : Nat} {e : KVCacheEntry} (found : w.cache.get m = some e) : e.backing < w.storage.length := by
    obtain ⟨_,_,here⟩ := showsAt shows_ found
    exact here.stored
  have newApart {m : Nat} {e : KVCacheEntry} (other : m ≠ layerIdx) (found : w.cache.get m = some e) :
      entry.backing ≠ e.backing := by
    intro same
    rcases address with ⟨old,there,kept⟩ | fresh
    · exact other (shows_.apart m layerIdx e old found there (same.symm.trans kept))
    · have bound := inside found
      omega
  refine ⟨⟨rfl,shows_.reserved,by simp [stored,KVCache.setEntry,KVCache.padded,shows_.sized],fun m => ?_,?_⟩,longer,?_,?_⟩
  · rw [lookup,KvCache.getSet]
    split
    · exact .some shown
    · next other =>
      cases found : w.cache.get m with
      | none =>
        rw [showsNone shows_ found]
        exact .none
      | some e =>
        obtain ⟨a,there,here⟩ := showsAt shows_ found
        rw [there]
        exact .some (entryStays here longer (stays other found here.stored))
  · intro m n e e' found found' same
    rw [lookup] at found found'
    split at found <;> split at found'
    · next first second => exact first.trans second.symm
    · next first second =>
      cases found
      exact absurd same (newApart second found')
    · next first second =>
      cases found'
      exact absurd same.symm (newApart first found)
    · exact shows_.apart m n e e' found found' same
  · exact fun a bound apart => others a bound fun e there same => apart layerIdx e there same.symm
  · intro m e' found
    rw [lookup] at found
    split at found
    · next same =>
      cases found
      subst same
      exact address
    · exact .inl ⟨e',found,rfl⟩

structure SameColumns {κ : Type} (cache cache' : KvCache.KVCache κ) : Prop where
  layers : ∀ m, KvCache.get cache' m = KvCache.get cache m
  reserved : cache'.maxSeqLen = cache.maxSeqLen

omit [Zero α] [Zero β] in
theorem abstractPadded (cache : KvCache.KVCache (α × β)) (layerIdx m : Nat) : KvCache.get {cache with
    entries := cache.entries ++ List.replicate (layerIdx+1-cache.entries.length) none} m = KvCache.get cache m := by
  unfold KvCache.get
  exact KvCache.joinPadded cache.entries _ m

theorem showsPadded (shows_ : Shows w cache) : Shows ⟨w.storage,w.cache.padded layerIdx⟩
    {cache with entries := cache.entries ++ List.replicate (layerIdx+1-cache.entries.length) none} := by
  have lookup (m : Nat) : (w.cache.padded layerIdx).get m = w.cache.get m := getPadded
  refine ⟨shows_.counted,shows_.reserved,by simp [KVCache.padded,shows_.sized],fun m => ?_,fun m n e e' found found' => ?_⟩
  · rw [lookup,abstractPadded]
    exact shows_.entries m
  · exact shows_.apart m n e e' ((lookup m).symm.trans found) ((lookup n).symm.trans found')

theorem movesPadded (w : World α β) : Moves w ⟨w.storage,w.cache.padded layerIdx⟩ :=
  ⟨Nat.le_refl _,fun _ _ _ => rfl,fun m e' found => .inl ⟨e',(@getPadded w.cache layerIdx m).symm.trans found,rfl⟩⟩

theorem updateFirst (shows_ : Shows w cache) (found : w.cache.get layerIdx = none) (block : Grid (α × β)) :
    match KvCache.newEntry block w.cache.maxSeqLen with
    | .ok abs => ∃ w', update layerIdx (block.map Prod.fst) (block.map Prod.snd) w =
        .ok (abs.current.map Prod.fst,abs.current.map Prod.snd) w' ∧
        Shows w' {cache with
          entries := (cache.entries ++ List.replicate (layerIdx+1-cache.entries.length) none).set layerIdx (some abs)
          seqLen := if layerIdx = 0 then block.width else cache.seqLen} ∧ Moves w w'
    | .error _ => ∃ e, update layerIdx (block.map Prod.fst) (block.map Prod.snd) w =
        .error e ⟨w.storage,w.cache.padded layerIdx⟩ := by
  have absent : (w.cache.padded layerIdx).get layerIdx = none := getPadded.trans found
  have spec := newEntryShows w.storage block w.cache.maxSeqLen
  cases made : KvCache.newEntry block w.cache.maxSeqLen with
  | error e =>
    rw [made] at spec
    obtain ⟨e,failed⟩ := spec
    refine ⟨e,?_⟩
    unfold update
    rw [bindThen (modifyRun _ _),bindThen (getRun _)]
    dsimp only
    rw [absent]
    exact bindFailed (zoomError.mpr ⟨_,failed,rfl⟩)
  | ok abs =>
    rw [made] at spec
    obtain ⟨entry,key,value,ran,address,shown⟩ := spec
    have fresh : w.storage.length ≤ entry.backing := Nat.le_of_eq address.symm
    obtain ⟨shown',moved⟩ := @showsSet _ _ _ _ w cache layerIdx shows_ (w.storage ++ [⟨key,value⟩]) entry abs
      (if layerIdx = 0 then block.width else w.cache.seqLen) shown (by simp)
      (fun a inside _ => allocatedBefore key value inside) (.inr fresh)
    refine ⟨_,?_,?_,moved⟩
    · unfold update
      rw [bindThen (modifyRun _ _),bindThen (getRun _)]
      dsimp only
      rw [absent]
      have stored : zoom World.storage (fun storage (w : World α β) => {w with storage})
          (newEntry (block.map Prod.fst) (block.map Prod.snd) (w.cache.padded layerIdx).maxSeqLen)
          ⟨w.storage,w.cache.padded layerIdx⟩ =
            .ok entry ⟨w.storage ++ [⟨key,value⟩],w.cache.padded layerIdx⟩ := zoomOk.mpr ⟨_,ran,rfl⟩
      dsimp only
      rw [bindThen stored,bindThen (modifyRun _ _),bindThen (modifyRun _ _),bindThen (getRun _),countColumnsCache]
      exact attemptOk.mpr ⟨currentShows shown,rfl⟩
    · rw [← shows_.counted]
      exact shown'

theorem updateMore (shows_ : Shows w cache) {entry : KVCacheEntry} (found : w.cache.get layerIdx = some entry)
    {abs : KvCache.KVCacheEntry (α × β)} (there : KvCache.get cache layerIdx = some abs) (block : Grid (α × β)) :
    match KvCache.appendToBacking abs block w.cache.maxSeqLen with
    | .ok abs' => ∃ w', update layerIdx (block.map Prod.fst) (block.map Prod.snd) w =
        .ok (abs'.current.map Prod.fst,abs'.current.map Prod.snd) w' ∧
        Shows w' {cache with
          entries := (cache.entries ++ List.replicate (layerIdx+1-cache.entries.length) none).set layerIdx (some abs')
          seqLen := if layerIdx = 0 then cache.seqLen+block.width else cache.seqLen} ∧ Moves w w'
    | .error _ => ∃ e w' cache', update layerIdx (block.map Prod.fst) (block.map Prod.snd) w = .error e w' ∧
        Shows w' cache' ∧ SameColumns cache cache' ∧ Moves w w' := by
  have present : (w.cache.padded layerIdx).get layerIdx = some entry := getPadded.trans found
  obtain ⟨abs',there',shown⟩ := showsAt shows_ found
  cases there.symm.trans there'
  have spec := appendShows shown block
  have others {held : Held α β} (moved : HeldMoves w.storage entry held) (a : Nat) (inside : a < w.storage.length)
      (apart : ∀ e, w.cache.get layerIdx = some e → a ≠ e.backing) : backingAt held.storage a = backingAt w.storage a :=
    moved.kept.others a inside (apart entry found)
  have address {held : Held α β} (moved : HeldMoves w.storage entry held) :
      (∃ e, w.cache.get layerIdx = some e ∧ held.entry.backing = e.backing) ∨ w.storage.length ≤ held.entry.backing :=
    moved.address.imp_left fun same => ⟨entry,found,same⟩
  cases made : KvCache.appendToBacking abs block w.cache.maxSeqLen with
  | error e =>
    rw [made] at spec
    obtain ⟨e,held,failed,shown,moved⟩ := spec
    obtain ⟨shown',moved'⟩ := @showsSet _ _ _ _ w cache layerIdx shows_ held.storage held.entry abs w.cache.seqLen shown
      moved.kept.longer (others moved) (address moved)
    refine ⟨e,_,_,?_,shown',⟨fun m => ?_,rfl⟩,moved'⟩
    · unfold update
      rw [bindThen (modifyRun _ _),bindThen (getRun _)]
      dsimp only
      rw [present]
      exact bindFailed (zoomError.mpr ⟨held,bindFailed failed,rfl⟩)
    · rw [KvCache.getSet]
      split
      · next same => rw [same,there]
      · rfl
  | ok abs' =>
    rw [made] at spec
    obtain ⟨held,ran,shown,moved⟩ := spec
    obtain ⟨shown',moved'⟩ := @showsSet _ _ _ _ w cache layerIdx shows_ held.storage held.entry abs'
      (if layerIdx = 0 then w.cache.seqLen+block.width else w.cache.seqLen) shown moved.kept.longer (others moved) (address moved)
    refine ⟨_,?_,?_,moved'⟩
    · unfold update
      rw [bindThen (modifyRun _ _),bindThen (getRun _)]
      dsimp only
      rw [present]
      have stored : zoom (fun w : World α β => ⟨w.storage,entry⟩) (putHeld layerIdx) (do
            appendToBacking (block.map Prod.fst) (block.map Prod.snd) (w.cache.padded layerIdx).maxSeqLen
            let held ← get
            attempt (currentKeyValue held)) ⟨w.storage,w.cache.padded layerIdx⟩ =
          .ok (abs'.current.map Prod.fst,abs'.current.map Prod.snd) (putHeld layerIdx held ⟨w.storage,w.cache.padded layerIdx⟩) := by
        have read : (do
            appendToBacking (block.map Prod.fst) (block.map Prod.snd) w.cache.maxSeqLen
            let held ← get
            attempt (currentKeyValue held)) ⟨w.storage,entry⟩ =
            .ok (abs'.current.map Prod.fst,abs'.current.map Prod.snd) held := by
          rw [bindThen ran,bindThen (getRun _)]
          exact attemptOk.mpr ⟨currentShows shown,rfl⟩
        exact zoomOk.mpr ⟨held,read,rfl⟩
      dsimp only
      rw [bindThen stored,bindThen (modifyRun _ _),countColumnsCache]
      rfl
    · rw [← shows_.counted]
      exact shown'

/- An update that appends leaves what appending leaves, and one that fails the columns in use as they were. -/
theorem updateShows (shows_ : Shows w cache) (layerIdx : Nat) (block : Grid (α × β)) :
    match KvCache.update cache layerIdx block with
    | .ok (current,cache') => ∃ w', update layerIdx (block.map Prod.fst) (block.map Prod.snd) w =
        .ok (current.map Prod.fst,current.map Prod.snd) w' ∧ Shows w' cache' ∧ Moves w w'
    | .error _ => ∃ e w' cache', update layerIdx (block.map Prod.fst) (block.map Prod.snd) w = .error e w' ∧
        Shows w' cache' ∧ SameColumns cache cache' ∧ Moves w w' := by
  unfold KvCache.update
  cases found : w.cache.get layerIdx with
  | none =>
    have first := updateFirst shows_ found block
    rw [showsNone shows_ found]
    dsimp only
    rw [shows_.reserved] at first
    cases made : KvCache.newEntry block cache.maxSeqLen with
    | ok abs =>
      rw [made] at first
      exact first
    | error e =>
      rw [made] at first
      obtain ⟨e,failed⟩ := first
      exact ⟨e,_,_,failed,showsPadded shows_,⟨abstractPadded cache layerIdx,rfl⟩,movesPadded w⟩
  | some entry =>
    obtain ⟨abs,there,_⟩ := showsAt shows_ found
    have more := updateMore shows_ found there block
    rw [there]
    dsimp only
    rw [shows_.reserved] at more
    cases made : KvCache.appendToBacking abs block cache.maxSeqLen with
    | ok abs' =>
      rw [made] at more
      exact more
    | error e =>
      rw [made] at more
      exact more

end Shows

section Runs
variable {w : World α β} {cache : KvCache.KVCache (α × β)} {layerIdx : Nat} {block : Grid (α × β)}
  {start : Nat → Option (Grid (α × β))}

def contents (w : World α β) (layerIdx : Nat) : Option (Grid α × Grid β) :=
  (w.cache.get layerIdx).bind fun entry => (currentKeyValue ⟨w.storage,entry⟩).toOption

def split (columns : Grid (α × β)) : Grid α × Grid β := (columns.map Prod.fst,columns.map Prod.snd)

abbrev Append (α β : Type) := Nat × Grid (α × β)

def append (s : World α β × List (Append α β)) (u : Append α β) : World α β × List (Append α β) :=
  match update u.1 (u.2.map Prod.fst) (u.2.map Prod.snd) s.1 with
  | .ok _ w => (w,s.2 ++ [u])
  | .error _ w => (w,s.2)

def appendAll (w : World α β) (updates : List (Append α β)) : World α β × List (Append α β) := updates.foldl append (w,[])

def blocksOf {κ : Type} (layerIdx : Nat) (done : List (Nat × Grid κ)) : List (Grid κ) :=
  (done.filter (·.1 = layerIdx)).map Prod.snd

def concatenated {κ : Type} : List (Grid κ) → Option (Grid κ)
  | [] => none
  | block::blocks => some (blocks.foldl Grid.append block)

theorem concatenatedLast {κ : Type} (blocks : List (Grid κ)) (last : Grid κ) :
    concatenated (blocks ++ [last]) = some ((concatenated blocks).elim last (Grid.append · last)) := by
  cases blocks with
  | nil => rfl
  | cons block blocks => simp [concatenated]

theorem showsContents (shows_ : Shows w cache) (layerIdx : Nat) :
    contents w layerIdx = ((KvCache.get cache layerIdx).map KvCache.KVCacheEntry.current).map split := by
  unfold contents
  cases found : w.cache.get layerIdx with
  | none =>
    rw [showsNone shows_ found]
    rfl
  | some entry =>
    obtain ⟨abs,there,shown⟩ := showsAt shows_ found
    rw [there,Option.bind_some,currentShows shown]
    rfl

/- A cache after a run: what it shows of a layer is what it started from with the blocks appended to it,
one after the other. -/
structure Holds (w : World α β) (cache : KvCache.KVCache (α × β)) (start : Nat → Option (Grid (α × β)))
    (done : List (Append α β)) : Prop where
  shown : Shows w cache
  columns : ∀ layerIdx, (KvCache.get cache layerIdx).map KvCache.KVCacheEntry.current =
    concatenated ((start layerIdx).toList ++ blocksOf layerIdx done)

structure Apart (storage : Storage α β) (w : World α β) : Prop where
  longer : storage.length ≤ w.storage.length
  same : ∀ a, a < storage.length → backingAt w.storage a = backingAt storage a
  own : ∀ m e, w.cache.get m = some e → storage.length ≤ e.backing

theorem movesApart {storage : Storage α β} {w' : World α β} (apart : Apart storage w) (moves : Moves w w') : Apart storage w' := by
  refine ⟨Nat.le_trans apart.longer moves.longer,fun a inside => ?_,fun m e' found => ?_⟩
  · rw [moves.others a (Nat.lt_of_lt_of_le inside apart.longer) fun m e found same => ?_,apart.same a inside]
    have bound := apart.own m e found
    omega
  · rcases moves.own m e' found with ⟨e,there,same⟩ | fresh
    · rw [same]
      exact apart.own m e there
    · exact Nat.le_trans apart.longer fresh

omit [Zero α] [Zero β] in
theorem abstractColumns {cache' : KvCache.KVCache (α × β)} {current : Grid (α × β)} {done : List (Append α β)}
    (updated : KvCache.Updated cache layerIdx block current cache')
    (columns : ∀ m, (KvCache.get cache m).map KvCache.KVCacheEntry.current =
      concatenated ((start m).toList ++ blocksOf m done)) (m : Nat) :
    (KvCache.get cache' m).map KvCache.KVCacheEntry.current =
      concatenated ((start m).toList ++ blocksOf m (done ++ [(layerIdx,block)])) := by
  by_cases same : layerIdx = m
  · subst same
    obtain ⟨entry,here,rfl⟩ := updated.here
    have blocks : blocksOf layerIdx (done ++ [(layerIdx,block)]) = blocksOf layerIdx done ++ [block] := by
      simp [blocksOf]
    rw [here,blocks,← List.append_assoc,concatenatedLast,← columns]
    cases before : KvCache.get cache layerIdx with
    | none => exact congrArg some (updated.first before)
    | some abs => exact congrArg some (updated.appended abs before).2
  · have blocks : blocksOf m (done ++ [(layerIdx,block)]) = blocksOf m done := by simp [blocksOf,same]
    rw [updated.others m (Ne.symm same),blocks,columns]

theorem appendHolds {done : List (Append α β)} {storage : Storage α β} (holds : Holds w cache start done)
    (apart : Apart storage w) (u : Append α β) : ∃ cache', Holds (append (w,done) u).1 cache' start (append (w,done) u).2 ∧
      Apart storage (append (w,done) u).1 ∧ cache'.maxSeqLen = cache.maxSeqLen := by
  have spec := updateShows holds.shown u.1 u.2
  cases ran : KvCache.update cache u.1 u.2 with
  | ok out =>
    rw [ran] at spec
    obtain ⟨w',stored,shown,moved⟩ := spec
    have updated := KvCache.updateOk ran
    unfold append
    rw [stored]
    exact ⟨out.2,⟨shown,abstractColumns updated holds.columns⟩,movesApart apart moved,updated.reserved⟩
  | error e =>
    rw [ran] at spec
    obtain ⟨e,w',cache',failed,shown,same,moved⟩ := spec
    unfold append
    rw [failed]
    exact ⟨cache',⟨shown,fun m => by rw [same.layers]; exact holds.columns m⟩,movesApart apart moved,same.reserved⟩

theorem runHolds (updates : List (Append α β)) {done : List (Append α β)} {storage : Storage α β}
    (holds : Holds w cache start done) (apart : Apart storage w) :
    ∃ cache', Holds (updates.foldl append (w,done)).1 cache' start (updates.foldl append (w,done)).2 ∧
      Apart storage (updates.foldl append (w,done)).1 ∧ cache'.maxSeqLen = cache.maxSeqLen := by
  induction updates generalizing w cache done with
  | nil => exact ⟨cache,holds,apart,rfl⟩
  | cons u updates ih =>
    obtain ⟨cache',here,apart,reserved⟩ := appendHolds holds apart u
    obtain ⟨last,there,apart,reserved'⟩ := ih here apart
    exact ⟨last,there,apart,reserved'.trans reserved⟩

theorem startHolds (shows_ : Shows w cache) :
    Holds w cache (fun layerIdx => (KvCache.get cache layerIdx).map KvCache.KVCacheEntry.current) [] := by
  refine ⟨shows_,fun layerIdx => ?_⟩
  cases KvCache.get cache layerIdx <;> rfl

theorem freshApart (storage : Storage α β) (numLayers : Nat) (maxSeqLen : Option Nat) :
    Apart storage (⟨storage,freshCache numLayers maxSeqLen⟩ : World α β) := by
  refine ⟨Nat.le_refl _,fun _ _ => rfl,fun m e found => ?_⟩
  unfold KVCache.get freshCache at found
  rw [List.getElem?_replicate] at found
  split at found <;> cases found

structure Fits (maxSeqLen : Option Nat) (w : World α β) (layerIdx : Nat) (block : Grid (α × β)) : Prop where
  room : ∀ maxLen, maxSeqLen = some maxLen → ((contents w layerIdx).map (·.1.width)).getD 0+block.width ≤ maxLen
  rows : ∀ columns, contents w layerIdx = some columns → block.rows.length = columns.1.rows.length

/- What an update returns and leaves: the columns in use with the block, or an error and the columns as they were. -/
def UpdateKeeps (maxSeqLen : Option Nat) (w : World α β) (layerIdx : Nat) (block : Grid (α × β)) : Prop :=
  match update layerIdx (block.map Prod.fst) (block.map Prod.snd) w with
  | .ok current w' => Fits maxSeqLen w layerIdx block ∧ contents w' layerIdx = some current
  | .error _ w' => ¬Fits maxSeqLen w layerIdx block ∧ ∀ m, contents w' m = contents w m

omit [Zero α] [Zero β] in
theorem firstFits (maxSeqLen : Option Nat) (block : Grid (α × β)) :
    (∃ abs, KvCache.newEntry block maxSeqLen = .ok abs) ↔ ∀ maxLen, maxSeqLen = some maxLen → block.width ≤ maxLen := by
  unfold KvCache.newEntry
  cases maxSeqLen with
  | none => simp
  | some maxLen =>
    dsimp only
    split
    · next fits => exact iff_of_true ⟨_,rfl⟩ fun _ same => by cases same; exact fits
    · next exceeds =>
      refine iff_of_false ?_ fun fits => exceeds (fits maxLen rfl)
      rintro ⟨_,made⟩
      cases made

theorem fitsIff (shows_ : Shows w cache) : Fits cache.maxSeqLen w layerIdx block ↔
    ∃ out, KvCache.update cache layerIdx block = .ok out := by
  unfold KvCache.update
  cases found : w.cache.get layerIdx with
  | none =>
    have none_ := showsNone shows_ found
    have bare : contents w layerIdx = none := by
      rw [showsContents shows_,none_]
      rfl
    rw [none_]
    have fits : Fits cache.maxSeqLen w layerIdx block ↔ ∀ maxLen, cache.maxSeqLen = some maxLen → block.width ≤ maxLen := by
      constructor
      · intro fits maxLen same
        have room := fits.room maxLen same
        rw [bare] at room
        simpa using room
      · intro room
        refine ⟨fun maxLen same => ?_,fun columns there => by cases bare.symm.trans there⟩
        rw [bare]
        simpa using room maxLen same
    rw [fits,← firstFits]
    constructor
    · rintro ⟨abs,made⟩
      exact ⟨_,exceptBind.mpr ⟨abs,made,rfl⟩⟩
    · rintro ⟨out,ran⟩
      obtain ⟨abs,made,_⟩ := exceptBind.mp ran
      exact ⟨abs,made⟩
  | some entry =>
    obtain ⟨abs,there,shown⟩ := showsAt shows_ found
    have seen : contents w layerIdx = some (split abs.current) := by
      rw [showsContents shows_,there]
      rfl
    rw [there]
    have fits : Fits cache.maxSeqLen w layerIdx block ↔ Appends abs cache.maxSeqLen block := by
      constructor
      · rintro ⟨room,rows⟩
        rw [seen] at room
        have same := rows _ seen
        exact ⟨by simpa [split,Grid.map] using same,room⟩
      · rintro ⟨rows,room⟩
        refine ⟨fun maxLen same => ?_,fun columns other => ?_⟩
        · rw [seen]
          exact room maxLen same
        · cases seen.symm.trans other
          simpa [split,Grid.map] using rows
    have reserved : ∀ maxLen, cache.maxSeqLen = some maxLen → abs.capacitySeqLen ≤ maxLen := fun maxLen same =>
      (shown.reserved maxLen (shows_.reserved.trans same)).2
    rw [fits]
    rcases abstractAppends reserved block with ⟨appends,capacity,within,ran,_⟩ | ⟨fails,e,failed⟩
    · exact iff_of_true appends ⟨_,exceptBind.mpr ⟨_,ran,rfl⟩⟩
    · refine iff_of_false fails ?_
      rintro ⟨out,ran⟩
      obtain ⟨_,made,_⟩ := exceptBind.mp ran
      cases failed.symm.trans made

theorem updateKeeps (shows_ : Shows w cache) (layerIdx : Nat) (block : Grid (α × β)) :
    UpdateKeeps cache.maxSeqLen w layerIdx block := by
  have spec := updateShows shows_ layerIdx block
  unfold UpdateKeeps
  rw [fitsIff shows_]
  cases ran : KvCache.update cache layerIdx block with
  | ok out =>
    rw [ran] at spec
    obtain ⟨w',stored,shown,_⟩ := spec
    rw [stored]
    obtain ⟨entry,here,current⟩ := (KvCache.updateOk ran).here
    refine ⟨⟨out,rfl⟩,?_⟩
    rw [showsContents shown,here,← current]
    rfl
  | error e =>
    rw [ran] at spec
    obtain ⟨e',w',cache',failed,shown,same,_⟩ := spec
    rw [failed]
    refine ⟨fun ⟨_,made⟩ => (by cases made),fun m => ?_⟩
    rw [showsContents shown,showsContents shows_,same.layers]

/- Whatever updates come, a layer has the columns it started with and the blocks appended to it since. -/
def Concatenates (w : World α β) (start : Nat → Option (Grid (α × β))) : Prop :=
  ∀ updates, let s := appendAll w updates
    (∀ layerIdx, contents s.1 layerIdx = (concatenated ((start layerIdx).toList ++ blocksOf layerIdx s.2)).map split) ∧
    ∀ layerIdx block, UpdateKeeps w.cache.maxSeqLen s.1 layerIdx block

theorem showsConcatenates (shows_ : Shows w cache) (same : ∀ layerIdx,
    (KvCache.get cache layerIdx).map KvCache.KVCacheEntry.current = start layerIdx) : Concatenates w start := by
  intro updates s
  have apart : Apart [] w := ⟨Nat.zero_le _,fun _ inside => absurd inside (Nat.not_lt_zero _),fun _ _ _ => Nat.zero_le _⟩
  obtain ⟨cache',holds,_,reserved⟩ := runHolds updates (startHolds shows_) apart
  refine ⟨fun layerIdx => ?_,fun layerIdx block => ?_⟩
  · have columns := holds.columns layerIdx
    rw [same] at columns
    exact (showsContents holds.shown layerIdx).trans (congrArg (Option.map split) columns)
  · rw [shows_.reserved,← reserved]
    exact updateKeeps holds.shown layerIdx block

theorem contentsStay (shows_ : Shows w cache) {w' : World α β} (apart : Apart w.storage w') :
    contents ⟨w'.storage,w.cache⟩ = contents w := by
  funext layerIdx
  unfold contents
  dsimp only
  cases found : w.cache.get layerIdx with
  | none => rfl
  | some entry =>
    obtain ⟨_,_,shown⟩ := showsAt shows_ found
    rw [Option.bind_some,Option.bind_some,currentShows shown,
      currentShows (entryStays shown apart.longer (apart.same entry.backing shown.stored))]

end Runs

section Templates
variable {w out out' : World α β} {cache T : KvCache.KVCache (α × β)} {maxSeqLen : Option Nat} {prefixLen batch : Nat}

theorem showsPairs (shows_ : Shows w cache) :
    List.Forall₂ (Option.Rel (EntryShows w.storage w.cache.maxSeqLen)) w.cache.entries cache.entries := by
  refine List.forall₂_iff_get.mpr ⟨shows_.sized,fun i inside inside' => ?_⟩
  have here := shows_.entries i
  unfold KVCache.get KvCache.get at here
  rw [List.getElem?_eq_getElem inside,List.getElem?_eq_getElem inside'] at here
  exact here

theorem prefixTaken {entry : KVCacheEntry} {abs : KvCache.KVCacheEntry (α × β)} {layerIdx : Nat} {current : Grid α × Grid β}
    (shown : EntryShows w.storage maxSeqLen entry abs) (apart : Apart w.storage out) (rows : abs.current.rows ≠ [])
    (within : prefixLen ≤ abs.current.width)
    (ran : update layerIdx ((abs.current.firstRow.columns 0 prefixLen).map Prod.fst)
      ((abs.current.firstRow.columns 0 prefixLen).map Prod.snd) out = .ok current out') :
    row0Prefix prefixLen (some entry,layerIdx) out = .ok () out' := by
  have tensors := apart.same entry.backing shown.stored
  obtain ⟨fits,keyRoom,valueRoom,keys,values⟩ := shown.shown
  obtain ⟨keyRows,valueRows⟩ := shownRows shown.shown
  have some_ : 0 < abs.current.rows.length := List.length_pos_of_ne_nil rows
  have keyRow : narrowRow (backingAt out.storage entry.backing).key = .ok (backingAt w.storage entry.backing).key.firstRow := by
    rw [tensors]
    exact if_neg (List.ne_nil_of_length_pos (keyRows ▸ some_))
  have valueRow : narrowRow (backingAt out.storage entry.backing).value =
      .ok (backingAt w.storage entry.backing).value.firstRow := by
    rw [tensors]
    exact if_neg (List.ne_nil_of_length_pos (valueRows ▸ some_))
  have key : narrow (backingAt w.storage entry.backing).key.firstRow prefixLen =
      .ok ((abs.current.firstRow.columns 0 prefixLen).map Prod.fst) := by
    have room : prefixLen ≤ (backingAt w.storage entry.backing).key.firstRow.width :=
      Nat.le_trans (Nat.le_trans within fits) (Nat.le_of_eq keyRoom.symm)
    rw [Grid.mapColumns,Grid.mapFirstRow,← keys,Grid.firstRowColumns _ within]
    exact if_pos room
  have value : narrow (backingAt w.storage entry.backing).value.firstRow prefixLen =
      .ok ((abs.current.firstRow.columns 0 prefixLen).map Prod.snd) := by
    have room : prefixLen ≤ (backingAt w.storage entry.backing).value.firstRow.width :=
      Nat.le_trans (Nat.le_trans within fits) (Nat.le_of_eq valueRoom.symm)
    rw [Grid.mapColumns,Grid.mapFirstRow,← values,Grid.firstRowColumns _ within]
    exact if_pos room
  unfold row0Prefix
  dsimp only
  rw [bindThen (getRun _),attemptThen keyRow,attemptThen key,attemptThen valueRow,attemptThen value,bindThen ran]
  rfl

structure Building (w out : World α β) (T : KvCache.KVCache (α × β)) (first : Nat) : Prop where
  shown : Shows out T
  apart : Apart w.storage out
  unreserved : T.maxSeqLen = none
  fresh : ∀ m, first ≤ m → KvCache.get T m = none

theorem prefixStep {entry : KVCacheEntry} {abs : KvCache.KVCacheEntry (α × β)} {first : Nat} (building : Building w out T first)
    (shown : EntryShows w.storage maxSeqLen entry abs) (rows : abs.current.rows ≠ []) (within : prefixLen ≤ abs.current.width) :
    ∃ out' T', row0Prefix prefixLen (some entry,first) out = .ok () out' ∧ Building w out' T' (first+1) ∧
      (∀ m, m ≠ first → KvCache.get T' m = KvCache.get T m) ∧
      (KvCache.get T' first).map KvCache.KVCacheEntry.current = some (abs.current.firstRow.columns 0 prefixLen) := by
  obtain ⟨keys,T',ran⟩ := @KvCache.updateGoes _ T first (abs.current.firstRow.columns 0 prefixLen)
    (fun e found => by cases (building.fresh first (Nat.le_refl _)).symm.trans found)
    (fun maxLen same => by cases building.unreserved.symm.trans same)
  have spec := updateShows building.shown first (abs.current.firstRow.columns 0 prefixLen)
  rw [ran] at spec
  obtain ⟨out',stored,shown',moved⟩ := spec
  have updated := KvCache.updateOk ran
  refine ⟨out',T',prefixTaken shown building.apart rows within stored,⟨shown',movesApart building.apart moved,
    updated.reserved.trans building.unreserved,fun m later => ?_⟩,updated.others,?_⟩
  · rw [updated.others m (by omega)]
    exact building.fresh m (by omega)
  · obtain ⟨e,here,current⟩ := updated.here
    rw [here,Option.map_some,current,updated.first (building.fresh first (Nat.le_refl _))]

theorem templateFold {entries : List (Option KVCacheEntry)} {absEntries : List (Option (KvCache.KVCacheEntry (α × β)))}
    (pairs : List.Forall₂ (Option.Rel (EntryShows w.storage maxSeqLen)) entries absEntries)
    (each : ∀ abs, some abs ∈ absEntries → abs.current.rows ≠ [] ∧ prefixLen ≤ abs.current.width)
    {first : Nat} (building : Building w out T first) :
    ∃ out' T', (entries.zipIdx first).forM (row0Prefix prefixLen) out = .ok () out' ∧
      Building w out' T' (first+entries.length) ∧ (∀ m, m < first → KvCache.get T' m = KvCache.get T m) ∧
      ∀ j, (KvCache.get T' (first+j)).map KvCache.KVCacheEntry.current =
        (absEntries[j]?).join.map fun abs => abs.current.firstRow.columns 0 prefixLen := by
  induction pairs generalizing first out T with
  | nil =>
    refine ⟨out,T,rfl,building,fun _ _ => rfl,fun j => ?_⟩
    rw [building.fresh _ (Nat.le_add_right _ _)]
    rfl
  | @cons entry abs entries absEntries head _ ih =>
    have one : ∃ out' T', row0Prefix prefixLen (entry,first) out = .ok () out' ∧ Building w out' T' (first+1) ∧
        (∀ m, m ≠ first → KvCache.get T' m = KvCache.get T m) ∧
        (KvCache.get T' first).map KvCache.KVCacheEntry.current =
          abs.map fun abs => abs.current.firstRow.columns 0 prefixLen := by
      cases head with
      | none =>
        refine ⟨out,T,rfl,⟨building.shown,building.apart,building.unreserved,fun m later => building.fresh m (by omega)⟩,
          fun _ _ => rfl,?_⟩
        rw [building.fresh first (Nat.le_refl _)]
        rfl
      | some shown =>
        obtain ⟨rows,within⟩ := each _ List.mem_cons_self
        exact prefixStep building shown rows within
    obtain ⟨out',T',step,building',others,here⟩ := one
    obtain ⟨last,T'',rest,done,before,later⟩ := ih (fun abs inside => each abs (List.mem_cons_of_mem _ inside)) building'
    refine ⟨last,T'',?_,?_,fun m less => ?_,fun j => ?_⟩
    · rw [List.zipIdx_cons]
      exact (bindThen step).trans rest
    · rw [List.length_cons,← Nat.add_assoc,Nat.add_right_comm]
      exact done
    · rw [before m (by omega),others m (by omega)]
    · cases j with
      | zero =>
        rw [Nat.add_zero,before first (Nat.lt_succ_self _),here]
        rfl
      | succ j =>
        have next : first+(j+1) = first+1+j := by omega
        rw [next,later j]
        rfl

/- A template holds the first columns of the first row of every layer. -/
theorem templateShows (shows_ : Shows w cache) (positive : 0 < prefixLen) (within : prefixLen ≤ cache.seqLen)
    (each : ∀ m abs, KvCache.get cache m = some abs → abs.current.rows ≠ [] ∧ prefixLen ≤ abs.current.width) :
    ∃ template storage T, row0PrefixTemplate w.cache prefixLen w.storage = .ok template storage ∧
      Shows ⟨storage,template⟩ T ∧ Apart w.storage ⟨storage,template⟩ ∧ T.maxSeqLen = none ∧
      ∀ m, (KvCache.get T m).map KvCache.KVCacheEntry.current =
        (KvCache.get cache m).map fun abs => abs.current.firstRow.columns 0 prefixLen := by
  have every : ∀ abs, some abs ∈ cache.entries → abs.current.rows ≠ [] ∧ prefixLen ≤ abs.current.width := by
    intro abs inside
    obtain ⟨m,found⟩ := List.mem_iff_getElem?.mp inside
    exact each m abs (by rw [KvCache.get,found]; rfl)
  have start : Building w ⟨w.storage,freshCache w.cache.entries.length none⟩
      (⟨List.replicate w.cache.entries.length none,0,none⟩ : KvCache.KVCache (α × β)) 0 :=
    ⟨showsFresh w.storage w.cache.entries.length none,freshApart w.storage w.cache.entries.length none,rfl,fun m _ => KvCache.freshNone w.cache.entries.length m⟩
  obtain ⟨out,T,ran,building,_,columns⟩ := templateFold (showsPairs shows_) every start
  refine ⟨out.cache,out.storage,T,?_,building.shown,building.apart,building.unreserved,fun m => ?_⟩
  · have inRange : ¬(prefixLen = 0 ∨ w.cache.seqLen < prefixLen) := by
      rw [shows_.counted]
      omega
    unfold row0PrefixTemplate
    refine (congrFun (if_neg inRange) w.storage).trans ?_
    rw [ran]
  · have here := columns m
    rw [Nat.zero_add] at here
    exact here

theorem relStays {storage storage' : Storage α β} {entry : Option KVCacheEntry} {abs : Option (KvCache.KVCacheEntry (α × β))}
    (shown : Option.Rel (EntryShows storage maxSeqLen) entry abs) (longer : storage.length ≤ storage'.length)
    (same : ∀ a, a < storage.length → backingAt storage' a = backingAt storage a) :
    Option.Rel (EntryShows storage' maxSeqLen) entry abs := by
  cases shown with
  | none => exact .none
  | some shown => exact .some (entryStays shown longer (same _ shown.stored))

structure Copied (storage storage' : Storage α β) (maxSeqLen : Option Nat) (batch : Nat)
    (absEntries : List (Option (KvCache.KVCacheEntry (α × β)))) (copies : List (Option KVCacheEntry))
    (absCopies : List (Option (KvCache.KVCacheEntry (α × β)))) : Prop where
  longer : storage.length ≤ storage'.length
  same : ∀ a, a < storage.length → backingAt storage' a = backingAt storage a
  shown : List.Forall₂ (Option.Rel (EntryShows storage' maxSeqLen)) copies absCopies
  rows : absCopies.map (Option.map KvCache.KVCacheEntry.current) =
    absEntries.map (Option.map fun abs => abs.current.repeated batch)
  own : ∀ (i : Nat) (e : KVCacheEntry), copies[i]?.join = some e → storage.length ≤ e.backing
  apart : ∀ (i j : Nat) (e e' : KVCacheEntry), copies[i]?.join = some e → copies[j]?.join = some e' →
    e.backing = e'.backing → i = j

structure CopiedOne (storage storage' : Storage α β) (maxSeqLen : Option Nat) (batch : Nat)
    (abs : Option (KvCache.KVCacheEntry (α × β))) (copy : Option KVCacheEntry)
    (absCopy : Option (KvCache.KVCacheEntry (α × β))) : Prop where
  longer : storage.length ≤ storage'.length
  same : ∀ a, a < storage.length → backingAt storage' a = backingAt storage a
  shown : Option.Rel (EntryShows storage' maxSeqLen) copy absCopy
  rows : absCopy.map KvCache.KVCacheEntry.current = abs.map fun abs => abs.current.repeated batch
  own : ∀ e : KVCacheEntry, copy = some e → storage.length ≤ e.backing

theorem entryReplicates {storage : Storage α β} {entry : Option KVCacheEntry} {abs : Option (KvCache.KVCacheEntry (α × β))}
    (shown : Option.Rel (EntryShows storage maxSeqLen) entry abs) : ∃ copy storage' absCopy,
      replicateEntry batch maxSeqLen entry storage = .ok copy storage' ∧
      CopiedOne storage storage' maxSeqLen batch abs copy absCopy := by
  cases shown with
  | none => exact ⟨none,storage,none,rfl,Nat.le_refl _,fun _ _ => rfl,.none,rfl,fun _ none_ => by cases none_⟩
  | @some entry abs shown =>
    have fits : ∀ maxLen, maxSeqLen = some maxLen → (abs.current.repeated batch).width ≤ maxLen := fun maxLen same =>
      Nat.le_trans abs.fits (shown.reserved maxLen same).2
    obtain ⟨absCopy,made⟩ := (firstFits maxSeqLen _).mpr fits
    have spec := newEntryShows storage (abs.current.repeated batch) maxSeqLen
    rw [made] at spec
    obtain ⟨copy,key,value,ran,address,shown'⟩ := spec
    refine ⟨some copy,_,some absCopy,?_,by simp,fun a inside => allocatedBefore key value inside,.some shown',
      congrArg some (KvCache.newEntryCurrent made),fun e same => ?_⟩
    · rw [Grid.mapRepeated,Grid.mapRepeated] at ran
      unfold replicateEntry
      dsimp only
      rw [bindThen (getRun _),attemptThen (currentShows shown)]
      dsimp only
      rw [bindThen ran]
      rfl
    · cases same
      exact Nat.le_of_eq address.symm

theorem copiedCons {storage storage₁ storage₂ : Storage α β} {abs absCopy : Option (KvCache.KVCacheEntry (α × β))}
    {copy : Option KVCacheEntry} {absEntries absCopies : List (Option (KvCache.KVCacheEntry (α × β)))}
    {copies : List (Option KVCacheEntry)} (first : CopiedOne storage storage₁ maxSeqLen batch abs copy absCopy)
    (rest : Copied storage₁ storage₂ maxSeqLen batch absEntries copies absCopies) :
    Copied storage storage₂ maxSeqLen batch (abs::absEntries) (copy::copies) (absCopy::absCopies) := by
  have stored {e : KVCacheEntry} (here : copy = some e) : e.backing < storage₁.length := by
    have shown := first.shown
    rw [here] at shown
    generalize absCopy = other at shown
    cases shown with
    | some shown => exact shown.stored
  refine ⟨Nat.le_trans first.longer rest.longer,fun a inside => ?_,.cons ?_ rest.shown,?_,fun i e found => ?_,
    fun i j e e' found found' same => ?_⟩
  · rw [rest.same a (Nat.lt_of_lt_of_le inside first.longer),first.same a inside]
  · exact relStays first.shown rest.longer rest.same
  · simp only [List.map_cons,first.rows,rest.rows]
  · cases i with
    | zero => exact first.own e found
    | succ i => exact Nat.le_trans first.longer (rest.own i e found)
  · cases i <;> cases j
    · rfl
    · next j =>
      have before := stored found
      have behind := rest.own j e' found'
      omega
    · next i =>
      have before := stored found'
      have behind := rest.own i e found
      omega
    · next i j => rw [rest.apart i j e e' found found' same]

theorem replicateFold {base storage : Storage α β} {entries : List (Option KVCacheEntry)}
    {absEntries : List (Option (KvCache.KVCacheEntry (α × β)))}
    (pairs : List.Forall₂ (Option.Rel (EntryShows base maxSeqLen)) entries absEntries)
    (longer : base.length ≤ storage.length) (same : ∀ a, a < base.length → backingAt storage a = backingAt base a) :
    ∃ copies storage' absCopies, entries.mapM (replicateEntry batch maxSeqLen) storage = .ok copies storage' ∧
      Copied storage storage' maxSeqLen batch absEntries copies absCopies := by
  induction pairs generalizing storage with
  | nil =>
    exact ⟨[],storage,[],rfl,Nat.le_refl _,fun _ _ => rfl,.nil,rfl,fun i e found => by simp at found,
      fun i _ e _ found => by simp at found⟩
  | @cons entry abs entries absEntries head _ ih =>
    obtain ⟨copy,storage₁,absCopy,ran,first⟩ := @entryReplicates _ _ _ _ _ batch storage entry abs (relStays head longer same)
    obtain ⟨copies,storage₂,absCopies,rest,copied⟩ := ih (Nat.le_trans longer first.longer) fun a inside => by
      rw [first.same a (Nat.lt_of_lt_of_le inside longer),same a inside]
    refine ⟨copy::copies,storage₂,absCopy::absCopies,?_,copiedCons first copied⟩
    rw [List.mapM_cons,bindThen ran,bindThen rest]
    rfl

theorem copiedShows {storage : Storage α β} {copies : List (Option KVCacheEntry)}
    {absCopies : List (Option (KvCache.KVCacheEntry (α × β)))} (shows_ : Shows w cache)
    (copied : Copied w.storage storage w.cache.maxSeqLen batch cache.entries copies absCopies) :
    Shows ⟨storage,{w.cache with entries := copies}⟩ {cache with entries := absCopies} ∧
    ∀ m, (KvCache.get {cache with entries := absCopies} m).map KvCache.KVCacheEntry.current =
      (KvCache.get cache m).map fun abs => abs.current.repeated batch := by
  obtain ⟨sized,shown⟩ := List.forall₂_iff_get.mp copied.shown
  refine ⟨⟨shows_.counted,shows_.reserved,sized,fun m => ?_,copied.apart⟩,fun m => ?_⟩
  · unfold KVCache.get KvCache.get
    dsimp only
    rcases Nat.lt_or_ge m copies.length with inside | past
    · rw [List.getElem?_eq_getElem inside,List.getElem?_eq_getElem (sized ▸ inside)]
      exact shown m inside (sized ▸ inside)
    · rw [List.getElem?_eq_none past,List.getElem?_eq_none (sized ▸ past)]
      exact .none
  · have here := congrArg (·[m]?.join) copied.rows
    simp only [List.getElem?_map,Option.join_map_eq_map_join] at here
    exact here

theorem replicaShows {base : Storage α β} (shows_ : Shows w cache) (apart : Apart base w) (positive : 0 < batch) :
    ∃ copies storage C, replicateBatch w.cache batch w.storage = .ok copies storage ∧ Shows ⟨storage,copies⟩ C ∧
      Apart base ⟨storage,copies⟩ ∧
      ∀ m, (KvCache.get C m).map KvCache.KVCacheEntry.current =
        (KvCache.get cache m).map fun abs => abs.current.repeated batch := by
  unfold replicateBatch
  rw [if_neg (Nat.ne_of_gt positive)]
  split
  · next single =>
    subst single
    refine ⟨w.cache,w.storage,cache,rfl,shows_,apart,fun m => ?_⟩
    congr 1
    funext abs
    exact (Grid.repeatedOnce abs.current).symm
  · obtain ⟨copies,storage,absCopies,ran,copied⟩ := @replicateFold _ _ _ _ _ batch _ _ _ _ (showsPairs shows_)
      (Nat.le_refl _) fun _ _ => rfl
    obtain ⟨shown,rows⟩ := copiedShows shows_ copied
    refine ⟨_,storage,_,bindThen ran,shown,⟨Nat.le_trans apart.longer copied.longer,fun a inside => ?_,fun m e found => ?_⟩,rows⟩
    · rw [copied.same a (Nat.lt_of_lt_of_le inside apart.longer),apart.same a inside]
    · exact Nat.le_trans apart.longer (copied.own m e found)

def rowPrefixes {κ : Type} (prefixLen batch : Nat) (g : Grid κ) : Grid κ := (g.firstRow.columns 0 prefixLen).repeated batch

theorem prefixRows {κ ι : Type} {g : Grid κ} (f : κ → ι) (batch : Nat) (rows : g.rows ≠ []) :
    ((rowPrefixes prefixLen batch g).map f).rows = List.replicate batch (((g.map f).rows.headD []).take prefixLen) := by
  cases found : g.rows with
  | nil => exact absurd found rows
  | cons row rest => simp [rowPrefixes,Grid.repeated,Grid.columns,Grid.firstRow,Grid.map,found,List.map_take]

theorem copiesStart (shows_ : Shows w cache) (positive : 0 < prefixLen) (within : prefixLen ≤ cache.seqLen) (some_ : 0 < batch)
    (each : ∀ m abs, KvCache.get cache m = some abs → abs.current.rows ≠ [] ∧ prefixLen ≤ abs.current.width) :
    ∃ template storage₁ copies storage₂ C, row0PrefixTemplate w.cache prefixLen w.storage = .ok template storage₁ ∧
      replicateBatch template batch storage₁ = .ok copies storage₂ ∧ Shows ⟨storage₂,copies⟩ C ∧
      Apart w.storage ⟨storage₂,copies⟩ ∧
      ∀ m, (KvCache.get C m).map KvCache.KVCacheEntry.current =
        ((KvCache.get cache m).map KvCache.KVCacheEntry.current).map (rowPrefixes prefixLen batch) := by
  obtain ⟨template,storage₁,T,taken,shown,apart,_,first⟩ := templateShows shows_ positive within each
  obtain ⟨copies,storage₂,C,copied,shown',apart',rows⟩ := replicaShows shown apart some_
  refine ⟨template,storage₁,copies,storage₂,C,taken,copied,shown',apart',fun m => ?_⟩
  have start := congrArg (Option.map (Grid.repeated batch)) (first m)
  simp only [Option.map_map] at start ⊢
  exact (rows m).trans start

end Templates

/-- However its tensors grow, a cache has the blocks appended to a layer, one after the other: so after
any updates, and so when more of them come for the copies of a template, which start with the first columns of
the first row and leave the cache they were made from as it is. -/
theorem storedConcatenates (storage : Storage α β) (numLayers : Nat) (maxSeqLen : Option Nat) :
    Concatenates (⟨storage,freshCache numLayers maxSeqLen⟩ : World α β) (fun _ => none) ∧
    ∀ updates prefixLen batch, let s := appendAll (⟨storage,freshCache numLayers maxSeqLen⟩ : World α β) updates
      0 < prefixLen → prefixLen ≤ s.1.cache.seqLen → 0 < batch →
      (∀ layerIdx columns, contents s.1 layerIdx = some columns → columns.1.rows ≠ [] ∧ prefixLen ≤ columns.1.width) →
      ∃ template storage₁ copies storage₂, row0PrefixTemplate s.1.cache prefixLen s.1.storage = .ok template storage₁ ∧
        replicateBatch template batch storage₁ = .ok copies storage₂ ∧
        (∀ layerIdx columns, contents s.1 layerIdx = some columns → ∃ keys values,
          contents ⟨storage₂,copies⟩ layerIdx = some (keys,values) ∧
          keys.rows = List.replicate batch ((columns.1.rows.headD []).take prefixLen) ∧
          values.rows = List.replicate batch ((columns.2.rows.headD []).take prefixLen)) ∧
        Concatenates ⟨storage₂,copies⟩
          (fun layerIdx => (concatenated (blocksOf layerIdx s.2)).map (rowPrefixes prefixLen batch)) ∧
        ∀ more, contents ⟨(appendAll ⟨storage₂,copies⟩ more).1.storage,s.1.cache⟩ = contents s.1 := by
  have fresh := @showsFresh α β _ _ storage numLayers maxSeqLen
  have empty (m : Nat) : (KvCache.get (⟨List.replicate numLayers none,0,maxSeqLen⟩ : KvCache.KVCache (α × β)) m).map
      KvCache.KVCacheEntry.current = none := congrArg (Option.map _) (KvCache.freshNone numLayers m)
  refine ⟨showsConcatenates fresh empty,fun updates prefixLen batch => ?_⟩
  intro s positive within some_ each
  obtain ⟨cache,holds,_,_⟩ := runHolds updates (startHolds fresh) (freshApart storage numLayers maxSeqLen)
  have shows_ : Shows s.1 cache := holds.shown
  have columns (m : Nat) : (KvCache.get cache m).map KvCache.KVCacheEntry.current = concatenated (blocksOf m s.2) := by
    have here := holds.columns m
    rw [empty m] at here
    exact here
  have eachLayer (m : Nat) (abs : KvCache.KVCacheEntry (α × β)) (found : KvCache.get cache m = some abs) :
      abs.current.rows ≠ [] ∧ prefixLen ≤ abs.current.width := by
    have here := each m (split abs.current) (by rw [showsContents shows_,found]; rfl)
    simpa [split,Grid.map] using here
  rw [shows_.counted] at within
  obtain ⟨template,storage₁,copies,storage₂,C,taken,copied,shown,apart,first⟩ :=
    copiesStart shows_ positive within some_ eachLayer
  refine ⟨template,storage₁,copies,storage₂,taken,copied,fun m both seen => ?_,?_,fun more => ?_⟩
  · rw [showsContents shows_] at seen
    cases found : KvCache.get cache m with
    | none => simp [found] at seen
    | some abs =>
      rw [found] at seen
      cases seen
      have rows := (eachLayer m abs found).1
      have copy : contents ⟨storage₂,copies⟩ m = some (split (rowPrefixes prefixLen batch abs.current)) := by
        rw [showsContents shown,first,found]
        rfl
      exact ⟨_,_,copy,prefixRows Prod.fst batch rows,prefixRows Prod.snd batch rows⟩
  · refine showsConcatenates shown fun m => ?_
    rw [first,columns]
  · obtain ⟨_,_,apart',_⟩ := runHolds more (startHolds shown) apart
    exact contentsStay shows_ apart'

def twoRows : Grid (Nat × Nat) := ⟨[[(1,10),(2,20)],[(3,30),(4,40)]],2,by decide⟩

theorem storedConcatenatesTwoRows : let s := appendAll (⟨[],freshCache 1 none⟩ : World Nat Nat) [(0,twoRows),(0,twoRows)]
    ∃ template storage₁ copies storage₂, row0PrefixTemplate s.1.cache 3 s.1.storage = .ok template storage₁ ∧
      replicateBatch template 2 storage₁ = .ok copies storage₂ ∧ ∃ keys values,
        contents ⟨storage₂,copies⟩ 0 = some (keys,values) ∧ keys.rows = [[1,2,1],[1,2,1]] ∧
        values.rows = [[10,20,10],[10,20,10]] := by
  intro s
  have refines := storedConcatenates (α := Nat) (β := Nat) [] 1 none
  have seen (m : Nat) : contents s.1 m = (concatenated (blocksOf m [(0,twoRows),(0,twoRows)])).map split := (refines.1 _).1 m
  obtain ⟨template,storage₁,copies,storage₂,taken,copied,rows,_⟩ := refines.2 [(0,twoRows),(0,twoRows)] 3 2 (by decide)
    (by decide) (by decide) fun m columns found => by
      rw [seen] at found
      cases m with
      | zero =>
        cases found
        decide
      | succ m => cases found
  obtain ⟨keys,values,found,keyRows,valueRows⟩ := rows 0 _ (seen 0)
  exact ⟨template,storage₁,copies,storage₂,taken,copied,keys,values,found,keyRows,valueRows⟩

end Qwen3Asr.KvRefinement
