import Mathlib.Data.List.Forall2
import Mathlib.Data.List.GetD
import Qwen3Asr.KvCache
import Qwen3Asr.Library.Backing

/-! The key/value cache as it is stored. A layer has backing tensors with room for more columns than
are in use: new ones are written in place, and the tensors are copied to larger ones when they are
full. Copies of a cache share its tensors, so these stand in a storage, by address. -/
namespace Qwen3Asr.KvStorage
open Library Library.Effect Library.Backing KvCache

variable {α β : Type}

section Tensors

/- Only the number of rows can differ among tensors of the columns of one model. -/
def sliceSet (dst src : Grid α) (offset : Nat) : Except String (Grid α) :=
  if dst.rows.length ≠ src.rows.length then
    .error s!"shape mismatch on dim 0, {dst.rows.length} <> {src.rows.length}"
  else if fits : offset+src.width ≤ dst.width then .ok (overwrite dst src offset fits)
  else .error s!"shape mismatch on target dim, dst: {dst.width}, src: {src.width} + {offset}"

def narrow (g : Grid α) (len : Nat) : Except String (Grid α) :=
  if len ≤ g.width then .ok (g.columns 0 len) else .error "narrow invalid args"

def narrowRow (g : Grid α) : Except String (Grid α) :=
  if g.rows = [] then .error "narrow invalid args" else .ok g.firstRow

def backingTensor [Zero α] (src : Grid α) (capacitySeqLen : Nat) : Except String (Grid α) :=
  sliceSet (zeros src.rows.length capacitySeqLen) src 0

end Tensors

/- The key and the value tensor of a layer; they are made, replaced and shared together. -/
structure Backing (α β : Type) where
  key : Grid α
  value : Grid β

abbrev Storage (α β : Type) := List (Backing α β)

structure KVCacheEntry where
  backing : Nat
  seqLen : Nat
  capacitySeqLen : Nat
  deriving DecidableEq, Repr

structure KVCache where
  entries : List (Option KVCacheEntry)
  seqLen : Nat
  maxSeqLen : Option Nat
  deriving DecidableEq, Repr

variable [Zero α] [Zero β]

def backingAt (storage : Storage α β) (address : Nat) : Backing α β := storage.getD address ⟨zeros 0 0,zeros 0 0⟩

section Entry

structure Held (α β : Type) where
  storage : Storage α β
  entry : KVCacheEntry

def Held.tensors (held : Held α β) : Backing α β := backingAt held.storage held.entry.backing

def currentKeyValue (held : Held α β) : Except String (Grid α × Grid β) := do
  let key ← narrow held.tensors.key held.entry.seqLen
  let value ← narrow held.tensors.value held.entry.seqLen
  .ok (key,value)

def allocate (key : Grid α) (value : Grid β) : EStateM String (Storage α β) Nat := fun storage =>
  .ok storage.length (storage ++ [⟨key,value⟩])

def newCapacity (seqLen : Nat) (maxSeqLen : Option Nat) : Except String Nat :=
  match maxSeqLen with
  | some maxLen =>
    if seqLen ≤ maxLen then .ok maxLen
    else .error s!"kv cache max_seq_len smaller than initial prompt: max_seq_len={maxLen} seq_len={seqLen}"
  | none => .ok (seqLen+cacheGrowSize)

def newEntry (key : Grid α) (value : Grid β) (maxSeqLen : Option Nat) : EStateM String (Storage α β) KVCacheEntry := do
  let capacitySeqLen ← attempt (newCapacity key.width maxSeqLen)
  let keyTensor ← attempt (backingTensor key capacitySeqLen)
  let valueTensor ← attempt (backingTensor value capacitySeqLen)
  let backing ← allocate keyTensor valueTensor
  pure ⟨backing,key.width,capacitySeqLen⟩

def regrow (capacitySeqLen : Nat) : EStateM String (Held α β) Unit := do
  modify fun held => {held with entry := {held.entry with capacitySeqLen}}
  let held ← get
  let (oldKey,oldValue) ← attempt (currentKeyValue held)
  let key ← attempt (backingTensor oldKey capacitySeqLen)
  let value ← attempt (backingTensor oldValue capacitySeqLen)
  let backing ← zoom Held.storage (fun storage held => {held with storage}) (allocate key value)
  modify fun held => {held with entry := {held.entry with backing}}

def makeRoom (needed : Nat) : EStateM String (Held α β) Unit := fun held =>
  if held.entry.capacitySeqLen < needed then regrow needed held else .ok () held

def setTensors (tensors : Backing α β) (held : Held α β) : Held α β :=
  {held with storage := held.storage.set held.entry.backing tensors}

def writeKey (newKey : Grid α) (offset : Nat) : EStateM String (Held α β) Unit := do
  let held ← get
  let key ← attempt (sliceSet held.tensors.key newKey offset)
  modify (setTensors {held.tensors with key})

def writeValue (newValue : Grid β) (offset : Nat) : EStateM String (Held α β) Unit := do
  let held ← get
  let value ← attempt (sliceSet held.tensors.value newValue offset)
  modify (setTensors {held.tensors with value})

def appendToBacking (newKey : Grid α) (newValue : Grid β) (maxSeqLen : Option Nat) : EStateM String (Held α β) Unit := do
  let held ← get
  let offset := held.entry.seqLen
  let needed := offset+newKey.width
  let grown ← attempt (grownCapacity held.entry.capacitySeqLen needed maxSeqLen)
  makeRoom grown.val
  writeKey newKey offset
  writeValue newValue offset
  modify fun held => {held with entry := {held.entry with seqLen := needed}}

end Entry

section Cache

structure World (α β : Type) where
  storage : Storage α β
  cache : KVCache

def freshCache (numLayers : Nat) (maxSeqLen : Option Nat) : KVCache := ⟨List.replicate numLayers none,0,maxSeqLen⟩

def KVCache.get (cache : KVCache) (layerIdx : Nat) : Option KVCacheEntry := cache.entries[layerIdx]?.join

def KVCache.padded (cache : KVCache) (layerIdx : Nat) : KVCache :=
  {cache with entries := cache.entries ++ List.replicate (layerIdx+1-cache.entries.length) none}

def KVCache.setEntry (cache : KVCache) (layerIdx : Nat) (entry : KVCacheEntry) : KVCache :=
  {cache with entries := cache.entries.set layerIdx (some entry)}

def putHeld (layerIdx : Nat) (held : Held α β) (w : World α β) : World α β :=
  ⟨held.storage,w.cache.setEntry layerIdx held.entry⟩

def countColumns (layerIdx seqLen : Nat) (w : World α β) : World α β :=
  if layerIdx = 0 then {w with cache := {w.cache with seqLen}} else w

def update (layerIdx : Nat) (key : Grid α) (value : Grid β) : EStateM String (World α β) (Grid α × Grid β) := do
  modify fun w => {w with cache := w.cache.padded layerIdx}
  let w ← get
  match w.cache.get layerIdx with
  | some entry =>
    let result ← zoom (fun w => ⟨w.storage,entry⟩) (putHeld layerIdx) (do
      appendToBacking key value w.cache.maxSeqLen
      let held ← get
      attempt (currentKeyValue held))
    modify (countColumns layerIdx (w.cache.seqLen+key.width))
    pure result
  | none =>
    let entry ← zoom World.storage (fun storage w => {w with storage}) (newEntry key value w.cache.maxSeqLen)
    modify fun w => {w with cache := w.cache.setEntry layerIdx entry}
    modify (countColumns layerIdx key.width)
    let w ← get
    attempt (currentKeyValue ⟨w.storage,entry⟩)

def row0Prefix (prefixLen : Nat) : Option KVCacheEntry × Nat → EStateM String (World α β) Unit
  | (none,_) => pure ()
  | (some entry,layerIdx) => do
    let w ← get
    let tensors := backingAt w.storage entry.backing
    let keyRow ← attempt (narrowRow tensors.key)
    let key ← attempt (narrow keyRow prefixLen)
    let valueRow ← attempt (narrowRow tensors.value)
    let value ← attempt (narrow valueRow prefixLen)
    let _ ← update layerIdx key value

/- The template is a cache of its own in the same storage. -/
def row0PrefixTemplate (cache : KVCache) (prefixLen : Nat) : EStateM String (Storage α β) KVCache :=
  if prefixLen = 0 ∨ cache.seqLen < prefixLen then
    throw s!"prefix template len out of range: prefix_len={prefixLen} seq_len={cache.seqLen}"
  else fun storage =>
    match (cache.entries.zipIdx.forM (row0Prefix prefixLen)) ⟨storage,freshCache cache.entries.length none⟩ with
    | .ok _ out => .ok out.cache out.storage
    | .error e out => .error e out.storage

def replicateEntry (batch : Nat) (maxSeqLen : Option Nat) :
    Option KVCacheEntry → EStateM String (Storage α β) (Option KVCacheEntry)
  | none => pure none
  | some entry => do
    let storage ← get
    let (curKey,curValue) ← attempt (currentKeyValue ⟨storage,entry⟩)
    let entry ← newEntry (curKey.repeated batch) (curValue.repeated batch) maxSeqLen
    pure (some entry)

/- A single copy shares the tensors of the cache. -/
def replicateBatch (cache : KVCache) (batch : Nat) : EStateM String (Storage α β) KVCache :=
  if batch = 0 then throw "replicate_batch requires batch > 0" else
  if batch = 1 then pure cache else do
  let entries ← cache.entries.mapM (replicateEntry batch cache.maxSeqLen)
  pure {cache with entries}

end Cache

section Tensors
variable {src dst : Grid α} {offset cap : Nat}

omit [Zero α] in
theorem sliceSetGoes (same : dst.rows.length = src.rows.length) (fits : offset+src.width ≤ dst.width) :
    sliceSet dst src offset = .ok (overwrite dst src offset fits) := by
  unfold sliceSet
  rw [if_neg (not_not.mpr same),dif_pos fits]

omit [Zero α] in
theorem sliceSetOther (other : dst.rows.length ≠ src.rows.length) : ∃ e, sliceSet dst src offset = .error e :=
  ⟨_,if_pos other⟩

theorem backingTensorGoes (fits : src.width ≤ cap) :
    ∃ g, backingTensor src cap = .ok g ∧ g.width = cap ∧ g.columns 0 src.width = src := by
  have room : 0+src.width ≤ (zeros src.rows.length cap : Grid α).width := by rw [zerosWidth]; omega
  exact ⟨_,sliceSetGoes (zerosRows _ _) room,rfl,overwriteZeros rfl⟩

end Tensors

section Shown
variable {b : Backing α β} {cap : Nat} {g block : Grid (α × β)}

structure Shown (b : Backing α β) (cap : Nat) (g : Grid (α × β)) : Prop where
  within : g.width ≤ cap
  keyRoom : b.key.width = cap
  valueRoom : b.value.width = cap
  keys : b.key.columns 0 g.width = g.map Prod.fst
  values : b.value.columns 0 g.width = g.map Prod.snd

omit [Zero α] [Zero β] in
theorem shownRows (shown : Shown b cap g) : b.key.rows.length = g.rows.length ∧ b.value.rows.length = g.rows.length := by
  have keys := congrArg (fun g : Grid α => g.rows.length) shown.keys
  have values := congrArg (fun g : Grid β => g.rows.length) shown.values
  simp only [Grid.columns,Grid.map,List.length_map] at keys values
  exact ⟨keys,values⟩

omit [Zero α] [Zero β] in
theorem shownWrites (shown : Shown b cap g) (rows : block.rows.length = g.rows.length) (room : g.width+block.width ≤ cap) :
    ∃ key value, sliceSet b.key (block.map Prod.fst) g.width = .ok key ∧
      sliceSet b.value (block.map Prod.snd) g.width = .ok value ∧ Shown ⟨key,value⟩ cap (g.append block) := by
  obtain ⟨keyRows,valueRows⟩ := shownRows shown
  have sameKey : b.key.rows.length = (block.map Prod.fst).rows.length := by simp [Grid.map,keyRows,rows]
  have sameValue : b.value.rows.length = (block.map Prod.snd).rows.length := by simp [Grid.map,valueRows,rows]
  have keyFits : g.width+(block.map Prod.fst).width ≤ b.key.width := by rw [shown.keyRoom]; exact room
  have valueFits : g.width+(block.map Prod.snd).width ≤ b.value.width := by rw [shown.valueRoom]; exact room
  refine ⟨_,_,sliceSetGoes sameKey keyFits,sliceSetGoes sameValue valueFits,room,shown.keyRoom,shown.valueRoom,?_,?_⟩
  · have read := @overwriteAppends _ _ _ _ keyFits sameKey
    rw [shown.keys,← Grid.mapAppend] at read
    exact read
  · have read := @overwriteAppends _ _ _ _ valueFits sameValue
    rw [shown.values,← Grid.mapAppend] at read
    exact read

omit [Zero α] [Zero β] in
theorem shownOther (shown : Shown b cap g) (rows : block.rows.length ≠ g.rows.length) :
    ∃ e, sliceSet b.key (block.map Prod.fst) g.width = .error e := by
  refine sliceSetOther ?_
  rw [(shownRows shown).1]
  simpa [Grid.map] using rows.symm

theorem shownFresh (fits : g.width ≤ cap) : ∃ key value, backingTensor (g.map Prod.fst) cap = .ok key ∧
    backingTensor (g.map Prod.snd) cap = .ok value ∧ Shown ⟨key,value⟩ cap g := by
  obtain ⟨key,made,keyRoom,keys⟩ := @backingTensorGoes α _ (g.map Prod.fst) cap fits
  obtain ⟨value,made',valueRoom,values⟩ := @backingTensorGoes β _ (g.map Prod.snd) cap fits
  exact ⟨key,value,made,made',fits,keyRoom,valueRoom,keys,values⟩

end Shown

section Entries
variable {storage : Storage α β} {maxSeqLen : Option Nat} {entry : KVCacheEntry} {abs : KvCache.KVCacheEntry (α × β)}
  {block : Grid (α × β)}

structure EntryShows (storage : Storage α β) (maxSeqLen : Option Nat) (entry : KVCacheEntry)
    (abs : KvCache.KVCacheEntry (α × β)) : Prop where
  stored : entry.backing < storage.length
  counted : entry.seqLen = abs.current.width
  shown : Shown (backingAt storage entry.backing) entry.capacitySeqLen abs.current
  reserved : ∀ maxLen, maxSeqLen = some maxLen → entry.capacitySeqLen ≤ maxLen ∧ abs.capacitySeqLen ≤ maxLen

structure KeptBut (address : Nat) (storage storage' : Storage α β) : Prop where
  longer : storage.length ≤ storage'.length
  others : ∀ a, a < storage.length → a ≠ address → backingAt storage' a = backingAt storage a

theorem entryStays {storage' : Storage α β} (shows_ : EntryShows storage maxSeqLen entry abs)
    (longer : storage.length ≤ storage'.length)
    (same : backingAt storage' entry.backing = backingAt storage entry.backing) : EntryShows storage' maxSeqLen entry abs :=
  ⟨Nat.lt_of_lt_of_le shows_.stored longer,shows_.counted,by rw [same]; exact shows_.shown,shows_.reserved⟩

theorem allocatedAt (key : Grid α) (value : Grid β) : backingAt (storage ++ [⟨key,value⟩]) storage.length = ⟨key,value⟩ := by
  simp [backingAt]

theorem allocatedBefore (key : Grid α) (value : Grid β) {a : Nat} (inside : a < storage.length) :
    backingAt (storage ++ [⟨key,value⟩]) a = backingAt storage a := by
  rw [backingAt,backingAt,List.getD_append _ _ _ _ inside]

theorem currentShows (shows_ : EntryShows storage maxSeqLen entry abs) :
    currentKeyValue ⟨storage,entry⟩ = .ok (abs.current.map Prod.fst,abs.current.map Prod.snd) := by
  obtain ⟨within,keyRoom,valueRoom,keys,values⟩ := shows_.shown
  unfold currentKeyValue narrow Held.tensors
  simp only [shows_.counted,keyRoom,valueRoom,if_pos within,keys,values]
  rfl

theorem newCapacityFits {seqLen cap : Nat} (ok : newCapacity seqLen maxSeqLen = .ok cap) :
    seqLen ≤ cap ∧ ∀ maxLen, maxSeqLen = some maxLen → cap ≤ maxLen := by
  unfold newCapacity at ok
  split at ok
  · next maxLen =>
    split at ok
    · next fits =>
      cases ok
      exact ⟨fits,fun _ same => Nat.le_of_eq (Option.some.inj same)⟩
    · cases ok
  · cases ok
    exact ⟨Nat.le_add_right _ _,fun _ same => (by cases same)⟩

theorem newEntryGoes {cap : Nat} (ok : newCapacity block.width maxSeqLen = .ok cap) :
    ∃ key value, newEntry (block.map Prod.fst) (block.map Prod.snd) maxSeqLen storage =
      .ok ⟨storage.length,block.width,cap⟩ (storage ++ [⟨key,value⟩]) ∧ Shown ⟨key,value⟩ cap block := by
  obtain ⟨key,value,keyMade,valueMade,shown⟩ := shownFresh (newCapacityFits ok).1
  refine ⟨key,value,?_,shown⟩
  have counted : newCapacity (block.map Prod.fst).width maxSeqLen = .ok cap := ok
  unfold newEntry
  rw [attemptThen counted,attemptThen keyMade,attemptThen valueMade]
  rfl

theorem newEntryShows (storage : Storage α β) (block : Grid (α × β)) (maxSeqLen : Option Nat) :
    match KvCache.newEntry block maxSeqLen with
    | .ok abs => ∃ entry key value, newEntry (block.map Prod.fst) (block.map Prod.snd) maxSeqLen storage =
        .ok entry (storage ++ [⟨key,value⟩]) ∧ entry.backing = storage.length ∧
        EntryShows (storage ++ [⟨key,value⟩]) maxSeqLen entry abs
    | .error _ => ∃ e, newEntry (block.map Prod.fst) (block.map Prod.snd) maxSeqLen storage = .error e storage := by
  have made {cap : Nat} (ok : newCapacity block.width maxSeqLen = .ok cap) (fits : block.width ≤ cap) :
      ∃ entry key value, newEntry (block.map Prod.fst) (block.map Prod.snd) maxSeqLen storage =
        .ok entry (storage ++ [⟨key,value⟩]) ∧ entry.backing = storage.length ∧
        EntryShows (storage ++ [⟨key,value⟩]) maxSeqLen entry ⟨block,cap,fits⟩ := by
    obtain ⟨key,value,ran,shown⟩ := @newEntryGoes _ _ _ _ storage _ _ _ ok
    refine ⟨_,key,value,ran,rfl,by simp,rfl,by rw [allocatedAt]; exact shown,fun maxLen reserved => ?_⟩
    have bound := (newCapacityFits ok).2 maxLen reserved
    exact ⟨bound,bound⟩
  unfold KvCache.newEntry
  cases maxSeqLen with
  | none => exact made rfl _
  | some maxLen =>
    dsimp only
    by_cases fits : block.width ≤ maxLen
    · rw [dif_pos fits]
      exact made (if_pos fits) fits
    · rw [dif_neg fits]
      exact ⟨_,bindFailed (attemptError.mpr ⟨if_neg fits,rfl⟩)⟩

theorem regrowShows (shows_ : EntryShows storage maxSeqLen entry abs) {cap : Nat} (fits : entry.seqLen ≤ cap)
    (reserved : ∀ maxLen, maxSeqLen = some maxLen → cap ≤ maxLen) :
    ∃ key value, regrow cap ⟨storage,entry⟩ = .ok () ⟨storage ++ [⟨key,value⟩],⟨storage.length,entry.seqLen,cap⟩⟩ ∧
      EntryShows (storage ++ [⟨key,value⟩]) maxSeqLen ⟨storage.length,entry.seqLen,cap⟩ abs := by
  obtain ⟨key,value,keyMade,valueMade,shown⟩ := @shownFresh _ _ _ _ cap abs.current (shows_.counted ▸ fits)
  have seen := currentShows shows_
  have current : currentKeyValue ⟨storage,{entry with capacitySeqLen := cap}⟩ =
      .ok (abs.current.map Prod.fst,abs.current.map Prod.snd) := seen
  refine ⟨key,value,?_,by simp,shows_.counted,by rw [allocatedAt]; exact shown,fun maxLen same =>
    ⟨reserved maxLen same,(shows_.reserved maxLen same).2⟩⟩
  unfold regrow
  rw [bindThen (modifyRun _ _),bindThen (getRun _),attemptThen current]
  dsimp only
  rw [attemptThen keyMade,attemptThen valueMade]
  rfl

theorem setHere {tensors : Backing α β} {address : Nat} (inside : address < storage.length) :
    backingAt (storage.set address tensors) address = tensors := by
  simp [backingAt,inside]

theorem setElsewhere {tensors : Backing α β} {address other : Nat} (apart : other ≠ address) :
    backingAt (storage.set address tensors) other = backingAt storage other := by
  simp [backingAt,List.getD_eq_getElem?_getD,List.getElem?_set_ne apart.symm]

theorem writeKeyGoes {newKey key : Grid α} {offset : Nat}
    (written : sliceSet (backingAt storage entry.backing).key newKey offset = .ok key) :
    writeKey newKey offset ⟨storage,entry⟩ =
      .ok () ⟨storage.set entry.backing {backingAt storage entry.backing with key},entry⟩ := by
  unfold writeKey
  rw [bindThen (getRun _)]
  exact attemptThen written

theorem writeValueGoes {newValue value : Grid β} {offset : Nat}
    (written : sliceSet (backingAt storage entry.backing).value newValue offset = .ok value) :
    writeValue newValue offset ⟨storage,entry⟩ =
      .ok () ⟨storage.set entry.backing {backingAt storage entry.backing with value},entry⟩ := by
  unfold writeValue
  rw [bindThen (getRun _)]
  exact attemptThen written

structure HeldMoves (storage : Storage α β) (entry : KVCacheEntry) (held : Held α β) : Prop where
  kept : KeptBut entry.backing storage held.storage
  address : held.entry.backing = entry.backing ∨ storage.length ≤ held.entry.backing

theorem writesShow {capacity : Nat} (shows_ : EntryShows storage maxSeqLen entry abs)
    (rows : block.rows.length = abs.current.rows.length) (room : abs.current.width+block.width ≤ entry.capacitySeqLen)
    (bound : ∀ maxLen, maxSeqLen = some maxLen → capacity ≤ maxLen) (fits : (abs.current.append block).width ≤ capacity) :
    ∃ held, (do
        writeKey (block.map Prod.fst) entry.seqLen
        writeValue (block.map Prod.snd) entry.seqLen
        modify fun held : Held α β => {held with entry := {held.entry with seqLen := entry.seqLen+block.width}}
        : EStateM String (Held α β) Unit) ⟨storage,entry⟩ = .ok () held ∧
      EntryShows held.storage maxSeqLen held.entry ⟨abs.current.append block,capacity,fits⟩ ∧
      HeldMoves storage entry held := by
  obtain ⟨key,value,keyWritten,valueWritten,shown⟩ := shownWrites shows_.shown rows room
  rw [← shows_.counted] at keyWritten valueWritten
  have again : sliceSet (backingAt (storage.set entry.backing {backingAt storage entry.backing with key}) entry.backing).value
      (block.map Prod.snd) entry.seqLen = .ok value := by
    rw [setHere shows_.stored]
    exact valueWritten
  have both : (storage.set entry.backing {backingAt storage entry.backing with key}).set entry.backing
      {backingAt (storage.set entry.backing {backingAt storage entry.backing with key}) entry.backing with value} =
        storage.set entry.backing ⟨key,value⟩ := by
    rw [List.set_set,setHere shows_.stored]
  refine ⟨⟨storage.set entry.backing ⟨key,value⟩,{entry with seqLen := entry.seqLen+block.width}⟩,?_,?_,?_⟩
  · rw [bindThen (writeKeyGoes keyWritten),bindThen (writeValueGoes again),both]
    rfl
  · refine ⟨by simpa using shows_.stored,congrArg (· + block.width) shows_.counted,?_,fun maxLen same =>
      ⟨(shows_.reserved maxLen same).1,bound maxLen same⟩⟩
    rw [setHere shows_.stored]
    exact shown
  · exact ⟨⟨by simp,fun a _ apart => setElsewhere apart⟩,.inl rfl⟩

theorem grownCases (cap needed : Nat) (reserved : ∀ maxLen, maxSeqLen = some maxLen → cap ≤ maxLen) :
    ((∀ maxLen, maxSeqLen = some maxLen → needed ≤ maxLen) ∧ ∃ grown, grownCapacity cap needed maxSeqLen = .ok grown ∧
      ∀ maxLen, maxSeqLen = some maxLen → grown.val ≤ maxLen) ∨
    (∃ maxLen, maxSeqLen = some maxLen ∧ maxLen < needed) ∧ ∃ e, grownCapacity cap needed maxSeqLen = .error e := by
  unfold grownCapacity
  by_cases inside : needed ≤ cap
  · rw [dif_pos inside]
    exact .inl ⟨fun maxLen same => Nat.le_trans inside (reserved maxLen same),_,rfl,reserved⟩
  · rw [dif_neg inside]
    cases maxSeqLen with
    | none => exact .inl ⟨fun _ same => (by cases same),_,rfl,fun _ same => (by cases same)⟩
    | some maxLen =>
      dsimp only
      by_cases fits : needed ≤ maxLen
      · rw [dif_pos fits]
        refine .inl ⟨fun _ same => ?_,_,rfl,fun _ same => ?_⟩ <;> cases same
        · exact fits
        · exact Nat.le_refl _
      · rw [dif_neg fits]
        exact .inr ⟨⟨maxLen,rfl,Nat.not_le.mp fits⟩,_,rfl⟩

theorem movesTrans {held held' : Held α β} (first : HeldMoves storage entry held)
    (second : HeldMoves held.storage held.entry held') : HeldMoves storage entry held' := by
  have longer := first.kept.longer
  have further := second.kept.longer
  refine ⟨⟨Nat.le_trans longer further,fun a inside apart => ?_⟩,?_⟩
  · have other : a ≠ held.entry.backing := by
      rcases first.address with same | fresh
      · rw [same]
        exact apart
      · omega
    rw [second.kept.others a (Nat.lt_of_lt_of_le inside longer) other,first.kept.others a inside apart]
  · rcases second.address with same | fresh
    · rw [same]
      exact first.address
    · exact .inr (Nat.le_trans longer fresh)

theorem roomShows (shows_ : EntryShows storage maxSeqLen entry abs) {grown : Nat} (fits : entry.seqLen ≤ grown)
    (bound : ∀ maxLen, maxSeqLen = some maxLen → grown ≤ maxLen) :
    ∃ held, makeRoom grown ⟨storage,entry⟩ = .ok () held ∧
      EntryShows held.storage maxSeqLen held.entry abs ∧ HeldMoves storage entry held ∧
      held.entry.seqLen = entry.seqLen ∧ grown ≤ held.entry.capacitySeqLen := by
  unfold makeRoom
  by_cases small : entry.capacitySeqLen < grown
  · obtain ⟨key,value,ran,shown⟩ := regrowShows shows_ fits bound
    rw [if_pos small]
    refine ⟨_,ran,shown,⟨⟨by simp,fun a inside _ => allocatedBefore key value inside⟩,.inr (Nat.le_refl _)⟩,rfl,Nat.le_refl _⟩
  · rw [if_neg small]
    exact ⟨_,rfl,shows_,⟨⟨Nat.le_refl _,fun _ _ _ => rfl⟩,.inl rfl⟩,rfl,Nat.not_lt.mp small⟩

structure Appends (entry : KvCache.KVCacheEntry (α × β)) (maxSeqLen : Option Nat) (block : Grid (α × β)) : Prop where
  rows : block.rows.length = entry.current.rows.length
  fits : ∀ maxLen, maxSeqLen = some maxLen → entry.current.width+block.width ≤ maxLen

omit [Zero α] [Zero β] in
theorem abstractAppends (reserved : ∀ maxLen, maxSeqLen = some maxLen → abs.capacitySeqLen ≤ maxLen) (block : Grid (α × β)) :
    (Appends abs maxSeqLen block ∧ ∃ capacity fits, KvCache.appendToBacking abs block maxSeqLen =
        .ok ⟨abs.current.append block,capacity,fits⟩ ∧ ∀ maxLen, maxSeqLen = some maxLen → capacity ≤ maxLen) ∨
    ¬Appends abs maxSeqLen block ∧ ∃ e, KvCache.appendToBacking abs block maxSeqLen = .error e := by
  unfold KvCache.appendToBacking
  rcases grownCases abs.capacitySeqLen (abs.seqLen+block.width) reserved with
    ⟨within,grown,grows,bound⟩ | ⟨⟨maxLen,same,exceeds⟩,e,failed⟩
  · rw [grows]
    by_cases rows : block.rows.length = abs.current.rows.length
    · exact .inl ⟨⟨rows,within⟩,grown.val,grown.property,if_neg (not_not.mpr rows),bound⟩
    · exact .inr ⟨fun appends => rows appends.rows,_,if_pos rows⟩
  · refine .inr ⟨fun appends => absurd (appends.fits maxLen same) (Nat.not_le.mpr exceeds),e,?_⟩
    rw [failed]
    rfl

theorem appendGoes (shows_ : EntryShows storage maxSeqLen entry abs) (appends : Appends abs maxSeqLen block) {capacity : Nat}
    (bound : ∀ maxLen, maxSeqLen = some maxLen → capacity ≤ maxLen) (fits : (abs.current.append block).width ≤ capacity) :
    ∃ held, appendToBacking (block.map Prod.fst) (block.map Prod.snd) maxSeqLen ⟨storage,entry⟩ = .ok () held ∧
      EntryShows held.storage maxSeqLen held.entry ⟨abs.current.append block,capacity,fits⟩ ∧ HeldMoves storage entry held := by
  rcases grownCases entry.capacitySeqLen (entry.seqLen+block.width) fun maxLen same => (shows_.reserved maxLen same).1 with
    ⟨_,grown,grows,grownBound⟩ | ⟨⟨maxLen,same,exceeds⟩,_⟩
  · have column := grown.property
    obtain ⟨held,roomed,shown,moved,counted,room⟩ := roomShows shows_ (Nat.le_trans (Nat.le_add_right _ _) column) grownBound
    obtain ⟨held',ran,shown',moved'⟩ := writesShow shown appends.rows (by rw [← shown.counted,counted]; omega) bound fits
    rw [counted] at ran
    refine ⟨held',?_,shown',movesTrans moved moved'⟩
    unfold appendToBacking
    rw [bindThen (getRun _)]
    dsimp only
    have start : grownCapacity entry.capacitySeqLen (entry.seqLen+(block.map Prod.fst).width) maxSeqLen = .ok grown := grows
    rw [attemptThen start,bindThen roomed]
    exact ran
  · rw [shows_.counted] at exceeds
    exact absurd (appends.fits maxLen same) (Nat.not_le.mpr exceeds)

theorem appendFails (shows_ : EntryShows storage maxSeqLen entry abs) (fails : ¬Appends abs maxSeqLen block) :
    ∃ e held, appendToBacking (block.map Prod.fst) (block.map Prod.snd) maxSeqLen ⟨storage,entry⟩ = .error e held ∧
      EntryShows held.storage maxSeqLen held.entry abs ∧ HeldMoves storage entry held := by
  unfold appendToBacking
  rw [bindThen (getRun _)]
  dsimp only
  rcases grownCases entry.capacitySeqLen (entry.seqLen+block.width) fun maxLen same => (shows_.reserved maxLen same).1 with
    ⟨within,grown,grows,grownBound⟩ | ⟨_,e,failed⟩
  · have column := grown.property
    obtain ⟨held,roomed,shown,moved,counted,_⟩ := roomShows shows_ (Nat.le_trans (Nat.le_add_right _ _) column) grownBound
    have start : grownCapacity entry.capacitySeqLen (entry.seqLen+(block.map Prod.fst).width) maxSeqLen = .ok grown := grows
    have rows : block.rows.length ≠ abs.current.rows.length := fun rows =>
      fails ⟨rows,fun maxLen same => by rw [← shows_.counted]; exact within maxLen same⟩
    obtain ⟨e,failed⟩ := shownOther shown.shown rows
    rw [← shown.counted,counted] at failed
    refine ⟨e,held,?_,shown,moved⟩
    rw [attemptThen start,bindThen roomed]
    refine bindFailed ?_
    unfold writeKey
    rw [bindThen (getRun _)]
    exact bindFailed (attemptError.mpr ⟨failed,rfl⟩)
  · exact ⟨e,⟨storage,entry⟩,bindFailed (attemptError.mpr ⟨failed,rfl⟩),shows_,
      ⟨Nat.le_refl _,fun _ _ _ => rfl⟩,.inl rfl⟩

/- An update of an entry does what appending does, whatever the room its tensors have; one that fails
leaves the columns in use as they are. -/
theorem appendShows (shows_ : EntryShows storage maxSeqLen entry abs) (block : Grid (α × β)) :
    match KvCache.appendToBacking abs block maxSeqLen with
    | .ok abs' => ∃ held, appendToBacking (block.map Prod.fst) (block.map Prod.snd) maxSeqLen ⟨storage,entry⟩ = .ok () held ∧
        EntryShows held.storage maxSeqLen held.entry abs' ∧ HeldMoves storage entry held
    | .error _ => ∃ e held, appendToBacking (block.map Prod.fst) (block.map Prod.snd) maxSeqLen ⟨storage,entry⟩ =
        .error e held ∧ EntryShows held.storage maxSeqLen held.entry abs ∧ HeldMoves storage entry held := by
  rcases abstractAppends (fun maxLen same => (shows_.reserved maxLen same).2) block with
    ⟨appends,capacity,fits,ran,bound⟩ | ⟨fails,e,failed⟩
  · rw [ran]
    exact appendGoes shows_ appends bound fits
  · rw [failed]
    exact appendFails shows_ fails

end Entries

end Qwen3Asr.KvStorage
