import Qwen3Asr.Library.Effect
import Qwen3Asr.Library.Grid

/-! The key/value cache of eager generation. A column of a row holds its key together with its
value; of the backing tensors only the capacity and the columns before `seqLen` are kept. -/
namespace Qwen3Asr.KvCache
open Library Library.Effect

def cacheGrowSize : Nat := 256

structure KVCacheEntry (κ : Type) where
  current : Grid κ
  capacitySeqLen : Nat
  fits : current.width ≤ capacitySeqLen

variable {κ : Type}

def KVCacheEntry.seqLen (entry : KVCacheEntry κ) : Nat := entry.current.width

def newEntry (key : Grid κ) (maxSeqLen : Option Nat) : Except String (KVCacheEntry κ) :=
  match maxSeqLen with
  | some maxLen =>
    if fits : key.width ≤ maxLen then .ok ⟨key,maxLen,fits⟩
    else .error s!"kv cache max_seq_len smaller than initial prompt: max_seq_len={maxLen} seq_len={key.width}"
  | none => .ok ⟨key,key.width+cacheGrowSize,Nat.le_add_right _ _⟩

/- Past the capacity a reserved length is taken whole, else blocks are added. -/
def grownCapacity (capacity needed : Nat) (maxSeqLen : Option Nat) :
    Except String {grown : Nat // needed ≤ grown} :=
  if inside : needed ≤ capacity then .ok ⟨capacity,inside⟩ else
  match maxSeqLen with
  | some maxLen =>
    if reserved : needed ≤ maxLen then .ok ⟨maxLen,reserved⟩
    else .error s!"kv cache append exceeds reserved max_seq_len: needed={needed} max_seq_len={maxLen}"
  | none =>
    let blocks := (needed-capacity+(cacheGrowSize-1))/cacheGrowSize
    .ok ⟨capacity+blocks*cacheGrowSize,by unfold blocks cacheGrowSize; omega⟩

/- Setting a slice of the backing needs the same number of rows. -/
def appendToBacking (entry : KVCacheEntry κ) (newKey : Grid κ) (maxSeqLen : Option Nat) :
    Except String (KVCacheEntry κ) := do
  let grown ← grownCapacity entry.capacitySeqLen (entry.seqLen+newKey.width) maxSeqLen
  if newKey.rows.length ≠ entry.current.rows.length then .error "shape mismatch on slice-set"
  else .ok ⟨entry.current.append newKey,grown.val,grown.property⟩

structure KVCache (κ : Type) where
  entries : List (Option (KVCacheEntry κ))
  seqLen : Nat
  maxSeqLen : Option Nat

def withMaxSeqLen (numLayers maxSeqLen : Nat) : KVCache κ := ⟨List.replicate numLayers none,0,some maxSeqLen⟩

def withNumLayers (numLayers : Nat) : KVCache κ := ⟨List.replicate numLayers none,0,none⟩

def get (cache : KVCache κ) (layerIdx : Nat) : Option (KVCacheEntry κ) := cache.entries[layerIdx]?.join

/- Only the first layer counts the columns. -/
def update (cache : KVCache κ) (layerIdx : Nat) (key : Grid κ) : Except String (Grid κ × KVCache κ) := do
  let entries := cache.entries ++ List.replicate (layerIdx+1-cache.entries.length) none
  match get cache layerIdx with
  | some entry =>
    let entry ← appendToBacking entry key cache.maxSeqLen
    let seqLen := if layerIdx = 0 then cache.seqLen+key.width else cache.seqLen
    .ok (entry.current,{cache with entries := entries.set layerIdx (some entry), seqLen})
  | none =>
    let entry ← newEntry key cache.maxSeqLen
    let seqLen := if layerIdx = 0 then key.width else cache.seqLen
    .ok (entry.current,{cache with entries := entries.set layerIdx (some entry), seqLen})

def replicateEntry (batch : Nat) (maxSeqLen : Option Nat) :
    Option (KVCacheEntry κ) → Except String (Option (KVCacheEntry κ))
  | none => .ok none
  | some entry => do
    let entry ← newEntry (entry.current.repeated batch) maxSeqLen
    .ok (some entry)

def replicateBatch (cache : KVCache κ) (batch : Nat) : Except String (KVCache κ) := do
  if batch = 0 then .error "replicate_batch requires batch > 0" else
  if batch = 1 then .ok cache else
  let entries ← cache.entries.mapM (replicateEntry batch cache.maxSeqLen)
  .ok {cache with entries}

/- An entry has the columns its cache counts, so the narrowed backing is a part of the current one. -/
def row0Prefix (prefixLen : Nat) (out : KVCache κ) : Option (KVCacheEntry κ) × Nat → Except String (KVCache κ)
  | (none,_) => .ok out
  | (some entry,layerIdx) => do
    if entry.current.rows = [] ∨ entry.seqLen < prefixLen then .error "narrow invalid args" else
    let (_,out) ← update out layerIdx (entry.current.firstRow.columns 0 prefixLen)
    .ok out

def row0PrefixTemplate (cache : KVCache κ) (prefixLen : Nat) : Except String (KVCache κ) := do
  if prefixLen = 0 ∨ cache.seqLen < prefixLen then
    .error s!"prefix template len out of range: prefix_len={prefixLen} seq_len={cache.seqLen}"
  else cache.entries.zipIdx.foldlM (row0Prefix prefixLen) (withNumLayers cache.entries.length)

section Update
variable {cache cache' : KVCache κ} {layerIdx m i : Nat} {key keys : Grid κ}

def entryLen (cache : KVCache κ) (m : Nat) : Nat := ((get cache m).map KVCacheEntry.seqLen).getD 0

def rowKeys (cache : KVCache κ) (m i : Nat) : List κ :=
  ((get cache m).bind fun entry => entry.current.rows[i]?).getD []

theorem rowKeysSome {entry : KVCacheEntry κ} (found : get cache m = some entry) :
    rowKeys cache m i = (entry.current.rows[i]?).getD [] := by
  rw [rowKeys,found]
  rfl

theorem joinPadded {ε : Type} (entries : List (Option ε)) (n m : Nat) :
    (entries ++ List.replicate n none)[m]?.join = entries[m]?.join := by
  rcases Nat.lt_or_ge m entries.length with inside | past
  · rw [List.getElem?_append_left inside]
  · rw [List.getElem?_append_right past,List.getElem?_replicate,List.getElem?_eq_none past]
    split <;> rfl

theorem getSet (cache : KVCache κ) (layerIdx : Nat) (entry : KVCacheEntry κ) (seqLen m : Nat) :
    get {cache with
      entries := (cache.entries ++ List.replicate (layerIdx+1-cache.entries.length) none).set layerIdx (some entry)
      seqLen} m = if m = layerIdx then some entry else get cache m := by
  unfold get
  dsimp only
  split
  · next same =>
    subst same
    rw [List.getElem?_set_self (by simp; omega)]
    rfl
  · next other =>
    rw [List.getElem?_set_ne (Ne.symm other),joinPadded]

structure Updated (cache : KVCache κ) (layerIdx : Nat) (key keys : Grid κ) (cache' : KVCache κ) : Prop where
  here : ∃ entry, get cache' layerIdx = some entry ∧ entry.current = keys
  others : ∀ m, m ≠ layerIdx → get cache' m = get cache m
  reserved : cache'.maxSeqLen = cache.maxSeqLen
  counted : cache'.seqLen = if layerIdx = 0 then
    (if (get cache layerIdx).isSome then cache.seqLen+key.width else key.width) else cache.seqLen
  first : get cache layerIdx = none → keys = key
  appended : ∀ entry, get cache layerIdx = some entry →
    key.rows.length = entry.current.rows.length ∧ keys = entry.current.append key

theorem newEntryCurrent {maxSeqLen : Option Nat} {entry : KVCacheEntry κ}
    (ok : newEntry key maxSeqLen = .ok entry) : entry.current = key := by
  unfold newEntry at ok
  split at ok
  · split at ok <;> cases ok
    rfl
  · cases ok
    rfl

theorem appendToBackingOk {maxSeqLen : Option Nat} {entry entry' : KVCacheEntry κ}
    (ok : appendToBacking entry key maxSeqLen = .ok entry') :
    key.rows.length = entry.current.rows.length ∧ entry'.current = entry.current.append key := by
  obtain ⟨grown,_,ok⟩ := exceptBind.mp ok
  split at ok <;> cases ok
  next same => exact ⟨Decidable.not_not.mp same,rfl⟩

theorem updateOk (ok : update cache layerIdx key = .ok (keys,cache')) : Updated cache layerIdx key keys cache' := by
  unfold update at ok
  cases found : get cache layerIdx with
  | none =>
    simp only [found] at ok
    obtain ⟨entry,made,ok⟩ := exceptBind.mp ok
    have current := newEntryCurrent made
    cases ok
    exact {
      here := ⟨entry,by rw [getSet,if_pos rfl],rfl⟩
      others := fun m other => by rw [getSet,if_neg other]
      reserved := rfl
      counted := by simp [found]
      first := fun _ => current
      appended := fun entry there => by cases found.symm.trans there}
  | some before =>
    simp only [found] at ok
    obtain ⟨entry,made,ok⟩ := exceptBind.mp ok
    obtain ⟨batch,current⟩ := appendToBackingOk made
    cases ok
    exact {
      here := ⟨entry,by rw [getSet,if_pos rfl],rfl⟩
      others := fun m other => by rw [getSet,if_neg other]
      reserved := rfl
      counted := by simp [found]
      first := fun there => by cases found.symm.trans there
      appended := fun other there => by
        cases found.symm.trans there
        exact ⟨batch,current⟩}

theorem updateGoes (batch : ∀ entry, get cache layerIdx = some entry → entry.current.rows.length = key.rows.length)
    (room : ∀ maxLen, cache.maxSeqLen = some maxLen → entryLen cache layerIdx+key.width ≤ maxLen) :
    ∃ keys cache', update cache layerIdx key = .ok (keys,cache') := by
  unfold update
  cases found : get cache layerIdx with
  | none =>
    have made : ∃ entry, newEntry key cache.maxSeqLen = .ok entry := by
      unfold newEntry
      split
      · next maxLen reserved =>
        have fits := room maxLen reserved
        exact ⟨_,dif_pos (by omega)⟩
      · exact ⟨_,rfl⟩
    obtain ⟨entry,made⟩ := made
    simp only [made]
    exact ⟨_,_,rfl⟩
  | some before =>
    have rows := batch before found
    have made : ∃ grown, grownCapacity before.capacitySeqLen (before.seqLen+key.width) cache.maxSeqLen = .ok grown := by
      unfold grownCapacity
      split
      · exact ⟨_,rfl⟩
      · split
        · next maxLen reserved =>
          have fits := room maxLen reserved
          rw [entryLen,found] at fits
          exact ⟨_,dif_pos fits⟩
        · exact ⟨_,rfl⟩
    obtain ⟨grown,made⟩ := made
    have goes : appendToBacking before key cache.maxSeqLen =
        .ok ⟨before.current.append key,grown.val,grown.property⟩ := by
      unfold appendToBacking
      simp only [made,bind,Except.bind]
      rw [if_neg (by rw [rows]; exact fun other => other rfl)]
    simp only [goes]
    exact ⟨_,_,rfl⟩

theorem updatedRow {row : List κ} (updated : Updated cache layerIdx key keys cache')
    (found : key.rows[i]? = some row) : keys.rows[i]? = some (rowKeys cache layerIdx i ++ row) := by
  cases before : get cache layerIdx with
  | none =>
    rw [updated.first before,found,rowKeys,before]
    rfl
  | some entry =>
    obtain ⟨batch,rfl⟩ := updated.appended entry before
    have bound := (List.getElem?_eq_some_iff.mp found).1
    have inside : entry.current.rows[i]? = some entry.current.rows[i] := List.getElem?_eq_getElem (by omega)
    rw [rowKeysSome before,inside]
    exact Grid.appendRow inside found

theorem updatedKeys {row : List κ} (updated : Updated cache layerIdx key keys cache')
    (found : key.rows[i]? = some row) : rowKeys cache' layerIdx i = rowKeys cache layerIdx i ++ row := by
  obtain ⟨entry,here,rfl⟩ := updated.here
  rw [rowKeysSome here,updatedRow updated found]
  rfl

theorem updatedOthers (updated : Updated cache layerIdx key keys cache') (other : m ≠ layerIdx) :
    rowKeys cache' m i = rowKeys cache m i := by
  rw [rowKeys,updated.others m other,rowKeys]

end Update

section Template
variable {cache template : KVCache κ} {prefixLen batch : Nat}

structure CutFrom (prefixLen : Nat) (entry : KVCacheEntry κ) (cut : KVCacheEntry κ) : Prop where
  current : cut.current = entry.current.firstRow.columns 0 prefixLen
  some : entry.current.rows ≠ []
  within : prefixLen ≤ entry.seqLen

theorem row0PrefixOk {out out' : KVCache κ} {entry : KVCacheEntry κ} {m : Nat}
    (ok : row0Prefix prefixLen out (some entry,m) = .ok out') :
    ∃ keys, Updated out m (entry.current.firstRow.columns 0 prefixLen) keys out' ∧
      entry.current.rows ≠ [] ∧ prefixLen ≤ entry.seqLen := by
  unfold row0Prefix at ok
  dsimp only at ok
  split at ok
  · cases ok
  · next holds =>
    obtain ⟨⟨keys,_⟩,updates,ok⟩ := exceptBind.mp ok
    cases ok
    obtain ⟨some,within⟩ := not_or.mp holds
    exact ⟨keys,updateOk updates,some,Nat.not_lt.mp within⟩

theorem row0FoldOk {entries : List (Option (KVCacheEntry κ))} {first : Nat} {out : KVCache κ}
    (fresh : ∀ m, first ≤ m → get out m = none)
    (ok : (entries.zipIdx first).foldlM (row0Prefix prefixLen) out = .ok template) :
    template.maxSeqLen = out.maxSeqLen ∧ (first ≠ 0 → template.seqLen = out.seqLen) ∧
    (∀ m, m < first → get template m = get out m) ∧
    ∀ j entry, entries[j]? = some (some entry) →
      ∃ cut, get template (first+j) = some cut ∧ CutFrom prefixLen entry cut := by
  induction entries generalizing first out with
  | nil =>
    cases ok
    exact ⟨rfl,fun _ => rfl,fun _ _ => rfl,fun j entry found => by cases found⟩
  | cons head entries ih =>
    obtain ⟨out',step,rest⟩ := exceptBind.mp ok
    have last (j : Nat) : first+1+j = first+(j+1) := by omega
    cases head with
    | none =>
      cases step
      have tail := ih (fun m later => fresh m (by omega)) rest
      refine ⟨tail.1,fun _ => tail.2.1 (Nat.succ_ne_zero _),fun m before => tail.2.2.1 m (by omega),
        fun j entry found => ?_⟩
      cases j with
      | zero => cases found
      | succ j => exact last j ▸ tail.2.2.2 j entry found
    | some head =>
      obtain ⟨keys,updated,some,within⟩ := row0PrefixOk step
      have tail := ih (fun m later => by rw [updated.others m (by omega)]; exact fresh m (by omega)) rest
      refine ⟨tail.1.trans updated.reserved,fun later => ?_,fun m before => ?_,fun j entry found => ?_⟩
      · rw [tail.2.1 (Nat.succ_ne_zero _),updated.counted,if_neg later]
      · rw [tail.2.2.1 m (by omega),updated.others m (by omega)]
      · cases j with
        | zero =>
          cases found
          obtain ⟨cut,here,current⟩ := updated.here
          rw [updated.first (fresh first (Nat.le_refl _))] at current
          exact ⟨cut,by rw [Nat.add_zero,tail.2.2.1 first (Nat.lt_succ_self _),here],current,some,within⟩
        | succ j => exact last j ▸ tail.2.2.2 j entry found

theorem freshNone (numLayers m : Nat) : get (withNumLayers numLayers : KVCache κ) m = none := by
  rw [get,withNumLayers,List.getElem?_replicate]
  split <;> rfl

theorem freshReserved (numLayers maxSeqLen m : Nat) : get (withMaxSeqLen numLayers maxSeqLen : KVCache κ) m = none :=
  freshNone numLayers m

/-- Every layer of a template holds the first columns of the first row. -/
theorem row0PrefixTemplateOk (ok : row0PrefixTemplate cache prefixLen = .ok template) :
    template.maxSeqLen = none ∧ ((get cache 0).isSome → template.seqLen = prefixLen) ∧
    ∀ m entry, get cache m = some entry → ∃ cut, get template m = some cut ∧ CutFrom prefixLen entry cut := by
  unfold row0PrefixTemplate at ok
  split at ok
  · cases ok
  · have spec := row0FoldOk (fun m _ => freshNone cache.entries.length m) ok
    have stored {m : Nat} {entry : KVCacheEntry κ} (found : get cache m = some entry) :
        cache.entries[m]? = some (some entry) :=
      Option.join_eq_some_iff.mp found
    refine ⟨spec.1,fun filled => ?_,fun m entry found => by simpa using spec.2.2.2 m entry (stored found)⟩
    obtain ⟨entry,found⟩ := Option.isSome_iff_exists.mp filled
    obtain ⟨head,tail,same⟩ : ∃ head tail, cache.entries = head::tail :=
      List.exists_cons_of_ne_nil fun none => by
        have there := stored found
        rw [none] at there
        cases there
    have first : head = some entry := by
      have there := stored found
      rw [same] at there
      exact Option.some.inj there
    subst first
    rw [same] at ok
    obtain ⟨out,step,rest⟩ := exceptBind.mp ok
    obtain ⟨keys,updated,_,within⟩ := row0PrefixOk step
    have tail := row0FoldOk (fun m later => by rw [updated.others m (by omega)]; exact freshNone _ m) rest
    have width : (entry.current.firstRow.columns 0 prefixLen).width = prefixLen := Nat.min_eq_left within
    rw [tail.2.1 Nat.one_ne_zero,updated.counted,if_pos rfl,width,freshNone]
    rfl

theorem replicateBatchGoes (unreserved : cache.maxSeqLen = none) (several : 2 ≤ batch) :
    ∃ copies, replicateBatch cache batch = .ok copies ∧ copies.seqLen = cache.seqLen ∧ copies.maxSeqLen = none ∧
      ∀ m, (get copies m).map KVCacheEntry.current =
        (get cache m).map fun entry => entry.current.repeated batch := by
  have each (stored : Option (KVCacheEntry κ)) : ∃ copy, replicateEntry batch cache.maxSeqLen stored = .ok copy ∧
      copy.map KVCacheEntry.current = stored.map fun entry => entry.current.repeated batch := by
    rw [unreserved]
    cases stored with
    | none => exact ⟨none,rfl,rfl⟩
    | some entry => exact ⟨some _,rfl,rfl⟩
  choose copy made current using each
  have entries : cache.entries.mapM (replicateEntry batch cache.maxSeqLen) = .ok (cache.entries.map copy) :=
    exceptMapAll fun stored _ => made stored
  refine ⟨{cache with entries := cache.entries.map copy},?_,rfl,unreserved,fun m => ?_⟩
  · unfold replicateBatch
    rw [if_neg (by omega),if_neg (by omega)]
    exact exceptBind.mpr ⟨_,entries,rfl⟩
  · unfold get
    dsimp only
    rw [List.getElem?_map]
    cases cache.entries[m]? with
    | none => rfl
    | some stored => exact current stored

end Template

end Qwen3Asr.KvCache
