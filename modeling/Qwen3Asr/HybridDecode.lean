import Qwen3Asr.HybridPrefill

/-! Masked decoding over a rebuilt cache. Rows of the cache have their tokens in front whatever the
padding of the batch was, while the mask keeps the columns of the batch. -/
namespace Qwen3Asr.HybridDecode
open Library Library.Effect Library.Word Library.CausalStack Tensor
open PagedMetadata PromptPositions BatchEngine CausalMask KvCache EagerThinker EagerRows BatchPrefill EagerGeneration EagerDecode
open PrefillOutcome PagedRebuild HybridPrefill

section Run
variable {φ η κ : Type} {thinker : CausalThinker φ η κ} {batch n m i : Nat} {start columns columns' : CachedColumns κ}

inductive Decoded (thinker : CausalThinker φ η κ) (batch : Nat) (start : CachedColumns κ) : Nat → CachedColumns κ → Prop
  | start : Decoded thinker batch start 0 start
  | step {n : Nat} {columns columns' : CachedColumns κ} {positions : List Int} {tokens next : List Nat} (before : Decoded thinker batch start n columns)
      (placed : positions.length = batch) (fed : tokens.length = batch)
      (ok : decodeColumn thinker false (positions.map ([·])) tokens columns = .ok (next,columns')) :
      Decoded thinker batch start (n+1) columns'

def unmasked (columns : CachedColumns κ) (m i : Nat) : List κ :=
  visible (holdsBits (columns.attentionMaskTotal.rows.getD i [])) (rowKeys columns.cache m i)

theorem layersAdd {allowed : Option (List (List (List Bool)))} {layers : List (Layer η Int κ)} {positionIds : Grid Int}
    {hidden out : Grid η} {cache cache' : KVCache κ} {first : Nat}
    (ok : forwardCachedLayers allowed positionIds layers first hidden cache = .ok (out,cache'))
    (same : SameShape hidden positionIds) (one : hidden.width = 1) (inside : i < hidden.rows.length) :
    (∀ m, m < first → rowKeys cache' m i = rowKeys cache m i) ∧
      ∀ m, m < layers.length → ∃ key, rowKeys cache' (first+m) i = rowKeys cache (first+m) i ++ [key] := by
  induction layers generalizing first hidden cache with
  | nil =>
    cases ok
    exact ⟨fun _ _ => rfl,fun m bound => absurd bound (Nat.not_lt_zero m)⟩
  | cons layer layers ih =>
    obtain ⟨⟨keys,cache₁⟩,updates,ok⟩ := exceptBind.mp ok
    obtain ⟨_,_,ok⟩ := exceptBind.mp ok
    have updated := updateOk updates
    obtain ⟨keyRows,keyWidth⟩ := keyShape layer same
    obtain ⟨rows,width⟩ := attentionShape layer allowed keys same
    have bound : i < (Grid.zipWith layer.project hidden positionIds).rows.length := by rwa [keyRows]
    have found := List.getElem?_eq_getElem bound
    have single := Grid.rowLength found
    rw [keyWidth,one] at single
    obtain ⟨key,column⟩ := List.length_eq_one_iff.mp single
    rw [column] at found
    obtain ⟨before,each⟩ := ih ok (attentionSame layer allowed keys same) (width.trans one) (by rwa [rows])
    refine ⟨fun m earlier => ?_,fun m bound => ?_⟩
    · rw [before m (by omega),updatedOthers updated (by omega)]
    · cases m with
      | zero => exact ⟨key,by rw [Nat.add_zero,before first (Nat.lt_succ_self _),updatedKeys updated found]⟩
      | succ m =>
        obtain ⟨later,added⟩ := each m (Nat.lt_of_succ_lt_succ bound)
        rw [updatedOthers updated (by omega),Nat.add_assoc,Nat.add_comm 1 m] at added
        exact ⟨later,added⟩

structure Stepped (thinker : CausalThinker φ η κ) (batch : Nat) (columns columns' : CachedColumns κ) : Prop where
  mask : ∀ i, i < batch → ∀ row, columns.attentionMaskTotal.rows[i]? = some row →
    columns'.attentionMaskTotal.rows[i]? = some (row ++ [1])
  keys : ∀ m, m < thinker.layers.length → ∀ i, i < batch → ∃ key, rowKeys columns'.cache m i = rowKeys columns.cache m i ++ [key]
  attended : ∃ allowed, makeCausalMaskCached (some (tokenMask columns'.attentionMaskTotal)) batch columns.cache.seqLen 1 = .ok allowed ∧
    ∀ m i, i < batch → allowedKeys (some allowed) i 0 (rowKeys columns'.cache m i) = unmasked columns' m i

theorem stepped {positions : List Int} {tokens next : List Nat} (placed : positions.length = batch) (fed : tokens.length = batch)
    (ok : decodeColumn thinker false (positions.map ([·])) tokens columns = .ok (next,columns')) :
    Stepped thinker batch columns columns' := by
  obtain ⟨positionIds,made,ok⟩ := exceptBind.mp ok
  rw [if_neg Bool.false_ne_true] at ok
  obtain ⟨⟨logits,cache⟩,forward,ok⟩ := exceptBind.mp ok
  cases ok
  obtain ⟨positionRows,positionWidth,_⟩ := tensorOk.mp made
  generalize embedded : (tokenColumn tokens).map (fun id => thinker.embed ⟨id,none⟩) = embeds at forward
  have size : embeds.rows.length = batch := by simp [← embedded,Grid.map,tokenColumn,fed]
  have one : embeds.width = 1 := by simp [← embedded,Grid.map,tokenColumn]
  have same : SameShape embeds positionIds := ⟨by simp [positionRows,placed,size],by rw [positionWidth,one]⟩
  unfold forwardEmbedsWithKvCache at forward
  dsimp only at forward
  split at forward <;> try contradiction
  next rows =>
  split at forward <;> try contradiction
  next width =>
  obtain ⟨allowed,masked,forward⟩ := exceptBind.mp forward
  obtain ⟨⟨hidden,_⟩,ran,forward⟩ := exceptBind.mp forward
  cases forward
  rw [size,one] at masked
  refine ⟨fun i inside row found => ?_,fun m bound i inside => ?_,allowed,masked,fun m i inside => ?_⟩
  · have ones : (tokenColumn (tokens.map fun _ => 1)).rows[i]? = some [1] := by simp [tokenColumn,fed,inside]
    exact Grid.appendRow found ones
  · have added := (layersAdd ran same one (by rwa [size])).2 m bound
    rwa [Nat.zero_add] at added
  · obtain ⟨row,found⟩ : ∃ row, (Grid.append columns.attentionMaskTotal (tokenColumn (tokens.map fun _ => 1))).rows[i]? = some row :=
      ⟨_,List.getElem?_eq_getElem (by rw [not_not.mp rows,size]; exact inside)⟩
    have length := Grid.rowLength found
    rw [not_not.mp width,one] at length
    have whole : (holdsBits row).take (columns.cache.seqLen+0+1) = holdsBits row :=
      List.take_of_length_le (by rw [holdsBits,List.length_map,length])
    rw [allowedCached masked found Nat.one_pos,whole,unmasked,List.getD_eq_getElem?_getD,found]
    rfl

theorem decodedAdds (run : Decoded thinker batch start n columns) (inside : i < batch) {row : List Nat}
    (found : start.attentionMaskTotal.rows[i]? = some row) :
    columns.attentionMaskTotal.rows[i]? = some (row ++ List.replicate n 1) ∧
      ∀ m, m < thinker.layers.length → ∃ fed, fed.length = n ∧ rowKeys columns.cache m i = rowKeys start.cache m i ++ fed := by
  induction run with
  | start => exact ⟨by simpa using found,fun m _ => ⟨[],rfl,(List.append_nil _).symm⟩⟩
  | step before placed fed ok ih =>
    obtain ⟨mask,keys⟩ := ih
    have added := stepped placed fed ok
    refine ⟨?_,fun m bound => ?_⟩
    · rw [added.mask i inside _ mask,List.append_assoc,List.replicate_succ']
    · obtain ⟨earlier,length,same⟩ := keys m bound
      obtain ⟨key,last⟩ := added.keys m bound i inside
      exact ⟨earlier ++ [key],by rw [List.length_append,length]; rfl,by rw [last,same,List.append_assoc]⟩

theorem unmaskedDecoded (run : Decoded thinker batch start n columns) (inside : i < batch) (bound : m < thinker.layers.length)
    {row : List Nat} (found : start.attentionMaskTotal.rows[i]? = some row) (width : row.length = (rowKeys start.cache m i).length) :
    (rowKeys columns.cache m i).length = row.length+n ∧
      unmasked columns m i = unmasked start m i ++ (rowKeys columns.cache m i).drop row.length := by
  obtain ⟨mask,keys⟩ := decodedAdds run inside found
  obtain ⟨fed,length,same⟩ := keys m bound
  have ones : visible (holdsBits (List.replicate n 1)) fed = fed :=
    visibleAll (fun b there => by
      obtain ⟨one,member,rfl⟩ := List.mem_map.mp there
      rw [List.eq_of_mem_replicate member]
      rfl) (by simp [holdsBits,length])
  have bits : holdsBits (row ++ List.replicate n 1) = holdsBits row ++ holdsBits (List.replicate n 1) := List.map_append
  refine ⟨by rw [same,List.length_append,length,width],?_⟩
  rw [unmasked,unmasked,List.getD_eq_getElem?_getD,List.getD_eq_getElem?_getD,mask,found,same,Option.getD_some,Option.getD_some,
    bits,visibleAppend (by simpa [holdsBits] using width),ones,width,List.drop_left]

end Run

section Padding
variable {α : Type} [Zero α] {shape : CacheShape} {seqLen : Nat} {mask : List Nat} {token : Nat → Entry α}

def validColumns (mask : List Nat) : List Nat := (List.range mask.length).filter fun c => decide (mask.getD c 0 ≠ 0)

theorem holdsRange (mask : List Nat) : holdsBits mask = (List.range mask.length).map fun c => decide (mask.getD c 0 ≠ 0) := by
  refine List.ext_getElem (by simp [holdsBits]) fun c inside _ => ?_
  have bound : c < mask.length := by simpa [holdsBits] using inside
  simp [holdsBits,bound]

theorem visibleRebuilt (width : mask.length = seqLen) (len : Nat) : visible (holdsBits mask) (rebuiltColumns shape seqLen len token) =
    (validColumns mask).map fun c => if c < len then token c else zeroEntry α shape := by
  rw [holdsRange,width,rebuiltColumns,visibleMap,validColumns,width]

theorem memValidColumns {c : Nat} : c ∈ validColumns mask ↔ ∃ m, mask[c]? = some m ∧ m ≠ 0 := by
  rw [validColumns,List.mem_filter,List.mem_range,decide_eq_true_iff]
  constructor
  · rintro ⟨bound,holds⟩
    rw [List.getD_eq_getElem _ _ bound] at holds
    exact ⟨_,List.getElem?_eq_getElem bound,holds⟩
  · rintro ⟨m,found,holds⟩
    refine ⟨(List.getElem?_eq_some_iff.mp found).1,?_⟩
    rwa [List.getD_eq_getElem?_getD,found]

theorem validFront (padded : attentionMaskIsRightPadded mask = true) : validColumns mask = List.range (validLen mask) := by
  obtain ⟨valid,pads,rfl,nonzero,zero⟩ := rightPaddedParts.mp padded
  have front : (List.range valid.length).filter (fun c => decide ((valid ++ pads).getD c 0 ≠ 0)) = List.range valid.length := by
    refine List.filter_eq_self.mpr fun c inside => decide_eq_true ?_
    have bound := List.mem_range.mp inside
    rw [List.getD_append _ _ _ _ bound,List.getD_eq_getElem _ _ bound]
    exact nonzero _ (List.getElem_mem bound)
  have behind : ((List.range pads.length).map (valid.length + ·)).filter (fun c => decide ((valid ++ pads).getD c 0 ≠ 0)) = [] := by
    refine List.filter_eq_nil_iff.mpr fun c inside => ?_
    obtain ⟨k,member,rfl⟩ := List.mem_map.mp inside
    have bound := List.mem_range.mp member
    rw [List.getD_append_right _ _ _ _ (Nat.le_add_right _ _),Nat.add_sub_cancel_left,List.getD_eq_getElem _ _ bound,
      zero _ (List.getElem_mem bound)]
    simp
  rw [validLenAppend nonzero zero,validColumns,List.length_append,List.range_add,List.filter_append,front,behind,List.append_nil]

theorem frontPadded (front : ∀ c ∈ validColumns mask, c < validLen mask) : attentionMaskIsRightPadded mask = true := by
  have zero : ∀ m ∈ mask.drop (validLen mask), m = 0 := by
    intro m inside
    obtain ⟨k,found⟩ := List.mem_iff_getElem?.mp inside
    rw [List.getElem?_drop] at found
    by_contra holds
    have before := front _ (memValidColumns.mpr ⟨m,found,holds⟩)
    omega
  have none : (mask.drop (validLen mask)).countP (· ≠ 0) = 0 := List.countP_eq_zero.mpr (by simpa using zero)
  have counted : (mask.take (validLen mask)).countP (· ≠ 0) = (mask.take (validLen mask)).length := by
    have split : (mask.take (validLen mask) ++ mask.drop (validLen mask)).countP (· ≠ 0) =
        (mask.take (validLen mask)).countP (· ≠ 0)+(mask.drop (validLen mask)).countP (· ≠ 0) := List.countP_append
    rw [List.take_append_drop,none,Nat.add_zero] at split
    rw [List.length_take,Nat.min_eq_left (validLenLe mask)]
    exact split.symm
  refine rightPaddedParts.mpr ⟨_,_,(List.take_append_drop (validLen mask) mask).symm,fun m inside => ?_,zero⟩
  simpa using List.countP_eq_length.mp counted m inside

end Padding

section Exact
variable {φ : Type}

/- What decoding sees of a row after `n` steps: the tokens the call wrote, which are the valid ones in
order, and the keys fed since. -/
structure RowExact {α : Type} [Zero α] (call : ForwardCall φ) (seqLen n m i : Nat) (token : Nat → Entry α) (ids mask : List Nat)
    (columns : CachedColumns (Entry α)) : Prop where
  written : ∃ row, call.columns[i]? = some row ∧ (row.take (validLen mask)).map Column.id = validIds ids mask
  length : (rowKeys columns.cache m i).length = seqLen+n
  seen : unmasked columns m i = (List.range (validLen mask)).map token ++ (rowKeys columns.cache m i).drop seqLen

/-- Whatever the call has written to the paged cache, the cache is rebuilt from it, and in every run of the
masked decode every row of every layer is exact. -/
def RebuiltExact (cache : PagedKvCache) (call : ForwardCall φ) (inputIds attentionMask : List (List Nat)) (state : PagedBatchState)
    (maxNewTokens : Nat) : Prop :=
  let seqLen := (inputIds.headD []).length
  ∀ (α η : Type) [Zero α] (thinker : CausalThinker φ η (Entry α)) (shape : CacheShape) (layers : List (CacheLayer α))
    (token : Nat → Nat → Nat → Entry α),
    (∀ m, m < thinker.layers.length → ∃ layer, layers[m]? = some layer ∧
      Written cache call.metadata.slotMapping seqLen shape layer (token m)) →
    ∃ kvCache mask, rebuildKvCacheFromPagedPrefill thinker layers cache.blockSize state seqLen maxNewTokens = .ok kvCache ∧
      tensor seqLen attentionMask = .ok mask ∧
      ∀ n columns, Decoded thinker inputIds.length ⟨kvCache,mask⟩ n columns →
        ∀ m i ids row, m < thinker.layers.length → inputIds[i]? = some ids → attentionMask[i]? = some row →
          RowExact call seqLen n m i (token m i) ids row columns

variable {thinker : Thinker φ} {inputIds attentionMask : List (List Nat)} {audioFeatures : Option (List φ)}
  {config : PagedBatchConfig} {r t : PagedCacheRuntime φ} {state : PagedBatchState} {maxNewTokens : Nat}

theorem prefillSeqLen (p : PrefillOk thinker inputIds attentionMask audioFeatures config r state t) :
    (inputIds.headD []).length = p.seqLen := by
  obtain ⟨some,_,_,widths,_⟩ := promptRowsParts p.checked
  cases inputIds with
  | nil => cases some
  | cons ids rest => exact widths ids List.mem_cons_self

structure RowPrefilled (p : PrefillOk thinker inputIds attentionMask audioFeatures config r state t) (i : Nat) (ids mask : List Nat) :
    Prop where
  width : mask.length = p.seqLen
  written : ∃ row, p.prefilled.call.columns[i]? = some row ∧ (row.take (validLen mask)).map Column.id = validIds ids mask
  entry : ∃ entry, state.rows[i]? = some entry ∧ entry.promptLenUsize = validLen mask

theorem rowPrefilled (p : PrefillOk thinker inputIds attentionMask audioFeatures config r state t)
    (metal : thinker.usePackedCudaPrefill = false) {i : Nat} {ids mask : List Nat} (left : inputIds[i]? = some ids)
    (right : attentionMask[i]? = some mask) : RowPrefilled p i ids mask := by
  obtain ⟨_,_,_,columns⟩ := paddedCall metal p.call
  have bound := (List.getElem?_eq_some_iff.mp left).1
  have lengths := (prefilledRow p).1
  have counted := (promptRowsOk p.checked).1
  have there : state.rows[i]? = some state.rows[i] := List.getElem?_eq_getElem (by omega)
  obtain ⟨prompt,found,_,len⟩ := rowParts p there
  obtain ⟨ids',mask',left',right',width,front⟩ := promptRowAt p.checked found
  obtain rfl : ids = ids' := Option.some.inj (left.symm.trans left')
  obtain rfl : mask = mask' := Option.some.inj (right.symm.trans right')
  refine ⟨width,?_,_,there,len.trans front.len⟩
  have row : (p.prefilled.call.columns.map (List.map Column.id))[i]? = some prompt.ids := by
    rw [columns,List.getElem?_map,found]
    rfl
  rw [List.getElem?_map] at row
  obtain ⟨row,called,tokens⟩ := Option.map_eq_some_iff.mp row
  exact ⟨row,called,by rw [List.map_take,tokens,← front.len,front.ids]⟩

theorem rebuiltStart (p : PrefillOk thinker inputIds attentionMask audioFeatures config r state t)
    (metal : thinker.usePackedCudaPrefill = false) (sized : 0 < r.cache.blockSize) (room : p.seqLen+maxNewTokens < 2^64)
    {α η : Type} [Zero α] {eager : CausalThinker φ η (Entry α)} {shape : CacheShape} {layers : List (CacheLayer α)}
    {token : Nat → Nat → Nat → Entry α} (written : ∀ m, m < eager.layers.length → ∃ layer, layers[m]? = some layer ∧
      Written r.cache p.prefilled.call.metadata.slotMapping p.seqLen shape layer (token m)) :
    ∃ kvCache mask, rebuildKvCacheFromPagedPrefill eager layers r.cache.blockSize state p.seqLen maxNewTokens = .ok kvCache ∧
      tensor p.seqLen attentionMask = .ok mask ∧ mask.rows = attentionMask ∧
      ∀ m i ids row, m < eager.layers.length → inputIds[i]? = some ids → attentionMask[i]? = some row →
        rowKeys kvCache m i = rebuiltColumns shape p.seqLen (validLen row) (token m i) := by
  obtain ⟨some,_,masks,_,_⟩ := promptRowsParts p.checked
  obtain ⟨mask,made⟩ := tensorGoes masks
  obtain ⟨layer,_,first⟩ := written 0 (List.length_pos_of_ne_nil eager.deep)
  have several : state.rows ≠ [] := fun none => by
    have lengths := (prefilledRow p).1
    rw [none,List.length_nil] at lengths
    omega
  obtain ⟨kvCache,rebuilt,each⟩ := @rebuildOk _ _ shape p.seqLen φ η eager layers token state maxNewTokens
    (first.blockSize ▸ sized) several room fun m bound => by
      obtain ⟨layer,found,holds⟩ := written m bound
      exact ⟨layer,found,writtenStored p metal sized holds⟩
  rw [first.blockSize] at rebuilt
  refine ⟨kvCache,mask,rebuilt,made,(tensorOk.mp made).1,fun m i ids row bound left right => ?_⟩
  obtain ⟨entry,there,len⟩ := (rowPrefilled p metal left right).entry
  rw [each m bound i entry there,len]

theorem startSeen {α : Type} [Zero α] {shape : CacheShape} {token : Nat → Entry α} {kvCache : KVCache (Entry α)} {mask : Grid Nat}
    {seqLen m i : Nat} {row : List Nat} (rows : mask.rows = attentionMask) (found : attentionMask[i]? = some row)
    (width : row.length = seqLen) (keys : rowKeys kvCache m i = rebuiltColumns shape seqLen (validLen row) token) :
    unmasked ⟨kvCache,mask⟩ m i = (validColumns row).map fun c => if c < validLen row then token c else zeroEntry α shape := by
  rw [unmasked,rows,List.getD_eq_getElem?_getD,found,keys]
  exact visibleRebuilt width _

def sameEntry : Entry Nat := (ofFn [1,1] fun _ => 1,ofFn [1,1] fun _ => 1)

def oneHead (cache : PagedKvCache) : CacheShape := ⟨cache.numBlocks,1,1,1,cache.blockSize,by decide⟩

def sameLayer (cache : PagedKvCache) : CacheLayer Nat :=
  ⟨ofFn [cache.numBlocks,1,1,cache.blockSize,1] fun _ => 1,ofFn [cache.numBlocks,1,1,cache.blockSize] fun _ => 1⟩

def sameThinker (φ : Type) : CausalThinker φ Unit (Entry Nat) where
  audioTokenId := 0
  embed _ := ()
  layers := [⟨fun _ _ => sameEntry,fun hidden _ _ => hidden⟩]
  deep := List.cons_ne_nil _ _
  pick _ := 0

theorem sameGet {h e : Nat} (head : h < 1) (part : e < 1) : (ofFn [1,1] fun _ => (1:Nat)).get [h,e] = 1 :=
  getOfFn (.cons head (.cons part .nil))

theorem sameWritten (cache : PagedKvCache) (slotMapping : List Int) (seqLen : Nat) :
    Written cache slotMapping seqLen (oneHead cache) (sameLayer cache) fun _ _ => sameEntry where
  key := rfl
  value := rfl
  blockSize := rfl
  numBlocks := rfl
  dims _ _ := ⟨rfl,rfl⟩
  keys := fun {i c b o h e} _ _ block offset head part => by
    obtain rfl : e = 0 := Nat.lt_one_iff.mp part
    have stored : (sameLayer cache).keyCache.get [b,h,0/1,o,0%1] = 1 :=
      getOfFn (.cons block (.cons head (.cons Nat.one_pos (.cons offset (.cons Nat.one_pos .nil)))))
    exact stored.trans (sameGet head Nat.one_pos).symm
  values := fun {i c b o h e} _ _ block offset head part => by
    have stored : (sameLayer cache).valueCache.get [b,h,e,o] = 1 :=
      getOfFn (.cons block (.cons head (.cons part (.cons offset .nil))))
    exact stored.trans (sameGet head part).symm

theorem sameNonzero (cache : PagedKvCache) : sameEntry ≠ zeroEntry Nat (oneHead cache) := by
  intro same
  have read : sameEntry.1.get [0,0] = (zeroEntry Nat (oneHead cache)).1.get [0,0] := by rw [same]
  have zero : (zeroEntry Nat (oneHead cache)).1.get [0,0] = 0 := getOfFn (.cons Nat.one_pos (.cons Nat.one_pos .nil))
  exact Nat.one_ne_zero ((sameGet Nat.one_pos Nat.one_pos).symm.trans (read.trans zero))

/- A row with a valid column past its count of valid ones is read at a column without a token. -/
theorem misplaced (p : PrefillOk thinker inputIds attentionMask audioFeatures config r state t)
    (metal : thinker.usePackedCudaPrefill = false) (sized : 0 < r.cache.blockSize) (room : p.seqLen+maxNewTokens < 2^64)
    (exact_ : RebuiltExact r.cache p.prefilled.call inputIds attentionMask state maxNewTokens) :
    attentionMasksAreRightPadded attentionMask = true := by
  have seqLen := prefillSeqLen p
  unfold RebuiltExact at exact_
  dsimp only at exact_
  rw [seqLen] at exact_
  have written : ∀ m, m < (sameThinker φ).layers.length → ∃ layer, [sameLayer r.cache][m]? = some layer ∧
      Written r.cache p.prefilled.call.metadata.slotMapping p.seqLen (oneHead r.cache) layer fun _ _ => sameEntry := by
    intro m bound
    obtain rfl := Nat.lt_one_iff.mp bound
    exact ⟨_,rfl,sameWritten r.cache _ _⟩
  obtain ⟨kvCache,mask,rebuilt,made,each⟩ := exact_ Nat Unit (sameThinker φ) (oneHead r.cache) [sameLayer r.cache]
    (fun _ _ _ => sameEntry) written
  obtain ⟨_,_,again,remade,rows,keys⟩ := rebuiltStart p metal sized room written
  obtain rfl := Except.ok.inj (rebuilt.symm.trans again)
  obtain rfl := Except.ok.inj (made.symm.trans remade)
  refine List.all_eq_true.mpr fun row inside => frontPadded fun c holds => ?_
  obtain ⟨i,right⟩ := List.mem_iff_getElem?.mp inside
  have same := p.even
  have bound : i < inputIds.length := same ▸ (List.getElem?_eq_some_iff.mp right).1
  have left : inputIds[i]? = some inputIds[i] := List.getElem?_eq_getElem bound
  have prefilled := rowPrefilled p metal left right
  have seen := (each 0 _ .start 0 i _ row Nat.one_pos left right).seen
  have found := keys 0 i _ row Nat.one_pos left right
  have length : (rowKeys kvCache 0 i).length = p.seqLen := by rw [found,rebuiltColumns,List.length_map,List.length_range]
  rw [startSeen rows right prefilled.width found,← length,List.drop_length,List.append_nil] at seen
  by_contra past
  have member : zeroEntry Nat (oneHead r.cache) ∈ (List.range (validLen row)).map fun _ => sameEntry := by
    rw [← seen]
    exact List.mem_map.mpr ⟨c,holds,if_neg past⟩
  obtain ⟨_,_,equal⟩ := List.mem_map.mp member
  exact sameNonzero r.cache equal

theorem paddedExact (p : PrefillOk thinker inputIds attentionMask audioFeatures config r state t)
    (metal : thinker.usePackedCudaPrefill = false) (sized : 0 < r.cache.blockSize) (room : p.seqLen+maxNewTokens < 2^64)
    (padded : attentionMasksAreRightPadded attentionMask = true) :
    RebuiltExact r.cache p.prefilled.call inputIds attentionMask state maxNewTokens := by
  unfold RebuiltExact
  dsimp only
  rw [prefillSeqLen p]
  intro α η _ eager shape layers token written
  obtain ⟨kvCache,mask,rebuilt,made,rows,keys⟩ := rebuiltStart p metal sized room written
  refine ⟨kvCache,mask,rebuilt,made,fun n columns run m i ids row bound left right => ?_⟩
  have prefilled := rowPrefilled p metal left right
  have found := keys m i ids row bound left right
  have width : row.length = (rowKeys kvCache m i).length := by
    rw [found,rebuiltColumns,List.length_map,List.length_range,prefilled.width]
  have started : mask.rows[i]? = some row := by rw [rows,right]
  obtain ⟨length,seen⟩ := unmaskedDecoded run (List.getElem?_eq_some_iff.mp left).1 bound started width
  rw [startSeen rows right prefilled.width found,prefilled.width] at seen
  rw [prefilled.width] at length
  refine ⟨prefilled.written,length,seen.trans (congrArg (· ++ _) ?_)⟩
  rw [validFront (List.all_eq_true.mp padded row (List.mem_of_getElem? right))]
  exact List.map_congr_left fun c inside => if_pos (List.mem_range.mp inside)

theorem calledLast (p : PrefillOk thinker inputIds attentionMask audioFeatures config r state t) :
    t.history.head? = some p.prefilled.call := congrArg (fun left : PagedCacheRuntime φ => left.history.head?) p.runtime

/-- The rebuilt cache is exact for a batch just when all its rows are right-padded. -/
theorem rebuiltExactIff {call : ForwardCall φ} (ok : pagedBatchPrefill thinker inputIds attentionMask audioFeatures config r = .ok state t)
    (made : t.history.head? = some call) (metal : thinker.usePackedCudaPrefill = false) (sized : 0 < r.cache.blockSize)
    (room : (inputIds.headD []).length+maxNewTokens < 2^64) :
    RebuiltExact r.cache call inputIds attentionMask state maxNewTokens ↔ attentionMasksAreRightPadded attentionMask = true := by
  obtain ⟨p⟩ := prefillOk ok
  obtain rfl := Option.some.inj ((calledLast p).symm.trans made)
  rw [prefillSeqLen p] at room
  exact ⟨misplaced p metal sized room,paddedExact p metal sized room⟩

end Exact

def secondToken : Thinker Unit := ⟨9,false,fun _ _ => .ok fun _ _ => 2⟩

def eightBlocks : PagedCacheRuntime Unit := ⟨⟨8,9,72,false⟩,BlockManager.new 9 8,[]⟩

theorem rebuiltExactIffTwoRows : ∃ state t call,
    pagedBatchPrefill secondToken [[9,0],[7,9]] [[1,0],[1,1]] (some [(),()]) ⟨4,[5],0⟩ eightBlocks = .ok state t ∧
    t.history.head? = some call ∧ RebuiltExact eightBlocks.cache call [[9,0],[7,9]] [[1,0],[1,1]] state 4 := by
  have accepted : (returned (pagedBatchPrefill secondToken [[9,0],[7,9]] [[1,0],[1,1]] (some [(),()]) ⟨4,[5],0⟩
      eightBlocks)).isSome = true := by decide +kernel
  obtain ⟨state,found⟩ := Option.isSome_iff_exists.mp accepted
  obtain ⟨t,ok⟩ := returnedSome.mp found
  obtain ⟨p⟩ := prefillOk ok
  exact ⟨state,t,p.prefilled.call,ok,calledLast p,(rebuiltExactIff ok (calledLast p) rfl (by decide) (by decide)).mpr rfl⟩

/-- The left-padded batch is accepted, and its first row is decoded from the zeros behind its token. -/
theorem leftPaddedMisplaced : ∃ state t call,
    pagedBatchPrefill secondToken [[0,9],[7,9]] [[0,1],[1,1]] (some [(),()]) ⟨4,[5],0⟩ eightBlocks = .ok state t ∧
    t.history.head? = some call ∧ ¬ RebuiltExact eightBlocks.cache call [[0,9],[7,9]] [[0,1],[1,1]] state 4 := by
  have accepted : (returned (pagedBatchPrefill secondToken [[0,9],[7,9]] [[0,1],[1,1]] (some [(),()]) ⟨4,[5],0⟩
      eightBlocks)).isSome = true := by decide +kernel
  obtain ⟨state,found⟩ := Option.isSome_iff_exists.mp accepted
  obtain ⟨t,ok⟩ := returnedSome.mp found
  obtain ⟨p⟩ := prefillOk ok
  refine ⟨state,t,p.prefilled.call,ok,calledLast p,fun exact_ => ?_⟩
  have padded := misplaced p rfl (by decide) (by rw [← prefillSeqLen p]; decide) exact_
  cases padded

end Qwen3Asr.HybridDecode
