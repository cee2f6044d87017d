import Qwen3Asr.BatchPrefill
import Qwen3Asr.VarlenLayouts

/-! A key/value cache made from the blocks a paged prefill wrote. Keys lie in their blocks with the
head dimension split in two, values with the tokens of a block last; both are turned back, and a row
is filled up with zeros behind its tokens. -/
namespace Qwen3Asr.PagedRebuild
open Library Library.Effect Library.Word Tensor
open PagedMetadata BatchEngine KvCache EagerThinker BatchPrefill VarlenLayouts

variable {α : Type} [Zero α]

abbrev Entry (α : Type) := Tensor α × Tensor α

structure CacheLayer (α : Type) where
  keyCache : Tensor α
  valueCache : Tensor α

section Code

def keyValueCache (layers : List (CacheLayer α)) (layerIdx : Nat) : Except String (CacheLayer α) :=
  okOr layers[layerIdx]? s!"paged kv cache layer out of range: {layerIdx}"

def takeBlock (layer : CacheLayer α) (blockId : Nat) : Except String (Tensor α × Tensor α) := do
  let keyBlock ← layer.keyCache.narrow 0 blockId 1
  let valueBlock ← layer.valueCache.narrow 0 blockId 1
  .ok (keyBlock,valueBlock)

def rowOfBlocks (blocks : Tensor α) (numKvHeads numBlocks blockSize headDim promptLen : Nat) : Except String (Tensor α) := do
  let turned ← blocks.transpose 0 1
  let turned ← turned.transpose 2 3
  let row ← turned.reshape [numKvHeads,numBlocks*blockSize,headDim]
  let row ← row.narrow 1 0 promptLen
  row.unsqueeze 0

def rebuildRow (layer : CacheLayer α) (numKvHeads headDim blockSize seqLen : Nat) :
    PagedBatchRow × Nat → Except String (Tensor α × Tensor α) := fun (entry,row) => do
  let promptLen := entry.promptLenUsize
  let numBlocks := promptLen ⌈/⌉ blockSize
  if entry.blockTable.length < numBlocks then
    .error s!"paged block table too short for row {row}: have={entry.blockTable.length} need={numBlocks}"
  else do
    let blocks ← (entry.blockTable.take numBlocks).mapM (takeBlock layer)
    let keyBlocks ← cat (blocks.map Prod.fst) 0
    let valueBlocks ← cat (blocks.map Prod.snd) 0
    let keyRow ← rowOfBlocks keyBlocks numKvHeads numBlocks blockSize headDim promptLen
    let valueRow ← rowOfBlocks valueBlocks numKvHeads numBlocks blockSize headDim promptLen
    let keyRow ← padTokens keyRow 1 numKvHeads promptLen seqLen headDim
    let valueRow ← padTokens valueRow 1 numKvHeads promptLen seqLen headDim
    .ok (keyRow,valueRow)

def columnAt (rows : Tensor α) (i c : Nat) : Tensor α :=
  ofFn [rows.dims.getD 1 0,rows.dims.getD 3 0] fun idx => rows.get [i,idx.getD 0 0,c,idx.getD 1 0]

def columnsOf (keys values : Tensor α) : Grid (Entry α) where
  rows := (List.range (keys.dims.getD 0 0)).map fun i =>
    (List.range (keys.dims.getD 2 0)).map fun c => (columnAt keys i c,columnAt values i c)
  width := keys.dims.getD 2 0
  rectangular row inside := by
    obtain ⟨i,_,rfl⟩ := List.mem_map.mp inside
    simp

def rebuildLayer (layers : List (CacheLayer α)) (blockSize seqLen : Nat) (rows : List PagedBatchRow) (kvCache : KVCache (Entry α))
    (layerIdx : Nat) : Except String (KVCache (Entry α)) := do
  let layer ← keyValueCache layers layerIdx
  let (_,numKvHeads,headDimChunks,_,keyPack) ← layer.keyCache.dims5
  let (_,_,valueHeadDim,_) ← layer.valueCache.dims4
  let headDim ← okOr (checkedMul headDimChunks keyPack) "head_dim overflow reconstructing paged prefill"
  if valueHeadDim ≠ headDim then
    .error s!"paged cache key/value head_dim mismatch: key={headDim} value={valueHeadDim}"
  else do
    let rebuilt ← rows.zipIdx.mapM (rebuildRow layer numKvHeads headDim blockSize seqLen)
    let keys ← cat (rebuilt.map Prod.fst) 0
    let values ← cat (rebuilt.map Prod.snd) 0
    let (_,kvCache) ← update kvCache layerIdx (columnsOf keys values)
    .ok kvCache

variable {φ η : Type}

def rebuildKvCacheFromPagedPrefill (thinker : CausalThinker φ η (Entry α)) (layers : List (CacheLayer α)) (blockSize : Nat)
    (state : PagedBatchState) (seqLen maxNewTokens : Nat) : Except String (KVCache (Entry α)) := do
  let kvCache ← kvCacheForGeneration thinker seqLen maxNewTokens
  (List.range thinker.layers.length).foldlM (rebuildLayer layers blockSize seqLen state.rows) kvCache

end Code

structure CacheShape where
  numBlocks : Nat
  kvHeads : Nat
  chunks : Nat
  pack : Nat
  blockSize : Nat
  fits : chunks*pack < 2^64

def CacheShape.headDim (shape : CacheShape) : Nat := shape.chunks*shape.pack

structure RowStored (shape : CacheShape) (layer : CacheLayer α) (table : List Nat) (len : Nat) (token : Nat → Entry α) : Prop where
  dims : ∀ c, c < len → (token c).1.dims = [shape.kvHeads,shape.headDim] ∧ (token c).2.dims = [shape.kvHeads,shape.headDim]
  granted : len ⌈/⌉ shape.blockSize ≤ table.length
  blocks : ∀ b ∈ table.take (len ⌈/⌉ shape.blockSize), b < shape.numBlocks
  key : ∀ c h e, c < len → h < shape.kvHeads → e < shape.headDim →
    layer.keyCache.get [table.getD (c/shape.blockSize) 0,h,e/shape.pack,c%shape.blockSize,e%shape.pack] = (token c).1.get [h,e]
  value : ∀ c h e, c < len → h < shape.kvHeads → e < shape.headDim →
    layer.valueCache.get [table.getD (c/shape.blockSize) 0,h,e,c%shape.blockSize] = (token c).2.get [h,e]

structure LayerShaped (shape : CacheShape) (layer : CacheLayer α) : Prop where
  key : layer.keyCache.dims = [shape.numBlocks,shape.kvHeads,shape.chunks,shape.blockSize,shape.pack]
  value : layer.valueCache.dims = [shape.numBlocks,shape.kvHeads,shape.headDim,shape.blockSize]

section Blocks
variable {shape : CacheShape} {layer : CacheLayer α} {table : List Nat} {len n : Nat}

def blocksAt (cache : Tensor α) (table : List Nat) : List Nat → α
  | j::idx => cache.get (table.getD j 0::idx)
  | [] => 0

def blockOf (cache : Tensor α) (dims : List Nat) (b : Nat) : Tensor α := ofFn (1::dims) fun idx => cache.get (idx.set 0 b)

theorem blockTaken {cache : Tensor α} {dims : List Nat} {b : Nat} (whole : cache.dims = n::dims) (below : b < n) :
    cache.narrow 0 b 1 = .ok (blockOf cache dims b) := by
  conv_lhs => rw [ofFnGet whole]
  exact narrowRow below

theorem catBlocks (cache : Tensor α) (dims : List Nat) (some : table ≠ []) :
    cat (table.map (blockOf cache dims)) 0 = .ok (ofFn (table.length::dims) (blocksAt cache table)) := by
  have all := @catRows _ dims _ (table.map (blockOf cache dims)) (fun j idx => cache.get (idx.set 0 (table.getD j 0)))
    (by simpa using some) fun j t found => by
      rw [List.getElem?_map] at found
      obtain ⟨b,there,rfl⟩ := Option.map_eq_some_iff.mp found
      simp [blockOf,List.getD_eq_getElem?_getD,there]
  rw [List.length_map] at all
  refine all.trans (congrArg _ (ofFnCongr fun idx inside => ?_))
  obtain ⟨j,rest,rfl,_⟩ := insideSplit inside
  rfl

variable {heads chunks bs pack : Nat} {f : List Nat → α}

theorem rowReads (dims : List Nat) {headDim : Nat} {g : List Nat → α} (axes : 3 < dims.length)
    (reshaped : (ofFn (swapAt 2 3 (swapAt 0 1 dims)) fun idx => f (swapAt 0 1 (swapAt 2 3 idx))).reshape [heads,n*bs,headDim] =
      .ok (ofFn [heads,n*bs,headDim] g)) (fits : len ≤ n*bs) :
    rowOfBlocks (ofFn dims f) heads n bs headDim len = .ok (ofFn [1,heads,len,headDim] fun idx => g idx.tail) := by
  have swapped : (swapAt 0 1 dims).length = dims.length := by simp [swapAt]
  exact exceptBind.mpr ⟨_,transposeReads (by omega) (by omega),exceptBind.mpr ⟨_,transposeReads (by omega) (by omega),
    exceptBind.mpr ⟨_,reshaped,exceptBind.mpr ⟨_,narrowFront [heads,n*bs,headDim] (by simp) fits,
      unsqueezeReads [heads,len,headDim]⟩⟩⟩⟩

def keyPlace (bs pack : Nat) : List Nat → List Nat
  | [h,c,e] => [h,c/bs,c%bs,e/pack,e%pack]
  | idx => idx

def valuePlace (bs : Nat) : List Nat → List Nat
  | [h,c,e] => [h,c/bs,c%bs,e]
  | idx => idx

theorem offsetSplit {c : Nat} (inside : c < n*bs) : c/bs < n ∧ c%bs < bs := by
  have positive : 0 < bs := by
    by_contra none
    rw [Nat.eq_zero_of_not_pos none,Nat.mul_zero] at inside
    omega
  exact ⟨Nat.div_lt_of_lt_mul (by rwa [Nat.mul_comm]),Nat.mod_lt _ positive⟩

theorem keyReads (fits : len ≤ n*bs) : rowOfBlocks (ofFn [n,heads,chunks,bs,pack] f) heads n bs (chunks*pack) len =
    .ok (ofFn [1,heads,len,chunks*pack] fun idx => f (swapAt 0 1 (swapAt 2 3 (keyPlace bs pack idx.tail)))) := by
  have reshaped : (ofFn [heads,n,bs,chunks,pack] fun idx => f (swapAt 0 1 (swapAt 2 3 idx))).reshape [heads,n*bs,chunks*pack] =
      .ok (ofFn [heads,n*bs,chunks*pack] fun idx => f (swapAt 0 1 (swapAt 2 3 (keyPlace bs pack idx)))) := by
    refine reshapeReads [heads,n,bs,chunks,pack] (keyPlace bs pack) (by simp only [List.prod_cons,List.prod_nil]; ring) fun idx inside => ?_
    obtain ⟨h,c,e,rfl,head,token,entry⟩ := inside3 inside
    obtain ⟨block,place⟩ := offsetSplit token
    obtain ⟨chunk,packed⟩ := offsetSplit entry
    refine ⟨.cons head (.cons block (.cons place (.cons chunk (.cons packed .nil)))),?_⟩
    have tokens := Nat.div_add_mod c bs
    have entries := Nat.div_add_mod e pack
    simp only [keyPlace,ravel,List.prod_cons,List.prod_nil,Nat.mul_one,Nat.add_zero]
    calc h*(n*(bs*(chunks*pack)))+(c/bs*(bs*(chunks*pack))+(c%bs*(chunks*pack)+(e/pack*pack+e%pack)))
        = h*(n*bs*(chunks*pack))+((bs*(c/bs)+c%bs)*(chunks*pack)+(pack*(e/pack)+e%pack)) := by ring
      _ = h*(n*bs*(chunks*pack))+(c*(chunks*pack)+e) := by rw [tokens,entries]
  exact rowReads [n,heads,chunks,bs,pack] (by simp) reshaped fits

theorem valueReads {headDim : Nat} (fits : len ≤ n*bs) : rowOfBlocks (ofFn [n,heads,headDim,bs] f) heads n bs headDim len =
    .ok (ofFn [1,heads,len,headDim] fun idx => f (swapAt 0 1 (swapAt 2 3 (valuePlace bs idx.tail)))) := by
  have reshaped : (ofFn [heads,n,bs,headDim] fun idx => f (swapAt 0 1 (swapAt 2 3 idx))).reshape [heads,n*bs,headDim] =
      .ok (ofFn [heads,n*bs,headDim] fun idx => f (swapAt 0 1 (swapAt 2 3 (valuePlace bs idx)))) := by
    refine reshapeReads [heads,n,bs,headDim] (valuePlace bs) (by simp only [List.prod_cons,List.prod_nil]; ring) fun idx inside => ?_
    obtain ⟨h,c,e,rfl,head,token,entry⟩ := inside3 inside
    obtain ⟨block,place⟩ := offsetSplit token
    refine ⟨.cons head (.cons block (.cons place (.cons entry .nil))),?_⟩
    have tokens := Nat.div_add_mod c bs
    simp only [valuePlace,ravel,List.prod_cons,List.prod_nil,Nat.mul_one,Nat.add_zero]
    calc h*(n*(bs*headDim))+(c/bs*(bs*headDim)+(c%bs*headDim+e))
        = h*(n*bs*headDim)+((bs*(c/bs)+c%bs)*headDim+e) := by ring
      _ = h*(n*bs*headDim)+(c*headDim+e) := by rw [tokens]
  exact rowReads [n,heads,headDim,bs] (by simp) reshaped fits

end Blocks

section Rows
variable {shape : CacheShape} {layer : CacheLayer α} {table : List Nat} {len seqLen row : Nat} {token : Nat → Entry α}

def filledAt (len : Nat) (part : Nat → Tensor α) : List Nat → α
  | [_,h,c,e] => if c < len then (part c).get [h,e] else 0
  | _ => 0

def filled (shape : CacheShape) (seqLen len : Nat) (part : Nat → Tensor α) : Tensor α :=
  ofFn [1,shape.kvHeads,seqLen,shape.headDim] (filledAt len part)

theorem tableGet {n j : Nat} (inside : j < n) : (table.take n).getD j 0 = table.getD j 0 := by
  rw [List.getD_eq_getElem?_getD,List.getD_eq_getElem?_getD,List.getElem?_take,if_pos inside]

theorem rebuildRowOk {entry : PagedBatchRow} (shaped : LayerShaped shape layer) (sized : 0 < shape.blockSize)
    (stored : RowStored shape layer entry.blockTable entry.promptLenUsize token) (some : 0 < entry.promptLenUsize)
    (within : entry.promptLenUsize ≤ seqLen) :
    rebuildRow layer shape.kvHeads shape.headDim shape.blockSize seqLen (entry,row) =
      .ok (filled shape seqLen entry.promptLenUsize fun c => (token c).1,filled shape seqLen entry.promptLenUsize fun c => (token c).2) := by
  have covered : entry.promptLenUsize ≤ entry.promptLenUsize ⌈/⌉ shape.blockSize*shape.blockSize := by
    rw [Nat.mul_comm]
    exact le_smul_ceilDiv sized
  generalize count : entry.promptLenUsize ⌈/⌉ shape.blockSize = n at covered
  have blocks := stored.blocks
  have granted := stored.granted
  rw [count] at blocks granted
  have length : (entry.blockTable.take n).length = n := by rw [List.length_take,Nat.min_eq_left granted]
  have several : entry.blockTable.take n ≠ [] := by
    intro none
    rw [none,List.length_nil] at length
    rw [← length,Nat.zero_mul] at covered
    omega
  have taken : (entry.blockTable.take n).mapM (takeBlock layer) = .ok ((entry.blockTable.take n).map fun b =>
      (blockOf layer.keyCache [shape.kvHeads,shape.chunks,shape.blockSize,shape.pack] b,
        blockOf layer.valueCache [shape.kvHeads,shape.headDim,shape.blockSize] b)) :=
    exceptMapAll fun b inside => exceptBind.mpr ⟨_,blockTaken shaped.key (blocks b inside),
      exceptBind.mpr ⟨_,blockTaken shaped.value (blocks b inside),rfl⟩⟩
  have keyBlocks := catBlocks layer.keyCache [shape.kvHeads,shape.chunks,shape.blockSize,shape.pack] several
  have valueBlocks := catBlocks layer.valueCache [shape.kvHeads,shape.headDim,shape.blockSize] several
  rw [length] at keyBlocks valueBlocks
  have place {c : Nat} (inside : c < entry.promptLenUsize) : (entry.blockTable.take n).getD (c/shape.blockSize) 0 =
      entry.blockTable.getD (c/shape.blockSize) 0 := tableGet (offsetSplit (Nat.lt_of_lt_of_le inside covered)).1
  have keyRow : (ofFn [1,shape.kvHeads,seqLen,shape.headDim] fun idx => if idx.getD 2 0 < entry.promptLenUsize then
      blocksAt layer.keyCache (entry.blockTable.take n) (swapAt 0 1 (swapAt 2 3 (keyPlace shape.blockSize shape.pack idx.tail))) else 0) =
      filled shape seqLen entry.promptLenUsize fun c => (token c).1 := by
    refine ofFnCongr fun idx inside => ?_
    obtain ⟨i,h,c,e,rfl,_,head,_,part⟩ := inside4 inside
    refine if_ctx_congr Iff.rfl (fun valid => ?_) fun _ => rfl
    exact (congrArg (fun b => layer.keyCache.get [b,h,e/shape.pack,c%shape.blockSize,e%shape.pack]) (place valid)).trans
      (stored.key c h e valid head part)
  have valueRow : (ofFn [1,shape.kvHeads,seqLen,shape.headDim] fun idx => if idx.getD 2 0 < entry.promptLenUsize then
      blocksAt layer.valueCache (entry.blockTable.take n) (swapAt 0 1 (swapAt 2 3 (valuePlace shape.blockSize idx.tail))) else 0) =
      filled shape seqLen entry.promptLenUsize fun c => (token c).2 := by
    refine ofFnCongr fun idx inside => ?_
    obtain ⟨i,h,c,e,rfl,_,head,_,part⟩ := inside4 inside
    refine if_ctx_congr Iff.rfl (fun valid => ?_) fun _ => rfl
    exact (congrArg (fun b => layer.valueCache.get [b,h,e,c%shape.blockSize]) (place valid)).trans
      (stored.value c h e valid head part)
  unfold rebuildRow
  dsimp only
  rw [count,if_neg (Nat.not_lt.mpr granted)]
  refine exceptBind.mpr ⟨_,taken,?_⟩
  rw [List.map_map,List.map_map]
  refine exceptBind.mpr ⟨_,keyBlocks,exceptBind.mpr ⟨_,valueBlocks,exceptBind.mpr ⟨_,keyReads covered,
    exceptBind.mpr ⟨_,valueReads covered,exceptBind.mpr ⟨_,padTokensOk within,exceptBind.mpr ⟨_,padTokensOk within,?_⟩⟩⟩⟩⟩⟩
  rw [← keyRow,← valueRow]
  rfl

end Rows

section Layers
variable {shape : CacheShape} {layer : CacheLayer α} {rows : List PagedBatchRow} {seqLen i c : Nat} {token : Nat → Nat → Entry α}

structure LayerStored (shape : CacheShape) (layer : CacheLayer α) (seqLen : Nat) (rows : List PagedBatchRow)
    (token : Nat → Nat → Entry α) : Prop extends LayerShaped shape layer where
  stored : ∀ (i : Nat) (entry : PagedBatchRow), rows[i]? = some entry →
    RowStored shape layer entry.blockTable entry.promptLenUsize (token i)
  lens : ∀ (i : Nat) (entry : PagedBatchRow), rows[i]? = some entry → 0 < entry.promptLenUsize ∧ entry.promptLenUsize ≤ seqLen

def lenAt (rows : List PagedBatchRow) (i : Nat) : Nat := (rows[i]?.map PagedBatchRow.promptLenUsize).getD 0

theorem lenAtSome {entry : PagedBatchRow} (found : rows[i]? = some entry) : lenAt rows i = entry.promptLenUsize := by
  rw [lenAt,found]
  rfl

def zeroEntry (α : Type) [Zero α] (shape : CacheShape) : Entry α :=
  (zeros [shape.kvHeads,shape.headDim],zeros [shape.kvHeads,shape.headDim])

def rebuiltColumns (shape : CacheShape) (seqLen len : Nat) (token : Nat → Entry α) : List (Entry α) :=
  (List.range seqLen).map fun c => if c < len then token c else zeroEntry α shape

theorem columnFilled {batch len : Nat} {part : Nat → Tensor α} {f : Nat → List Nat → α} (row : i < batch) (column : c < seqLen)
    (here : f i = filledAt len part) (dims : c < len → (part c).dims = [shape.kvHeads,shape.headDim]) :
    columnAt (ofFn [batch,shape.kvHeads,seqLen,shape.headDim] (stacked f)) i c =
      if c < len then part c else zeros [shape.kvHeads,shape.headDim] := by
  have read {h e : Nat} (head : h < shape.kvHeads) (part_ : e < shape.headDim) :
      (ofFn [batch,shape.kvHeads,seqLen,shape.headDim] (stacked f)).get [i,h,c,e] = filledAt len part [0,h,c,e] := by
    rw [getOfFn (.cons row (.cons head (.cons column (.cons part_ .nil)))),stacked,here]
  split
  · next valid =>
    conv_rhs => rw [ofFnGet (dims valid)]
    refine ofFnCongr fun idx inside => ?_
    obtain ⟨h,e,rfl,head,last⟩ := inside2 inside
    exact (read head last).trans (if_pos valid)
  · next past =>
    refine ofFnCongr fun idx inside => ?_
    obtain ⟨h,e,rfl,head,last⟩ := inside2 inside
    exact (read head last).trans (if_neg past)

theorem catFilled (part : Nat → Nat → Tensor α) (some : rows ≠ []) :
    cat (rows.zipIdx.map fun p => filled shape seqLen p.1.promptLenUsize (part p.2)) 0 =
      .ok (ofFn [rows.length,shape.kvHeads,seqLen,shape.headDim] (stacked fun i => filledAt (lenAt rows i) (part i))) := by
  have all := @catRows _ [shape.kvHeads,seqLen,shape.headDim] _
    (rows.zipIdx.map fun p => filled shape seqLen p.1.promptLenUsize (part p.2)) (fun i => filledAt (lenAt rows i) (part i))
    (by simpa using some) fun i t found => by
      rw [List.getElem?_map] at found
      obtain ⟨p,there,rfl⟩ := Option.map_eq_some_iff.mp found
      rw [List.getElem?_zipIdx] at there
      obtain ⟨entry,here,rfl⟩ := Option.map_eq_some_iff.mp there
      rw [lenAtSome here,Nat.zero_add]
      rfl
  rwa [List.length_map,List.length_zipIdx] at all

theorem rebuildLayerOk {layers : List (CacheLayer α)} {kvCache : KVCache (Entry α)} {layerIdx maxLen : Nat}
    (sized : 0 < shape.blockSize) (found : layers[layerIdx]? = some layer) (holds : LayerStored shape layer seqLen rows token)
    (several : rows ≠ []) (fresh : get kvCache layerIdx = none) (reserved : kvCache.maxSeqLen = some maxLen)
    (room : seqLen ≤ maxLen) :
    ∃ kvCache', rebuildLayer layers shape.blockSize seqLen rows kvCache layerIdx = .ok kvCache' ∧
      kvCache'.maxSeqLen = some maxLen ∧ (∀ m, m ≠ layerIdx → get kvCache' m = get kvCache m) ∧
      ∀ i entry, rows[i]? = some entry →
        rowKeys kvCache' layerIdx i = rebuiltColumns shape seqLen entry.promptLenUsize (token i) := by
  have rebuilt : rows.zipIdx.mapM (rebuildRow layer shape.kvHeads shape.headDim shape.blockSize seqLen) =
      .ok (rows.zipIdx.map fun p => (filled shape seqLen p.1.promptLenUsize fun c => (token p.2 c).1,
        filled shape seqLen p.1.promptLenUsize fun c => (token p.2 c).2)) := by
    refine exceptMapAll fun p inside => ?_
    have there := List.mem_zipIdx_iff_getElem?.mp inside
    obtain ⟨some,within⟩ := holds.lens _ _ there
    exact rebuildRowOk holds.toLayerShaped sized (holds.stored _ _ there) some within
  have keys := @catFilled _ _ shape rows seqLen (fun i c => (token i c).1) several
  have values := @catFilled _ _ shape rows seqLen (fun i c => (token i c).2) several
  generalize keysNamed : ofFn [rows.length,shape.kvHeads,seqLen,shape.headDim]
    (stacked fun i => filledAt (lenAt rows i) fun c => (token i c).1) = keyTensor at keys
  generalize valuesNamed : ofFn [rows.length,shape.kvHeads,seqLen,shape.headDim]
    (stacked fun i => filledAt (lenAt rows i) fun c => (token i c).2) = valueTensor at values
  have width : (columnsOf keyTensor valueTensor).width = seqLen := by rw [← keysNamed]; rfl
  obtain ⟨current,kvCache',updates⟩ := @updateGoes _ kvCache layerIdx (columnsOf keyTensor valueTensor)
    (fun entry there => by cases fresh.symm.trans there) fun limit limited => by
      cases reserved.symm.trans limited
      rw [entryLen,fresh,width]
      simpa using room
  have updated := updateOk updates
  refine ⟨kvCache',?_,updated.reserved.trans reserved,updated.others,fun i entry there => ?_⟩
  · unfold rebuildLayer
    refine exceptBind.mpr ⟨layer,okOrOk.mpr found,exceptBind.mpr ⟨(shape.numBlocks,shape.kvHeads,shape.chunks,shape.blockSize,
      shape.pack),by rw [dims5,holds.key],exceptBind.mpr ⟨(shape.numBlocks,shape.kvHeads,shape.headDim,shape.blockSize),
      by rw [dims4,holds.value],?_⟩⟩⟩
    dsimp only
    refine exceptBind.mpr ⟨shape.headDim,okOrOk.mpr (checkedMulSome.mpr ⟨shape.fits,rfl⟩),?_⟩
    rw [if_neg (not_not.mpr rfl)]
    refine exceptBind.mpr ⟨_,rebuilt,?_⟩
    rw [List.map_map,List.map_map]
    exact exceptBind.mpr ⟨_,keys,exceptBind.mpr ⟨_,values,exceptBind.mpr ⟨_,updates,rfl⟩⟩⟩
  · have bound := (List.getElem?_eq_some_iff.mp there).1
    have len := lenAtSome there
    have dims := (holds.stored i entry there).dims
    have columns : (columnsOf keyTensor valueTensor).rows[i]? =
        some (rebuiltColumns shape seqLen entry.promptLenUsize (token i)) := by
      rw [← keysNamed,← valuesNamed]
      unfold columnsOf
      dsimp only
      rw [List.getElem?_map,List.getElem?_range (by exact bound)]
      refine congrArg some (List.map_congr_left fun c inside => ?_)
      have column : c < seqLen := List.mem_range.mp inside
      rw [columnFilled bound column (by rw [len]) fun valid => (dims c valid).1,
        columnFilled bound column (by rw [len]) fun valid => (dims c valid).2]
      split <;> rfl
    rw [updatedKeys updated columns,rowKeys,fresh]
    rfl

theorem rebuildFoldOk {layers : List (CacheLayer α)} {kvCache : KVCache (Entry α)} {token : Nat → Nat → Nat → Entry α}
    {first count maxLen : Nat} (sized : 0 < shape.blockSize) (several : rows ≠ [])
    (stored : ∀ m, first ≤ m → m < first+count → ∃ layer, layers[m]? = some layer ∧ LayerStored shape layer seqLen rows (token m))
    (fresh : ∀ m, first ≤ m → get kvCache m = none) (reserved : kvCache.maxSeqLen = some maxLen) (room : seqLen ≤ maxLen) :
    ∃ kvCache', (List.range' first count).foldlM (rebuildLayer layers shape.blockSize seqLen rows) kvCache = .ok kvCache' ∧
      (∀ m, m < first → get kvCache' m = get kvCache m) ∧
      ∀ m, first ≤ m → m < first+count → ∀ i entry, rows[i]? = some entry →
        rowKeys kvCache' m i = rebuiltColumns shape seqLen entry.promptLenUsize (token m i) := by
  induction count generalizing first kvCache with
  | zero => exact ⟨kvCache,rfl,fun _ _ => rfl,fun m from_ until_ => by omega⟩
  | succ count ih =>
    obtain ⟨layer,found,holds⟩ := stored first (Nat.le_refl _) (by omega)
    obtain ⟨next,step,kept,others,here⟩ := rebuildLayerOk sized found holds several (fresh first (Nat.le_refl _)) reserved room
    obtain ⟨last,rest,before,each⟩ := @ih next (first+1) (fun m from_ until_ => stored m (by omega) (by omega))
      (fun m from_ => by rw [others m (by omega)]; exact fresh m (by omega)) kept
    refine ⟨last,exceptBind.mpr ⟨next,step,rest⟩,fun m earlier => ?_,fun m from_ until_ i entry there => ?_⟩
    · rw [before m (by omega),others m (by omega)]
    · rcases Nat.eq_or_lt_of_le from_ with rfl | later
      · rw [rowKeys,before first (Nat.lt_succ_self _)]
        exact here i entry there
      · exact each m later (by omega) i entry there

variable {φ η : Type}

/- Every layer of the rebuilt cache holds, row by row, the entries of the row and then zeros. -/
theorem rebuildOk {thinker : CausalThinker φ η (Entry α)} {layers : List (CacheLayer α)} {token : Nat → Nat → Nat → Entry α}
    {state : PagedBatchState} {maxNewTokens : Nat} (sized : 0 < shape.blockSize) (several : state.rows ≠ [])
    (room : seqLen+maxNewTokens < 2^64) (stored : ∀ m, m < thinker.layers.length →
      ∃ layer, layers[m]? = some layer ∧ LayerStored shape layer seqLen state.rows (token m)) :
    ∃ kvCache, rebuildKvCacheFromPagedPrefill thinker layers shape.blockSize state seqLen maxNewTokens = .ok kvCache ∧
      ∀ m, m < thinker.layers.length → ∀ i entry, state.rows[i]? = some entry →
        rowKeys kvCache m i = rebuiltColumns shape seqLen entry.promptLenUsize (token m i) := by
  have made : kvCacheForGeneration thinker seqLen maxNewTokens =
      .ok (withMaxSeqLen thinker.layers.length (seqLen+maxNewTokens)) :=
    exceptBind.mpr ⟨_,okOrOk.mpr (checkedAddSome.mpr ⟨room,rfl⟩),rfl⟩
  obtain ⟨kvCache,folded,_,each⟩ := @rebuildFoldOk _ _ shape state.rows seqLen layers
    (withMaxSeqLen thinker.layers.length (seqLen+maxNewTokens)) token 0 thinker.layers.length (seqLen+maxNewTokens) sized several
    (fun m _ inside => stored m (by omega)) (fun m _ => freshReserved _ _ m) rfl (Nat.le_add_right _ _)
  rw [← List.range_eq_range'] at folded
  exact ⟨kvCache,exceptBind.mpr ⟨_,made,folded⟩,fun m inside => each m (Nat.zero_le _) (by omega)⟩

end Layers

end Qwen3Asr.PagedRebuild
