import Qwen3Asr.BlockManager
import Qwen3Asr.PagedMetadata

/-! No two tokens share a cache slot: the slots of covered positions are distinct
over all requests and stay clear of the null block, where the dummy rows of a
padded decode batch write. -/
namespace Qwen3Asr.SlotIsolation
open Library.Holding Library.Effect Library.Word
open BlockManager PagedMetadata

def padBlockTableCols (blockTables : List (List Nat)) (metaCols cols : Nat) : List (List Nat) :=
  if metaCols = 0 then blockTables.map fun _ => List.replicate cols 0
  else blockTables.map fun row => row ++ List.replicate (cols-metaCols) (row.getLastD 0)

def padMetadataBlockTables (metadata : PagedInputMetadata) (cols : Nat) : Except String PagedInputMetadata :=
  let metaCols := (metadata.blockTables.map List.length).headD 0
  if cols < metaCols then .error s!"cannot pad block tables from {metaCols} columns down to {cols}"
  else if metaCols = cols then .ok metadata
  else .ok {metadata with blockTables := padBlockTableCols metadata.blockTables metaCols cols}

def padU32VectorWithValue (values : List Nat) (targetLen value : Nat) : Except String (List Nat) :=
  if targetLen < values.length then
    .error s!"cannot pad vector from {values.length} elements down to {targetLen}"
  else if values.length = targetLen then .ok values
  else if value ≠ 1 then .error s!"only u32 vector padding with value 1 is supported, got {value}"
  else .ok (values ++ List.replicate (targetLen-values.length) 1)

/- The position ids are one plane of the three equal ones. -/
def padDecodeBatchToMax (maxBatch : Nat) (inputIds positionIds : List (List Nat))
    (metadata : PagedInputMetadata) (blockTableCols : Nat) :
    Except String (List (List Nat) × List (List Nat) × PagedInputMetadata) := do
  let actualBatch := inputIds.length
  if actualBatch = 0 ∨ maxBatch < actualBatch then
    .error s!"actual batch {actualBatch} exceeds cuda graph max batch {maxBatch}"
  else
    let metadata ← padMetadataBlockTables metadata blockTableCols
    if actualBatch = maxBatch then .ok (inputIds,positionIds,metadata) else
    let columns := (positionIds.map List.length).headD 0
    if columns ≠ 1 then
      .error s!"expected position_ids shape (3, batch, 1), got [3, {positionIds.length}, {columns}]"
    else
      let extra := maxBatch-actualBatch
      let contextLens ← padU32VectorWithValue metadata.contextLens maxBatch 1
      .ok (inputIds ++ List.replicate extra [0],positionIds ++ List.replicate extra [0],{
        slotMapping := metadata.slotMapping ++ List.replicate extra 0, contextLens
        blockTables := metadata.blockTables ++ List.replicate extra (List.replicate blockTableCols 0)
        maxContextLen := metadata.maxContextLen, tokenAttentionMask := none
        prefillAttentionMask := none, prefillFlashParams := none, prefillCausalOnly := false
        queryLens := none, kvLens := none, cuSeqlensQ := none, cuSeqlensKv := none
        maxQueryLen := none, maxKvLen := none})

section Reachable
variable {numBlocks blockSize : Nat} {ops : List Op}

theorem reachableLedger (numBlocks blockSize : Nat) (ops : List Op) :
    ∃ l : Blocks numBlocks, Represents l (runOps (new numBlocks blockSize) ops) :=
  runRepresents (newRepresents numBlocks blockSize) ops

theorem tableBlockBounds {m : PagedBlockManager} (reached : runOps (new numBlocks blockSize) ops = m)
    {requestId b : Nat} (inside : b ∈ table m requestId) : 1 ≤ b ∧ b < numBlocks := by
  obtain ⟨l,r⟩ := reachableLedger numBlocks blockSize ops
  rw [reached] at r
  have member := l.mem (heldSubset (k := requestId) (by rw [← r.blocks]; exact inside))
  rw [List.mem_range'_1] at member
  omega

theorem tableBlockOnce {m : PagedBlockManager} (reached : runOps (new numBlocks blockSize) ops = m)
    {j k i n b : Nat} (left : (table m j)[i]? = some b) (right : (table m k)[n]? = some b) :
    j = k ∧ i = n := by
  obtain ⟨l,r⟩ := reachableLedger numBlocks blockSize ops
  rw [reached] at r
  have once := l.once List.nodup_range'
  rw [← r.blocks] at once
  exact heldInjective once left right

theorem slotBounds {m : PagedBlockManager} (reached : runOps (new numBlocks blockSize) ops = m)
    {word : String} {seq requestId position : Nat} {slot : Int}
    (covered : position < (table m requestId).length*blockSize)
    (ok : slotInTable word blockSize numBlocks seq (table m requestId) position = .ok slot) :
    (blockSize:Int) ≤ slot ∧ slot < (numBlocks*blockSize : Nat) := by
  obtain ⟨b,found,_,_,rfl⟩ := slotInTableOk.mp ok
  obtain ⟨low,high⟩ := tableBlockBounds reached (List.mem_of_getElem? found)
  have positive : 0 < blockSize := by
    rcases Nat.eq_zero_or_pos blockSize with zero | positive
    · simp [zero] at covered
    · exact positive
  have offset := Nat.mod_lt position positive
  have bottom : 1*blockSize ≤ b*blockSize := Nat.mul_le_mul_right _ low
  have top : (b+1)*blockSize ≤ numBlocks*blockSize := Nat.mul_le_mul_right _ high
  rw [Nat.add_mul] at top
  omega

theorem slotDistinct {m : PagedBlockManager} (reached : runOps (new numBlocks blockSize) ops = m)
    {v w : String} {s t j k p q : Nat} {slot : Int} (positive : 0 < blockSize)
    (left : slotInTable v blockSize numBlocks s (table m j) p = .ok slot)
    (right : slotInTable w blockSize numBlocks t (table m k) q = .ok slot) : j = k ∧ p = q := by
  obtain ⟨b,atLeft,_,_,rfl⟩ := slotInTableOk.mp left
  obtain ⟨c,atRight,_,_,same⟩ := slotInTableOk.mp right
  have sums : b*blockSize+p%blockSize = c*blockSize+q%blockSize := Int.ofNat.inj same
  have blocks : b = c := by
    have halves := congrArg (·/blockSize) sums
    simpa [Nat.mul_comm _ blockSize,Nat.mul_add_div positive,
      Nat.div_eq_of_lt (Nat.mod_lt _ positive)] using halves
  subst c
  obtain ⟨owner,index⟩ := tableBlockOnce reached atLeft atRight
  have offsets : p%blockSize = q%blockSize := by omega
  refine ⟨owner,?_⟩
  rw [← Nat.div_add_mod p blockSize,← Nat.div_add_mod q blockSize,index,offsets]

theorem slotDefined {m : PagedBlockManager} (reached : runOps (new numBlocks blockSize) ops = m)
    {word : String} {seq requestId position : Nat}
    (covered : position < (table m requestId).length*blockSize)
    (fits : numBlocks*blockSize ≤ 2^63) :
    ∃ slot, slotInTable word blockSize numBlocks seq (table m requestId) position = .ok slot := by
  have positive : 0 < blockSize := by
    rcases Nat.eq_zero_or_pos blockSize with zero | positive
    · simp [zero] at covered
    · exact positive
  have index : position/blockSize < (table m requestId).length :=
    Nat.div_lt_of_lt_mul (by rwa [Nat.mul_comm])
  have found := List.getElem?_eq_getElem index
  obtain ⟨_,high⟩ := tableBlockBounds reached (List.mem_of_getElem? found)
  refine ⟨_,slotInTableOk.mpr ⟨_,found,high,?_,rfl⟩⟩
  have offset := Nat.mod_lt position positive
  have top := Nat.mul_le_mul_right blockSize high
  rw [Nat.succ_mul] at top
  omega

end Reachable

theorem padMetadataKeeps {metadata padded : PagedInputMetadata} {cols : Nat}
    (ok : padMetadataBlockTables metadata cols = .ok padded) :
    padded.slotMapping = metadata.slotMapping ∧ padded.contextLens = metadata.contextLens ∧
      padded.blockTables.length = metadata.blockTables.length := by
  unfold padMetadataBlockTables at ok
  dsimp only at ok
  split at ok <;> try contradiction
  split at ok
  · cases ok; exact ⟨rfl,rfl,rfl⟩
  · cases ok
    refine ⟨rfl,rfl,?_⟩
    simp only [padBlockTableCols]
    split <;> simp

/-- The rows past the real ones read and write the null block only. -/
theorem paddedRows {maxBatch cols : Nat} {inputIds positionIds ids positions : List (List Nat)}
    {metadata padded : PagedInputMetadata}
    (ok : padDecodeBatchToMax maxBatch inputIds positionIds metadata cols = .ok (ids,positions,padded))
    (slots : metadata.slotMapping.length = inputIds.length)
    (contexts : metadata.contextLens.length = inputIds.length)
    (tables : metadata.blockTables.length = inputIds.length) :
    (∀ row, row < inputIds.length → padded.slotMapping[row]? = metadata.slotMapping[row]?) ∧
    ∀ row, inputIds.length ≤ row → row < maxBatch →
      padded.slotMapping[row]? = some 0 ∧ padded.contextLens[row]? = some 1 ∧
        padded.blockTables[row]? = some (List.replicate cols 0) := by
  unfold padDecodeBatchToMax at ok
  dsimp only at ok
  split at ok <;> try contradiction
  rename_i small
  obtain ⟨widened,widen,ok⟩ := exceptBind.mp ok
  obtain ⟨sameSlots,sameContexts,sameTables⟩ := padMetadataKeeps widen
  split at ok
  · rename_i full
    cases ok
    exact ⟨fun row _ => by rw [sameSlots],fun row past bound => by omega⟩
  · split at ok <;> try contradiction
    obtain ⟨contextLens,pad,ok⟩ := exceptBind.mp ok
    cases ok
    have grown : contextLens = widened.contextLens ++ List.replicate (maxBatch-widened.contextLens.length) 1 := by
      unfold padU32VectorWithValue at pad
      split at pad <;> try contradiction
      split at pad
      · rename_i same; rw [sameContexts,contexts] at same; omega
      · simpa using pad.symm
    subst grown
    refine ⟨fun row inside => ?_,fun row past bound => ⟨?_,?_,?_⟩⟩
    · simp [sameSlots,List.getElem?_append,slots,inside]
    · rw [sameSlots,List.getElem?_append_right (by omega),List.getElem?_replicate,if_pos (by omega)]
    · rw [sameContexts,List.getElem?_append_right (by omega),List.getElem?_replicate,if_pos (by omega)]
    · rw [List.getElem?_append_right (by omega),List.getElem?_replicate,if_pos (by omega)]

structure Row (m : PagedBlockManager) (tables : List (List Nat)) (seq requestId : Nat) where
  requestIds : List Nat
  read : blockTablesFor m requestIds = .ok tables
  atRow : requestIds[seq]? = some requestId

structure SlotsIsolated (numBlocks blockSize : Nat) (m : PagedBlockManager) : Prop where
  bounded : ∀ {tables seq requestId position slot}, Row m tables seq requestId →
    position < (table m requestId).length*blockSize →
    slotForBlockTablePosition tables blockSize numBlocks seq position = .ok slot →
    (blockSize:Int) ≤ slot ∧ slot < (numBlocks*blockSize : Nat)
  defined : ∀ {tables seq requestId position}, Row m tables seq requestId →
    position < (table m requestId).length*blockSize → numBlocks*blockSize ≤ 2^63 →
    ∃ slot, slotForBlockTablePosition tables blockSize numBlocks seq position = .ok slot
  distinct : ∀ {tables tables' seq seq' j k p q slot}, Row m tables seq j → Row m tables' seq' k →
    p < (table m j).length*blockSize → q < (table m k).length*blockSize →
    slotForBlockTablePosition tables blockSize numBlocks seq p = .ok slot →
    slotForBlockTablePosition tables' blockSize numBlocks seq' q = .ok slot → j = k ∧ p = q

/- In a padded decode batch the real rows keep their own slots, none of them in the
null block, and every row past them is the null block's. -/
structure PaddingApart (m : PagedBlockManager) (cache : PagedKvCache) (requestIds promptLens : List Nat)
    (step maxBatch cols : Nat) (padded : PagedInputMetadata) : Prop where
  real : ∀ {row requestId}, requestIds[row]? = some requestId → 0 ∉ table m requestId ∧
    ∃ promptLen slot, promptLens[row]? = some promptLen ∧ padded.slotMapping[row]? = some slot ∧
      slotForBlockTablePosition (requestIds.map (table m)) cache.blockSize cache.numBlocks row
        (promptLen+step) = .ok slot ∧ (cache.blockSize:Int) ≤ slot
  dummy : ∀ {row}, requestIds.length ≤ row → row < maxBatch →
    padded.slotMapping[row]? = some 0 ∧ padded.contextLens[row]? = some 1 ∧
      padded.blockTables[row]? = some (List.replicate cols 0)

theorem reachableIsolated {numBlocks blockSize : Nat} {ops : List Op} {m : PagedBlockManager}
    (reached : runOps (new numBlocks blockSize) ops = m) : SlotsIsolated numBlocks blockSize m where
  bounded row covered ok :=
    slotBounds reached covered ((slotForBlockTablePositionOk (tableAt row.read row.atRow)).mp ok)
  defined row covered fits := by
    obtain ⟨slot,ok⟩ := slotDefined reached covered fits
    exact ⟨slot,(slotForBlockTablePositionOk (tableAt row.read row.atRow)).mpr ok⟩
  distinct row row' covered _ left right := by
    have positive : 0 < blockSize := by
      rcases Nat.eq_zero_or_pos blockSize with zero | positive
      · simp [zero] at covered
      · exact positive
    exact slotDistinct reached positive
      ((slotForBlockTablePositionOk (tableAt row.read row.atRow)).mp left)
      ((slotForBlockTablePositionOk (tableAt row'.read row'.atRow)).mp right)

theorem paddedApart {numBlocks blockSize : Nat} {ops : List Op} {m : PagedBlockManager}
    (reached : runOps (new numBlocks blockSize) ops = m) {cache : PagedKvCache}
    {requestIds promptLens : List Nat} {tables inputIds positionIds ids positions : List (List Nat)}
    {step maxBatch cols : Nat} {metadata padded : PagedInputMetadata}
    (read : blockTablesFor m requestIds = .ok tables)
    (decode : decodeMetadataForBatchStep cache tables promptLens step = .ok metadata)
    (rows : inputIds.length = requestIds.length)
    (pad : padDecodeBatchToMax maxBatch inputIds positionIds metadata cols = .ok (ids,positions,padded)) :
    PaddingApart m cache requestIds promptLens step maxBatch cols padded := by
  obtain ⟨slots,contexts,hosts,lengths⟩ := decodeMetadataLengths decode
  have same := blockTablesForOk read
  have counted : tables.length = requestIds.length := by simp [same]
  obtain ⟨real,dummy⟩ := paddedRows pad (by omega) (by omega) (by omega)
  refine ⟨fun {row requestId} found => ?_,fun {row} past bound => dummy row (by omega) bound⟩
  have nonzero : 0 ∉ table m requestId := fun inside => by
    have := (tableBlockBounds reached inside).1
    omega
  have inside : row < promptLens.length := by
    have := (List.getElem?_eq_some_iff.mp found).1
    omega
  obtain ⟨slot,atRow,slotOk,_⟩ := decodeMetadataRow decode (List.getElem?_eq_getElem inside)
  refine ⟨nonzero,_,slot,List.getElem?_eq_getElem inside,?_,same ▸ slotOk,?_⟩
  · rw [real row (by omega),atRow]
  · obtain ⟨b,entry,_,_,rfl⟩ :=
      slotInTableOk.mp ((slotForBlockTablePositionOk (tableAt read found)).mp slotOk)
    have low := (tableBlockBounds reached (List.mem_of_getElem? entry)).1
    have bottom : 1*cache.blockSize ≤ b*cache.blockSize := Nat.mul_le_mul_right _ low
    omega

theorem slotIsolation (numBlocks blockSize : Nat) (ops : List Op) :
    let m := runOps (new numBlocks blockSize) ops
    SlotsIsolated numBlocks blockSize m ∧
    ∀ cache requestIds tables promptLens step metadata maxBatch inputIds positionIds cols ids positions padded,
      blockTablesFor m requestIds = .ok tables →
      decodeMetadataForBatchStep cache tables promptLens step = .ok metadata →
      inputIds.length = requestIds.length →
      padDecodeBatchToMax maxBatch inputIds positionIds metadata cols = .ok (ids,positions,padded) →
      PaddingApart m cache requestIds promptLens step maxBatch cols padded :=
  ⟨reachableIsolated rfl,fun _ _ _ _ _ _ _ _ _ _ _ _ _ read decode rows pad =>
    paddedApart rfl read decode rows pad⟩

end Qwen3Asr.SlotIsolation
