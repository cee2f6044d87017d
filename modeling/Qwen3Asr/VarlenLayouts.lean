import Mathlib.Logic.Nontrivial.Basic
import Mathlib.Tactic.Ring
import Qwen3Asr.Library.Effect
import Qwen3Asr.Library.Tensor

/-! Layouts of the Metal prefill over sequences of several lengths. Keys are packed token by token;
queries and outputs are reshaped without the turn of heads and tokens that would take. -/
namespace Qwen3Asr.VarlenLayouts
open Library Library.Effect Library.Packing Tensor

variable {α : Type} [Zero α]

section Code

def checkQueryLen (seqLen : Nat) : Nat × Nat → Except String Unit := fun (len,row) =>
  if seqLen < len then .error s!"query_len exceeds padded seq_len: len={len} seq_len={seqLen}"
  else if len = 0 then .error s!"query_len must be non-zero for row {row}"
  else .ok ()

def queryChunk (q : Tensor α) (heads seqLen headDim : Nat) : Nat × Nat → Except String (Tensor α) := fun (len,row) => do
  checkQueryLen seqLen (len,row)
  let cut ← q.narrow 0 row 1
  let cut ← cut.narrow 2 0 len
  cut.reshape [len,heads,headDim]

def packQueryForVarlenPrefill (q : Tensor α) (queryLens : List Nat) : Except String (Tensor α) := do
  let (batch,heads,seqLen,headDim) ← q.dims4
  if queryLens.length ≠ batch then
    .error s!"query_lens batch mismatch: expected={batch}, got={queryLens.length}"
  else
    let chunks ← queryLens.zipIdx.mapM (queryChunk q heads seqLen headDim)
    cat chunks 0

def tokenChunk (k : Tensor α) (numKvHeads headDim : Nat) : Nat × Nat → Except String (Tensor α) := fun (len,row) => do
  let cut ← k.narrow 0 row 1
  let cut ← cut.narrow 2 0 len
  let turned ← cut.transpose 1 2
  turned.reshape [len,numKvHeads,headDim]

def kvChunk (k v : Tensor α) (numKvHeads seqLen headDim : Nat) (entry : Nat × Nat) : Except String (Tensor α × Tensor α) := do
  checkQueryLen seqLen entry
  let kChunk ← tokenChunk k numKvHeads headDim entry
  let vChunk ← tokenChunk v numKvHeads headDim entry
  .ok (kChunk,vChunk)

def packKvForVarlenPrefill (k v : Tensor α) (queryLens : List Nat) : Except String (Tensor α × Tensor α) := do
  let (batch,numKvHeads,seqLen,headDim) ← k.dims4
  let (vBatch,vNumKvHeads,vSeqLen,vHeadDim) ← v.dims4
  if queryLens.length ≠ batch ∨ vBatch ≠ batch ∨ vNumKvHeads ≠ numKvHeads ∨ vSeqLen ≠ seqLen ∨ vHeadDim ≠ headDim then
    .error s!"packed kv shape mismatch: k={k.dims} v={v.dims} query_lens={queryLens.length}"
  else
    let chunks ← queryLens.zipIdx.mapM (kvChunk k v numKvHeads seqLen headDim)
    let kPacked ← cat (chunks.map Prod.fst) 0
    let vPacked ← cat (chunks.map Prod.snd) 0
    .ok (kPacked,vPacked)

def padTokens (slice : Tensor α) (batch heads len seqLen headDim : Nat) : Except String (Tensor α) :=
  if len < seqLen then cat [slice,zeros [batch,heads,seqLen-len,headDim]] 2 else .ok slice

def unpackRows (attn : Tensor α) (heads seqLen headDim : Nat) : Nat → List Nat → Except String (List (Tensor α))
  | _, [] => .ok []
  | offset, len::rest => do
    let cut ← attn.narrow 0 offset len
    let slice ← cut.reshape [1,heads,len,headDim]
    let row ← padTokens slice 1 heads len seqLen headDim
    let rows ← unpackRows attn heads seqLen headDim (offset+len) rest
    .ok (row::rows)

def unpackVarlenAttnToBatched (attn : Tensor α) (queryLens : List Nat) (batch seqLen : Nat) : Except String (Tensor α) := do
  let (totalTokens,heads,headDim) ← attn.dims3
  if queryLens.length ≠ batch then
    .error s!"query_lens batch mismatch: expected={batch}, got={queryLens.length}" else
  if queryLens.sum ≠ totalTokens then
    .error s!"varlen attn token mismatch: expected={queryLens.sum}, got={totalTokens}" else
  let rows ← unpackRows attn heads seqLen headDim 0 queryLens
  cat rows 0

end Code

structure Lengths where
  queryLens : List Nat
  seqLen : Nat
  within : ∀ len ∈ queryLens, 1 ≤ len ∧ len ≤ seqLen

section Layouts

/- Every token of a row, with all its heads, stands behind the tokens of the earlier rows. -/
structure TokenMajor (lens : List Nat) (heads headDim : Nat) (batched packed : Tensor α) : Prop where
  shape : packed.dims = [lens.sum,heads,headDim]
  reads : ∀ {i len t h e}, lens[i]? = some len → t < len → h < heads → e < headDim →
    packed.get [start lens i+t,h,e] = batched.get [i,h,t,e]

structure Batched (lens : List Nat) (heads seqLen headDim : Nat) (packed out : Tensor α) : Prop where
  shape : out.dims = [lens.length,heads,seqLen,headDim]
  tokens : ∀ {i len t h e}, lens[i]? = some len → t < len → h < heads → e < headDim →
    out.get [i,h,t,e] = packed.get [start lens i+t,h,e]
  padding : ∀ {i len t h e}, lens[i]? = some len → len ≤ t → t < seqLen → h < heads → e < headDim → out.get [i,h,t,e] = 0

structure LayoutsHold (α : Type) [Zero α] (s : Lengths) (heads headDim : Nat) : Prop where
  queries : ∀ q : Tensor α, q.dims = [s.queryLens.length,heads,s.seqLen,headDim] →
    ∃ packed, packQueryForVarlenPrefill q s.queryLens = .ok packed ∧ TokenMajor s.queryLens heads headDim q packed
  keys : ∀ (numKvHeads : Nat) (k v : Tensor α), k.dims = [s.queryLens.length,numKvHeads,s.seqLen,headDim] →
    v.dims = [s.queryLens.length,numKvHeads,s.seqLen,headDim] →
    ∃ kPacked vPacked, packKvForVarlenPrefill k v s.queryLens = .ok (kPacked,vPacked) ∧
      TokenMajor s.queryLens numKvHeads headDim k kPacked ∧ TokenMajor s.queryLens numKvHeads headDim v vPacked
  outputs : ∀ packed : Tensor α, packed.dims = [s.queryLens.sum,heads,headDim] →
    ∃ out, unpackVarlenAttnToBatched packed s.queryLens s.queryLens.length s.seqLen = .ok out ∧
      Batched s.queryLens heads s.seqLen headDim packed out

end Layouts

section Rows
variable {heads seqLen headDim len row : Nat} {q : Tensor α}

def tokensOfHeads (heads len : Nat) : List Nat → List Nat
  | [t,h,e] => [0,(t*heads+h)/len,(t*heads+h)%len,e]
  | idx => idx

def headsOfTokens (heads len : Nat) : List Nat → List Nat
  | [_,h,t,e] => [(h*len+t)/heads,(h*len+t)%heads,e]
  | idx => idx

theorem checked (few : 1 ≤ len) (within : len ≤ seqLen) : checkQueryLen seqLen (len,row) = .ok () := by
  unfold checkQueryLen
  dsimp only
  rw [if_neg (by omega),if_neg (by omega)]

theorem cutReads {batch : Nat} (shape : q.dims = [batch,heads,seqLen,headDim]) (below : row < batch) (within : len ≤ seqLen) :
    ∃ cut, q.narrow 0 row 1 = .ok cut ∧
      cut.narrow 2 0 len = .ok (ofFn [1,heads,len,headDim] fun idx => q.get (idx.set 0 row)) := by
  refine ⟨ofFn [1,heads,seqLen,headDim] fun idx => q.get (idx.set 0 row),?_,?_⟩
  · conv_lhs => rw [ofFnGet shape]
    exact narrowRow below
  · exact narrowFront [1,heads,seqLen,headDim] (by simp) within

theorem queryChunkOk {batch : Nat} (shape : q.dims = [batch,heads,seqLen,headDim]) (below : row < batch) (few : 1 ≤ len)
    (within : len ≤ seqLen) : queryChunk q heads seqLen headDim (len,row) =
      .ok (ofFn [len,heads,headDim] fun idx => q.get ((tokensOfHeads heads len idx).set 0 row)) := by
  obtain ⟨cut,first,second⟩ := cutReads shape below within
  refine exceptBind.mpr ⟨(),checked few within,exceptBind.mpr ⟨cut,first,exceptBind.mpr ⟨_,second,?_⟩⟩⟩
  refine reshapeReads [1,heads,len,headDim] (tokensOfHeads heads len) (by simp; ring) fun idx inside => ?_
  obtain ⟨t,h,e,rfl,token,head,entry⟩ := inside3 inside
  have place : t*heads+h < len*heads := placeBelow token head
  constructor
  · simp only [tokensOfHeads,insideCons]
    exact ⟨Nat.one_pos,Nat.div_lt_of_lt_mul place,Nat.mod_lt _ few,entry,.nil⟩
  · have split := Nat.div_add_mod (t*heads+h) len
    simp only [tokensOfHeads,ravel,List.prod_cons,List.prod_nil,Nat.mul_one,Nat.add_zero,Nat.zero_mul,Nat.zero_add]
    calc (t*heads+h)/len*(len*headDim)+((t*heads+h)%len*headDim+e)
        = (len*((t*heads+h)/len)+(t*heads+h)%len)*headDim+e := by ring
      _ = t*(heads*headDim)+(h*headDim+e) := by rw [split]; ring

theorem tokenChunkOk {batch : Nat} (shape : q.dims = [batch,heads,seqLen,headDim]) (below : row < batch)
    (within : len ≤ seqLen) : tokenChunk q heads headDim (len,row) =
      .ok (ofFn [len,heads,headDim] fun idx => q.get ((swapAt 1 2 (0::idx)).set 0 row)) := by
  obtain ⟨cut,first,second⟩ := cutReads shape below within
  refine exceptBind.mpr ⟨cut,first,exceptBind.mpr ⟨_,second,exceptBind.mpr ⟨_,transposeReads (by simp) (by simp),?_⟩⟩⟩
  refine reshapeReads [1,len,heads,headDim] (0 :: ·) (by simp) fun idx inside => ?_
  exact ⟨.cons Nat.one_pos inside,by simp [ravel]⟩

def laid (lens : List Nat) (heads headDim : Nat) (g : Nat × Nat → List Nat → α) : Tensor α :=
  ofFn [lens.sum,heads,headDim] (joined 0 (lens.zipIdx.map fun p => (p.1,g p)))

variable {lens : List Nat} {g : Nat × Nat → List Nat → α}

theorem catLaid (some : lens ≠ []) :
    cat (lens.zipIdx.map fun p => ofFn [p.1,heads,headDim] (g p)) 0 = .ok (laid lens heads headDim g) := by
  have all := @catReads _ 0 _ [0,heads,headDim] (lens.zipIdx.map fun p => (p.1,g p)) (by simp) (by simpa using some)
  rw [List.map_map,List.map_map] at all
  have lengths : lens.zipIdx.map (Prod.fst ∘ fun p => (p.1,g p)) = lens := List.zipIdx_map_fst 0 lens
  rw [lengths] at all
  exact all

theorem laidGet {i t h e : Nat} (found : lens[i]? = some len) (token : t < len) (head : h < heads) (entry : e < headDim) :
    (laid lens heads headDim g).get [start lens i+t,h,e] = g (len,i) [t,h,e] := by
  have lengths : (lens.zipIdx.map fun p => (p.1,g p)).map Prod.fst = lens := by
    rw [List.map_map]
    exact List.zipIdx_map_fst 0 lens
  have there : (lens.zipIdx.map fun p => (p.1,g p))[i]? = some (len,g (len,i)) := by simp [found]
  have read := @joinedAt _ 0 _ [0,h,e] _ _ _ _ _ (by simp) there token
  rw [lengths] at read
  have below : start lens i+t < lens.sum := by
    have within := startWithin found
    omega
  exact (getOfFn (insideCons.mpr ⟨below,insideCons.mpr ⟨head,insideCons.mpr ⟨entry,.nil⟩⟩⟩)).trans read

theorem padTokensOk {batch : Nat} {f : List Nat → α} (within : len ≤ seqLen) :
    padTokens (ofFn [batch,heads,len,headDim] f) batch heads len seqLen headDim =
      .ok (ofFn [batch,heads,seqLen,headDim] fun idx => if idx.getD 2 0 < len then f idx else 0) := by
  unfold padTokens
  split
  · have filled := @padReads _ f 2 _ [batch,heads,0,headDim] len (seqLen-len) (by simp)
    have whole : len+(seqLen-len) = seqLen := by omega
    rw [whole] at filled
    exact filled
  · obtain rfl : len = seqLen := by omega
    refine congrArg _ (ofFnCongr fun idx inside => ?_)
    obtain ⟨i,h,t,e,rfl,_,_,token,_⟩ := inside4 inside
    exact (if_pos token).symm

def batchedRow (attn : Tensor α) (heads len offset : Nat) (idx : List Nat) : α :=
  let place := headsOfTokens heads len idx
  if idx.getD 2 0 < len then attn.get (place.set 0 (offset+place.getD 0 0)) else 0

theorem unpackRowsOk {attn : Tensor α} {total : Nat} (shape : attn.dims = [total,heads,headDim]) {offset : Nat}
    (fits : offset+lens.sum ≤ total) (within : ∀ len ∈ lens, len ≤ seqLen) :
    ∃ rows, unpackRows attn heads seqLen headDim offset lens = .ok rows ∧ rows.length = lens.length ∧
      ∀ i len, lens[i]? = some len →
        rows[i]? = some (ofFn [1,heads,seqLen,headDim] (batchedRow attn heads len (offset+start lens i))) := by
  induction lens generalizing offset with
  | nil => exact ⟨[],rfl,rfl,fun i len found => by cases found⟩
  | cons len rest ih =>
    rw [List.sum_cons] at fits
    obtain ⟨rows,made,lengths,each⟩ := @ih (offset+len) (by omega) fun len inside => within len (List.mem_cons_of_mem _ inside)
    have cut : attn.narrow 0 offset len =
        .ok (ofFn [len,heads,headDim] fun idx => attn.get (idx.set 0 (offset+idx.getD 0 0))) := by
      conv_lhs => rw [ofFnGet shape]
      exact narrowReads [total,heads,headDim] (by simp) (by simp; omega)
    have slice : (ofFn [len,heads,headDim] fun idx => attn.get (idx.set 0 (offset+idx.getD 0 0))).reshape [1,heads,len,headDim] =
        .ok (ofFn [1,heads,len,headDim] fun idx => attn.get
          ((headsOfTokens heads len idx).set 0 (offset+(headsOfTokens heads len idx).getD 0 0))) := by
      refine reshapeReads [len,heads,headDim] (headsOfTokens heads len) (by simp; ring) fun idx inside => ?_
      obtain ⟨i,h,t,e,rfl,first,head,token,entry⟩ := inside4 inside
      obtain rfl := Nat.lt_one_iff.mp first
      have place : h*len+t < heads*len := placeBelow head token
      constructor
      · simp only [headsOfTokens,insideCons]
        exact ⟨Nat.div_lt_of_lt_mul place,Nat.mod_lt _ (by omega),entry,.nil⟩
      · have split := Nat.div_add_mod (h*len+t) heads
        simp only [headsOfTokens,ravel,List.prod_cons,List.prod_nil,Nat.mul_one,Nat.add_zero,Nat.zero_mul,Nat.zero_add]
        calc (h*len+t)/heads*(heads*headDim)+((h*len+t)%heads*headDim+e)
            = (heads*((h*len+t)/heads)+(h*len+t)%heads)*headDim+e := by ring
          _ = h*(len*headDim)+(t*headDim+e) := by rw [split]; ring
    have padded := @padTokensOk _ _ heads seqLen headDim len 1 (fun idx => attn.get
      ((headsOfTokens heads len idx).set 0 (offset+(headsOfTokens heads len idx).getD 0 0))) (within len List.mem_cons_self)
    refine ⟨_::rows,exceptBind.mpr ⟨_,cut,exceptBind.mpr ⟨_,slice,exceptBind.mpr ⟨_,padded,exceptBind.mpr ⟨_,made,rfl⟩⟩⟩⟩,
      by simp [lengths],fun i len' found => ?_⟩
    cases i with
    | zero =>
      cases found
      rfl
    | succ i =>
      rw [startCons,← Nat.add_assoc]
      exact each i len' found

end Rows

section Kept
variable {heads headDim batch : Nat} {q k v packed : Tensor α} (s : Lengths)

theorem chunkEntry {p : Nat × Nat} (inside : p ∈ s.queryLens.zipIdx) :
    p.2 < s.queryLens.length ∧ 1 ≤ p.1 ∧ p.1 ≤ s.seqLen := by
  have found := List.mem_zipIdx_iff_getElem?.mp inside
  exact ⟨(List.getElem?_eq_some_iff.mp found).1,s.within _ (List.mem_of_getElem? found)⟩

theorem packQueryOk (some : s.queryLens ≠ []) (shape : q.dims = [s.queryLens.length,heads,s.seqLen,headDim]) :
    packQueryForVarlenPrefill q s.queryLens =
      .ok (laid s.queryLens heads headDim fun p idx => q.get ((tokensOfHeads heads p.1 idx).set 0 p.2)) := by
  unfold packQueryForVarlenPrefill dims4
  rw [shape]
  refine exceptBind.mpr ⟨_,rfl,?_⟩
  dsimp only
  rw [if_neg (by simp)]
  refine exceptBind.mpr ⟨_,exceptMapAll fun p inside => ?_,catLaid some⟩
  obtain ⟨below,few,within⟩ := chunkEntry s inside
  exact queryChunkOk shape below few within

theorem packKvOk (some : s.queryLens ≠ []) (kShape : k.dims = [s.queryLens.length,heads,s.seqLen,headDim])
    (vShape : v.dims = [s.queryLens.length,heads,s.seqLen,headDim]) :
    packKvForVarlenPrefill k v s.queryLens =
      .ok (laid s.queryLens heads headDim fun p idx => k.get ((swapAt 1 2 (0::idx)).set 0 p.2),
        laid s.queryLens heads headDim fun p idx => v.get ((swapAt 1 2 (0::idx)).set 0 p.2)) := by
  unfold packKvForVarlenPrefill dims4
  rw [kShape,vShape]
  refine exceptBind.mpr ⟨_,rfl,exceptBind.mpr ⟨_,rfl,?_⟩⟩
  dsimp only
  rw [if_neg (by simp)]
  refine exceptBind.mpr ⟨_,exceptMapAll (g := fun p => (ofFn [p.1,heads,headDim] fun idx => k.get ((swapAt 1 2 (0::idx)).set 0 p.2),
    ofFn [p.1,heads,headDim] fun idx => v.get ((swapAt 1 2 (0::idx)).set 0 p.2))) fun p inside => ?_,
    exceptBind.mpr ⟨_,?_,exceptBind.mpr ⟨_,?_,rfl⟩⟩⟩
  · obtain ⟨below,few,within⟩ := chunkEntry s inside
    exact exceptBind.mpr ⟨(),checked few within,exceptBind.mpr ⟨_,tokenChunkOk kShape below within,
      exceptBind.mpr ⟨_,tokenChunkOk vShape below within,rfl⟩⟩⟩
  · rw [List.map_map]
    exact catLaid (g := fun p idx => k.get ((swapAt 1 2 (0::idx)).set 0 p.2)) some
  · rw [List.map_map]
    exact catLaid (g := fun p idx => v.get ((swapAt 1 2 (0::idx)).set 0 p.2)) some

theorem unpackOk (some : s.queryLens ≠ []) (shape : packed.dims = [s.queryLens.sum,heads,headDim]) :
    unpackVarlenAttnToBatched packed s.queryLens s.queryLens.length s.seqLen =
      .ok (ofFn [s.queryLens.length,heads,s.seqLen,headDim]
        (stacked fun i => batchedRow packed heads (s.queryLens.getD i 0) (start s.queryLens i))) := by
  obtain ⟨rows,made,lengths,each⟩ := @unpackRowsOk _ _ _ s.seqLen _ _ _ _ shape 0 (by omega)
    fun len inside => (s.within len inside).2
  unfold unpackVarlenAttnToBatched dims3
  rw [shape]
  refine exceptBind.mpr ⟨_,rfl,?_⟩
  dsimp only
  rw [if_neg (by simp),if_neg (by simp)]
  refine exceptBind.mpr ⟨rows,made,?_⟩
  rw [← lengths]
  refine catRows (fun none => some (List.eq_nil_of_length_eq_zero (by rw [← lengths,none]; rfl))) fun i t found => ?_
  have bound : i < s.queryLens.length := lengths ▸ (List.getElem?_eq_some_iff.mp found).1
  have there := each i _ (List.getElem?_eq_getElem bound)
  rw [found,Nat.zero_add] at there
  rw [List.getD_eq_getElem _ _ bound]
  exact Option.some.inj there

theorem nothingToTurn {len t h : Nat} (turned : heads ≤ 1 ∨ len ≤ 1) (token : t < len) (head : h < heads) :
    (t*heads+h)/len = h ∧ (t*heads+h)%len = t ∧ (h*len+t)/heads = t ∧ (h*len+t)%heads = h := by
  rcases turned with one | one
  · obtain rfl : h = 0 := by omega
    obtain rfl : heads = 1 := by omega
    simp [Nat.div_eq_of_lt token,Nat.mod_eq_of_lt token,Nat.mod_one]
  · obtain rfl : t = 0 := by omega
    obtain rfl : len = 1 := by omega
    simp [Nat.div_eq_of_lt head,Nat.mod_eq_of_lt head,Nat.mod_one]

theorem batchedGet {i len t h e : Nat} (found : s.queryLens[i]? = some len) (token : t < s.seqLen) (head : h < heads)
    (entry : e < headDim) :
    (ofFn [s.queryLens.length,heads,s.seqLen,headDim]
      (stacked fun i => batchedRow packed heads (s.queryLens.getD i 0) (start s.queryLens i))).get [i,h,t,e] =
      if t < len then packed.get [start s.queryLens i+(h*len+t)/heads,(h*len+t)%heads,e] else 0 := by
  obtain ⟨bound,rfl⟩ := List.getElem?_eq_some_iff.mp found
  rw [getOfFn (.cons bound (.cons head (.cons token (.cons entry .nil)))),stacked,List.getD_eq_getElem _ _ bound]
  rfl

/-- The layouts hold for the shapes that leave nothing to turn: one head, no entries or single tokens. -/
theorem layoutsHoldIff [Nontrivial α] (s : Lengths) (heads headDim : Nat) : LayoutsHold α s heads headDim ↔
    s.queryLens ≠ [] ∧ (heads ≤ 1 ∨ headDim = 0 ∨ ∀ len ∈ s.queryLens, len ≤ 1) := by
  constructor
  · intro holds
    have some : s.queryLens ≠ [] := by
      intro none
      obtain ⟨packed,made,_⟩ := holds.queries (zeros [s.queryLens.length,heads,s.seqLen,headDim]) rfl
      unfold packQueryForVarlenPrefill at made
      rw [none] at made
      cases made
    refine ⟨some,?_⟩
    by_contra turned
    rw [not_or,not_or,not_forall] at turned
    obtain ⟨several,entries,len,long⟩ := turned
    obtain ⟨inside,long⟩ := Classical.not_imp.mp long
    obtain ⟨i,found⟩ := List.mem_iff_getElem?.mp inside
    -- the second head of the first token and the second token of the first head are mixed up
    obtain ⟨x,nonzero⟩ := exists_ne (0:α)
    let q : Tensor α := ofFn [s.queryLens.length,heads,s.seqLen,headDim] fun idx => if idx = [i,1,0,0] then x else 0
    obtain ⟨packed,made,layout⟩ := holds.queries q rfl
    rw [packQueryOk s some rfl] at made
    cases made
    have within := (s.within len inside).2
    have bound := (List.getElem?_eq_some_iff.mp found).1
    have read := layout.reads (t := 0) (h := 1) (e := 0) found (by omega) (by omega) (by omega)
    rw [laidGet found (by omega) (by omega) (by omega)] at read
    have front : (0*heads+1)/len = 0 := Nat.div_eq_of_lt (by omega)
    have behind : (0*heads+1)%len = 1 := by rw [Nat.zero_mul,Nat.zero_add,Nat.mod_eq_of_lt (by omega)]
    have left : q.get [i,0,1,0] = 0 :=
      (getOfFn (.cons bound (.cons (by omega) (.cons (by omega) (.cons (by omega) .nil))))).trans (if_neg (by simp))
    have right : q.get [i,1,0,0] = x :=
      (getOfFn (.cons bound (.cons (by omega) (.cons (by omega) (.cons (by omega) .nil))))).trans (if_pos rfl)
    simp only [tokensOfHeads,front,behind,List.set_cons_zero,left,right] at read
    exact nonzero read.symm
  · rintro ⟨some,turned⟩
    have still {i len e : Nat} (found : s.queryLens[i]? = .some len) (entry : e < headDim) : heads ≤ 1 ∨ len ≤ 1 := by
      rcases turned with one | none | short
      · exact .inl one
      · omega
      · exact .inr (short len (List.mem_of_getElem? found))
    refine ⟨fun q shape => ⟨_,packQueryOk s some shape,rfl,fun {i len t h e} found token head entry => ?_⟩,
      fun numKvHeads k v kShape vShape => ⟨_,_,packKvOk s some kShape vShape,
        ⟨rfl,fun found token head entry => laidGet found token head entry⟩,
        ⟨rfl,fun found token head entry => laidGet found token head entry⟩⟩,
      fun packed shape => ⟨_,unpackOk s some shape,rfl,fun {i len t h e} found token head entry => ?_,
        fun {i len t h e} found past token head entry => ?_⟩⟩
    · obtain ⟨front,behind,_,_⟩ := nothingToTurn (still found entry) token head
      rw [laidGet found token head entry,tokensOfHeads,front,behind]
      rfl
    · obtain ⟨_,_,front,behind⟩ := nothingToTurn (still found entry) token head
      have within := (s.within len (List.mem_of_getElem? found)).2
      rw [batchedGet s found (by omega) head entry,if_pos token,front,behind]
    · rw [batchedGet s found token head entry,if_neg (by omega)]

/-- Packing and unpacking misplace heads in the same way: one after the other, they give the rows back. -/
theorem roundTrip (some : s.queryLens ≠ []) (shape : q.dims = [s.queryLens.length,heads,s.seqLen,headDim]) :
    ∃ packed out, packQueryForVarlenPrefill q s.queryLens = .ok packed ∧
      unpackVarlenAttnToBatched packed s.queryLens s.queryLens.length s.seqLen = .ok out ∧
      ∀ {i len t h e}, s.queryLens[i]? = .some len → t < s.seqLen → h < heads → e < headDim →
        out.get [i,h,t,e] = if t < len then q.get [i,h,t,e] else 0 := by
  refine ⟨_,_,packQueryOk s some shape,unpackOk s some rfl,fun {i len t h e} found token head entry => ?_⟩
  rw [batchedGet s found token head entry]
  split
  · next valid =>
    have place : h*len+t < heads*len := placeBelow head valid
    have whole : (h*len+t)/heads*heads+(h*len+t)%heads = h*len+t := Nat.div_add_mod' _ _
    have first : (h*len+t)/len = h := placeRow valid
    have second : (h*len+t)%len = t := Nat.mul_add_mod_of_lt valid
    rw [laidGet found (Nat.div_lt_of_lt_mul place) (Nat.mod_lt _ (by omega)) entry,tokensOfHeads,whole,first,second]
    rfl
  · rfl

end Kept

def twoTokens : Lengths := ⟨[2],2,by decide⟩

def twoHeads : Tensor Nat := ⟨[1,2,2,1],[10,11,20,21],rfl⟩

theorem oneHeadLayouts : LayoutsHold Nat twoTokens 1 3 := (layoutsHoldIff twoTokens 1 3).mpr ⟨by decide,.inl (by decide)⟩

/- The second head of the first token should be 20. -/
theorem secondHeadMisplaced : (∃ packed, packQueryForVarlenPrefill twoHeads [2] = .ok packed ∧
    packed.get [0,1,0] = 11 ∧ twoHeads.get [0,1,0,0] = 20) ∧ ¬ LayoutsHold Nat twoTokens 2 1 := by
  have made : packQueryForVarlenPrefill twoHeads [2] = .ok ⟨[2,2,1],[10,11,20,21],rfl⟩ := rfl
  refine ⟨⟨_,made,rfl,rfl⟩,fun holds => ?_⟩
  obtain ⟨packed,packs,layout⟩ := holds.queries twoHeads rfl
  cases made.symm.trans packs
  have read := layout.reads (i := 0) (t := 0) (h := 1) (e := 0) rfl (by decide) (by decide) (by decide)
  exact absurd read (by decide)

end Qwen3Asr.VarlenLayouts
