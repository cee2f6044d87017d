import Qwen3Asr.VarlenLayouts
import Qwen3Asr.VarlenParams

/-! Attention of a padded batch over packed keys and values, whose token axis holds the sequences
one after the other. A batch of one length takes a path of its own, which reshapes the packed
entries head by head as if they were packed token by token. -/
namespace Qwen3Asr.PackedVarlen
open Library Library.Effect Library.Word Library.Packing Tensor
open PagedMetadata VarlenParams VarlenLayouts

variable {α : Type} [Zero α]

/- Attention over one sequence, of some scale, causality and grouping of heads. -/
structure Attention (α : Type) [Zero α] where
  attend : (q k v : Tensor α) → Option (Tensor α) → Tensor α
  shaped : ∀ q k v mask, (attend q k v mask).dims = q.dims

inductive Device where
  | cpu
  | metal
  | cuda
  deriving DecidableEq, Repr

section Code

def sdpaHeadDims : List Nat := [32,64,72,80,96,128,256,512]

def validSdpaHeadDim (headDim : Nat) : Bool := sdpaHeadDims.contains headDim

variable (A : Attention α)

def attendRow (q k v : Tensor α) (mask : Option (Tensor α)) (row : Nat) : Except String (Tensor α) := do
  let qRow ← q.narrow 0 row 1
  let kRow ← k.narrow 0 row 1
  let vRow ← v.narrow 0 row 1
  let maskRow ← mask.mapM (·.narrow 0 row 1)
  .ok (A.attend qRow kRow vRow maskRow)

/- Products and softmax never mix the rows of a batch, so each row is attended to on its own. -/
def runSingleSequenceAttention (q k v : Tensor α) (mask : Option (Tensor α)) : Except String (Tensor α) := do
  let batch ← q.dim 0
  let rows ← (List.range batch).mapM (attendRow A q k v mask)
  cat rows 0

def batchedKv (k : Tensor α) (total batch kvLen headDim : Nat) : Except String (Tensor α) := do
  let cut ← k.narrow 2 0 total
  let heads ← k.dim 1
  let tokens ← cut.reshape [batch,kvLen,heads,headDim]
  tokens.transpose 1 2

def activeQueries (q : Tensor α) (qLen seqLen : Nat) : Except String (Tensor α) :=
  if qLen = seqLen then .ok q else q.narrow 2 0 qLen

def activeMask (mask : Tensor α) (qLen seqLen : Nat) : Except String (Tensor α) :=
  if qLen < seqLen then mask.narrow 2 0 qLen else .ok mask

def batchedMask (qLen seqLen kvLen : Nat) (mask : Tensor α) : Except String (Tensor α) := do
  let active ← activeMask mask qLen seqLen
  active.narrow 3 0 kvLen

def uniformAttention (q k v : Tensor α) (mask : Option (Tensor α)) (batch seqLen totalKv headDim qLen kvLen : Nat) :
    Except String (Tensor α) := do
  let total ← okOr (checkedMul batch kvLen) "packed kv token count overflow"
  if totalKv < total then
    .error s!"packed kv length exceeds gathered cache: total={total} gathered={totalKv}"
  else do
    let qActive ← activeQueries q qLen seqLen
    let kBatched ← batchedKv k total batch kvLen headDim
    let vBatched ← batchedKv v total batch kvLen headDim
    let mask ← mask.mapM (batchedMask qLen seqLen kvLen)
    let out ← runSingleSequenceAttention A qActive kBatched vBatched mask
    let heads ← out.dim 1
    padTokens out batch heads qLen seqLen headDim

def rowMask (row qLen kvLen : Nat) (mask : Tensor α) : Except String (Tensor α) := do
  let cut ← mask.narrow 0 row 1
  let cut ← cut.narrow 2 0 qLen
  cut.narrow 3 0 kvLen

def rowAttention (q : Tensor α) (mask : Option (Tensor α)) (seqLen headDim row qLen kvLen : Nat) (kRow vRow : Tensor α) :
    Except String (Tensor α) := do
  let cut ← q.narrow 0 row 1
  let qRow ← cut.narrow 2 0 qLen
  let maskRow ← mask.mapM (rowMask row qLen kvLen)
  let outRow ← runSingleSequenceAttention A qRow kRow vRow maskRow
  let heads ← outRow.dim 1
  padTokens outRow 1 heads qLen seqLen headDim

def raggedRows (q k v : Tensor α) (mask : Option (Tensor α)) (seqLen totalKv headDim : Nat) :
    Nat → List ((Nat × Nat) × Nat) → Except String (List (Tensor α))
  | _, [] => .ok []
  | kvOffset, ((qLen,kvLen),row)::rest => do
    let kvEnd ← okOr (checkedAdd kvOffset kvLen) "packed kv offset overflow"
    if totalKv < kvEnd then
      .error s!"packed kv slice exceeds gathered cache: end={kvEnd} gathered={totalKv}"
    else do
      let kRow ← k.narrow 2 kvOffset kvLen
      let vRow ← v.narrow 2 kvOffset kvLen
      let outRow ← rowAttention A q mask seqLen headDim row qLen kvLen kRow vRow
      let rows ← raggedRows q k v mask seqLen totalKv headDim kvEnd rest
      .ok (outRow::rows)

def raggedAttention (q k v : Tensor α) (mask : Option (Tensor α)) (seqLen totalKv headDim : Nat)
    (queryLens kvLens : List Nat) : Except String (Tensor α) := do
  let rows ← raggedRows A q k v mask seqLen totalKv headDim 0 (queryLens.zip kvLens).zipIdx
  cat rows 0

def uniform (lens : List Nat) : Bool := lens.all (· = lens.headD 0)

def packedVarlenAttention (device : Device) (q k v : Tensor α) (mask : Option (Tensor α)) (flashParams : FlashParams) :
    Except String (Option (Tensor α)) := do
  let (batch,_,seqLen,headDim) ← q.dims4
  if ¬ validSdpaHeadDim headDim then .ok none else
  if device = .cuda then .ok none else do
  let (kb,_,totalKv,kvHeadDim) ← k.dims4
  let (vb,_,_,vHeadDim) ← v.dims4
  if kb ≠ 1 ∨ vb ≠ 1 ∨ headDim ≠ kvHeadDim ∨ headDim ≠ vHeadDim then .ok none else do
  let cuQ ← okOr flashParams.cumulativeSeqlensQ "packed varlen missing cu_seqlens_q"
  let cuK ← okOr flashParams.cumulativeSeqlensK "packed varlen missing cu_seqlens_k"
  let queryLens ← sequenceLengthsFromCu cuQ
  let kvLens ← sequenceLengthsFromCu cuK
  if queryLens.length ≠ batch ∨ kvLens.length ≠ batch then
    .error s!"packed varlen length mismatch: batch={batch} query_lens={queryLens.length} kv_lens={kvLens.length}"
  else if uniform queryLens ∧ uniform kvLens then do
    let out ← uniformAttention A q k v mask batch seqLen totalKv headDim (queryLens.headD 0) (kvLens.headD 0)
    .ok (some out)
  else do
    let out ← raggedAttention A q k v mask seqLen totalKv headDim queryLens kvLens
    .ok (some out)

def packedView (gathered : Tensor α) : Except String (Tensor α) := do
  let unsqueezed ← gathered.unsqueeze 0
  unsqueezed.transpose 1 2

def unpackSeqs (packed : Tensor α) (numKvHeads headSize maxKv : Nat) : Nat → List Nat → Except String (List (Tensor α))
  | _, [] => .ok []
  | start, kvLen::rest => do
    let cut ← packed.narrow 0 start kvLen
    let turned ← cut.transpose 0 1
    let seq ← turned.unsqueeze 0
    let seq ← padTokens seq 1 numKvHeads kvLen maxKv headSize
    let unpacked ← unpackSeqs packed numKvHeads headSize maxKv (start+kvLen) rest
    .ok (seq::unpacked)

def unpackGatheredKvForAttention (packed : Tensor α) (kvLens : List Nat) (numKvHeads headSize : Nat) :
    Except String (Tensor α) :=
  let maxKv := maxOf kvLens
  let batch := kvLens.length
  if kvLens = [] then .error "unpack_gathered_kv_for_attention requires at least one sequence" else
  if maxKv = 0 then .ok (zeros [batch,numKvHeads,0,headSize]) else
  if kvLens.all (· = maxKv) then do
    let total ← okOr (checkedMul batch maxKv) "gathered kv token count overflow"
    let cut ← packed.narrow 0 0 total
    let tokens ← cut.reshape [batch,maxKv,numKvHeads,headSize]
    tokens.transpose 1 2
  else do
    let unpacked ← unpackSeqs packed numKvHeads headSize maxKv 0 kvLens
    cat unpacked 0

end Code

structure Sequences where
  queryLens : List Nat
  kvLens : List Nat
  seqLen : Nat
  paired : queryLens.length = kvLens.length
  within : ∀ len ∈ queryLens, len ≤ seqLen
  querySmall : queryLens.sum < 2^32
  kvSmall : kvLens.sum < 2^32

def Sequences.batch (s : Sequences) : Nat := s.queryLens.length

structure Heads where
  heads : Nat
  kvHeads : Nat
  headDim : Nat
  deriving DecidableEq, Repr

structure Batch (α : Type) [Zero α] (s : Sequences) (d : Heads) where
  q : Tensor α
  k : Tensor α
  v : Tensor α
  mask : Option (Tensor α)
  qShape : q.dims = [s.batch,d.heads,s.seqLen,d.headDim]
  kShape : k.dims = [s.kvLens.sum,d.kvHeads,d.headDim]
  vShape : v.dims = [s.kvLens.sum,d.kvHeads,d.headDim]
  maskShape : ∀ m, mask = some m →
    ∃ maskHeads width, m.dims = [s.batch,maskHeads,s.seqLen,width] ∧ ∀ len ∈ s.kvLens, len ≤ width

section Spec
variable (A : Attention α) {s : Sequences} {d : Heads} (b : Batch α s d)

def rowQueries (i qLen : Nat) : Tensor α := ofFn [1,d.heads,qLen,d.headDim] fun idx => b.q.get (idx.set 0 i)

def tokenAt (gathered : Tensor α) (start : Nat) : List Nat → α
  | [_,h,t,e] => gathered.get [start+t,h,e]
  | _ => 0

def sequenceTokens (d : Heads) (gathered : Tensor α) (start len : Nat) : Tensor α :=
  ofFn [1,d.kvHeads,len,d.headDim] (tokenAt gathered start)

def maskAt (m : Tensor α) (i qLen kvLen : Nat) : Tensor α := ofFn [1,m.dims.getD 1 0,qLen,kvLen] fun idx => m.get (idx.set 0 i)

def alone (i qLen kvLen : Nat) : Tensor α :=
  A.attend (rowQueries b i qLen) (sequenceTokens d b.k (start s.kvLens i) kvLen) (sequenceTokens d b.v (start s.kvLens i) kvLen)
    (b.mask.map fun m => maskAt m i qLen kvLen)

structure Exact (out : Tensor α) : Prop where
  shape : out.dims = [s.batch,d.heads,s.seqLen,d.headDim]
  attended : ∀ {i qLen kvLen h t e}, s.queryLens[i]? = some qLen → s.kvLens[i]? = some kvLen → t < qLen → h < d.heads →
    e < d.headDim → out.get [i,h,t,e] = (alone A b i qLen kvLen).get [0,h,t,e]
  padding : ∀ {i qLen h t e}, s.queryLens[i]? = some qLen → qLen ≤ t → t < s.seqLen → h < d.heads →
    e < d.headDim → out.get [i,h,t,e] = 0

def unpackedRow (k v : Tensor α) : (Nat × Nat) × Nat → Except String (Tensor α) := fun ((qLen,kvLen),row) => do
  let kCut ← k.narrow 0 row 1
  let kRow ← kCut.narrow 2 0 kvLen
  let vCut ← v.narrow 0 row 1
  let vRow ← vCut.narrow 2 0 kvLen
  rowAttention A b.q b.mask s.seqLen d.headDim row qLen kvLen kRow vRow

def unpackedAttention : Except String (Tensor α) := do
  let k ← unpackGatheredKvForAttention b.k s.kvLens d.kvHeads d.headDim
  let v ← unpackGatheredKvForAttention b.v s.kvLens d.kvHeads d.headDim
  let rows ← (s.queryLens.zip s.kvLens).zipIdx.mapM (unpackedRow A b k v)
  cat rows 0

end Spec

section Single
variable {A : Attention α} {q k v t : Tensor α} {mask : Option (Tensor α)}

omit [Zero α] in
theorem dimOk {dims : List Nat} {j n : Nat} (shape : t.dims = dims) (found : dims[j]? = some n) : t.dim j = .ok n := by
  unfold dim
  rw [shape,found]

theorem runOne {qDims kDims vDims : List Nat} (qShape : q.dims = 1::qDims) (kShape : k.dims = 1::kDims)
    (vShape : v.dims = 1::vDims) (maskShape : ∀ m, mask = some m → ∃ dims, m.dims = 1::dims) :
    runSingleSequenceAttention A q k v mask = .ok (A.attend q k v mask) := by
  have masked : mask.mapM (·.narrow 0 0 1) = .ok mask := by
    cases mask with
    | none => rfl
    | some m =>
      obtain ⟨dims,shape⟩ := maskShape m rfl
      exact exceptMapSome.mpr ⟨m,onlyRow shape,rfl⟩
  have row : attendRow A q k v mask 0 = .ok (A.attend q k v mask) :=
    exceptBind.mpr ⟨q,onlyRow qShape,exceptBind.mpr ⟨k,onlyRow kShape,exceptBind.mpr ⟨v,onlyRow vShape,
      exceptBind.mpr ⟨mask,masked,rfl⟩⟩⟩⟩
  refine exceptBind.mpr ⟨1,dimOk qShape rfl,exceptBind.mpr ⟨[A.attend q k v mask],?_,catOnly ((A.shaped q k v mask).trans qShape)⟩⟩
  rw [List.range_one,List.mapM_cons,row]
  rfl

end Single

section Rows
variable {A : Attention α} {s : Sequences} {d : Heads} {b : Batch α s d} {i qLen kvLen : Nat}

def aloneRow (A : Attention α) (b : Batch α s d) (i : Nat) (idx : List Nat) : α :=
  if idx.getD 2 0 < s.queryLens.getD i 0 then (alone A b i (s.queryLens.getD i 0) (s.kvLens.getD i 0)).get idx else 0

def exactOut (A : Attention α) (b : Batch α s d) : Tensor α :=
  ofFn [s.batch,d.heads,s.seqLen,d.headDim] (stacked (aloneRow A b))

theorem aloneRowAt (queries : s.queryLens[i]? = some qLen) (keys : s.kvLens[i]? = some kvLen) (idx : List Nat) :
    aloneRow A b i idx = if idx.getD 2 0 < qLen then (alone A b i qLen kvLen).get idx else 0 := by
  have first : s.queryLens.getD i 0 = qLen := by rw [List.getD_eq_getElem?_getD,queries,Option.getD_some]
  have second : s.kvLens.getD i 0 = kvLen := by rw [List.getD_eq_getElem?_getD,keys,Option.getD_some]
  rw [aloneRow,first,second]

theorem lensAt (inside : i < s.batch) : ∃ qLen kvLen, s.queryLens[i]? = some qLen ∧ s.kvLens[i]? = some kvLen :=
  ⟨_,_,List.getElem?_eq_getElem inside,List.getElem?_eq_getElem (s.paired ▸ inside)⟩

theorem exactIff {out : Tensor α} : Exact A b out ↔ out = exactOut A b := by
  have read {i h t e : Nat} (row : i < s.batch) (head : h < d.heads) (token : t < s.seqLen) (entry : e < d.headDim) :
      (exactOut A b).get [i,h,t,e] = aloneRow A b i [0,h,t,e] :=
    getOfFn (.cons row (.cons head (.cons token (.cons entry .nil))))
  constructor
  · intro exact_
    refine getExt exact_.shape fun idx inside => ?_
    rw [exact_.shape] at inside
    obtain ⟨i,h,t,e,rfl,row,head,token,entry⟩ := inside4 inside
    obtain ⟨qLen,kvLen,queries,keys⟩ := lensAt row
    rw [read row head token entry,aloneRowAt queries keys]
    split
    · next valid => exact exact_.attended queries keys valid head entry
    · next past => exact exact_.padding queries (Nat.not_lt.mp past) token head entry
  · rintro rfl
    refine ⟨rfl,fun {i qLen kvLen h t e} queries keys valid head entry => ?_,fun {i qLen h t e} queries past token head entry => ?_⟩
    · have row := (List.getElem?_eq_some_iff.mp queries).1
      have within := s.within qLen (List.mem_of_getElem? queries)
      have token : t < s.seqLen := Nat.lt_of_lt_of_le valid within
      rw [read row head token entry,aloneRowAt queries keys]
      exact if_pos valid
    · have row := (List.getElem?_eq_some_iff.mp queries).1
      obtain ⟨_,kvLen,_,keys⟩ := lensAt row
      rw [read row head token entry,aloneRowAt queries keys]
      exact if_neg (Nat.not_lt.mpr past)

theorem rowMaskOk (queries : s.queryLens[i]? = some qLen) (keys : s.kvLens[i]? = some kvLen) :
    b.mask.mapM (rowMask i qLen kvLen) = .ok (b.mask.map fun m => maskAt m i qLen kvLen) := by
  have row := (List.getElem?_eq_some_iff.mp queries).1
  have within := s.within qLen (List.mem_of_getElem? queries)
  cases given : b.mask with
  | none => rfl
  | some m =>
    obtain ⟨maskHeads,width,shape,wide⟩ := b.maskShape m given
    have fits := wide kvLen (List.mem_of_getElem? keys)
    have cut : m.narrow 0 i 1 = .ok (ofFn [1,maskHeads,s.seqLen,width] fun idx => m.get (idx.set 0 i)) := by
      conv_lhs => rw [ofFnGet shape]
      exact narrowRow row
    have made : rowMask i qLen kvLen m = .ok (maskAt m i qLen kvLen) := by
      rw [maskAt,shape]
      exact exceptBind.mpr ⟨_,cut,exceptBind.mpr ⟨_,narrowFront [1,maskHeads,s.seqLen,width] (by simp) within,
        narrowFront [1,maskHeads,qLen,width] (by simp) fits⟩⟩
    exact exceptMapSome.mpr ⟨_,made,rfl⟩

theorem rowAttentionOk (queries : s.queryLens[i]? = some qLen) (keys : s.kvLens[i]? = some kvLen) {kRow vRow : Tensor α}
    {kDims vDims : List Nat} (kShape : kRow.dims = 1::kDims) (vShape : vRow.dims = 1::vDims) :
    rowAttention A b.q b.mask s.seqLen d.headDim i qLen kvLen kRow vRow =
      .ok (ofFn [1,d.heads,s.seqLen,d.headDim] fun idx => if idx.getD 2 0 < qLen then
        (A.attend (rowQueries b i qLen) kRow vRow (b.mask.map fun m => maskAt m i qLen kvLen)).get idx else 0) := by
  have row := (List.getElem?_eq_some_iff.mp queries).1
  have within := s.within qLen (List.mem_of_getElem? queries)
  have shaped := A.shaped (rowQueries b i qLen) kRow vRow (b.mask.map fun m => maskAt m i qLen kvLen)
  have masks (m : Tensor α) (given : (b.mask.map fun m => maskAt m i qLen kvLen) = some m) : ∃ dims, m.dims = 1::dims := by
    obtain ⟨whole,_,rfl⟩ := Option.map_eq_some_iff.mp given
    exact ⟨_,rfl⟩
  refine exceptBind.mpr ⟨_,?_,exceptBind.mpr ⟨rowQueries b i qLen,narrowFront [1,d.heads,s.seqLen,d.headDim] (by simp) within,
    exceptBind.mpr ⟨_,rowMaskOk queries keys,exceptBind.mpr ⟨_,runOne rfl kShape vShape masks,
      exceptBind.mpr ⟨d.heads,dimOk shaped rfl,?_⟩⟩⟩⟩⟩
  · conv_lhs => rw [ofFnGet b.qShape]
    exact narrowRow row
  · conv_lhs => rw [ofFnGet shaped]
    exact padTokensOk within

theorem catAlone {rows : List (Tensor α)} (some : s.queryLens ≠ []) (lengths : rows.length = s.batch)
    (each : ∀ i t, rows[i]? = .some t → t = ofFn [1,d.heads,s.seqLen,d.headDim] (aloneRow A b i)) :
    cat rows 0 = .ok (exactOut A b) := by
  have filled : rows ≠ [] := fun none => some (List.eq_nil_of_length_eq_zero (by rw [none] at lengths; exact lengths.symm))
  rw [catRows filled each,lengths]
  rfl

theorem rowAlone (queries : s.queryLens[i]? = some qLen) (keys : s.kvLens[i]? = some kvLen) :
    rowAttention A b.q b.mask s.seqLen d.headDim i qLen kvLen (sequenceTokens d b.k (start s.kvLens i) kvLen)
      (sequenceTokens d b.v (start s.kvLens i) kvLen) = .ok (ofFn [1,d.heads,s.seqLen,d.headDim] (aloneRow A b i)) := by
  rw [rowAttentionOk queries keys rfl rfl]
  exact congrArg _ (ofFnCongr fun idx _ => (aloneRowAt queries keys idx).symm)

end Rows

section Packed
variable {d : Heads} {gathered : Tensor α} {total first len : Nat}

theorem packedViewOk (shape : gathered.dims = [total,d.kvHeads,d.headDim]) :
    packedView gathered = .ok (sequenceTokens d gathered 0 total) := by
  have unsqueezed : gathered.unsqueeze 0 =
      .ok (ofFn [1,total,d.kvHeads,d.headDim] fun idx => gathered.get idx.tail) := by
    conv_lhs => rw [ofFnGet shape]
    exact unsqueezeReads [total,d.kvHeads,d.headDim]
  refine exceptBind.mpr ⟨_,unsqueezed,(transposeReads (by simp) (by simp)).trans (congrArg _ (ofFnCongr fun idx inside => ?_))⟩
  obtain ⟨i,h,t,e,rfl,_⟩ := inside4 inside
  exact congrArg (fun first => gathered.get [first,h,e]) (Nat.zero_add t).symm

def gatheredAt (packed : Tensor α) : List Nat → α
  | [t,h,e] => packed.get [0,h,t,e]
  | _ => 0

theorem everyPacked {packed : Tensor α} (shape : packed.dims = [1,d.kvHeads,total,d.headDim]) :
    ∃ gathered : Tensor α, gathered.dims = [total,d.kvHeads,d.headDim] ∧ packedView gathered = .ok packed := by
  refine ⟨ofFn [total,d.kvHeads,d.headDim] (gatheredAt packed),rfl,(packedViewOk rfl).trans (congrArg _ ?_)⟩
  conv_rhs => rw [ofFnGet shape]
  refine ofFnCongr fun idx inside => ?_
  obtain ⟨i,h,t,e,rfl,only,head,token,entry⟩ := inside4 inside
  obtain rfl := Nat.lt_one_iff.mp only
  unfold tokenAt
  dsimp only
  rw [Nat.zero_add]
  exact getOfFn (.cons token (.cons head (.cons entry .nil)))

theorem sliceOk (fits : first+len ≤ total) :
    (sequenceTokens d gathered 0 total).narrow 2 first len = .ok (sequenceTokens d gathered first len) := by
  refine (narrowReads [1,d.kvHeads,total,d.headDim] (by simp) fits).trans (congrArg _ (ofFnCongr fun idx inside => ?_))
  obtain ⟨i,h,t,e,rfl,_⟩ := inside4 inside
  simp [tokenAt]

end Packed

section Ragged
variable {A : Attention α} {s : Sequences} {d : Heads} {b : Batch α s d}

theorem raggedRowsOk {queriesDone kvDone queryLens kvLens : List Nat} (queries : s.queryLens = queriesDone ++ queryLens)
    (keys : s.kvLens = kvDone ++ kvLens) (same : queriesDone.length = kvDone.length) :
    ∃ rows, raggedRows A b.q (sequenceTokens d b.k 0 s.kvLens.sum) (sequenceTokens d b.v 0 s.kvLens.sum) b.mask s.seqLen
      s.kvLens.sum d.headDim kvDone.sum ((queryLens.zip kvLens).zipIdx kvDone.length) = .ok rows ∧
      rows.length = queryLens.length ∧
      ∀ i t, rows[i]? = some t → t = ofFn [1,d.heads,s.seqLen,d.headDim] (aloneRow A b (kvDone.length+i)) := by
  induction queryLens generalizing queriesDone kvDone kvLens with
  | nil => exact ⟨[],rfl,rfl,fun i t found => by cases found⟩
  | cons qLen queryLens ih =>
    cases kvLens with
    | nil =>
      have paired := s.paired
      rw [queries,keys] at paired
      simp at paired
      omega
    | cons kvLen kvLens =>
      have query : s.queryLens[kvDone.length]? = some qLen := by rw [queries,← same]; simp
      have key : s.kvLens[kvDone.length]? = some kvLen := by rw [keys]; simp
      have offset : start s.kvLens kvDone.length = kvDone.sum := by rw [start,keys,List.take_left]
      have within : kvDone.sum+kvLen ≤ s.kvLens.sum := offset ▸ startWithin key
      obtain ⟨rows,made,lengths,each⟩ := @ih (queriesDone ++ [qLen]) (kvDone ++ [kvLen]) kvLens (by simp [queries]) (by simp [keys])
        (by simp [same])
      rw [List.sum_append,List.sum_singleton,List.length_append,List.length_singleton] at made
      have small := s.kvSmall
      have row := @rowAlone _ _ A s d b _ _ _ query key
      rw [offset] at row
      refine ⟨ofFn [1,d.heads,s.seqLen,d.headDim] (aloneRow A b kvDone.length)::rows,?_,by simp [lengths],fun i t found => ?_⟩
      · rw [List.zip_cons_cons,List.zipIdx_cons,raggedRows]
        refine exceptBind.mpr ⟨kvDone.sum+kvLen,okOrOk.mpr (checkedAddSome.mpr ⟨by omega,rfl⟩),?_⟩
        rw [if_neg (by omega)]
        exact exceptBind.mpr ⟨_,sliceOk within,exceptBind.mpr ⟨_,sliceOk within,exceptBind.mpr ⟨_,row,
          exceptBind.mpr ⟨_,made,rfl⟩⟩⟩⟩
      · cases i with
        | zero =>
          cases found
          rfl
        | succ i =>
          have later := each i t found
          rwa [List.length_append,List.length_singleton,Nat.add_right_comm,Nat.add_assoc] at later

theorem raggedOk (some : s.queryLens ≠ []) : raggedAttention A b.q (sequenceTokens d b.k 0 s.kvLens.sum)
    (sequenceTokens d b.v 0 s.kvLens.sum) b.mask s.seqLen s.kvLens.sum d.headDim s.queryLens s.kvLens = .ok (exactOut A b) := by
  obtain ⟨rows,made,lengths,each⟩ := @raggedRowsOk _ _ A s d b [] [] s.queryLens s.kvLens rfl rfl rfl
  exact exceptBind.mpr ⟨rows,made,catAlone some lengths fun i t found => by
    have alone := each i t found
    rwa [List.length_nil,Nat.zero_add] at alone⟩

end Ragged

section Unpacked
variable {d : Heads} {gathered : Tensor α} {kvLens : List Nat} {maxKv : Nat}

def unpackedSeq (d : Heads) (gathered : Tensor α) (start kvLen : Nat) (idx : List Nat) : α :=
  if idx.getD 2 0 < kvLen then (sequenceTokens d gathered start kvLen).get idx else 0

def unpacked (d : Heads) (gathered : Tensor α) (kvLens : List Nat) : Tensor α :=
  ofFn [kvLens.length,d.kvHeads,maxOf kvLens,d.headDim] (stacked fun i => unpackedSeq d gathered (start kvLens i) (kvLens.getD i 0))

theorem seqOk {total first len : Nat} (shape : gathered.dims = [total,d.kvHeads,d.headDim]) (fits : first+len ≤ total) :
    ∃ cut turned, gathered.narrow 0 first len = .ok cut ∧ cut.transpose 0 1 = .ok turned ∧
      turned.unsqueeze 0 = .ok (sequenceTokens d gathered first len) := by
  refine ⟨ofFn [len,d.kvHeads,d.headDim] fun idx => gathered.get (idx.set 0 (first+idx.getD 0 0)),
    ofFn [d.kvHeads,len,d.headDim] fun idx => gathered.get ((swapAt 0 1 idx).set 0 (first+(swapAt 0 1 idx).getD 0 0)),?_,
    transposeReads (by simp) (by simp),?_⟩
  · conv_lhs => rw [ofFnGet shape]
    exact narrowReads [total,d.kvHeads,d.headDim] (by simp) fits
  · refine (unsqueezeReads [d.kvHeads,len,d.headDim]).trans (congrArg _ (ofFnCongr fun idx inside => ?_))
    obtain ⟨i,h,t,e,rfl,_⟩ := inside4 inside
    rfl

theorem unpackSeqsOk {total first : Nat} (shape : gathered.dims = [total,d.kvHeads,d.headDim]) (fits : first+kvLens.sum ≤ total)
    (within : ∀ len ∈ kvLens, len ≤ maxKv) :
    ∃ rows, unpackSeqs gathered d.kvHeads d.headDim maxKv first kvLens = .ok rows ∧ rows.length = kvLens.length ∧
      ∀ i t, rows[i]? = some t →
        t = ofFn [1,d.kvHeads,maxKv,d.headDim] (unpackedSeq d gathered (first+start kvLens i) (kvLens.getD i 0)) := by
  induction kvLens generalizing first with
  | nil => exact ⟨[],rfl,rfl,fun i t found => by cases found⟩
  | cons kvLen rest ih =>
    rw [List.sum_cons] at fits
    obtain ⟨rows,made,lengths,each⟩ := @ih (first+kvLen) (by omega) fun len inside => within len (List.mem_cons_of_mem _ inside)
    obtain ⟨cut,turned,narrowed,transposed,seq⟩ := @seqOk _ _ d gathered total first kvLen shape (by omega)
    have padded : padTokens (sequenceTokens d gathered first kvLen) 1 d.kvHeads kvLen maxKv d.headDim =
        .ok (ofFn [1,d.kvHeads,maxKv,d.headDim] (unpackedSeq d gathered first kvLen)) := by
      conv_lhs => rw [ofFnGet (t := sequenceTokens d gathered first kvLen) rfl]
      exact padTokensOk (within kvLen List.mem_cons_self)
    refine ⟨_::rows,exceptBind.mpr ⟨cut,narrowed,exceptBind.mpr ⟨turned,transposed,exceptBind.mpr ⟨_,seq,
      exceptBind.mpr ⟨_,padded,exceptBind.mpr ⟨rows,made,rfl⟩⟩⟩⟩⟩,by simp [lengths],fun i t found => ?_⟩
    cases i with
    | zero =>
      cases found
      rfl
    | succ i =>
      rw [startCons,← Nat.add_assoc]
      exact each i t found

section Same
variable {lens : List Nat} {len i : Nat}

theorem allSame (same : lens.all (· = len) = true) : lens = List.replicate lens.length len :=
  List.eq_replicate_iff.mpr ⟨rfl,fun each inside => of_decide_eq_true (List.all_eq_true.mp same each inside)⟩

theorem sameSum (same : lens.all (· = len) = true) : lens.sum = lens.length*len := by
  conv_lhs => rw [allSame same,List.sum_replicate_nat]

theorem sameStart (same : lens.all (· = len) = true) (inside : i < lens.length) : start lens i = i*len := by
  rw [allSame same,startReplicate _ _ _ (Nat.le_of_lt inside)]

theorem sameAt (same : lens.all (· = len) = true) (inside : i < lens.length) : lens[i]? = some len := by
  rw [allSame same,List.getElem?_replicate,if_pos inside]

end Same

def tokenPlace (len : Nat) : List Nat → List Nat
  | [i,t,h,e] => [i*len+t,h,e]
  | idx => idx

/- Unpacked, every sequence stands in a row of its own, whichever path it takes. -/
theorem unpackOk (some : kvLens ≠ []) (small : kvLens.sum < 2^64) (shape : gathered.dims = [kvLens.sum,d.kvHeads,d.headDim]) :
    unpackGatheredKvForAttention gathered kvLens d.kvHeads d.headDim = .ok (unpacked d gathered kvLens) := by
  unfold unpackGatheredKvForAttention
  dsimp only
  rw [if_neg some]
  split
  · next none =>
    unfold unpacked zeros
    rw [none]
    refine congrArg _ (ofFnCongr fun idx inside => ?_)
    obtain ⟨_,_,t,_,rfl,_,_,token,_⟩ := inside4 inside
    exact absurd token (Nat.not_lt_zero t)
  · split
    · next same =>
      have total := sameSum same
      have cut : gathered.narrow 0 0 (kvLens.length*maxOf kvLens) = .ok (ofFn [kvLens.sum,d.kvHeads,d.headDim] gathered.get) := by
        conv_lhs => rw [ofFnGet shape]
        rw [← total]
        exact narrowFront [kvLens.sum,d.kvHeads,d.headDim] (by simp) (Nat.le_refl _)
      have tokens : (ofFn [kvLens.sum,d.kvHeads,d.headDim] gathered.get).reshape [kvLens.length,maxOf kvLens,d.kvHeads,d.headDim] =
          .ok (ofFn [kvLens.length,maxOf kvLens,d.kvHeads,d.headDim] fun idx => gathered.get (tokenPlace (maxOf kvLens) idx)) := by
        refine reshapeReads [kvLens.sum,d.kvHeads,d.headDim] (tokenPlace (maxOf kvLens)) (by simp [total]; ring) fun idx inside => ?_
        obtain ⟨i,t,h,e,rfl,row,token,head,entry⟩ := inside4 inside
        refine ⟨.cons ?_ (.cons head (.cons entry .nil)),by simp [tokenPlace,ravel]; ring⟩
        rw [total]
        exact placeBelow row token
      refine exceptBind.mpr ⟨_,okOrOk.mpr (checkedMulSome.mpr ⟨total ▸ small,rfl⟩),exceptBind.mpr ⟨_,cut,
        exceptBind.mpr ⟨_,tokens,(transposeReads (by simp) (by simp)).trans (congrArg _ (ofFnCongr fun idx inside => ?_))⟩⟩⟩
      obtain ⟨i,h,t,e,rfl,row,head,token,entry⟩ := inside4 inside
      have here : kvLens.getD i 0 = maxOf kvLens := by rw [List.getD_eq_getElem?_getD,sameAt same row,Option.getD_some]
      have seq : (sequenceTokens d gathered (start kvLens i) (maxOf kvLens)).get [0,h,t,e] = gathered.get [start kvLens i+t,h,e] :=
        getOfFn (.cons Nat.one_pos (.cons head (.cons token (.cons entry .nil))))
      have valid : [0,h,t,e].getD 2 0 < maxOf kvLens := token
      rw [stacked,here,unpackedSeq,if_pos valid,seq,sameStart same row]
      rfl
    · obtain ⟨rows,made,lengths,each⟩ := @unpackSeqsOk _ _ d gathered kvLens (maxOf kvLens) kvLens.sum 0 shape (by omega)
        fun len inside => List.le_max?_getD_of_mem inside
      refine exceptBind.mpr ⟨rows,made,?_⟩
      have filled : rows ≠ [] := fun none => some (List.eq_nil_of_length_eq_zero (by rw [← lengths,none]; rfl))
      rw [catRows filled fun i t found => by have row := each i t found; rwa [Nat.zero_add] at row,lengths]
      rfl

theorem unpackedRowTokens {i kvLen : Nat} (found : kvLens[i]? = some kvLen) :
    ∃ cut, (unpacked d gathered kvLens).narrow 0 i 1 = .ok cut ∧
      cut.narrow 2 0 kvLen = .ok (sequenceTokens d gathered (start kvLens i) kvLen) := by
  have row := (List.getElem?_eq_some_iff.mp found).1
  have here : kvLens.getD i 0 = kvLen := by rw [List.getD_eq_getElem?_getD,found,Option.getD_some]
  have fits : kvLen ≤ maxOf kvLens := List.le_max?_getD_of_mem (List.mem_of_getElem? found)
  refine ⟨_,narrowRow row,(narrowFront [1,d.kvHeads,maxOf kvLens,d.headDim] (by simp) fits).trans
    (congrArg _ ((ofFnCongr fun idx inside => ?_).trans (ofGet (sequenceTokens d gathered (start kvLens i) kvLen))))⟩
  obtain ⟨j,h,t,e,rfl,only,head,token,entry⟩ := inside4 inside
  obtain rfl := Nat.lt_one_iff.mp only
  have valid : [0,h,t,e].getD 2 0 < kvLen := token
  simp only [List.set_cons_zero,stacked,here,unpackedSeq]
  exact if_pos valid

end Unpacked

section Attended
variable {A : Attention α} {s : Sequences} {d : Heads} {b : Batch α s d}

theorem unpackedOk (some : s.queryLens ≠ []) : unpackedAttention A b = .ok (exactOut A b) := by
  have filled : s.kvLens ≠ [] := fun none => some (List.eq_nil_of_length_eq_zero (by rw [s.paired,none]; rfl))
  have small : s.kvLens.sum < 2^64 := Nat.lt_trans s.kvSmall (by decide)
  have rows : (s.queryLens.zip s.kvLens).zipIdx.mapM (unpackedRow A b (unpacked d b.k s.kvLens) (unpacked d b.v s.kvLens)) =
      .ok ((s.queryLens.zip s.kvLens).zipIdx.map fun p => ofFn [1,d.heads,s.seqLen,d.headDim] (aloneRow A b p.2)) := by
    refine exceptMapAll fun p inside => ?_
    obtain ⟨queries,keys⟩ := List.getElem?_zip_eq_some.mp (List.mem_zipIdx_iff_getElem?.mp inside)
    obtain ⟨kCut,kFirst,kRow⟩ := @unpackedRowTokens _ _ d b.k s.kvLens _ _ keys
    obtain ⟨vCut,vFirst,vRow⟩ := @unpackedRowTokens _ _ d b.v s.kvLens _ _ keys
    exact exceptBind.mpr ⟨kCut,kFirst,exceptBind.mpr ⟨_,kRow,exceptBind.mpr ⟨vCut,vFirst,exceptBind.mpr ⟨_,vRow,
      rowAlone queries keys⟩⟩⟩⟩
  refine exceptBind.mpr ⟨_,unpackOk filled small b.kShape,exceptBind.mpr ⟨_,unpackOk filled small b.vShape,
    exceptBind.mpr ⟨_,rows,catAlone some ?_ fun i t found => ?_⟩⟩⟩
  · simp [s.paired,Sequences.batch]
  · rw [List.getElem?_map] at found
    obtain ⟨p,there,rfl⟩ := Option.map_eq_some_iff.mp found
    rw [List.getElem?_zipIdx] at there
    obtain ⟨_,_,rfl⟩ := Option.map_eq_some_iff.mp there
    simp

end Attended

section Uniform
variable {A : Attention α} {s : Sequences} {d : Heads} {b : Batch α s d} {gathered : Tensor α} {batch total kvLen i : Nat}

/- What the reshape takes for the tokens of a sequence: the place of token and head, read as head and token. -/
def mixedTokens (d : Heads) (gathered : Tensor α) (total kvLen i : Nat) : Tensor α :=
  ofFn [1,d.kvHeads,kvLen,d.headDim] fun
    | [_,h,t,e] =>
      let place := (i*kvLen+t)*d.kvHeads+h
      gathered.get [place%total,place/total,e]
    | _ => 0

def placeOfTokens (heads total kvLen : Nat) : List Nat → List Nat
  | [i,t,h,e] => [0,((i*kvLen+t)*heads+h)/total,((i*kvLen+t)*heads+h)%total,e]
  | idx => idx

theorem batchedKvOk (whole : total = batch*kvLen) : ∃ batched,
    batchedKv (sequenceTokens d gathered 0 total) total batch kvLen d.headDim = .ok batched ∧
      batched.dims = [batch,d.kvHeads,kvLen,d.headDim] ∧
      ∀ i, i < batch → batched.narrow 0 i 1 = .ok (mixedTokens d gathered total kvLen i) := by
  have cut : (sequenceTokens d gathered 0 total).narrow 2 0 total = .ok (sequenceTokens d gathered 0 total) :=
    sliceOk (by omega)
  have tokens : (sequenceTokens d gathered 0 total).reshape [batch,kvLen,d.kvHeads,d.headDim] =
      .ok (ofFn [batch,kvLen,d.kvHeads,d.headDim] fun idx => tokenAt gathered 0 (placeOfTokens d.kvHeads total kvLen idx)) := by
    refine reshapeReads [1,d.kvHeads,total,d.headDim] (placeOfTokens d.kvHeads total kvLen) (by simp [whole]; ring) fun idx inside => ?_
    obtain ⟨i,t,h,e,rfl,row,token,head,entry⟩ := inside4 inside
    have place : i*kvLen+t < total := by
      rw [whole]
      exact placeBelow row token
    have below : (i*kvLen+t)*d.kvHeads+h < total*d.kvHeads := placeBelow place head
    refine ⟨.cons Nat.one_pos (.cons (Nat.div_lt_of_lt_mul below) (.cons (Nat.mod_lt _ (by omega)) (.cons entry .nil))),?_⟩
    have split := Nat.div_add_mod ((i*kvLen+t)*d.kvHeads+h) total
    simp only [placeOfTokens,ravel,List.prod_cons,List.prod_nil,Nat.mul_one,Nat.add_zero,Nat.zero_mul,Nat.zero_add]
    calc ((i*kvLen+t)*d.kvHeads+h)/total*(total*d.headDim)+(((i*kvLen+t)*d.kvHeads+h)%total*d.headDim+e)
        = (total*(((i*kvLen+t)*d.kvHeads+h)/total)+((i*kvLen+t)*d.kvHeads+h)%total)*d.headDim+e := by ring
      _ = i*(kvLen*(d.kvHeads*d.headDim))+(t*(d.kvHeads*d.headDim)+(h*d.headDim+e)) := by rw [split]; ring
  refine ⟨_,exceptBind.mpr ⟨_,cut,exceptBind.mpr ⟨d.kvHeads,rfl,exceptBind.mpr ⟨_,tokens,transposeReads (by simp) (by simp)⟩⟩⟩,
    rfl,fun i row => (narrowRow row).trans (congrArg _ (ofFnCongr fun idx inside => ?_))⟩
  obtain ⟨j,h,t,e,rfl,_⟩ := inside4 inside
  exact congrArg (fun first => gathered.get [first,_,e]) (Nat.zero_add _)

variable {qLen : Nat}

def mixedAlone (A : Attention α) (b : Batch α s d) (qLen kvLen i : Nat) : Tensor α :=
  A.attend (rowQueries b i qLen) (mixedTokens d b.k s.kvLens.sum kvLen i) (mixedTokens d b.v s.kvLens.sum kvLen i)
    (b.mask.map fun m => maskAt m i qLen kvLen)

def mixedRow (A : Attention α) (b : Batch α s d) (qLen kvLen i : Nat) (idx : List Nat) : α :=
  if idx.getD 2 0 < qLen then (mixedAlone A b qLen kvLen i).get idx else 0

def mixedOut (A : Attention α) (b : Batch α s d) (qLen kvLen : Nat) : Tensor α :=
  ofFn [s.batch,d.heads,s.seqLen,d.headDim] (stacked (mixedRow A b qLen kvLen))

theorem activeQueriesOk (within : qLen ≤ s.seqLen) :
    activeQueries b.q qLen s.seqLen = .ok (ofFn [s.batch,d.heads,qLen,d.headDim] b.q.get) := by
  unfold activeQueries
  split
  · next whole => rw [whole,← ofFnGet b.qShape]
  · conv_lhs => rw [ofFnGet b.qShape]
    exact narrowFront [s.batch,d.heads,s.seqLen,d.headDim] (by simp) within

def maskFront (m : Tensor α) (batch qLen kvLen : Nat) : Tensor α := ofFn [batch,m.dims.getD 1 0,qLen,kvLen] m.get

theorem batchedMaskOk (within : qLen ≤ s.seqLen) (fits : ∃ len ∈ s.kvLens, kvLen ≤ len) :
    b.mask.mapM (batchedMask qLen s.seqLen kvLen) = .ok (b.mask.map fun m => maskFront m s.batch qLen kvLen) := by
  cases given : b.mask with
  | none => rfl
  | some m =>
    obtain ⟨maskHeads,width,shape,wide⟩ := b.maskShape m given
    obtain ⟨len,inside,below⟩ := fits
    have active : activeMask m qLen s.seqLen = .ok (ofFn [s.batch,maskHeads,qLen,width] m.get) := by
      unfold activeMask
      split
      · conv_lhs => rw [ofFnGet shape]
        exact narrowFront [s.batch,maskHeads,s.seqLen,width] (by simp) within
      · next whole => rw [Nat.le_antisymm within (Nat.not_lt.mp whole),← ofFnGet shape]
    have made : batchedMask qLen s.seqLen kvLen m = .ok (maskFront m s.batch qLen kvLen) := by
      rw [maskFront,shape]
      exact exceptBind.mpr ⟨_,active,narrowFront [s.batch,maskHeads,qLen,width] (by simp) (Nat.le_trans below (wide len inside))⟩
    exact exceptMapSome.mpr ⟨_,made,rfl⟩

theorem uniformOk (some : s.queryLens ≠ []) (queries : s.queryLens.all (· = qLen) = true) (keys : s.kvLens.all (· = kvLen) = true) :
    uniformAttention A b.q (sequenceTokens d b.k 0 s.kvLens.sum) (sequenceTokens d b.v 0 s.kvLens.sum) b.mask s.batch s.seqLen
      s.kvLens.sum d.headDim qLen kvLen = .ok (mixedOut A b qLen kvLen) := by
  have positive : 0 < s.batch := List.length_pos_of_ne_nil some
  have within : qLen ≤ s.seqLen := s.within qLen (List.mem_of_getElem? (sameAt queries positive))
  have key : s.kvLens[0]? = .some kvLen := sameAt keys (s.paired ▸ positive)
  have whole : s.kvLens.sum = s.batch*kvLen := by rw [sameSum keys,← s.paired]; rfl
  have small := s.kvSmall
  obtain ⟨kBatched,kMade,kShape,kRows⟩ := @batchedKvOk _ _ d b.k s.batch s.kvLens.sum kvLen whole
  obtain ⟨vBatched,vMade,vShape,vRows⟩ := @batchedKvOk _ _ d b.v s.batch s.kvLens.sum kvLen whole
  have rows : (List.range s.batch).mapM (attendRow A (ofFn [s.batch,d.heads,qLen,d.headDim] b.q.get) kBatched vBatched
      (b.mask.map fun m => maskFront m s.batch qLen kvLen)) = .ok ((List.range s.batch).map (mixedAlone A b qLen kvLen)) := by
    refine exceptMapAll fun i inside => ?_
    have row := List.mem_range.mp inside
    have masked : (b.mask.map fun m => maskFront m s.batch qLen kvLen).mapM (·.narrow 0 i 1) =
        .ok (b.mask.map fun m => maskAt m i qLen kvLen) := by
      cases b.mask with
      | none => rfl
      | some m => exact exceptMapSome.mpr ⟨_,narrowRow row,rfl⟩
    exact exceptBind.mpr ⟨rowQueries b i qLen,narrowRow row,exceptBind.mpr ⟨_,kRows i row,exceptBind.mpr ⟨_,vRows i row,
      exceptBind.mpr ⟨_,masked,rfl⟩⟩⟩⟩
  have joined : cat ((List.range s.batch).map (mixedAlone A b qLen kvLen)) 0 =
      .ok (ofFn [s.batch,d.heads,qLen,d.headDim] (stacked fun i => (mixedAlone A b qLen kvLen i).get)) := by
    have all := @catRows _ [d.heads,qLen,d.headDim] _ ((List.range s.batch).map (mixedAlone A b qLen kvLen))
      (fun i => (mixedAlone A b qLen kvLen i).get) (by simpa using Nat.ne_of_gt positive) fun i t found => by
        rw [List.getElem?_map] at found
        obtain ⟨j,there,rfl⟩ := Option.map_eq_some_iff.mp found
        obtain ⟨_,rfl⟩ := List.getElem?_eq_some_iff.mp there
        rw [List.getElem_range]
        exact ofFnGet (A.shaped _ _ _ _)
    rwa [List.length_map,List.length_range] at all
  unfold uniformAttention
  refine exceptBind.mpr ⟨s.batch*kvLen,okOrOk.mpr (checkedMulSome.mpr ⟨by omega,rfl⟩),?_⟩
  rw [if_neg (by omega),← whole]
  refine exceptBind.mpr ⟨_,activeQueriesOk within,exceptBind.mpr ⟨_,kMade,exceptBind.mpr ⟨_,vMade,exceptBind.mpr ⟨_,
    batchedMaskOk within ⟨kvLen,List.mem_of_getElem? key,Nat.le_refl _⟩,exceptBind.mpr ⟨_,exceptBind.mpr ⟨s.batch,rfl,
    exceptBind.mpr ⟨_,rows,joined⟩⟩,exceptBind.mpr ⟨d.heads,rfl,?_⟩⟩⟩⟩⟩⟩
  refine (padTokensOk within).trans (congrArg _ (ofFnCongr fun idx inside => ?_))
  obtain ⟨i,h,t,e,rfl,_⟩ := inside4 inside
  rfl

/- With one head, or one token, every place is its own. -/
theorem mixedSame (keys : s.kvLens.all (· = kvLen) = true) (row : i < s.batch) (few : d.kvHeads ≤ 1 ∨ s.kvLens.sum ≤ 1) :
    mixedTokens d gathered s.kvLens.sum kvLen i = sequenceTokens d gathered (start s.kvLens i) kvLen := by
  refine ofFnCongr fun idx inside => ?_
  obtain ⟨j,h,t,e,rfl,_,head,token,_⟩ := inside4 inside
  have there : i < s.kvLens.length := s.paired.symm ▸ row
  have first := sameStart keys there
  have place : i*kvLen+t < s.kvLens.sum := by
    have within := startWithin (sameAt keys there)
    omega
  rw [first]
  unfold tokenAt
  dsimp only
  rcases few with single | short
  · obtain rfl : h = 0 := by omega
    have one : d.kvHeads = 1 := by omega
    rw [one,Nat.mul_one,Nat.add_zero,Nat.mod_eq_of_lt place,Nat.div_eq_of_lt place]
  · have one : s.kvLens.sum = 1 := by omega
    have none : i*kvLen+t = 0 := by omega
    rw [one,none,Nat.zero_mul,Nat.zero_add,Nat.mod_one,Nat.div_one]

end Uniform

def supported (device : Device) (headDim : Nat) : Bool := validSdpaHeadDim headDim && device != .cuda

/-- The function over packed entries is exact for all lengths of `s` and heads of `d`, whatever attention
over one sequence is, and so are the slices row by row and the unpacked entries. Other devices and
dimensions are left to the other paths. -/
def PackedExact (s : Sequences) (d : Heads) : Prop :=
  ∀ (α : Type) [Zero α] (A : Attention α) (b : Batch α s d) (device : Device) (params : FlashParams) (k v : Tensor α),
    params.cumulativeSeqlensQ = some (starts s.queryLens) → params.cumulativeSeqlensK = some (starts s.kvLens) →
    packedView b.k = .ok k → packedView b.v = .ok v →
    ∃ out, packedVarlenAttention A device b.q k v b.mask params = .ok (if supported device d.headDim then some out else none) ∧
      Exact A b out ∧
      raggedAttention A b.q k v b.mask s.seqLen s.kvLens.sum d.headDim s.queryLens s.kvLens = .ok out ∧
      unpackedAttention A b = .ok out

/- Heads of the keys do not get mixed up with tokens, or nothing of it is seen. -/
def Kept (s : Sequences) (d : Heads) : Prop :=
  d.kvHeads ≤ 1 ∨ s.kvLens.sum ≤ 1 ∨ ¬ (uniform s.queryLens ∧ uniform s.kvLens) ∨ d.heads = 0 ∨ ∀ len ∈ s.queryLens, len = 0

section Packed
variable {A : Attention α} {s : Sequences} {d : Heads} {b : Batch α s d} {device : Device} {params : FlashParams}

theorem unsupportedOk (k v : Tensor α) (other : supported device d.headDim = false) :
    packedVarlenAttention A device b.q k v b.mask params = .ok none := by
  refine exceptBind.mpr ⟨(s.batch,d.heads,s.seqLen,d.headDim),by rw [dims4,b.qShape],?_⟩
  dsimp only
  cases valid : validSdpaHeadDim d.headDim with
  | false => rw [if_pos Bool.false_ne_true]
  | true =>
    have cuda : device = .cuda := by simpa [supported,valid] using other
    rw [if_neg (not_not.mpr rfl),if_pos cuda]

theorem supportedOk (some : s.queryLens ≠ []) (here : supported device d.headDim = true)
    (queries : params.cumulativeSeqlensQ = .some (starts s.queryLens)) (keys : params.cumulativeSeqlensK = .some (starts s.kvLens)) :
    packedVarlenAttention A device b.q (sequenceTokens d b.k 0 s.kvLens.sum) (sequenceTokens d b.v 0 s.kvLens.sum) b.mask params =
      .ok (.some (if uniform s.queryLens ∧ uniform s.kvLens then mixedOut A b (s.queryLens.headD 0) (s.kvLens.headD 0)
        else exactOut A b)) := by
  obtain ⟨valid,cuda⟩ := Bool.and_eq_true_iff.mp here
  have filled : s.kvLens ≠ [] := fun none => some (List.eq_nil_of_length_eq_zero (by rw [s.paired,none]; rfl))
  refine exceptBind.mpr ⟨(s.batch,d.heads,s.seqLen,d.headDim),by rw [dims4,b.qShape],?_⟩
  dsimp only
  rw [if_neg (not_not.mpr valid),if_neg (bne_iff_ne.mp cuda)]
  refine exceptBind.mpr ⟨(1,d.kvHeads,s.kvLens.sum,d.headDim),rfl,exceptBind.mpr ⟨(1,d.kvHeads,s.kvLens.sum,d.headDim),rfl,?_⟩⟩
  dsimp only
  rw [if_neg (by simp)]
  refine exceptBind.mpr ⟨_,okOrOk.mpr queries,exceptBind.mpr ⟨_,okOrOk.mpr keys,exceptBind.mpr ⟨_,lengthsOfStarts some,
    exceptBind.mpr ⟨_,lengthsOfStarts filled,?_⟩⟩⟩⟩
  rw [if_neg (by simp [Sequences.batch,s.paired])]
  split
  · next same => exact exceptBind.mpr ⟨_,uniformOk some same.1 same.2,rfl⟩
  · exact exceptBind.mpr ⟨_,raggedOk some,rfl⟩

theorem mixedExact (same : uniform s.queryLens ∧ uniform s.kvLens) (kept : Kept s d) :
    mixedOut A b (s.queryLens.headD 0) (s.kvLens.headD 0) = exactOut A b := by
  refine ofFnCongr fun idx inside => ?_
  obtain ⟨i,h,t,e,rfl,row,head,_⟩ := inside4 inside
  have query := sameAt same.1 row
  have key : s.kvLens[i]? = some (s.kvLens.headD 0) := sameAt same.2 (s.paired.symm ▸ row)
  have tokens (few : d.kvHeads ≤ 1 ∨ s.kvLens.sum ≤ 1) :
      mixedRow A b (s.queryLens.headD 0) (s.kvLens.headD 0) i [0,h,t,e] = aloneRow A b i [0,h,t,e] := by
    rw [aloneRowAt query key,mixedRow,mixedAlone,mixedSame same.2 row few,mixedSame same.2 row few]
    rfl
  rcases kept with one | short | ragged | none | empty
  · exact tokens (.inl one)
  · exact tokens (.inr short)
  · exact absurd same ragged
  · omega
  · have zero := empty _ (List.mem_of_getElem? query)
    rw [stacked,stacked,aloneRowAt query key,mixedRow,if_neg (by omega),if_neg (by omega)]

theorem keptExact (some : s.queryLens ≠ []) (kept : supported device d.headDim = true → Kept s d)
    (queries : params.cumulativeSeqlensQ = .some (starts s.queryLens)) (keys : params.cumulativeSeqlensK = .some (starts s.kvLens)) :
    packedVarlenAttention A device b.q (sequenceTokens d b.k 0 s.kvLens.sum) (sequenceTokens d b.v 0 s.kvLens.sum) b.mask params =
      .ok (if supported device d.headDim then .some (exactOut A b) else none) := by
  split
  · next here =>
    rw [supportedOk some here queries keys]
    split
    · next same => rw [mixedExact same (kept here)]
    · rfl
  · next other => exact unsupportedOk _ _ (Bool.not_eq_true _ ▸ other)

end Packed

section Mixed
variable {s : Sequences} {d : Heads}

def secondHead : Attention Nat := ⟨fun q k _ _ => ofFn q.dims fun _ => k.get [0,1,0,0],fun _ _ _ _ => rfl⟩

def markedKeys (s : Sequences) (d : Heads) : Tensor Nat :=
  ofFn [s.kvLens.sum,d.kvHeads,d.headDim] fun idx => if idx = [0,1,0] then 1 else 0

def markedBatch (s : Sequences) (d : Heads) : Batch Nat s d where
  q := zeros [s.batch,d.heads,s.seqLen,d.headDim]
  k := markedKeys s d
  v := markedKeys s d
  mask := none
  qShape := rfl
  kShape := rfl
  vShape := rfl
  maskShape := fun _ none => nomatch none

theorem notExact (some : s.queryLens ≠ []) (valid : validSdpaHeadDim d.headDim = true) (mixed : ¬ Kept s d) : ¬ PackedExact s d := by
  unfold Kept at mixed
  simp only [not_or,not_not,not_forall] at mixed
  obtain ⟨several,long,same,heads,qLen,inside,positive⟩ := mixed
  intro exact_
  have here : supported .cpu d.headDim = true := Bool.and_eq_true_iff.mpr ⟨valid,rfl⟩
  obtain ⟨out,made,alone_,_⟩ := exact_ Nat secondHead (markedBatch s d) .cpu
    ⟨0,.some (starts s.queryLens),0,.some (starts s.kvLens),true⟩ _ _ rfl rfl (packedViewOk rfl) (packedViewOk rfl)
  rw [supportedOk some here rfl rfl,if_pos here,if_pos same] at made
  cases made
  have row : 0 < s.batch := List.length_pos_of_ne_nil some
  have query := sameAt same.1 row
  have key : s.kvLens[0]? = .some (s.kvLens.headD 0) := sameAt same.2 (s.paired.symm ▸ row)
  have first : qLen = s.queryLens.headD 0 := of_decide_eq_true (List.all_eq_true.mp same.1 qLen inside)
  have keyed : 0 < s.kvLens.headD 0 := by
    by_contra none
    have total := sameSum same.2
    rw [Nat.eq_zero_of_not_pos none,Nat.mul_zero] at total
    omega
  have entries : 0 < d.headDim := by
    by_contra none
    rw [Nat.eq_zero_of_not_pos none] at valid
    exact absurd valid (by decide)
  have within := s.within qLen inside
  have second : Inside [0,1,0,0] [1,d.kvHeads,s.kvLens.headD 0,d.headDim] :=
    .cons Nat.one_pos (.cons (by omega) (.cons keyed (.cons entries .nil)))
  -- the second head of the first token is looked up as the first head of the second one
  have place : ((0*s.kvLens.headD 0+0)*d.kvHeads+1)%s.kvLens.sum = 1 ∧ ((0*s.kvLens.headD 0+0)*d.kvHeads+1)/s.kvLens.sum = 0 := by
    rw [Nat.zero_mul,Nat.zero_add,Nat.zero_mul,Nat.zero_add]
    exact ⟨Nat.mod_eq_of_lt (by omega),Nat.div_eq_of_lt (by omega)⟩
  have taken : (mixedTokens d (markedKeys s d) s.kvLens.sum (s.kvLens.headD 0) 0).get [0,1,0,0] = 0 := by
    rw [mixedTokens,getOfFn second]
    dsimp only
    rw [place.1,place.2]
    exact (getOfFn (.cons (by omega) (.cons (by omega) (.cons entries .nil)))).trans (if_neg (by simp))
  have meant : (sequenceTokens d (markedKeys s d) (start s.kvLens 0) (s.kvLens.headD 0)).get [0,1,0,0] = 1 := by
    have front : start s.kvLens 0 = 0 := by rw [start,List.take_zero,List.sum_nil]
    rw [front,sequenceTokens,getOfFn second]
    exact (getOfFn (.cons (by omega) (.cons (by omega) (.cons entries .nil)))).trans (if_pos rfl)
  have origin : Inside [0,0,0,0] [s.batch,d.heads,s.seqLen,d.headDim] :=
    .cons row (.cons (by omega) (.cons (by omega) (.cons entries .nil)))
  have corner : Inside [0,0,0,0] [1,d.heads,s.queryLens.headD 0,d.headDim] :=
    .cons Nat.one_pos (.cons (by omega) (.cons (by omega) (.cons entries .nil)))
  have given : (mixedOut secondHead (markedBatch s d) (s.queryLens.headD 0) (s.kvLens.headD 0)).get [0,0,0,0] = 0 := by
    rw [mixedOut,getOfFn origin,stacked,mixedRow,if_pos (by show 0 < _; omega)]
    exact (getOfFn corner).trans taken
  have wanted : (alone secondHead (markedBatch s d) 0 (s.queryLens.headD 0) (s.kvLens.headD 0)).get [0,0,0,0] = 1 :=
    (getOfFn corner).trans meant
  have both := alone_.attended (t := 0) (h := 0) (e := 0) query key (by omega) (by omega) entries
  rw [given,wanted] at both
  exact absurd both (by decide)

/-- The function is exact but for batches of one length that have several heads of keys and several
tokens. -/
theorem packedExactIff : PackedExact s d ↔ s.queryLens ≠ [] ∧ (validSdpaHeadDim d.headDim = true → Kept s d) := by
  constructor
  · intro exact_
    have some : s.queryLens ≠ [] := by
      intro none
      obtain ⟨out,_,_,sliced,_⟩ := exact_ Nat secondHead (markedBatch s d) .cpu
        ⟨0,.some (starts s.queryLens),0,.some (starts s.kvLens),true⟩ _ _ rfl rfl (packedViewOk rfl) (packedViewOk rfl)
      rw [none] at sliced
      cases sliced
    exact ⟨some,fun valid => by_contra fun mixed => notExact some valid mixed exact_⟩
  · rintro ⟨some,kept⟩ α _ A b device params k v queries keys kView vView
    rw [packedViewOk b.kShape] at kView
    rw [packedViewOk b.vShape] at vView
    cases kView
    cases vView
    exact ⟨exactOut A b,keptExact some (fun here => kept (Bool.and_eq_true_iff.mp here).1) queries keys,exactIff.mpr rfl,
      raggedOk some,unpackedOk some⟩

def pairOfTokens : Sequences := ⟨[1,1],[1,1],1,rfl,by decide,by decide,by decide⟩

theorem secondKvHeadMixed : ¬ PackedExact pairOfTokens ⟨2,2,32⟩ :=
  notExact (by decide) rfl (by unfold Kept; decide)

end Mixed

end Qwen3Asr.PackedVarlen
