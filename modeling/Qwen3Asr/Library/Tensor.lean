import Mathlib.Algebra.BigOperators.Group.List.Basic
import Mathlib.Algebra.Order.BigOperators.Group.List
import Mathlib.Data.List.Forall2
import Mathlib.Data.List.GetD
import Mathlib.Data.Nat.Basic
import Qwen3Asr.Library.Packing

/-! Dense tensors, and the ways they are cut, turned and put together. A tensor keeps its entries in
row-major order; a reshape keeps that order, every other way is given by what it reads where. -/
namespace Library

@[ext] structure Tensor (α : Type) where
  dims : List Nat
  data : List α
  sized : data.length = dims.prod
  deriving DecidableEq

namespace Tensor
open Packing
variable {α : Type}

section Places
variable {dims idx : List Nat} {k n place : Nat}

abbrev Inside (idx dims : List Nat) : Prop := List.Forall₂ (· < ·) idx dims

theorem insideCons {i : Nat} : Inside (i::idx) (n::dims) ↔ i < n ∧ Inside idx dims := List.forall₂_cons

theorem insideSplit (inside : Inside idx (n::dims)) : ∃ i rest, idx = i::rest ∧ i < n ∧ Inside rest dims := by
  cases inside with
  | cons below rest => exact ⟨_,_,rfl,below,rest⟩

theorem inside2 {a b : Nat} (inside : Inside idx [a,b]) : ∃ i j, idx = [i,j] ∧ i < a ∧ j < b := by
  obtain ⟨i,rest,rfl,first,inside⟩ := insideSplit inside
  obtain ⟨j,rest,rfl,last,inside⟩ := insideSplit inside
  cases inside
  exact ⟨i,j,rfl,first,last⟩

theorem inside3 {a b c : Nat} (inside : Inside idx [a,b,c]) : ∃ i j k, idx = [i,j,k] ∧ i < a ∧ j < b ∧ k < c := by
  obtain ⟨i,rest,rfl,first,inside⟩ := insideSplit inside
  obtain ⟨j,k,rfl,second,last⟩ := inside2 inside
  exact ⟨i,j,k,rfl,first,second,last⟩

theorem inside4 {a b c d : Nat} (inside : Inside idx [a,b,c,d]) :
    ∃ i j k l, idx = [i,j,k,l] ∧ i < a ∧ j < b ∧ k < c ∧ l < d := by
  obtain ⟨i,rest,rfl,first,inside⟩ := insideSplit inside
  obtain ⟨j,k,l,rfl,second,third,last⟩ := inside3 inside
  exact ⟨i,j,k,l,rfl,first,second,third,last⟩

/- Where the entry of an index stands in row-major order. -/
def ravel : List Nat → List Nat → Nat
  | _::dims, i::idx => i*dims.prod+ravel dims idx
  | _, _ => 0

def unravel : List Nat → Nat → List Nat
  | [], _ => []
  | _::dims, place => place/dims.prod :: unravel dims (place%dims.prod)

theorem placeBelow {i k n m : Nat} (row : i < n) (inside : k < m) : i*m+k < n*m := by
  rw [Nat.mul_comm i]
  exact Nat.mul_add_lt_mul_of_lt_of_lt row inside

theorem placeRow {i k m : Nat} (inside : k < m) : (i*m+k)/m = i := by
  rw [Nat.add_comm,Nat.add_mul_div_right _ _ (Nat.zero_lt_of_lt inside),Nat.div_eq_of_lt inside,Nat.zero_add]

theorem ravelBelow (inside : Inside idx dims) : ravel dims idx < dims.prod := by
  induction inside with
  | nil => exact Nat.one_pos
  | @cons i n idx dims below _ ih =>
    rw [ravel,List.prod_cons]
    exact placeBelow below ih

theorem unravelRavel (inside : Inside idx dims) : unravel dims (ravel dims idx) = idx := by
  induction inside with
  | nil => rfl
  | @cons i n idx dims below inside ih =>
    have bound := ravelBelow inside
    have quotient : (i*dims.prod+ravel dims idx)/dims.prod = i := placeRow bound
    have rest : (i*dims.prod+ravel dims idx)%dims.prod = ravel dims idx := Nat.mul_add_mod_of_lt bound
    rw [ravel,unravel,quotient,rest,ih]

theorem unravelInside (below : place < dims.prod) : Inside (unravel dims place) dims := by
  induction dims generalizing place with
  | nil => exact .nil
  | cons n dims ih =>
    rw [List.prod_cons] at below
    have positive : 0 < dims.prod := Nat.pos_of_mul_pos_left (Nat.zero_lt_of_lt below)
    exact .cons (Nat.div_lt_of_lt_mul (Nat.mul_comm n _ ▸ below)) (ih (Nat.mod_lt _ positive))

theorem ravelUnravel (below : place < dims.prod) : ravel dims (unravel dims place) = place := by
  induction dims generalizing place with
  | nil => exact (Nat.lt_one_iff.mp below).symm
  | cons n dims ih =>
    rw [List.prod_cons] at below
    have positive : 0 < dims.prod := Nat.pos_of_mul_pos_left (Nat.zero_lt_of_lt below)
    rw [unravel,ravel,ih (Nat.mod_lt _ positive),Nat.mul_comm]
    exact Nat.div_add_mod _ _

theorem insideIff : Inside idx dims ↔ idx.length = dims.length ∧ ∀ k, k < dims.length → idx.getD k 0 < dims.getD k 0 := by
  induction dims generalizing idx with
  | nil => cases idx <;> simp
  | cons n dims ih =>
    cases idx with
    | nil => simp
    | cons i idx =>
      rw [insideCons,ih,List.length_cons,List.length_cons,Nat.add_right_cancel_iff]
      constructor
      · rintro ⟨below,same,rest⟩
        refine ⟨same,fun k bound => ?_⟩
        cases k with
        | zero => exact below
        | succ k => exact rest k (Nat.lt_of_succ_lt_succ bound)
      · rintro ⟨same,each⟩
        exact ⟨each 0 (Nat.succ_pos _),same,fun k bound => each (k+1) (Nat.succ_lt_succ bound)⟩

theorem getDSet {l : List Nat} {j v : Nat} : (l.set k v).getD j 0 = if j = k ∧ k < l.length then v else l.getD j 0 := by
  rw [List.getD_eq_getElem?_getD,List.getD_eq_getElem?_getD,List.getElem?_set]
  split
  · next same =>
    subst same
    split
    · next bound => rw [if_pos ⟨rfl,bound⟩]; rfl
    · next past =>
      rw [if_neg (fun both => past both.2),List.getElem?_eq_none (Nat.not_lt.mp past)]
  · next other => rw [if_neg (fun both => other both.1.symm)]

theorem insideSet {v : Nat} (inside : Inside idx (dims.set k n)) (below : k < dims.length → v < dims.getD k 0) :
    Inside (idx.set k v) dims := by
  obtain ⟨same,each⟩ := insideIff.mp inside
  rw [List.length_set] at same each
  refine insideIff.mpr ⟨by rw [List.length_set,same],fun j bound => ?_⟩
  have here := each j bound
  rw [getDSet] at here ⊢
  split
  · next at_ =>
    obtain ⟨rfl,_⟩ := at_
    exact below bound
  · next other =>
    rwa [if_neg (same ▸ other)] at here

theorem insideAt (inside : Inside idx dims) (axis : k < dims.length) : idx.getD k 0 < dims.getD k 0 :=
  (insideIff.mp inside).2 k axis

theorem insideCut {m : Nat} (inside : Inside idx (dims.set k n)) (below : k < dims.length → idx.getD k 0 < m) :
    Inside idx (dims.set k m) := by
  obtain ⟨same,each⟩ := insideIff.mp inside
  rw [List.length_set] at same each
  refine insideIff.mpr ⟨by rw [List.length_set,same],fun j bound => ?_⟩
  rw [List.length_set] at bound
  have here := each j bound
  rw [getDSet] at here ⊢
  split
  · next at_ =>
    obtain ⟨rfl,_⟩ := at_
    exact below bound
  · next other =>
    rwa [if_neg other] at here

def swapAt (i j : Nat) (l : List Nat) : List Nat := (l.set i (l.getD j 0)).set j (l.getD i 0)

theorem insideSwap {i j : Nat} (first : i < dims.length) (second : j < dims.length)
    (inside : Inside idx (swapAt i j dims)) : Inside (swapAt i j idx) dims := by
  obtain ⟨same,each⟩ := insideIff.mp inside
  simp only [swapAt,List.length_set] at same each
  refine insideIff.mpr ⟨by simp only [swapAt,List.length_set,same],fun k bound => ?_⟩
  have atI := each i first
  have atJ := each j second
  have atK := each k bound
  simp only [swapAt,getDSet,List.length_set,same,first,second,and_true] at atI atJ atK ⊢
  split_ifs at * <;> simp_all

end Places

section Entries

/- Outside of the tensor there is nothing to read; the value there is never used. -/
def get [Zero α] (t : Tensor α) (idx : List Nat) : α := t.data.getD (ravel t.dims idx) 0

def ofFn (dims : List Nat) (f : List Nat → α) : Tensor α where
  dims := dims
  data := (List.range dims.prod).map fun place => f (unravel dims place)
  sized := by rw [List.length_map,List.length_range]

variable {dims idx : List Nat} {f g : List Nat → α} {t u : Tensor α}

@[simp] theorem ofFnDims : (ofFn dims f).dims = dims := rfl

theorem ofFnCongr (same : ∀ idx, Inside idx dims → f idx = g idx) : ofFn dims f = ofFn dims g :=
  Tensor.ext rfl (List.map_congr_left fun _ inside => same _ (unravelInside (List.mem_range.mp inside)))

variable [Zero α]

theorem getOfFn (inside : Inside idx dims) : (ofFn dims f).get idx = f idx := by
  unfold get ofFn
  rw [List.getD_eq_getElem?_getD,List.getElem?_map,List.getElem?_range (ravelBelow inside),Option.map_some,
    Option.getD_some,unravelRavel inside]

theorem ofGet (t : Tensor α) : ofFn t.dims t.get = t := by
  refine Tensor.ext rfl (List.ext_getElem (by rw [t.sized]; exact (ofFn t.dims t.get).sized) fun place _ bound => ?_)
  have below : place < t.dims.prod := t.sized ▸ bound
  simp only [ofFn,List.getElem_map,List.getElem_range,get,ravelUnravel below]
  exact List.getD_eq_getElem _ _ bound

theorem ofFnGet (shape : t.dims = dims) : t = ofFn dims t.get := by
  rw [← shape,ofGet]

theorem getExt (shape : t.dims = u.dims) (same : ∀ idx, Inside idx t.dims → t.get idx = u.get idx) : t = u := by
  rw [← ofGet t,← ofGet u,← shape]
  exact ofFnCongr same

end Entries

section Operations

def zeros [Zero α] (dims : List Nat) : Tensor α := ofFn dims fun _ => 0

def dim (t : Tensor α) (k : Nat) : Except String Nat :=
  match t.dims[k]? with
  | some n => .ok n
  | none => .error s!"dim out of range: dim={k} shape={t.dims}"

def dims3 (t : Tensor α) : Except String (Nat × Nat × Nat) :=
  match t.dims with
  | [a,b,c] => .ok (a,b,c)
  | dims => .error s!"unexpected number of dims, expected: 3, got: {dims.length}, shape: {dims}"

def dims4 (t : Tensor α) : Except String (Nat × Nat × Nat × Nat) :=
  match t.dims with
  | [a,b,c,d] => .ok (a,b,c,d)
  | dims => .error s!"unexpected number of dims, expected: 4, got: {dims.length}, shape: {dims}"

def dims5 (t : Tensor α) : Except String (Nat × Nat × Nat × Nat × Nat) :=
  match t.dims with
  | [a,b,c,d,e] => .ok (a,b,c,d,e)
  | dims => .error s!"unexpected number of dims, expected: 5, got: {dims.length}, shape: {dims}"

def reshape (t : Tensor α) (dims : List Nat) : Except String (Tensor α) :=
  if same : t.dims.prod = dims.prod then .ok ⟨dims,t.data,t.sized.trans same⟩
  else .error s!"shape mismatch in reshape, lhs: {t.dims}, rhs: {dims}"

def unsqueeze (t : Tensor α) (k : Nat) : Except String (Tensor α) :=
  if k ≤ t.dims.length then t.reshape (t.dims.insertIdx k 1)
  else .error s!"unsqueeze out of range: shape={t.dims} dim={k}"

variable [Zero α]

def narrow (t : Tensor α) (k start len : Nat) : Except String (Tensor α) :=
  if k < t.dims.length ∧ start+len ≤ t.dims.getD k 0 then
    .ok (ofFn (t.dims.set k len) fun idx => t.get (idx.set k (start+idx.getD k 0)))
  else .error s!"narrow invalid args: shape={t.dims} dim={k} start={start} len={len}"

def transpose (t : Tensor α) (i j : Nat) : Except String (Tensor α) :=
  if i < t.dims.length ∧ j < t.dims.length then
    .ok (ofFn (swapAt i j t.dims) fun idx => t.get (swapAt i j idx))
  else .error s!"transpose out of range: shape={t.dims} dims={i},{j}"

def joined (k : Nat) : List (Nat × (List Nat → α)) → List Nat → α
  | [], _ => 0
  | (n,f)::parts, idx =>
    let i := idx.getD k 0
    if i < n then f idx else joined k parts (idx.set k (i-n))

def part (k : Nat) (t : Tensor α) : Nat × (List Nat → α) := (t.dims.getD k 0,t.get)

def cat (ts : List (Tensor α)) (k : Nat) : Except String (Tensor α) :=
  match ts with
  | [] => .error "cat expects at least one tensor"
  | t::ts =>
    if k < t.dims.length ∧ ∀ u ∈ ts, u.dims.set k 0 = t.dims.set k 0 then
      .ok (ofFn (t.dims.set k ((t::ts).map (·.dims.getD k 0)).sum) (joined k ((t::ts).map (part k))))
    else .error s!"shape mismatch in cat for dim {k}"

end Operations

section Rules
variable {dims dims' : List Nat} {f : List Nat → α} {k start len : Nat}

theorem reshapeOk {t u : Tensor α} : t.reshape dims = .ok u ↔ u.dims = dims ∧ u.data = t.data := by
  unfold reshape
  split
  · next same =>
    constructor
    · intro made
      cases made
      exact ⟨rfl,rfl⟩
    · rintro ⟨shape,entries⟩
      exact congrArg _ (Tensor.ext shape.symm entries.symm)
  · next other =>
    constructor
    · intro made
      cases made
    · rintro ⟨shape,entries⟩
      exact absurd (t.sized.symm.trans (entries ▸ shape ▸ u.sized)) other

theorem reshapeReads (dims : List Nat) (source : List Nat → List Nat) (sizes : dims.prod = dims'.prod)
    (places : ∀ idx, Inside idx dims' → Inside (source idx) dims ∧ ravel dims (source idx) = ravel dims' idx) :
    (ofFn dims f).reshape dims' = .ok (ofFn dims' fun idx => f (source idx)) := by
  refine reshapeOk.mpr ⟨rfl,?_⟩
  simp only [ofFn,sizes]
  refine List.map_congr_left fun place inside => ?_
  have below := List.mem_range.mp inside
  obtain ⟨there,same⟩ := places _ (unravelInside below)
  rw [ravelUnravel below] at same
  conv_rhs => rw [← same,unravelRavel there]

theorem unsqueezeReads (dims : List Nat) :
    (ofFn dims f).unsqueeze 0 = .ok (ofFn (1::dims) fun idx => f idx.tail) := by
  unfold unsqueeze
  rw [if_pos (Nat.zero_le _)]
  refine reshapeReads dims List.tail (by simp) fun idx inside => ?_
  obtain ⟨i,rest,rfl,only,behind⟩ := insideSplit inside
  obtain rfl := Nat.lt_one_iff.mp only
  exact ⟨behind,by simp [ravel]⟩

variable [Zero α]

theorem narrowReads (dims : List Nat) (axis : k < dims.length) (fits : start+len ≤ dims.getD k 0) :
    (ofFn dims f).narrow k start len = .ok (ofFn (dims.set k len) fun idx => f (idx.set k (start+idx.getD k 0))) := by
  unfold narrow
  rw [ofFnDims,if_pos ⟨axis,fits⟩]
  refine congrArg _ (ofFnCongr fun idx inside => getOfFn (insideSet inside fun _ => ?_))
  have here := insideAt inside (by rwa [List.length_set])
  rw [getDSet,if_pos ⟨rfl,axis⟩] at here
  omega

omit [Zero α] in
theorem setSelf (idx : List Nat) (k : Nat) : idx.set k (idx.getD k 0) = idx := by
  refine List.ext_getElem? fun j => ?_
  rw [List.getElem?_set]
  split
  · next same =>
    subst same
    split
    · next bound => rw [List.getD_eq_getElem _ _ bound,List.getElem?_eq_getElem bound]
    · next past => rw [List.getElem?_eq_none (Nat.not_lt.mp past)]
  · rfl

omit [Zero α] in
theorem ofFnRow {f g : List Nat → α} (same : ∀ idx, f (0::idx) = g (0::idx)) : ofFn (1::dims) f = ofFn (1::dims) g := by
  refine ofFnCongr fun idx inside => ?_
  obtain ⟨i,rest,rfl,first,_⟩ := insideSplit inside
  obtain rfl := Nat.lt_one_iff.mp first
  exact same rest

theorem narrowFront (dims : List Nat) (axis : k < dims.length) (fits : len ≤ dims.getD k 0) :
    (ofFn dims f).narrow k 0 len = .ok (ofFn (dims.set k len) f) := by
  rw [narrowReads dims axis (by rwa [Nat.zero_add])]
  simp only [Nat.zero_add,setSelf]

theorem narrowRow {n row : Nat} (below : row < n) :
    (ofFn (n::dims) f).narrow 0 row 1 = .ok (ofFn (1::dims) fun idx => f (idx.set 0 row)) := by
  rw [narrowReads (n::dims) (Nat.succ_pos _) below]
  exact congrArg _ (ofFnRow fun _ => rfl)

theorem onlyRow {t : Tensor α} (single : t.dims = 1::dims) : t.narrow 0 0 1 = .ok t := by
  conv_lhs => rw [ofFnGet single]
  rw [narrowRow Nat.one_pos]
  conv_rhs => rw [ofFnGet single]
  exact congrArg _ (ofFnRow fun _ => rfl)

theorem transposeReads {i j : Nat} (first : i < dims.length) (second : j < dims.length) :
    (ofFn dims f).transpose i j = .ok (ofFn (swapAt i j dims) fun idx => f (swapAt i j idx)) := by
  unfold transpose
  rw [ofFnDims,if_pos ⟨first,second⟩]
  exact congrArg _ (ofFnCongr fun idx inside => getOfFn (insideSwap first second inside))

theorem joinedReads {parts : List (Nat × (List Nat → α))} {idx : List Nat} (axis : k < dims.length)
    (inside : Inside idx (dims.set k (parts.map Prod.fst).sum)) :
    joined k (parts.map fun p => part k (ofFn (dims.set k p.1) p.2)) idx = joined k parts idx := by
  induction parts generalizing idx with
  | nil => rfl
  | cons p parts ih =>
    have here := insideAt inside (by rwa [List.length_set])
    rw [getDSet,if_pos ⟨rfl,axis⟩,List.map_cons,List.sum_cons] at here
    have width : (dims.set k p.1).getD k 0 = p.1 := by rw [getDSet,if_pos ⟨rfl,axis⟩]
    simp only [List.map_cons,joined,part,ofFnDims,width]
    split
    · next before => exact getOfFn (insideCut inside fun _ => before)
    · next past =>
      refine ih (insideSet (n := (p.1::parts.map Prod.fst).sum) (by rwa [List.set_set]) fun _ => ?_)
      rw [getDSet,if_pos ⟨rfl,axis⟩]
      omega

theorem catReads (dims : List Nat) {parts : List (Nat × (List Nat → α))} (axis : k < dims.length) (some : parts ≠ []) :
    cat (parts.map fun p => ofFn (dims.set k p.1) p.2) k =
      .ok (ofFn (dims.set k (parts.map Prod.fst).sum) (joined k parts)) := by
  cases parts with
  | nil => exact absurd rfl some
  | cons p parts =>
    unfold cat
    rw [List.map_cons]
    dsimp only
    rw [if_pos]
    · have lengths : ((p::parts).map fun p => ofFn (dims.set k p.1) p.2).map (fun t => t.dims.getD k 0) =
          (p::parts).map Prod.fst := by
        rw [List.map_map]
        exact List.map_congr_left fun q _ => by rw [Function.comp_apply,ofFnDims,getDSet,if_pos ⟨rfl,axis⟩]
      rw [List.map_cons (f := fun p : Nat × (List Nat → α) => ofFn (dims.set k p.1) p.2)] at lengths
      rw [lengths,ofFnDims,List.set_set]
      refine congrArg _ (ofFnCongr fun idx inside => ?_)
      rw [← joinedReads axis inside,← List.map_cons (f := fun p : Nat × (List Nat → α) => ofFn (dims.set k p.1) p.2),
        List.map_map]
      rfl
    · refine ⟨by rwa [ofFnDims,List.length_set],fun u inside => ?_⟩
      obtain ⟨q,_,rfl⟩ := List.mem_map.mp inside
      rw [ofFnDims,ofFnDims,List.set_set,List.set_set]

omit [Zero α] in
theorem setSet {idx : List Nat} {v : Nat} (axis : k < idx.length) : (idx.set k v).getD k 0 = v := by
  rw [getDSet,if_pos ⟨rfl,axis⟩]

theorem joinedAt (idx : List Nat) {parts : List (Nat × (List Nat → α))} {i n r : Nat} {g : List Nat → α}
    (axis : k < idx.length) (found : parts[i]? = some (n,g)) (inside : r < n) :
    joined k parts (idx.set k (Packing.start (parts.map Prod.fst) i+r)) = g (idx.set k r) := by
  induction parts generalizing i with
  | nil => cases found
  | cons p parts ih =>
    rw [joined]
    simp only [setSet axis,List.map_cons,List.set_set]
    cases i with
    | zero =>
      cases found
      rw [if_pos (by simpa [Packing.start] using inside)]
      simp [Packing.start]
    | succ i =>
      have shifted : Packing.start (p.1::parts.map Prod.fst) (i+1)+r = p.1+(Packing.start (parts.map Prod.fst) i+r) := by
        rw [Packing.startCons,Nat.add_assoc]
      rw [shifted,if_neg (by omega),Nat.add_sub_cancel_left]
      exact ih found

theorem padReads (dims : List Nat) {a b : Nat} (axis : k < dims.length) : cat [ofFn (dims.set k a) f,zeros (dims.set k b)] k =
    .ok (ofFn (dims.set k (a+b)) fun idx => if idx.getD k 0 < a then f idx else 0) := by
  have both := @catReads _ k _ dims [(a,f),(b,fun _ => 0)] axis (by simp)
  refine both.trans (congrArg _ ?_)
  simp only [List.map_cons,List.map_nil,List.sum_cons,List.sum_nil,Nat.add_zero]
  refine ofFnCongr fun idx _ => ?_
  simp only [joined,ite_self]

def stacked (f : Nat → List Nat → α) : List Nat → α
  | [] => 0
  | i::idx => f i (0::idx)

theorem catRows {rows : List (Tensor α)} {f : Nat → List Nat → α} (some : rows ≠ [])
    (each : ∀ i t, rows[i]? = .some t → t = ofFn (1::dims) (f i)) :
    cat rows 0 = .ok (ofFn (rows.length::dims) (stacked f)) := by
  have same : rows = ((List.range rows.length).map fun i => (1,f i)).map fun p => ofFn ((1::dims).set 0 p.1) p.2 := by
    refine List.ext_getElem (by simp) fun i inside _ => ?_
    simpa using each i _ (List.getElem?_eq_getElem inside)
  have lengths : ((List.range rows.length).map fun i => (1,f i)).map Prod.fst = List.replicate rows.length 1 :=
    List.eq_replicate_iff.mpr ⟨by simp,by simp⟩
  conv_lhs => rw [same]
  rw [catReads (1::dims) (Nat.succ_pos _) (by simpa using some),lengths,List.sum_replicate_nat,Nat.mul_one]
  refine congrArg _ (ofFnCongr fun idx inside => ?_)
  obtain ⟨i,idx,rfl,below,_⟩ := insideSplit inside
  have there : ((List.range rows.length).map fun i => (1,f i))[i]? = .some (1,f i) := by
    rw [List.getElem?_map,List.getElem?_range below]
    rfl
  have read := @joinedAt _ 0 _ (i::idx) _ _ _ _ _ (Nat.succ_pos _) there Nat.one_pos
  rwa [lengths,startReplicate _ _ _ (Nat.le_of_lt below),Nat.mul_one] at read

theorem catOnly {t : Tensor α} (single : t.dims = 1::dims) : cat [t] 0 = .ok t := by
  have all := @catRows _ dims _ [t] (fun _ => t.get) (by simp) fun i u found => by
    obtain ⟨_,rfl⟩ := List.getElem?_eq_some_iff.mp found
    simpa using ofFnGet single
  rw [all]
  conv_rhs => rw [ofFnGet single]
  exact congrArg _ (ofFnRow fun _ => rfl)

end Rules

end Tensor
end Library
