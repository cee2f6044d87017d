import Qwen3Asr.CausalMask
import Qwen3Asr.Library.Packing

/-! Cached attention by the flash kernel. The keys are packed without their padding, the queries
are not once something is cached; the kernel is known by where it aligns a sequence. -/
namespace Qwen3Asr.FlashAttention
open Library.Effect Library.Word Library.Packing
open CausalMask

/- The sums of the mask are `f32` counts in the source, exact for rows of up to 2^24 columns; the checks on
them cannot fail on a count. -/
def seqlensFromAttentionMask (mask : TokenMask) (seqLen : Nat) : Except String (List Nat) :=
  if mask.width ≠ seqLen then .error s!"attention_mask seq_len mismatch: expected={seqLen}, got={mask.width}"
  else .ok (mask.rows.map fun row => row.countP (· ≠ 0))

def cuSeqlensFrom : Nat → Nat → Nat → List Nat → Except String (List Nat × Nat × Nat)
  | _, total, maxLen, [] => .ok ([],maxLen,total)
  | i, total, maxLen, len::rest => do
    let lenU32 ← okOr (u32TryFrom len) s!"sequence length overflows u32 at index {i}: len={len}"
    let next ← okOr (u32TryFrom (total+lenU32))
      s!"cumulative sequence length overflows u32 at index {i}: total={total} len={len}"
    let (cu,maxLen,last) ← cuSeqlensFrom (i+1) next (max maxLen len) rest
    .ok (next::cu,maxLen,last)

def cuSeqlensU32 (lengths : List Nat) : Except String (List Nat × Nat × Nat) := do
  let (cu,maxLen,total) ← cuSeqlensFrom 0 0 0 lengths
  .ok (0::cu,maxLen,total)

def rowNonzeroIndices (seqLen : Nat) (entry : List Nat × Nat) : Except String (List Nat) := do
  let base ← okOr (checkedMul entry.2 seqLen) "index overflow"
  (entry.1.findIdxs (· ≠ 0)).mapM fun j => do
    let pos ← okOr (checkedAdd base j) "index overflow"
    okOr (u32TryFrom pos) s!"index overflows u32: pos={pos}"

def maskNonzeroIndicesU32 (mask : TokenMask) (seqLen : Nat) : Except String (List Nat) := do
  if mask.width ≠ seqLen then .error s!"attention_mask seq_len mismatch: expected={seqLen}, got={mask.width}" else
  let rows ← mask.rows.zipIdx.mapM (rowNonzeroIndices seqLen)
  let idxs := rows.flatten
  if idxs = [] ∧ 0 < mask.rows.length then .error "attention_mask contains no valid tokens" else .ok idxs

/- A call of the kernel. Queries and keys are the columns they come from, counted through the rows. -/
inductive FlashCall where
  | flashAttn (batch seqLen : Nat)
  | flashAttnVarlen (q k cuQ cuK : List Nat) (maxQ maxK : Nat)
  deriving DecidableEq, Repr

def flashBranch (tokenAttentionMask : TokenMask) (batch seqLen : Nat) : Except String FlashCall := do
  let totalLen := tokenAttentionMask.width
  if tokenAttentionMask.rows.length ≠ batch then
    .error s!"token_attention_mask batch mismatch: expected={batch}, got={tokenAttentionMask.rows.length}" else
  let cacheLen ← okOr (checkedSub totalLen seqLen)
    s!"attention mask shorter than new seq_len: total_len={totalLen} new_len={seqLen}"
  if cacheLen = 0 then
    let seqlens ← seqlensFromAttentionMask tokenAttentionMask seqLen
    let (cu,maxLen,total) ← cuSeqlensU32 seqlens
    let flatTotal ← okOr (checkedMul batch seqLen) s!"batch*seq_len overflow: batch={batch} seq_len={seqLen}"
    if total = flatTotal then .ok (.flashAttn batch seqLen) else
    let idxs ← maskNonzeroIndicesU32 tokenAttentionMask seqLen
    if idxs.length ≠ total then
      .error s!"internal error: index len mismatch: idxs={idxs.length} total={total}"
    else .ok (.flashAttnVarlen idxs idxs cu cu maxLen maxLen)
  else
    let _ ← okOr (checkedMul batch totalLen) "k/v size overflow"
    let qTotal ← okOr (checkedMul batch seqLen) "q size overflow"
    let seqlensK ← seqlensFromAttentionMask tokenAttentionMask totalLen
    let (cuK,maxK,totalK) ← cuSeqlensU32 seqlensK
    let (cuQ,maxQ,totalQ) ← cuSeqlensU32 (List.replicate batch seqLen)
    if totalQ ≠ qTotal then
      .error s!"internal error: q total mismatch: expected={qTotal}, got={totalQ}" else
    let idxsK ← maskNonzeroIndicesU32 tokenAttentionMask totalLen
    if idxsK.length ≠ totalK then
      .error s!"internal error: k index len mismatch: idxs={idxsK.length} total_k={totalK}"
    else .ok (.flashAttnVarlen (List.range qTotal) idxsK cuQ cuK maxQ maxK)

inductive Attention where
  | flash (call : FlashCall)
  | masked (allowed : List (List (List Bool)))
  deriving DecidableEq, Repr

def forwardWithKvCache (useFlashAttn : Bool) (attentionMask : TokenMask) (batch seqLen cacheLen : Nat) :
    Except String Attention := do
  if attentionMask.rows.length ≠ batch then
    .error s!"attention_mask batch mismatch: expected={batch}, got={attentionMask.rows.length}" else
  if attentionMask.width ≠ cacheLen+seqLen then
    .error s!"attention_mask total_len mismatch vs cache: total_len={attentionMask.width} cache_len={cacheLen} new_len={seqLen}" else
  if useFlashAttn then
    let call ← flashBranch attentionMask batch seqLen
    .ok (.flash call)
  else
    let allowed ← makeCausalMaskCached (some attentionMask) batch cacheLen seqLen
    .ok (.masked allowed)

structure FlashKernel where
  flashAttn : (batch seqLen : Nat) → Nat → Nat → Prop
  flashAttnVarlen : (cuQ cuK : List Nat) → Nat → Nat → Prop

/- Causal, with the last query of each sequence at its last key. -/
structure BottomRight (kernel : FlashKernel) : Prop where
  flashAttn : ∀ batch seqLen i t i' j, t < seqLen → j < seqLen →
    (kernel.flashAttn batch seqLen (i*seqLen+t) (i'*seqLen+j) ↔ i' = i ∧ j ≤ t)
  flashAttnVarlen : ∀ cuQ cuK i qs qe ks ke, cuQ.Pairwise (· ≤ ·) → cuK.Pairwise (· ≤ ·) →
    cuQ[i]? = some qs → cuQ[i+1]? = some qe → cuK[i]? = some ks → cuK[i+1]? = some ke → ∀ t, qs+t < qe → ∀ key,
    (kernel.flashAttnVarlen cuQ cuK (qs+t) key ↔ ∃ r, key = ks+r ∧ key < ke ∧ r+(qe-qs) ≤ t+(ke-ks))

/- Query column `t` of row `i` attends to column `j` of row `i'`. -/
def Attends (kernel : FlashKernel) (seqLen totalLen : Nat) (attention : Attention) (i t i' j : Nat) : Prop :=
  match attention with
  | .masked allowed => i' = i ∧ Sees allowed i t j
  | .flash (.flashAttn batch seqLen) => kernel.flashAttn batch seqLen (i*seqLen+t) (i'*totalLen+j)
  | .flash (.flashAttnVarlen q k cuQ cuK _ _) => ∃ query key, q[query]? = some (i*seqLen+t) ∧
      k[key]? = some (i'*totalLen+j) ∧ kernel.flashAttnVarlen cuQ cuK query key

section Packed
variable {mask : TokenMask} {seqLen i t i' j : Nat} {cu lengths idxs : List Nat} {maxLen total : Nat}

theorem cuSeqlensFromOk {i first maxSoFar : Nat}
    (ok : cuSeqlensFrom i first maxSoFar lengths = .ok (cu,maxLen,total)) :
    total = first+lengths.sum ∧ first::cu = (starts lengths).map (first + ·) := by
  induction lengths generalizing i first maxSoFar cu with
  | nil => cases ok; exact ⟨rfl,rfl⟩
  | cons len rest ih =>
    obtain ⟨lenU32,fits,ok⟩ := exceptBind.mp ok
    obtain ⟨next,sum,ok⟩ := exceptBind.mp ok
    obtain ⟨⟨tail,longest,last⟩,counted,made⟩ := exceptBind.mp ok
    obtain ⟨_,rfl⟩ := u32TryFromSome.mp (okOrOk.mp fits)
    obtain ⟨_,rfl⟩ := u32TryFromSome.mp (okOrOk.mp sum)
    cases made
    obtain ⟨rfl,each⟩ := ih counted
    refine ⟨by rw [List.sum_cons,Nat.add_assoc],?_⟩
    rw [each,startsCons,List.map_cons,List.map_map]
    simp only [Function.comp_def,Nat.add_assoc]
    rfl

theorem cuSeqlensOk (ok : cuSeqlensU32 lengths = .ok (cu,maxLen,total)) : total = lengths.sum ∧ cu = starts lengths := by
  obtain ⟨⟨tail,longest,last⟩,counted,made⟩ := exceptBind.mp ok
  obtain ⟨sum,each⟩ := cuSeqlensFromOk counted
  cases made
  rw [Nat.zero_add] at sum
  exact ⟨sum,by simpa using each⟩

def keyColumns (seqLen : Nat) (entry : List Nat × Nat) : List Nat :=
  (entry.1.findIdxs (· ≠ 0)).map (entry.2*seqLen + ·)

def keyParts (mask : TokenMask) : List (List Nat) := mask.rows.zipIdx.map (keyColumns mask.width)

theorem rowIndicesOk (entry : List Nat × Nat) (out : List Nat) : rowNonzeroIndices seqLen entry = .ok out ↔
    (entry.2*seqLen < 2^64 ∧ ∀ j ∈ entry.1.findIdxs (· ≠ 0),
      entry.2*seqLen+j < 2^64 ∧ entry.2*seqLen+j < 2^32) ∧ keyColumns seqLen entry = out := by
  have each (j : Nat) (out : Nat) : (do
      let pos ← okOr (checkedAdd (entry.2*seqLen) j) "index overflow"
      okOr (u32TryFrom pos) s!"index overflows u32: pos={pos}") = .ok out ↔
      (entry.2*seqLen+j < 2^64 ∧ entry.2*seqLen+j < 2^32) ∧ entry.2*seqLen+j = out := by
    rw [exceptBind]
    simp only [okOrOk,checkedAddSome,u32TryFromSome]
    constructor
    · rintro ⟨pos,⟨small,rfl⟩,fits,rfl⟩
      exact ⟨⟨small,fits⟩,rfl⟩
    · rintro ⟨⟨small,fits⟩,rfl⟩
      exact ⟨_,⟨small,rfl⟩,fits,rfl⟩
  unfold rowNonzeroIndices keyColumns
  rw [exceptBind]
  simp only [okOrOk,checkedMulSome]
  constructor
  · rintro ⟨base,⟨small,rfl⟩,ok⟩
    obtain ⟨fits,made⟩ := (exceptMapChecked fun j _ => each j).mp ok
    exact ⟨⟨small,fits⟩,made⟩
  · rintro ⟨⟨small,fits⟩,made⟩
    exact ⟨_,⟨small,rfl⟩,(exceptMapChecked fun j _ => each j).mpr ⟨fits,made⟩⟩

theorem maskIndicesOk (ok : maskNonzeroIndicesU32 mask seqLen = .ok idxs) :
    mask.width = seqLen ∧ idxs = (keyParts mask).flatten := by
  unfold maskNonzeroIndicesU32 at ok
  split at ok
  · cases ok
  · next width =>
    rw [Decidable.not_not] at width
    obtain ⟨rows,found,ok⟩ := exceptBind.mp ok
    obtain ⟨_,rfl⟩ := (exceptMapChecked fun entry _ => rowIndicesOk entry).mp found
    dsimp only at ok
    split at ok <;> cases ok
    exact ⟨width,by rw [keyParts,width]⟩

theorem keyPartAt {row : List Nat} (found : mask.rows[i]? = some row) :
    (keyParts mask)[i]? = some (keyColumns mask.width (row,i)) := by
  rw [keyParts,List.getElem?_map,List.getElem?_zipIdx,found]
  simp

theorem keyPartLengths (mask : TokenMask) : (keyParts mask).map List.length = mask.rows.map fun row => row.countP (· ≠ 0) := by
  rw [keyParts,List.map_map]
  conv_rhs => rw [← List.zipIdx_map_fst 0 mask.rows,List.map_map]
  refine List.map_congr_left fun entry _ => ?_
  simp [keyColumns]

theorem columnUnique {width : Nat} (inside : j < width) {j' : Nat} (inside' : j' < width)
    (same : i*width+j = i'*width+j') : i = i' ∧ j = j' := by
  have quotient : (i*width+j)/width = i ∧ (i'*width+j')/width = i' := by
    rw [Nat.mul_comm i,Nat.mul_comm i',Nat.mul_add_div (by omega),Nat.mul_add_div (by omega),
      Nat.div_eq_of_lt inside,Nat.div_eq_of_lt inside']
    exact ⟨rfl,rfl⟩
  have rows : i = i' := by rw [← quotient.1,same,quotient.2]
  subst rows
  exact ⟨rfl,by omega⟩

theorem keyPlace {place : Nat} (inside : j < mask.width) :
    (keyParts mask).flatten[place]? = some (i*mask.width+j) ↔ ∃ row, mask.rows[i]? = some row ∧ Holds row j ∧
      place = offset (keyParts mask) i+row.countPBefore (· ≠ 0) j := by
  rw [flattenPlace]
  constructor
  · rintro ⟨i',part,r,here,there,rfl⟩
    rw [keyParts,List.getElem?_map,List.getElem?_zipIdx] at here
    obtain ⟨row,found,rfl⟩ : ∃ row, mask.rows[i']? = some row ∧ keyColumns mask.width (row,i') = part := by
      simpa using here
    rw [keyColumns,List.getElem?_map] at there
    obtain ⟨j',column,same⟩ := Option.map_eq_some_iff.mp there
    obtain ⟨bound,holds,rank⟩ := findIdxsPlace.mp column
    have within : j' < mask.width := by rwa [← mask.rectangular row (List.mem_of_getElem? found)]
    obtain ⟨rfl,rfl⟩ := columnUnique within inside same
    exact ⟨row,found,⟨bound,by simpa using holds⟩,by rw [rank]⟩
  · rintro ⟨row,found,⟨bound,holds⟩,rfl⟩
    refine ⟨i,_,_,keyPartAt found,?_,rfl⟩
    rw [keyColumns,List.getElem?_map,findIdxsPlace.mpr ⟨bound,by simpa using holds,rfl⟩]
    rfl

end Packed

section Aligned
variable {kernel : FlashKernel} {mask : TokenMask} {batch seqLen cacheLen i t i' j : Nat} {row : List Nat}

theorem keyStarts (mask : TokenMask) (i : Nat) :
    start (mask.rows.map fun row => row.countP (· ≠ 0)) i = offset (keyParts mask) i := by
  rw [← keyPartLengths]
  rfl

theorem packedAttends (aligned : BottomRight kernel) {lengths : List Nat} {n : Nat} (batched : lengths.length = mask.rows.length)
    (found : mask.rows[i]? = some row) (queries : lengths[i]? = some n) (query : t < n) (inside : j < mask.width) :
    (∃ key, (keyParts mask).flatten[key]? = some (i'*mask.width+j) ∧
      kernel.flashAttnVarlen (starts lengths) (starts (mask.rows.map fun row => row.countP (· ≠ 0)))
        (start lengths i+t) key) ↔
    i' = i ∧ Holds row j ∧ row.countPBefore (· ≠ 0) j+n ≤ t+row.countP (· ≠ 0) := by
  have bound := (List.getElem?_eq_some_iff.mp found).1
  have count : (mask.rows.map fun row => row.countP (· ≠ 0))[i]? = some (row.countP (· ≠ 0)) := by
    rw [List.getElem?_map,found]
    rfl
  have nextQ := startNext queries
  have nextK := startNext count
  have attends := aligned.flashAttnVarlen _ _ i _ _ _ _ (startsSorted lengths)
    (startsSorted (mask.rows.map fun row => row.countP (· ≠ 0))) (startsAt (by omega)) (startsAt (by omega))
    (startsAt (by rw [List.length_map]; omega)) (startsAt (by rw [List.length_map]; omega)) t
    (by rw [nextQ]; omega)
  rw [nextQ,nextK,Nat.add_sub_cancel_left,Nat.add_sub_cancel_left,keyStarts] at attends
  have partLength (k : Nat) (other : List Nat) : (keyColumns mask.width (other,k)).length = other.countP (· ≠ 0) := by
    simp [keyColumns]
  constructor
  · rintro ⟨key,there,seen⟩
    obtain ⟨row',found',⟨within,holds⟩,place⟩ := (keyPlace inside).mp there
    obtain ⟨r,same,below,order⟩ := (attends key).mp seen
    have ranked : row'.countPBefore (· ≠ 0) j < row'.countP (· ≠ 0) :=
      List.countPBefore_lt_countP_of_lt_length_of_pos (h := within) (by simpa using holds)
    obtain ⟨rfl,rfl⟩ := placeUnique (keyPartAt found') (keyPartAt found) (by rwa [partLength]) (by rw [partLength]; omega)
      (place.symm.trans same)
    obtain rfl : row' = row := Option.some.inj (found'.symm.trans found)
    exact ⟨rfl,⟨within,holds⟩,order⟩
  · rintro ⟨rfl,⟨within,holds⟩,order⟩
    have ranked : row.countPBefore (· ≠ 0) j < row.countP (· ≠ 0) :=
      List.countPBefore_lt_countP_of_lt_length_of_pos (h := within) (by simpa using holds)
    exact ⟨_,(keyPlace inside).mpr ⟨row,found,⟨within,holds⟩,rfl⟩,(attends _).mpr ⟨_,rfl,by omega,order⟩⟩

theorem holdsSelected (holds : Holds row j) :
    ∃ inside : j < row.length, (fun m : Nat => decide (m ≠ 0)) row[j] = true := by
  obtain ⟨inside,valid⟩ := holds
  exact ⟨inside,decide_eq_true valid⟩

theorem countsWithin {rows : List (List Nat)} {width : Nat} (widths : ∀ row ∈ rows, row.length = width) :
    (rows.map fun row => row.countP (· ≠ 0)).sum ≤ rows.length*width := by
  induction rows with
  | nil => simp
  | cons first rows ih =>
    have head : first.countP (· ≠ 0) ≤ width := widths first List.mem_cons_self ▸ List.countP_le_length
    have tail := ih fun row inside => widths row (List.mem_cons_of_mem first inside)
    rw [List.map_cons,List.sum_cons,List.length_cons,Nat.succ_mul]
    omega

theorem fullRows {rows : List (List Nat)} {width : Nat} (widths : ∀ row ∈ rows, row.length = width)
    (full : (rows.map fun row => row.countP (· ≠ 0)).sum = rows.length*width) :
    ∀ row ∈ rows, ∀ m ∈ row, m ≠ 0 := by
  induction rows with
  | nil => simp
  | cons first rows ih =>
    have rest (row : List Nat) (inside : row ∈ rows) : row.length = width := widths row (List.mem_cons_of_mem first inside)
    have head : first.countP (· ≠ 0) ≤ width := widths first List.mem_cons_self ▸ List.countP_le_length
    have tail := countsWithin rest
    rw [List.map_cons,List.sum_cons,List.length_cons,Nat.succ_mul] at full
    have complete : first.countP (· ≠ 0) = first.length := by
      rw [widths first List.mem_cons_self]
      omega
    intro row inside
    rcases List.mem_cons.mp inside with rfl | later
    · simpa using List.countP_eq_length.mp complete
    · exact ih rest (by omega) row later

theorem firstAttends (aligned : BottomRight kernel) {call : FlashCall} (branch : flashBranch mask batch seqLen = .ok call)
    (whole : mask.width = seqLen) (found : mask.rows[i]? = some row) (query : Holds row t) (inside : j < mask.width) :
    Attends kernel seqLen mask.width (.flash call) i t i' j ↔ i' = i ∧ Holds row j ∧ j ≤ t := by
  have member := List.mem_of_getElem? found
  have length := mask.rectangular row member
  obtain ⟨within,selected⟩ := holdsSelected query
  unfold flashBranch at branch
  split at branch
  · cases branch
  · next rows =>
    rw [Decidable.not_not] at rows
    obtain ⟨cacheLen,sub,branch⟩ := exceptBind.mp branch
    obtain ⟨_,rfl⟩ := checkedSubSome.mp (okOrOk.mp sub)
    rw [if_pos (by omega)] at branch
    obtain ⟨seqlens,counts,branch⟩ := exceptBind.mp branch
    obtain ⟨⟨cu,maxLen,total⟩,cumulated,branch⟩ := exceptBind.mp branch
    obtain ⟨flatTotal,product,branch⟩ := exceptBind.mp branch
    obtain ⟨_,rfl⟩ := checkedMulSome.mp (okOrOk.mp product)
    obtain ⟨rfl,rfl⟩ := cuSeqlensOk cumulated
    unfold seqlensFromAttentionMask at counts
    rw [if_neg (by omega)] at counts
    cases counts
    split at branch
    · next full =>
      cases branch
      rw [← rows,← whole] at full
      have holds : Holds row j := ⟨by omega,fullRows mask.rectangular full row member _ (List.getElem_mem _)⟩
      rw [← whole]
      refine (aligned.flashAttn batch mask.width i t i' j (by omega) inside).trans ?_
      simp [holds]
    · obtain ⟨idxs,packed,branch⟩ := exceptBind.mp branch
      obtain ⟨_,rfl⟩ := maskIndicesOk packed
      split at branch <;> cases branch
      have counted : (mask.rows.map fun row => row.countP (· ≠ 0))[i]? = some (row.countP (· ≠ 0)) := by
        rw [List.getElem?_map,found]
        rfl
      have ranked : row.countPBefore (· ≠ 0) t < row.countP (· ≠ 0) :=
        List.countPBefore_lt_countP_of_lt_length_of_pos (h := within) selected
      have packs : _ ↔ i' = i ∧ _ := packedAttends aligned (List.length_map _) found counted ranked inside
      have order : row.countPBefore (· ≠ 0) j+row.countP (· ≠ 0) ≤ row.countPBefore (· ≠ 0) t+row.countP (· ≠ 0) ↔ j ≤ t :=
        Nat.add_le_add_iff_right.trans (rankOrder within selected)
      rw [order,keyStarts] at packs
      rw [← packs,← whole]
      constructor
      · rintro ⟨place,key,there,keyed,seen⟩
        obtain ⟨row',found',_,rfl⟩ := (keyPlace (by omega)).mp there
        obtain rfl : row' = row := Option.some.inj (found'.symm.trans found)
        exact ⟨key,keyed,seen⟩
      · rintro ⟨key,keyed,seen⟩
        exact ⟨_,key,(keyPlace (by omega)).mpr ⟨row,found,query,rfl⟩,keyed,seen⟩

/- The queries stay padded, so a row's last query, token or not, is aligned with its last key. -/
theorem cachedAttends (aligned : BottomRight kernel) {call : FlashCall} (branch : flashBranch mask batch seqLen = .ok call)
    (cached : mask.width = cacheLen+seqLen) (more : cacheLen ≠ 0) (found : mask.rows[i]? = some row) (query : t < seqLen)
    (inside : j < mask.width) : Attends kernel seqLen mask.width (.flash call) i t i' j ↔
      i' = i ∧ Holds row j ∧ row.countPBefore (· ≠ 0) j+seqLen ≤ t+row.countP (· ≠ 0) := by
  unfold flashBranch at branch
  split at branch
  · cases branch
  · next rows =>
    rw [Decidable.not_not] at rows
    obtain ⟨cacheLen,sub,branch⟩ := exceptBind.mp branch
    obtain ⟨_,rfl⟩ := checkedSubSome.mp (okOrOk.mp sub)
    rw [if_neg (by omega)] at branch
    obtain ⟨kTotal,_,branch⟩ := exceptBind.mp branch
    obtain ⟨qTotal,product,branch⟩ := exceptBind.mp branch
    obtain ⟨_,rfl⟩ := checkedMulSome.mp (okOrOk.mp product)
    obtain ⟨seqlens,counts,branch⟩ := exceptBind.mp branch
    obtain ⟨⟨cuK,maxK,totalK⟩,keys,branch⟩ := exceptBind.mp branch
    obtain ⟨⟨cuQ,maxQ,totalQ⟩,queries,branch⟩ := exceptBind.mp branch
    obtain ⟨rfl,rfl⟩ := cuSeqlensOk keys
    obtain ⟨rfl,rfl⟩ := cuSeqlensOk queries
    unfold seqlensFromAttentionMask at counts
    rw [if_neg (by omega)] at counts
    cases counts
    dsimp only at branch
    rw [if_neg (by rw [Decidable.not_not,List.sum_replicate_nat])] at branch
    obtain ⟨idxs,packed,branch⟩ := exceptBind.mp branch
    obtain ⟨_,rfl⟩ := maskIndicesOk packed
    split at branch <;> cases branch
    have bound := (List.getElem?_eq_some_iff.mp found).1
    have here : i*seqLen+t < batch*seqLen := by
      have next : (i+1)*seqLen ≤ batch*seqLen := Nat.mul_le_mul_right seqLen (by omega)
      rw [Nat.succ_mul] at next
      omega
    have queried : (List.replicate batch seqLen)[i]? = some seqLen := by
      rw [List.getElem?_replicate,if_pos (by omega)]
    have packs : _ ↔ i' = i ∧ _ :=
      packedAttends aligned (by rw [List.length_replicate,rows]) found queried query inside
    rw [startReplicate batch seqLen i (by omega)] at packs
    rw [← packs]
    constructor
    · rintro ⟨place,key,there,keyed,seen⟩
      obtain ⟨_,same⟩ := List.getElem?_eq_some_iff.mp there
      rw [List.getElem_range] at same
      exact ⟨key,keyed,same ▸ seen⟩
    · rintro ⟨key,keyed,seen⟩
      exact ⟨_,key,List.getElem?_range here,keyed,seen⟩

/- New columns of a row that hold a token are followed by such columns only. -/
def QueriesUnpadded (cacheLen : Nat) (row : List Nat) : Prop :=
  ∀ q q', cacheLen ≤ q → q < q' → q' < row.length → Holds row q → Holds row q'

theorem alignedRow (length : row.length = cacheLen+seqLen) :
    (∀ t, t < seqLen → Holds row (cacheLen+t) → ∀ j, Holds row j →
      (row.countPBefore (· ≠ 0) j+seqLen ≤ t+row.countP (· ≠ 0) ↔ j ≤ cacheLen+t)) ↔ QueriesUnpadded cacheLen row := by
  constructor
  · rintro aligned q q' new later inside holds
    obtain ⟨within,valid⟩ := holds
    have query : cacheLen+(q-cacheLen) = q := by omega
    have own := (aligned (q-cacheLen) (by omega) (by rw [query]; exact ⟨within,valid⟩) q ⟨within,valid⟩).mpr (by omega)
    have split := countBeforeSplit (· ≠ 0) row q
    have most : (row.drop q).countP (· ≠ 0) ≤ row.length-q := by
      rw [← List.length_drop]
      exact List.countP_le_length
    have all := countAll.mp (show (row.drop q).countP (· ≠ 0) = row.length-q by omega)
    have member : row[q'] ∈ row.drop q := List.mem_drop_iff_getElem.mpr ⟨q'-q,by omega,by congr 1; omega⟩
    exact ⟨inside,of_decide_eq_true (all _ member)⟩
  · intro unpadded t query holds j _
    obtain ⟨within,selected⟩ := holdsSelected holds
    have all (m : Nat) (member : m ∈ row.drop (cacheLen+t)) : decide (m ≠ 0) = true := by
      obtain ⟨k,inside,rfl⟩ := List.mem_drop_iff_getElem.mp member
      rcases Nat.eq_zero_or_pos k with rfl | later
      · exact selected
      · obtain ⟨_,valid⟩ := unpadded (cacheLen+t) (cacheLen+t+k) (by omega) (by omega) (by omega) holds
        exact decide_eq_true valid
    have rest := countAll.mpr all
    have split := countBeforeSplit (· ≠ 0) row (cacheLen+t)
    have order : row.countPBefore (· ≠ 0) j ≤ row.countPBefore (· ≠ 0) (cacheLen+t) ↔ j ≤ cacheLen+t :=
      rankOrder within selected
    omega

theorem flashedOk {attention : Attention} (ok : forwardWithKvCache true mask batch seqLen cacheLen = .ok attention) :
    mask.width = cacheLen+seqLen ∧ ∃ call, flashBranch mask batch seqLen = .ok call ∧ .flash call = attention := by
  unfold forwardWithKvCache at ok
  split at ok
  · cases ok
  · split at ok
    · cases ok
    · next width =>
      obtain ⟨call,branch,made⟩ := exceptBind.mp ok
      exact ⟨Decidable.not_not.mp width,call,branch,Except.ok.inj made⟩

theorem maskedOk {attention : Attention} (ok : forwardWithKvCache false mask batch seqLen cacheLen = .ok attention) :
    ∃ allowed, makeCausalMaskCached (some mask) batch cacheLen seqLen = .ok allowed ∧ .masked allowed = attention := by
  unfold forwardWithKvCache at ok
  split at ok
  · cases ok
  · split at ok
    · cases ok
    · obtain ⟨allowed,made,same⟩ := exceptBind.mp ok
      exact ⟨allowed,made,Except.ok.inj same⟩

/- Both ways of attention let a query column with a token see the same columns: those of its row
that hold a token, up to its own. -/
def FlashAgrees (kernel : FlashKernel) (mask : TokenMask) (seqLen cacheLen : Nat) (flash masked : Attention) : Prop :=
  ∀ i row t, mask.rows[i]? = some row → t < seqLen → Holds row (cacheLen+t) → ∀ i' j, j < mask.width →
    (Attends kernel seqLen mask.width flash i t i' j ↔ Attends kernel seqLen mask.width masked i t i' j) ∧
    (Attends kernel seqLen mask.width masked i t i' j ↔ i' = i ∧ Holds row j ∧ j ≤ cacheLen+t)

theorem maskedAttends {allowed : List (List (List Bool))}
    (made : makeCausalMaskCached (some mask) batch cacheLen seqLen = .ok allowed) (found : mask.rows[i]? = some row)
    (query : t < seqLen) : Attends kernel seqLen mask.width (.masked allowed) i t i' j ↔
      i' = i ∧ Holds row j ∧ j ≤ cacheLen+t :=
  and_congr_right fun _ => cachedSees made found query

/-- Flash attention agrees with the explicit mask exactly if nothing is cached yet, or no row has
new columns without a token behind one with a token. -/
theorem flashAgreesIffUnpadded (kernel : FlashKernel) (aligned : BottomRight kernel) (mask : TokenMask)
    (batch seqLen cacheLen : Nat) (flash masked : Attention)
    (flashed : forwardWithKvCache true mask batch seqLen cacheLen = .ok flash)
    (explicit : forwardWithKvCache false mask batch seqLen cacheLen = .ok masked) :
    FlashAgrees kernel mask seqLen cacheLen flash masked ↔
      cacheLen = 0 ∨ ∀ row ∈ mask.rows, QueriesUnpadded cacheLen row := by
  obtain ⟨width,call,branch,rfl⟩ := flashedOk flashed
  obtain ⟨allowed,made,rfl⟩ := maskedOk explicit
  by_cases first : cacheLen = 0
  · subst first
    rw [Nat.zero_add] at width
    refine iff_of_true (fun i row t found query holds i' j inside => ?_) (Or.inl rfl)
    rw [Nat.zero_add] at holds
    have explicitly : Attends kernel seqLen mask.width (.masked allowed) i t i' j ↔ _ := maskedAttends made found query
    have flashes : _ ↔ i' = i ∧ Holds row j ∧ _ := firstAttends aligned branch width found holds inside
    rw [Nat.zero_add] at explicitly
    rw [Nat.zero_add]
    exact ⟨flashes.trans explicitly.symm,explicitly⟩
  · rw [or_iff_right first]
    constructor
    · intro agrees row member
      obtain ⟨i,found⟩ := List.mem_iff_getElem?.mp member
      refine (alignedRow ((mask.rectangular row member).trans width)).mp fun t query holds j column => ?_
      have inside : j < mask.width := by
        obtain ⟨within,_⟩ := column
        exact mask.rectangular row member ▸ within
      obtain ⟨same,explicitly⟩ := agrees i row t found query holds i j inside
      have flashes := (cachedAttends aligned branch width first found query inside).symm.trans (same.trans explicitly)
      simpa only [true_and,column] using flashes
    · intro unpadded i row t found query holds i' j inside
      have member := List.mem_of_getElem? found
      have order := (alignedRow ((mask.rectangular row member).trans width)).mpr (unpadded row member) t query holds j
      have explicitly : Attends kernel seqLen mask.width (.masked allowed) i t i' j ↔ _ := maskedAttends made found query
      have flashes : _ ↔ i' = i ∧ Holds row j ∧ _ := cachedAttends aligned branch width first found query inside
      have orders := and_congr_right (a := Holds row j) order
      exact ⟨flashes.trans ((and_congr_right fun _ => orders).trans explicitly.symm),explicitly⟩

end Aligned

section Kernel

def alignedKernel : FlashKernel where
  flashAttn _ seqLen query key := key/seqLen = query/seqLen ∧ key%seqLen ≤ query%seqLen
  flashAttnVarlen cuQ cuK query key := ∃ i qs qe ks ke t r, cuQ[i]? = some qs ∧ cuQ[i+1]? = some qe ∧
    cuK[i]? = some ks ∧ cuK[i+1]? = some ke ∧ query = qs+t ∧ query < qe ∧ key = ks+r ∧ key < ke ∧
    r+(qe-qs) ≤ t+(ke-ks)

theorem sortedAt {cu : List Nat} (sorted : cu.Pairwise (· ≤ ·)) {a b x y : Nat} (first : cu[a]? = some x)
    (second : cu[b]? = some y) (before : a ≤ b) : x ≤ y := by
  obtain ⟨here,rfl⟩ := List.getElem?_eq_some_iff.mp first
  obtain ⟨there,rfl⟩ := List.getElem?_eq_some_iff.mp second
  rcases Nat.lt_or_eq_of_le before with earlier | rfl
  · exact List.pairwise_iff_getElem.mp sorted a b here there earlier
  · exact Nat.le_refl _

theorem alignedBottomRight : BottomRight alignedKernel where
  flashAttn batch seqLen i t i' j query key := by
    have places (row column : Nat) (inside : column < seqLen) :
        (row*seqLen+column)/seqLen = row ∧ (row*seqLen+column)%seqLen = column := by
      rw [Nat.mul_comm,Nat.mul_add_div (by omega),Nat.div_eq_of_lt inside,Nat.mul_add_mod,Nat.mod_eq_of_lt inside]
      exact ⟨rfl,rfl⟩
    change (i'*seqLen+j)/seqLen = (i*seqLen+t)/seqLen ∧ (i'*seqLen+j)%seqLen ≤ (i*seqLen+t)%seqLen ↔ _
    rw [(places i t query).1,(places i t query).2,(places i' j key).1,(places i' j key).2]
  flashAttnVarlen cuQ cuK i qs qe ks ke sortedQ _ startQ endQ startK endK t inside key := by
    constructor
    · rintro ⟨i',qs',qe',ks',ke',t',r,startQ',endQ',startK',endK',same,inside',rfl,within,order⟩
      have row : i' = i := by
        rcases Nat.lt_trichotomy i' i with before | rfl | after
        · have := sortedAt sortedQ endQ' startQ before
          omega
        · rfl
        · have := sortedAt sortedQ endQ startQ' after
          omega
      subst row
      obtain rfl : qs = qs' := Option.some.inj (startQ.symm.trans startQ')
      obtain rfl : qe = qe' := Option.some.inj (endQ.symm.trans endQ')
      obtain rfl : ks = ks' := Option.some.inj (startK.symm.trans startK')
      obtain rfl : ke = ke' := Option.some.inj (endK.symm.trans endK')
      exact ⟨r,rfl,within,by omega⟩
    · rintro ⟨r,rfl,within,order⟩
      exact ⟨i,qs,qe,ks,ke,t,r,startQ,endQ,startK,endK,rfl,inside,rfl,within,order⟩

def decodeMask : TokenMask := ⟨[[0,1,1,1],[1,1,1,1]],4,by simp⟩

theorem decodeStepAgrees :
    FlashAgrees alignedKernel decodeMask 1 3 (.flash (.flashAttnVarlen [0,1] [1,2,3,4,5,6,7] [0,1,2] [0,3,7] 1 4))
      (.masked [[[false,true,true,true]],[[true,true,true,true]]]) ↔
    3 = 0 ∨ ∀ row ∈ decodeMask.rows, QueriesUnpadded 3 row :=
  flashAgreesIffUnpadded alignedKernel alignedBottomRight decodeMask 2 1 3 _ _ rfl rfl

def remainderMask : TokenMask := ⟨[[1,1,1,1,1,1,1,1,1,1],[1,1,1,1,1,1,1,1,1,0]],10,by simp⟩

/- The last token of the shorter prompt does not attend to itself. -/
theorem paddedRemainderDiffers : ∃ flash masked, forwardWithKvCache true remainderMask 2 2 8 = .ok flash ∧
    forwardWithKvCache false remainderMask 2 2 8 = .ok masked ∧
    ¬FlashAgrees alignedKernel remainderMask 2 8 flash masked := by
  refine ⟨_,_,rfl,rfl,fun agrees => ?_⟩
  have token : Holds [1,1,1,1,1,1,1,1,1,0] (8+0) := ⟨by decide,by decide⟩
  obtain ⟨same,explicitly⟩ := agrees 1 [1,1,1,1,1,1,1,1,1,0] 0 rfl (by decide) token 1 8 (by decide)
  have branch : flashBranch remainderMask 2 2 = .ok _ := rfl
  have flashes : _ ↔ 1 = 1 ∧ Holds [1,1,1,1,1,1,1,1,1,0] 8 ∧ _ := cachedAttends alignedBottomRight branch
    (rfl : remainderMask.width = 8+2) (by decide) (rfl : remainderMask.rows[1]? = _) (by decide : 0 < 2) (by decide)
  have order := (flashes.mp (same.mpr (explicitly.mpr ⟨rfl,token,Nat.le_refl 8⟩))).2.2
  exact absurd order (by decide)

end Kernel

end Qwen3Asr.FlashAttention
