import Qwen3Asr.Library.Effect
import Qwen3Asr.Library.Word

/-! The explicit mask of cached attention: each new column sees the unmasked columns up to its
own. A token mask is a table of `u32` rows of one width. -/
namespace Qwen3Asr.CausalMask
open Library.Effect Library.Word

structure TokenMask where
  rows : List (List Nat)
  width : Nat
  rectangular : ∀ row ∈ rows, row.length = width

/- The allowed positions; the additive mask is zero there and the least number elsewhere. -/
def makeCausalMaskCached (attentionMask : Option TokenMask) (batchSize cacheLen newLen : Nat) :
    Except String (List (List (List Bool))) := do
  let totalLen := cacheLen+newLen
  if newLen = 0 then .ok (List.replicate batchSize []) else
  let totalLenU32 ← okOr (u32TryFrom totalLen) s!"total_len overflows u32: {totalLen}"
  let cacheLenU32 ← okOr (u32TryFrom cacheLen) s!"cache_len overflows u32: {cacheLen}"
  let newLenU32 ← okOr (u32TryFrom newLen) s!"new_len overflows u32: {newLen}"
  let qEnd ← okOr (u32TryFrom (cacheLenU32+newLenU32))
    s!"cache_len + new_len overflows u32: cache_len={cacheLen} new_len={newLen}"
  let kv := List.range totalLenU32
  let q := List.range' cacheLenU32 (qEnd-cacheLenU32)
  let allowed := q.map fun q => kv.map fun kv => decide (kv ≤ q)
  match attentionMask with
  | none => .ok (List.replicate batchSize allowed)
  | some m =>
    if m.rows.length ≠ batchSize ∨ m.width ≠ totalLen then
      .error s!"attention_mask dims mismatch: expected=({batchSize},{totalLen}), got=({m.rows.length},{m.width})"
    else .ok (m.rows.map fun row => allowed.map fun keys => List.zipWith (fun a m => a && m ≠ 0) keys row)

def Sees (allowed : List (List (List Bool))) (i t j : Nat) : Prop :=
  ∃ queries keys, allowed[i]? = some queries ∧ queries[t]? = some keys ∧ keys[j]? = some true

def Holds (row : List Nat) (j : Nat) : Prop := ∃ inside : j < row.length, row[j] ≠ 0

theorem holdsSome {row : List Nat} {j : Nat} : Holds row j ↔ ∃ m, row[j]? = some m ∧ m ≠ 0 := by
  constructor
  · rintro ⟨inside,holds⟩
    exact ⟨row[j],List.getElem?_eq_getElem inside,holds⟩
  · rintro ⟨m,found,holds⟩
    obtain ⟨inside,rfl⟩ := List.getElem?_eq_some_iff.mp found
    exact ⟨inside,holds⟩

section Cached
variable {mask : TokenMask} {batch cacheLen newLen i t j : Nat} {allowed : List (List (List Bool))} {row : List Nat}

theorem cachedOk (ok : makeCausalMaskCached (some mask) batch cacheLen newLen = .ok allowed) (some : newLen ≠ 0) :
    mask.rows.length = batch ∧ mask.width = cacheLen+newLen ∧
    allowed = mask.rows.map fun row => (List.range' cacheLen newLen).map fun q =>
      List.zipWith (fun a m => a && decide (m ≠ 0)) ((List.range (cacheLen+newLen)).map fun kv => decide (kv ≤ q)) row := by
  unfold makeCausalMaskCached at ok
  rw [if_neg some] at ok
  obtain ⟨total,first,ok⟩ := exceptBind.mp ok
  obtain ⟨cache,second,ok⟩ := exceptBind.mp ok
  obtain ⟨new,third,ok⟩ := exceptBind.mp ok
  obtain ⟨qEnd,fourth,ok⟩ := exceptBind.mp ok
  obtain ⟨_,rfl⟩ := u32TryFromSome.mp (okOrOk.mp first)
  obtain ⟨_,rfl⟩ := u32TryFromSome.mp (okOrOk.mp second)
  obtain ⟨_,rfl⟩ := u32TryFromSome.mp (okOrOk.mp third)
  obtain ⟨_,rfl⟩ := u32TryFromSome.mp (okOrOk.mp fourth)
  dsimp only at ok
  split at ok
  · cases ok
  · next fits =>
    cases ok
    rw [not_or,Decidable.not_not,Decidable.not_not] at fits
    refine ⟨fits.1,fits.2,?_⟩
    rw [Nat.add_sub_cancel_left]
    simp only [List.map_map]
    rfl

theorem cachedFits (new : newLen ≠ 0) : (∃ allowed, makeCausalMaskCached (some mask) batch cacheLen newLen = .ok allowed) ↔
    mask.rows.length = batch ∧ mask.width = cacheLen+newLen ∧ cacheLen+newLen < 2^32 := by
  constructor
  · intro made
    obtain ⟨allowed,ok⟩ := made
    obtain ⟨rows,width,_⟩ := cachedOk ok new
    unfold makeCausalMaskCached at ok
    rw [if_neg new] at ok
    obtain ⟨total,fits,_⟩ := exceptBind.mp ok
    exact ⟨rows,width,(u32TryFromSome.mp (okOrOk.mp fits)).1⟩
  · intro fits
    obtain ⟨rows,width,small⟩ := fits
    unfold makeCausalMaskCached
    rw [if_neg new]
    simp only [exceptBind,okOrOk,u32TryFromSome]
    exact ⟨_,_,⟨small,rfl⟩,_,⟨by omega,rfl⟩,_,⟨by omega,rfl⟩,_,⟨small,rfl⟩,if_neg (by omega)⟩

theorem cachedSees (ok : makeCausalMaskCached (some mask) batch cacheLen newLen = .ok allowed)
    (found : mask.rows[i]? = some row) (query : t < newLen) : Sees allowed i t j ↔ Holds row j ∧ j ≤ cacheLen+t := by
  obtain ⟨_,width,rfl⟩ := cachedOk ok (by omega)
  have length := mask.rectangular row (List.mem_of_getElem? found)
  have keys : ((List.range' cacheLen newLen).map fun q => List.zipWith (fun a m => a && decide (m ≠ 0))
      ((List.range (cacheLen+newLen)).map fun kv => decide (kv ≤ q)) row)[t]? =
      some (List.zipWith (fun a m => a && decide (m ≠ 0))
        ((List.range (cacheLen+newLen)).map fun kv => decide (kv ≤ cacheLen+t)) row) := by
    simp [List.getElem?_range' query]
  constructor
  · rintro ⟨queries,row',rows,here,seen⟩
    rw [List.getElem?_map,found] at rows
    cases rows
    rw [keys] at here
    cases here
    obtain ⟨a,m,before,there,both⟩ := List.getElem?_zipWith_eq_some.mp seen
    obtain ⟨causal,holds⟩ : a = true ∧ m ≠ 0 := by simpa using both
    obtain ⟨_,order⟩ := List.getElem?_eq_some_iff.mp before
    rw [List.getElem_map,List.getElem_range,causal] at order
    exact ⟨holdsSome.mpr ⟨m,there,holds⟩,of_decide_eq_true order⟩
  · rintro ⟨holds,order⟩
    obtain ⟨m,there,valid⟩ := holdsSome.mp holds
    have inside := (List.getElem?_eq_some_iff.mp there).1
    refine ⟨_,_,by rw [List.getElem?_map,found]; rfl,keys,List.getElem?_zipWith_eq_some.mpr ⟨true,m,?_,there,?_⟩⟩
    · rw [List.getElem?_map,List.getElem?_range (by omega),Option.map_some,decide_eq_true order]
    · simp [valid]

end Cached

end Qwen3Asr.CausalMask
