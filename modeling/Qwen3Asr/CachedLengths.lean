import Qwen3Asr.EagerThinker
import Qwen3Asr.VarlenParams

/-! Lengths handed to attention over a key/value cache. They are taken from the cache once its first
layer has counted the new columns, and the new columns are added to them again. -/
namespace Qwen3Asr.CachedLengths
open Library Library.Effect Library.Word Library.Packing Library.CausalStack
open PagedMetadata CausalMask KvCache VarlenParams
open EagerThinker hiding makeFlashParams

variable {φ η κ : Type}

section Code

structure Handed where
  batch : Nat
  seqLen : Nat
  /-- Key positions that `update` returned. -/
  keyLen : Nat
  flashParams : Option FlashParams
  deriving DecidableEq, Repr

def layerFlashParams (batch seqLen : Nat) (kvCache : KVCache κ) : Except String (Option FlashParams) :=
  if 1 < seqLen then
    let cacheLen := kvCache.seqLen
    makeFlashParams (List.replicate batch seqLen) (List.replicate batch (cacheLen+seqLen)) true
  else .ok none

def handingLayers (allowed : Option (List (List (List Bool)))) (positionIds : Grid Int) :
    List (Layer η Int κ) → Nat → Grid η → KVCache κ → Except String (List Handed × Grid η × KVCache κ)
  | [], _, hidden, cache => .ok ([],hidden,cache)
  | layer::layers, layerIdx, hidden, cache => do
    let (keys,cache) ← update cache layerIdx (Grid.zipWith layer.project hidden positionIds)
    let flashParams ← layerFlashParams hidden.rows.length hidden.width cache
    let (later,out,cache) ← handingLayers allowed positionIds layers (layerIdx+1)
      (attention layer allowed keys positionIds hidden) cache
    .ok (⟨hidden.rows.length,hidden.width,keys.width,flashParams⟩::later,out,cache)

structure Pass (η : Type) where
  attentionMask : Option (Grid Nat)
  positionIds : Grid Int
  embeds : Grid η
  batched : positionIds.rows.length = embeds.rows.length
  placed : positionIds.width = embeds.width

def handingPass (thinker : CausalThinker φ η κ) (pass : Pass η) (cache : KVCache κ) :
    Except String (List Handed × Grid η × KVCache κ) :=
  let batch := pass.embeds.rows.length
  match pass.attentionMask with
  | some attentionMask =>
    if attentionMask.rows.length ≠ batch then
      .error s!"attention_mask batch mismatch: expected={batch}, got={attentionMask.rows.length}" else
    if attentionMask.width ≠ cache.seqLen+pass.embeds.width then
      .error s!"attention_mask total_len mismatch vs cache: total_len={attentionMask.width} cache_len={cache.seqLen} new_len={pass.embeds.width}"
    else do
      let allowed ← makeCausalMaskCached (some (tokenMask attentionMask)) batch cache.seqLen pass.embeds.width
      handingLayers (some allowed) pass.positionIds thinker.layers 0 pass.embeds cache
  | none =>
    if pass.embeds.width ≠ 1 then .error s!"decode-one fast path expects seq_len=1, got={pass.embeds.width}"
    else handingLayers none pass.positionIds thinker.layers 0 pass.embeds cache

def runPasses (thinker : CausalThinker φ η κ) : List (Pass η) → KVCache κ → Except String (List Handed × KVCache κ)
  | [], cache => .ok ([],cache)
  | next::later, cache => do
    let (handed,_,cache) ← handingPass thinker next cache
    let (rest,cache) ← runPasses thinker later cache
    .ok (handed ++ rest,cache)

end Code

section Forward
variable {thinker : CausalThinker φ η κ} {pass : Pass η} {cache cache' : KVCache κ} {allowed : Option (List (List (List Bool)))}
  {positionIds : Grid Int} {layers : List (Layer η Int κ)} {layerIdx : Nat} {hidden out : Grid η}

theorem layerParamsChecked {batch seqLen : Nat} :
    (∃ params, layerFlashParams batch seqLen cache = .ok params) ↔
      EagerThinker.makeFlashParams batch seqLen (cache.seqLen+seqLen) = .ok () := by
  unfold layerFlashParams EagerThinker.makeFlashParams makeFlashParams
  rcases Nat.lt_or_ge 1 seqLen with several | one
  · rw [if_pos several,if_neg (by omega)]
    simp only [exceptBind]
    constructor
    · rintro ⟨_,queries,first,keys,second,_⟩
      exact ⟨queries,first,keys,second,trivial⟩
    · rintro ⟨queries,first,keys,second,_⟩
      exact ⟨_,queries,first,keys,second,rfl⟩
  · rw [if_neg (by omega),if_pos one]
    exact iff_of_true ⟨_,rfl⟩ rfl

theorem handingLayersSame : (∃ handed, handingLayers allowed positionIds layers layerIdx hidden cache = .ok (handed,out,cache')) ↔
    forwardCachedLayers allowed positionIds layers layerIdx hidden cache = .ok (out,cache') := by
  induction layers generalizing layerIdx hidden cache with
  | nil =>
    constructor
    · rintro ⟨handed,ok⟩
      cases ok
      rfl
    · intro ok
      cases ok
      exact ⟨_,rfl⟩
  | cons layer layers ih =>
    unfold handingLayers forwardCachedLayers
    simp only [exceptBind]
    constructor
    · rintro ⟨handed,⟨keys,cache''⟩,updated,params,made,⟨later,out',last⟩,rest,ok⟩
      cases ok
      exact ⟨_,updated,(),layerParamsChecked.mp ⟨params,made⟩,ih.mp ⟨later,rest⟩⟩
    · rintro ⟨⟨keys,cache''⟩,updated,_,made,rest⟩
      obtain ⟨params,made⟩ := layerParamsChecked.mpr made
      obtain ⟨later,rest⟩ := ih.mpr rest
      exact ⟨_,_,updated,params,made,_,rest,rfl⟩

theorem handingPassMasked {attentionMask : Grid Nat} {tokens : Grid Nat} (masked : pass.attentionMask = some attentionMask) :
    (∃ handed out, handingPass thinker pass cache = .ok (handed,out,cache') ∧ out.map thinker.pick = tokens) ↔
      forwardEmbedsWithKvCache thinker attentionMask pass.positionIds pass.embeds cache = .ok (tokens,cache') := by
  unfold handingPass forwardEmbedsWithKvCache
  rw [masked]
  dsimp only
  split
  · simp
  · split
    · simp
    · simp only [exceptBind]
      constructor
      · rintro ⟨handed,out,⟨allowed,made,rest⟩,rfl⟩
        exact ⟨allowed,made,_,handingLayersSame.mp ⟨handed,rest⟩,rfl⟩
      · rintro ⟨allowed,made,⟨out,cache''⟩,rest,ok⟩
        cases ok
        obtain ⟨handed,rest⟩ := handingLayersSame.mpr rest
        exact ⟨handed,out,⟨allowed,made,rest⟩,rfl⟩

end Forward

section Lengths
variable {thinker : CausalThinker φ η κ} {cache cache' : KVCache κ} {allowed : Option (List (List (List Bool)))}
  {positionIds : Grid Int} {layers : List (Layer η Int κ)} {layerIdx m n len : Nat} {hidden out : Grid η} {handed : List Handed}

structure Midway (cache : KVCache κ) (layers layerIdx len new : Nat) : Prop where
  before : ∀ m, m < layerIdx → entryLen cache m = len+new
  after : ∀ m, layerIdx ≤ m → m < layers → entryLen cache m = len
  counted : cache.seqLen = if layerIdx = 0 then len else len+new

abbrev Coherent (cache : KVCache κ) (layers : Nat) : Prop := ∀ m, m < layers → entryLen cache m = cache.seqLen

theorem updatedLen {key keys : Grid κ} (updated : Updated cache layerIdx key keys cache') :
    keys.width = entryLen cache layerIdx+key.width ∧ entryLen cache' layerIdx = keys.width ∧
      ∀ m, m ≠ layerIdx → entryLen cache' m = entryLen cache m := by
  refine ⟨?_,?_,fun m other => by rw [entryLen,updated.others m other,entryLen]⟩
  · cases before : get cache layerIdx with
    | none => rw [updated.first before,entryLen,before]; exact (Nat.zero_add _).symm
    | some entry =>
      rw [(updated.appended entry before).2,entryLen,before]
      rfl
  · obtain ⟨entry,here,current⟩ := updated.here
    rw [entryLen,here]
    exact congrArg Grid.width current

theorem midwayNext {key keys : Grid κ} {new : Nat} (midway : Midway cache n layerIdx len new) (inside : layerIdx < n)
    (width : key.width = new) (updated : Updated cache layerIdx key keys cache') :
    keys.width = len+new ∧ cache'.seqLen = len+new ∧ Midway cache' n (layerIdx+1) len new := by
  obtain ⟨grown,here,others⟩ := updatedLen updated
  have held := midway.after layerIdx (Nat.le_refl _) inside
  rw [held,width] at grown
  have counted : cache'.seqLen = len+new := by
    rw [updated.counted,midway.counted,width]
    split
    · next first =>
      cases found : get cache layerIdx with
      | some entry => rfl
      | none =>
        rw [entryLen,found] at held
        obtain rfl : len = 0 := held.symm
        simp
    · rfl
  refine ⟨grown,counted,fun m before => ?_,fun m after inside => ?_,counted⟩
  · rcases Nat.lt_succ_iff_lt_or_eq.mp before with earlier | rfl
    · rw [others m (by omega),midway.before m earlier]
    · rw [here,grown]
  · rw [others m (by omega),midway.after m (by omega) inside]

/- What is handed over at a layer, and the lengths behind it: the new columns are counted twice. -/
structure CountedTwice (rows len new : Nat) (h : Handed) : Prop where
  batch : h.batch = rows
  seqLen : h.seqLen = new
  keyLen : h.keyLen = len+new
  flashParams : if 1 < new then makeFlashParams (List.replicate rows new) (List.replicate rows (len+new+new)) true = .ok h.flashParams
    else h.flashParams = none

theorem handingLayersCounted {new : Nat} (batched : positionIds.rows.length = hidden.rows.length)
    (placed : positionIds.width = new) (width : hidden.width = new) (midway : Midway cache (layerIdx+layers.length) layerIdx len new)
    (ok : handingLayers allowed positionIds layers layerIdx hidden cache = .ok (handed,out,cache')) :
    Midway cache' (layerIdx+layers.length) (layerIdx+layers.length) len new ∧
      handed.length = layers.length ∧ ∀ h ∈ handed, CountedTwice positionIds.rows.length len new h := by
  induction layers generalizing layerIdx hidden cache handed with
  | nil =>
    cases ok
    exact ⟨midway,rfl,fun h inside => by cases inside⟩
  | cons layer layers ih =>
    obtain ⟨⟨keys,cache''⟩,updates,ok⟩ := exceptBind.mp ok
    obtain ⟨flashParams,params,ok⟩ := exceptBind.mp ok
    obtain ⟨⟨later,out',last⟩,rest,ok⟩ := exceptBind.mp ok
    cases ok
    have projected : (Grid.zipWith layer.project hidden positionIds).width = new := by
      change min hidden.width positionIds.width = new
      omega
    obtain ⟨grown,counted,next⟩ := midwayNext midway (by simp) projected (updateOk updates)
    have further : layerIdx+(layer::layers).length = layerIdx+1+layers.length := by
      rw [List.length_cons]
      omega
    rw [further] at next ⊢
    have attended : (attention layer allowed keys positionIds hidden).rows.length = positionIds.rows.length := by
      simp [attention,Grid.mapIdx,Grid.zipWith,batched]
    have kept : (attention layer allowed keys positionIds hidden).width = new := by
      change min hidden.width positionIds.width = new
      omega
    obtain ⟨done,each,all⟩ := ih attended.symm kept next rest
    refine ⟨done,by rw [List.length_cons,each,List.length_cons],fun h inside => ?_⟩
    rcases List.mem_cons.mp inside with rfl | inside
    · refine ⟨batched.symm,width,grown,?_⟩
      unfold layerFlashParams at params
      rw [width,← batched,counted] at params
      split
      · next several =>
        rw [if_pos several] at params
        exact params
      · next one =>
        rw [if_neg one] at params
        exact (Except.ok.inj params).symm
    · exact all h inside

theorem coherentFresh (numLayers : Nat) (maxSeqLen : Option Nat) (m : Nat) :
    Coherent (⟨List.replicate numLayers none,0,maxSeqLen⟩ : KVCache κ) m := by
  intro layer _
  have none_ : get (⟨List.replicate numLayers none,0,maxSeqLen⟩ : KVCache κ) layer = none := freshNone numLayers layer
  rw [entryLen,none_]
  rfl

/- A pass leaves the cache coherent, with its columns counted once; what it hands over has them twice. -/
theorem handingPassCounted {pass : Pass η} (coherent : Coherent cache thinker.layers.length)
    (ok : handingPass thinker pass cache = .ok (handed,out,cache')) :
    Coherent cache' thinker.layers.length ∧ handed ≠ [] ∧
      ∀ h ∈ handed, CountedTwice pass.embeds.rows.length cache.seqLen pass.embeds.width h := by
  have layered : ∃ allowed, handingLayers allowed pass.positionIds thinker.layers 0 pass.embeds cache = .ok (handed,out,cache') := by
    unfold handingPass at ok
    dsimp only at ok
    split at ok
    · split at ok
      · cases ok
      · split at ok
        · cases ok
        · obtain ⟨allowed,_,ok⟩ := exceptBind.mp ok
          exact ⟨_,ok⟩
    · split at ok
      · cases ok
      · exact ⟨none,ok⟩
  obtain ⟨allowed,ran⟩ := layered
  have midway : Midway cache (0+thinker.layers.length) 0 cache.seqLen pass.embeds.width := by
    refine ⟨fun m before => absurd before (Nat.not_lt_zero m),fun m _ inside => coherent m (by omega),rfl⟩
  obtain ⟨done,each,all⟩ := handingLayersCounted pass.batched pass.placed rfl midway ran
  rw [Nat.zero_add] at done
  have deep := List.length_pos_of_ne_nil thinker.deep
  refine ⟨fun m inside => ?_,fun none => ?_,fun h inside => pass.batched ▸ all h inside⟩
  · rw [done.before m inside,done.counted,if_neg (by omega)]
  · rw [none] at each
    exact absurd each.symm (by simpa using thinker.deep)

end Lengths

section Reach
variable {thinker : CausalThinker φ η κ} {cache template copies : KVCache κ}

/- Caches of generation: fresh ones, those a pass leaves, and copies of a prefix. -/
inductive Reached (thinker : CausalThinker φ η κ) : KVCache κ → Prop where
  | fresh (maxSeqLen) : Reached thinker ⟨List.replicate thinker.layers.length none,0,maxSeqLen⟩
  | passed {cache cache' pass handed out} (before : Reached thinker cache)
      (ok : handingPass thinker pass cache = .ok (handed,out,cache')) : Reached thinker cache'
  | copied {cache template copies prefixLen batch} (before : Reached thinker cache)
      (cut : row0PrefixTemplate cache prefixLen = .ok template) (ok : replicateBatch template batch = .ok copies) :
      Reached thinker copies

theorem templateCoherent {prefixLen n : Nat} (deep : 0 < n) (coherent : Coherent cache n)
    (cut : row0PrefixTemplate cache prefixLen = .ok template) : Coherent template n ∧ template.maxSeqLen = none := by
  have within : 0 < prefixLen ∧ prefixLen ≤ cache.seqLen := by
    unfold row0PrefixTemplate at cut
    split at cut
    · cases cut
    · omega
  have filled (m : Nat) (inside : m < n) : ∃ entry, get cache m = some entry := by
    have held := coherent m inside
    cases found : get cache m with
    | some entry => exact ⟨entry,rfl⟩
    | none =>
      rw [entryLen,found] at held
      have none_ : 0 = cache.seqLen := held
      omega
  obtain ⟨unreserved,counted,layers⟩ := row0PrefixTemplateOk cut
  obtain ⟨first,there⟩ := filled 0 deep
  have length := counted (by rw [there]; rfl)
  refine ⟨fun m inside => ?_,unreserved⟩
  obtain ⟨entry,found⟩ := filled m inside
  obtain ⟨short,here,made⟩ := layers m entry found
  rw [entryLen,here,length]
  change short.current.width = prefixLen
  rw [made.current]
  exact Nat.min_eq_left made.within

theorem copiesCoherent {batch n : Nat} (coherent : Coherent template n) (unreserved : template.maxSeqLen = none)
    (ok : replicateBatch template batch = .ok copies) : Coherent copies n := by
  rcases Nat.lt_or_ge batch 2 with few | several
  · unfold replicateBatch at ok
    split at ok
    · cases ok
    · rw [if_pos (by omega)] at ok
      cases ok
      exact coherent
  · obtain ⟨_,made,counted,_,each⟩ := replicateBatchGoes unreserved several
    cases made.symm.trans ok
    intro m inside
    have held := coherent m inside
    have same := congrArg (Option.map Grid.width) (each m)
    rw [Option.map_map,Option.map_map] at same
    rw [counted,← held]
    exact congrArg (Option.getD · 0) same

theorem reachedCoherent (reached : Reached thinker cache) : Coherent cache thinker.layers.length := by
  have deep := List.length_pos_of_ne_nil thinker.deep
  induction reached with
  | fresh maxSeqLen => exact coherentFresh _ maxSeqLen _
  | passed _ ok before => exact (handingPassCounted before ok).1
  | copied _ cut ok before =>
    obtain ⟨coherent,unreserved⟩ := templateCoherent deep before cut
    exact copiesCoherent coherent unreserved ok

end Reach

section Truth
variable {thinker : CausalThinker φ η κ} {cache cache' : KVCache κ} {passes : List (Pass η)} {handed : List Handed}

/- The key lengths read back from the parameters are the key positions of every row. -/
def TrueLengths (h : Handed) : Prop := ∀ params cu, h.flashParams = some params → params.cumulativeSeqlensK = some cu →
  sequenceLengthsFromCu cu = .ok (List.replicate h.batch h.keyLen)

theorem flashParamsOk {rows new keys : Nat} {params : Option FlashParams} (some : rows ≠ 0)
    (ok : makeFlashParams (List.replicate rows new) (List.replicate rows keys) true = .ok params) :
    params = .some ⟨new,.some (starts (List.replicate rows new)),keys,.some (starts (List.replicate rows keys)),true⟩ := by
  obtain ⟨cuQ,queries,ok⟩ := exceptBind.mp ok
  obtain ⟨cuK,keyed,ok⟩ := exceptBind.mp ok
  obtain rfl := cumulativeStarts queries
  obtain rfl := cumulativeStarts keyed
  have small {n : Nat} {cu : List Nat} (fits : cumulativeSeqlensFromLengths (List.replicate rows n) = .ok cu) : n < 2^32 := by
    obtain ⟨out,made,_⟩ := exceptBind.mp fits
    have bound := (@cumulativeFits 0 _ (by decide)).mp ⟨out,made⟩
    rw [List.sum_replicate_nat,Nat.zero_add] at bound
    have once : n ≤ rows*n := Nat.le_mul_of_pos_left n (Nat.pos_of_ne_zero some)
    omega
  have first := u32TryFromSome.mpr ⟨small queries,rfl⟩
  have second := u32TryFromSome.mpr ⟨small keyed,rfl⟩
  have longest (n : Nat) : (List.replicate rows n).max? = .some n := List.max?_replicate_of_pos (Nat.pos_of_ne_zero some)
  rw [longest,longest] at ok
  simp only [newPrefill,first,second,Option.bind_eq_bind,Option.bind_some] at ok
  exact (Except.ok.inj ok).symm

theorem countedTwiceTrue {rows len new : Nat} {h : Handed} (counted : CountedTwice rows len new h) :
    TrueLengths h ↔ new ≤ 1 ∨ rows = 0 := by
  have params := counted.flashParams
  rcases Nat.lt_or_ge 1 new with several | one
  · rw [if_pos several] at params
    rcases Nat.eq_zero_or_pos rows with rfl | positive
    · refine iff_of_true (fun given cu found => ?_) (.inr rfl)
      have none : h.flashParams = none := (Except.ok.inj params).symm
      rw [none] at found
      cases found
    · have made := flashParamsOk (by omega) params
      refine iff_of_false (fun true_ => ?_) (by omega)
      have read := true_ _ _ made rfl
      have nonempty : List.replicate rows (len+new+new) ≠ [] := by simp; omega
      rw [lengthsOfStarts nonempty,counted.batch,counted.keyLen] at read
      have same := (List.replicate_inj.mp (Except.ok.inj read)).2
      omega
  · rw [if_neg (by omega)] at params
    refine iff_of_true (fun given cu found => ?_) (.inl one)
    rw [params] at found
    cases found

theorem trueLengthsFrom (coherent : Coherent cache thinker.layers.length)
    (ran : runPasses thinker passes cache = .ok (handed,cache')) :
    (∀ h ∈ handed, TrueLengths h) ↔ ∀ pass ∈ passes, pass.embeds.width ≤ 1 ∨ pass.embeds.rows = [] := by
  induction passes generalizing cache handed with
  | nil =>
    cases ran
    simp
  | cons pass passes ih =>
    obtain ⟨⟨first,out,cache''⟩,passed,ran⟩ := exceptBind.mp ran
    obtain ⟨⟨later,last⟩,rest,ran⟩ := exceptBind.mp ran
    cases ran
    obtain ⟨next,some,counted⟩ := handingPassCounted coherent passed
    rw [List.forall_mem_append,ih next rest,List.forall_mem_cons]
    refine and_congr_left fun _ => ?_
    constructor
    · intro all
      obtain ⟨h,inside⟩ := List.exists_mem_of_ne_nil first some
      exact ((countedTwiceTrue (counted h inside)).mp (all h inside)).imp_right List.eq_nil_of_length_eq_zero
    · intro short h inside
      exact (countedTwiceTrue (counted h inside)).mpr (short.imp_right fun none => by rw [none]; rfl)

/-- Over any run from any cache that is reached, the lengths are true exactly where none are made. -/
theorem trueLengthsIff (reached : Reached thinker cache) (ran : runPasses thinker passes cache = .ok (handed,cache')) :
    (∀ h ∈ handed, TrueLengths h) ↔ ∀ pass ∈ passes, pass.embeds.width ≤ 1 ∨ pass.embeds.rows = [] :=
  trueLengthsFrom (reachedCoherent reached) ran

end Truth

section Runs

def plainThinker : CausalThinker Unit Unit Unit where
  audioTokenId := 0
  embed _ := ()
  layers := [⟨fun _ _ => (),fun _ _ _ => ()⟩]
  deep := by decide
  pick _ := 0

def columnsOf (width : Nat) (attentionMask : Option (Grid Nat)) : Pass Unit where
  attentionMask := attentionMask
  positionIds := ⟨[List.replicate width 0],width,by simp⟩
  embeds := ⟨[List.replicate width ()],width,by simp⟩
  batched := rfl
  placed := rfl

theorem singleColumnsTrue : ∃ handed cache', runPasses plainThinker [columnsOf 1 none,columnsOf 1 none] (withNumLayers 1) =
    .ok (handed,cache') ∧ ∀ h ∈ handed, TrueLengths h := by
  have made : (runPasses plainThinker [columnsOf 1 none,columnsOf 1 none] (withNumLayers 1)).isOk = true := by decide
  obtain ⟨⟨handed,cache'⟩,ran⟩ := exceptIsOk.mp made
  refine ⟨handed,cache',ran,(trueLengthsIff (.fresh none) ran).mpr fun pass inside => ?_⟩
  have same : pass = columnsOf 1 none := by simpa using inside
  rw [same]
  exact .inl (Nat.le_refl 1)

/- Two columns into an empty cache are handed over as four. -/
theorem freshColumnsTwice : ∃ handed cache', runPasses plainThinker [columnsOf 2 (some ⟨[[1,1]],2,by simp⟩)] (withNumLayers 1) =
    .ok ([handed],cache') ∧ handed.keyLen = 2 ∧
    (handed.flashParams.bind FlashParams.cumulativeSeqlensK).map sequenceLengthsFromCu = some (.ok [4]) ∧ ¬ TrueLengths handed := by
  refine ⟨⟨1,2,2,some ⟨2,some [0,2],4,some [0,4],true⟩⟩,_,rfl,rfl,rfl,fun true_ => ?_⟩
  have read := true_ _ _ rfl rfl
  cases read

end Runs

end Qwen3Asr.CachedLengths
