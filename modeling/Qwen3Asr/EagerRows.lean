import Qwen3Asr.EagerThinker

/-! Cached passes row by row. Each row of a pass is a stack of causal layers over the columns its
cache has seen, and the pass leaves the keys of its own columns behind them. -/
namespace Qwen3Asr.EagerRows
open Library Library.Effect Library.Word Library.CausalStack
open PagedMetadata PromptPositions BatchEngine CausalMask KvCache EagerThinker

variable {φ η κ : Type}

section Rows
variable {i : Nat} {bits : List Bool} {cs : List (Input η Int)} {hidden : Grid η} {positionIds : Grid Int}

structure RowInputs (hidden : Grid η) (positionIds : Grid Int) (i : Nat) (cs : List (Input η Int)) : Prop where
  hidden : hidden.rows[i]? = some (cs.map Input.hidden)
  positions : positionIds.rows[i]? = some (cs.map Input.position)

/- Row `i` attends, past the columns marked by `bits`, to the held columns up to the query. -/
def SeesCausally (κ : Type) (allowed : Option (List (List (List Bool)))) (i : Nat) (bits holds : List Bool) : Prop :=
  ∀ t, t < holds.length → ∀ keys : List κ, keys.length = bits.length+holds.length →
    allowedKeys allowed i t keys = visible ((bits ++ holds).take (bits.length+t+1)) keys

theorem rowKeyed (layer : Layer η Int κ) (row : RowInputs hidden positionIds i cs) :
    (Grid.zipWith layer.project hidden positionIds).rows[i]? = some (cs.map (key layer)) := by
  rw [Grid.zipWithRow _ row.hidden row.positions,List.zipWith_map]
  exact congrArg some (List.zipWith_self ..)

theorem attentionRow {layer : Layer η Int κ} {allowed : Option (List (List (List Bool)))} {keys : Grid κ}
    {cached : List κ} (sees : SeesCausally κ allowed i bits (cs.map Input.holds)) (row : RowInputs hidden positionIds i cs)
    (length : cached.length = bits.length) (found : keys.rows[i]? = some (cached ++ cs.map (key layer))) :
    RowInputs (attention layer allowed keys positionIds hidden) positionIds i (pass layer (visible bits cached) cs) where
  hidden := by
    have zipped := Grid.zipWithRow Prod.mk row.hidden row.positions
    rw [List.zipWith_map,List.zipWith_self] at zipped
    rw [attention,Grid.mapIdxRow _ zipped,passParallel]
    refine congrArg some (List.ext_getElem (by simp) fun t _ bound => ?_)
    have inside : t < cs.length := by simpa using bound
    have seen := sees t (by simpa using inside) (cached ++ cs.map (key layer)) (by simp [length])
    have new : visible ((cs.map Input.holds).take (t+1)) (cs.map (key layer)) = held layer (cs.take (t+1)) := by
      rw [← visibleTake,← List.map_take,← List.map_take,visibleMap]
      rfl
    have split : visible ((bits ++ cs.map Input.holds).take (bits.length+t+1)) (cached ++ cs.map (key layer)) =
        visible bits cached ++ held layer (cs.take (t+1)) := by
      have past : bits.length+t+1-bits.length = t+1 := by omega
      rw [List.take_append,List.take_of_length_le (by omega),past,visibleAppend length.symm,new]
    simp [found,seen,split]
  positions := by rw [passPositions,row.positions]

theorem cachedLayersRow {allowed : Option (List (List (List Bool)))} {layers : List (Layer η Int κ)} {layerIdx : Nat}
    {out : Grid η} {cache cache' : KVCache κ}
    (ok : forwardCachedLayers allowed positionIds layers layerIdx hidden cache = .ok (out,cache'))
    (sees : SeesCausally κ allowed i bits (cs.map Input.holds)) (row : RowInputs hidden positionIds i cs)
    (lengths : ∀ m, m < layers.length → (rowKeys cache (layerIdx+m) i).length = bits.length) :
    out.rows[i]? =
      some ((stackOut layers (fun m => visible bits (rowKeys cache (layerIdx+m) i)) cs).map Input.hidden) ∧
    (∀ m, m < layerIdx → rowKeys cache' m i = rowKeys cache m i) ∧
    ∀ m, m < layers.length → rowKeys cache' (layerIdx+m) i = rowKeys cache (layerIdx+m) i ++
      stackKeys layers (fun m => visible bits (rowKeys cache (layerIdx+m) i)) cs m := by
  induction layers generalizing layerIdx hidden cs cache with
  | nil =>
    cases ok
    exact ⟨row.hidden,fun _ _ => rfl,fun m bound => absurd bound (Nat.not_lt_zero m)⟩
  | cons layer layers ih =>
    obtain ⟨⟨keys,cache₁⟩,updates,ok⟩ := exceptBind.mp ok
    obtain ⟨_,_,ok⟩ := exceptBind.mp ok
    have updated := updateOk updates
    have keyed := rowKeyed layer row
    have length : (rowKeys cache layerIdx i).length = bits.length := lengths 0 (Nat.zero_lt_succ _)
    have next := attentionRow sees row length (updatedRow updated keyed)
    have others (m : Nat) : rowKeys cache₁ (layerIdx+1+m) i = rowKeys cache (layerIdx+(m+1)) i := by
      rw [updatedOthers updated (by omega),Nat.add_assoc,Nat.add_comm 1 m]
    have rest := ih ok (by rwa [passHolds]) next fun m bound => by
      rw [others]
      exact lengths (m+1) (Nat.succ_lt_succ bound)
    simp only [others] at rest
    refine ⟨rest.1,fun m before => ?_,fun m bound => ?_⟩
    · rw [rest.2.1 m (by omega),updatedOthers updated (by omega)]
    · cases m with
      | zero => rw [Nat.add_zero,rest.2.1 layerIdx (by omega),updatedKeys updated keyed,stackKeys]
      | succ m =>
        have later := rest.2.2 m (Nat.lt_of_succ_lt_succ bound)
        rwa [Nat.add_assoc,Nat.add_comm 1 m] at later

theorem layersRow {allowed : List (List (List Bool))} {layers : List (Layer η Int κ)} {out : Grid η}
    (ok : forwardLayers allowed positionIds layers hidden = .ok out)
    (sees : SeesCausally κ (some allowed) i [] (cs.map Input.holds)) (row : RowInputs hidden positionIds i cs) :
    out.rows[i]? = some ((stackOut layers (fun _ => []) cs).map Input.hidden) := by
  induction layers generalizing hidden cs with
  | nil =>
    cases ok
    exact row.hidden
  | cons layer layers ih =>
    obtain ⟨_,_,ok⟩ := exceptBind.mp ok
    have keyed : (Grid.zipWith layer.project hidden positionIds).rows[i]? = some ([] ++ cs.map (key layer)) := rowKeyed layer row
    have next := attentionRow sees row rfl keyed
    exact ih ok (by rwa [passHolds]) next

end Rows

section Shapes
variable {hidden out : Grid η} {positionIds : Grid Int} {cache cache' : KVCache κ} {batch len : Nat}

structure LayersHold (cache : KVCache κ) (first layers batch len : Nat) : Prop where
  rows : ∀ m, m < layers → ∀ entry, get cache (first+m) = some entry → entry.current.rows.length = batch
  lens : ∀ m, m < layers → entryLen cache (first+m) = len

theorem flashFits {seqLen kvLen : Nat} : makeFlashParams batch seqLen kvLen = .ok () ↔
    seqLen ≤ 1 ∨ batch*seqLen < 2^32 ∧ batch*kvLen < 2^32 := by
  have fits (len : Nat) : (∃ out, cumulativeSeqlensFromLengths (List.replicate batch len) = .ok out) ↔
      batch*len < 2^32 := by
    have sums : (∃ out, cumulativeFrom 0 (List.replicate batch len) = .ok out) ↔ 0+(List.replicate batch len).sum < 2^32 :=
      cumulativeFits (Nat.zero_lt_succ (2^32-1))
    rw [List.sum_replicate_nat,Nat.zero_add] at sums
    rw [← sums]
    simp [cumulativeSeqlensFromLengths,exceptBind]
  unfold makeFlashParams
  split
  · next one => exact iff_of_true rfl (.inl one)
  · next several =>
    rw [or_iff_right several,← fits,← fits]
    simp [exceptBind]

structure SameShape (hidden : Grid η) (positionIds : Grid Int) : Prop where
  rows : positionIds.rows.length = hidden.rows.length
  width : positionIds.width = hidden.width

theorem keyShape (layer : Layer η Int κ) (same : SameShape hidden positionIds) :
    (Grid.zipWith layer.project hidden positionIds).rows.length = hidden.rows.length ∧
      (Grid.zipWith layer.project hidden positionIds).width = hidden.width := by
  simp [Grid.zipWith,same.rows,same.width]

theorem attentionShape (layer : Layer η Int κ) (allowed : Option (List (List (List Bool)))) (keys : Grid κ)
    (same : SameShape hidden positionIds) :
    (attention layer allowed keys positionIds hidden).rows.length = hidden.rows.length ∧
      (attention layer allowed keys positionIds hidden).width = hidden.width := by
  simp [attention,Grid.mapIdx,Grid.zipWith,same.rows,same.width]

theorem attentionSame (layer : Layer η Int κ) (allowed : Option (List (List (List Bool)))) (keys : Grid κ)
    (same : SameShape hidden positionIds) :
    SameShape (attention layer allowed keys positionIds hidden) positionIds where
  rows := by rw [(attentionShape layer allowed keys same).1,same.rows]
  width := by rw [(attentionShape layer allowed keys same).2,same.width]

theorem updatedHolds {layerIdx : Nat} {key keys : Grid κ} (updated : Updated cache layerIdx key keys cache')
    (length : entryLen cache layerIdx = len) :
    ∃ entry, get cache' layerIdx = some entry ∧ entry.current.rows.length = key.rows.length ∧
      entry.seqLen = len+key.width := by
  obtain ⟨entry,here,rfl⟩ := updated.here
  cases before : get cache layerIdx with
  | none =>
    rw [entryLen,before] at length
    subst length
    have current : entry.current = key := updated.first before
    exact ⟨entry,here,by rw [current],by simp [KVCacheEntry.seqLen,current]⟩
  | some old =>
    obtain ⟨batch,appended⟩ := updated.appended old before
    rw [entryLen,before] at length
    subst length
    refine ⟨entry,here,?_,?_⟩
    · rw [appended,Grid.append,List.length_zipWith,← batch,Nat.min_self]
    · rw [KVCacheEntry.seqLen,appended]
      rfl

theorem holdsTail {first layers : Nat} (before : LayersHold cache first (layers+1) batch len)
    (others : ∀ m, m ≠ first → get cache' m = get cache m) : LayersHold cache' (first+1) layers batch len where
  rows m bound entry found := by
    rw [others _ (by omega)] at found
    exact before.rows (m+1) (Nat.succ_lt_succ bound) entry (by rwa [Nat.add_comm m 1,← Nat.add_assoc])
  lens m bound := by
    rw [entryLen,others _ (by omega),← before.lens (m+1) (Nat.succ_lt_succ bound),entryLen,Nat.add_comm m 1,
      ← Nat.add_assoc]

structure LayersRan (first layers : Nat) (hidden out : Grid η) (len : Nat) (cache cache' : KVCache κ) : Prop where
  rows : out.rows.length = hidden.rows.length
  width : out.width = hidden.width
  reserved : cache'.maxSeqLen = cache.maxSeqLen
  others : ∀ m, m < first → get cache' m = get cache m
  counted : first ≠ 0 → cache'.seqLen = cache.seqLen
  holds : LayersHold cache' first layers hidden.rows.length (len+hidden.width)
  filled : ∀ m, m < layers → ∃ entry, get cache' (first+m) = some entry

theorem cachedLayersRan {allowed : Option (List (List (List Bool)))} {layers : List (Layer η Int κ)} {first : Nat}
    (ok : forwardCachedLayers allowed positionIds layers first hidden cache = .ok (out,cache'))
    (same : SameShape hidden positionIds) (before : LayersHold cache first layers.length hidden.rows.length len) :
    LayersRan first layers.length hidden out len cache cache' := by
  induction layers generalizing first hidden cache with
  | nil =>
    cases ok
    exact ⟨rfl,rfl,rfl,fun _ _ => rfl,fun _ => rfl,
      ⟨fun m bound => absurd bound (Nat.not_lt_zero m),fun m bound => absurd bound (Nat.not_lt_zero m)⟩,
      fun m bound => absurd bound (Nat.not_lt_zero m)⟩
  | cons layer layers ih =>
    obtain ⟨⟨keys,cache₁⟩,updates,ok⟩ := exceptBind.mp ok
    obtain ⟨_,_,ok⟩ := exceptBind.mp ok
    have updated := updateOk updates
    obtain ⟨keyRows,keyWidth⟩ := keyShape layer same
    obtain ⟨rows,width⟩ := attentionShape layer allowed keys same
    obtain ⟨entry,here,entryRows,entryWidth⟩ := updatedHolds updated (before.lens 0 (Nat.zero_lt_succ _))
    have rest := ih ok (attentionSame layer allowed keys same) (by rw [rows]; exact holdsTail before updated.others)
    have kept : get cache' first = some entry := by rw [rest.others first (Nat.lt_succ_self _),here]
    have holds := rest.holds
    rw [rows,width] at holds
    exact {
      rows := by rw [rest.rows,rows]
      width := by rw [rest.width,width]
      reserved := by rw [rest.reserved,updated.reserved]
      others := fun m earlier => by rw [rest.others m (by omega),updated.others m (by omega)]
      counted := fun later => by rw [rest.counted (Nat.succ_ne_zero _),updated.counted,if_neg later]
      holds := {
        rows := fun m bound entry' found => by
          cases m with
          | zero =>
            cases kept.symm.trans found
            rw [entryRows,keyRows]
          | succ m =>
            exact holds.rows m (Nat.lt_of_succ_lt_succ bound) entry' (by rwa [Nat.add_assoc,Nat.add_comm 1 m])
        lens := fun m bound => by
          cases m with
          | zero =>
            rw [entryLen,Nat.add_zero,kept,← keyWidth]
            exact entryWidth
          | succ m =>
            have later := holds.lens m (Nat.lt_of_succ_lt_succ bound)
            rwa [Nat.add_assoc,Nat.add_comm 1 m] at later}
      filled := fun m bound => by
        cases m with
        | zero => exact ⟨entry,kept⟩
        | succ m =>
          have later := rest.filled m (Nat.lt_of_succ_lt_succ bound)
          rwa [Nat.add_assoc,Nat.add_comm 1 m] at later}

theorem cachedLayersGo (allowed : Option (List (List (List Bool)))) {layers : List (Layer η Int κ)} {first : Nat}
    (same : SameShape hidden positionIds) (before : LayersHold cache first layers.length hidden.rows.length len)
    (counted : cache.seqLen = if first = 0 then len else len+hidden.width)
    (started : first = 0 → (get cache 0).isSome ∨ len = 0)
    (room : ∀ maxLen, cache.maxSeqLen = some maxLen → len+hidden.width ≤ maxLen)
    (flash : makeFlashParams hidden.rows.length hidden.width (len+hidden.width+hidden.width) = .ok ()) :
    ∃ out cache', forwardCachedLayers allowed positionIds layers first hidden cache = .ok (out,cache') := by
  induction layers generalizing first hidden cache with
  | nil => exact ⟨_,_,rfl⟩
  | cons layer layers ih =>
    obtain ⟨keyRows,keyWidth⟩ := keyShape layer same
    have length : entryLen cache first = len := before.lens 0 (Nat.zero_lt_succ _)
    have goes : ∃ keys cache', update cache first (Grid.zipWith layer.project hidden positionIds) = .ok (keys,cache') :=
      updateGoes (fun entry found => by rw [keyRows]; exact before.rows 0 (Nat.zero_lt_succ _) entry found)
        (fun maxLen reserved => by rw [length,keyWidth]; exact room maxLen reserved)
    obtain ⟨keys,cache₁,updates⟩ := goes
    have updated := updateOk updates
    have seqLen : cache₁.seqLen = len+hidden.width := by
      rw [updated.counted,keyWidth]
      split
      · next zero =>
        subst zero
        rcases started rfl with some | none
        · rw [if_pos some,counted,if_pos rfl]
        · split
          · rw [counted,if_pos rfl]
          · rw [none,Nat.zero_add]
      · next later => rw [counted,if_neg later]
    obtain ⟨rows,width⟩ := attentionShape layer allowed keys same
    have rest : ∃ out cache', forwardCachedLayers allowed positionIds layers (first+1)
        (attention layer allowed keys positionIds hidden) cache₁ = .ok (out,cache') :=
      ih (attentionSame layer allowed keys same) (by rw [rows]; exact holdsTail before updated.others)
        (by rw [if_neg (Nat.succ_ne_zero _),width,seqLen]) (fun zero => absurd zero (Nat.succ_ne_zero _))
        (by rw [updated.reserved,width]; exact room) (by rw [rows,width]; exact flash)
    obtain ⟨out,cache',ran⟩ := rest
    have flashed : makeFlashParams hidden.rows.length hidden.width (cache₁.seqLen+hidden.width) = .ok () := by
      rw [seqLen]
      exact flash
    exact ⟨out,cache',exceptBind.mpr ⟨_,updates,exceptBind.mpr ⟨(),flashed,ran⟩⟩⟩

end Shapes

section Thinker
variable {thinker : CausalThinker φ η κ} {hidden embeds out : Grid η} {positionIds : Grid Int}
  {attentionMask logits : Grid Nat} {cache cache' : KVCache κ} {batch len i : Nat}

structure CacheHolds (thinker : CausalThinker φ η κ) (cache : KVCache κ) (batch len : Nat) : Prop where
  counted : cache.seqLen = len
  holds : LayersHold cache 0 thinker.layers.length batch len

theorem holdsFirst (holds : LayersHold cache 0 thinker.layers.length batch len) : (get cache 0).isSome ∨ len = 0 := by
  have first := holds.lens 0 (List.length_pos_iff.mpr thinker.deep)
  rw [Nat.zero_add,entryLen] at first
  cases found : get cache 0 with
  | none =>
    rw [found] at first
    exact .inr first.symm
  | some entry => exact .inl rfl

theorem firstCounted {key keys : Grid κ} (before : CacheHolds thinker cache batch len)
    (updated : Updated cache 0 key keys cache') : cache'.seqLen = len+key.width := by
  rw [updated.counted,if_pos rfl]
  rcases holdsFirst before.holds with some | rfl
  · rw [if_pos some,before.counted]
  · split
    · rw [before.counted]
    · rw [Nat.zero_add]

theorem passCounted {allowed : Option (List (List (List Bool)))}
    (ok : forwardCachedLayers allowed positionIds thinker.layers 0 hidden cache = .ok (out,cache'))
    (same : SameShape hidden positionIds) (before : CacheHolds thinker cache hidden.rows.length len) :
    cache'.seqLen = len+hidden.width := by
  have holds := before.holds
  obtain ⟨layer,layers,deep⟩ := List.exists_cons_of_ne_nil thinker.deep
  rw [deep] at ok holds
  obtain ⟨⟨keys,cache₁⟩,updates,ok⟩ := exceptBind.mp ok
  obtain ⟨_,_,ok⟩ := exceptBind.mp ok
  have updated := updateOk updates
  obtain ⟨rows,_⟩ := attentionShape layer allowed keys same
  have rest := cachedLayersRan ok (attentionSame layer allowed keys same)
    (by rw [rows]; exact holdsTail holds updated.others)
  rw [rest.counted Nat.one_ne_zero,firstCounted before updated,(keyShape layer same).2]

theorem passFlash {allowed : Option (List (List (List Bool)))}
    (ok : forwardCachedLayers allowed positionIds thinker.layers 0 hidden cache = .ok (out,cache'))
    (same : SameShape hidden positionIds) (before : CacheHolds thinker cache hidden.rows.length len) :
    makeFlashParams hidden.rows.length hidden.width (len+hidden.width+hidden.width) = .ok () := by
  obtain ⟨layer,layers,deep⟩ := List.exists_cons_of_ne_nil thinker.deep
  rw [deep] at ok
  obtain ⟨⟨keys,cache₁⟩,updates,ok⟩ := exceptBind.mp ok
  obtain ⟨_,flash,_⟩ := exceptBind.mp ok
  have seqLen := firstCounted before (updateOk updates)
  rw [(keyShape layer same).2] at seqLen
  rwa [seqLen] at flash

structure Ran (thinker : CausalThinker φ η κ) (embeds : Grid η) (len : Nat) (cache : KVCache κ) (logits : Grid Nat)
    (cache' : KVCache κ) : Prop where
  rows : logits.rows.length = embeds.rows.length
  width : logits.width = embeds.width
  reserved : cache'.maxSeqLen = cache.maxSeqLen
  holds : CacheHolds thinker cache' embeds.rows.length (len+embeds.width)
  filled : ∀ m, m < thinker.layers.length → ∃ entry, get cache' m = some entry

theorem passRan {allowed : Option (List (List (List Bool)))}
    (ok : forwardCachedLayers allowed positionIds thinker.layers 0 hidden cache = .ok (out,cache'))
    (same : SameShape hidden positionIds) (before : CacheHolds thinker cache hidden.rows.length len) :
    Ran thinker hidden len cache (out.map thinker.pick) cache' := by
  have ran := cachedLayersRan ok same before.holds
  exact {
    rows := by rw [← ran.rows]; exact List.length_map _
    width := ran.width
    reserved := ran.reserved
    holds := ⟨passCounted ok same before,ran.holds⟩
    filled := fun m bound => by simpa using ran.filled m bound}

theorem forwardEmbedsOk
    (ok : forwardEmbedsWithKvCache thinker attentionMask positionIds embeds cache = .ok (logits,cache')) :
    attentionMask.rows.length = embeds.rows.length ∧ attentionMask.width = cache.seqLen+embeds.width ∧
    ∃ allowed hidden, makeCausalMaskCached (some (tokenMask attentionMask)) embeds.rows.length cache.seqLen
        embeds.width = .ok allowed ∧
      forwardCachedLayers (some allowed) positionIds thinker.layers 0 embeds cache = .ok (hidden,cache') ∧
      logits = hidden.map thinker.pick := by
  unfold forwardEmbedsWithKvCache at ok
  dsimp only at ok
  split at ok
  · cases ok
  · next rows =>
    split at ok
    · cases ok
    · next width =>
      obtain ⟨allowed,made,ok⟩ := exceptBind.mp ok
      obtain ⟨⟨hidden,last⟩,ran,ok⟩ := exceptBind.mp ok
      cases ok
      exact ⟨Decidable.not_not.mp rows,Decidable.not_not.mp width,allowed,hidden,made,ran,rfl⟩

theorem decodeOneOk
    (ok : forwardDecodeOneWithoutPadding thinker positionIds embeds cache = .ok (logits,cache')) :
    embeds.width = 1 ∧ ∃ hidden, forwardCachedLayers none positionIds thinker.layers 0 embeds cache =
      .ok (hidden,cache') ∧ logits = hidden.map thinker.pick := by
  unfold forwardDecodeOneWithoutPadding at ok
  split at ok
  · cases ok
  · next one =>
    obtain ⟨⟨hidden,last⟩,ran,ok⟩ := exceptBind.mp ok
    cases ok
    exact ⟨Decidable.not_not.mp one,hidden,ran,rfl⟩

theorem forwardEmbedsRan
    (ok : forwardEmbedsWithKvCache thinker attentionMask positionIds embeds cache = .ok (logits,cache'))
    (same : SameShape embeds positionIds) (before : CacheHolds thinker cache embeds.rows.length len) :
    Ran thinker embeds len cache logits cache' := by
  obtain ⟨_,_,allowed,hidden,_,ran,rfl⟩ := forwardEmbedsOk ok
  exact passRan ran same before

theorem decodeOneRan (ok : forwardDecodeOneWithoutPadding thinker positionIds embeds cache = .ok (logits,cache'))
    (same : SameShape embeds positionIds) (before : CacheHolds thinker cache embeds.rows.length len) :
    Ran thinker embeds len cache logits cache' := by
  obtain ⟨_,hidden,ran,rfl⟩ := decodeOneOk ok
  exact passRan ran same before

structure PassFits (cache : KVCache κ) (batch len new : Nat) : Prop where
  room : ∀ maxLen, cache.maxSeqLen = some maxLen → len+new ≤ maxLen
  flash : makeFlashParams batch new (len+new+new) = .ok ()

theorem forwardEmbedsGo (same : SameShape embeds positionIds) (before : CacheHolds thinker cache embeds.rows.length len)
    (fits : PassFits cache embeds.rows.length len embeds.width) (wide : embeds.width ≠ 0)
    (small : len+embeds.width < 2^32) (rows : attentionMask.rows.length = embeds.rows.length)
    (width : attentionMask.width = len+embeds.width) :
    ∃ logits cache', forwardEmbedsWithKvCache thinker attentionMask positionIds embeds cache = .ok (logits,cache') := by
  have made : ∃ allowed, makeCausalMaskCached (some (tokenMask attentionMask)) embeds.rows.length len embeds.width =
      .ok allowed := (cachedFits wide).mpr ⟨rows,width,small⟩
  obtain ⟨allowed,made⟩ := made
  obtain ⟨out,cache',ran⟩ := cachedLayersGo (some allowed) same before.holds before.counted
    (fun _ => holdsFirst before.holds) fits.room fits.flash
  unfold forwardEmbedsWithKvCache
  dsimp only
  rw [if_neg (not_not.mpr rows),before.counted,if_neg (not_not.mpr width)]
  exact ⟨_,_,exceptBind.mpr ⟨allowed,made,exceptBind.mpr ⟨_,ran,rfl⟩⟩⟩

theorem decodeOneGo (same : SameShape embeds positionIds) (before : CacheHolds thinker cache embeds.rows.length len)
    (fits : PassFits cache embeds.rows.length len embeds.width) (one : embeds.width = 1) :
    ∃ logits cache', forwardDecodeOneWithoutPadding thinker positionIds embeds cache = .ok (logits,cache') := by
  obtain ⟨out,cache',ran⟩ := cachedLayersGo none same before.holds before.counted
    (fun _ => holdsFirst before.holds) fits.room fits.flash
  unfold forwardDecodeOneWithoutPadding
  rw [if_neg (not_not.mpr one)]
  exact ⟨_,_,exceptBind.mpr ⟨_,ran,rfl⟩⟩

section Rows
variable {all cs : List (Input η Int)}

/- The cache holds, for row `i`, the keys of all columns so far. -/
def RowCached (thinker : CausalThinker φ η κ) (cache : KVCache κ) (i : Nat) (all : List (Input η Int)) : Prop :=
  ∀ m, m < thinker.layers.length → rowKeys cache m i = stackKeys thinker.layers (fun _ => []) all m

def picks (thinker : CausalThinker φ η κ) (all : List (Input η Int)) : List Nat :=
  (stackOut thinker.layers (fun _ => []) all).map fun c => thinker.pick c.hidden

theorem picksLength : (picks thinker all).length = all.length := by
  rw [picks,List.length_map,stackOutLength]

theorem picksAppend : (picks thinker (all ++ cs)).take all.length = picks thinker all := by
  unfold picks
  rw [stackOutAppend,List.map_append,List.take_left' (by rw [List.length_map,stackOutLength])]

/- A pass over new columns gives them what a pass over all columns would. -/
theorem passRow {allowed : Option (List (List (List Bool)))}
    (ok : forwardCachedLayers allowed positionIds thinker.layers 0 hidden cache = .ok (out,cache'))
    (cached : RowCached thinker cache i all)
    (sees : SeesCausally κ allowed i (all.map Input.holds) (cs.map Input.holds))
    (row : RowInputs hidden positionIds i cs) :
    RowCached thinker cache' i (all ++ cs) ∧
      (out.map thinker.pick).rows[i]? = some ((picks thinker (all ++ cs)).drop all.length) := by
  have spec := cachedLayersRow ok sees row fun m bound => by
    rw [Nat.zero_add,cached m bound,stackKeysLength bound,List.length_map]
  have seen (m : Nat) (bound : m < thinker.layers.length) :
      visible (all.map Input.holds) (rowKeys cache (0+m) i) = seenAfter thinker.layers (fun _ => []) all m := by
    rw [Nat.zero_add,cached m bound,visibleKeys]
    rfl
  rw [stackOutCongr seen] at spec
  simp only [stackKeysCongr seen] at spec
  constructor
  · intro m bound
    have keys := spec.2.2 m bound
    rw [Nat.zero_add,cached m bound,← stackKeysAppend] at keys
    exact keys
  · rw [Grid.mapRow _ spec.1,picks,stackOutAppend,List.map_append,
      List.drop_left' (by rw [List.length_map,stackOutLength]),List.map_map]
    rfl

theorem forwardEmbedsRow {mask : List Nat}
    (ok : forwardEmbedsWithKvCache thinker attentionMask positionIds embeds cache = .ok (logits,cache'))
    (cached : RowCached thinker cache i all) (row : RowInputs embeds positionIds i cs)
    (masked : attentionMask.rows[i]? = some mask) (bits : holdsBits mask = (all ++ cs).map Input.holds)
    (length : all.length = cache.seqLen) : RowCached thinker cache' i (all ++ cs) ∧
      logits.rows[i]? = some ((picks thinker (all ++ cs)).drop all.length) := by
  obtain ⟨_,_,allowed,hidden,made,ran,rfl⟩ := forwardEmbedsOk ok
  have width : cs.length = embeds.width := by simpa using Grid.rowLength row.hidden
  refine passRow ran cached (fun t query keys _ => ?_) row
  rw [allowedCached made masked (by rw [← width]; simpa using query),bits,List.map_append,List.length_map,length]

theorem decodeOneRow {c : Input η Int}
    (ok : forwardDecodeOneWithoutPadding thinker positionIds embeds cache = .ok (logits,cache'))
    (cached : RowCached thinker cache i all) (row : RowInputs embeds positionIds i [c])
    (dense : ∀ d ∈ all ++ [c], d.holds = true) : RowCached thinker cache' i (all ++ [c]) ∧
      logits.rows[i]? = some ((picks thinker (all ++ [c])).drop all.length) := by
  obtain ⟨_,hidden,ran,rfl⟩ := decodeOneOk ok
  refine passRow ran cached (fun t query keys length => ?_) row
  obtain rfl : t = 0 := by simpa using query
  have bits : (all ++ [c]).map Input.holds = all.map Input.holds ++ [c].map Input.holds := List.map_append
  rw [← bits,List.take_of_length_le (by simp)]
  refine (visibleAll (fun b inside => ?_) (by simp [allowedKeys,length])).symm
  obtain ⟨d,there,rfl⟩ := List.mem_map.mp inside
  exact dense d there

end Rows

end Thinker

section Columns
variable {thinker : CausalThinker φ η κ} {columns : List (Column φ)} {mask : List Nat} {n : Nat}

def inputsOf (hidden : List η) (positions : List Int) (bits : List Bool) : List (Input η Int) :=
  List.zipWith (fun (h,p) b => ⟨h,p,b⟩) (hidden.zip positions) bits

def promptInputs (thinker : CausalThinker φ η κ) (columns : List (Column φ)) (mask : List Nat) : List (Input η Int) :=
  inputsOf (columns.map thinker.embed) (ropeRow mask) (holdsBits mask)

def denseInputs (thinker : CausalThinker φ η κ) (columns : List (Column φ)) : List (Input η Int) :=
  columns.mapIdx fun j c => ⟨thinker.embed c,(j:Int),true⟩

theorem inputsParts {hidden : List η} {positions : List Int} {bits : List Bool} (same : positions.length = hidden.length)
    (same' : bits.length = hidden.length) : (inputsOf hidden positions bits).map Input.hidden = hidden ∧
      (inputsOf hidden positions bits).map Input.position = positions ∧
      (inputsOf hidden positions bits).map Input.holds = bits := by
  unfold inputsOf
  refine ⟨List.ext_getElem (by simp [same,same']) fun j _ _ => ?_,List.ext_getElem (by simp [same,same']) fun j _ _ => ?_,
    List.ext_getElem (by simp [same,same']) fun j _ _ => ?_⟩
  all_goals simp

theorem ropeLength (mask : List Nat) : (ropeRow mask).length = mask.length := by
  simp [ropeRow]

theorem bitsLength (mask : List Nat) : (holdsBits mask).length = mask.length := List.length_map _

theorem promptParts (thinker : CausalThinker φ η κ) (same : columns.length = mask.length) :
    (promptInputs thinker columns mask).map Input.hidden = columns.map thinker.embed ∧
      (promptInputs thinker columns mask).map Input.position = ropeRow mask ∧
      (promptInputs thinker columns mask).map Input.holds = holdsBits mask :=
  inputsParts (by rw [ropeLength,List.length_map,same]) (by rw [bitsLength,List.length_map,same])

theorem promptLength (same : columns.length = mask.length) : (promptInputs thinker columns mask).length = columns.length := by
  have hiddens : (promptInputs thinker columns mask).map Input.hidden = columns.map thinker.embed := (promptParts thinker same).1
  simpa using congrArg List.length hiddens

theorem ropeTake (within : n ≤ mask.length) (valid : ∀ m ∈ mask.take n, m ≠ 0) :
    (ropeRow mask).take n = (List.range n).map fun j : Nat => (j:Int) := by
  refine List.ext_getElem (by simp [ropeLength,within]) fun j bound _ => ?_
  have before : j < n := by
    rw [List.length_take] at bound
    omega
  have all : ∀ m ∈ mask.take (j+1), m ≠ 0 := fun m inside =>
    valid m (List.take_subset_take_left mask before inside)
  have counted : validLen (mask.take (j+1)) = j+1 := by
    rw [validLen,List.countP_eq_length.mpr (by simpa using all),List.length_take]
    omega
  have here : mask[j] ≠ 0 := all _ (List.mem_take_iff_getElem.mpr ⟨j,by omega,rfl⟩)
  simp [ropeRow,counted,here]

theorem promptTake (same : columns.length = mask.length) (within : n ≤ mask.length)
    (valid : ∀ m ∈ mask.take n, m ≠ 0) :
    (promptInputs thinker columns mask).take n = denseInputs thinker (columns.take n) := by
  have bits : (holdsBits mask).take n = List.replicate n true := by
    rw [holdsBits,← List.map_take]
    refine List.eq_replicate_iff.mpr ⟨by simp [within],fun b inside => ?_⟩
    obtain ⟨m,there,rfl⟩ := List.mem_map.mp inside
    exact decide_eq_true (valid m there)
  have zipped : (promptInputs thinker columns mask).take n = inputsOf ((columns.take n).map thinker.embed)
      ((ropeRow mask).take n) ((holdsBits mask).take n) := by
    unfold promptInputs inputsOf
    rw [List.take_zipWith,List.zip,List.take_zipWith,List.map_take]
  rw [zipped,ropeTake within valid,bits]
  refine List.ext_getElem (by simp [inputsOf,denseInputs,same]) fun j _ _ => ?_
  simp [inputsOf,denseInputs]

end Columns

section Tensors
variable {thinker : CausalThinker φ η κ} {inputIds attentionMask : Grid Nat} {audioFeatures : Option (List φ)}

theorem tensorOk {α : Type} {width : Nat} {rows : List (List α)} {g : Grid α} : tensor width rows = .ok g ↔
    g.rows = rows ∧ g.width = width ∧ ∀ row ∈ rows, row.length = width := by
  rw [tensor,okOrOk,Grid.ofRowsSome]

theorem tensorGoes {α : Type} {width : Nat} {rows : List (List α)} (even : ∀ row ∈ rows, row.length = width) :
    ∃ g, tensor width rows = .ok g :=
  ⟨⟨rows,width,even⟩,tensorOk.mpr ⟨rfl,rfl,even⟩⟩

theorem ropePositionsOk {positionIds : Grid Int} (ok : ropePositions attentionMask = .ok positionIds) :
    positionIds.rows = attentionMask.rows.map ropeRow ∧ positionIds.width = attentionMask.width := by
  obtain ⟨⟨rows,deltas⟩,rope,ok⟩ := exceptBind.mp ok
  obtain ⟨same,width,_⟩ := tensorOk.mp ok
  unfold getRopeIndex at rope
  dsimp only at rope
  split at rope <;> cases rope
  exact ⟨same,width⟩

theorem ropePositionsGo (some : attentionMask.rows ≠ []) (wide : attentionMask.width ≠ 0) :
    ∃ positionIds, ropePositions attentionMask = .ok positionIds := by
  have first : (attentionMask.rows.map List.length).headD 0 = attentionMask.width := by
    obtain ⟨row,rows,same⟩ := List.exists_cons_of_ne_nil some
    rw [same]
    exact attentionMask.rectangular row (by rw [same]; exact List.mem_cons_self)
  have made : ∃ g, tensor attentionMask.width (attentionMask.rows.map ropeRow) = .ok g :=
    tensorGoes (by simpa [ropeLength] using attentionMask.rectangular)
  obtain ⟨positionIds,made⟩ := made
  refine ⟨positionIds,exceptBind.mpr ⟨(attentionMask.rows.map ropeRow,attentionMask.rows.map ropeDelta),?_,made⟩⟩
  rw [getRopeIndex,first,if_neg wide]

def columnsOf (audioTokenId : Nat) (audioFeatures : Option (List φ)) (rows : List (List Nat)) : List (List (Column φ)) :=
  match audioFeatures with
  | none => embedTokens rows
  | some audio => mergeRows audioTokenId audio 0 rows

theorem columnsLengths (audioTokenId : Nat) (audioFeatures : Option (List φ)) (rows : List (List Nat)) :
    (columnsOf audioTokenId audioFeatures rows).map List.length = rows.map List.length := by
  cases audioFeatures with
  | none => simp [columnsOf,embedTokens]
  | some audio => exact PromptColumns.mergeRowsLengths audioTokenId audio 0 rows

theorem columnsEven (audioTokenId : Nat) (audioFeatures : Option (List φ)) :
    ∀ row ∈ columnsOf audioTokenId audioFeatures inputIds.rows, row.length = inputIds.width := by
  intro row inside
  have length : row.length ∈ (columnsOf audioTokenId audioFeatures inputIds.rows).map List.length :=
    List.mem_map_of_mem inside
  rw [columnsLengths] at length
  obtain ⟨ids,there,same⟩ := List.mem_map.mp length
  rw [← same,inputIds.rectangular ids there]

def Counted (audioTokenId : Nat) (audioFeatures : Option (List φ)) (rows : List (List Nat)) : Prop :=
  ∀ audio, audioFeatures = some audio → countAudioPlaceholdersBatch rows audioTokenId = audio.length

theorem countWithin (audioTokenId : Nat) (rows : List (List Nat)) :
    countAudioPlaceholdersBatch rows audioTokenId ≤ (rows.map List.length).sum := by
  unfold countAudioPlaceholdersBatch
  induction rows with
  | nil => exact Nat.le_refl _
  | cons row rows ih =>
    have own : row.count audioTokenId ≤ row.length := List.count_le_length
    simp only [List.map_cons,List.sum_cons]
    omega

theorem inputsEmbedsOk {embeds : Grid η} {count : Nat}
    (own : audioFeatures.isSome → count = countAudioPlaceholdersBatch inputIds.rows thinker.audioTokenId) :
    inputsEmbeds thinker inputIds audioFeatures count = .ok embeds ↔
      Counted thinker.audioTokenId audioFeatures inputIds.rows ∧
      embeds.rows = (columnsOf thinker.audioTokenId audioFeatures inputIds.rows).map (List.map thinker.embed) ∧
      embeds.width = inputIds.width := by
  have even : ∀ row ∈ columnsOf thinker.audioTokenId audioFeatures inputIds.rows, row.length = inputIds.width :=
    columnsEven thinker.audioTokenId audioFeatures
  cases audioFeatures with
  | none =>
    have tokens : (inputIds.map fun id => thinker.embed ⟨id,none⟩).rows =
        (columnsOf thinker.audioTokenId none inputIds.rows).map (List.map thinker.embed) := by
      simp [Grid.map,columnsOf,embedTokens,Function.comp_def]
    constructor
    · intro ok
      cases ok
      exact ⟨fun _ absent => (by cases absent),tokens,rfl⟩
    · rintro ⟨_,rows,width⟩
      exact congrArg Except.ok (Grid.ext (tokens.trans rows.symm) width.symm)
  | some audio =>
    rw [own rfl]
    unfold inputsEmbeds
    constructor
    · intro ok
      obtain ⟨columns,merged,ok⟩ := exceptBind.mp ok
      obtain ⟨rfl,counted⟩ := PromptColumns.mergeFeaturesOk merged
      split at ok
      · cases ok
      · obtain ⟨grid,made,ok⟩ := exceptBind.mp ok
        obtain ⟨rows,width,_⟩ := tensorOk.mp made
        cases ok
        exact ⟨fun other same => Option.some.inj same ▸ counted,congrArg (List.map (List.map thinker.embed)) rows,width⟩
    · rintro ⟨counted,rows,width⟩
      have features := counted audio rfl
      have merged : mergeAudioFeatures inputIds.rows thinker.audioTokenId audio
          (countAudioPlaceholdersBatch inputIds.rows thinker.audioTokenId) =
          .ok (mergeRows thinker.audioTokenId audio 0 inputIds.rows) := by
        unfold mergeAudioFeatures
        rw [if_neg (Nat.not_lt.mpr (countWithin _ _)),if_neg (not_not.mpr features)]
        split
        · next none => exact congrArg Except.ok (PromptColumns.embedMerge none)
        · rfl
      refine exceptBind.mpr ⟨_,merged,?_⟩
      rw [if_neg (by omega)]
      have made : tensor inputIds.width (mergeRows thinker.audioTokenId audio 0 inputIds.rows) = .ok ⟨_,_,even⟩ :=
        tensorOk.mpr ⟨rfl,rfl,even⟩
      exact exceptBind.mpr ⟨_,made,congrArg Except.ok (Grid.ext rows.symm width.symm)⟩

theorem inputsEmbedsGo (thinker : CausalThinker φ η κ) {count : Nat}
    (own : audioFeatures.isSome → count = countAudioPlaceholdersBatch inputIds.rows thinker.audioTokenId)
    (counted : Counted thinker.audioTokenId audioFeatures inputIds.rows) :
    ∃ embeds, inputsEmbeds thinker inputIds audioFeatures count = .ok embeds := by
  have even : ∀ row ∈ columnsOf thinker.audioTokenId audioFeatures inputIds.rows, row.length = inputIds.width :=
    columnsEven thinker.audioTokenId audioFeatures
  have made : ∃ g, tensor inputIds.width ((columnsOf thinker.audioTokenId audioFeatures inputIds.rows).map
      (List.map thinker.embed)) = .ok g := tensorGoes (by simpa using even)
  obtain ⟨embeds,made⟩ := made
  obtain ⟨rows,width,_⟩ := tensorOk.mp made
  exact ⟨embeds,(inputsEmbedsOk own).mpr ⟨counted,rows,width⟩⟩

end Tensors

end Qwen3Asr.EagerRows
