import Qwen3Asr.CachedBatch
import Qwen3Asr.Library.Packing

/-! The eager batch with audio features, after whatever calls came before it. Prefilled whole or from the columns that
its rows share, padded, and decoded over one cache, every row is answered what a run from scratch answers it alone. -/
namespace Qwen3Asr.EagerBatch
open Library Library.Effect Library.Word Library.CausalStack Library.Greedy Library.Packing
open PagedMetadata PromptPositions BatchEngine PromptColumns KvCache EagerThinker EagerRows BatchPrefill PrefixReuse
open EagerGeneration EagerDecode EagerAgreement ScratchDecode CachedBatch

variable {φ η κ : Type}

section Template
variable {prefixLen : Nat} {cache : KVCache κ}

theorem row0FoldGoes {entries : List (Option (KVCacheEntry κ))} {first : Nat} {out : KVCache κ}
    (fresh : ∀ m, first ≤ m → get out m = none) (unreserved : out.maxSeqLen = none)
    (each : ∀ entry, some entry ∈ entries → entry.current.rows ≠ [] ∧ prefixLen ≤ entry.seqLen) :
    ∃ template, (entries.zipIdx first).foldlM (row0Prefix prefixLen) out = .ok template := by
  induction entries generalizing first out with
  | nil => exact ⟨out,rfl⟩
  | cons head entries ih =>
    have rest : ∀ entry, some entry ∈ entries → entry.current.rows ≠ [] ∧ prefixLen ≤ entry.seqLen :=
      fun entry inside => each entry (List.mem_cons_of_mem _ inside)
    cases head with
    | none =>
      obtain ⟨template,ran⟩ := @ih (first+1) out (fun m later => fresh m (by omega)) unreserved rest
      exact ⟨template,exceptBind.mpr ⟨out,rfl,ran⟩⟩
    | some head =>
      obtain ⟨rows,within⟩ := each head List.mem_cons_self
      have updates : ∃ keys out', update out first (head.current.firstRow.columns 0 prefixLen) = .ok (keys,out') :=
        updateGoes (fun entry found => by cases (fresh first (Nat.le_refl _)).symm.trans found)
          fun maxLen reserved => by cases unreserved.symm.trans reserved
      obtain ⟨keys,out',updates⟩ := updates
      have updated := updateOk updates
      have cut : row0Prefix prefixLen out (some head,first) = .ok out' := by
        unfold row0Prefix
        dsimp only
        rw [if_neg (not_or.mpr ⟨rows,Nat.not_lt.mpr within⟩)]
        exact exceptBind.mpr ⟨_,updates,rfl⟩
      obtain ⟨template,ran⟩ := @ih (first+1) out' (fun m later => by rw [updated.others m (by omega)]; exact fresh m (by omega))
        (updated.reserved.trans unreserved) rest
      exact ⟨template,exceptBind.mpr ⟨out',cut,ran⟩⟩

theorem templateGoes (some_ : prefixLen ≠ 0) (within : prefixLen ≤ cache.seqLen)
    (each : ∀ m entry, get cache m = some entry → entry.current.rows ≠ [] ∧ prefixLen ≤ entry.seqLen) :
    ∃ template, row0PrefixTemplate cache prefixLen = .ok template := by
  unfold row0PrefixTemplate
  rw [if_neg (not_or.mpr ⟨some_,Nat.not_lt.mpr within⟩)]
  refine row0FoldGoes (fun m _ => freshNone _ m) rfl fun entry inside => ?_
  obtain ⟨m,found⟩ := List.mem_iff_getElem?.mp inside
  exact each m entry (Option.join_eq_some_iff.mpr found)

end Template

section Prefill
variable {thinker : CausalThinker φ η κ} {inputIds attentionMask : Grid Nat} {audioFeatures : Option (List φ)} {maxNewTokens : Nat}

theorem wholeGoes (thinker : CausalThinker φ η κ) (padded : PaddedBatch inputIds attentionMask)
    (sized : Sized inputIds.rows.length inputIds.width maxNewTokens)
    (counted : Counted thinker.audioTokenId audioFeatures inputIds.rows) :
    ∃ logits cache, fullPrefill thinker inputIds attentionMask audioFeatures
        (withMaxSeqLen thinker.layers.length (inputIds.width+maxNewTokens)) = .ok (logits,cache) ∧
      cache.maxSeqLen = some (inputIds.width+maxNewTokens) ∧ ∀ m, thinker.layers.length ≤ m → get cache m = none := by
  have positions := sized.positions
  obtain ⟨first,wide⟩ := batchWide padded
  obtain ⟨embeds,embedded⟩ := inputsEmbedsGo thinker (placeholdersOwn inputIds.rows) counted
  obtain ⟨_,embedRows,embedWidth⟩ := (inputsEmbedsOk (placeholdersOwn inputIds.rows)).mp embedded
  have size : embeds.rows.length = inputIds.rows.length := by rw [embedRows,List.length_map,columnsCount]
  have masked : attentionMask.rows ≠ [] := List.ne_nil_of_length_pos (by rw [padded.counted]; exact first)
  obtain ⟨positionIds,rope⟩ := ropePositionsGo masked (by rw [padded.width]; omega)
  obtain ⟨ropeRows,ropeWidth⟩ := ropePositionsOk rope
  have same : SameShape embeds positionIds :=
    ⟨by rw [ropeRows,List.length_map,padded.counted,size],by rw [ropeWidth,padded.width,embedWidth]⟩
  have fresh := freshHolds thinker thinker.layers.length (inputIds.width+maxNewTokens) embeds.rows.length
  have fits : PassFits (withMaxSeqLen thinker.layers.length (inputIds.width+maxNewTokens) : KVCache κ) embeds.rows.length 0
      embeds.width := {
    room := fun maxLen reserved => by
      cases reserved
      omega
    flash := flashFits.mpr (.inr (by
      have columns := sized.columns
      have half : inputIds.rows.length*inputIds.width ≤ inputIds.rows.length*(inputIds.width+inputIds.width) :=
        Nat.mul_le_mul_left _ (Nat.le_add_right _ _)
      rw [size,embedWidth,Nat.zero_add]
      exact ⟨Nat.lt_of_le_of_lt half columns,columns⟩))}
  obtain ⟨logits,cache,ran⟩ := forwardEmbedsGo same fresh fits (by omega) (by omega) (padded.counted.trans size.symm)
    (by rw [padded.width,embedWidth,Nat.zero_add])
  obtain ⟨_,_,_,_,_,layersRan,_⟩ := forwardEmbedsOk ran
  obtain ⟨reserved,behind⟩ := layersBehind layersRan
  refine ⟨logits,cache,exceptBind.mpr ⟨embeds,embedded,exceptBind.mpr ⟨positionIds,rope,ran⟩⟩,reserved,fun m past => ?_⟩
  rw [behind m (by omega),freshReserved]

theorem lensGo (padded : PaddedBatch inputIds attentionMask) (sized : Sized inputIds.rows.length inputIds.width maxNewTokens) :
    promptLensFromAttentionMasks attentionMask.rows inputIds.width =
      .ok (attentionMask.rows.map fun mask => (validLen mask : Int)) := by
  have positions := sized.positions
  exact promptLensGo (fun mask inside => (attentionMask.rectangular mask inside).trans padded.width) (by omega)

theorem lensAt (padded : PaddedBatch inputIds attentionMask) {i : Nat} (inside : i < inputIds.rows.length) :
    (attentionMask.rows.map fun mask => (validLen mask : Int))[i]? = some (validLen (rowAt attentionMask i) : Int) := by
  obtain ⟨_,masked,_⟩ := batchRows padded inside
  rw [List.getElem?_map,masked]
  rfl

theorem nextGoes (padded : PaddedBatch inputIds attentionMask) (sized : Sized inputIds.rows.length inputIds.width maxNewTokens)
    {logits : Grid Nat} (rows : logits.rows.length = inputIds.rows.length) (width : logits.width = inputIds.width) :
    ∃ next, nextIdsAt logits (attentionMask.rows.map fun mask => (validLen mask : Int)) = .ok next := by
  refine ⟨_,nextIdsOk.mpr ⟨by rw [List.length_map,padded.counted,rows],?_,rfl⟩⟩
  rintro ⟨len,i⟩ inside
  have there := List.mem_zipIdx_iff_getElem?.mp inside
  have bound : i < inputIds.rows.length := by
    rw [← padded.counted]
    simpa using (List.getElem?_eq_some_iff.mp there).1
  obtain rfl := Option.some.inj ((lensAt padded bound).symm.trans there)
  obtain ⟨_,masked,_,valid⟩ := batchRows padded bound
  have within := validLenLe (rowAt attentionMask i)
  rw [Grid.rowLength masked,padded.width] at within
  have before : (i+1)*inputIds.width ≤ inputIds.rows.length*(inputIds.width+inputIds.width) :=
    Nat.le_trans (Nat.mul_le_mul_right _ bound) (Nat.mul_le_mul_left _ (Nat.le_add_right _ _))
  have columns := sized.columns
  rw [Nat.succ_mul] at before
  rw [width]
  dsimp only
  omega

/- Without any template the batch is prefilled whole, and keeps the columns its rows share. -/
theorem freshRun {opts : GreedyGenerateBatchOpts φ} (thinker : CausalThinker φ η κ) (padded : PaddedBatch inputIds attentionMask)
    (sized : Sized inputIds.rows.length inputIds.width opts.maxNewTokens)
    (counted : Counted thinker.audioTokenId opts.audioFeatures inputIds.rows) :
    ∃ p t, FullRun thinker inputIds attentionMask opts (fun _ => none) p t ∧
      p.cache.maxSeqLen = some (inputIds.width+opts.maxNewTokens) := by
  have positions := sized.positions
  obtain ⟨logits,cache,ran,reserved,behind⟩ := wholeGoes thinker padded sized counted
  have full := fullPrefillOk ran
  obtain ⟨next,picked⟩ := nextGoes padded sized full.logitRows full.logitWidth
  have stored : ∃ t, storePrefix thinker inputIds attentionMask opts.audioFeatures cache (fun _ => none) = .ok () t := by
    unfold storePrefix
    by_cases positive : 0 < prefixLenOf thinker inputIds attentionMask opts.audioFeatures
    · rw [if_pos positive]
      have shared := sharedOf positive
      have several := shared.several
      obtain ⟨_,mask,row,_⟩ := batchRows padded (show 0 < inputIds.rows.length by omega)
      obtain ⟨ids,_,_⟩ := batchRows padded (show 0 < inputIds.rows.length by omega)
      have own := (shared.each 0 _ _ ids mask).inIds
      rw [Grid.rowLength ids] at own
      obtain ⟨template,cut⟩ := @templateGoes _ (prefixLenOf thinker inputIds attentionMask opts.audioFeatures) cache (by omega)
        (by rw [full.holds.counted]; omega) fun m entry found => by
          rcases Nat.lt_or_ge m thinker.layers.length with inside | past
          · have rows := full.holds.holds.rows m inside entry (by rwa [Nat.zero_add])
            have lens := full.holds.holds.lens m inside
            rw [Nat.zero_add,entryLen,found] at lens
            change entry.seqLen = inputIds.width at lens
            exact ⟨List.ne_nil_of_length_pos (by omega),by omega⟩
          · cases (behind m past).symm.trans found
      exact ⟨_,bindOk.mpr ⟨template,_,attemptOk.mpr ⟨cut,rfl⟩,rfl⟩⟩
    · rw [if_neg positive]
      exact ⟨_,rfl⟩
  obtain ⟨t,stored⟩ := stored
  exact ⟨⟨cache,_,next⟩,t,⟨by omega,⟨logits,ran,picked⟩,lensGo padded sized,stored⟩,reserved⟩

end Prefill

section Standing
variable {thinker : CausalThinker φ η κ} {inputIds attentionMask : Grid Nat} {opts : GreedyGenerateBatchOpts φ} {dense : Bool}
  {cache : KVCache κ} {p q : EagerPrefilled κ} {templates t u : Templates κ}

def rowOf (audioTokenId : Nat) (audioFeatures : Option (List φ)) (inputIds attentionMask : Grid Nat) (i : Nat) : List (Column φ) :=
  promptRow ((columnsOf audioTokenId audioFeatures inputIds.rows).getD i []) (rowAt attentionMask i)

theorem rowColumns (padded : PaddedBatch inputIds attentionMask) (audioTokenId : Nat) (audioFeatures : Option (List φ)) {i : Nat}
    (inside : i < inputIds.rows.length) : ∃ columns, (columnsOf audioTokenId audioFeatures inputIds.rows)[i]? = some columns ∧
      columns.length = (rowAt attentionMask i).length ∧
      rowOf audioTokenId audioFeatures inputIds attentionMask i = promptRow columns (rowAt attentionMask i) := by
  have found : (columnsOf audioTokenId audioFeatures inputIds.rows)[i]? = some _ :=
    List.getElem?_eq_getElem (by rw [columnsCount]; exact inside)
  obtain ⟨_,masked,_⟩ := batchRows padded inside
  refine ⟨_,found,?_,by rw [rowOf,List.getD_eq_getElem?_getD,found]; rfl⟩
  rw [columnsEven audioTokenId audioFeatures _ (List.mem_of_getElem? found),Grid.rowLength masked,padded.width]

theorem rowOfLength (padded : PaddedBatch inputIds attentionMask) (audioTokenId : Nat) (audioFeatures : Option (List φ)) {i : Nat}
    (inside : i < inputIds.rows.length) :
    (rowOf audioTokenId audioFeatures inputIds attentionMask i).length = validLen (rowAt attentionMask i) := by
  obtain ⟨columns,_,same,row⟩ := rowColumns padded audioTokenId audioFeatures inside
  have within := validLenLe (rowAt attentionMask i)
  rw [row,promptRow,List.length_take]
  omega

theorem standingOf (padded : PaddedBatch inputIds attentionMask)
    (unmasked : dense = true → ∀ mask ∈ attentionMask.rows, attentionMaskIsDense mask = true)
    (holds : CacheHolds thinker cache inputIds.rows.length inputIds.width) {rows : Nat → List (Column φ)}
    (stands : ∀ i, i < inputIds.rows.length → RowStands thinker cache i (holdsBits (rowAt attentionMask i)) (rows i)) :
    Standing thinker dense inputIds.rows.length inputIds.width rows ⟨cache,attentionMask⟩ where
  holds := holds
  shape _ := ⟨padded.counted,padded.width⟩
  row i inside := by
    obtain ⟨_,masked,_⟩ := batchRows padded inside
    refine ⟨_,by rw [bitsLength,Grid.rowLength masked,padded.width],stands i inside,fun same b there => ?_,
      fun _ => ⟨_,masked,rfl⟩⟩
    have valid : ∀ m ∈ rowAt attentionMask i, m ≠ 0 := by
      simpa [attentionMaskIsDense] using unmasked same _ (List.mem_of_getElem? masked)
    obtain ⟨m,found,rfl⟩ := List.mem_map.mp there
    exact decide_eq_true (valid m found)

theorem wholePrefilled (padded : PaddedBatch inputIds attentionMask)
    (unmasked : dense = true → ∀ mask ∈ attentionMask.rows, attentionMaskIsDense mask = true)
    (run : FullRun thinker inputIds attentionMask opts templates p t)
    (reserved : p.cache.maxSeqLen = some (inputIds.width+opts.maxNewTokens)) :
    PrefilledBatch thinker dense inputIds.rows.length inputIds.width opts.maxNewTokens
      (rowOf thinker.audioTokenId opts.audioFeatures inputIds attentionMask) attentionMask p := by
  obtain ⟨logits,ran,picked⟩ := run.ran
  have full := fullPrefillOk ran
  have lens := promptLensOk run.lens
  obtain ⟨counted,_,made⟩ := nextIdsOk.mp picked
  have size : p.promptLens.length = inputIds.rows.length := by rw [lens,List.length_map,padded.counted]
  have lenOf (i : Nat) (inside : i < inputIds.rows.length) :
      p.promptLens[i]? = some ((rowOf thinker.audioTokenId opts.audioFeatures inputIds attentionMask i).length : Int) := by
    rw [lens,lensAt padded inside,rowOfLength padded _ _ inside]
  exact {
    standing := standingOf padded unmasked full.holds fun i inside => by
      obtain ⟨columns,found,same,row⟩ := rowColumns padded thinker.audioTokenId opts.audioFeatures inside
      obtain ⟨_,masked,own,_⟩ := batchRows padded inside
      rw [row]
      exact cachedStands same own.padded (full.rows i columns _ found masked).1
    room := fun maxLen there => by
      cases reserved.symm.trans there
      exact Nat.le_refl _
    within := fun i inside => by
      obtain ⟨_,masked,_⟩ := batchRows padded inside
      have within := validLenLe (rowAt attentionMask i)
      rw [Grid.rowLength masked,padded.width] at within
      rwa [rowOfLength padded _ _ inside]
    lens := ⟨size,lenOf⟩
    next := by
      refine ⟨by simp [← made,size],fun i nextId there => ?_⟩
      have inside : i < inputIds.rows.length := by
        have bound := (List.getElem?_eq_some_iff.mp there).1
        simpa [← made,size] using bound
      obtain ⟨columns,found,same,row⟩ := rowColumns padded thinker.audioTokenId opts.audioFeatures inside
      obtain ⟨_,masked,own,valid⟩ := batchRows padded inside
      have logitRow := (full.rows i columns _ found masked).2
      have entry : p.nextIds[i]? = some ((picks thinker (promptInputs thinker columns (rowAt attentionMask i))).getD
          (validLen (rowAt attentionMask i)-1) 0) := by
        rw [← made,List.getElem?_map,List.getElem?_zipIdx,lenOf i inside,rowOfLength padded _ _ inside]
        simp [List.getD_eq_getElem?_getD,logitRow]
      rw [row,← promptPicked same own.padded valid]
      exact Option.some.inj (there.symm.trans entry)}

theorem copiesUnreserved {template copies : KVCache κ} {batch : Nat} (ok : replicateBatch template batch = .ok copies) :
    copies.maxSeqLen = template.maxSeqLen := by
  unfold replicateBatch at ok
  split at ok
  · cases ok
  · split at ok
    · cases ok
      rfl
    · obtain ⟨_,_,ok⟩ := exceptBind.mp ok
      cases ok
      rfl

/- A prefill resumed from a template leaves the same, in a cache that reserves nothing. -/
theorem resumedPrefilled {template : KVCache κ} (valid : Valid thinker templates)
    (run : FullRun thinker inputIds attentionMask opts u p t)
    (whole : PrefilledBatch thinker dense inputIds.rows.length inputIds.width opts.maxNewTokens
      (rowOf thinker.audioTokenId opts.audioFeatures inputIds attentionMask) attentionMask p)
    (present : cachedPrefix thinker inputIds attentionMask opts.audioFeatures templates = some template) :
    ∃ q, resumedPrefill thinker inputIds attentionMask opts.audioFeatures template p.promptLens = .ok q ∧
      PrefilledBatch thinker dense inputIds.rows.length inputIds.width opts.maxNewTokens
        (rowOf thinker.audioTokenId opts.audioFeatures inputIds attentionMask) attentionMask q := by
  obtain ⟨q,resumed,same⟩ := resumedGoes valid run present
  refine ⟨q,resumed,?_⟩
  unfold cachedPrefix at present
  split at present
  · next positive =>
    have made := valid _ _ present
    obtain ⟨_,ran,_⟩ := run.ran
    obtain ⟨logits',cache',remainder,_,_,holds,_⟩ := remainderGoes (fullPrefillOk ran) (sharedOf positive) made
    obtain ⟨⟨logits,cache⟩,ran',rest⟩ := exceptBind.mp resumed
    obtain ⟨_,_,rest⟩ := exceptBind.mp rest
    obtain ⟨_,_,rest⟩ := exceptBind.mp rest
    cases rest
    cases remainder.symm.trans ran'
    obtain ⟨copies,replicated,last⟩ := exceptBind.mp ran'
    obtain ⟨_,_,last⟩ := exceptBind.mp last
    obtain ⟨_,_,last⟩ := exceptBind.mp last
    obtain ⟨_,_,_,_,_,layersRan,_⟩ := forwardEmbedsOk last
    have unreserved := ((layersBehind layersRan).1.trans (copiesUnreserved replicated)).trans made.unreserved
    exact {
      standing := {
        holds
        shape := whole.standing.shape
        row := fun i inside => by
          obtain ⟨bits,length,stands,flags⟩ := whole.standing.row i inside
          refine ⟨bits,length,fun m bound => ?_,flags⟩
          rw [same.keys m bound i inside]
          exact stands m bound}
      room := fun maxLen reserved => by cases unreserved.symm.trans reserved
      within := whole.within
      lens := by
        rw [same.promptLens]
        exact whole.lens
      next := by
        rw [same.nextIds]
        exact whole.next}
  · cases present

/-- After any calls before it, a batch is prefilled with all its rows standing in the cache. -/
theorem batchPrefilled (thinker : CausalThinker φ η κ) (earlier : List (PrefillCall φ)) (padded : PaddedBatch inputIds attentionMask)
    (unmasked : dense = true → ∀ mask ∈ attentionMask.rows, attentionMaskIsDense mask = true)
    (sized : Sized inputIds.rows.length inputIds.width opts.maxNewTokens)
    (counted : Counted thinker.audioTokenId opts.audioFeatures inputIds.rows) :
    ∃ q u, prefillBatch thinker inputIds attentionMask opts (templatesAfter thinker earlier) = .ok q u ∧
      PrefilledBatch thinker dense inputIds.rows.length inputIds.width opts.maxNewTokens
        (rowOf thinker.audioTokenId opts.audioFeatures inputIds attentionMask) attentionMask q := by
  obtain ⟨p,t,run,reserved⟩ := freshRun thinker padded sized counted
  have whole := wholePrefilled padded unmasked run reserved
  cases found : cachedPrefix thinker inputIds attentionMask opts.audioFeatures (templatesAfter thinker earlier) with
  | none =>
    obtain ⟨u,same⟩ := prefillFullGoes run found
    exact ⟨p,u,same,whole⟩
  | some template =>
    obtain ⟨q,resumed,stands⟩ := resumedPrefilled (validAfter thinker earlier) run whole found
    refine ⟨q,templatesAfter thinker earlier,?_,stands⟩
    unfold prefillBatch
    rw [attemptThen (kvCacheOk.mpr ⟨run.reserves,rfl⟩),attemptThen run.lens,bindThen (getRun _),found]
    exact attemptOk.mpr ⟨resumed,rfl⟩

end Standing

section Batch
variable {thinker : CausalThinker φ η κ} {inputIds attentionMask : List (List Nat)} {audio : List φ} {eosTokenIds : List Nat}
  {seqLen maxNewTokens : Nat}

def rowAudio (audioTokenId : Nat) (audio : List φ) (inputIds : List (List Nat)) (i : Nat) (ids : List Nat) : List φ :=
  (audio.drop ((inputIds.map (·.count audioTokenId)).take i).sum).take (ids.count audioTokenId)

theorem batchGreedy (thinker : CausalThinker φ η κ) (earlier : List (PrefillCall φ)) (some_ : eosTokenIds ≠ [])
    {audioFeatures : Option (List φ)} (padded : RightPadded inputIds attentionMask seqLen)
    (sized : Sized inputIds.length seqLen maxNewTokens) (counted : Counted thinker.audioTokenId audioFeatures inputIds) :
    ∃ out templates, greedyGenerateCachedBatch thinker inputIds attentionMask ⟨audioFeatures,maxNewTokens,eosTokenIds⟩
        (templatesAfter thinker earlier) = .ok out templates ∧ out.length = inputIds.length ∧
      ∀ (i : Nat) (columns : List (Column φ)) (mask row : List Nat),
        (columnsOf thinker.audioTokenId audioFeatures inputIds)[i]? = some columns → attentionMask[i]? = some mask →
        out[i]? = some row → row = greedy (nextFrom thinker (promptRow columns mask)) eosTokenIds.contains maxNewTokens := by
  unfold greedyGenerateCachedBatch
  by_cases nonempty : inputIds = []
  · subst nonempty
    exact ⟨[],_,rfl,rfl,fun i _ _ _ _ _ found => by cases found⟩
  · obtain ⟨ids,mask,checked,idRows,maskRows,idWidth,batch⟩ := checksGo padded nonempty some_
    rw [if_neg nonempty,attemptThen checked]
    dsimp only
    split
    · next none_ =>
      refine ⟨_,_,rfl,List.length_replicate,fun i _ _ row _ _ found => ?_⟩
      rw [List.getElem?_replicate] at found
      split at found <;> cases found
      rw [none_]
      rfl
    · subst idRows
      rw [← idWidth] at sized
      have unmasked (dense : attentionMasksAreDense mask.rows = true) : ∀ row ∈ mask.rows, attentionMaskIsDense row = true := by
        simpa [attentionMasksAreDense] using dense
      obtain ⟨p,u,ran,prefilled⟩ := @batchPrefilled _ _ _ ids mask ⟨audioFeatures,maxNewTokens,eosTokenIds⟩
        (attentionMasksAreDense mask.rows) thinker earlier batch unmasked sized counted
      have first : 0 < ids.rows.length := List.length_pos_of_ne_nil nonempty
      have positions := sized.positions
      obtain ⟨table,rows,made,through,length,answers⟩ := @rowsGreedy _ _ _ _ _ _ _ _ _ eosTokenIds _ _ first
        (by dsimp only; omega) prefilled
      refine ⟨_,u,(bindThen ran).trans (attemptOk.mpr ⟨exceptBind.mpr ⟨table,made,exceptBind.mpr ⟨rows,through,rfl⟩⟩,rfl⟩),
        by simp [length],fun i columns row out found there here => ?_⟩
      rw [List.getElem?_map] at here
      obtain ⟨last,at_,rfl⟩ := Option.map_eq_some_iff.mp here
      have own : rowOf thinker.audioTokenId audioFeatures ids mask i = promptRow columns row := by
        simp [rowOf,rowAt,List.getD_eq_getElem?_getD,found,maskRows,there]
      rw [answers i last at_,own]

theorem rowMerged {audioTokenId : Nat} (audio : List φ) {i : Nat} {ids mask : List Nat} (found : inputIds[i]? = some ids)
    (within : validLen mask ≤ ids.length) {columns : List (Column φ)}
    (there : (columnsOf audioTokenId (some audio) inputIds)[i]? = some columns) :
    promptRow columns mask = mergeRow audioTokenId (rowAudio audioTokenId audio inputIds i (ids.take (validLen mask))) 0
      (ids.take (validLen mask)) := by
  rw [columnsOf,mergeRowsGet audioTokenId audio 0 found] at there
  obtain rfl := Option.some.inj there
  have front : (mergeRow audioTokenId audio (0+((inputIds.map (·.count audioTokenId)).take i).sum) ids).take (validLen mask) =
      mergeRow audioTokenId audio (0+((inputIds.map (·.count audioTokenId)).take i).sum) (ids.take (validLen mask)) := by
    conv_lhs => rw [← List.take_append_drop (validLen mask) ids,mergeRowAppend]
    exact List.take_left' (by rw [mergeRowLength,List.length_take,Nat.min_eq_left within])
  rw [promptRow,front]
  refine mergeRowCongr fun j less => ?_
  rw [rowAudio,Nat.zero_add,Nat.zero_add,List.getElem?_take_of_lt less,List.getElem?_drop]

theorem rowCounted {audioTokenId : Nat} (counted : countAudioPlaceholdersBatch inputIds audioTokenId = audio.length) {i : Nat}
    {ids : List Nat} (found : inputIds[i]? = some ids) (n : Nat) :
    (ids.take n).count audioTokenId = (rowAudio audioTokenId audio inputIds i (ids.take n)).length := by
  have own : (inputIds.map (·.count audioTokenId))[i]? = some (ids.count audioTokenId) := by
    rw [List.getElem?_map,found]
    rfl
  have within := startWithin own
  rw [start] at within
  have part : (ids.take n).count audioTokenId ≤ ids.count audioTokenId := (List.take_sublist n ids).count_le _
  rw [countAudioPlaceholdersBatch] at counted
  rw [rowAudio,List.length_take,List.length_drop]
  omega

/-- After any calls before it, with whatever prefixes they left, a padded batch is decoded over one cache, and each
row is answered what decoding it from scratch, with its own features, answers it, as long as that holds no placeholder. -/
theorem eagerBatchAlone (thinker : CausalThinker φ η κ) (earlier : List (PrefillCall φ)) (some_ : eosTokenIds ≠ [])
    (padded : RightPadded inputIds attentionMask seqLen) (sized : Sized inputIds.length seqLen maxNewTokens)
    (features : countAudioPlaceholdersBatch inputIds thinker.audioTokenId = audio.length) :
    ∃ out templates, greedyGenerateCachedBatch thinker inputIds attentionMask ⟨some audio,maxNewTokens,eosTokenIds⟩
        (templatesAfter thinker earlier) = .ok out templates ∧ out.length = inputIds.length ∧
      ∀ (i : Nat) (ids mask row : List Nat), inputIds[i]? = some ids → attentionMask[i]? = some mask → out[i]? = some row →
        thinker.audioTokenId ∉ row →
        greedyGenerate thinker (ids.take (validLen mask)) (List.replicate (validLen mask) 1)
          (some (rowAudio thinker.audioTokenId audio inputIds i (ids.take (validLen mask)))) maxNewTokens eosTokenIds = .ok row := by
  obtain ⟨out,templates,ran,length,answers⟩ := @batchGreedy _ _ _ _ _ _ _ _ thinker earlier some_ (some audio) padded sized
    fun other same => Option.some.inj same ▸ features
  refine ⟨out,templates,ran,length,fun i ids mask row found masked here apart => ?_⟩
  have positions := sized.positions
  obtain ⟨maskLength,_,valid⟩ := padded.masks mask (List.mem_of_getElem? masked)
  have idsLength := padded.ids ids (List.mem_of_getElem? found)
  have within := validLenLe mask
  have there : (columnsOf thinker.audioTokenId (some audio) inputIds)[i]? = some _ :=
    List.getElem?_eq_getElem (by rw [columnsCount]; exact (List.getElem?_eq_some_iff.mp found).1)
  have answer := answers i _ mask row there masked here
  rw [rowMerged audio found (by omega) there] at answer
  have long : (ids.take (validLen mask)).length = validLen mask := by
    rw [List.length_take]
    omega
  rw [answer] at apart ⊢
  have scratch := scratchGreedy thinker some_ (List.ne_nil_of_length_pos (by rw [long]; exact valid))
    (rowCounted features found (validLen mask)) ⟨by rw [long]; omega,by rw [long]; omega⟩ apart
  rwa [long] at scratch

theorem sharingIdsEven : ∀ row ∈ [[1,2,3,4,5,6,7,8,9,3],[1,2,3,4,5,6,7,8,9,0]], row.length = 10 := by decide

theorem sharingMaskEven : ∀ row ∈ [[1,1,1,1,1,1,1,1,1,1],[1,1,1,1,1,1,1,1,1,0]], row.length = 10 := by decide

def sharing : PrefillCall Nat := ⟨⟨_,10,sharingIdsEven⟩,⟨_,10,sharingMaskEven⟩,⟨some [5,6],4,[0]⟩⟩

theorem eagerBatchAloneShared : (templatesAfter addingThinker [sharing] [1,2,3,4,5,6,7,8]).isSome = true ∧
    greedyGenerate addingThinker [1,2,3,4,5,6,7,8,9,4,9] (List.replicate 11 1) (some [2,3]) 3 [0] = .ok [8,7,7] := by
  obtain ⟨out,templates,ran,_,rows⟩ := @eagerBatchAlone _ _ _ [[1,2,3,4,5,6,7,8,9,0,0],[1,2,3,4,5,6,7,8,9,4,9],[1,2,3,4,5,6,7,8,9,6,0]]
    [[1,1,1,1,1,1,1,1,1,0,0],[1,1,1,1,1,1,1,1,1,1,1],[1,1,1,1,1,1,1,1,1,1,0]] [1,2,3,4] [0] 11 3 addingThinker [sharing]
    (by decide) ⟨rfl,by decide,by decide⟩ ⟨by decide,by decide⟩ rfl
  have answers : returned (greedyGenerateCachedBatch addingThinker
      [[1,2,3,4,5,6,7,8,9,0,0],[1,2,3,4,5,6,7,8,9,4,9],[1,2,3,4,5,6,7,8,9,6,0]]
      [[1,1,1,1,1,1,1,1,1,0,0],[1,1,1,1,1,1,1,1,1,1,1],[1,1,1,1,1,1,1,1,1,1,0]] ⟨some [1,2,3,4],3,[0]⟩
      (templatesAfter addingThinker [sharing])) = some [[8,7,1],[8,7,7],[6,8,8]] := by decide +kernel
  rw [ran] at answers
  obtain rfl := Option.some.inj answers
  exact ⟨by decide +kernel,rows 1 _ _ _ rfl rfl rfl (by decide)⟩

end Batch

end Qwen3Asr.EagerBatch
