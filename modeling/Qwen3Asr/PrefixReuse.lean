import Qwen3Asr.BatchPrefill

/-! Reuse of a shared audio prefix. A template holds the keys that the prefix has in every batch,
whichever batch it was cut from, so a prefill that resumes from it is the full prefill. -/
namespace Qwen3Asr.PrefixReuse
open Library Library.Effect Library.Word Library.CausalStack
open PagedMetadata PromptPositions BatchEngine KvCache EagerThinker EagerRows BatchPrefill

variable {φ η κ : Type}

section Prefix
variable {audioTokenId prefixLen : Nat} {ids attn : List Nat} {rows masks : List (List Nat)}

structure RowPrefix (audioTokenId prefixLen : Nat) (prefixIds ids attn : List Nat) : Prop where
  same : ids.take prefixLen = prefixIds
  valid : ∀ m ∈ attn.take prefixLen, m ≠ 0
  inIds : prefixLen < ids.length
  inMask : prefixLen < attn.length
  placeholder : attn[prefixLen] ≠ 0
  none : audioTokenId ∉ prefixIds

theorem positionPrefix (found : audioPosition audioTokenId ids attn = some prefixLen)
    (valid : ∀ m ∈ attn.take prefixLen, m ≠ 0) :
    RowPrefix audioTokenId prefixLen (ids.take prefixLen) ids attn := by
  obtain ⟨bound,here,before⟩ := List.findIdx?_eq_some_iff_getElem.mp found
  have inIds : prefixLen < ids.length := by
    rw [List.length_zip] at bound
    omega
  have inMask : prefixLen < attn.length := by
    rw [List.length_zip] at bound
    omega
  simp only [List.getElem_zip,decide_eq_true_eq] at here
  refine ⟨rfl,valid,inIds,inMask,here.1,fun inside => ?_⟩
  obtain ⟨j,less,same⟩ := List.mem_take_iff_getElem.mp inside
  have early : j < prefixLen := by omega
  have other := before j early
  simp only [List.getElem_zip,decide_eq_true_eq] at other
  exact other ⟨valid _ (List.mem_take_iff_getElem.mpr ⟨j,by omega,rfl⟩),same⟩

structure SharedPrefix (audioTokenId prefixLen : Nat) (prefixIds : List Nat) (rows masks : List (List Nat)) : Prop where
  several : 2 ≤ rows.length
  counted : masks.length = rows.length
  each : ∀ (i : Nat) (ids attn : List Nat), rows[i]? = some ids → masks[i]? = some attn →
    RowPrefix audioTokenId prefixLen prefixIds ids attn

theorem commonPrefix (found : commonAudioPrefixLen rows masks audioTokenId = prefixLen) (some : 0 < prefixLen) :
    SharedPrefix audioTokenId prefixLen ((rows.headD []).take prefixLen) rows masks := by
  unfold commonAudioPrefixLen at found
  split at found
  · omega
  · next sizes =>
    obtain ⟨several,lengths⟩ := not_or.mp sizes
    split at found
    · next first rest firstAttn restAttn =>
      split at found
      · omega
      · next len position =>
        split at found
        · omega
        · split at found
          · omega
          · next shared =>
            split at found
            · omega
            · next valid =>
              subst found
              rw [Decidable.not_not,List.all_eq_true] at shared
              have head : RowPrefix audioTokenId len (first.take len) first firstAttn :=
                positionPrefix position fun m inside zero => valid ⟨m,inside,zero⟩
              refine ⟨Nat.not_le.mp several,(Decidable.not_not.mp lengths).symm,fun i ids attn there mask => ?_⟩
              cases i with
              | zero =>
                cases there
                cases mask
                exact head
              | succ i =>
                have zipped : (rest.zip restAttn)[i]? = Option.some (ids,attn) :=
                  List.getElem?_zip_eq_some.mpr ⟨there,mask⟩
                have row := shared _ (List.mem_of_getElem? zipped)
                unfold sharesPrefix at row
                split at row
                · cases row
                · next position' found' =>
                  obtain ⟨rfl,_,_,same,valid⟩ := of_decide_eq_true row
                  have own := positionPrefix found' valid
                  exact {own with same, none := head.none}
    · omega

end Prefix

section Full
variable {thinker : CausalThinker φ η κ} {inputIds attentionMask : Grid Nat} {audioFeatures : Option (List φ)}
  {logits : Grid Nat} {cache cache' : KVCache κ} {i : Nat} {columns : List (Column φ)} {mask : List Nat}

def RowsPrefilled (thinker : CausalThinker φ η κ) (inputIds attentionMask : Grid Nat) (audioFeatures : Option (List φ))
    (first : Nat) (logits : Grid Nat) (cache : KVCache κ) : Prop :=
  ∀ (i : Nat) (columns : List (Column φ)) (mask : List Nat),
    (columnsOf thinker.audioTokenId audioFeatures inputIds.rows)[i]? = some columns →
    attentionMask.rows[i]? = some mask → RowCached thinker cache i (promptInputs thinker columns mask) ∧
      logits.rows[i]? = some ((picks thinker (promptInputs thinker columns mask)).drop first)

structure FullOk (thinker : CausalThinker φ η κ) (inputIds attentionMask : Grid Nat) (audioFeatures : Option (List φ))
    (logits : Grid Nat) (cache : KVCache κ) : Prop where
  counted : Counted thinker.audioTokenId audioFeatures inputIds.rows
  maskRows : attentionMask.rows.length = inputIds.rows.length
  maskWidth : attentionMask.width = inputIds.width
  logitRows : logits.rows.length = inputIds.rows.length
  logitWidth : logits.width = inputIds.width
  holds : CacheHolds thinker cache inputIds.rows.length inputIds.width
  filled : ∀ m, m < thinker.layers.length → ∃ entry, get cache m = some entry
  small : inputIds.width ≠ 0 → inputIds.width < 2^32
  flash : makeFlashParams inputIds.rows.length inputIds.width (inputIds.width+inputIds.width) = .ok ()
  rows : RowsPrefilled thinker inputIds attentionMask audioFeatures 0 logits cache

theorem columnsCount (audioTokenId : Nat) (audioFeatures : Option (List φ)) (rows : List (List Nat)) :
    (columnsOf audioTokenId audioFeatures rows).length = rows.length := by
  simpa using congrArg List.length (columnsLengths audioTokenId audioFeatures rows)

theorem columnsMask (found : (columnsOf thinker.audioTokenId audioFeatures inputIds.rows)[i]? = some columns)
    (masked : attentionMask.rows[i]? = some mask) (width : attentionMask.width = inputIds.width) :
    columns.length = mask.length := by
  rw [columnsEven thinker.audioTokenId audioFeatures columns (List.mem_of_getElem? found),Grid.rowLength masked,width]

theorem freshHolds (thinker : CausalThinker φ η κ) (numLayers maxSeqLen batch : Nat) :
    CacheHolds thinker (withMaxSeqLen numLayers maxSeqLen) batch 0 where
  counted := rfl
  holds := {
    rows := fun m _ entry found => by
      rw [freshReserved] at found
      cases found
    lens := fun m _ => by
      rw [entryLen,freshReserved]
      rfl}

theorem freshCached (thinker : CausalThinker φ η κ) (numLayers maxSeqLen i : Nat) :
    RowCached thinker (withMaxSeqLen numLayers maxSeqLen) i [] := by
  intro m bound
  rw [rowKeys,freshReserved]
  exact (List.eq_nil_of_length_eq_zero (stackKeysLength bound)).symm

theorem placeholdersOwn (rows : List (List Nat)) (some : audioFeatures.isSome) :
    placeholders thinker audioFeatures rows = countAudioPlaceholdersBatch rows thinker.audioTokenId :=
  if_pos some

theorem fullPrefillOk {numLayers maxSeqLen : Nat}
    (ok : fullPrefill thinker inputIds attentionMask audioFeatures (withMaxSeqLen numLayers maxSeqLen) =
      .ok (logits,cache)) : FullOk thinker inputIds attentionMask audioFeatures logits cache := by
  obtain ⟨embeds,embedded,ok⟩ := exceptBind.mp ok
  obtain ⟨positionIds,rope,ok⟩ := exceptBind.mp ok
  obtain ⟨counted,embedRows,embedWidth⟩ := (inputsEmbedsOk (placeholdersOwn inputIds.rows)).mp embedded
  obtain ⟨ropeRows,ropeWidth⟩ := ropePositionsOk rope
  obtain ⟨maskRows,maskWidth,allowed,hidden,made,ran,_⟩ := forwardEmbedsOk ok
  have batch : embeds.rows.length = inputIds.rows.length := by rw [embedRows,List.length_map,columnsCount]
  have width : attentionMask.width = inputIds.width := by
    rw [maskWidth,embedWidth]
    exact Nat.zero_add _
  have same : SameShape embeds positionIds :=
    ⟨by rw [ropeRows,List.length_map,maskRows],by rw [ropeWidth,width,embedWidth]⟩
  have fresh := freshHolds thinker numLayers maxSeqLen embeds.rows.length
  have spec := forwardEmbedsRan ok same fresh
  have flash := passFlash ran same fresh
  rw [Nat.zero_add,batch,embedWidth] at flash
  have holds := spec.holds
  rw [Nat.zero_add,batch,embedWidth] at holds
  exact {
    counted
    maskRows := by rw [maskRows,batch]
    maskWidth := width
    logitRows := by rw [spec.rows,batch]
    logitWidth := by rw [spec.width,embedWidth]
    holds
    filled := spec.filled
    small := fun wide => by
      rw [← embedWidth] at wide ⊢
      have fits := (CausalMask.cachedFits wide).mp ⟨allowed,made⟩
      exact Nat.zero_add embeds.width ▸ fits.2.2
    flash
    rows := fun i columns mask found masked => by
      obtain ⟨hiddens,positions,bits⟩ := promptParts thinker (columnsMask found masked width)
      have row : RowInputs embeds positionIds i (promptInputs thinker columns mask) :=
        ⟨by rw [embedRows,List.getElem?_map,found,hiddens]; rfl,
          by rw [ropeRows,List.getElem?_map,masked,positions]; rfl⟩
      exact forwardEmbedsRow ok (freshCached thinker numLayers maxSeqLen i) row masked bits.symm rfl}

end Full

section Template
variable {thinker : CausalThinker φ η κ} {inputIds attentionMask : Grid Nat} {audioFeatures : Option (List φ)}
  {logits : Grid Nat} {cache template : KVCache κ} {prefixLen i : Nat} {prefixIds : List Nat}

def tokenColumns (ids : List Nat) : List (Column φ) := ids.map (⟨·,none⟩)

structure TemplateFor (thinker : CausalThinker φ η κ) (prefixIds : List Nat) (template : KVCache κ) : Prop where
  unreserved : template.maxSeqLen = none
  counted : template.seqLen = prefixIds.length
  keys : ∀ m, m < thinker.layers.length → ∃ entry, get template m = some entry ∧ entry.current.rows =
    [stackKeys thinker.layers (fun _ => []) (denseInputs thinker (tokenColumns prefixIds)) m]

theorem keysTake {layers : List (Layer η Int κ)} {all : List (Input η Int)} {n m : Nat} (within : n ≤ all.length)
    (layer : m < layers.length) :
    (stackKeys layers (fun _ => []) all m).take n = stackKeys layers (fun _ => []) (all.take n) m := by
  conv_lhs => rw [← List.take_append_drop n all,stackKeysAppend]
  exact List.take_left' (by rw [stackKeysLength layer,List.length_take,Nat.min_eq_left within])

theorem prefixIdsLen {audioTokenId : Nat} {ids attn : List Nat}
    (row : RowPrefix audioTokenId prefixLen prefixIds ids attn) : prefixIds.length = prefixLen := by
  rw [← row.same,List.length_take,Nat.min_eq_left (Nat.le_of_lt row.inIds)]

theorem columnsTake {audioTokenId : Nat} {rows : List (List Nat)} {ids : List Nat} {columns : List (Column φ)}
    (found : (columnsOf audioTokenId audioFeatures rows)[i]? = some columns) (row : rows[i]? = some ids)
    (none : audioTokenId ∉ ids.take prefixLen) (within : prefixLen ≤ ids.length) :
    columns.take prefixLen = tokenColumns (ids.take prefixLen) := by
  cases audioFeatures with
  | none =>
    rw [columnsOf,embedTokens,List.getElem?_map,row] at found
    cases found
    rw [tokenColumns,List.map_take]
  | some audio =>
    rw [columnsOf,PromptColumns.mergeRowsGet audioTokenId audio 0 row] at found
    cases found
    conv_lhs => rw [← List.take_append_drop prefixLen ids,PromptColumns.mergeRowAppend,PromptColumns.mergeRowNone none]
    exact List.take_left' (by simp [within])

theorem sharedColumns {columns : List (Column φ)}
    (shared : SharedPrefix thinker.audioTokenId prefixLen prefixIds inputIds.rows attentionMask.rows)
    (found : (columnsOf thinker.audioTokenId audioFeatures inputIds.rows)[i]? = some columns) :
    ∃ ids mask, inputIds.rows[i]? = some ids ∧ attentionMask.rows[i]? = some mask ∧
      RowPrefix thinker.audioTokenId prefixLen prefixIds ids mask ∧
      columns.take prefixLen = tokenColumns prefixIds := by
  have bound := (List.getElem?_eq_some_iff.mp found).1
  rw [columnsCount] at bound
  have row : inputIds.rows[i]? = some inputIds.rows[i] := List.getElem?_eq_getElem bound
  have masked : i < attentionMask.rows.length := by rw [shared.counted]; exact bound
  have own := shared.each i _ _ row (List.getElem?_eq_getElem masked)
  refine ⟨_,_,row,List.getElem?_eq_getElem masked,own,?_⟩
  rw [columnsTake found row (by rw [own.same]; exact own.none) (Nat.le_of_lt own.inIds),own.same]

/- The columns of a row up to the prefix are those of the prefix, wherever the row comes from. -/
theorem promptPrefix {columns : List (Column φ)} {ids mask : List Nat} (same : columns.length = mask.length)
    (own : RowPrefix thinker.audioTokenId prefixLen prefixIds ids mask)
    (tokens : columns.take prefixLen = tokenColumns prefixIds) :
    (promptInputs thinker columns mask).take prefixLen = denseInputs thinker (tokenColumns prefixIds) := by
  rw [promptTake same (Nat.le_of_lt own.inMask) own.valid,tokens]

theorem templateStored (full : FullOk thinker inputIds attentionMask audioFeatures logits cache)
    (shared : SharedPrefix thinker.audioTokenId prefixLen prefixIds inputIds.rows attentionMask.rows)
    (ok : row0PrefixTemplate cache prefixLen = .ok template) : TemplateFor thinker prefixIds template := by
  obtain ⟨unreserved,counted,cuts⟩ := row0PrefixTemplateOk ok
  have first : 0 < (columnsOf thinker.audioTokenId audioFeatures inputIds.rows).length := by
    rw [columnsCount]
    exact Nat.lt_of_lt_of_le Nat.zero_lt_two shared.several
  have found := List.getElem?_eq_getElem first
  obtain ⟨ids,mask,_,masked,own,tokens⟩ := sharedColumns shared found
  have lengths := columnsMask found masked full.maskWidth
  have cached := (full.rows 0 _ mask found masked).1
  have within : prefixLen ≤ (promptInputs thinker (columnsOf thinker.audioTokenId audioFeatures inputIds.rows)[0] mask).length := by
    rw [promptLength lengths,lengths]
    exact Nat.le_of_lt own.inMask
  exact {
    unreserved
    counted := by
      obtain ⟨entry,here⟩ := full.filled 0 (List.length_pos_iff.mpr thinker.deep)
      rw [counted (by rw [here]; rfl),prefixIdsLen own]
    keys := fun m bound => by
      obtain ⟨entry,here⟩ := full.filled m bound
      obtain ⟨cut,there,made⟩ := cuts m entry here
      obtain ⟨row,rest,rows⟩ := List.exists_cons_of_ne_nil made.some
      have keys := cached m bound
      rw [rowKeysSome here,rows] at keys
      refine ⟨cut,there,?_⟩
      rw [made.current,← promptPrefix lengths own tokens,← keysTake within bound,← keys]
      simp [Grid.columns,Grid.firstRow,rows]}

end Template

section Remainder
variable {thinker : CausalThinker φ η κ} {inputIds attentionMask : Grid Nat} {audioFeatures : Option (List φ)}
  {logits : Grid Nat} {cache template copies : KVCache κ} {prefixLen batch i : Nat} {prefixIds : List Nat}

theorem dropCount {audioTokenId : Nat} {ids : List Nat} (none : audioTokenId ∉ ids.take prefixLen) :
    (ids.drop prefixLen).count audioTokenId = ids.count audioTokenId := by
  conv_rhs => rw [← List.take_append_drop prefixLen ids,List.count_append,List.count_eq_zero.mpr none,Nat.zero_add]

theorem mergeRowDrop {audioTokenId : Nat} {ids : List Nat} (audio : List φ) (offset : Nat)
    (none : audioTokenId ∉ ids.take prefixLen) (within : prefixLen ≤ ids.length) :
    mergeRow audioTokenId audio offset (ids.drop prefixLen) = (mergeRow audioTokenId audio offset ids).drop prefixLen := by
  conv_rhs => rw [← List.take_append_drop prefixLen ids,PromptColumns.mergeRowAppend,List.count_eq_zero.mpr none]
  exact (List.drop_left' (by rw [PromptColumns.mergeRowLength,List.length_take,Nat.min_eq_left within])).symm

/- The remainder takes the features that the whole row takes there. -/
theorem columnsDrop {audioTokenId : Nat} {rows : List (List Nat)}
    (shared : ∀ ids ∈ rows, audioTokenId ∉ ids.take prefixLen ∧ prefixLen ≤ ids.length) :
    columnsOf audioTokenId audioFeatures (rows.map (List.drop prefixLen)) =
      (columnsOf audioTokenId audioFeatures rows).map (List.drop prefixLen) := by
  cases audioFeatures with
  | none => simp [columnsOf,embedTokens,List.map_drop]
  | some audio =>
    unfold columnsOf
    dsimp only
    generalize 0 = offset
    induction rows generalizing offset with
    | nil => rfl
    | cons ids rows ih =>
      obtain ⟨none,within⟩ := shared ids List.mem_cons_self
      rw [List.map_cons,mergeRows,mergeRows,List.map_cons,dropCount none,mergeRowDrop audio offset none within,
        ih fun ids inside => shared ids (List.mem_cons_of_mem _ inside)]

theorem dropCounted {rows : List (List Nat)} {audioTokenId : Nat}
    (shared : ∀ ids ∈ rows, audioTokenId ∉ ids.take prefixLen ∧ prefixLen ≤ ids.length) :
    countAudioPlaceholdersBatch (rows.map (List.drop prefixLen)) audioTokenId =
      countAudioPlaceholdersBatch rows audioTokenId := by
  unfold countAudioPlaceholdersBatch
  rw [List.map_map]
  exact congrArg List.sum (List.map_congr_left fun ids inside => dropCount (shared ids inside).1)

theorem columnsRows (g : Grid Nat) (start : Nat) :
    (g.columns start (g.width-start)).rows = g.rows.map (List.drop start) := by
  refine List.map_congr_left fun row inside => List.take_of_length_le ?_
  rw [List.length_drop,g.rectangular row inside]

theorem copiesHold (made : TemplateFor thinker prefixIds template) (counted : copies.seqLen = template.seqLen)
    (each : ∀ m, (get copies m).map KVCacheEntry.current =
      (get template m).map fun entry => entry.current.repeated batch) :
    CacheHolds thinker copies batch prefixIds.length ∧
      ∀ i, i < batch → RowCached thinker copies i (denseInputs thinker (tokenColumns prefixIds)) := by
  have copy (m : Nat) (bound : m < thinker.layers.length) : ∃ entry, get copies m = some entry ∧
      ∃ single, single.rows =
        [stackKeys thinker.layers (fun _ => []) (denseInputs thinker (tokenColumns prefixIds)) m] ∧
      entry.current = Grid.repeated batch single := by
    obtain ⟨entry,here,rows⟩ := made.keys m bound
    have same := each m
    rw [here,Option.map_some] at same
    obtain ⟨other,there,current⟩ := Option.map_eq_some_iff.mp same
    exact ⟨other,there,entry.current,rows,current⟩
  refine ⟨⟨by rw [counted,made.counted],⟨fun m bound entry found => ?_,fun m bound => ?_⟩⟩,fun i inside m bound => ?_⟩
  · rw [Nat.zero_add] at found
    obtain ⟨other,there,single,rows,current⟩ := copy m bound
    cases there.symm.trans found
    simp [current,Grid.repeated,rows]
  · obtain ⟨other,there,single,rows,current⟩ := copy m bound
    have length := Grid.rowLength (g := single) (i := 0) (by rw [rows]; rfl)
    rw [Nat.zero_add,entryLen,there,Option.map_some,Option.getD_some,KVCacheEntry.seqLen,current]
    change single.width = prefixIds.length
    rw [← length,stackKeysLength bound]
    simp [denseInputs,tokenColumns]
  · obtain ⟨other,there,single,rows,current⟩ := copy m bound
    rw [rowKeysSome there,current,Grid.repeatedRow rows inside]
    rfl

theorem remainderGoes (full : FullOk thinker inputIds attentionMask audioFeatures logits cache)
    (shared : SharedPrefix thinker.audioTokenId prefixLen prefixIds inputIds.rows attentionMask.rows)
    (made : TemplateFor thinker prefixIds template) :
    ∃ logits' cache', remainderPrefill thinker inputIds attentionMask audioFeatures prefixLen template =
        .ok (logits',cache') ∧
      logits'.rows.length = inputIds.rows.length ∧ logits'.width = inputIds.width-prefixLen ∧
      CacheHolds thinker cache' inputIds.rows.length inputIds.width ∧
      RowsPrefilled thinker inputIds attentionMask audioFeatures prefixLen logits' cache' := by
  have rowFacts (i : Nat) (bound : i < inputIds.rows.length) :
      ∃ mask, RowPrefix thinker.audioTokenId prefixLen prefixIds inputIds.rows[i] mask :=
    ⟨_,shared.each i _ _ (List.getElem?_eq_getElem bound)
      (List.getElem?_eq_getElem (by rw [shared.counted]; exact bound))⟩
  have several := shared.several
  obtain ⟨_,first⟩ := rowFacts 0 (by omega)
  have length := prefixIdsLen first
  have width : prefixLen < inputIds.width := by
    rw [← inputIds.rectangular _ (List.getElem_mem (show 0 < inputIds.rows.length by omega))]
    exact first.inIds
  have free : ∀ ids ∈ inputIds.rows, thinker.audioTokenId ∉ ids.take prefixLen ∧ prefixLen ≤ ids.length := by
    intro ids inside
    obtain ⟨i,bound,rfl⟩ := List.getElem_of_mem inside
    obtain ⟨_,own⟩ := rowFacts i bound
    exact ⟨by rw [own.same]; exact own.none,Nat.le_of_lt own.inIds⟩
  obtain ⟨copies,replicated,counted,unreserved,each⟩ := replicateBatchGoes made.unreserved several
  obtain ⟨holds,cached⟩ := copiesHold made counted each
  rw [length] at holds
  have remRows := columnsRows inputIds prefixLen
  have remCounted : Counted thinker.audioTokenId audioFeatures (inputIds.columns prefixLen (inputIds.width-prefixLen)).rows := by
    intro audio some
    rw [remRows,dropCounted free]
    exact full.counted audio some
  obtain ⟨embeds,embedded⟩ := inputsEmbedsGo thinker
    (placeholdersOwn (inputIds.columns prefixLen (inputIds.width-prefixLen)).rows) remCounted
  obtain ⟨_,embedRows,embedWidth⟩ := (inputsEmbedsOk (placeholdersOwn _)).mp embedded
  rw [remRows,columnsDrop free] at embedRows
  have remWidth : embeds.width = inputIds.width-prefixLen := by
    rw [embedWidth]
    exact Nat.min_self _
  have batch : embeds.rows.length = inputIds.rows.length := by
    rw [embedRows,List.length_map,List.length_map,columnsCount]
  have masked : attentionMask.rows ≠ [] := List.ne_nil_of_length_pos (by rw [full.maskRows]; omega)
  obtain ⟨positionIds,rope⟩ := ropePositionsGo masked (by rw [full.maskWidth]; omega)
  obtain ⟨ropeRows,ropeWidth⟩ := ropePositionsOk rope
  have same : SameShape embeds (positionIds.columns prefixLen (inputIds.width-prefixLen)) := {
    rows := by rw [batch,Grid.columns,List.length_map,ropeRows,List.length_map,full.maskRows]
    width := by
      change min (inputIds.width-prefixLen) (positionIds.width-prefixLen) = embeds.width
      rw [remWidth,ropeWidth,full.maskWidth,Nat.min_self]}
  have fits : PassFits copies embeds.rows.length prefixLen embeds.width := {
    room := fun maxLen reserved => by
      rw [unreserved] at reserved
      cases reserved
    flash := by
      rw [batch,remWidth]
      rcases flashFits.mp full.flash with one | ⟨new,total⟩
      · exact flashFits.mpr (.inl (by omega))
      · have less : inputIds.rows.length*(inputIds.width-prefixLen) ≤ inputIds.rows.length*inputIds.width :=
          Nat.mul_le_mul_left _ (Nat.sub_le _ _)
        have less' : inputIds.rows.length*(prefixLen+(inputIds.width-prefixLen)+(inputIds.width-prefixLen)) ≤
            inputIds.rows.length*(inputIds.width+inputIds.width) := Nat.mul_le_mul_left _ (by omega)
        exact flashFits.mpr (.inr ⟨by omega,by omega⟩)}
  have small := full.small (by omega)
  have rows : attentionMask.rows.length = embeds.rows.length := by rw [batch,full.maskRows]
  obtain ⟨logits',cache',ran⟩ := forwardEmbedsGo same (by rw [batch]; exact holds) fits (by omega) (by omega) rows
    (by rw [full.maskWidth,remWidth]; omega)
  have spec := forwardEmbedsRan ran same (by rw [batch]; exact holds)
  have left := spec.holds
  rw [batch,remWidth,Nat.add_sub_cancel' (Nat.le_of_lt width)] at left
  refine ⟨logits',cache',?_,by rw [spec.rows,batch],by rw [spec.width,remWidth],left,
    fun i columns mask found masked => ?_⟩
  · exact exceptBind.mpr ⟨copies,replicated,exceptBind.mpr ⟨embeds,embedded,exceptBind.mpr ⟨positionIds,rope,ran⟩⟩⟩
  · obtain ⟨ids,mask',row,masked',own,tokens⟩ := sharedColumns shared found
    cases masked.symm.trans masked'
    have lengths := columnsMask found masked full.maskWidth
    obtain ⟨hiddens,positions,bits⟩ := promptParts thinker lengths
    have all : denseInputs thinker (tokenColumns prefixIds) ++ (promptInputs thinker columns mask).drop prefixLen =
        promptInputs thinker columns mask := by
      rw [← promptPrefix lengths own tokens,List.take_append_drop]
    have prefixed : (denseInputs thinker (tokenColumns prefixIds)).length = prefixLen := by
      simp [denseInputs,tokenColumns,length]
    have new : RowInputs embeds (positionIds.columns prefixLen (inputIds.width-prefixLen)) i
        ((promptInputs thinker columns mask).drop prefixLen) := {
      hidden := by
        rw [List.map_drop,hiddens,embedRows,List.getElem?_map,List.getElem?_map,found,← List.map_drop]
        rfl
      positions := by
        have rope : positionIds.rows[i]? = some (ropeRow mask) := by
          rw [ropeRows,List.getElem?_map,masked]
          rfl
        rw [Grid.columnsRow _ _ rope,List.map_drop,positions,List.take_of_length_le]
        rw [List.length_drop,ropeLength,Grid.rowLength masked,full.maskWidth]}
    have inside : i < inputIds.rows.length := (List.getElem?_eq_some_iff.mp row).1
    have result := forwardEmbedsRow ran (cached i inside) new masked (by rw [all,bits]) (by rw [prefixed,holds.counted])
    rw [all,prefixed] at result
    exact result

end Remainder

section Runs
variable {thinker : CausalThinker φ η κ} {inputIds attentionMask : Grid Nat} {opts : GreedyGenerateBatchOpts φ}
  {templates t : Templates κ} {logits : Grid Nat} {promptLens : List Int} {next : List Nat} {p : EagerPrefilled κ}

theorem gatherOk {batch seqLen : Nat} {last : List (Nat × Nat)} :
    gatherLastLogitsForPromptLens batch seqLen promptLens = .ok last ↔ promptLens.length = batch ∧
      (∀ q ∈ promptLens.zipIdx, 0 < q.1 ∧ q.1.toNat ≤ seqLen ∧ q.2*seqLen+(q.1.toNat-1) < 2^32) ∧
      promptLens.zipIdx.map (fun q => (q.2,q.1.toNat-1)) = last := by
  have each (q : Int × Nat) (out : Nat × Nat) : (if q.1 ≤ 0 then
        Except.error s!"prompt length must be > 0 at batch index {q.2}: {q.1}"
      else
        let len := q.1.toNat
        if seqLen < len then
          .error s!"prompt length exceeds seq_len at batch index {q.2}: len={len} seq_len={seqLen}"
        else do
          let flat ← okOr ((checkedMul q.2 seqLen).bind (checkedAdd · (len-1)))
            s!"gather index overflow for batch index {q.2}"
          let _ ← okOr (u32TryFrom flat) s!"gather index overflows u32 at batch index {q.2}: {flat}"
          .ok (q.2,len-1)) = .ok out ↔
      (0 < q.1 ∧ q.1.toNat ≤ seqLen ∧ q.2*seqLen+(q.1.toNat-1) < 2^32) ∧ (q.2,q.1.toNat-1) = out := by
    split
    · next low => simp [Int.not_lt.mpr low]
    · next positive =>
      dsimp only
      split
      · next long => simp [Nat.not_le.mpr long]
      · next within =>
        simp only [exceptBind,okOrOk,Option.bind_eq_some_iff,checkedMulSome,checkedAddSome,u32TryFromSome]
        constructor
        · rintro ⟨flat,⟨_,⟨_,rfl⟩,_,rfl⟩,_,⟨fits,_⟩,same⟩
          exact ⟨⟨Int.not_le.mp positive,Nat.not_lt.mp within,fits⟩,Except.ok.inj same⟩
        · rintro ⟨⟨_,_,fits⟩,same⟩
          exact ⟨_,⟨_,⟨by omega,rfl⟩,by omega,rfl⟩,_,⟨fits,rfl⟩,congrArg Except.ok same⟩
  unfold gatherLastLogitsForPromptLens
  split
  · next other => simp [other]
  · next same =>
    simp only [exceptMapChecked fun q _ => each q]
    exact ⟨fun made => ⟨not_not.mp same,made⟩,And.right⟩

theorem nextIdsOk : nextIdsAt logits promptLens = .ok next ↔ promptLens.length = logits.rows.length ∧
    (∀ q ∈ promptLens.zipIdx, 0 < q.1 ∧ q.1.toNat ≤ logits.width ∧ q.2*logits.width+(q.1.toNat-1) < 2^32) ∧
    promptLens.zipIdx.map (fun q => (logits.rows.getD q.2 []).getD (q.1.toNat-1) 0) = next := by
  unfold nextIdsAt
  simp only [exceptBind,gatherOk,Except.ok.injEq]
  constructor
  · rintro ⟨_,⟨counted,fits,rfl⟩,made⟩
    exact ⟨counted,fits,by rw [← made,List.map_map]; rfl⟩
  · rintro ⟨counted,fits,made⟩
    exact ⟨_,⟨counted,fits,rfl⟩,by rw [← made,List.map_map]; rfl⟩

theorem promptLenEach (mask : List Nat) (seqLen i : Nat) (len : Int) : (match promptLenFromLeftPaddedMask mask seqLen with
    | .ok len => .ok len
    | .error e => .error s!"failed to compute prompt length for attention_mask[{i}]: {e}" : Except String Int) =
      .ok len ↔ (mask.length = seqLen ∧ validLen mask < 2^63) ∧ (validLen mask : Int) = len := by
  unfold promptLenFromLeftPaddedMask
  dsimp only
  split
  · next found =>
    split at found
    · cases found
    · next same =>
      obtain ⟨small,rfl⟩ := i64TryFromSome.mp (okOrOk.mp found)
      rw [Except.ok.injEq]
      exact ⟨fun here => ⟨⟨not_not.mp same,small⟩,here⟩,And.right⟩
  · next failed =>
    split at failed
    · next other => simp [other]
    · unfold okOr i64TryFrom at failed
      split at failed
      · cases failed
      · next large =>
        split at large
        · cases large
        · next past => exact ⟨fun made => (by cases made),fun fits => absurd fits.1.2 past⟩

theorem promptLensAll {masks : List (List Nat)} {seqLen : Nat} :
    promptLensFromAttentionMasks masks seqLen = .ok promptLens ↔
      (∀ mask ∈ masks, mask.length = seqLen ∧ validLen mask < 2^63) ∧ masks.map (fun mask => (validLen mask : Int)) = promptLens :=
  exceptMapIdxChecked fun mask i _ => promptLenEach mask seqLen i

theorem promptLensOk {masks : List (List Nat)} {seqLen : Nat}
    (ok : promptLensFromAttentionMasks masks seqLen = .ok promptLens) :
    promptLens = masks.map fun mask => (validLen mask : Int) := (promptLensAll.mp ok).2.symm

structure FullRun (thinker : CausalThinker φ η κ) (inputIds attentionMask : Grid Nat) (opts : GreedyGenerateBatchOpts φ)
    (templates : Templates κ) (p : EagerPrefilled κ) (t : Templates κ) : Prop where
  reserves : inputIds.width+opts.maxNewTokens < 2^64
  ran : ∃ logits, fullPrefill thinker inputIds attentionMask opts.audioFeatures
      (withMaxSeqLen thinker.layers.length (inputIds.width+opts.maxNewTokens)) = .ok (logits,p.cache) ∧
    nextIdsAt logits p.promptLens = .ok p.nextIds
  lens : promptLensFromAttentionMasks attentionMask.rows inputIds.width = .ok p.promptLens
  stored : storePrefix thinker inputIds attentionMask opts.audioFeatures p.cache templates = .ok () t

theorem kvCacheOk {seqLen maxNewTokens : Nat} {cache : KVCache κ} :
    kvCacheForGeneration thinker seqLen maxNewTokens = .ok cache ↔
      seqLen+maxNewTokens < 2^64 ∧ withMaxSeqLen thinker.layers.length (seqLen+maxNewTokens) = cache := by
  unfold kvCacheForGeneration
  simp only [exceptBind,okOrOk,checkedAddSome,Except.ok.injEq]
  constructor
  · rintro ⟨_,⟨small,rfl⟩,same⟩
    exact ⟨small,same⟩
  · rintro ⟨small,same⟩
    exact ⟨_,⟨small,rfl⟩,same⟩

theorem prefillFull (absent : cachedPrefix thinker inputIds attentionMask opts.audioFeatures templates = none)
    (ok : prefillBatch thinker inputIds attentionMask opts templates = .ok p t) :
    FullRun thinker inputIds attentionMask opts templates p t := by
  obtain ⟨cache,s,first,ok⟩ := bindOk.mp ok
  obtain ⟨reserves,rfl⟩ := attemptOk.mp first
  obtain ⟨lens,s,second,ok⟩ := bindOk.mp ok
  obtain ⟨counts,rfl⟩ := attemptOk.mp second
  rw [bindThen (getRun templates),absent] at ok
  obtain ⟨small,rfl⟩ := kvCacheOk.mp reserves
  obtain ⟨⟨logits,cache⟩,s,third,ok⟩ := bindOk.mp ok
  obtain ⟨ran,rfl⟩ := attemptOk.mp third
  obtain ⟨_,s,stored,ok⟩ := bindOk.mp ok
  obtain ⟨next,s,last,ok⟩ := bindOk.mp ok
  obtain ⟨picked,rfl⟩ := attemptOk.mp last
  cases ok
  exact ⟨small,⟨logits,ran,picked⟩,counts,stored⟩

theorem storeAnywhere {cache : KVCache κ} {start u : Templates κ}
    (stored : storePrefix thinker inputIds attentionMask opts.audioFeatures cache start = .ok () u) :
    ∃ t, storePrefix thinker inputIds attentionMask opts.audioFeatures cache templates = .ok () t := by
  unfold storePrefix at stored ⊢
  by_cases positive : 0 < prefixLenOf thinker inputIds attentionMask opts.audioFeatures
  · rw [if_pos positive] at stored ⊢
    obtain ⟨template,s,first,_⟩ := bindOk.mp stored
    exact ⟨_,bindOk.mpr ⟨template,templates,attemptOk.mpr ⟨(attemptOk.mp first).1,rfl⟩,rfl⟩⟩
  · rw [if_neg positive]
    exact ⟨_,rfl⟩

theorem prefillFullGoes {start u : Templates κ} (run : FullRun thinker inputIds attentionMask opts start p u)
    (absent : cachedPrefix thinker inputIds attentionMask opts.audioFeatures templates = none) :
    ∃ t, prefillBatch thinker inputIds attentionMask opts templates = .ok p t := by
  obtain ⟨logits,ran,picked⟩ := run.ran
  obtain ⟨t,stored⟩ : ∃ t, storePrefix thinker inputIds attentionMask opts.audioFeatures p.cache templates = .ok () t :=
    storeAnywhere run.stored
  have whole : wholePrefill thinker inputIds attentionMask opts.audioFeatures
      (withMaxSeqLen thinker.layers.length (inputIds.width+opts.maxNewTokens)) p.promptLens templates = .ok p t :=
    bindOk.mpr ⟨(logits,p.cache),_,attemptOk.mpr ⟨ran,rfl⟩,bindOk.mpr ⟨(),t,stored,
      bindOk.mpr ⟨p.nextIds,t,attemptOk.mpr ⟨picked,rfl⟩,rfl⟩⟩⟩
  refine ⟨t,?_⟩
  unfold prefillBatch
  rw [attemptThen (kvCacheOk.mpr ⟨run.reserves,rfl⟩),attemptThen run.lens,bindThen (getRun templates),absent]
  exact whole

/- Every kept template is the one of its prefix. -/
def Valid (thinker : CausalThinker φ η κ) (templates : Templates κ) : Prop :=
  ∀ prefixIds template, templates prefixIds = some template → TemplateFor thinker prefixIds template

theorem sharedOf (positive : 0 < prefixLenOf thinker inputIds attentionMask opts.audioFeatures) :
    SharedPrefix thinker.audioTokenId (prefixLenOf thinker inputIds attentionMask opts.audioFeatures)
      (prefixIdsOf thinker inputIds attentionMask opts.audioFeatures) inputIds.rows attentionMask.rows := by
  have found : commonAudioPrefixLen inputIds.rows attentionMask.rows thinker.audioTokenId =
      prefixLenOf thinker inputIds attentionMask opts.audioFeatures := by
    unfold prefixLenOf at positive ⊢
    split at positive
    · next some => rw [if_pos some]
    · exact absurd positive (Nat.not_lt_zero 0)
  exact commonPrefix found positive

theorem validStore {cache : KVCache κ} (full : FullOk thinker inputIds attentionMask opts.audioFeatures logits cache) :
    Within (Keeps (Valid thinker)) (storePrefix thinker inputIds attentionMask opts.audioFeatures cache) := by
  unfold storePrefix
  dsimp only
  split
  · next positive =>
    intro templates valid
    rw [afterAttempt]
    split
    · next template cut =>
      intro prefixIds other found
      change Function.update templates _ (some template) prefixIds = some other at found
      rw [Function.update_apply] at found
      split at found
      · next same =>
        cases found
        rw [same]
        exact templateStored full (sharedOf positive) cut
      · exact valid prefixIds other found
    · exact valid
  · exact withinPure ()

theorem validKept : Within (Keeps (Valid thinker)) (prefillBatch thinker inputIds attentionMask opts) := by
  intro templates
  unfold prefillBatch
  rw [afterAttempt]
  split
  · next cache reserves =>
    obtain ⟨_,rfl⟩ := kvCacheOk.mp reserves
    refine withinBind (withinAttempt _) (fun promptLens => withinGetBind fun s => ?_) templates
    split
    · exact withinAttempt _
    · unfold wholePrefill
      intro templates
      rw [afterAttempt]
      split
      · next ran =>
        exact withinBind (validStore (fullPrefillOk ran))
          (fun _ => withinBind (withinAttempt _) fun _ => withinPure _) templates
      · exact id
  · exact id

theorem prefixBefore {audioTokenId prefixLen : Nat} {prefixIds ids mask : List Nat}
    (own : RowPrefix audioTokenId prefixLen prefixIds ids mask) : prefixLen < validLen mask := by
  have front : validLen (mask.take (prefixLen+1)) = prefixLen+1 := by
    rw [validLen,List.countP_eq_length.mpr,List.length_take]
    · have := own.inMask
      omega
    · intro m inside
      obtain ⟨j,bound,rfl⟩ := List.mem_take_iff_getElem.mp inside
      refine decide_eq_true ?_
      rcases Nat.lt_or_ge j prefixLen with before | here
      · exact own.valid _ (List.mem_take_iff_getElem.mpr ⟨j,by omega,rfl⟩)
      · obtain rfl : j = prefixLen := by omega
        exact own.placeholder
  have whole : validLen (mask.take (prefixLen+1)) ≤ validLen mask := by
    unfold validLen
    exact (List.take_sublist _ _).countP_le
  omega

structure SamePrefill (thinker : CausalThinker φ η κ) (batch : Nat) (p q : EagerPrefilled κ) : Prop where
  nextIds : q.nextIds = p.nextIds
  promptLens : q.promptLens = p.promptLens
  seqLen : q.cache.seqLen = p.cache.seqLen
  keys : ∀ m, m < thinker.layers.length → ∀ i, i < batch → rowKeys q.cache m i = rowKeys p.cache m i

theorem shiftedNext {prefixLen : Nat} {prefixIds : List Nat} {logits' : Grid Nat} {cache cache' : KVCache κ}
    (full : FullOk thinker inputIds attentionMask opts.audioFeatures logits cache)
    (shared : SharedPrefix thinker.audioTokenId prefixLen prefixIds inputIds.rows attentionMask.rows)
    (batch : logits'.rows.length = inputIds.rows.length) (width : logits'.width = inputIds.width-prefixLen)
    (rows : RowsPrefilled thinker inputIds attentionMask opts.audioFeatures prefixLen logits' cache')
    (picked : nextIdsAt logits (attentionMask.rows.map fun mask => (validLen mask : Int)) = .ok next) :
    nextIdsAt logits' ((attentionMask.rows.map fun mask => (validLen mask : Int)).map (· - (prefixLen : Int))) =
      .ok next := by
  obtain ⟨counted,fits,made⟩ := nextIdsOk.mp picked
  have rowFacts (q : Int × Nat) (inside : q ∈ (attentionMask.rows.map fun mask => (validLen mask : Int)).zipIdx) :
      ∃ mask columns ids, q.1 = validLen mask ∧ prefixLen < validLen mask ∧ attentionMask.rows[q.2]? = some mask ∧
        (columnsOf thinker.audioTokenId opts.audioFeatures inputIds.rows)[q.2]? = some columns ∧
        RowPrefix thinker.audioTokenId prefixLen prefixIds ids mask := by
    have there := List.mem_zipIdx_iff_getElem?.mp inside
    rw [List.getElem?_map] at there
    obtain ⟨mask,masked,same⟩ := Option.map_eq_some_iff.mp there
    have bound : q.2 < (columnsOf thinker.audioTokenId opts.audioFeatures inputIds.rows).length := by
      rw [columnsCount,← shared.counted]
      exact (List.getElem?_eq_some_iff.mp masked).1
    obtain ⟨ids,mask',_,masked',own,_⟩ := sharedColumns shared (List.getElem?_eq_getElem bound)
    cases masked.symm.trans masked'
    exact ⟨mask,_,ids,same.symm,prefixBefore own,masked,List.getElem?_eq_getElem bound,own⟩
  refine nextIdsOk.mpr ⟨by rw [List.length_map,counted,full.logitRows,batch],fun q inside => ?_,?_⟩
  · rw [List.zipIdx_map] at inside
    obtain ⟨⟨len,i⟩,before,rfl⟩ := List.mem_map.mp inside
    obtain ⟨mask,_,_,rfl,longer,_⟩ := rowFacts _ before
    obtain ⟨_,within,small⟩ := fits _ before
    rw [full.logitWidth] at within small
    dsimp only [Prod.map,id] at within small ⊢
    rw [width]
    have columns : i*(inputIds.width-prefixLen) ≤ i*inputIds.width := Nat.mul_le_mul_left _ (Nat.sub_le _ _)
    omega
  · rw [List.zipIdx_map,List.map_map,← made]
    refine List.map_congr_left fun q inside => ?_
    obtain ⟨mask,columns,ids,same,longer,masked,found,_⟩ := rowFacts q inside
    have whole := (full.rows q.2 columns mask found masked).2
    have rest := (rows q.2 columns mask found masked).2
    have column : prefixLen+(((validLen mask : Int)-prefixLen).toNat-1) = validLen mask-1 := by omega
    simp only [Function.comp_apply,Prod.map,id,List.getD_eq_getElem?_getD,whole,rest,same,Option.getD_some,
      List.drop_zero,List.getElem?_drop,column,Int.toNat_natCast]

theorem resumedGoes {u : Templates κ} {template : KVCache κ} (valid : Valid thinker templates)
    (run : FullRun thinker inputIds attentionMask opts u p t)
    (present : cachedPrefix thinker inputIds attentionMask opts.audioFeatures templates = some template) :
    ∃ q, resumedPrefill thinker inputIds attentionMask opts.audioFeatures template p.promptLens = .ok q ∧
      SamePrefill thinker inputIds.rows.length p q := by
  unfold cachedPrefix at present
  split at present
  · next positive =>
    have shared := sharedOf positive
    have made := valid _ _ present
    obtain ⟨logits,ran,picked⟩ := run.ran
    have full := fullPrefillOk ran
    obtain ⟨logits',cache',resumed,batch,width,holds,rows⟩ := remainderGoes full shared made
    have lens := promptLensOk run.lens
    rw [lens] at picked
    have next := shiftedNext full shared batch width rows picked
    have present (i : Nat) (inside : i < inputIds.rows.length) :
        ∃ columns, (columnsOf thinker.audioTokenId opts.audioFeatures inputIds.rows)[i]? = some columns :=
      ⟨_,List.getElem?_eq_getElem (by rw [columnsCount]; exact inside)⟩
    have several := shared.several
    obtain ⟨_,first⟩ := present 0 (by omega)
    obtain ⟨ids,_,row,_,own,_⟩ := sharedColumns shared first
    have inIds := own.inIds
    rw [Grid.rowLength row] at inIds
    have small := full.small (by omega)
    have prefixI64 := i64TryFromSome.mpr ⟨show prefixLenOf thinker inputIds attentionMask opts.audioFeatures < 2^63 by omega,rfl⟩
    refine ⟨⟨cache',p.promptLens,p.nextIds⟩,?_,rfl,rfl,?_,fun m bound i inside => ?_⟩
    · refine exceptBind.mpr ⟨(logits',cache'),resumed,exceptBind.mpr ⟨_,okOrOk.mpr prefixI64,?_⟩⟩
      rw [lens]
      exact exceptBind.mpr ⟨p.nextIds,next,rfl⟩
    · exact holds.counted.trans full.holds.counted.symm
    · obtain ⟨columns,found⟩ := present i inside
      obtain ⟨_,mask,_,masked,_,_⟩ := sharedColumns shared found
      rw [(full.rows i columns mask found masked).1 m bound]
      exact (rows i columns mask found masked).1 m bound
  · cases present

structure PrefillCall (φ : Type) where
  inputIds : Grid Nat
  attentionMask : Grid Nat
  opts : GreedyGenerateBatchOpts φ

def templatesAfter (thinker : CausalThinker φ η κ) (earlier : List (PrefillCall φ)) : Templates κ :=
  earlier.foldl (fun templates call => after (prefillBatch thinker call.inputIds call.attentionMask call.opts templates))
    fun _ => none

theorem validAfter (thinker : CausalThinker φ η κ) (earlier : List (PrefillCall φ)) :
    Valid thinker (templatesAfter thinker earlier) := by
  unfold templatesAfter
  have kept (templates : Templates κ) (valid : Valid thinker templates) : Valid thinker (earlier.foldl
      (fun templates call => after (prefillBatch thinker call.inputIds call.attentionMask call.opts templates))
      templates) := by
    induction earlier generalizing templates with
    | nil => exact valid
    | cons call earlier ih => exact ih _ (validKept templates valid)
  exact kept _ fun _ _ found => by cases found

/-- After any history of calls, a batch is prefilled as if no prefix had ever been kept. -/
theorem prefixReuse (earlier : List (PrefillCall φ))
    (ok : prefillBatch thinker inputIds attentionMask opts (fun _ => none) = .ok p t) :
    ∃ q u, prefillBatch thinker inputIds attentionMask opts (templatesAfter thinker earlier) = .ok q u ∧
      SamePrefill thinker inputIds.rows.length p q := by
  have absent : cachedPrefix thinker inputIds attentionMask opts.audioFeatures (fun _ => none) = none := by
    unfold cachedPrefix
    split <;> rfl
  have run := prefillFull absent ok
  cases found : cachedPrefix thinker inputIds attentionMask opts.audioFeatures (templatesAfter thinker earlier) with
  | none =>
    obtain ⟨u,same⟩ := prefillFullGoes run found
    exact ⟨p,u,same,rfl,rfl,rfl,fun _ _ _ _ => rfl⟩
  | some template =>
    obtain ⟨q,resumed,same⟩ := resumedGoes (validAfter thinker earlier) run found
    refine ⟨q,templatesAfter thinker earlier,?_,same⟩
    unfold prefillBatch
    rw [attemptThen (kvCacheOk.mpr ⟨run.reserves,rfl⟩),attemptThen run.lens,bindThen (getRun _),found]
    exact attemptOk.mpr ⟨resumed,rfl⟩

end Runs

/- Two layers that add up what they attend to; a feature weighs more than a token. -/
def addingThinker : CausalThinker Nat Nat Nat where
  audioTokenId := 9
  embed c := c.audio.elim c.id (100 + ·)
  layers := [⟨fun h p => h+p.toNat,fun h _ keys => h+keys.sum⟩,⟨fun h p => 2*h+p.toNat,fun h _ keys => h+keys.sum⟩]
  deep := List.cons_ne_nil _ _
  pick h := h%10

def afterPrefix (width : Nat) (endings : List (List Nat)) : Option (Grid Nat × Grid Nat) := do
  let row (ending : List Nat) := [1,2,3,4,5,6,7,8,9] ++ ending
  let ids ← Grid.ofRows width (endings.map fun ending => (row ending ++ List.replicate width 0).take width)
  let masks ← Grid.ofRows width (endings.map fun ending =>
    (List.replicate (row ending).length 1 ++ List.replicate width 0).take width)
  some (ids,masks)

theorem prefixReuseThreeRows : ∃ ids masks ids' masks' p t q u,
    afterPrefix 10 [[3],[]] = some (ids,masks) ∧ afterPrefix 12 [[],[4,9,5],[6]] = some (ids',masks') ∧
    (templatesAfter addingThinker [⟨ids,masks,some [5,6],4,[0]⟩] [1,2,3,4,5,6,7,8]).isSome = true ∧
    prefillBatch addingThinker ids' masks' ⟨some [1,2,3,4],7,[0]⟩ (fun _ => none) = .ok p t ∧
    prefillBatch addingThinker ids' masks' ⟨some [1,2,3,4],7,[0]⟩
      (templatesAfter addingThinker [⟨ids,masks,some [5,6],4,[0]⟩]) = .ok q u ∧
    SamePrefill addingThinker 3 p q := by
  have small : ((afterPrefix 10 [[3],[]]).any fun b =>
      (templatesAfter addingThinker [⟨b.1,b.2,some [5,6],4,[0]⟩] [1,2,3,4,5,6,7,8]).isSome) = true := by decide +kernel
  have large : ((afterPrefix 12 [[],[4,9,5],[6]]).any fun b => b.1.rows.length = 3 ∧
      (returned (prefillBatch addingThinker b.1 b.2 ⟨some [1,2,3,4],7,[0]⟩ (fun _ => none))).isSome) = true := by
    decide +kernel
  obtain ⟨⟨ids,masks⟩,first,stored⟩ := (Option.any_eq_true _ _).mp small
  obtain ⟨⟨ids',masks'⟩,second,returns⟩ := (Option.any_eq_true _ _).mp large
  obtain ⟨rows,ran⟩ := of_decide_eq_true returns
  obtain ⟨p,found⟩ := Option.isSome_iff_exists.mp ran
  obtain ⟨t,ok⟩ := returnedSome.mp found
  obtain ⟨q,u,resumed,same⟩ := prefixReuse [⟨ids,masks,some [5,6],4,[0]⟩] ok
  exact ⟨ids,masks,ids',masks',p,t,q,u,first,second,stored,ok,resumed,rows ▸ same⟩

end Qwen3Asr.PrefixReuse
