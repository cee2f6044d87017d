import Qwen3Asr.CacheWriters
import Qwen3Asr.PrefillMetadata

/-! The slots that the calls of the engine write. A prefill fills the first slots of each row's table,
packed or padded; a decode step writes each row's next one. -/
namespace Qwen3Asr.CallSlots
open Library.Holding Library.Effect Library.Word
open BlockManager PagedMetadata PromptPositions BatchEngine DecodeOutcome PrefillOutcome CallHistory PrefillMetadata
open CacheWriters

variable {φ : Type}

section Prompts
variable {cache : PagedKvCache} {blockTables : List (List Nat)} {lens : List Nat} {metadata : PagedInputMetadata}

structure PromptSlots (cache : PagedKvCache) (blockTables : List (List Nat)) (lens : List Nat)
    (metadata : PagedInputMetadata) : Prop where
  tables : blockTables.length = lens.length
  slots : metadata.slotMapping.filter (· ≠ padSlotId) = ((lens.zip blockTables).map (rowSlots cache)).flatten
  fits : ∀ p ∈ lens.zip blockTables, ∀ position < p.1, SlotFits cache p.2 position
  blockTables : metadata.blockTables = paddedTables blockTables
  contexts : metadata.contextLens = lens

theorem totalPositive {total : Nat} {n : Nat} (ok : totalTokens total lens = .ok n) : ∀ len ∈ lens, 0 < len := by
  induction lens generalizing total with
  | nil => simp
  | cons len rest ih =>
    unfold totalTokens at ok
    split at ok <;> try contradiction
    rename_i some_
    obtain ⟨_,_,ok⟩ := exceptBind.mp ok
    exact List.forall_mem_cons.mpr ⟨Nat.pos_of_ne_zero some_,ih ok⟩

theorem packedPositive (ok : inputMetadataFromQueryLens cache blockTables lens = .ok metadata) : ∀ len ∈ lens, 0 < len := by
  unfold inputMetadataFromQueryLens at ok
  dsimp only at ok
  split at ok <;> try contradiction
  split at ok <;> try contradiction
  split at ok <;> try contradiction
  obtain ⟨_,counted,_⟩ := exceptBind.mp ok
  exact totalPositive counted

theorem rowsKept (rows : List (Nat × List Nat)) :
    ((rows.map (rowSlots cache)).flatten).filter (· ≠ padSlotId) = (rows.map (rowSlots cache)).flatten := by
  refine List.filter_eq_self.mpr fun slot inside => ?_
  obtain ⟨row,there,member⟩ := List.mem_flatten.mp inside
  obtain ⟨p,_,rfl⟩ := List.mem_map.mp there
  obtain ⟨position,_,rfl⟩ := List.mem_map.mp member
  exact decide_eq_true (slotNeverPad position)

theorem packedSlots (ok : inputMetadataFromQueryLens cache blockTables lens = .ok metadata) :
    PromptSlots cache blockTables lens metadata := by
  obtain ⟨fits,varlen,_,rfl⟩ := (packedOk (packedPositive ok)).mp ok
  exact ⟨fits.tables,rowsKept _,fits.slots,rfl,rfl⟩

theorem maskedBits {mask : List Nat} {seq : Nat} {table : List Nat} :
    (mask.map fun m => if m = 0 then 0 else 1).zipIdx.mapM (maskedSlot cache seq table) =
      mask.zipIdx.mapM (maskedSlot cache seq table) := by
  rw [List.zipIdx_map,List.mapM_map]
  congr 1
  funext p
  by_cases zero : p.1 = 0 <;> simp [maskedSlot,Prod.map,zero]

theorem maskedLive {mask table : List Nat} {seq : Nat} {row : List Int} (padded : attentionMaskIsRightPadded mask = true)
    (ok : mask.zipIdx.mapM (maskedSlot cache seq table) = .ok row) :
    (∀ position < validLen mask, SlotFits cache table position) ∧
      row.filter (· ≠ padSlotId) = rowSlots cache (validLen mask,table) := by
  obtain ⟨valid,pads,rfl,nonzero,zero⟩ := rightPaddedParts.mp padded
  have bits : (valid ++ pads).map (fun m => if m = 0 then 0 else 1) =
      List.replicate valid.length 1 ++ List.replicate pads.length 0 := by
    rw [List.map_append,List.map_eq_replicate_iff.mpr fun m inside => if_neg (nonzero m inside),
      List.map_eq_replicate_iff.mpr fun m inside => if_pos (zero m inside)]
  rw [← maskedBits,bits] at ok
  obtain ⟨fits,rfl⟩ := maskedRow.mp ok
  rw [validLenAppend nonzero zero]
  exact ⟨fits,paddingDropped cache (valid.length,table) pads.length⟩

theorem maskedSlots {masks : List (List Nat)} (padded : ∀ mask ∈ masks, attentionMaskIsRightPadded mask = true)
    (ok : inputMetadataFromAttentionMasks cache blockTables masks = .ok metadata) :
    PromptSlots cache blockTables (masks.map validLen) metadata := by
  obtain ⟨slots,read⟩ := maskedRead ok
  have rows : List.Forall₂ (fun (p : List Nat × List Nat) (row : List Int) =>
      (∀ position < validLen p.1, SlotFits cache p.2 position) ∧
        row.filter (· ≠ padSlotId) = rowSlots cache (validLen p.1,p.2)) (masks.zip blockTables) slots := by
    refine List.forall₂_iff_get.mpr ⟨by rw [List.length_zip,read.rows,read.tables,Nat.min_self],fun i bound bound' => ?_⟩
    have both := List.getElem?_zip_eq_some.mp (List.getElem?_eq_getElem bound)
    obtain ⟨_,row,found,each⟩ := read.row both.1 both.2
    rw [List.getElem?_eq_getElem bound'] at found
    cases found
    exact maskedLive (padded _ (List.mem_of_getElem? both.1)) each
  have firsts : (masks.map validLen).zip blockTables = (masks.zip blockTables).map fun p => (validLen p.1,p.2) :=
    List.zip_map_left ..
  refine ⟨by rw [read.tables,List.length_map],?_,?_,?_,?_⟩
  · rw [read.slotMapping,List.filter_flatten,firsts,List.map_map]
    refine congrArg List.flatten ?_
    exact (pairedMap (rows.imp fun _ _ both => both.2.symm)).symm
  · rw [firsts]
    refine List.forall_mem_map.mpr fun p inside => ?_
    obtain ⟨row,_,fits,_⟩ := pairedMem rows inside
    exact fits
  all_goals
    unfold inputMetadataFromAttentionMasks at ok
    dsimp only at ok
    split at ok <;> try contradiction
    split at ok <;> try contradiction
    split at ok <;> try contradiction
    split at ok <;> try contradiction
    obtain ⟨made,placed,ok⟩ := exceptBind.mp ok
    obtain ⟨host,hostOk,ok⟩ := exceptBind.mp ok
    obtain ⟨_,_,ok⟩ := exceptBind.mp ok
    cases ok
  · exact (blockTableHostOk.mp hostOk).2.symm
  · have pairs := exceptMapM.mp placed
    have each : List.Forall₂ (fun (p : (List Nat × List Nat) × Nat) (row : List Int × Nat) => validLen p.1.1 = row.2)
        (masks.zip blockTables).zipIdx made := pairs.imp fun p row built => by
      obtain ⟨⟨mask,table⟩,seq⟩ := p
      dsimp only at built
      split at built <;> try contradiction
      obtain ⟨_,_,built⟩ := exceptBind.mp built
      obtain ⟨_,context,built⟩ := exceptBind.mp built
      cases built
      exact (u32TryFromSome.mp (okOrOk.mp context)).2
    have firsts : (masks.zip blockTables).zipIdx.map (fun p => validLen p.1.1) =
        ((masks.zip blockTables).map Prod.fst).map validLen := by
      rw [List.map_map,← List.zipIdx_map_fst 0 (masks.zip blockTables),List.map_map]
      simp [Function.comp_def]
    change made.map Prod.snd = masks.map validLen
    rw [← pairedMap each,firsts,List.map_fst_zip (by rw [read.tables])]

end Prompts

section Calls
variable {m : PagedBlockManager} {cache : PagedKvCache} {call : ForwardCall φ} {requestIds lens : List Nat}
  {blockTables : List (List Nat)}

theorem zipTables (f : Nat → List Nat) : lens.zip (requestIds.map f) = (requestIds.zip lens).map fun p => (p.2,f p.1) := by
  induction requestIds generalizing lens with
  | nil => simp
  | cons k ks ih =>
    cases lens with
    | nil => rfl
    | cons len lens => rw [List.map_cons,List.zip_cons_cons,List.zip_cons_cons,List.map_cons,ih]

theorem promptWriters (queries : call.metadata.queryLens = some lens) : writers call =
    ((call.requestIds.zip lens).map fun p => (List.range p.2).map (Writer.mk p.1)).flatten := by
  rw [writers,queries]
  exact List.flatMap_def

theorem promptWriter (queries : call.metadata.queryLens = some lens) {w : Writer} :
    w ∈ writers call ↔ ∃ len, (w.requestId,len) ∈ call.requestIds.zip lens ∧ w.position < len := by
  rw [promptWriters queries]
  simp only [List.mem_flatten,List.mem_map,Prod.exists]
  constructor
  · rintro ⟨_,⟨k,len,inside,rfl⟩,member⟩
    obtain ⟨p,less,rfl⟩ := List.mem_map.mp member
    exact ⟨len,inside,List.mem_range.mp less⟩
  · rintro ⟨len,inside,less⟩
    exact ⟨_,⟨_,len,inside,rfl⟩,List.mem_map.mpr ⟨w.position,List.mem_range.mpr less,rfl⟩⟩

theorem promptOnce (queries : call.metadata.queryLens = some lens) (counted : call.requestIds.length = lens.length)
    (once : call.requestIds.Nodup) : (writers call).Nodup := by
  rw [writers,queries]
  refine List.nodup_flatMap.mpr ⟨fun p _ => ?_,?_⟩
  · exact List.nodup_range.map fun i j same => congrArg Writer.position same
  · have firsts : ((call.requestIds.zip lens).map Prod.fst).Nodup := by
      rwa [List.map_fst_zip (by rw [counted])]
    rw [List.Nodup,List.pairwise_map] at firsts
    refine firsts.imp fun {p q} apart w left right => ?_
    obtain ⟨_,_,rfl⟩ := List.mem_map.mp left
    obtain ⟨_,_,same⟩ := List.mem_map.mp right
    exact apart (congrArg Writer.requestId same).symm

theorem promptPlaced (prompt : PromptSlots cache blockTables lens call.metadata)
    (queries : call.metadata.queryLens = some lens) (once : call.requestIds.Nodup)
    (read : blockTablesFor m call.requestIds = .ok blockTables) : CallPlaced m cache.blockSize call where
  once := promptOnce queries (by rw [← prompt.tables,blockTablesForOk read,List.length_map]) once
  each := by
    have tables := blockTablesForOk read
    rw [liveSlots,prompt.slots,promptWriters queries,tables,zipTables,List.map_map]
    refine List.rel_flatten (List.forall₂_map_left_iff.mpr (List.forall₂_map_right_iff.mpr ?_))
    refine List.forall₂_same.mpr fun p inside => ?_
    refine List.forall₂_map_left_iff.mpr (List.forall₂_map_right_iff.mpr (List.forall₂_same.mpr fun position less => ?_))
    have there : (p.2,table m p.1) ∈ lens.zip blockTables := by
      rw [tables,zipTables]
      exact List.mem_map_of_mem inside
    have fits := prompt.fits _ there position (List.mem_range.mp less)
    have granted := fits.granted
    exact ⟨_,rfl,_,List.getElem?_eq_getElem granted,by simp [List.getD_eq_getElem?_getD,granted]⟩
  tables i requestId found := by
    refine ⟨List.replicate (maxBlocks blockTables-(table m requestId).length) 0,?_⟩
    rw [prompt.blockTables,paddedTables,List.getD_eq_getElem?_getD,List.getElem?_map,tableAt read found]
    rfl

end Calls

section Prefill
variable {thinker : Thinker φ} {inputIds attentionMask : List (List Nat)} {audioFeatures : Option (List φ)}
  {config : PagedBatchConfig} {r t : PagedCacheRuntime φ} {state : PagedBatchState}

theorem rowsPadded {seqLen : Nat} {rows : List PromptRow} (ok : promptRows inputIds attentionMask config = .ok (seqLen,rows)) :
    ∀ row ∈ rows, attentionMaskIsRightPadded row.mask = true := by
  obtain ⟨_,_,_,_,_,⟨padded,rfl⟩ | ⟨_,same,normalized,normal,rfl⟩⟩ := promptRowsParts ok
  · exact List.forall_mem_map.mpr fun p inside => List.all_eq_true.mp padded _ (List.of_mem_zip inside).2
  · unfold normalizeBatchForPagedPrefill at normal
    rw [if_neg (not_not.mpr same)] at normal
    refine List.forall_mem_map.mpr fun p inside => ?_
    obtain ⟨_,_,made⟩ := pairedSource (exceptMapM.mp normal) inside
    rw [(normalizedRow made).2]
    exact rightPaddedParts.mpr ⟨_,_,rfl,by simp [List.mem_replicate],by simp [List.mem_replicate]⟩

theorem prefillSlots (p : PrefillOk thinker inputIds attentionMask audioFeatures config r state t) :
    PromptSlots r.cache p.blockTables (p.rows.map PromptRow.len) p.prefilled.call.metadata := by
  have made := p.call
  unfold prefillCall at made
  dsimp only at made
  obtain ⟨_,_,made⟩ := exceptBind.mp made
  split at made
  · unfold packedPrefillCall at made
    dsimp only at made
    obtain ⟨_,_,made⟩ := exceptBind.mp made
    obtain ⟨_,_,made⟩ := exceptBind.mp made
    obtain ⟨metadata,built,made⟩ := exceptBind.mp made
    obtain ⟨_,_,made⟩ := exceptBind.mp made
    obtain ⟨_,_,made⟩ := exceptBind.mp made
    rw [← Except.ok.inj made]
    exact packedSlots built
  · unfold paddedPrefillCall at made
    dsimp only at made
    obtain ⟨_,_,made⟩ := exceptBind.mp made
    obtain ⟨metadata,built,made⟩ := exceptBind.mp made
    obtain ⟨_,_,made⟩ := exceptBind.mp made
    obtain ⟨_,_,made⟩ := exceptBind.mp made
    have masks : (p.rows.map PromptRow.mask).map validLen = p.rows.map PromptRow.len := by
      rw [List.map_map]
      exact List.map_congr_left fun row inside => ((promptRowsOk p.checked).2 row inside).symm
    have slots := maskedSlots (List.forall_mem_map.mpr (rowsPadded p.checked)) built
    rw [masks] at slots
    rw [← Except.ok.inj made]
    dsimp only
    split
    · exact slots
    · exact ⟨slots.tables,slots.slots,slots.fits,slots.blockTables,slots.contexts⟩

theorem prefillIds (p : PrefillOk thinker inputIds attentionMask audioFeatures config r state t) :
    p.prefilled.call.requestIds.Nodup := by
  rw [(prefilledRow p).2.1]
  exact List.nodup_range.map fun i j same => Nat.add_left_cancel same

theorem prefillPlaced (p : PrefillOk thinker inputIds attentionMask audioFeatures config r state t) :
    CallPlaced p.m r.cache.blockSize p.prefilled.call := by
  have ids : p.prefilled.call.requestIds = p.requestIds := (prefillCallOk (promptRowsOk p.checked).2 p.call).1
  exact promptPlaced (prefillSlots p) (prefilledRow p).2.2.1 (prefillIds p) (ids ▸ p.read)

end Prefill

section Decode
variable {thinker : Thinker φ} {active : List PagedBatchRow} {blockTables : List (List Nat)} {step : Nat}
  {r : PagedCacheRuntime φ} {m : PagedBlockManager} {call : ForwardCall φ} {logits : Nat → Nat → Nat}

theorem decodeContexts (forward : Forwarded thinker active blockTables step r call logits) :
    call.metadata.contextLens = active.map fun row => row.promptLenUsize+step+1 := by
  obtain ⟨_,contexts,_,_⟩ := decodeMetadataLengths forward.metadata
  refine List.ext_getElem? fun i => ?_
  rw [List.getElem?_map]
  cases found : active[i]? with
  | none =>
    rw [List.getElem?_eq_none (by simpa [contexts] using found)]
    rfl
  | some row =>
    obtain ⟨_,_,_,context⟩ := decodeMetadataRow forward.metadata
      (show (active.map PagedBatchRow.promptLenUsize)[i]? = some row.promptLenUsize by simp [found])
    exact context

theorem decodeWriters (forward : Forwarded thinker active blockTables step r call logits) :
    writers call = active.map fun row => ⟨row.requestId,row.promptLenUsize+step⟩ := by
  rw [writers,decodeQueryLens forward.metadata,forward.ids,decodeContexts forward,List.zip_map',List.map_map]
  rfl

theorem forwardedPlaced (forward : Forwarded thinker active blockTables step r call logits)
    (once : (active.map PagedBatchRow.requestId).Nodup)
    (read : blockTablesFor m (active.map PagedBatchRow.requestId) = .ok blockTables) :
    CallPlaced m r.cache.blockSize call := by
  obtain ⟨slots,_,_,_⟩ := decodeMetadataLengths forward.metadata
  have each : List.Forall₂ (fun (slot : Int) w => ∃ s : Nat, slot = s ∧ Placed m r.cache.blockSize w s)
      call.metadata.slotMapping (active.map fun row => ⟨row.requestId,row.promptLenUsize+step⟩) := by
    refine List.forall₂_iff_get.mpr ⟨by simpa using slots,fun i bound bound' => ?_⟩
    have index : i < active.length := by simpa using bound'
    obtain ⟨slot,here,placed,_⟩ := decodeMetadataRow forward.metadata
      (show (active.map PagedBatchRow.promptLenUsize)[i]? = some active[i].promptLenUsize by simp [index])
    have own := tableAt read (show (active.map PagedBatchRow.requestId)[i]? = some active[i].requestId by simp [index])
    rw [List.getElem?_eq_getElem bound] at here
    cases here
    simpa using slotPlaced ((slotForBlockTablePositionOk own).mp placed)
  have live : liveSlots call = call.metadata.slotMapping := List.filter_eq_self.mpr fun slot inside => by
    obtain ⟨_,_,s,rfl,_⟩ := pairedMem each inside
    simp [padSlotId]
  refine ⟨?_,by rw [live,decodeWriters forward]; exact each,fun i requestId found => ?_⟩
  · rw [decodeWriters forward]
    refine List.Nodup.of_map Writer.requestId ?_
    rwa [List.map_map]
  · obtain ⟨_,hosts,_⟩ := decodeMetadataParts forward.metadata
    rw [forward.ids] at found
    rw [List.getD_eq_getElem?_getD,blockTableHostRow hosts (tableAt read found)]
    exact ⟨_,rfl⟩

end Decode

end Qwen3Asr.CallSlots
