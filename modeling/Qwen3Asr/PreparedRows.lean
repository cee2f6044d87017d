import Qwen3Asr.BatchPreparation

/-! Rows of a batch are generated each alone where the generator acts on rows without their padding:
how they are grouped again and padded makes no difference. With features padded after their
extraction, so is their preparation. -/
namespace Qwen3Asr.PreparedRows
open Library.Effect Library.Rowwise Library.Word
open PagedMetadata AudioNormalize FeatureExtractor Scheduler PromptBuilder BatchPreparation

variable {K : Type}

def unpadded (p : PreparedRow K) : List Nat × List (List K) :=
  (p.inputIds.take (preparedPromptLen p.toPreparedInputs),p.inputFeatures.map (·.take (realFrames p.featureAttentionMask)))

structure Shaped (frames : Nat) (p : PreparedRow K) : Prop where
  prompt : preparedPromptLen p.toPreparedInputs ≤ p.inputIds.length
  mel : p.inputFeatures.length = featureSize
  rows : ∀ row ∈ p.inputFeatures, row.length = frames
  masked : p.featureAttentionMask.length = frames

def Aligned (rows : List (PreparedRow K)) : Prop :=
  ∃ width frames, ∀ p ∈ rows, Shaped frames p ∧ p.inputIds.length = width ∧
    p.attentionMask = List.replicate (preparedPromptLen p.toPreparedInputs) 1 ++
      List.replicate (width-preparedPromptLen p.toPreparedInputs) 0

/- The answer for a row is a function of its prompt and frames without the padding. -/
def GeneratesByRow (processor : Processor K) : Prop :=
  ∃ row : List Nat × List (List K) → Except String (List Nat), ∀ rows : List (PreparedRow K), rows ≠ [] → Aligned rows →
    ∀ out, processor.generate (rows.map (·.inputFeatures)) (rows.map (realFrames ·.featureAttentionMask))
        (rows.map (·.inputIds)) (rows.map (·.attentionMask)) = .ok out ↔
      List.Forall₂ (fun p ids => row (unpadded p) = .ok ids) rows out

section Stacking
variable [Field K]

theorem maxSame {xs : List Nat} {n : Nat} (nonempty : xs ≠ []) (same : ∀ x ∈ xs, x = n) : maxOf xs = n := by
  obtain ⟨m,found⟩ : ∃ m, xs.max? = some m := Option.isSome_iff_exists.mp (List.isSome_max?_of_ne_nil nonempty)
  rw [maxOf,found]
  exact same m (List.max?_mem found)

theorem stackRowOk {frames : Nat} {p : PreparedRow K} (shaped : Shaped frames p) (varlen : Bool) (i : Nat) :
    stackRow varlen featureSize frames i p = .ok p.inputFeatures := by
  unfold stackRow
  rw [if_neg (not_not.mpr shaped.mel),if_neg (fun short => short.2 shaped.masked),exceptMapM]
  refine List.forall₂_same.mpr fun row inside => ?_
  have counted := shaped.rows row inside
  cases varlen <;> simp [counted]

theorem stackOk {frames : Nat} {rows : List (PreparedRow K)} (nonempty : rows ≠ []) (shaped : ∀ p ∈ rows, Shaped frames p)
    (varlen : Bool) : stackFeaturesInner rows varlen =
      .ok (rows.map (·.inputFeatures),rows.map (realFrames ·.featureAttentionMask)) := by
  have mels : maxOf (rows.map (·.inputFeatures.length)) = featureSize := by
    refine maxSame (by simpa using nonempty) fun n inside => ?_
    obtain ⟨p,there,rfl⟩ := List.mem_map.mp inside
    exact (shaped p there).mel
  have widths : maxOf (rows.flatMap fun p => p.inputFeatures.map List.length) = frames := by
    refine maxSame (fun empty => ?_) fun n inside => ?_
    · obtain ⟨p,there⟩ := List.exists_mem_of_ne_nil rows nonempty
      have bare := List.flatMap_eq_nil_iff.mp empty p there
      have mel := (shaped p there).mel
      rw [List.map_eq_nil_iff.mp bare] at mel
      cases mel
    · obtain ⟨p,there,inside⟩ := List.mem_flatMap.mp inside
      obtain ⟨row,among,rfl⟩ := List.mem_map.mp inside
      exact (shaped p there).rows row among
  have stacked : rows.zipIdx.mapM (fun entry => stackRow varlen featureSize frames entry.2 entry.1) =
      .ok (rows.map (·.inputFeatures)) :=
    exceptMapIdxAll fun p i found => stackRowOk (shaped p (List.mem_of_getElem? found)) varlen i
  cases rows with
  | nil => exact absurd rfl nonempty
  | cons first rest =>
    have one := shaped first List.mem_cons_self
    have top : first.inputFeatures.head?.map List.length = some frames := by
      cases features : first.inputFeatures with
      | nil =>
        have mel := one.mel
        rw [features] at mel
        cases mel
      | cons row _ => simpa using one.rows row (by rw [features]; exact List.mem_cons_self)
    unfold stackFeaturesInner
    dsimp only
    cases varlen with
    | true =>
      rw [if_pos rfl,if_pos rfl,mels,widths]
      exact exceptBind.mpr ⟨frames,rfl,exceptBind.mpr ⟨_,stacked,rfl⟩⟩
    | false =>
      rw [if_neg Bool.false_ne_true,if_neg Bool.false_ne_true,one.mel,top]
      exact exceptBind.mpr ⟨frames,rfl,exceptBind.mpr ⟨_,stacked,rfl⟩⟩

end Stacking

section Rebatching

theorem groupRowsFlatten (countCap : Nat) (current : List (PreparedRow K × Nat)) (low high : Nat)
    (rest : List (PreparedRow K × Nat)) : (groupRows countCap current low high rest).flatten = current ++ rest := by
  fun_induction groupRows countCap current low high rest with
  | case1 => rfl
  | case2 => simp
  | case3 low high item rest len ih => rw [ih,List.singleton_append,List.nil_append]
  | case4 current low high item rest _ len nextMax full ih => rw [List.flatten_cons,ih,List.singleton_append]
  | case5 current low high item rest _ len nextMax room ih => rw [ih,List.append_assoc,List.singleton_append]

theorem groupRowsFilled (countCap : Nat) (current : List (PreparedRow K × Nat)) (low high : Nat)
    (rest : List (PreparedRow K × Nat)) : ∀ group ∈ groupRows countCap current low high rest, group ≠ [] := by
  fun_induction groupRows countCap current low high rest with
  | case1 => simp
  | case2 => simp_all
  | case3 low high item rest len ih => exact ih
  | case4 current low high item rest _ len nextMax full ih => simp_all
  | case5 current low high item rest _ len nextMax room ih => exact ih

theorem repaddedLen (padId groupMax : Nat) (src : PreparedRow K) :
    preparedPromptLen (repaddedRow padId groupMax src).toPreparedInputs = preparedPromptLen src.toPreparedInputs := by
  simp [repaddedRow,preparedPromptLen,validLen,List.countP_replicate]

theorem repaddedUnpadded {frames : Nat} {src : PreparedRow K} (shaped : Shaped frames src) (padId groupMax : Nat) :
    unpadded (repaddedRow padId groupMax src) = unpadded src := by
  have whole : (src.inputIds.take (preparedPromptLen src.toPreparedInputs)).length = preparedPromptLen src.toPreparedInputs :=
    List.length_take_of_le shaped.prompt
  unfold unpadded
  rw [repaddedLen]
  refine Prod.ext ?_ rfl
  change (src.inputIds.take _ ++ List.replicate _ padId).take _ = _
  rw [List.take_append_of_le_length (Nat.le_of_eq whole.symm),List.take_take,Nat.min_self]

theorem repaddedAligned {frames padId : Nat} {group : List (PreparedRow K × Nat)}
    (shaped : ∀ item ∈ group, Shaped frames item.1) : Aligned ((repadded padId group).map Prod.snd) := by
  let groupMax := maxOf (group.map fun item => preparedPromptLen item.1.toPreparedInputs)
  have rows : (repadded padId group).map Prod.snd = group.map fun item => repaddedRow padId groupMax item.1 := by
    rw [repadded,List.map_map]
    rfl
  rw [rows]
  refine ⟨groupMax,frames,List.forall_mem_map.mpr fun item among => ?_⟩
  have row := shaped item among
  have within : preparedPromptLen item.1.toPreparedInputs ≤ groupMax :=
    List.le_max?_getD_of_mem (List.mem_map_of_mem (f := fun item : PreparedRow K × Nat => preparedPromptLen item.1.toPreparedInputs) among)
  have length : (repaddedRow padId groupMax item.1).inputIds.length = groupMax := by
    change (item.1.inputIds.take _ ++ List.replicate _ padId).length = _
    rw [List.length_append,List.length_take_of_le row.prompt,List.length_replicate]
    omega
  rw [repaddedLen]
  refine ⟨⟨?_,row.mel,row.rows,row.masked⟩,length,rfl⟩
  rw [repaddedLen,length]
  exact within

theorem rebatchedRows (prepared : List (PreparedRow K)) (padId maxBatchSize : Nat) :
    ∃ order : List (PreparedRow K × Nat), order.Perm prepared.zipIdx ∧
      ∃ groups : List (List (PreparedRow K × Nat)), groups.flatten = order ∧ (∀ group ∈ groups, group ≠ []) ∧
        rebatchPreparedInputs prepared padId maxBatchSize = groups.map (repadded padId) :=
  ⟨_,List.perm_insertionSort _ _,_,(groupRowsFlatten _ [] 0 0 _).trans (List.nil_append _),groupRowsFilled _ [] 0 0 _,rfl⟩

structure Rebatched (prepared : List (PreparedRow K)) (batches : List (List (Nat × PreparedRow K))) : Prop where
  sound : ∀ batch ∈ batches, batch ≠ [] ∧ Aligned (batch.map Prod.snd)
  places : (batches.flatten.map Prod.fst).Perm (List.range prepared.length)
  entries : ∀ e ∈ batches.flatten, ∃ p, prepared[e.1]? = some p ∧ unpadded e.2 = unpadded p

theorem repaddedPlaces (padId : Nat) (groups : List (List (PreparedRow K × Nat))) :
    (groups.map (repadded padId)).flatten.map Prod.fst = groups.flatten.map Prod.snd := by
  rw [List.map_flatten,List.map_flatten,List.map_map]
  refine congrArg List.flatten (List.map_congr_left fun group _ => ?_)
  simp only [Function.comp_apply,repadded,List.map_map]
  rfl

theorem rowPlaces {prepared : List (PreparedRow K)} {order : List (PreparedRow K × Nat)} (perm : order.Perm prepared.zipIdx) :
    (order.map Prod.snd).Perm (List.range prepared.length) := by
  rw [List.range_eq_range',← List.zipIdx_map_snd]
  exact perm.map Prod.snd

/- Every row is in one batch, with what it was without its padding, in whichever order they are grouped. -/
theorem rebatchedFrom {frames : Nat} {prepared : List (PreparedRow K)} (shaped : ∀ p ∈ prepared, Shaped frames p)
    {order : List (PreparedRow K × Nat)} (perm : order.Perm prepared.zipIdx) {groups : List (List (PreparedRow K × Nat))}
    (joined : groups.flatten = order) (filled : ∀ group ∈ groups, group ≠ []) (padId : Nat) :
    Rebatched prepared (groups.map (repadded padId)) := by
  have known : ∀ group ∈ groups, ∀ item ∈ group, prepared[item.2]? = some item.1 := fun group inside item among =>
    List.mem_zipIdx_iff_getElem?.mp (perm.subset (joined ▸ List.mem_flatten_of_mem inside among))
  have shapes : ∀ group ∈ groups, ∀ item ∈ group, Shaped frames item.1 := fun group inside item among =>
    shaped item.1 (List.mem_of_getElem? (known group inside item among))
  refine ⟨List.forall_mem_map.mpr fun group inside => ⟨?_,repaddedAligned (shapes group inside)⟩,?_,?_⟩
  · simpa [repadded] using filled group inside
  · rw [repaddedPlaces,joined]
    exact rowPlaces perm
  · intro e inside
    obtain ⟨batch,there,among⟩ := List.mem_flatten.mp inside
    obtain ⟨group,origin,rfl⟩ := List.mem_map.mp there
    obtain ⟨item,member,rfl⟩ := List.mem_map.mp among
    exact ⟨item.1,known group origin item member,repaddedUnpadded (shapes group origin item member) padId _⟩

theorem rebatched {frames : Nat} {prepared : List (PreparedRow K)} (shaped : ∀ p ∈ prepared, Shaped frames p)
    (padId maxBatchSize : Nat) : Rebatched prepared (rebatchPreparedInputs prepared padId maxBatchSize) := by
  obtain ⟨order,perm,groups,joined,filled,made⟩ := rebatchedRows prepared padId maxBatchSize
  rw [made]
  exact rebatchedFrom shaped perm joined filled padId

end Rebatching

section Generation
variable {processor : Processor K}

def rowText (processor : Processor K) (row : List Nat × List (List K) → Except String (List Nat))
    (key : List Nat × List (List K)) : Except String String := do
  let _ ← processor.tokenizer.tokenToId "<|endoftext|>"
  let ids ← row key
  processor.decode ids

def keyText (processor : Processor K) (row : List Nat × List (List K) → Except String (List Nat))
    (key : List Nat × List (List K)) : Except String String := do
  let ids ← row key
  processor.decode ids

def entryText (processor : Processor K) (row : List Nat × List (List K) → Except String (List Nat))
    (entry : Nat × PreparedRow K) : Except String String := keyText processor row (unpadded entry.2)

def generateBatches [Field K] (processor : Processor K) (n : Nat) (batches : List (List (Nat × PreparedRow K))) :
    Except String (List String) := do
  let out ← batches.foldlM (generateMicroBatch processor) (List.replicate n none)
  readSlots (fun i => s!"missing generated text {i}") out

variable {row : List Nat × List (List K) → Except String (List Nat)}

theorem decodeRun {n : Nat} {value : Nat → String} {batch : List (Nat × PreparedRow K)} {genIds : List (List Nat)}
    (texts : List.Forall₂ (fun entry ids => processor.decode ids = .ok (value entry.1)) batch genIds) (done : List Nat) :
    (batch.zip genIds).foldlM (fun out (entry,ids) => do
      let raw ← processor.decode ids
      .ok (out.set entry.1 (some raw))) (filled n value done) = .ok (filled n value (done ++ batch.map Prod.fst)) := by
  induction texts generalizing done with
  | nil => simp [pure,Except.pure]
  | @cons entry ids batch genIds head _ ih =>
    rw [List.zip_cons_cons,List.foldlM_cons]
    refine exceptBind.mpr ⟨filled n value (done ++ [entry.1]),exceptBind.mpr ⟨_,head,congrArg Except.ok (filledSet entry.1)⟩,?_⟩
    rw [ih (done ++ [entry.1]),List.append_assoc]
    rfl

theorem decodeNeeds {batch : List (Nat × PreparedRow K)} {genIds : List (List Nat)}
    (generated : List.Forall₂ (fun entry ids => row (unpadded entry.2) = .ok ids) batch genIds) {out out' : List (Option String)}
    (ok : (batch.zip genIds).foldlM (fun out (entry,ids) => do
      let raw ← processor.decode ids
      .ok (out.set entry.1 (some raw))) out = .ok out') :
    ∀ e ∈ batch, ∃ text, entryText processor row e = .ok text := by
  induction generated generalizing out with
  | nil => exact fun _ inside => (by cases inside)
  | cons head _ ih =>
    rw [List.zip_cons_cons,List.foldlM_cons] at ok
    obtain ⟨_,first,rest⟩ := exceptBind.mp ok
    obtain ⟨text,decoded,_⟩ := exceptBind.mp first
    exact List.forall_mem_cons.mpr ⟨⟨text,exceptBind.mpr ⟨_,head,decoded⟩⟩,ih rest⟩

variable [Field K] (alone : ∀ rows : List (PreparedRow K), rows ≠ [] → Aligned rows →
    ∀ out, processor.generate (rows.map (·.inputFeatures)) (rows.map (realFrames ·.featureAttentionMask))
        (rows.map (·.inputIds)) (rows.map (·.attentionMask)) = .ok out ↔
      List.Forall₂ (fun p ids => row (unpadded p) = .ok ids) rows out)
include alone

theorem microFills {n : Nat} {value : Nat → String} (done : List Nat) {batch : List (Nat × PreparedRow K)}
    (nonempty : batch ≠ []) (aligned : Aligned (batch.map Prod.snd))
    (each : ∀ e ∈ batch, entryText processor row e = .ok (value e.1)) :
    generateMicroBatch processor (filled n value done) batch = .ok (filled n value (done ++ batch.map Prod.fst)) := by
  have rowsNonempty : batch.map Prod.snd ≠ [] := by simpa using nonempty
  obtain ⟨genIds,generated⟩ := rowsOk (f := fun e : Nat × PreparedRow K => row (unpadded e.2)) fun e inside => by
    obtain ⟨ids,here,_⟩ := exceptBind.mp (each e inside)
    exact ⟨ids,here⟩
  have texts : List.Forall₂ (fun entry ids => processor.decode ids = .ok (value entry.1)) batch genIds := by
    refine List.forall₂_iff_zip.mpr ⟨generated.length_eq,fun {e ids} inside => ?_⟩
    obtain ⟨ids',here,decoded⟩ := exceptBind.mp (each e (List.of_mem_zip inside).1)
    obtain rfl := Except.ok.inj ((List.forall₂_zip generated inside).symm.trans here)
    exact decoded
  have answered := (alone _ rowsNonempty aligned genIds).mpr (List.forall₂_map_left_iff.mpr generated)
  obtain ⟨_,frames,shapes⟩ := aligned
  have counted : genIds.length = (batch.map Prod.snd).length := by
    rw [List.length_map]
    exact generated.length_eq.symm
  unfold generateMicroBatch
  refine exceptBind.mpr ⟨_,stackOk rowsNonempty (fun p inside => (shapes p inside).1) _,exceptBind.mpr ⟨genIds,answered,?_⟩⟩
  rw [if_neg (not_not.mpr counted)]
  exact decodeRun texts done

theorem microNeeds {out : List (Option String)} {batch : List (Nat × PreparedRow K)} {out' : List (Option String)}
    (nonempty : batch ≠ []) (aligned : Aligned (batch.map Prod.snd))
    (ok : generateMicroBatch processor out batch = .ok out') :
    ∀ e ∈ batch, ∃ text, entryText processor row e = .ok text := by
  have rowsNonempty : batch.map Prod.snd ≠ [] := by simpa using nonempty
  obtain ⟨_,frames,shapes⟩ := id aligned
  obtain ⟨stacked,same,ok⟩ := exceptBind.mp ok
  obtain rfl := Except.ok.inj ((stackOk rowsNonempty (fun p inside => (shapes p inside).1) _).symm.trans same)
  obtain ⟨genIds,answered,ok⟩ := exceptBind.mp ok
  split at ok
  · cases ok
  exact decodeNeeds (List.forall₂_map_left_iff.mp ((alone _ rowsNonempty aligned genIds).mp answered)) ok

theorem batchesReturn {prepared : List (PreparedRow K)} {batches : List (List (Nat × PreparedRow K))}
    (rebatched : Rebatched prepared batches) {raws : List String}
    (texts : List.Forall₂ (fun p raw => keyText processor row (unpadded p) = .ok raw) prepared raws) :
    generateBatches processor prepared.length batches = .ok raws := by
  have counted := texts.length_eq
  let value : Nat → String := fun i => raws[i]?.getD ""
  have whole : (List.range prepared.length).map value = raws := by
    refine List.ext_getElem (by simpa using counted) fun i h h' => ?_
    simp [value,h']
  have rowAt : ∀ (i : Nat) (p : PreparedRow K), prepared[i]? = some p → keyText processor row (unpadded p) = .ok (value i) := by
    intro i p found
    obtain ⟨h,rfl⟩ := List.getElem?_eq_some_iff.mp found
    have here := texts.get h (counted ▸ h)
    simpa [value,counted ▸ h] using here
  have each : ∀ e ∈ batches.flatten, entryText processor row e = .ok (value e.1) := by
    intro e inside
    obtain ⟨p,found,same⟩ := rebatched.entries e inside
    unfold entryText
    rw [same]
    exact rowAt e.1 p found
  have slots := scatterAll Prod.fst (fun batch : List (Nat × PreparedRow K) => batch ≠ [] ∧ Aligned (batch.map Prod.snd))
    (fun done batch good each _ => microFills alone done good.1 good.2 fun e inside => (each e inside).1)
    rebatched.sound rebatched.places each
  exact exceptBind.mpr ⟨_,slots,by rw [whole]; exact slotsRead _ raws⟩

theorem batchesNeed {prepared : List (PreparedRow K)} {batches : List (List (Nat × PreparedRow K))}
    (rebatched : Rebatched prepared batches) {raws : List String}
    (ok : generateBatches processor prepared.length batches = .ok raws) :
    ∀ p ∈ prepared, ∃ text, keyText processor row (unpadded p) = .ok text := by
  intro p inside
  obtain ⟨slots,ran,_⟩ := exceptBind.mp ok
  have needed := groupsNeeded (fun batch : List (Nat × PreparedRow K) => batch ≠ [] ∧ Aligned (batch.map Prod.snd))
    (fun _ _ _ good => microNeeds alone good.1 good.2) rebatched.sound ran
  obtain ⟨i,found⟩ := List.mem_iff_getElem?.mp inside
  have within := List.mem_range.mpr (List.getElem?_eq_some_iff.mp found).1
  obtain ⟨e,there,rfl⟩ := List.mem_map.mp (rebatched.places.symm.subset within)
  obtain ⟨p',found',same⟩ := rebatched.entries e there
  obtain rfl := Option.some.inj (found.symm.trans found')
  rw [← same]
  exact needed e there

theorem batchesByRow {prepared : List (PreparedRow K)} {batches : List (List (Nat × PreparedRow K))}
    (rebatched : Rebatched prepared batches) (raws : List String) :
    generateBatches processor prepared.length batches = .ok raws ↔
      List.Forall₂ (fun p raw => keyText processor row (unpadded p) = .ok raw) prepared raws := by
  constructor
  · intro ok
    obtain ⟨texts,pairs⟩ := rowsOk (batchesNeed alone rebatched ok)
    obtain rfl := Except.ok.inj (ok.symm.trans (batchesReturn alone rebatched pairs))
    exact pairs
  · exact batchesReturn alone rebatched

omit alone in
theorem generateSplit {prepared : List (PreparedRow K)} (some_ : prepared.length ≠ 0) (maxBatchSize : Nat) :
    generateRawPreparedBatch processor maxBatchSize prepared = (do
      let padId ← processor.tokenizer.tokenToId "<|endoftext|>"
      generateBatches processor prepared.length
        (rebatchPreparedInputs prepared padId (if maxBatchSize = 0 then max prepared.length 1 else maxBatchSize))) := by
  unfold generateRawPreparedBatch
  rw [if_neg some_]
  rfl

/-- A batch of rows is generated row by row, however the rows are batched again. -/
theorem generateByRow {frames : Nat} {prepared : List (PreparedRow K)} (shaped : ∀ p ∈ prepared, Shaped frames p)
    (maxBatchSize : Nat) (raws : List String) : generateRawPreparedBatch processor maxBatchSize prepared = .ok raws ↔
      List.Forall₂ (fun p raw => rowText processor row (unpadded p) = .ok raw) prepared raws := by
  cases prepared with
  | nil => simp [generateRawPreparedBatch,eq_comm]
  | cons first rest =>
    have some_ : (first::rest).length ≠ 0 := Nat.succ_ne_zero _
    rw [generateSplit some_]
    constructor
    · intro ok
      obtain ⟨padId,padFound,ok⟩ := exceptBind.mp ok
      exact ((batchesByRow alone (rebatched shaped padId _) raws).mp ok).imp fun _ _ here =>
        exceptBind.mpr ⟨padId,padFound,here⟩
    · intro texts
      obtain ⟨_,top⟩ := rowsNeeded (List.forall₂_map_left_iff.mpr texts) (unpadded first) (by simp)
      obtain ⟨padId,padFound,_⟩ := exceptBind.mp top
      refine exceptBind.mpr ⟨padId,padFound,(batchesByRow alone (rebatched shaped padId _) raws).mpr (texts.imp fun _ _ here => ?_)⟩
      obtain ⟨_,_,text⟩ := exceptBind.mp here
      exact text

end Generation

section Features
variable [Field K]

structure FeatureRows (frames : Nat) (f : Features K) : Prop where
  mel : f.inputFeatures.length = featureSize
  rows : ∀ row ∈ f.inputFeatures, row.length = frames
  real : f.featureAttentionMask = List.replicate frames 1

def padTo (maxFrames : Nat) (f : Features K) : Features K :=
  let pad := maxFrames-f.featureAttentionMask.length
  ⟨f.inputFeatures.map (· ++ List.replicate pad 0),f.featureAttentionMask ++ List.replicate pad 0⟩

omit [Field K] in
theorem featureHead {frames : Nat} {f : Features K} (even : FeatureRows frames f) :
    ∃ first rest, f.inputFeatures = first::rest ∧ first.length = frames := by
  cases features : f.inputFeatures with
  | nil =>
    have mel := even.mel
    rw [features] at mel
    cases mel
  | cons first rest => exact ⟨first,rest,rfl,even.rows first (by rw [features]; exact List.mem_cons_self)⟩

theorem padFeaturesOk {frames maxFrames : Nat} {f : Features K} (even : FeatureRows frames f) (within : frames ≤ maxFrames)
    (i : Nat) : padFeatures maxFrames i f = .ok (padTo maxFrames f) := by
  obtain ⟨first,rest,features,width⟩ := featureHead even
  have counted : f.featureAttentionMask.length = frames := by rw [even.real,List.length_replicate]
  have each : f.inputFeatures.zipIdx.mapM (fun entry => padMelRow i frames (maxFrames-frames) entry.2 entry.1) =
      .ok (f.inputFeatures.map (· ++ List.replicate (maxFrames-frames) 0)) :=
    exceptMapIdxAll fun row k found => if_neg (not_not.mpr (even.rows row (List.mem_of_getElem? found)))
  unfold padFeatures
  rw [features]
  dsimp only
  rw [width,if_neg (not_not.mpr counted),if_neg (Nat.not_lt.mpr within),← features]
  split
  · rename_i none_
    simp [padTo,counted,none_]
  · refine exceptBind.mpr ⟨_,each,?_⟩
    simp [padTo,counted]

theorem padBatchOk {features : List (Features K)} (even : ∀ f ∈ features, FeatureRows f.featureAttentionMask.length f) :
    ∃ maxFrames, (∀ f ∈ features, f.featureAttentionMask.length ≤ maxFrames) ∧
      padFeatureBatchToMaxFrames features = .ok (features.map (padTo maxFrames)) := by
  let maxFrames := maxOf (features.filterMap fun f => f.inputFeatures.head?.map List.length)
  have within : ∀ f ∈ features, f.featureAttentionMask.length ≤ maxFrames := by
    intro f inside
    obtain ⟨first,rest,shape,width⟩ := featureHead (even f inside)
    exact List.le_max?_getD_of_mem (List.mem_filterMap.mpr ⟨f,inside,by rw [shape,List.head?_cons,Option.map_some,width]⟩)
  refine ⟨maxFrames,within,exceptMapIdxAll fun f i found => ?_⟩
  have inside := List.mem_of_getElem? found
  exact padFeaturesOk (even f inside) (within f inside) i

variable [LinearOrder K]

theorem extractRows (logMel : List K → Nat → K) (wav : List K) :
    FeatureRows (extractFeatures logMel wav).featureAttentionMask.length (extractFeatures logMel wav) := by
  unfold extractFeatures
  dsimp only
  split
  · exact ⟨List.length_replicate,fun row inside => by rw [List.eq_of_mem_replicate inside]; rfl,rfl⟩
  · rename_i some_
    have nonempty : 0 < wav.length := Nat.pos_of_ne_zero fun empty => some_ (by rw [empty,Nat.zero_div])
    unfold extractLogMelFrames melRows
    simp only [dif_pos nonempty,List.length_replicate]
    refine ⟨by simp,fun row inside => ?_,rfl⟩
    obtain ⟨melRow,there,rfl⟩ := List.mem_map.mp inside
    obtain ⟨mel,_,rfl⟩ := List.mem_map.mp there
    simp

end Features

section Preparation
variable [Field K] [LinearOrder K] {processor : Processor K}

/- Features that are extracted from each waveform as it is, and padded afterwards if at all. -/
def PadsFeatures (processor : Processor K) : Prop := processor.varlen = true ∨ processor.mode = .feature

theorem extractedOk (mode : PadsFeatures processor) (wavs : List (List K)) :
    ∃ maxFrames, (∀ wav ∈ wavs, (extractFeatures processor.logMel wav).featureAttentionMask.length ≤ maxFrames) ∧
      extracted processor wavs = .ok (wavs.map fun wav => padTo maxFrames (extractFeatures processor.logMel wav)) := by
  obtain ⟨maxFrames,within,padded⟩ := @padBatchOk _ _ (wavs.map (extractFeatures processor.logMel))
    (List.forall_mem_map.mpr fun wav _ => extractRows processor.logMel wav)
  refine ⟨maxFrames,List.forall_mem_map.mp within,?_⟩
  rw [List.map_map] at padded
  unfold extracted
  split
  · exact padded
  · rename_i fixed
    rw [mode.resolve_left fixed]
    exact padded

def rowKey (processor : Processor K) (item : String × AudioInput K) : Except String (List Nat × List (List K)) := do
  let wav ← normalizeAudioInput processor.codec item.2
  let _ ← processor.tokenizer.tokenToId "<|endoftext|>"
  let audioPadId ← processor.tokenizer.tokenToId audioPad
  let baseIds ← processor.tokenizer.encode item.1
  let f := extractFeatures processor.logMel wav
  .ok (expandAudioPadIdsFirst baseIds audioPadId (audioOutLen f.featureAttentionMask),f.inputFeatures)

def assembled (padId extra : Nat) (ids : List Nat) (f : Features K) : PreparedRow K :=
  {paddedRow padId extra ids with inputFeatures := f.inputFeatures, featureAttentionMask := f.featureAttentionMask}

omit [LinearOrder K] in
theorem realFramesPadded {frames : Nat} {f : Features K} (even : FeatureRows frames f) (maxFrames : Nat) :
    realFrames (padTo maxFrames f).featureAttentionMask = frames ∧
      realFrames f.featureAttentionMask = frames := by
  simp [padTo,realFrames,even.real,List.countP_replicate]

theorem assembledRow (logMel : List K → Nat → K) (wav : List K) {maxFrames : Nat}
    (within : (extractFeatures logMel wav).featureAttentionMask.length ≤ maxFrames) (padId extra : Nat) (ids : List Nat) :
    let p := assembled padId extra ids (padTo maxFrames (extractFeatures logMel wav))
    Shaped maxFrames p ∧ unpadded p = (ids,(extractFeatures logMel wav).inputFeatures) := by
  intro p
  have even := extractRows logMel wav
  have len : preparedPromptLen p.toPreparedInputs = ids.length := by
    simp [p,assembled,paddedRow,preparedPromptLen,validLen,List.countP_replicate]
  have real : realFrames p.featureAttentionMask = (extractFeatures logMel wav).featureAttentionMask.length :=
    (realFramesPadded even maxFrames).1
  refine ⟨⟨?_,?_,?_,?_⟩,Prod.ext ?_ ?_⟩
  · rw [len]
    simp [p,assembled,paddedRow]
  · simpa [p,assembled,padTo] using even.mel
  · intro row inside
    obtain ⟨melRow,there,rfl⟩ := List.mem_map.mp inside
    rw [List.length_append,even.rows melRow there,List.length_replicate]
    omega
  · change (_ ++ _ : List Nat).length = maxFrames
    rw [List.length_append,List.length_replicate]
    omega
  · change p.inputIds.take (preparedPromptLen p.toPreparedInputs) = ids
    rw [len]
    simp [p,assembled,paddedRow]
  · have rows : p.inputFeatures = (extractFeatures logMel wav).inputFeatures.map
        (· ++ List.replicate (maxFrames-(extractFeatures logMel wav).featureAttentionMask.length) 0) := rfl
    change p.inputFeatures.map (List.take (realFrames p.featureAttentionMask)) = _
    rw [real,rows,List.map_map]
    conv_rhs => rw [← List.map_id (extractFeatures logMel wav).inputFeatures]
    refine List.map_congr_left fun row inside => ?_
    rw [Function.comp_apply,List.take_append_of_le_length (Nat.le_of_eq (even.rows row inside).symm),
      List.take_of_length_le (Nat.le_of_eq (even.rows row inside))]
    rfl

def Encoded (tokenizer : Tokenizer) (padId audioPadId : Nat) (item : String × List Nat) (row : PreparedInputs) : Prop :=
  ∃ baseIds extra, tokenizer.encode item.1 = .ok baseIds ∧
    row = paddedRow padId extra (expandAudioPadIdsFirst baseIds audioPadId (audioOutLen item.2))

theorem encodedRows {tokenizer : Tokenizer} {padToBatchMax : Bool} {padId audioPadId maxTokens : Nat}
    {items : List (String × List Nat)} {inputIds : List (List Nat)} {rows : List PreparedInputs}
    (expanded : List.Forall₂ (fun item ids => (tokenizer.encode item.1 >>= fun baseIds =>
      .ok (expandAudioPadIdsFirst baseIds audioPadId (audioOutLen item.2))) = .ok ids) items inputIds)
    (padded : List.Forall₂ (fun ids row => preparedRow padId maxTokens padToBatchMax ids = .ok row) inputIds rows)
    (within : ∀ ids ∈ inputIds, ids.length ≤ maxTokens) : List.Forall₂ (Encoded tokenizer padId audioPadId) items rows := by
  induction expanded generalizing rows with
  | nil =>
    cases padded
    exact .nil
  | cons head _ ih =>
    obtain ⟨fits,others⟩ := List.forall_mem_cons.mp within
    cases padded with
    | cons first padded =>
      obtain ⟨baseIds,found,last⟩ := exceptBind.mp head
      obtain rfl := Except.ok.inj last
      obtain rfl := Except.ok.inj ((preparedRowOk padToBatchMax fits).symm.trans first)
      exact .cons ⟨baseIds,_,found,rfl⟩ (ih padded others)

theorem prepareBatchEncodes {tokenizer : Tokenizer} {padToBatchMax : Bool} {items : List (String × List Nat)}
    (nonempty : items ≠ []) {rows : List PreparedInputs} (ok : prepareBatch tokenizer padToBatchMax items = .ok rows) :
    ∃ padId audioPadId, tokenizer.tokenToId "<|endoftext|>" = .ok padId ∧ tokenizer.tokenToId audioPad = .ok audioPadId ∧
      List.Forall₂ (Encoded tokenizer padId audioPadId) items rows := by
  unfold prepareBatch at ok
  rw [if_neg nonempty] at ok
  obtain ⟨padId,padFound,ok⟩ := exceptBind.mp ok
  obtain ⟨audioPadId,audioPadFound,ok⟩ := exceptBind.mp ok
  obtain ⟨inputIds,encoded,ok⟩ := exceptBind.mp ok
  exact ⟨padId,audioPadId,padFound,audioPadFound,encodedRows (exceptMapM.mp encoded) (exceptMapM.mp ok) fun ids inside =>
    List.le_max?_getD_of_mem (List.mem_map_of_mem inside)⟩

theorem prepareBatchReturns {tokenizer : Tokenizer} (padToBatchMax : Bool) {items : List (String × List Nat)} {padId audioPadId : Nat}
    (padFound : tokenizer.tokenToId "<|endoftext|>" = .ok padId) (audioPadFound : tokenizer.tokenToId audioPad = .ok audioPadId)
    (encodes : ∀ item ∈ items, ∃ baseIds, tokenizer.encode item.1 = .ok baseIds) :
    ∃ rows, prepareBatch tokenizer padToBatchMax items = .ok rows := by
  unfold prepareBatch
  split
  · exact ⟨[],rfl⟩
  · obtain ⟨inputIds,expanded⟩ := @rowsOk _ _ _ (fun item => tokenizer.encode item.1 >>= fun baseIds =>
        Except.ok (expandAudioPadIdsFirst baseIds audioPadId (audioOutLen item.2))) items fun item inside => by
      obtain ⟨baseIds,found⟩ := encodes item inside
      exact ⟨_,exceptBind.mpr ⟨baseIds,found,rfl⟩⟩
    obtain ⟨rows,padded⟩ := rowsOk (f := preparedRow padId (maxOf (inputIds.map List.length)) padToBatchMax) fun ids inside =>
      ⟨_,preparedRowOk padToBatchMax (List.le_max?_getD_of_mem (List.mem_map_of_mem inside))⟩
    exact ⟨rows,exceptBind.mpr ⟨padId,padFound,exceptBind.mpr ⟨audioPadId,audioPadFound,exceptBind.mpr
      ⟨inputIds,exceptMapM.mpr expanded,exceptMapM.mpr padded⟩⟩⟩⟩

theorem preparedRows {items : List (String × AudioInput K)} {wavs : List (List K)} {rows : List PreparedInputs}
    {padId audioPadId maxFrames : Nat} (padFound : processor.tokenizer.tokenToId "<|endoftext|>" = .ok padId)
    (audioPadFound : processor.tokenizer.tokenToId audioPad = .ok audioPadId)
    (normalized : List.Forall₂ (fun item wav => normalizeAudioInput processor.codec item.2 = .ok wav) items wavs)
    (within : ∀ wav ∈ wavs, (extractFeatures processor.logMel wav).featureAttentionMask.length ≤ maxFrames)
    (encoded : List.Forall₂ (Encoded processor.tokenizer padId audioPadId)
      ((items.zip (wavs.map fun wav => padTo maxFrames (extractFeatures processor.logMel wav))).map
        fun ((prompt,_),f) => (prompt,f.featureAttentionMask)) rows) :
    let prepared := (rows.zip (wavs.map fun wav => padTo maxFrames (extractFeatures processor.logMel wav))).map fun (row,f) =>
      {row with inputFeatures := f.inputFeatures, featureAttentionMask := f.featureAttentionMask}
    (∀ p ∈ prepared, Shaped maxFrames p) ∧ List.Forall₂ (fun item key => rowKey processor item = .ok key) items (prepared.map unpadded) := by
  dsimp only
  induction normalized generalizing rows with
  | nil =>
    cases encoded
    exact ⟨fun _ inside => (by cases inside),.nil⟩
  | @cons item wav items wavs head _ ih =>
    obtain ⟨fits,others⟩ := List.forall_mem_cons.mp within
    cases encoded with
    | cons first encoded =>
      obtain ⟨baseIds,extra,found,rfl⟩ := first
      have even := realFramesPadded (extractRows processor.logMel wav) maxFrames
      obtain ⟨shaped,key⟩ := assembledRow processor.logMel wav fits padId extra
        (expandAudioPadIdsFirst baseIds audioPadId (audioOutLen (padTo maxFrames (extractFeatures processor.logMel wav)).featureAttentionMask))
      obtain ⟨shapes,keys⟩ := ih others encoded
      refine ⟨List.forall_mem_cons.mpr ⟨shaped,shapes⟩,.cons ?_ keys⟩
      refine (exceptBind.mpr ⟨wav,head,exceptBind.mpr ⟨padId,padFound,exceptBind.mpr ⟨audioPadId,audioPadFound,
        exceptBind.mpr ⟨baseIds,found,?_⟩⟩⟩⟩)
      refine congrArg Except.ok (Eq.trans ?_ key.symm)
      simp only [audioOutLen,even.1,even.2]

theorem prepareRows (mode : PadsFeatures processor) {items : List (String × AudioInput K)} {prepared : List (PreparedRow K)}
    (ok : prepareItems processor items = .ok prepared) :
    ∃ frames, (∀ p ∈ prepared, Shaped frames p) ∧
      List.Forall₂ (fun item key => rowKey processor item = .ok key) items (prepared.map unpadded) := by
  unfold prepareItems at ok
  split at ok
  · rename_i empty
    subst empty
    cases ok
    exact ⟨0,fun _ inside => (by cases inside),.nil⟩
  · rename_i some_
    obtain ⟨wavs,normalized,ok⟩ := exceptBind.mp ok
    obtain ⟨_,_,ok⟩ := exceptBind.mp ok
    obtain ⟨_,_,ok⟩ := exceptBind.mp ok
    obtain ⟨feats,features,ok⟩ := exceptBind.mp ok
    obtain ⟨rows,batched,ok⟩ := exceptBind.mp ok
    obtain rfl := Except.ok.inj ok
    obtain ⟨maxFrames,within,extracts⟩ := extractedOk mode wavs
    obtain rfl := Except.ok.inj (extracts.symm.trans features)
    have pairs := exceptMapM.mp normalized
    have nonempty : (items.zip (wavs.map fun wav => padTo maxFrames (extractFeatures processor.logMel wav))).map
        (fun ((prompt,_),f) => (prompt,f.featureAttentionMask)) ≠ [] := by
      cases pairs with
      | nil => exact absurd rfl some_
      | cons => simp
    obtain ⟨padId,audioPadId,padFound,audioPadFound,encoded⟩ := prepareBatchEncodes nonempty batched
    exact ⟨maxFrames,preparedRows padFound audioPadFound pairs within encoded⟩

theorem prepareReturns (mode : PadsFeatures processor) {items : List (String × AudioInput K)}
    (each : ∀ item ∈ items, ∃ key, rowKey processor item = .ok key) : ∃ prepared, prepareItems processor items = .ok prepared := by
  unfold prepareItems
  split
  · exact ⟨[],rfl⟩
  · rename_i some_
    obtain ⟨wavs,normalized⟩ := rowsOk (f := fun item : String × AudioInput K => normalizeAudioInput processor.codec item.2)
      fun item inside => by
        obtain ⟨_,ok⟩ := each item inside
        obtain ⟨wav,here,_⟩ := exceptBind.mp ok
        exact ⟨wav,here⟩
    obtain ⟨item,inside⟩ := List.exists_mem_of_ne_nil items some_
    obtain ⟨_,ok⟩ := each item inside
    obtain ⟨_,_,ok⟩ := exceptBind.mp ok
    obtain ⟨padId,padFound,ok⟩ := exceptBind.mp ok
    obtain ⟨audioPadId,audioPadFound,_⟩ := exceptBind.mp ok
    obtain ⟨maxFrames,_,extracts⟩ := extractedOk mode wavs
    have encodes : ∀ entry ∈ (items.zip (wavs.map fun wav => padTo maxFrames (extractFeatures processor.logMel wav))).map
        (fun ((prompt,_),f) => (prompt,f.featureAttentionMask)), ∃ baseIds, processor.tokenizer.encode entry.1 = .ok baseIds := by
      refine List.forall_mem_map.mpr fun pair among => ?_
      obtain ⟨_,ok⟩ := each pair.1 (List.of_mem_zip among).1
      obtain ⟨_,_,ok⟩ := exceptBind.mp ok
      obtain ⟨_,_,ok⟩ := exceptBind.mp ok
      obtain ⟨_,_,ok⟩ := exceptBind.mp ok
      obtain ⟨baseIds,found,_⟩ := exceptBind.mp ok
      exact ⟨baseIds,found⟩
    obtain ⟨rows,batched⟩ := prepareBatchReturns (!processor.varlen) padFound audioPadFound encodes
    exact ⟨_,exceptBind.mpr ⟨wavs,exceptMapM.mpr normalized,exceptBind.mpr ⟨padId,padFound,exceptBind.mpr
      ⟨audioPadId,audioPadFound,exceptBind.mpr ⟨_,extracts,exceptBind.mpr ⟨rows,batched,rfl⟩⟩⟩⟩⟩⟩

theorem preparedTexts (mode : PadsFeatures processor) (generates : GeneratesByRow processor) :
    ∃ text, ∀ maxBatchSize, ByRow text fun items => prepareItems processor items >>= generateRawPreparedBatch processor maxBatchSize := by
  obtain ⟨row,alone⟩ := generates
  refine ⟨fun item => rowKey processor item >>= rowText processor row,fun maxBatchSize items raws => ?_⟩
  constructor
  · intro ok
    obtain ⟨prepared,ready,generated⟩ := exceptBind.mp ok
    obtain ⟨frames,shaped,keys⟩ := prepareRows mode ready
    exact (rowsAfter keys raws).mpr (List.forall₂_map_left_iff.mpr ((generateByRow alone shaped maxBatchSize raws).mp generated))
  · intro texts
    obtain ⟨prepared,ready⟩ := prepareReturns mode fun item inside => by
      obtain ⟨_,ok⟩ := rowsNeeded texts item inside
      obtain ⟨key,here,_⟩ := exceptBind.mp ok
      exact ⟨key,here⟩
    obtain ⟨frames,shaped,keys⟩ := prepareRows mode ready
    exact exceptBind.mpr ⟨prepared,ready,(generateByRow alone shaped maxBatchSize raws).mpr
      (List.forall₂_map_left_iff.mp ((rowsAfter keys raws).mp texts))⟩

/-- Features padded after their extraction and a generator that acts on rows without their padding make
rows of the whole of it. -/
theorem preparedByRow (mode : PadsFeatures processor) (generates : GeneratesByRow processor) (maxBatchSize : Nat) :
    ∃ text, ByRow text fun items => prepareItems processor items >>= generateRawPreparedBatch processor maxBatchSize := by
  obtain ⟨text,byRow⟩ := preparedTexts mode generates
  exact ⟨text,byRow maxBatchSize⟩

end Preparation

end Qwen3Asr.PreparedRows
