import Qwen3Asr.ChunkBatches

/-! Rows are regrouped by their length for generation. Sorting leaves open how rows of one length
follow each other, so what is said of the groups is said of every order the sorting may return. -/
namespace Qwen3Asr.RegroupedRows
open Library.Effect Library.Rowwise Library.Word
open PagedMetadata PromptPositions Scheduler PromptBuilder BatchPreparation PreparedRows

variable {K : Type}

def promptLen (p : PreparedRow K) : Nat := preparedPromptLen p.toPreparedInputs

def countCap (prepared : List (PreparedRow K)) (maxBatchSize : Nat) : Nat :=
  if maxBatchSize = 0 then max prepared.length 1 else maxBatchSize

structure SortedRows (prepared : List (PreparedRow K)) (order : List (PreparedRow K × Nat)) : Prop where
  rows : order.Perm prepared.zipIdx
  sorted : order.Pairwise fun a b => promptLen a.1 ≤ promptLen b.1

def RebatchesTo (prepared : List (PreparedRow K)) (padId maxBatchSize : Nat) (batches : List (List (Nat × PreparedRow K))) : Prop :=
  ∃ order, SortedRows prepared order ∧
    batches = (groupRows (countCap prepared maxBatchSize) [] 0 0 order).map (repadded padId)

theorem rebatchSorts (prepared : List (PreparedRow K)) (padId maxBatchSize : Nat) :
    RebatchesTo prepared padId maxBatchSize (rebatchPreparedInputs prepared padId maxBatchSize) := by
  have total : Std.Total fun a b : PreparedRow K × Nat => promptLen a.1 ≤ promptLen b.1 := ⟨fun a b => Nat.le_total _ _⟩
  have transitive : IsTrans (PreparedRow K × Nat) fun a b => promptLen a.1 ≤ promptLen b.1 := ⟨fun _ _ _ => Nat.le_trans⟩
  exact ⟨_,⟨List.perm_insertionSort _ _,List.pairwise_insertionSort _ _⟩,rfl⟩

section Groups

structure Fits (cap : Nat) (group : List (PreparedRow K × Nat)) : Prop where
  capped : group.length ≤ cap
  spread : ∀ a ∈ group, ∀ b ∈ group, promptLen b.1 ≤ (4*promptLen a.1) ⌈/⌉ 3 ∧ promptLen b.1 ≤ promptLen a.1+256

structure Filling (cap : Nat) (current : List (PreparedRow K × Nat)) (low high : Nat) (rest : List (PreparedRow K × Nat)) : Prop where
  capped : current.length ≤ cap
  within : ∀ a ∈ current, low ≤ promptLen a.1 ∧ promptLen a.1 ≤ high
  ratio : high ≤ (4*low) ⌈/⌉ 3
  span : high ≤ low+256
  later : ∀ b ∈ rest, low ≤ promptLen b.1

theorem fillingFits {cap low high : Nat} {current rest : List (PreparedRow K × Nat)}
    (filling : Filling cap current low high rest) : Fits cap current := by
  refine ⟨filling.capped,fun a first b second => ?_⟩
  have lower := (filling.within a first).1
  have upper := (filling.within b second).2
  have ratio := filling.ratio
  have span := filling.span
  rw [Nat.ceilDiv_eq_add_pred_div] at ratio ⊢
  omega

theorem fillingFirst {cap : Nat} {item : PreparedRow K × Nat} {rest : List (PreparedRow K × Nat)} (positive : 0 < cap)
    (later : ∀ b ∈ rest, promptLen item.1 ≤ promptLen b.1) :
    Filling cap [item] (promptLen item.1) (promptLen item.1) rest where
  capped := positive
  within := by simp
  ratio := by
    rw [Nat.ceilDiv_eq_add_pred_div]
    omega
  span := Nat.le_add_right _ _
  later := later

theorem groupedRowsFit {cap : Nat} (positive : 0 < cap) (current : List (PreparedRow K × Nat)) (low high : Nat)
    (rest : List (PreparedRow K × Nat)) (sorted : rest.Pairwise fun a b => promptLen a.1 ≤ promptLen b.1)
    (filling : current ≠ [] → Filling cap current low high rest) :
    ∀ group ∈ groupRows cap current low high rest, Fits cap group := by
  fun_induction groupRows cap current low high rest with
  | case1 => exact fun _ inside => (by cases inside)
  | case2 current low high some_ =>
    intro group inside
    rw [List.mem_singleton.mp inside]
    exact fillingFits (filling some_)
  | case3 low high item rest len ih =>
    obtain ⟨later,sorted⟩ := List.pairwise_cons.mp sorted
    exact ih sorted fun _ => fillingFirst positive later
  | case4 current low high item rest some_ len nextMax full ih =>
    obtain ⟨later,sorted⟩ := List.pairwise_cons.mp sorted
    exact List.forall_mem_cons.mpr ⟨fillingFits (filling some_),ih sorted fun _ => fillingFirst positive later⟩
  | case5 current low high item rest some_ len nextMax room ih =>
    obtain ⟨later,sorted⟩ := List.pairwise_cons.mp sorted
    obtain ⟨hasRoom,near⟩ := not_or.mp room
    obtain ⟨near,close⟩ := not_or.mp near
    have before := filling some_
    have ratio : saturatingMul low 4 ⌈/⌉ 3 ≤ (4*low) ⌈/⌉ 3 := by
      rw [Nat.ceilDiv_eq_add_pred_div,Nat.ceilDiv_eq_add_pred_div]
      unfold saturatingMul
      omega
    refine ih sorted fun _ => ⟨?_,?_,?_,?_,?_⟩
    · rw [List.length_append,List.length_singleton]
      omega
    · intro a inside
      rcases List.mem_append.mp inside with old | new
      · exact ⟨(before.within a old).1,(before.within a old).2.trans (Nat.le_max_left _ _)⟩
      · rw [List.mem_singleton.mp new]
        exact ⟨before.later item List.mem_cons_self,Nat.le_max_right _ _⟩
    · omega
    · omega
    · exact fun b inside => before.later b (List.mem_cons_of_mem _ inside)

end Groups

section Rows

def RightPadded (prepared : List (PreparedRow K)) : Prop :=
  ∀ p ∈ prepared, p.inputIds.length = p.attentionMask.length ∧ attentionMaskIsRightPadded p.attentionMask = true

structure RepaddedTo (padId groupMax : Nat) (src row : PreparedRow K) : Prop where
  ids : row.inputIds = validIds src.inputIds src.attentionMask ++ List.replicate (groupMax-promptLen src) padId
  mask : row.attentionMask = List.replicate (promptLen src) 1 ++ List.replicate (groupMax-promptLen src) 0
  features : row.toFeatures = src.toFeatures

structure Regrouped (prepared : List (PreparedRow K)) (padId cap : Nat) (batches : List (List (Nat × PreparedRow K))) : Prop where
  places : (batches.flatten.map Prod.fst).Perm (List.range prepared.length)
  capped : ∀ batch ∈ batches, batch ≠ [] ∧ batch.length ≤ cap
  spread : ∀ batch ∈ batches, ∀ a ∈ batch, ∀ b ∈ batch,
    promptLen b.2 ≤ (4*promptLen a.2) ⌈/⌉ 3 ∧ promptLen b.2 ≤ promptLen a.2+256
  rows : ∀ batch ∈ batches, ∃ longest ∈ batch, ∀ e ∈ batch, promptLen e.2 ≤ promptLen longest.2 ∧
    ∃ src, prepared[e.1]? = some src ∧ RepaddedTo padId (promptLen longest.2) src e.2

theorem validIdsTake {ids mask : List Nat} (same : ids.length = mask.length) (right : attentionMaskIsRightPadded mask = true) :
    validIds ids mask = ids.take (validLen mask) := by
  obtain ⟨valid,pads,rfl,nonzero,zero⟩ := rightPaddedParts.mp right
  rw [validLenAppend nonzero zero]
  have front : (ids.take valid.length).length = valid.length := by
    rw [List.length_take,same,List.length_append]
    omega
  have parts : ids.zip (valid ++ pads) = (ids.take valid.length).zip valid ++ (ids.drop valid.length).zip pads := by
    rw [← List.zip_append front,List.take_append_drop]
  have kept : ((ids.take valid.length).zip valid).filter (·.2 ≠ 0) = (ids.take valid.length).zip valid := by
    refine List.filter_eq_self.mpr fun e inside => ?_
    simpa using nonzero e.2 (List.of_mem_zip inside).2
  have none_ : ((ids.drop valid.length).zip pads).filter (·.2 ≠ 0) = [] := by
    refine List.filter_eq_nil_iff.mpr fun e inside => ?_
    simpa using zero e.2 (List.of_mem_zip inside).2
  rw [validIds,parts,List.filter_append,kept,none_,List.append_nil,List.map_fst_zip front.le]

theorem repaddedTo {prepared : List (PreparedRow K)} (right : RightPadded prepared) {src : PreparedRow K} (inside : src ∈ prepared)
    (padId groupMax : Nat) : RepaddedTo padId groupMax src (repaddedRow padId groupMax src) := by
  obtain ⟨same,padded⟩ := right src inside
  refine ⟨?_,rfl,rfl⟩
  rw [validIdsTake same padded]
  rfl

theorem longestOf {group : List (PreparedRow K × Nat)} (some_ : group ≠ []) :
    ∃ longest ∈ group, preparedPromptLen longest.1.toPreparedInputs =
      maxOf (group.map fun item => preparedPromptLen item.1.toPreparedInputs) := by
  have lens : group.map (fun item => preparedPromptLen item.1.toPreparedInputs) ≠ [] := by simpa using some_
  obtain ⟨top,found⟩ := Option.isSome_iff_exists.mp (List.isSome_max?_of_ne_nil lens)
  obtain ⟨longest,among,same⟩ := List.mem_map.mp (List.max?_mem found)
  exact ⟨longest,among,by rw [maxOf,found,same]; rfl⟩

/- What regrouping makes of right-padded rows, whichever of the rows of one length come first. -/
theorem regrouped {prepared : List (PreparedRow K)} {padId maxBatchSize : Nat} {batches : List (List (Nat × PreparedRow K))}
    (right : RightPadded prepared) (made : RebatchesTo prepared padId maxBatchSize batches) :
    Regrouped prepared padId (countCap prepared maxBatchSize) batches := by
  obtain ⟨order,⟨perm,sorted⟩,rfl⟩ := made
  have positive : 0 < countCap prepared maxBatchSize := by
    unfold countCap
    split <;> omega
  have joined := (groupRowsFlatten (countCap prepared maxBatchSize) [] 0 0 order).trans (List.nil_append order)
  have filled := groupRowsFilled (countCap prepared maxBatchSize) [] 0 0 order
  have fits := groupedRowsFit positive [] 0 0 order sorted fun none_ => absurd rfl none_
  have known : ∀ group ∈ groupRows (countCap prepared maxBatchSize) [] 0 0 order, ∀ item ∈ group,
      prepared[item.2]? = some item.1 := fun group inside item among =>
    List.mem_zipIdx_iff_getElem?.mp (perm.subset (joined ▸ List.mem_flatten_of_mem inside among))
  constructor
  · rw [repaddedPlaces,joined]
    exact rowPlaces perm
  · refine List.forall_mem_map.mpr fun group inside => ⟨by simpa [repadded] using filled group inside,?_⟩
    rw [repadded,List.length_map]
    exact (fits group inside).capped
  · refine List.forall_mem_map.mpr fun group inside => ?_
    refine List.forall_mem_map.mpr fun a first => List.forall_mem_map.mpr fun b second => ?_
    simp only [promptLen,repaddedLen]
    exact (fits group inside).spread a first b second
  · refine List.forall_mem_map.mpr fun group inside => ?_
    obtain ⟨longest,among,top⟩ := longestOf (filled group inside)
    refine ⟨_,List.mem_map_of_mem among,List.forall_mem_map.mpr fun item member => ?_⟩
    have src := known group inside item member
    simp only [promptLen,repaddedLen]
    rw [top]
    exact ⟨List.le_max?_getD_of_mem (List.mem_map_of_mem member),item.1,src,
      repaddedTo right (List.mem_of_getElem? src) padId _⟩

end Rows

section Generation
variable [Field K] {processor : Processor K} {prepared : List (PreparedRow K)} {padId : Nat}

def generateUngrouped (processor : Processor K) (prepared : List (PreparedRow K)) : Except String (List String) :=
  if prepared.length = 0 then .ok [] else
  generateBatches processor prepared.length [prepared.zipIdx.map fun (p,i) => (i,p)]

omit [Field K] in
theorem wholeBatched (aligned : Aligned prepared) (some_ : prepared ≠ []) :
    Rebatched prepared [prepared.zipIdx.map fun (p,i) => (i,p)] := by
  have rows : (prepared.zipIdx.map fun (p,i) => (i,p)).map Prod.snd = prepared := by
    rw [List.map_map]
    exact List.zipIdx_map_fst 0 prepared
  refine ⟨?_,?_,?_⟩
  · intro batch inside
    rw [List.mem_singleton.mp inside,rows]
    exact ⟨by simpa using some_,aligned⟩
  · rw [List.flatten_singleton,List.map_map]
    exact rowPlaces (.refl _)
  · intro e inside
    rw [List.flatten_singleton] at inside
    obtain ⟨⟨p,i⟩,among,rfl⟩ := List.mem_map.mp inside
    exact ⟨p,List.mem_zipIdx_iff_getElem?.mp among,rfl⟩

theorem regroupedAlike (rowwise : GeneratesByRow processor) (aligned : Aligned prepared) {maxBatchSize : Nat}
    {batches : List (List (Nat × PreparedRow K))} (made : RebatchesTo prepared padId maxBatchSize batches) (raws : List String) :
    generateBatches processor prepared.length batches = .ok raws ↔ generateUngrouped processor prepared = .ok raws := by
  obtain ⟨row,alone⟩ := rowwise
  obtain ⟨width,frames,shapes⟩ := id aligned
  obtain ⟨order,⟨perm,_⟩,rfl⟩ := made
  have joined := (groupRowsFlatten (countCap prepared maxBatchSize) [] 0 0 order).trans (List.nil_append order)
  have regrouped := rebatchedFrom (fun p inside => (shapes p inside).1) perm joined (groupRowsFilled _ [] 0 0 order) padId
  rw [batchesByRow alone regrouped]
  by_cases none_ : prepared = []
  · subst none_
    simp [generateUngrouped,eq_comm]
  · have some_ : prepared.length ≠ 0 := by simpa using none_
    rw [generateUngrouped,if_neg some_,batchesByRow alone (wholeBatched aligned none_)]

end Generation

variable [Field K]

/-- Right-padded rows are regrouped into batches within the cap, of lengths that differ by a third of
the least and by 256 at most, every row in one of them with its valid tokens and its features. A
generator that acts on rows without their padding returns for them, in the order of the rows, what it
returns for the batch as it was. -/
theorem regroupedRows (prepared : List (PreparedRow K)) (padId maxBatchSize : Nat) :
    RebatchesTo prepared padId maxBatchSize (rebatchPreparedInputs prepared padId maxBatchSize) ∧
    (RightPadded prepared → ∀ batches, RebatchesTo prepared padId maxBatchSize batches →
      Regrouped prepared padId (countCap prepared maxBatchSize) batches) ∧
    ∀ processor : Processor K, GeneratesByRow processor → Aligned prepared →
      (∀ batches, RebatchesTo prepared padId maxBatchSize batches → ∀ raws,
        generateBatches processor prepared.length batches = .ok raws ↔ generateUngrouped processor prepared = .ok raws) ∧
      (processor.tokenizer.tokenToId "<|endoftext|>" = .ok padId → ∀ raws,
        generateRawPreparedBatch processor maxBatchSize prepared = .ok raws ↔ generateUngrouped processor prepared = .ok raws) := by
  refine ⟨rebatchSorts prepared padId maxBatchSize,fun right batches => regrouped right,fun processor rowwise aligned =>
    ⟨fun batches => regroupedAlike rowwise aligned,fun pad raws => ?_⟩⟩
  by_cases none_ : prepared.length = 0
  · simp [generateRawPreparedBatch,generateUngrouped,none_]
  · rw [generateSplit none_,exceptBind]
    simp only [pad,Except.ok.injEq,exists_eq_left']
    exact regroupedAlike rowwise aligned (rebatchSorts prepared padId _) raws

def unevenRows : List (PreparedRow ℚ) :=
  let features := List.replicate FeatureExtractor.featureSize [0,0]
  [⟨⟨[1,2,3],[1,1,1]⟩,features,[1,1]⟩,⟨⟨[4,0,0],[1,0,0]⟩,features,[1,0]⟩]

theorem unevenAligned : Aligned unevenRows := by
  have even (p : PreparedRow ℚ) (inside : p ∈ unevenRows) :
      p.inputFeatures = List.replicate FeatureExtractor.featureSize [0,0] := by
    rcases List.mem_pair.mp inside with rfl | rfl <;> rfl
  refine ⟨3,2,fun p inside => ⟨⟨?_,?_,?_,?_⟩,?_,?_⟩⟩
  · rcases List.mem_pair.mp inside with rfl | rfl <;> decide
  · rw [even p inside,List.length_replicate]
  · intro row among
    rw [even p inside] at among
    rw [List.eq_of_mem_replicate among]
    rfl
  all_goals rcases List.mem_pair.mp inside with rfl | rfl <;> rfl

set_option maxRecDepth 20000 in
theorem regroupedRowsUneven :
    generateRawPreparedBatch (ChunkBatches.frameCounter .feature) 2 unevenRows = .ok ["2","1"] :=
  (((regroupedRows unevenRows 0 2).2.2 _ (ChunkBatches.frameCounterByRow .feature) unevenAligned).2 rfl _).mpr rfl

end Qwen3Asr.RegroupedRows
