import Qwen3Asr.AlignTokens
import Qwen3Asr.BatchPreparation
import Qwen3Asr.EagerBatch
import Qwen3Asr.FeatLengths
import Qwen3Asr.FixTimestamp

/-! The forced aligner over a padded batch: prompts with markers, the audio tower, one pass of the thinker, and
the times that it picks at the markers. -/
namespace Qwen3Asr.ForcedAligner
open Library Library.Effect Library.Word Library.CausalStack
open PagedMetadata PromptPositions BatchEngine PromptColumns CausalMask EagerThinker EagerRows EagerAgreement EagerDecode
open Library.Rowwise Library.ReservedWord ScratchDecode CachedBatch EagerBatch PromptBuilder AudioEncoder AlignTokens FixTimestamp FeatLengths

section Items

structure ItemMs where
  text : Token
  startTimeMs : Int
  endTimeMs : Int
  deriving DecidableEq, Repr

structure ForcedAlignItem where
  text : Token
  startTime : ℚ
  endTime : ℚ
  deriving DecidableEq, Repr

def itemMs (fixed : List Int) (word : Token × Nat) : Except String ItemMs := do
  let startIdx ← okOr (checkedMul word.2 2) "timestamp index overflow"
  let endIdx ← okOr (checkedAdd startIdx 1) "timestamp index overflow"
  let startTime ← okOr fixed[startIdx]? "missing start timestamp"
  let endTime ← okOr fixed[endIdx]? "missing end timestamp"
  .ok ⟨word.1,startTime,endTime⟩

/- A repair that does not end has a message of its own. -/
def parseTimestamp (words : List Token) (timestampMs : List ℚ) : Except String (List ItemMs) := do
  if words = [] then .error "words is empty" else
  let expected ← okOr (checkedMul words.length 2) "timestamp length overflow"
  if timestampMs.length ≠ expected then
    .error s!"timestamp_ms length mismatch: expected={expected}, got={timestampMs.length}"
  else
  let fixed ← okOr (fixTimestamp timestampMs) "diverges"
  words.zipIdx.mapM (itemMs fixed)

/- Halves are rounded away from zero. -/
def round (x : ℚ) : Int := if 0 ≤ x then ⌊x+1/2⌋ else ⌈x-1/2⌉

def round3 (x : ℚ) : ℚ := round (x*1000)/1000

def alignItem (it : ItemMs) : ForcedAlignItem := ⟨it.text,round3 (it.startTimeMs/1000),round3 (it.endTimeMs/1000)⟩

end Items

structure Qwen3ForcedAligner (K φ η κ : Type) where
  unicode : Unicode
  segment : List Char → Except String (List Token)
  koreanDict : Except String KoreanDict
  japaneseMergeTerms : JapaneseMergeTerms
  tokenizer : Tokenizer
  tower : AudioTower K φ
  thinker : CausalThinker φ η κ
  timestampTokenId : Nat
  timestampSegmentTimeMs : ℚ

section Align
variable {K φ η κ : Type} (aligner : Qwen3ForcedAligner K φ η κ)

def encoded (text language : String) : Except String (List Token × List Char) :=
  encodeTimestamp aligner.unicode aligner.segment aligner.koreanDict aligner.japaneseMergeTerms text language

def promptOf (text language : String) (prepared : FeatureExtractor.Features K) : Except String (List Token × List Nat) := do
  let (words,prompt) ← encoded aligner text language
  let baseIds ← aligner.tokenizer.encode (String.ofList prompt)
  .ok (words,expandAudioPadIdsFirst baseIds aligner.thinker.audioTokenId (audioOutLen prepared.featureAttentionMask))

def paddedRow (padId maxTokens : Nat) (ids : List Nat) : Except String (List Nat × List Nat) :=
  if maxTokens < ids.length then
    .error s!"internal error: sequence len {ids.length} > max_tokens {maxTokens}"
  else
  let pad := maxTokens-ids.length
  .ok (ids ++ List.replicate pad padId,List.replicate ids.length 1 ++ List.replicate pad 0)

def stackU32 (what : String) (rows : List (List Nat)) : Except String (Grid Nat) :=
  match rows with
  | [] => .error s!"{what} is empty"
  | first::_ =>
    if first.length = 0 then .error s!"{what} rows are empty" else do
    let _ ← rows.zipIdx.mapM fun row =>
      if row.1.length ≠ first.length then
        .error s!"{what}[{row.2}] length mismatch: expected={first.length}, got={row.1.length}"
      else .ok ()
    tensor first.length rows

def stackRow (mel frames : Nat) (p : FeatureExtractor.Features K × Nat) : Except String (Grid K) := do
  if p.1.inputFeatures.length ≠ mel then
    .error s!"prepared[{p.2}].input_features mel mismatch: expected={mel}, got={p.1.inputFeatures.length}"
  else
  if p.1.featureAttentionMask.length ≠ frames then
    .error s!"prepared[{p.2}].feature_attention_mask len mismatch: expected={frames}, got={p.1.featureAttentionMask.length}"
  else
  let rows ← p.1.inputFeatures.mapM fun row =>
    if row.length ≠ frames then
      .error s!"prepared[{p.2}].input_features row len mismatch: expected={frames}, got={row.length}"
    else .ok row
  tensor frames rows

def stackFeaturesRefs (prepared : List (FeatureExtractor.Features K)) : Except String (List (Grid K) × List Nat) :=
  match prepared with
  | [] => .error "prepared is empty"
  | first::_ => do
    let mel := first.inputFeatures.length
    if mel = 0 then .error "prepared input_features has zero mel bins" else
    let frames ← okOr (first.inputFeatures.head?.map List.length) "prepared input_features missing first row"
    if frames = 0 then .error "prepared input_features has zero frames" else
    let inputFeatures ← prepared.zipIdx.mapM (stackRow mel frames)
    .ok (inputFeatures,prepared.map fun p => realFrames p.featureAttentionMask)

def checkLen (frames : Nat) (len : Nat × Nat) : Except String Unit :=
  if frames < len.1 then .error s!"feature_lens[{len.2}] exceeds frames: len={len.1} frames={frames}" else .ok ()

def forwardSample [Zero K] (tower : AudioTower K φ) (sample : Grid K × Nat) : Except String (List φ) :=
  if sample.2 = 0 then .ok [] else forwardOne tower (sample.1.columns 0 sample.2)

/- The samples are rows of one tensor: they have the shape of the first. -/
def getAudioFeaturesWithLens [Zero K] (tower : AudioTower K φ) (inputFeatures : List (Grid K)) (featureLens : List Nat) :
    Except String (List φ) := do
  let mel := (inputFeatures.head?.map (·.rows.length)).getD 0
  let frames := (inputFeatures.head?.map Grid.width).getD 0
  if mel ≠ tower.numMelBins then
    .error s!"input_features mel bins mismatch: expected={tower.numMelBins}, got={mel}"
  else
  if featureLens.length ≠ inputFeatures.length then
    .error s!"feature_lens batch mismatch: expected={inputFeatures.length}, got={featureLens.length}"
  else
  let _ ← featureLens.zipIdx.mapM (checkLen frames)
  let outs ← (inputFeatures.zip featureLens).mapM (forwardSample tower)
  .ok outs.flatten

def addPlaceholders (audioTokenId total : Nat) (row : List Nat × Nat) : Except String Nat :=
  let n := row.1.count audioTokenId
  okOr (checkedAdd total n) s!"audio placeholder count overflow at row {row.2}: adding {n}"

def audioPlaceholderCountTotal (rows : List (List Nat)) (audioTokenId : Nat) : Except String Nat :=
  rows.zipIdx.foldlM (addPlaceholders audioTokenId) 0

def timestampPositions (timestampTokenId : Nat) (ids : List Nat) : List Nat :=
  ids.zipIdx.filterMap fun tok => if tok.1 = timestampTokenId then some tok.2 else none

def timeAt (samplePred : List Nat) (pos : Nat) : Except String ℚ := do
  let classId ← okOr samplePred[pos]? s!"pred_ids missing position {pos}"
  .ok ((classId:ℚ)*aligner.timestampSegmentTimeMs)

def alignedItems (words : List Token) (ids samplePred : List Nat) : Except String (List ForcedAlignItem) := do
  let tsPositions := timestampPositions aligner.timestampTokenId ids
  let expected ← okOr (checkedMul words.length 2) "timestamp count overflow"
  if tsPositions.length ≠ expected then
    .error s!"timestamp token count mismatch: expected={expected} got={tsPositions.length} timestamp_token_id={aligner.timestampTokenId}"
  else
  let timestampMs ← tsPositions.mapM (timeAt aligner samplePred)
  let items ← parseTimestamp words timestampMs
  .ok (items.map alignItem)

def resultAt (paddedIds predIds : List (List Nat)) (words : List Token × Nat) : Except String (List ForcedAlignItem) := do
  let ids ← okOr paddedIds[words.2]? s!"missing input_ids for item {words.2}"
  let samplePred ← okOr predIds[words.2]? s!"missing pred_ids for item {words.2}"
  alignedItems aligner words.1 ids samplePred

def languagesFor (n : Nat) (language : List String) : List String :=
  if language.length = 1 ∧ 1 < n then List.replicate n (language.headD "") else language

structure AlignInput (K : Type) where
  text : String
  language : String
  prepared : FeatureExtractor.Features K

def alignInputs (audio : List (FeatureExtractor.Features K)) (text languages : List String) : List (AlignInput K) :=
  (text.zip (languages.zip audio)).map fun item => ⟨item.1,item.2.1,item.2.2⟩

def alignRows [Zero K] (audio : List (FeatureExtractor.Features K)) (prompts : List (List Token × List Nat)) :
    Except String (List (List ForcedAlignItem)) := do
  let maxTokens := maxOf (prompts.map fun p => p.2.length)
  if maxTokens = 0 then .error "tokenization produced empty input_ids" else
  let padId ← aligner.tokenizer.tokenToId "<|endoftext|>"
  let padded ← prompts.mapM fun p => paddedRow padId maxTokens p.2
  let paddedIds := padded.map Prod.fst
  let inputIds ← stackU32 "input_ids" paddedIds
  let attentionMask ← stackU32 "attention_mask" (padded.map Prod.snd)
  let (inputFeatures,featureLens) ← stackFeaturesRefs audio
  let audioFeatures ← getAudioFeaturesWithLens aligner.tower inputFeatures featureLens
  let audioPlaceholderCount ← audioPlaceholderCountTotal paddedIds aligner.thinker.audioTokenId
  let predIds ← forwardWithAudioFeatures aligner.thinker inputIds attentionMask (some audioFeatures) audioPlaceholderCount
  if predIds.rows.length ≠ paddedIds.length then
    .error s!"internal error: pred_ids batch size mismatch: expected={paddedIds.length}, got={predIds.rows.length}"
  else (prompts.map Prod.fst).zipIdx.mapM (resultAt aligner paddedIds predIds.rows)

def alignWithFeatures [Zero K] (audio : List (FeatureExtractor.Features K)) (text language : List String) :
    Except String (List (List ForcedAlignItem)) := do
  if audio = [] then .ok [] else
  if text.length ≠ audio.length then .error s!"batch size mismatch: audio={audio.length} text={text.length}" else
  let languages := languagesFor audio.length language
  if languages.length ≠ audio.length then
    .error s!"batch size mismatch: audio={audio.length} language={languages.length}"
  else
  let prompts ← (alignInputs audio text languages).mapM fun item => promptOf aligner item.text item.language item.prepared
  alignRows aligner audio prompts

end Align

section Times

def spans (items : List ItemMs) : List Int := items.flatMap fun it => [it.startTimeMs,it.endTimeMs]

def times (items : List ForcedAlignItem) : List ℚ := items.flatMap fun it => [it.startTime,it.endTime]

theorem itemMsOk {fixed : List Int} {word : Token × Nat} {it : ItemMs} (ok : itemMs fixed word = .ok it) :
    it.text = word.1 ∧ fixed[2*word.2]? = some it.startTimeMs ∧ fixed[2*word.2+1]? = some it.endTimeMs := by
  obtain ⟨startIdx,first,ok⟩ := exceptBind.mp ok
  obtain ⟨endIdx,second,ok⟩ := exceptBind.mp ok
  obtain ⟨startTime,starts,ok⟩ := exceptBind.mp ok
  obtain ⟨endTime,ends,ok⟩ := exceptBind.mp ok
  cases Except.ok.inj ok
  obtain ⟨_,rfl⟩ := checkedMulSome.mp (okOrOk.mp first)
  obtain ⟨_,rfl⟩ := checkedAddSome.mp (okOrOk.mp second)
  rw [Nat.mul_comm 2]
  exact ⟨rfl,okOrOk.mp starts,okOrOk.mp ends⟩

theorem itemsTake {fixed : List Int} {words : List Token} {n : Nat} {items : List ItemMs}
    (ok : (words.zipIdx n).mapM (itemMs fixed) = .ok items) :
    items.map ItemMs.text = words ∧ spans items = (fixed.drop (2*n)).take (2*words.length) := by
  induction words generalizing n items with
  | nil =>
    obtain rfl : [] = items := Except.ok.inj ok
    exact ⟨rfl,rfl⟩
  | cons word words ih =>
    rw [List.zipIdx_cons,List.mapM_cons] at ok
    obtain ⟨it,head,ok⟩ := exceptBind.mp ok
    obtain ⟨rest,tail,ok⟩ := exceptBind.mp ok
    cases Except.ok.inj ok
    obtain ⟨text,starts,ends⟩ := itemMsOk head
    obtain ⟨texts,same⟩ := ih tail
    obtain ⟨startBound,startSame⟩ := List.getElem?_eq_some_iff.mp starts
    obtain ⟨endBound,endSame⟩ := List.getElem?_eq_some_iff.mp ends
    dsimp only at startSame endSame startBound endBound
    have pair : fixed.drop (2*n) = it.startTimeMs::it.endTimeMs::fixed.drop (2*(n+1)) := by
      rw [List.drop_eq_getElem_cons startBound,List.drop_eq_getElem_cons endBound,startSame,endSame]
      rfl
    refine ⟨congrArg₂ List.cons text texts,?_⟩
    rw [pair,List.length_cons,Nat.mul_succ,List.take_succ_cons,List.take_succ_cons,← same]
    rfl

theorem parsedOrder {words : List Token} {timestampMs : List ℚ} {items : List ItemMs}
    (ok : parseTimestamp words timestampMs = .ok items) :
    items.map ItemMs.text = words ∧ (spans items).Pairwise (· ≤ ·) := by
  unfold parseTimestamp at ok
  split at ok
  · cases ok
  obtain ⟨expected,_,ok⟩ := exceptBind.mp ok
  split at ok
  · cases ok
  obtain ⟨fixed,fixes,ok⟩ := exceptBind.mp ok
  obtain ⟨_,_,same,_,whole,_⟩ := timestampsFixed timestampMs
  obtain rfl := Option.some.inj (same.symm.trans (okOrOk.mp fixes))
  obtain ⟨texts,taken⟩ := itemsTake ok
  refine ⟨texts,?_⟩
  rw [taken]
  exact (whole.ordered.sublist (List.drop_sublist _ _)).sublist (List.take_sublist _ _)

theorem round3Ms (ms : Int) : round3 (ms/1000) = ms/1000 := by
  have exact_ : round ms = ms := by
    unfold round
    split
    · exact Int.floor_eq_iff.mpr ⟨by linarith,by linarith⟩
    · exact Int.ceil_eq_iff.mpr ⟨by linarith,by linarith⟩
  rw [round3,div_mul_cancel₀ _ (by norm_num),exact_]

theorem alignedTimes (items : List ItemMs) : times (items.map alignItem) = (spans items).map (fun ms : Int => (ms:ℚ)/1000) := by
  induction items with
  | nil => rfl
  | cons it items ih =>
    simp only [times,spans,List.map_cons,List.flatMap_cons,List.map_append] at ih ⊢
    rw [ih]
    simp [alignItem,round3Ms]

end Times

section Rows
variable {K φ η κ : Type} {aligner : Qwen3ForcedAligner K φ η κ}

structure Ordered (words : List Token) (items : List ForcedAlignItem) : Prop where
  words : items.map ForcedAlignItem.text = words
  times : (times items).Pairwise (· ≤ ·)

theorem itemsOrdered {words : List Token} {ids samplePred : List Nat} {items : List ForcedAlignItem}
    (ok : alignedItems aligner words ids samplePred = .ok items) : Ordered words items := by
  unfold alignedItems at ok
  obtain ⟨expected,_,ok⟩ := exceptBind.mp ok
  split at ok
  · cases ok
  obtain ⟨timestampMs,_,ok⟩ := exceptBind.mp ok
  obtain ⟨parsed,parses,ok⟩ := exceptBind.mp ok
  cases Except.ok.inj ok
  obtain ⟨texts,ordered⟩ := parsedOrder parses
  refine ⟨?_,?_⟩
  · rw [List.map_map,← texts]
    rfl
  · rw [alignedTimes]
    refine ordered.map _ fun a b less => ?_
    exact div_le_div_of_nonneg_right (by exact_mod_cast less) (by norm_num)

theorem positionsWithin {timestampTokenId : Nat} {ids : List Nat} : ∀ pos ∈ timestampPositions timestampTokenId ids, pos < ids.length := by
  intro pos inside
  obtain ⟨tok,there,same⟩ := List.mem_filterMap.mp inside
  split at same
  · obtain rfl := Option.some.inj same
    exact List.snd_lt_of_mem_zipIdx there
  · cases same

/- The padding holds no marker, and what is picked at it is not looked at. -/
theorem alignedPadded {padId : Nat} (apart : padId ≠ aligner.timestampTokenId) (words : List Token) (ids samplePred : List Nat)
    (pad : Nat) : alignedItems aligner words (ids ++ List.replicate pad padId) samplePred =
      alignedItems aligner words ids (samplePred.take ids.length) := by
  have positions : timestampPositions aligner.timestampTokenId (ids ++ List.replicate pad padId) =
      timestampPositions aligner.timestampTokenId ids := by
    unfold timestampPositions
    rw [List.zipIdx_append,List.filterMap_append]
    refine (congrArg _ (List.filterMap_eq_nil_iff.mpr fun tok inside => ?_)).trans (List.append_nil _)
    have padded : tok.1 = padId := List.eq_of_mem_replicate (List.fst_mem_of_mem_zipIdx inside)
    rw [if_neg (by rw [padded]; exact apart)]
  have picked : (timestampPositions aligner.timestampTokenId ids).mapM (timeAt aligner samplePred) =
      (timestampPositions aligner.timestampTokenId ids).mapM (timeAt aligner (samplePred.take ids.length)) := by
    refine mapMRelated (List.forall₂_same.mpr fun pos inside => ?_)
    rw [timeAt,timeAt,List.getElem?_take_of_lt (positionsWithin pos inside)]
  unfold alignedItems
  dsimp only
  rw [positions,picked]

end Rows

section Pass
variable {φ η κ : Type} {thinker : CausalThinker φ η κ} {inputIds attentionMask logits : Grid Nat} {audio : List φ}

theorem paddedPicks (ok : forwardWithAudioFeatures thinker inputIds attentionMask (some audio)
      (countAudioPlaceholdersBatch inputIds.rows thinker.audioTokenId) = .ok logits) :
    (inputIds.rows ≠ [] → inputIds.width < 2^32) ∧ countAudioPlaceholdersBatch inputIds.rows thinker.audioTokenId = audio.length ∧
    ∀ (i : Nat) (ids mask : List Nat), inputIds.rows[i]? = some ids → attentionMask.rows[i]? = some mask →
      attentionMaskIsRightPadded mask = true → ∃ samplePred, logits.rows[i]? = some samplePred ∧
        samplePred.take (validLen mask) = picks thinker (denseInputs thinker (mergeRow thinker.audioTokenId
          (rowAudio thinker.audioTokenId audio inputIds.rows i (ids.take (validLen mask))) 0 (ids.take (validLen mask)))) := by
  obtain ⟨embeds,embedded,ok⟩ := exceptBind.mp ok
  obtain ⟨positionIds,rope,ok⟩ := exceptBind.mp ok
  split at ok
  · cases ok
  next dims =>
  obtain ⟨out,ran,ok⟩ := exceptBind.mp ok
  cases Except.ok.inj ok
  obtain ⟨_,dimWidth⟩ := not_or.mp dims
  obtain ⟨counted,embedRows,embedWidth⟩ := (inputsEmbedsOk fun _ => rfl).mp embedded
  obtain ⟨ropeRows,_⟩ := ropePositionsOk rope
  refine ⟨fun some_ => ?_,counted audio rfl,fun i ids mask found masked padded => ?_⟩
  · obtain ⟨layer,layers,deep⟩ := List.exists_cons_of_ne_nil thinker.deep
    rw [deep] at ran
    obtain ⟨_,flash,_⟩ := exceptBind.mp ran
    have batch : 0 < embeds.rows.length := by
      rw [embedRows,List.length_map,columnsOf,mergeRowsLength]
      exact List.length_pos_of_ne_nil some_
    rw [embedWidth] at flash
    rcases flashFits.mp flash with short | ⟨small,_⟩
    · omega
    · exact (Nat.le_mul_of_pos_left _ batch).trans_lt small
  · have idsWidth := Grid.rowLength found
    have maskWidth : mask.length = embeds.width := (Grid.rowLength masked).trans (not_not.mp dimWidth)
    have within : validLen mask ≤ mask.length := validLenLe mask
    obtain ⟨columns,there⟩ : ∃ columns, (columnsOf thinker.audioTokenId (some audio) inputIds.rows)[i]? = some columns :=
      ⟨_,mergeRowsGet _ _ _ found⟩
    have same : columns.length = mask.length := by
      rw [columnsEven _ _ columns (List.mem_of_getElem? there),maskWidth,embedWidth]
    let all : List (Input η Int) := promptInputs thinker columns mask
    obtain ⟨hiddens,positions,bits⟩ := promptParts thinker same
    have row : RowInputs embeds positionIds i all :=
      ⟨by rw [embedRows,List.getElem?_map,there,hiddens]; rfl,by rw [ropeRows,List.getElem?_map,masked,positions]; rfl⟩
    have sees : SeesCausally κ (some (makeCausalMask attentionMask.rows embeds.width)) i [] (all.map Input.holds) := by
      intro t query keys _
      rw [bits,bitsLength] at query
      rw [allowedPlain masked maskWidth (by omega),bits]
      simp
    have picked := Grid.mapRow thinker.pick (layersRow ran sees row)
    have front : all.take (validLen mask) = denseInputs thinker (promptRow columns mask) := promptTake same within (frontValid padded).1
    have long : (all.take (validLen mask)).length = validLen mask := by
      rw [List.length_take,EagerRows.promptLength same,same]
      omega
    have cut := @picksAppend _ _ _ thinker (all.take (validLen mask)) (all.drop (validLen mask))
    rw [List.take_append_drop,long,front,rowMerged audio found (by omega) there] at cut
    refine ⟨_,picked,?_⟩
    rw [← cut,picks,List.map_map]
    rfl

theorem forwardGoes (thinker : CausalThinker φ η κ) (some_ : inputIds.rows ≠ []) (wide : inputIds.width ≠ 0)
    (masks : attentionMask.rows.length = inputIds.rows.length) (width : attentionMask.width = inputIds.width)
    (small : inputIds.rows.length*inputIds.width < 2^32)
    (counted : countAudioPlaceholdersBatch inputIds.rows thinker.audioTokenId = audio.length) :
    ∃ logits, forwardWithAudioFeatures thinker inputIds attentionMask (some audio)
        (countAudioPlaceholdersBatch inputIds.rows thinker.audioTokenId) = .ok logits ∧
      logits.rows.length = inputIds.rows.length := by
  have first : 0 < inputIds.rows.length := List.length_pos_of_ne_nil some_
  obtain ⟨positionIds,rope⟩ := @ropePositionsGo attentionMask (List.ne_nil_of_length_pos (by omega)) (by omega)
  obtain ⟨ropeRows,ropeWidth⟩ := ropePositionsOk rope
  obtain ⟨embeds,embedded⟩ := @inputsEmbedsGo _ _ _ _ (some audio) thinker _ (fun _ => rfl) fun _ same => by
    cases same
    exact counted
  obtain ⟨_,embedRows,embedWidth⟩ := (inputsEmbedsOk fun _ => rfl).mp embedded
  have size : embeds.rows.length = inputIds.rows.length := by
    rw [embedRows,List.length_map,columnsOf,mergeRowsLength]
  have same : SameShape embeds positionIds :=
    ⟨by rw [ropeRows,List.length_map,masks,size],by rw [ropeWidth,width,embedWidth]⟩
  have flash : makeFlashParams embeds.rows.length embeds.width embeds.width = .ok () := by
    rw [size,embedWidth]
    exact flashFits.mpr (.inr ⟨small,small⟩)
  obtain ⟨out,ran,_⟩ := layersGo (makeCausalMask attentionMask.rows embeds.width) thinker.layers same flash
  refine ⟨out.map thinker.pick,exceptBind.mpr ⟨embeds,embedded,exceptBind.mpr ⟨positionIds,rope,?_⟩⟩,?_⟩
  · rw [if_neg (by rw [masks,size,width,embedWidth]; simp)]
    exact exceptBind.mpr ⟨out,ran,rfl⟩
  · rw [← size,← (layersShape same ran).1]
    exact List.length_map _

end Pass

section Features
variable {K φ : Type} {audio : List (FeatureExtractor.Features K)} {inputFeatures : List (Grid K)} {featureLens : List Nat}
  {mel frames : Nat}

structure Shaped (mel frames : Nat) (p : FeatureExtractor.Features K) : Prop where
  mel : p.inputFeatures.length = mel
  mask : p.featureAttentionMask.length = frames
  even : ∀ row ∈ p.inputFeatures, row.length = frames

def OneShape (audio : List (FeatureExtractor.Features K)) : Prop :=
  ∃ mel frames, mel ≠ 0 ∧ frames ≠ 0 ∧ ∀ p ∈ audio, Shaped mel frames p

structure Stackable (mel frames : Nat) (p : FeatureExtractor.Features K) (g : Grid K) : Prop extends Shaped mel frames p where
  rows : g.rows = p.inputFeatures
  width : g.width = frames

theorem stackRowOk {p : FeatureExtractor.Features K × Nat} {g : Grid K} :
    stackRow mel frames p = .ok g ↔ Stackable mel frames p.1 g := by
  have kept (rows : List (List K)) : p.1.inputFeatures.mapM (fun row => if row.length ≠ frames then
      Except.error s!"prepared[{p.2}].input_features row len mismatch: expected={frames}, got={row.length}" else .ok row) = .ok rows ↔
      (∀ row ∈ p.1.inputFeatures, row.length = frames) ∧ p.1.inputFeatures.map id = rows := by
    refine exceptMapChecked fun row _ same => ?_
    split <;> simp_all
  unfold stackRow
  constructor
  · intro ok
    split at ok
    · cases ok
    next mel_ =>
    split at ok
    · cases ok
    next mask_ =>
    obtain ⟨rows,same,ok⟩ := exceptBind.mp ok
    obtain ⟨even,rfl⟩ := (kept rows).mp same
    rw [List.map_id] at ok
    obtain ⟨rows,width,_⟩ := tensorOk.mp ok
    exact ⟨⟨not_not.mp mel_,not_not.mp mask_,even⟩,rows,width⟩
  · intro stackable
    rw [if_neg (not_not.mpr stackable.mel),if_neg (not_not.mpr stackable.mask)]
    refine exceptBind.mpr ⟨p.1.inputFeatures,(kept _).mpr ⟨stackable.even,List.map_id _⟩,?_⟩
    exact tensorOk.mpr ⟨stackable.rows,stackable.width,stackable.even⟩

theorem stackRowsOk (n : Nat) : (audio.zipIdx n).mapM (stackRow mel frames) = .ok inputFeatures ↔
    List.Forall₂ (Stackable mel frames) audio inputFeatures := by
  have samples : (audio.zipIdx n).map Prod.fst = audio := List.zipIdx_map_fst n audio
  conv_rhs => rw [← samples,List.forall₂_map_left_iff]
  simp only [exceptMapM,stackRowOk]

theorem stackedOk : stackFeaturesRefs audio = .ok (inputFeatures,featureLens) ↔ audio ≠ [] ∧
    (∃ mel frames, mel ≠ 0 ∧ frames ≠ 0 ∧ List.Forall₂ (Stackable mel frames) audio inputFeatures) ∧
    featureLens = audio.map fun p => realFrames p.featureAttentionMask := by
  unfold stackFeaturesRefs
  cases audio with
  | nil => exact iff_of_false (fun ok => by cases ok) fun stacked => stacked.1 rfl
  | cons first rest =>
    constructor
    · intro ok
      dsimp only at ok
      split at ok
      · cases ok
      next bins =>
      obtain ⟨frames,_,ok⟩ := exceptBind.mp ok
      split at ok
      · cases ok
      next some_ =>
      obtain ⟨grids,stacked,ok⟩ := exceptBind.mp ok
      cases Except.ok.inj ok
      exact ⟨List.cons_ne_nil _ _,⟨_,frames,bins,some_,(stackRowsOk 0).mp stacked⟩,rfl⟩
    · rintro ⟨_,⟨mel,frames,bins,some_,stackable⟩,rfl⟩
      obtain ⟨g,_,shaped,_,_⟩ := List.forall₂_cons_left_iff.mp stackable
      obtain ⟨row,rows,parts⟩ := List.exists_cons_of_length_pos (by rw [shaped.mel]; omega : 0 < first.inputFeatures.length)
      have head : first.inputFeatures.head?.map List.length = some frames := by
        rw [parts]
        exact congrArg some (shaped.even row (by rw [parts]; exact List.mem_cons_self))
      dsimp only
      rw [shaped.mel,if_neg bins]
      refine exceptBind.mpr ⟨frames,okOrOk.mpr head,?_⟩
      rw [if_neg some_]
      exact exceptBind.mpr ⟨inputFeatures,(stackRowsOk 0).mpr stackable,rfl⟩

theorem stackedShape (shape : OneShape audio) (some_ : audio ≠ []) : ∃ inputFeatures,
    stackFeaturesRefs audio = .ok (inputFeatures,audio.map fun p => realFrames p.featureAttentionMask) := by
  obtain ⟨mel,frames,bins,wide,each⟩ := shape
  have made : ∀ p ∈ audio, ∃ g, stackRow mel frames (p,0) = .ok g := fun p inside =>
    ⟨⟨p.inputFeatures,frames,(each p inside).even⟩,stackRowOk.mpr ⟨each p inside,rfl,rfl⟩⟩
  obtain ⟨grids,pairs⟩ := rowsOk made
  exact ⟨grids,stackedOk.mpr ⟨some_,⟨mel,frames,bins,wide,pairs.imp fun p g ok => stackRowOk.mp ok⟩,rfl⟩⟩

theorem shapeStacked (ok : stackFeaturesRefs audio = .ok (inputFeatures,featureLens)) : OneShape audio := by
  obtain ⟨_,⟨mel,frames,bins,wide,pairs⟩,_⟩ := stackedOk.mp ok
  refine ⟨mel,frames,bins,wide,fun p inside => ?_⟩
  obtain ⟨i,found⟩ := List.mem_iff_getElem?.mp inside
  obtain ⟨g,_,stackable⟩ := pairedAt pairs found
  exact stackable.toShaped

variable [Zero K] {tower : AudioTower K φ} {audioFeatures : List φ}

def ownFeatures (tower : AudioTower K φ) (p : FeatureExtractor.Features K) : Except String (List φ) := do
  let (inputFeatures,featureLens) ← stackFeaturesRefs [p]
  getAudioFeaturesWithLens tower inputFeatures featureLens

theorem samplesOk (some_ : audio ≠ []) (pairs : List.Forall₂ (Stackable mel frames) audio inputFeatures) :
    getAudioFeaturesWithLens tower inputFeatures (audio.map fun p => realFrames p.featureAttentionMask) = .ok audioFeatures ↔
      mel = tower.numMelBins ∧ ∃ outs, List.Forall₂ (fun sample own => forwardSample tower sample = .ok own)
        (inputFeatures.zip (audio.map fun p => realFrames p.featureAttentionMask)) outs ∧ outs.flatten = audioFeatures := by
  have checked : (audio.map fun p => realFrames p.featureAttentionMask).zipIdx.mapM (checkLen frames) =
      .ok ((audio.map fun p => realFrames p.featureAttentionMask).zipIdx.map fun _ => ()) := by
    refine (exceptMapChecked (P := fun len => len.1 ≤ frames) (g := fun _ => ()) fun len _ out => ?_).mpr ⟨fun len inside => ?_,rfl⟩
    · unfold checkLen
      split
      · next long => exact iff_of_false (fun ok => by cases ok) fun fits => absurd fits.1 (Nat.not_le.mpr long)
      · next fits => exact iff_of_true rfl ⟨Nat.not_lt.mp fits,rfl⟩
    · obtain ⟨p,member,same⟩ := List.mem_map.mp (List.fst_mem_of_mem_zipIdx inside)
      obtain ⟨i,found⟩ := List.mem_iff_getElem?.mp member
      obtain ⟨_,_,stackable⟩ := pairedAt pairs found
      rw [← same,← stackable.mask]
      exact List.countP_le_length
  obtain ⟨first,rest,rfl⟩ := List.exists_cons_of_ne_nil some_
  obtain ⟨g,grids,head,tail,rfl⟩ := List.forall₂_cons_left_iff.mp pairs
  have bins : g.rows.length = mel := by rw [head.rows,head.mel]
  have lens : ((first::rest).map fun p => realFrames p.featureAttentionMask).length = (g::grids).length := by
    rw [List.length_map,pairs.length_eq]
  unfold getAudioFeaturesWithLens
  simp only [List.head?_cons,Option.map_some,Option.getD_some,bins,head.width,lens,ne_eq,not_true,if_false]
  split
  · next other => exact iff_of_false (fun ok => by cases ok) fun encodes => other encodes.1
  · next same =>
    rw [and_iff_right (not_not.mp same),checked]
    constructor
    · intro ok
      obtain ⟨_,_,ok⟩ := exceptBind.mp ok
      obtain ⟨outs,ran,ok⟩ := exceptBind.mp ok
      exact ⟨outs,exceptMapM.mp ran,Except.ok.inj ok⟩
    · rintro ⟨outs,ran,rfl⟩
      exact exceptBind.mpr ⟨_,rfl,exceptBind.mpr ⟨outs,exceptMapM.mpr ran,rfl⟩⟩

theorem ownOk {p : FeatureExtractor.Features K} {g : Grid K} (bins : mel ≠ 0) (wide : frames ≠ 0) (stackable : Stackable mel frames p g)
    {own : List φ} : ownFeatures tower p = .ok own ↔
      mel = tower.numMelBins ∧ forwardSample tower (g,realFrames p.featureAttentionMask) = .ok own := by
  have stacked : stackFeaturesRefs [p] = .ok ([g],[realFrames p.featureAttentionMask]) :=
    stackedOk.mpr ⟨List.cons_ne_nil _ _,⟨mel,frames,bins,wide,.cons stackable .nil⟩,rfl⟩
  have sample := @samplesOk _ _ _ _ _ _ _ tower own (List.cons_ne_nil p []) (.cons stackable .nil)
  unfold ownFeatures
  rw [stacked]
  refine sample.trans (and_congr_right fun _ => ?_)
  constructor
  · rintro ⟨outs,ran,rfl⟩
    obtain ⟨one,_,head,none_,rfl⟩ := List.forall₂_cons_left_iff.mp ran
    cases none_
    rw [List.flatten_cons,List.flatten_nil,List.append_nil]
    exact head
  · intro ran
    exact ⟨[own],.cons ran .nil,List.append_nil own⟩

/- The tower's rows of a batch are those of its samples, one after another. -/
theorem featuresApart (stacked : stackFeaturesRefs audio = .ok (inputFeatures,featureLens)) :
    getAudioFeaturesWithLens tower inputFeatures featureLens = .ok audioFeatures ↔
      ∃ outs, List.Forall₂ (fun p own => ownFeatures tower p = .ok own) audio outs ∧ outs.flatten = audioFeatures := by
  obtain ⟨some_,⟨mel,frames,bins,wide,pairs⟩,rfl⟩ := stackedOk.mp stacked
  have each (same : mel = tower.numMelBins) (outs : List (List φ)) :
      List.Forall₂ (fun sample own => forwardSample tower sample = .ok own)
        (inputFeatures.zip (audio.map fun p => realFrames p.featureAttentionMask)) outs ↔
      List.Forall₂ (fun p own => ownFeatures tower p = .ok own) audio outs := by
    clear some_ stacked
    induction pairs generalizing outs with
    | nil => simp
    | cons head _ ih =>
      simp only [List.map_cons,List.zip_cons_cons,List.forall₂_cons_left_iff,ih,ownOk bins wide head,and_iff_right same]
  rw [samplesOk some_ pairs]
  constructor
  · rintro ⟨same,outs,ran,rfl⟩
    exact ⟨outs,(each same outs).mp ran,rfl⟩
  · rintro ⟨outs,ran,rfl⟩
    obtain ⟨first,rest,rfl⟩ := List.exists_cons_of_ne_nil some_
    obtain ⟨_,_,encoded,_,_⟩ := List.forall₂_cons_left_iff.mp ran
    obtain ⟨_,_,head,_,_⟩ := List.forall₂_cons_left_iff.mp pairs
    have same := ((ownOk bins wide head).mp encoded).1
    exact ⟨same,outs,(each same outs).mpr ran,rfl⟩

theorem ownLength (fifty : tower.nWindow = 50) {p : FeatureExtractor.Features K} {own : List φ}
    (ok : ownFeatures tower p = .ok own) : own.length = audioOutLen p.featureAttentionMask := by
  obtain ⟨⟨grids,lens⟩,stacked,_⟩ := exceptBind.mp ok
  obtain ⟨_,⟨mel,frames,bins,wide,pairs⟩,rfl⟩ := stackedOk.mp stacked
  obtain ⟨g,_,stackable,_,_⟩ := List.forall₂_cons_left_iff.mp pairs
  have forwarded := ((ownOk bins wide stackable).mp ok).2
  have within : realFrames p.featureAttentionMask ≤ frames := by
    rw [← stackable.mask]
    exact List.countP_le_length
  unfold forwardSample at forwarded
  dsimp only at forwarded
  rw [audioOutLen]
  split at forwarded
  · next none_ =>
    cases Except.ok.inj forwarded
    rw [none_]
    rfl
  · rw [forwardRows fifty forwarded]
    simp only [Grid.columns,Nat.sub_zero]
    rw [Nat.min_eq_left (by rw [stackable.width]; exact within)]

end Features

section Tokens
variable {rows : List (List Nat)} {g : Grid Nat} {audioTokenId : Nat}

theorem stackU32Ok {what : String} : stackU32 what rows = .ok g ↔ rows ≠ [] ∧ g.width ≠ 0 ∧ g.rows = rows := by
  unfold stackU32
  cases rows with
  | nil => exact iff_of_false (fun ok => by cases ok) fun made => made.1 rfl
  | cons first rest =>
    constructor
    · intro ok
      dsimp only at ok
      split at ok
      · cases ok
      next wide =>
      obtain ⟨_,_,ok⟩ := exceptBind.mp ok
      obtain ⟨same,width,_⟩ := tensorOk.mp ok
      exact ⟨List.cons_ne_nil _ _,by rwa [width],same⟩
    · rintro ⟨_,wide,same⟩
      have even : ∀ row ∈ first::rest, row.length = g.width := fun row inside => g.rectangular row (same ▸ inside)
      have head : first.length = g.width := even first List.mem_cons_self
      dsimp only
      rw [head,if_neg wide]
      refine exceptBind.mpr ⟨_,exceptMapIdxAll (g := fun _ => ()) fun row i found => ?_,tensorOk.mpr ⟨same,rfl,even⟩⟩
      exact if_neg (not_not.mpr (even row (List.mem_of_getElem? found)))

theorem placeholdersTotal {n total count : Nat} : (rows.zipIdx n).foldlM (addPlaceholders audioTokenId) total = .ok count ↔
    (rows ≠ [] → count < 2^64) ∧ count = total+countAudioPlaceholdersBatch rows audioTokenId := by
  induction rows generalizing n total with
  | nil => simp [countAudioPlaceholdersBatch,pure,Except.pure,eq_comm]
  | cons row rows ih =>
    have total_ : countAudioPlaceholdersBatch (row::rows) audioTokenId =
        row.count audioTokenId+countAudioPlaceholdersBatch rows audioTokenId := by
      rw [countAudioPlaceholdersBatch,countAudioPlaceholdersBatch,List.map_cons,List.sum_cons]
    rw [List.zipIdx_cons,List.foldlM_cons,exceptBind,total_]
    constructor
    · rintro ⟨next,added,ok⟩
      obtain ⟨small,rfl⟩ := checkedAddSome.mp (okOrOk.mp added)
      obtain ⟨later,same⟩ := ih.mp ok
      refine ⟨fun _ => ?_,by rw [same,Nat.add_assoc]⟩
      by_cases none_ : rows = []
      · rw [none_,countAudioPlaceholdersBatch,List.map_nil,List.sum_nil,Nat.add_zero] at same
        rwa [same]
      · exact later none_
    · rintro ⟨small,same⟩
      have small := small (List.cons_ne_nil _ _)
      have fits : total+row.count audioTokenId < 2^64 := by omega
      exact ⟨_,okOrOk.mpr (checkedAddSome.mpr ⟨fits,rfl⟩),ih.mpr ⟨fun _ => small,by rw [same,Nat.add_assoc]⟩⟩

def paddedIds (padId maxTokens : Nat) (ids : List Nat) : List Nat := ids ++ List.replicate (maxTokens-ids.length) padId

def paddedMask (maxTokens : Nat) (ids : List Nat) : List Nat :=
  List.replicate ids.length 1 ++ List.replicate (maxTokens-ids.length) 0

theorem paddedRows (prompts : List (List Token × List Nat)) (padId : Nat) :
    let maxTokens := maxOf (prompts.map fun p => p.2.length)
    prompts.mapM (fun p => paddedRow padId maxTokens p.2) =
      .ok (prompts.map fun p => (paddedIds padId maxTokens p.2,paddedMask maxTokens p.2)) := by
  intro maxTokens
  have each : ∀ p ∈ prompts, ∀ row, paddedRow padId maxTokens p.2 = .ok row ↔ p.2.length ≤ maxTokens ∧
      (paddedIds padId maxTokens p.2,paddedMask maxTokens p.2) = row := by
    intro p _ row
    unfold paddedRow
    split
    · next long => exact iff_of_false (fun ok => by cases ok) fun fits => absurd fits.1 (Nat.not_le.mpr long)
    · next fits =>
      rw [Except.ok.injEq]
      exact (and_iff_right (Nat.not_lt.mp fits)).symm
  exact (exceptMapChecked each).mpr ⟨fun p inside => List.le_max?_getD_of_mem (List.mem_map_of_mem inside),rfl⟩

theorem paddedLength {ids : List Nat} {padId maxTokens : Nat} (within : ids.length ≤ maxTokens) :
    (paddedIds padId maxTokens ids).length = maxTokens ∧ (paddedMask maxTokens ids).length = maxTokens := by
  simp only [paddedIds,paddedMask,List.length_append,List.length_replicate]
  omega

theorem paddedCount {padId : Nat} (other : padId ≠ audioTokenId) (maxTokens : Nat) (ids : List Nat) :
    (paddedIds padId maxTokens ids).count audioTokenId = ids.count audioTokenId := by
  rw [paddedIds,List.count_append,List.count_eq_zero_of_not_mem (fun inside => other (List.eq_of_mem_replicate inside).symm),
    Nat.add_zero]

theorem maskPadded (maxTokens : Nat) (ids : List Nat) : attentionMaskIsRightPadded (paddedMask maxTokens ids) = true ∧
    validLen (paddedMask maxTokens ids) = ids.length := by
  have ones : ∀ m ∈ List.replicate ids.length 1, m ≠ 0 := fun m inside => by
    rw [List.eq_of_mem_replicate inside]
    exact Nat.one_ne_zero
  have zeros : ∀ m ∈ List.replicate (maxTokens-ids.length) 0, m = 0 := fun m inside => List.eq_of_mem_replicate inside
  refine ⟨rightPaddedParts.mpr ⟨_,_,rfl,ones,zeros⟩,?_⟩
  rw [paddedMask,validLenAppend ones zeros,List.length_replicate]

end Tokens

section Alone
variable {K φ η κ : Type} {aligner : Qwen3ForcedAligner K φ η κ}

def rowItems (aligner : Qwen3ForcedAligner K φ η κ) (prompt : List Token × List Nat) (own : List φ) :
    Except String (List ForcedAlignItem) :=
  alignedItems aligner prompt.1 prompt.2
    (picks aligner.thinker (denseInputs aligner.thinker (mergeRow aligner.thinker.audioTokenId own 0 prompt.2)))

theorem alignedSome {words : List Token} {ids samplePred : List Nat} {items : List ForcedAlignItem}
    (ok : alignedItems aligner words ids samplePred = .ok items) : ids ≠ [] := by
  rintro rfl
  unfold alignedItems at ok
  obtain ⟨expected,doubled,ok⟩ := exceptBind.mp ok
  obtain ⟨_,rfl⟩ := checkedMulSome.mp (okOrOk.mp doubled)
  split at ok
  · cases ok
  next same =>
  obtain ⟨_,_,ok⟩ := exceptBind.mp ok
  obtain ⟨_,parsed,_⟩ := exceptBind.mp ok
  have none_ : words = [] := by
    have counted := not_not.mp same
    rw [timestampPositions,List.zipIdx_nil,List.filterMap_nil,List.length_nil] at counted
    exact List.length_eq_zero_iff.mp (by omega)
  rw [parseTimestamp,if_pos none_] at parsed
  cases parsed

variable {prompts : List (List Token × List Nat)} {outs : List (List φ)} {padId maxTokens : Nat}
  {inputIds attentionMask logits : Grid Nat} {out : List (List ForcedAlignItem)}

theorem countsApart (other : padId ≠ aligner.thinker.audioTokenId)
    (counts : List.Forall₂ (fun (prompt : List Token × List Nat) own => prompt.2.count aligner.thinker.audioTokenId = own.length) prompts outs) :
    (prompts.map fun p => paddedIds padId maxTokens p.2).map (·.count aligner.thinker.audioTokenId) = outs.map List.length := by
  induction counts with
  | nil => rfl
  | cons head _ ih => exact congrArg₂ List.cons ((paddedCount other _ _).trans head) ih

/- Behind the pass every row has the result that its tokens have with the features of its sample. -/
theorem rowsPicked (other : padId ≠ aligner.thinker.audioTokenId) (apart : padId ≠ aligner.timestampTokenId)
    (ids : inputIds.rows = prompts.map fun p => paddedIds padId maxTokens p.2)
    (masks : attentionMask.rows = prompts.map fun p => paddedMask maxTokens p.2)
    (counts : List.Forall₂ (fun (prompt : List Token × List Nat) own => prompt.2.count aligner.thinker.audioTokenId = own.length) prompts outs)
    (ok : forwardWithAudioFeatures aligner.thinker inputIds attentionMask (some outs.flatten)
      (countAudioPlaceholdersBatch inputIds.rows aligner.thinker.audioTokenId) = .ok logits) :
    (prompts.map Prod.fst).zipIdx.mapM (resultAt aligner (prompts.map fun p => paddedIds padId maxTokens p.2) logits.rows) =
      (prompts.zip outs).mapM fun q => rowItems aligner q.1 q.2 := by
  obtain ⟨_,_,picked⟩ := paddedPicks ok
  refine mapMRelated (List.forall₂_iff_get.mpr ⟨by simp [counts.length_eq],fun i h h' => ?_⟩)
  have inside : i < prompts.length := by simpa using h
  have bound : i < outs.length := counts.length_eq ▸ inside
  have found : inputIds.rows[i]? = some (paddedIds padId maxTokens prompts[i].2) := by simp [ids,inside]
  have masked : attentionMask.rows[i]? = some (paddedMask maxTokens prompts[i].2) := by simp [masks,inside]
  obtain ⟨padded,valid⟩ := maskPadded maxTokens prompts[i].2
  obtain ⟨samplePred,there,front⟩ := picked i _ _ found masked padded
  have own : rowAudio aligner.thinker.audioTokenId outs.flatten inputIds.rows i prompts[i].2 = outs[i] := by
    have size : prompts[i].2.count aligner.thinker.audioTokenId = outs[i].length := counts.get inside bound
    rw [rowAudio,ids,countsApart other counts,size]
    exact flattenSlice (List.getElem?_eq_getElem bound)
  have cut : (paddedIds padId maxTokens prompts[i].2).take prompts[i].2.length = prompts[i].2 := List.take_left
  rw [valid,cut,own] at front
  have here : resultAt aligner (prompts.map fun p => paddedIds padId maxTokens p.2) logits.rows (prompts[i].1,i) =
      alignedItems aligner prompts[i].1 (paddedIds padId maxTokens prompts[i].2) samplePred := by
    simp [resultAt,inside,there,okOr,bind,Except.bind]
  have row : resultAt aligner (prompts.map fun p => paddedIds padId maxTokens p.2) logits.rows (prompts[i].1,i) =
      rowItems aligner prompts[i] outs[i] := by
    rw [here,paddedIds,alignedPadded apart,front]
    rfl
  simpa using row

def rowResult [Zero K] (aligner : Qwen3ForcedAligner K φ η κ) (p : FeatureExtractor.Features K) (prompt : List Token × List Nat) :
    Except String (List ForcedAlignItem) := do
  let own ← ownFeatures aligner.tower p
  rowItems aligner prompt own

theorem placeholdersWithin {rows : List (List Nat)} {audioTokenId width : Nat} (even : ∀ row ∈ rows, row.length = width) :
    countAudioPlaceholdersBatch rows audioTokenId ≤ rows.length*width := by
  have each : ∀ n ∈ rows.map (·.count audioTokenId), n ≤ width := fun n inside => by
    obtain ⟨row,member,rfl⟩ := List.mem_map.mp inside
    exact even row member ▸ List.count_le_length
  have total := List.sum_le_card_nsmul _ width each
  rwa [List.length_map,smul_eq_mul] at total

/- The tensors of a batch: every prompt in front of its padding. -/
structure PaddedPrompts (prompts : List (List Token × List Nat)) (padId maxTokens : Nat) (inputIds attentionMask : Grid Nat) : Prop where
  ids : inputIds.rows = prompts.map fun p => paddedIds padId maxTokens p.2
  masks : attentionMask.rows = prompts.map fun p => paddedMask maxTokens p.2
  width : inputIds.width = maxTokens
  alike : attentionMask.width = maxTokens

theorem promptsPadded (padId : Nat) (within : ∀ p ∈ prompts, p.2.length ≤ maxTokens) :
    ∃ inputIds attentionMask, PaddedPrompts prompts padId maxTokens inputIds attentionMask := by
  obtain ⟨inputIds,idsMade⟩ := @tensorGoes _ maxTokens (prompts.map fun p => paddedIds padId maxTokens p.2) fun row inside => by
    obtain ⟨p,member,rfl⟩ := List.mem_map.mp inside
    exact (paddedLength (within p member)).1
  obtain ⟨attentionMask,maskMade⟩ := @tensorGoes _ maxTokens (prompts.map fun p => paddedMask maxTokens p.2) fun row inside => by
    obtain ⟨p,member,rfl⟩ := List.mem_map.mp inside
    exact (@paddedLength _ padId _ (within p member)).2
  obtain ⟨idRows,idWidth,_⟩ := tensorOk.mp idsMade
  obtain ⟨maskRows,maskWidth,_⟩ := tensorOk.mp maskMade
  exact ⟨inputIds,attentionMask,idRows,maskRows,idWidth,maskWidth⟩

theorem withinLongest (longest : maxOf (prompts.map fun p => p.2.length) = maxTokens) : ∀ p ∈ prompts, p.2.length ≤ maxTokens :=
  fun _ inside => longest ▸ List.le_max?_getD_of_mem (List.mem_map_of_mem (f := fun p : List Token × List Nat => p.2.length) inside)

theorem paddedMade {what other : String} (first : prompts ≠ []) (within : ∀ p ∈ prompts, p.2.length ≤ maxTokens)
    (ids : stackU32 what (prompts.map fun p => paddedIds padId maxTokens p.2) = .ok inputIds)
    (masks : stackU32 other (prompts.map fun p => paddedMask maxTokens p.2) = .ok attentionMask) :
    PaddedPrompts prompts padId maxTokens inputIds attentionMask := by
  obtain ⟨_,_,idRows⟩ := stackU32Ok.mp ids
  obtain ⟨_,_,maskRows⟩ := stackU32Ok.mp masks
  obtain ⟨p,rest,rfl⟩ := List.exists_cons_of_ne_nil first
  obtain ⟨idLength,maskLength⟩ := @paddedLength _ padId _ (within p List.mem_cons_self)
  have idWidth := inputIds.rectangular (paddedIds padId maxTokens p.2) (by rw [idRows]; exact List.mem_cons_self)
  have maskWidth := attentionMask.rectangular (paddedMask maxTokens p.2) (by rw [maskRows]; exact List.mem_cons_self)
  exact ⟨idRows,maskRows,idWidth.symm.trans idLength,maskWidth.symm.trans maskLength⟩

theorem paddedStacked {what other : String} (first : prompts ≠ []) (wide : maxTokens ≠ 0)
    (padded : PaddedPrompts prompts padId maxTokens inputIds attentionMask) :
    stackU32 what (prompts.map fun p => paddedIds padId maxTokens p.2) = .ok inputIds ∧
    stackU32 other (prompts.map fun p => paddedMask maxTokens p.2) = .ok attentionMask :=
  ⟨stackU32Ok.mpr ⟨by simpa using first,by rwa [padded.width],padded.ids⟩,
    stackU32Ok.mpr ⟨by simpa using first,by rwa [padded.alike],padded.masks⟩⟩

theorem paddedFew (audioTokenId : Nat) (padded : PaddedPrompts prompts padId maxTokens inputIds attentionMask)
    (within : ∀ p ∈ prompts, p.2.length ≤ maxTokens) :
    countAudioPlaceholdersBatch inputIds.rows audioTokenId ≤ prompts.length*maxTokens := by
  have even : ∀ row ∈ inputIds.rows, row.length = maxTokens := fun row inside => by
    rw [padded.ids] at inside
    obtain ⟨p,member,rfl⟩ := List.mem_map.mp inside
    exact (paddedLength (within p member)).1
  have bound := @placeholdersWithin _ audioTokenId _ even
  rwa [padded.ids,List.length_map,← padded.ids] at bound

theorem paddedPlaceholders (other : padId ≠ aligner.thinker.audioTokenId) (padded : PaddedPrompts prompts padId maxTokens inputIds attentionMask)
    (owned : List.Forall₂ (fun (prompt : List Token × List Nat) own => prompt.2.count aligner.thinker.audioTokenId = own.length) prompts outs) :
    countAudioPlaceholdersBatch inputIds.rows aligner.thinker.audioTokenId = outs.flatten.length := by
  rw [countAudioPlaceholdersBatch,padded.ids,countsApart other owned,List.length_flatten]

/- A batch that is no larger than an f32 counts goes through the thinker. -/
theorem paddedGoes (other : padId ≠ aligner.thinker.audioTokenId) (padded : PaddedPrompts prompts padId maxTokens inputIds attentionMask)
    (first : prompts ≠ []) (wide : maxTokens ≠ 0) (small : prompts.length*maxTokens ≤ 2^24)
    (owned : List.Forall₂ (fun (prompt : List Token × List Nat) own => prompt.2.count aligner.thinker.audioTokenId = own.length) prompts outs) :
    ∃ logits, forwardWithAudioFeatures aligner.thinker inputIds attentionMask (some outs.flatten)
        (countAudioPlaceholdersBatch inputIds.rows aligner.thinker.audioTokenId) = .ok logits ∧
      logits.rows.length = inputIds.rows.length := by
  have size : inputIds.rows.length = prompts.length := by rw [padded.ids,List.length_map]
  have sizes : attentionMask.rows.length = prompts.length := by rw [padded.masks,List.length_map]
  have some_ : inputIds.rows ≠ [] := List.ne_nil_of_length_pos (by rw [size]; exact List.length_pos_of_ne_nil first)
  exact forwardGoes aligner.thinker some_ (by rwa [padded.width]) (sizes.trans size.symm) (padded.alike.trans padded.width.symm)
    (by rw [size,padded.width]; omega) (paddedPlaceholders other padded owned)

/- A row with a result holds a marker, so no batch of such rows is empty. -/
theorem markedWide (some_ : prompts ≠ []) (counts : List.Forall₂ (fun (prompt : List Token × List Nat) own =>
      prompt.2.count aligner.thinker.audioTokenId = own.length) prompts outs)
    (results : (prompts.zip outs).mapM (fun q => rowItems aligner q.1 q.2) = .ok out)
    (within : ∀ p ∈ prompts, p.2.length ≤ maxTokens) : maxTokens ≠ 0 := by
  obtain ⟨prompt,rest,rfl⟩ := List.exists_cons_of_ne_nil some_
  obtain ⟨one,_,_,_,rfl⟩ := List.forall₂_cons_left_iff.mp counts
  obtain ⟨items,_,head,_,_⟩ := List.forall₂_cons_left_iff.mp (exceptMapM.mp results)
  have long := within prompt List.mem_cons_self
  have marked : 0 < prompt.2.length := List.length_pos_of_ne_nil (alignedSome head)
  omega

variable [Zero K] {audio : List (FeatureExtractor.Features K)}

def Counts (aligner : Qwen3ForcedAligner K φ η κ) (audio : List (FeatureExtractor.Features K)) (prompts : List (List Token × List Nat)) : Prop :=
  List.Forall₂ (fun p (prompt : List Token × List Nat) =>
    prompt.2.count aligner.thinker.audioTokenId = audioOutLen p.featureAttentionMask) audio prompts

theorem countsOwn (fifty : aligner.tower.nWindow = 50) (counts : Counts aligner audio prompts)
    (own : List.Forall₂ (fun p own => ownFeatures aligner.tower p = .ok own) audio outs) :
    List.Forall₂ (fun (prompt : List Token × List Nat) own => prompt.2.count aligner.thinker.audioTokenId = own.length) prompts outs := by
  induction counts generalizing outs with
  | nil =>
    cases own
    exact .nil
  | cons head _ ih =>
    cases own with
    | cons here later => exact .cons (head.trans (ownLength fifty here).symm) (ih later)

/- The rows of a batch behind its checks: its tensors, its features and what the thinker picks. -/
theorem alignRowsRan (pad : aligner.tokenizer.tokenToId "<|endoftext|>" = .ok padId) (first : prompts ≠ [])
    (longest : maxOf (prompts.map fun p => p.2.length) = maxTokens) :
    alignRows aligner audio prompts = .ok out ↔ maxTokens ≠ 0 ∧
      ∃ inputIds attentionMask, PaddedPrompts prompts padId maxTokens inputIds attentionMask ∧
      ∃ features, stackFeaturesRefs audio = .ok features ∧
      ∃ audioFeatures, getAudioFeaturesWithLens aligner.tower features.1 features.2 = .ok audioFeatures ∧
      countAudioPlaceholdersBatch inputIds.rows aligner.thinker.audioTokenId < 2^64 ∧
      ∃ logits, forwardWithAudioFeatures aligner.thinker inputIds attentionMask (some audioFeatures)
          (countAudioPlaceholdersBatch inputIds.rows aligner.thinker.audioTokenId) = .ok logits ∧
        logits.rows.length = prompts.length ∧
        (prompts.map Prod.fst).zipIdx.mapM
          (resultAt aligner (prompts.map fun p => paddedIds padId maxTokens p.2) logits.rows) = .ok out := by
  have within := withinLongest longest
  have whole := paddedRows prompts padId
  dsimp only at whole
  rw [longest] at whole
  have ids : (prompts.map fun p => (paddedIds padId maxTokens p.2,paddedMask maxTokens p.2)).map Prod.fst =
      prompts.map fun p => paddedIds padId maxTokens p.2 := by rw [List.map_map]; rfl
  have masks : (prompts.map fun p => (paddedIds padId maxTokens p.2,paddedMask maxTokens p.2)).map Prod.snd =
      prompts.map fun p => paddedMask maxTokens p.2 := by rw [List.map_map]; rfl
  unfold alignRows
  dsimp only
  rw [longest]
  constructor
  · intro ok
    split at ok
    · cases ok
    next wide =>
    obtain ⟨padId',found,ok⟩ := exceptBind.mp ok
    obtain rfl := Except.ok.inj (found.symm.trans pad)
    obtain ⟨_,made,ok⟩ := exceptBind.mp ok
    obtain rfl := Except.ok.inj (made.symm.trans whole)
    rw [ids,masks] at ok
    obtain ⟨inputIds,idsMade,ok⟩ := exceptBind.mp ok
    obtain ⟨attentionMask,maskMade,ok⟩ := exceptBind.mp ok
    obtain ⟨features,stacked,ok⟩ := exceptBind.mp ok
    obtain ⟨audioFeatures,encoded,ok⟩ := exceptBind.mp ok
    obtain ⟨count,total,ok⟩ := exceptBind.mp ok
    obtain ⟨logits,ran,last⟩ := exceptBind.mp ok
    split at last
    · cases last
    next rows =>
    have padded := paddedMade first within idsMade maskMade
    obtain ⟨few,counted⟩ := placeholdersTotal.mp total
    rw [Nat.zero_add,← padded.ids] at counted
    rw [counted] at ran few
    exact ⟨wide,inputIds,attentionMask,padded,features,stacked,audioFeatures,encoded,few (by simpa using first),logits,ran,
      by simpa using rows,last⟩
  · rintro ⟨wide,inputIds,attentionMask,padded,features,stacked,audioFeatures,encoded,few,logits,ran,rows,results⟩
    obtain ⟨idsMade,maskMade⟩ := paddedStacked first wide padded
    rw [if_neg wide]
    refine exceptBind.mpr ⟨padId,pad,exceptBind.mpr ⟨_,whole,?_⟩⟩
    rw [ids,masks]
    refine exceptBind.mpr ⟨inputIds,idsMade,exceptBind.mpr ⟨attentionMask,maskMade,?_⟩⟩
    refine exceptBind.mpr ⟨features,stacked,exceptBind.mpr ⟨audioFeatures,encoded,?_⟩⟩
    refine exceptBind.mpr ⟨_,placeholdersTotal.mpr ⟨fun _ => ?_,rfl⟩,?_⟩
    · rwa [Nat.zero_add,← padded.ids]
    rw [Nat.zero_add,← padded.ids]
    refine exceptBind.mpr ⟨logits,ran,?_⟩
    rw [if_neg (not_not.mpr (rows.trans (by rw [padded.ids,List.length_map]))),padded.ids]
    exact results

/- A batch has a result exactly where the features have one shape and every row has one by itself. -/
theorem alignRowsOk (pad : aligner.tokenizer.tokenToId "<|endoftext|>" = .ok padId)
    (other : padId ≠ aligner.thinker.audioTokenId) (apart : padId ≠ aligner.timestampTokenId) (fifty : aligner.tower.nWindow = 50)
    (some_ : audio ≠ []) (counts : Counts aligner audio prompts)
    (small : prompts.length*maxOf (prompts.map fun p => p.2.length) ≤ 2^24) :
    alignRows aligner audio prompts = .ok out ↔
      OneShape audio ∧ (audio.zip prompts).mapM (fun q => rowResult aligner q.1 q.2) = .ok out := by
  generalize longest : maxOf (prompts.map fun p => p.2.length) = maxTokens at small
  have first : prompts ≠ [] := fun none_ => some_ (List.length_eq_zero_iff.mp (counts.length_eq.trans (by rw [none_]; rfl)))
  have within := withinLongest longest
  have both : (∃ outs, List.Forall₂ (fun p own => ownFeatures aligner.tower p = .ok own) audio outs ∧
      (prompts.zip outs).mapM (fun q => rowItems aligner q.1 q.2) = .ok out) ↔
      (audio.zip prompts).mapM (fun q => rowResult aligner q.1 q.2) = .ok out := rowsBoth counts.length_eq
  rw [← both,alignRowsRan pad first longest]
  constructor
  · rintro ⟨_,inputIds,attentionMask,padded,⟨inputFeatures,featureLens⟩,stacked,_,encoded,_,logits,ran,_,results⟩
    obtain ⟨outs,own,rfl⟩ := (featuresApart stacked).mp encoded
    exact ⟨shapeStacked stacked,outs,own,
      (rowsPicked other apart padded.ids padded.masks (countsOwn fifty counts own) ran).symm.trans results⟩
  · rintro ⟨shape,outs,own,results⟩
    have owned := countsOwn fifty counts own
    have wide := markedWide first owned results within
    obtain ⟨inputFeatures,stacked⟩ := stackedShape shape some_
    obtain ⟨inputIds,attentionMask,padded⟩ := promptsPadded padId within
    obtain ⟨logits,ran,rows⟩ := paddedGoes other padded first wide small owned
    -- the placeholders are tokens of the batch, so their number is far from overflowing
    have few : countAudioPlaceholdersBatch inputIds.rows aligner.thinker.audioTokenId < 2^64 := by
      have bound := paddedFew aligner.thinker.audioTokenId padded within
      omega
    exact ⟨wide,inputIds,attentionMask,padded,_,stacked,_,featuresApart stacked |>.mpr ⟨outs,own,rfl⟩,few,logits,ran,
      rows.trans (by rw [padded.ids,List.length_map]),
      (rowsPicked other apart padded.ids padded.masks owned ran).trans results⟩

end Alone

section Prompts
variable {K φ η κ : Type} {aligner : Qwen3ForcedAligner K φ η κ} {tokenIds : String → List Nat} {padId : Nat}

def pads (text : List Char) : Nat := occurrences '<' "|audio_pad|>".toList text

theorem padsMarked {words : List Token} (plain : ∀ word ∈ words, '<' ∉ word) :
    pads (words.flatMap (· ++ (TIMESTAMP ++ TIMESTAMP))) = 0 := by
  have marker (text : List Char) : pads (TIMESTAMP ++ text) = pads text := by
    have other : occurrences '<' ('|' :: "audio_pad|>".toList) ('<' :: 't' :: ("imestamp>".toList ++ text)) =
        occurrences '<' ('|' :: "audio_pad|>".toList) ('t' :: ("imestamp>".toList ++ text)) := occurrencesOther (by decide) _
    exact other.trans (@occurrencesForeign _ _ '<' _ ('t' :: "imestamp>".toList) (by decide) text)
  induction words with
  | nil => rfl
  | cons w words ih =>
    obtain ⟨foreign,others⟩ := List.forall_mem_cons.mp plain
    rw [List.flatMap_cons,List.append_assoc,pads,occurrencesForeign foreign,← pads,List.append_assoc,marker,marker,ih others]

theorem padsBehind {words : List Token} (some_ : words ≠ []) (plain : ∀ word ∈ words, '<' ∉ word) :
    ¬audioPad.toList <:+: "<|audio_end|>".toList ++ inputText words := by
  have apart : ¬('<' :: "|audio_pad|>".toList <+: '<' :: ("|audio_end|>".toList ++ inputText words)) := by
    simp [List.cons_prefix_cons]
  have counted : pads ('<' :: ("|audio_end|>".toList ++ inputText words)) = 0 := by
    rw [pads,occurrences,if_neg apart,Nat.zero_add,occurrencesForeign (by decide),inputMarked some_]
    exact padsMarked plain
  exact occurrencesNone.mp counted

theorem promptOk (separators : Separators aligner.unicode)
    (whole : ∀ text surfaces, aligner.segment text = .ok surfaces → surfaces.flatten = text)
    (spells : SpellsAudioPad aligner.tokenizer tokenIds padId aligner.thinker.audioTokenId) {text language : String}
    {prepared : FeatureExtractor.Features K} {prompt : List Token × List Nat}
    (ok : promptOf aligner text language prepared = .ok prompt) :
    (∃ chars, encoded aligner text language = .ok (prompt.1,chars)) ∧
      prompt.2.count aligner.thinker.audioTokenId = audioOutLen prepared.featureAttentionMask := by
  obtain ⟨⟨words,chars⟩,made,ok⟩ := exceptBind.mp ok
  obtain ⟨ids,read,ok⟩ := exceptBind.mp ok
  obtain rfl := Except.ok.inj ok
  obtain rfl := Except.ok.inj (read.symm.trans (spells.encodes _))
  refine ⟨⟨chars,made⟩,?_⟩
  obtain ⟨_,listed,some_,rfl⟩ := encodedParts.mp made
  have cuts := wordListCuts separators whole listed
  have plain : ∀ word ∈ words, '<' ∉ word := cutsPlain separators cuts
  have parts : String.ofList (AUDIO_TOKENS ++ inputText words) =
      "<|audio_start|>" ++ audioPad ++ String.ofList ("<|audio_end|>".toList ++ inputText words) := by
    rw [← String.toList_inj]
    simp only [String.toList_append,String.toList_ofList,← List.append_assoc]
    rfl
  have before : aligner.thinker.audioTokenId ∉ tokenIds "<|audio_start|>" := spells.plain "<|audio_start|>" (by decide)
  have behind : aligner.thinker.audioTokenId ∉ tokenIds (String.ofList ("<|audio_end|>".toList ++ inputText words)) :=
    spells.plain _ (by rw [String.toList_ofList]; exact padsBehind some_ plain)
  dsimp only
  rw [parts,spells.spelled,expandsFirst,expandAt before,List.count_append,List.count_append,List.count_replicate_self,
    List.count_eq_zero_of_not_mem before,List.count_eq_zero_of_not_mem behind]
  omega

end Prompts

section Batches
variable {K φ η κ : Type} {aligner : Qwen3ForcedAligner K φ η κ} {tokenIds : String → List Nat} {padId : Nat}

/- What is taken of the parts the aligner is put together from. -/
structure Given (aligner : Qwen3ForcedAligner K φ η κ) (tokenIds : String → List Nat) (padId : Nat) : Prop where
  separators : Separators aligner.unicode
  whole : ∀ text surfaces, aligner.segment text = .ok surfaces → surfaces.flatten = text
  spells : SpellsAudioPad aligner.tokenizer tokenIds padId aligner.thinker.audioTokenId
  apart : padId ≠ aligner.timestampTokenId
  fifty : aligner.tower.nWindow = 50

def promptFor (aligner : Qwen3ForcedAligner K φ η κ) (item : AlignInput K) : Except String (List Token × List Nat) :=
  promptOf aligner item.text item.language item.prepared

def Fits (aligner : Qwen3ForcedAligner K φ η κ) (items : List (AlignInput K)) : Prop :=
  ∀ prompts, List.Forall₂ (fun item prompt => promptFor aligner item = .ok prompt) items prompts →
    prompts.length*maxOf (prompts.map fun p => p.2.length) ≤ 2^24

theorem inputsPrepared {audio : List (FeatureExtractor.Features K)} {text languages : List String}
    (texts : text.length = audio.length) (spoken : languages.length = audio.length) :
    (alignInputs audio text languages).map AlignInput.prepared = audio := by
  rw [alignInputs,List.map_map]
  have parts : (AlignInput.prepared ∘ fun item : String × String × FeatureExtractor.Features K => ⟨item.1,item.2.1,item.2.2⟩) =
      Prod.snd ∘ Prod.snd := rfl
  rw [parts,← List.map_map,List.map_snd_zip (by simp [texts,spoken]),List.map_snd_zip (by rw [spoken])]

theorem promptsCount (given : Given aligner tokenIds padId) {items : List (AlignInput K)} {prompts : List (List Token × List Nat)}
    (made : List.Forall₂ (fun item prompt => promptFor aligner item = .ok prompt) items prompts) :
    Counts aligner (items.map AlignInput.prepared) prompts :=
  List.forall₂_map_left_iff.mpr (made.imp fun _ _ ok => (promptOk given.separators given.whole given.spells ok).2)

variable [Zero K]

theorem aloneOk (given : Given aligner tokenIds padId) {item : AlignInput K} {prompt : List Token × List Nat}
    (made : promptFor aligner item = .ok prompt) (small : prompt.2.length ≤ 2^24) {result : List ForcedAlignItem} :
    alignWithFeatures aligner [item.prepared] [item.text] [item.language] = .ok [result] ↔
      OneShape [item.prepared] ∧ rowResult aligner item.prepared prompt = .ok result := by
  have counts := promptsCount given (.cons made .nil)
  have longest : maxOf ([prompt].map fun p => p.2.length) = prompt.2.length := rfl
  have rows := @alignRowsOk _ _ _ _ aligner [prompt] padId [result] _ [item.prepared] given.spells.padFound given.spells.distinct
    given.apart given.fifty (List.cons_ne_nil _ _) counts (by rw [longest]; simpa using small)
  have one : (alignInputs [item.prepared] [item.text] [item.language]).mapM (promptFor aligner) = .ok [prompt] :=
    exceptMapM.mpr (.cons made .nil)
  have called : alignWithFeatures aligner [item.prepared] [item.text] [item.language] = alignRows aligner [item.prepared] [prompt] := by
    change (alignInputs [item.prepared] [item.text] [item.language]).mapM (promptFor aligner) >>= alignRows aligner [item.prepared] = _
    rw [one]
    rfl
  rw [called,rows]
  refine and_congr_right fun _ => ?_
  simp only [List.zip_cons_cons,List.zip_nil_right,exceptMapM,List.forall₂_cons,List.forall₂_nil_left_iff,and_true]

theorem rowOrdered {p : FeatureExtractor.Features K} {prompt : List Token × List Nat} {result : List ForcedAlignItem}
    (ok : rowResult aligner p prompt = .ok result) : Ordered prompt.1 result := by
  obtain ⟨_,_,ok⟩ := exceptBind.mp ok
  exact itemsOrdered ok

theorem rowsAlone (given : Given aligner tokenIds padId) {items : List (AlignInput K)} {prompts : List (List Token × List Nat)}
    (made : List.Forall₂ (fun item prompt => promptFor aligner item = .ok prompt) items prompts)
    (small : ∀ prompt ∈ prompts, prompt.2.length ≤ 2^24) (shape : OneShape (items.map AlignInput.prepared)) (out : List (List ForcedAlignItem)) :
    ((items.map AlignInput.prepared).zip prompts).mapM (fun q => rowResult aligner q.1 q.2) = .ok out ↔
      List.Forall₂ (fun item result =>
        alignWithFeatures aligner [item.prepared] [item.text] [item.language] = .ok [result] ∧
        ∃ words prompt, encoded aligner item.text item.language = .ok (words,prompt) ∧ Ordered words result) items out := by
  rw [exceptMapM]
  obtain ⟨mel,frames,bins,wide,each⟩ := shape
  induction made generalizing out with
  | nil => simp
  | @cons item prompt items prompts head _ ih =>
    obtain ⟨short,small⟩ := List.forall_mem_cons.mp small
    obtain ⟨shaped,each⟩ := List.forall_mem_cons.mp each
    have one : OneShape [item.prepared] := ⟨mel,frames,bins,wide,List.forall_mem_singleton.mpr shaped⟩
    obtain ⟨⟨chars,text⟩,_⟩ := promptOk given.separators given.whole given.spells head
    -- the row of the batch comes to what a batch of this item alone comes to
    have row (result : List ForcedAlignItem) : rowResult aligner item.prepared prompt = .ok result ↔
        alignWithFeatures aligner [item.prepared] [item.text] [item.language] = .ok [result] ∧
        ∃ words prompt, encoded aligner item.text item.language = .ok (words,prompt) ∧ Ordered words result := by
      rw [aloneOk given head short,and_iff_right one]
      exact ⟨fun ok => ⟨ok,_,chars,text,rowOrdered ok⟩,And.left⟩
    have later := fun out => ih small out each
    simp only [List.map_cons,List.zip_cons_cons,List.forall₂_cons_left_iff,row,later]

omit [Zero K] in
theorem promptsSmall {items : List (AlignInput K)} (fits : Fits aligner items) {prompts : List (List Token × List Nat)}
    (made : List.Forall₂ (fun item prompt => promptFor aligner item = .ok prompt) items prompts) :
    ∀ prompt ∈ prompts, prompt.2.length ≤ 2^24 := by
  intro prompt inside
  have total := fits prompts made
  have first : 1 ≤ prompts.length := List.length_pos_of_mem inside
  have most := withinLongest rfl prompt inside
  exact most.trans ((Nat.le_mul_of_pos_left _ first).trans total)

/-- A batch is aligned exactly where its features have one shape and each item is aligned by itself; then each item
has the times that it has by itself, for its words in their order, and they do not go back. -/
theorem alignedAlone (given : Given aligner tokenIds padId) (audio : List (FeatureExtractor.Features K)) (text language : List String)
    (fits : Fits aligner (alignInputs audio text (languagesFor audio.length language))) (out : List (List ForcedAlignItem)) :
    alignWithFeatures aligner audio text language = .ok out ↔
      (audio ≠ [] → text.length = audio.length ∧ (languagesFor audio.length language).length = audio.length ∧ OneShape audio) ∧
      List.Forall₂ (fun item result =>
        alignWithFeatures aligner [item.prepared] [item.text] [item.language] = .ok [result] ∧
        ∃ words prompt, encoded aligner item.text item.language = .ok (words,prompt) ∧ Ordered words result)
        (alignInputs audio text (languagesFor audio.length language)) out := by
  unfold alignWithFeatures
  by_cases empty : audio = []
  · subst empty
    have none_ : alignInputs ([] : List (FeatureExtractor.Features K)) text (languagesFor 0 language) = [] := by
      simp [alignInputs]
    simp [none_,eq_comm]
  by_cases texts : text.length = audio.length
  swap
  · simp [empty,texts]
  by_cases spoken : (languagesFor audio.length language).length = audio.length
  swap
  · simp [empty,texts,spoken]
  have prepared := inputsPrepared texts spoken
  rw [if_neg empty,if_neg (not_not.mpr texts)]
  dsimp only
  rw [if_neg (not_not.mpr spoken)]
  generalize alignInputs audio text (languagesFor audio.length language) = items at fits prepared ⊢
  -- behind the checks only the items are left, and the call is its prompts and then their rows
  have rows {prompts : List (List Token × List Nat)}
      (made : List.Forall₂ (fun item prompt => promptFor aligner item = .ok prompt) items prompts) :
      alignRows aligner audio prompts = .ok out ↔ OneShape audio ∧
        ((items.map AlignInput.prepared).zip prompts).mapM (fun q => rowResult aligner q.1 q.2) = .ok out := by
    have counts := promptsCount given made
    rw [prepared] at counts ⊢
    exact alignRowsOk given.spells.padFound given.spells.distinct given.apart given.fifty empty counts (fits prompts made)
  constructor
  · intro ok
    obtain ⟨prompts,listed,ran⟩ := exceptBind.mp ok
    have made := exceptMapM.mp listed
    obtain ⟨shape,results⟩ := (rows made).mp ran
    exact ⟨fun _ => ⟨texts,spoken,shape⟩,(rowsAlone given made (promptsSmall fits made) (prepared ▸ shape) out).mp results⟩
  · rintro ⟨checks,each⟩
    obtain ⟨_,_,shape⟩ := checks empty
    obtain ⟨prompts,made⟩ := @rowsOk _ _ _ (promptFor aligner) items fun item inside => by
      obtain ⟨i,found⟩ := List.mem_iff_getElem?.mp inside
      obtain ⟨_,_,ok,_⟩ := pairedAt each found
      obtain ⟨prompts,listed,_⟩ := exceptBind.mp ok
      obtain ⟨prompt,_,made,_,_⟩ := List.forall₂_cons_left_iff.mp (exceptMapM.mp listed)
      exact ⟨prompt,made⟩
    exact exceptBind.mpr ⟨prompts,exceptMapM.mpr made,(rows made).mpr
      ⟨shape,(rowsAlone given made (promptsSmall fits made) (prepared ▸ shape) out).mpr each⟩⟩

end Batches

section Counting

def countingThinker : CausalThinker Nat Nat Nat where
  audioTokenId := 1
  embed c := c.audio.elim c.id (1000000 + ·)
  layers := [⟨fun h _ => if h = 114 ∨ 1000000 ≤ h then 1 else 0,fun _ _ keys => keys.sum⟩]
  deep := List.cons_ne_nil _ _
  pick h := h

/- The letter p, which a marker holds once, stands for the marker. -/
def countingAligner : Qwen3ForcedAligner Nat Nat Nat Nat where
  unicode := someUnicode
  segment := someSegments
  koreanDict := .error "no dictionary"
  japaneseMergeTerms := ⟨[],0⟩
  tokenizer := characters
  tower := numberedTower
  thinker := countingThinker
  timestampTokenId := 114
  timestampSegmentTimeMs := 80

def silence (real : Nat) : FeatureExtractor.Features Nat :=
  ⟨[List.replicate 9 0],List.replicate real 1 ++ List.replicate (9-real) 0⟩

theorem countingGiven : Given countingAligner characterIds 0 where
  separators := someSeparators
  whole := someWhole
  spells := charactersSpell
  apart := by decide
  fifty := rfl

/- Two items of unlike lengths; the markers of the second come earlier. -/
theorem alignedAloneCounting :
    let first : List ForcedAlignItem := [⟨['猫'],6/25,8/25⟩,⟨['犬'],10/25,12/25⟩]
    let second : List ForcedAlignItem := [⟨['猫'],4/25,6/25⟩]
    alignWithFeatures countingAligner [silence 9] ["猫 犬"] ["Chinese"] = .ok [first] ∧
    alignWithFeatures countingAligner [silence 8] ["猫"] ["Chinese"] = .ok [second] ∧
    alignWithFeatures countingAligner [silence 9,silence 8] ["猫 犬","猫"] ["Chinese"] = .ok [first,second] := by
  intro first second
  have columns : ((alignInputs [silence 9,silence 8] ["猫 犬","猫"] ["Chinese","Chinese"]).mapM (promptFor countingAligner)).map
      (fun prompts => prompts.length*maxOf (prompts.map fun p => p.2.length)) = .ok 152 := by decide +kernel
  have fits : Fits countingAligner (alignInputs [silence 9,silence 8] ["猫 犬","猫"] ["Chinese","Chinese"]) := by
    intro prompts made
    rw [exceptMapM.mpr made] at columns
    have total : prompts.length*maxOf (prompts.map fun p => p.2.length) = 152 := Except.ok.inj columns
    rw [total]
    decide
  have one : alignWithFeatures countingAligner [silence 9] ["猫 犬"] ["Chinese"] = .ok [first] := by decide +kernel
  have other : alignWithFeatures countingAligner [silence 8] ["猫"] ["Chinese"] = .ok [second] := by decide +kernel
  have words : encoded countingAligner "猫 犬" "Chinese" = .ok ([['猫'],['犬']],AUDIO_TOKENS ++ inputText [['猫'],['犬']]) := by
    decide +kernel
  have word : encoded countingAligner "猫" "Chinese" = .ok ([['猫']],AUDIO_TOKENS ++ inputText [['猫']]) := by decide +kernel
  have shaped : ∀ p ∈ [silence 9,silence 8], Shaped 1 9 p := List.forall_mem_cons.mpr
    ⟨⟨rfl,rfl,by decide⟩,List.forall_mem_singleton.mpr ⟨rfl,rfl,by decide⟩⟩
  refine ⟨one,other,(alignedAlone countingGiven _ ["猫 犬","猫"] ["Chinese"] fits _).mpr
    ⟨fun _ => ⟨rfl,rfl,1,9,by decide,by decide,shaped⟩,?_⟩⟩
  exact .cons ⟨one,_,_,words,rfl,by decide +kernel⟩ (.cons ⟨other,_,_,word,rfl,by decide +kernel⟩ .nil)

end Counting

end Qwen3Asr.ForcedAligner
