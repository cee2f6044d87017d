import Qwen3Asr.AsrOutput
import Qwen3Asr.AudioChunking
import Qwen3Asr.ChunkBatches

/-! Offline transcription: every audio input is cut into chunks, the chunks of all of them are recognized
in groups, and the languages and texts go back to their inputs. The thinker is a parameter. -/
namespace Qwen3Asr.OfflineTranscribe
open Library.Effect Library.Rowwise Library.Word
open MediaData AsrOutput AudioNormalize AudioChunking PromptBuilder BatchPreparation PreparedRows ChunkBatches

variable {K : Type}

section Options

inductive Batch (α : Type) where
  | one (value : α)
  | many (values : List α)
  deriving DecidableEq, Repr

def broadcast {α : Type} (n : Nat) (what : String) (batch : Batch α) : Except String (List α) :=
  if n = 0 then .ok [] else
  match batch with
  | .one value => .ok (List.replicate n value)
  | .many [] => .error s!"{what} is empty"
  | .many (value::values) =>
    if values = [] ∧ 1 < n then .ok (List.replicate n value) else
    if (value::values).length ≠ n then
      .error s!"batch size mismatch for {what}: expected={n} got={(value::values).length}"
    else .ok (value::values)

structure TranscribeOptions where
  context : Batch String := .one ""
  language : Batch (Option String) := .one none
  returnTimestamps : Bool := false
  maxNewTokens : Nat := 0
  maxBatchSize : Nat := 0
  maxBatchAudioSec : ℚ := 180
  chunkMaxSec : Option ℚ := none
  bucketByLength : Bool := true
  deriving DecidableEq, Repr

structure TimestampItem where
  text : String
  startTime : ℚ
  endTime : ℚ
  deriving DecidableEq, Repr

structure AsrTranscription where
  language : String
  text : String
  timestamps : Option (List TimestampItem)
  deriving DecidableEq, Repr

def SUPPORTED_LANGUAGES : List String := ["Chinese","English","Cantonese","Arabic","German","French","Spanish",
  "Portuguese","Indonesian","Italian","Korean","Russian","Thai","Vietnamese","Japanese","Turkish","Hindi","Malay",
  "Dutch","Swedish","Danish","Finnish","Polish","Czech","Filipino","Persian","Greek","Romanian","Hungarian","Macedonian"]

def validateLanguage (language : String) : Except String Unit :=
  if language ∈ SUPPORTED_LANGUAGES then .ok () else
  let supported := ", ".intercalate (SUPPORTED_LANGUAGES.map String.quote)
  .error s!"Unsupported language: {language}. Supported: [{supported}]"

def normalizeForcedLanguage (mapping : CaseMapping) : Option String → Except String (Option String)
  | none => .ok none
  | some lang =>
    if trim lang = "" then .ok none else do
    let normalized ← normalizeLanguageName mapping (trim lang)
    validateLanguage normalized
    .ok (some normalized)

def MAX_ASR_INPUT_SECONDS : ℚ := 1200

def chunkLimit (maximum : ℚ) (opts : TranscribeOptions) : ℚ := min (opts.chunkMaxSec.getD maximum) maximum

end Options

section Transcribe

/- The languages that are not empty, without one that repeats the one before it. -/
def mergeFrom (prev : Option String) : List String → List String
  | [] => []
  | lang::langs =>
    let x := trim lang
    if x = "" ∨ prev = some x then mergeFrom prev langs else x::mergeFrom (some x) langs

def mergeLanguages (langs : List String) : String := ",".intercalate (mergeFrom none langs)

/- The model with its processor. The thinker generates from features, prompts and a limit of tokens. -/
structure AsrModel (K : Type) where
  tokenizer : Tokenizer
  codec : AudioCodec K
  logMel : List K → Nat → K
  mode : FeaturePaddingMode
  varlen : Bool
  mapping : CaseMapping
  grouping : Grouping K
  generate : Nat → List Nat → List (List (List K)) → List Nat → List (List Nat) → List (List Nat) →
    Except String (List (List Nat))
  decode : List Nat → Except String String

def processorFor (model : AsrModel K) (maxNewTokens : Nat) (eosTokenIds : List Nat) : Processor K where
  tokenizer := model.tokenizer
  codec := model.codec
  logMel := model.logMel
  mode := model.mode
  varlen := model.varlen
  generate := model.generate (if maxNewTokens = 0 then 256 else maxNewTokens) eosTokenIds
  decode := model.decode

def buildEosTokenIds (tokenizer : Tokenizer) : Except String (List Nat) := do
  let first ← tokenizer.tokenToId imEnd
  let second ← tokenizer.tokenToId "<|endoftext|>"
  .ok (if first = second then [first] else [min first second,max first second])

variable [Field K] [LinearOrder K] (model : AsrModel K)

def parsedOutput (raw : String) (lang : Option String) : String × String := parseAsrOutput model.mapping (some raw) lang

def chunksOf (chunkMaxSec : ℚ) (item : AudioInput K) : Except String (List (AudioChunk K)) := do
  let wav ← normalizeAudioInput model.codec item
  splitAudioIntoChunks wav sampleRateHz (some chunkMaxSec)

def itemsOf (parts : List (AudioChunk K)) (origIndex : Nat) : List (ChunkItem K) := parts.map fun part => ⟨origIndex,part.wav⟩

def chunkItems (parts : List (List (AudioChunk K))) : List (ChunkItem K) := (parts.mapIdx fun i parts => itemsOf parts i).flatten

def forcedLanguages (opts : TranscribeOptions) (n : Nat) : Except String (List (Option String)) := do
  let langs ← broadcast n "language" opts.language
  langs.mapM (normalizeForcedLanguage model.mapping)

def merged (results : List String × List String) : AsrTranscription := ⟨mergeLanguages results.1,String.join results.2,none⟩

def transcribe (audio : List (AudioInput K)) (opts : TranscribeOptions) : Except String (List AsrTranscription) := do
  if opts.returnTimestamps then
    .error "return_timestamps requires forced aligner support; use transcribe_with_forced_aligner (feature `forced-aligner`) instead"
  else
  let contexts ← broadcast audio.length "context" opts.context
  let forcedLangsNorm ← forcedLanguages model opts audio.length
  let chunkMaxSec := chunkLimit MAX_ASR_INPUT_SECONDS opts
  let eosTokenIds ← buildEosTokenIds model.tokenizer
  if audio.length = 0 then .ok [] else
  let prompts := (contexts.zip forcedLangsNorm).map fun asked => buildPrompt asked.1 asked.2
  let parts ← audio.mapM (chunksOf model chunkMaxSec)
  let batch : ChunkAsrBatch K :=
    ⟨chunkItems parts,prompts,forcedLangsNorm,opts.maxBatchSize,opts.maxBatchAudioSec,opts.bucketByLength⟩
  let results ← runAsrOnChunksBatched model.grouping (processorFor model opts.maxNewTokens eosTokenIds) (parsedOutput model) batch
  let out ← perUtterance batch audio.length results
  .ok (out.map merged)

end Transcribe

section Grouped
variable {parseAsrOutput : String → Option String → String × String} {batch : ChunkAsrBatch K}

theorem addGroup (before after : List (List String × List String)) (had : List String × List String)
    {items : List (ChunkItem K)} (own : ∀ c ∈ items, c.origIndex = before.length) {results : List (String × String)}
    (same : items.length = results.length) :
    (items.zip results).foldlM addResult (before ++ had::after) =
      .ok (before ++ (had.1 ++ results.map Prod.fst,had.2 ++ results.map Prod.snd)::after) := by
  induction items generalizing results had with
  | nil =>
    obtain rfl := List.length_eq_zero_iff.mp same.symm
    simp [pure,Except.pure]
  | cons c items ih =>
    obtain ⟨here,others⟩ := List.forall_mem_cons.mp own
    cases results with
    | nil => cases same
    | cons result results =>
      have found : (before ++ had::after)[c.origIndex]? = some had := by
        rw [here,List.getElem?_append_right (Nat.le_refl _),Nat.sub_self]
        rfl
      have first : addResult (before ++ had::after) (c,result) =
          .ok (before ++ (had.1 ++ [result.1],had.2 ++ [result.2])::after) := by
        unfold addResult
        rw [found]
        dsimp only
        rw [here,List.set_append_right _ _ (Nat.le_refl _),Nat.sub_self]
        rfl
      rw [List.zip_cons_cons,List.foldlM_cons]
      refine exceptBind.mpr ⟨_,first,?_⟩
      rw [ih _ others (Nat.succ.inj same)]
      simp

theorem addGroups {groups : List (List (ChunkItem K))} {results : List (List (String × String))}
    (same : List.Forall₂ (fun items results => items.length = results.length) groups results)
    (before : List (List String × List String))
    (own : ∀ (items : List (ChunkItem K)) (i : Nat), groups[i]? = some items → ∀ c ∈ items, c.origIndex = before.length+i) :
    (groups.flatten.zip results.flatten).foldlM addResult (before ++ List.replicate groups.length ([],[])) =
      .ok (before ++ results.map List.unzip) := by
  induction same generalizing before with
  | nil => simp [pure,Except.pure]
  | @cons items part groups results head _ ih =>
    rw [List.flatten_cons,List.flatten_cons,List.zip_append head,List.foldlM_append,List.length_cons,List.replicate_succ]
    refine exceptBind.mpr ⟨_,addGroup before _ _ (own items 0 rfl) head,?_⟩
    have later := ih (before ++ [part.unzip]) fun items i found c inside => by
      have := own items (i+1) (by simpa using found) c inside
      simp only [List.length_append,List.length_singleton]
      omega
    simpa [List.unzip_eq_map] using later

variable [Field K] [LinearOrder K] {grouping : Grouping K} {processor : Processor K}
  {row : String × AudioInput K → Except String String}

theorem utterancesOk (byRow : ByRow row (transcribeItems processor batch)) {groups : List (List (ChunkItem K))}
    (chunks : batch.chunks = groups.flatten) (own : ∀ (items : List (ChunkItem K)) (i : Nat), groups[i]? = some items → ∀ c ∈ items, c.origIndex = i)
    (even : batch.prompts.length = batch.forcedLangsNorm.length) (out : List (List String × List String)) :
    utterances grouping processor parseAsrOutput batch groups.length = .ok out ↔
      ∃ results, groups.mapM (List.mapM (chunkResult parseAsrOutput batch row)) = .ok results ∧ results.map List.unzip = out := by
  have gathered : ∀ results, groups.mapM (List.mapM (chunkResult parseAsrOutput batch row)) = .ok results →
      perUtterance batch groups.length results.flatten.unzip = .ok (results.map List.unzip) := by
    intro results ok
    have shape : List.Forall₂ (fun items results => items.length = results.length) groups results :=
      (exceptMapM.mp ok).imp fun _ _ ok => (mapMLength ok).symm
    have total : batch.chunks.length = results.flatten.length := by
      rw [chunks]
      exact ((groupsByRow (byRowMapM _) groups _).mp ⟨results,ok,rfl⟩).length_eq
    have added := addGroups shape [] fun items i found c inside => by
      rw [List.length_nil,Nat.zero_add]
      exact own items i found c inside
    have halves : results.flatten.unzip.1.length = batch.chunks.length ∧ results.flatten.unzip.2.length = batch.chunks.length := by
      rw [List.unzip_eq_map,List.length_map,List.length_map,total]
      exact ⟨rfl,rfl⟩
    unfold perUtterance
    rw [if_neg (by rw [halves.1,halves.2]; simp),List.zip_unzip,chunks]
    exact added
  have ran : ∀ results : List String × List String, runAsrOnChunksBatched grouping processor parseAsrOutput batch = .ok results ↔
      (batch.chunks = [] ∨ batch.prompts.length = batch.forcedLangsNorm.length) ∧
      ∃ flat, List.Forall₂ (fun c result => chunkResult parseAsrOutput batch row c = .ok result) batch.chunks flat ∧
        flat.unzip = results := runOk byRow batch.bucketByLength
  constructor
  · intro ok
    obtain ⟨results,run,per⟩ := exceptBind.mp ok
    obtain ⟨_,flat,pairs,rfl⟩ := (ran results).mp run
    rw [chunks] at pairs
    obtain ⟨parts,each,rfl⟩ := (groupsByRow (byRowMapM _) groups flat).mpr pairs
    exact ⟨parts,each,Except.ok.inj ((gathered parts each).symm.trans per)⟩
  · rintro ⟨parts,each,rfl⟩
    refine exceptBind.mpr ⟨parts.flatten.unzip,(ran _).mpr ⟨.inr even,parts.flatten,?_,rfl⟩,gathered parts each⟩
    rw [chunks]
    exact (groupsByRow (byRowMapM _) groups _).mp ⟨parts,each,rfl⟩

end Grouped

section Asked
variable {model : AsrModel K} {parts : List (List (AudioChunk K))} {text : String × AudioInput K → Except String String}
  {batch : ChunkAsrBatch K}

structure Asked (K : Type) where
  item : AudioInput K
  context : String
  lang : Option String

def askedFor (audio : List (AudioInput K)) (contexts : List String) (langs : List (Option String)) : List (Asked K) :=
  (audio.zip (contexts.zip langs)).map fun asked => ⟨asked.1,asked.2.1,asked.2.2⟩

theorem broadcastLength {α : Type} {n : Nat} {what : String} {batch : Batch α} {values : List α}
    (ok : broadcast n what batch = .ok values) : values.length = n := by
  unfold broadcast at ok
  split at ok
  · next none_ =>
    obtain rfl := Except.ok.inj ok
    exact none_.symm
  · split at ok
    · obtain rfl := Except.ok.inj ok
      exact List.length_replicate
    · cases ok
    · split at ok
      · obtain rfl := Except.ok.inj ok
        exact List.length_replicate
      · split at ok
        · cases ok
        · next same =>
          obtain rfl := Except.ok.inj ok
          exact not_not.mp same

theorem languagesLength {opts : TranscribeOptions} {n : Nat} {langs : List (Option String)}
    (forced : forcedLanguages model opts n = .ok langs) : langs.length = n := by
  obtain ⟨_,spread,normalized⟩ := exceptBind.mp forced
  rw [mapMLength normalized,broadcastLength spread]

theorem itemsOwn {items : List (ChunkItem K)} {i : Nat} (found : (parts.mapIdx fun i part => itemsOf part i)[i]? = some items) :
    ∀ c ∈ items, c.origIndex = i := by
  rw [List.getElem?_mapIdx] at found
  obtain ⟨part,_,rfl⟩ := Option.map_eq_some_iff.mp found
  intro c inside
  obtain ⟨_,_,rfl⟩ := List.mem_map.mp inside
  rfl

theorem askedParts {audio : List (AudioInput K)} {contexts : List String} {langs : List (Option String)}
    (placed : contexts.length = audio.length) (forced : langs.length = audio.length) :
    (askedFor audio contexts langs).map Asked.item = audio ∧ (askedFor audio contexts langs).map Asked.lang = langs ∧
      ((contexts.zip langs).map fun asked => buildPrompt asked.1 asked.2) =
        (askedFor audio contexts langs).map fun asked => buildPrompt asked.context asked.lang := by
  have even : (contexts.zip langs).length = audio.length := by simp [placed,forced]
  refine ⟨?_,?_,?_⟩ <;> unfold askedFor <;> rw [List.map_map]
  · exact List.map_fst_zip even.ge
  · calc (audio.zip (contexts.zip langs)).map (fun asked => asked.2.2)
        = ((audio.zip (contexts.zip langs)).map Prod.snd).map Prod.snd := by rw [List.map_map]; rfl
      _ = langs := by rw [List.map_snd_zip even.le,List.map_snd_zip (forced.trans placed.symm).le]
  · calc (contexts.zip langs).map (fun asked => buildPrompt asked.1 asked.2)
        = ((audio.zip (contexts.zip langs)).map Prod.snd).map fun asked => buildPrompt asked.1 asked.2 := by
          rw [List.map_snd_zip even.le]
      _ = _ := by rw [List.map_map]; rfl

theorem askedFirst {P : Asked K → AsrTranscription → Prop} {audio : List (AudioInput K)} (some_ : audio ≠ [])
    {contexts : List String} {langs : List (Option String)} (placed : contexts.length = audio.length)
    (named : langs.length = audio.length) {out : List AsrTranscription}
    (answers : List.Forall₂ P (askedFor audio contexts langs) out) : ∃ asked answer, P asked answer := by
  obtain ⟨item,audio,rfl⟩ := List.exists_cons_of_ne_nil some_
  obtain ⟨context,contexts,rfl⟩ := List.exists_cons_of_length_eq_add_one placed
  obtain ⟨lang,langs,rfl⟩ := List.exists_cons_of_length_eq_add_one named
  cases answers with
  | cons head _ => exact ⟨_,_,head⟩

theorem normalizedRows (model : AsrModel K) (P : Asked K → AsrTranscription → Prop) {audio : List (AudioInput K)} {contexts : List String}
    {languages : List (Option String)} (placed : contexts.length = audio.length) (named : languages.length = audio.length)
    (out : List AsrTranscription) :
    (∃ langs, languages.mapM (normalizeForcedLanguage model.mapping) = .ok langs ∧ List.Forall₂ P (askedFor audio contexts langs) out) ↔
      List.Forall₂ (fun asked answer => ∃ lang, normalizeForcedLanguage model.mapping asked.lang = .ok lang ∧
        P {asked with lang} answer) (askedFor audio contexts languages) out := by
  simp only [exceptMapM]
  induction audio generalizing contexts languages out with
  | nil =>
    obtain rfl := List.length_eq_zero_iff.mp named
    simp [askedFor]
  | cons item audio ih =>
    obtain ⟨context,contexts,rfl⟩ := List.exists_cons_of_length_eq_add_one placed
    obtain ⟨language,languages,rfl⟩ := List.exists_cons_of_length_eq_add_one named
    have rest := ih (Nat.succ.inj placed) (Nat.succ.inj named)
    constructor
    · rintro ⟨_,normalized,answers⟩
      cases normalized with
      | cons here others =>
        cases answers with
        | cons head tail => exact .cons ⟨_,here,head⟩ ((rest _).mp ⟨_,others,tail⟩)
    · intro answers
      cases answers with
      | cons head tail =>
        obtain ⟨lang,here,head⟩ := head
        obtain ⟨langs,others,tail⟩ := (rest _).mpr tail
        exact ⟨lang::langs,.cons here others,.cons head tail⟩

variable {asks : List (Asked K)}

def pieceResult (model : AsrModel K) (text : String × AudioInput K → Except String String) (asked : Asked K)
    (part : AudioChunk K) : Except String (String × String) := do
  let raw ← text (buildPrompt asked.context asked.lang,.waveform part.wav sampleRateHz)
  .ok (parsedOutput model raw asked.lang)

theorem itemsResults (prompts : batch.prompts = asks.map fun asked => buildPrompt asked.context asked.lang)
    (langs : batch.forcedLangsNorm = asks.map Asked.lang) {u : Nat} {asked : Asked K} (found : asks[u]? = some asked)
    (part : List (AudioChunk K)) : (itemsOf part u).mapM (chunkResult (parsedOutput model) batch text) =
      part.mapM (pieceResult model text asked) := by
  have each : ∀ piece : AudioChunk K, chunkResult (parsedOutput model) batch text ⟨u,piece.wav⟩ = pieceResult model text asked piece := by
    intro piece
    have item : itemOf batch ⟨u,piece.wav⟩ = .ok (buildPrompt asked.context asked.lang,.waveform piece.wav sampleRateHz) :=
      exceptBind.mpr ⟨_,okOrOk.mpr (by simp [prompts,found]),rfl⟩
    have lang : batch.forcedLangsNorm[u]?.join = asked.lang := by simp [langs,found]
    unfold chunkResult pieceResult
    rw [item]
    simp only [parsed,lang]
    rfl
  rw [itemsOf,List.mapM_map]
  exact congrArg (fun f => part.mapM f) (funext each)

theorem groupsResults (prompts : batch.prompts = asks.map fun asked => buildPrompt asked.context asked.lang)
    (langs : batch.forcedLangsNorm = asks.map Asked.lang) (same : parts.length = asks.length) :
    (parts.mapIdx fun i part => itemsOf part i).mapM (List.mapM (chunkResult (parsedOutput model) batch text)) =
      (asks.zip parts).mapM fun pair => pair.2.mapM (pieceResult model text pair.1) := by
  have spread : ∀ {α β : Type} (f : α → Except String β) (xs : List α), xs.mapM f = (xs.map f).mapM id := by
    intro α β f xs
    rw [List.mapM_map]
    rfl
  rw [spread,spread _ (asks.zip parts)]
  refine congrArg (List.mapM id) (List.ext_getElem (by simp [same]) fun i inside _ => ?_)
  simp only [List.getElem_map,List.getElem_mapIdx,List.getElem_zip]
  simp only [List.length_map,List.length_mapIdx] at inside
  exact itemsResults prompts langs (List.getElem?_eq_getElem (same ▸ inside)) _

end Asked

section Alone
variable [Field K] [LinearOrder K] {model : AsrModel K}

def utterance (model : AsrModel K) (text : String × AudioInput K → Except String String) (chunkMaxSec : ℚ)
    (asked : Asked K) : Except String AsrTranscription := do
  let parts ← chunksOf model chunkMaxSec asked.item
  let results ← parts.mapM (pieceResult model text asked)
  .ok (merged results.unzip)

variable {text : String × AudioInput K → Except String String} {asks : List (Asked K)}

/- Cutting all inputs and then recognizing all chunks comes to the answer of every input. -/
theorem utterancesRows (chunkMaxSec : ℚ) (out : List AsrTranscription) :
    (∃ parts results, asks.mapM (fun asked => chunksOf model chunkMaxSec asked.item) = .ok parts ∧
      (asks.zip parts).mapM (fun pair => pair.2.mapM (pieceResult model text pair.1)) = .ok results ∧
      (results.map List.unzip).map merged = out) ↔
    List.Forall₂ (fun asked answer => utterance model text chunkMaxSec asked = .ok answer) asks out := by
  simp only [exceptMapM]
  induction asks generalizing out with
  | nil => simp [eq_comm]
  | cons asked asks ih =>
    constructor
    · rintro ⟨_,_,cuts,recognized,rfl⟩
      cases cuts with
      | @cons _ part _ parts cut cuts =>
        rw [List.zip_cons_cons] at recognized
        cases recognized with
        | cons head tail =>
          exact .cons (exceptBind.mpr ⟨part,cut,exceptBind.mpr ⟨_,exceptMapM.mpr head,rfl⟩⟩) ((ih _).mp ⟨parts,_,cuts,tail,rfl⟩)
    · intro answers
      cases answers with
      | cons head tail =>
        obtain ⟨part,cut,head⟩ := exceptBind.mp head
        obtain ⟨result,recognized,head⟩ := exceptBind.mp head
        obtain rfl := Except.ok.inj head
        obtain ⟨parts,results,cuts,recognizing,rfl⟩ := (ih _).mpr tail
        exact ⟨part::parts,result::results,.cons cut cuts,.cons (exceptMapM.mp recognized) recognizing,rfl⟩

theorem transcribeOk {opts : TranscribeOptions} {eosTokenIds : List Nat} (ends : buildEosTokenIds model.tokenizer = .ok eosTokenIds)
    (texts : ∀ maxBatchSize, ByRow text fun items => prepareItems (processorFor model opts.maxNewTokens eosTokenIds) items >>=
      generateRawPreparedBatch (processorFor model opts.maxNewTokens eosTokenIds) maxBatchSize)
    {audio : List (AudioInput K)} (some_ : audio ≠ []) (out : List AsrTranscription) :
    transcribe model audio opts = .ok out ↔ opts.returnTimestamps = false ∧ ∃ contexts langs,
      broadcast audio.length "context" opts.context = .ok contexts ∧ forcedLanguages model opts audio.length = .ok langs ∧
      List.Forall₂ (fun asked answer => utterance model text (chunkLimit MAX_ASR_INPUT_SECONDS opts) asked = .ok answer)
        (askedFor audio contexts langs) out := by
  have counted : audio.length ≠ 0 := fun none_ => some_ (List.length_eq_zero_iff.mp none_)
  let batchOf (contexts : List String) (langs : List (Option String)) (parts : List (List (AudioChunk K))) : ChunkAsrBatch K :=
    ⟨chunkItems parts,(contexts.zip langs).map fun asked => buildPrompt asked.1 asked.2,langs,opts.maxBatchSize,
      opts.maxBatchAudioSec,opts.bucketByLength⟩
  have recognized : ∀ {contexts langs parts}, contexts.length = audio.length → langs.length = audio.length →
      parts.length = audio.length → ∀ each,
      utterances model.grouping (processorFor model opts.maxNewTokens eosTokenIds) (parsedOutput model) (batchOf contexts langs parts) audio.length = .ok each ↔
        ∃ results, ((askedFor audio contexts langs).zip parts).mapM (fun pair => pair.2.mapM (pieceResult model text pair.1)) = .ok results ∧
          results.map List.unzip = each := by
    intro contexts langs parts placed forced cut each
    obtain ⟨items,own,prompts⟩ := askedParts placed forced
    have asks : parts.length = (askedFor audio contexts langs).length := by
      rw [cut,← List.length_map (f := Asked.item),items]
    have ran := @utterancesOk _ (parsedOutput model) (batchOf contexts langs parts) _ _ model.grouping _ _ (texts opts.maxBatchSize)
      (parts.mapIdx fun i part => itemsOf part i) rfl (fun _ _ found => itemsOwn found) (by simp [batchOf,placed,forced]) each
    rw [List.length_mapIdx,cut] at ran
    rw [ran,groupsResults prompts own.symm asks]
  have cutting : ∀ {contexts langs}, contexts.length = audio.length → langs.length = audio.length →
      (askedFor audio contexts langs).mapM (fun asked => chunksOf model (chunkLimit MAX_ASR_INPUT_SECONDS opts) asked.item) =
        audio.mapM (chunksOf model (chunkLimit MAX_ASR_INPUT_SECONDS opts)) := by
    intro contexts langs placed forced
    obtain ⟨items,_,_⟩ := askedParts placed forced
    conv_rhs => rw [← items,List.mapM_map]
    rfl
  constructor
  · intro ok
    unfold transcribe at ok
    split at ok
    · cases ok
    next plain =>
    obtain ⟨contexts,placed,ok⟩ := exceptBind.mp ok
    obtain ⟨langs,forced,ok⟩ := exceptBind.mp ok
    obtain ⟨_,found,ok⟩ := exceptBind.mp ok
    obtain rfl := Except.ok.inj (found.symm.trans ends)
    obtain ⟨parts,cut,ok⟩ := exceptBind.mp ok
    obtain ⟨results,ran,ok⟩ := exceptBind.mp ok
    obtain ⟨each,gathered,ok⟩ := exceptBind.mp ok
    obtain rfl := Except.ok.inj ok
    have contextsCounted := broadcastLength placed
    have langsCounted := languagesLength forced
    obtain ⟨pieces,pieced,rfl⟩ := (recognized contextsCounted langsCounted (mapMLength cut) each).mp (exceptBind.mpr ⟨results,ran,gathered⟩)
    refine ⟨by simpa using plain,contexts,langs,placed,forced,(utterancesRows _ _).mp ⟨parts,pieces,?_,pieced,rfl⟩⟩
    rwa [cutting contextsCounted langsCounted]
  · rintro ⟨plain,contexts,langs,placed,forced,answers⟩
    have contextsCounted := broadcastLength placed
    have langsCounted := languagesLength forced
    obtain ⟨parts,pieces,cut,pieced,rfl⟩ := (utterancesRows _ _).mpr answers
    rw [cutting contextsCounted langsCounted] at cut
    obtain ⟨results,ran,gathered⟩ := exceptBind.mp
      ((recognized contextsCounted langsCounted (mapMLength cut) _).mpr ⟨pieces,pieced,rfl⟩)
    unfold transcribe
    rw [if_neg (by simp [plain])]
    refine exceptBind.mpr ⟨contexts,placed,exceptBind.mpr ⟨langs,forced,exceptBind.mpr ⟨eosTokenIds,ends,?_⟩⟩⟩
    rw [if_neg counted]
    exact exceptBind.mpr ⟨parts,cut,exceptBind.mpr ⟨results,ran,exceptBind.mpr ⟨_,gathered,rfl⟩⟩⟩

def alone (opts : TranscribeOptions) (asked : Asked K) (maxBatchSize : Nat) (maxBatchAudioSec : ℚ) (bucketByLength : Bool) :
    TranscribeOptions :=
  {opts with context := .one asked.context, language := .one asked.lang, maxBatchSize, maxBatchAudioSec, bucketByLength}

theorem aloneOk {opts : TranscribeOptions} {eosTokenIds : List Nat} (ends : buildEosTokenIds model.tokenizer = .ok eosTokenIds)
    (texts : ∀ maxBatchSize, ByRow text fun items => prepareItems (processorFor model opts.maxNewTokens eosTokenIds) items >>=
      generateRawPreparedBatch (processorFor model opts.maxNewTokens eosTokenIds) maxBatchSize)
    (asked : Asked K) (maxBatchSize : Nat) (maxBatchAudioSec : ℚ) (bucketByLength : Bool) (answer : AsrTranscription) :
    transcribe model [asked.item] (alone opts asked maxBatchSize maxBatchAudioSec bucketByLength) = .ok [answer] ↔
      opts.returnTimestamps = false ∧ ∃ lang, normalizeForcedLanguage model.mapping asked.lang = .ok lang ∧
        utterance model text (chunkLimit MAX_ASR_INPUT_SECONDS opts) {asked with lang} = .ok answer := by
  rw [@transcribeOk _ _ _ model text (alone opts asked maxBatchSize maxBatchAudioSec bucketByLength) eosTokenIds ends texts
    [asked.item] (List.cons_ne_nil _ _)]
  refine and_congr_right fun _ => ?_
  have rows := @normalizedRows _ model
    (fun asked answer => utterance model text (chunkLimit MAX_ASR_INPUT_SECONDS opts) asked = .ok answer)
    [asked.item] [asked.context] [asked.lang] rfl rfl [answer]
  constructor
  · rintro ⟨contexts,langs,placed,forced,answers⟩
    obtain rfl := Except.ok.inj placed
    exact (List.forall₂_cons.mp (rows.mp ⟨langs,forced,answers⟩)).1
  · intro answered
    obtain ⟨langs,forced,answers⟩ := rows.mpr (.cons answered .nil)
    exact ⟨_,langs,rfl,forced,answers⟩

/-- What a list of inputs is answered is what each of them is answered by itself, with its own context and
language, however many rows, seconds or lengths either call takes together. -/
theorem transcribeAlone (model : AsrModel K) (mode : model.varlen = true ∨ model.mode = .feature)
    (rowwise : ∀ maxNewTokens eosTokenIds, GeneratesByRow (processorFor model maxNewTokens eosTokenIds))
    (opts : TranscribeOptions) {audio : List (AudioInput K)} (some_ : audio ≠ []) (maxBatchSize : Nat) (maxBatchAudioSec : ℚ)
    (bucketByLength : Bool) (out : List AsrTranscription) :
    transcribe model audio opts = .ok out ↔ ∃ contexts languages,
      broadcast audio.length "context" opts.context = .ok contexts ∧ broadcast audio.length "language" opts.language = .ok languages ∧
      List.Forall₂ (fun asked answer =>
        transcribe model [asked.item] (alone opts asked maxBatchSize maxBatchAudioSec bucketByLength) = .ok [answer])
        (askedFor audio contexts languages) out := by
  have ended : ∀ {audio opts answers}, transcribe model audio opts = .ok answers → ∃ eosTokenIds,
      buildEosTokenIds model.tokenizer = .ok eosTokenIds := by
    intro audio opts answers ok
    unfold transcribe at ok
    split at ok
    · cases ok
    obtain ⟨_,_,ok⟩ := exceptBind.mp ok
    obtain ⟨_,_,ok⟩ := exceptBind.mp ok
    obtain ⟨eosTokenIds,found,_⟩ := exceptBind.mp ok
    exact ⟨eosTokenIds,found⟩
  have one : ∀ {eosTokenIds}, buildEosTokenIds model.tokenizer = .ok eosTokenIds → (transcribe model audio opts = .ok out ↔
      ∃ contexts languages, broadcast audio.length "context" opts.context = .ok contexts ∧
        broadcast audio.length "language" opts.language = .ok languages ∧
        List.Forall₂ (fun asked answer =>
          transcribe model [asked.item] (alone opts asked maxBatchSize maxBatchAudioSec bucketByLength) = .ok [answer])
          (askedFor audio contexts languages) out) := by
    intro eosTokenIds ends
    obtain ⟨text,texts⟩ := @preparedTexts _ _ _ (processorFor model opts.maxNewTokens eosTokenIds) mode (rowwise _ _)
    rw [transcribeOk ends texts some_]
    simp only [aloneOk ends texts]
    have rows := fun (contexts : List String) (languages : List (Option String)) placed named => @normalizedRows _ model
      (fun asked answer => utterance model text (chunkLimit MAX_ASR_INPUT_SECONDS opts) asked = .ok answer)
      audio contexts languages placed named out
    constructor
    · rintro ⟨plain,contexts,langs,placed,forced,answers⟩
      obtain ⟨languages,spread,normalized⟩ := exceptBind.mp forced
      have each := (rows _ _ (broadcastLength placed) (broadcastLength spread)).mp ⟨langs,normalized,answers⟩
      exact ⟨contexts,languages,placed,spread,each.imp fun _ _ answered => ⟨plain,answered⟩⟩
    · rintro ⟨contexts,languages,placed,spread,answers⟩
      obtain ⟨_,_,plain,_⟩ := askedFirst some_ (broadcastLength placed) (broadcastLength spread) answers
      obtain ⟨langs,normalized,each⟩ := (rows _ _ (broadcastLength placed) (broadcastLength spread)).mpr
        (answers.imp fun _ _ answered => answered.2)
      exact ⟨plain,_,langs,placed,exceptBind.mpr ⟨_,spread,normalized⟩,each⟩
  constructor
  · intro ok
    obtain ⟨_,ends⟩ := ended ok
    exact (one ends).mp ok
  · rintro ⟨contexts,languages,placed,spread,answers⟩
    obtain ⟨_,_,answered⟩ := askedFirst some_ (broadcastLength placed) (broadcastLength spread) answers
    obtain ⟨_,ends⟩ := ended answered
    exact (one ends).mpr ⟨contexts,languages,placed,spread,answers⟩

end Alone

section Counting

def frameCounting : AsrModel ℚ where
  tokenizer := (frameCounter .feature).tokenizer
  codec := (frameCounter .feature).codec
  logMel := (frameCounter .feature).logMel
  mode := .feature
  varlen := false
  mapping := ⟨fun c => [c.toUpper],fun c => [c.toLower]⟩
  grouping := exactGroups
  generate _ _ := (frameCounter .feature).generate
  decode := (frameCounter .feature).decode

theorem frameCountingByRow (maxNewTokens : Nat) (eosTokenIds : List Nat) :
    GeneratesByRow (processorFor frameCounting maxNewTokens eosTokenIds) := frameCounterByRow .feature

def quiet (samples : Nat) : AudioInput ℚ := .waveform (List.replicate samples 0) sampleRateHz

theorem transcribeAloneCounted :
    transcribe frameCounting [quiet 240,quiet 320] {language := .many [none,some " english"], maxBatchSize := 2} =
      .ok [⟨"","1",none⟩,⟨"English","2",none⟩] :=
  (transcribeAlone frameCounting (.inr rfl) frameCountingByRow _ (List.cons_ne_nil _ _) 1 0 false _).mpr
    ⟨["",""],[none,some " english"],rfl,rfl,.cons (by decide +kernel) (.cons (by decide +kernel) .nil)⟩

end Counting

end Qwen3Asr.OfflineTranscribe
