import Mathlib.Algebra.Order.BigOperators.Group.List
import Mathlib.Tactic.SplitIfs
import Qwen3Asr.Library.ReservedWord
import Qwen3Asr.Scheduler

/-! The prompts of a batch and their audio placeholders. The tokenizer is a parameter; a
request's audio is the attention mask of its features. -/
namespace Qwen3Asr.PromptBuilder
open Library.Effect Library.ReservedWord
open PagedMetadata BatchEngine Scheduler

section Template

def imStart : String := "<|im_start|>"
def imEnd : String := "<|im_end|>"
def audioBos : String := "<|audio_start|>"
def audioPad : String := "<|audio_pad|>"
def audioEos : String := "<|audio_end|>"

def buildPrompt (context : String) (forceLanguage : Option String) : String :=
  imStart ++ "system\n" ++ context ++ imEnd ++ "\n" ++
  imStart ++ "user\n" ++ audioBos ++ audioPad ++ audioEos ++ imEnd ++ "\n" ++
  imStart ++ "assistant\n" ++
  match forceLanguage with
  | some lang => "language " ++ lang ++ "<asr_text>"
  | none => ""

end Template

section FeatureLengths

/- Quotient and remainder truncate toward zero in the source. -/
def divFloor (a b : Int) : Int :=
  let q := a.tdiv b
  let r := a.tmod b
  if r ≠ 0 ∧ ((r > 0) ≠ (b > 0)) then q-1 else q

def featExtractOutputLength (inputLen : Nat) : Nat :=
  let inputLen : Int := if inputLen < 2^63 then inputLen else 2^63-1
  let leave := inputLen.tmod 100
  let featLen := divFloor (leave-1) 2+1
  let base := divFloor (divFloor (featLen-1) 2) 2+1
  let extra := divFloor inputLen 100*13
  (base+extra).toNat

example : [0,1,5,99,100,101,199,200].map featExtractOutputLength = [0,1,1,13,13,14,26,26] := rfl

end FeatureLengths

structure Tokenizer where
  encode : String → Except String (List Nat)
  tokenToId : String → Except String Nat

def expandFirst (audioPadId n : Nat) : List Nat → List Nat
  | [] => []
  | id::ids =>
    if id = audioPadId then List.replicate n audioPadId ++ ids else id::expandFirst audioPadId n ids

def expandAudioPadIdsFirst (ids : List Nat) (audioPadId n : Nat) : List Nat :=
  if n = 1 then ids else expandFirst audioPadId n ids

def realFrames (featureMask : List Nat) : Nat := featureMask.countP (· ≠ 0)

def audioOutLen (featureMask : List Nat) : Nat := featExtractOutputLength (realFrames featureMask)

/- A row keeps its own length unless the batch is padded. -/
def preparedRow (padId maxTokens : Nat) (padToBatchMax : Bool) (ids : List Nat) : Except String PreparedInputs :=
  if padToBatchMax then
    if ids.length > maxTokens then
      .error s!"internal error: sequence len {ids.length} > max_tokens {maxTokens}"
    else
      let pad := maxTokens-ids.length
      .ok ⟨ids ++ List.replicate pad padId,List.replicate ids.length 1 ++ List.replicate pad 0⟩
  else .ok ⟨ids,List.replicate ids.length 1⟩

/- The cache of encoded prompts only saves calls: a prompt always has the same ids. -/
def prepareBatch (tokenizer : Tokenizer) (padToBatchMax : Bool) (items : List (String × List Nat)) :
    Except String (List PreparedInputs) := do
  if items = [] then .ok [] else
  let padId ← tokenizer.tokenToId "<|endoftext|>"
  let audioPadId ← tokenizer.tokenToId audioPad
  let inputIds ← items.mapM fun (prompt,featureMask) => do
    let baseIds ← tokenizer.encode prompt
    .ok (expandAudioPadIdsFirst baseIds audioPadId (audioOutLen featureMask))
  let maxTokens := maxOf (inputIds.map List.length)
  inputIds.mapM (preparedRow padId maxTokens padToBatchMax)

structure PromptRequest where
  context : String
  forceLanguage : Option String
  featureMask : List Nat
  deriving DecidableEq, Repr

def item (request : PromptRequest) : String × List Nat :=
  (buildPrompt request.context request.forceLanguage,request.featureMask)

/- What is assumed of the tokenizer: it reads every spelling of the placeholder as its id, and
nothing else. -/
structure SpellsAudioPad (tokenizer : Tokenizer) (ids : String → List Nat) (padId audioPadId : Nat) : Prop where
  padFound : tokenizer.tokenToId "<|endoftext|>" = .ok padId
  audioPadFound : tokenizer.tokenToId audioPad = .ok audioPadId
  distinct : padId ≠ audioPadId
  encodes : ∀ text, tokenizer.encode text = .ok (ids text)
  spelled : ∀ before after, ids (before ++ audioPad ++ after) = ids before ++ audioPadId::ids after
  plain : ∀ text, ¬audioPad.toList <:+: text.toList → audioPadId ∉ ids text

def promptBefore (context : String) : String :=
  imStart ++ "system\n" ++ context ++ imEnd ++ "\n" ++ imStart ++ "user\n" ++ audioBos

def promptAfter (forceLanguage : Option String) : String :=
  audioEos ++ imEnd ++ "\n" ++ imStart ++ "assistant\n" ++
  match forceLanguage with
  | some lang => "language " ++ lang ++ "<asr_text>"
  | none => ""

/- The row holds the placeholders of its audio where the prompt has them, and no others. -/
def Placed (ids : String → List Nat) (padId audioPadId : Nat) (request : PromptRequest) (row : PreparedInputs) : Prop :=
  (∃ extra, row.inputIds = ids (promptBefore request.context) ++
    List.replicate (audioOutLen request.featureMask) audioPadId ++ ids (promptAfter request.forceLanguage) ++
    List.replicate extra padId) ∧
  row.inputIds.count audioPadId = audioOutLen request.featureMask

/- Neither text of the request spells the placeholder. -/
def Clean (request : PromptRequest) : Prop :=
  ¬audioPad.toList <:+: request.context.toList ∧
  ∀ lang, request.forceLanguage = some lang → ¬audioPad.toList <:+: lang.toList

/- The run's features are those of the requests: one for every position the audio tower gives. -/
structure Serves {φ : Type} (run : ContinuousRun φ) (audioPadId : Nat) (requests : List PromptRequest) : Prop where
  token : run.thinker.audioTokenId = audioPadId
  features : run.audioFeatures.length = (requests.map fun request => audioOutLen request.featureMask).sum
  limit : run.maxNewTokens ≠ 0

def PassesAudioCheck {φ : Type} (run : ContinuousRun φ) (prepared : List PreparedInputs) : Prop :=
  ∀ nextRequestId runtime message left,
    enter {run with prepared} nextRequestId runtime ≠ .returned (.error message,left)

theorem promptParts (context : String) (forceLanguage : Option String) :
    buildPrompt context forceLanguage = promptBefore context ++ audioPad ++ promptAfter forceLanguage := by
  unfold buildPrompt promptBefore promptAfter
  simp only [String.append_assoc]

theorem beforeClean (context : String) :
    audioPad.toList <:+: (promptBefore context).toList ↔ audioPad.toList <:+: context.toList := by
  have shape : (promptBefore context).toList = "<|im_start|>system".toList ++ '\n' :: (context.toList ++
      '<' :: "|im_end|>\n<|im_start|>user\n<|audio_start|>".toList) := by
    simp [promptBefore,imStart,imEnd,audioBos]
  have opening : audioPad.toList = '<' :: "|audio_pad|>".toList := rfl
  rw [shape,infixAcrossForeign (by decide),opening,infixBeforeOpening (by decide)]
  have first : ¬ '<' :: "|audio_pad|>".toList <:+: "<|im_start|>system".toList := by decide
  have last : ¬ '<' :: "|audio_pad|>".toList <:+: '<' :: "|im_end|>\n<|im_start|>user\n<|audio_start|>".toList := by decide
  simp only [first,last,false_or,or_false]

theorem afterClean (forceLanguage : Option String) :
    audioPad.toList <:+: (promptAfter forceLanguage).toList ↔
      ∃ lang, forceLanguage = some lang ∧ audioPad.toList <:+: lang.toList := by
  cases forceLanguage with
  | none =>
    have closed : ¬audioPad.toList <:+: (promptAfter none).toList := by decide
    simp [closed]
  | some lang =>
    have shape : (promptAfter (some lang)).toList =
        "<|audio_end|><|im_end|>\n<|im_start|>assistant\nlanguage".toList ++ ' ' :: (lang.toList ++
          '<' :: "asr_text>".toList) := by
      simp [promptAfter,imStart,imEnd,audioEos]
    have opening : audioPad.toList = '<' :: "|audio_pad|>".toList := rfl
    rw [shape,infixAcrossForeign (by decide),opening,infixBeforeOpening (by decide)]
    have first : ¬ '<' :: "|audio_pad|>".toList <:+:
        "<|audio_end|><|im_end|>\n<|im_start|>assistant\nlanguage".toList := by decide
    have last : ¬ '<' :: "|audio_pad|>".toList <:+: '<' :: "asr_text>".toList := by decide
    simp only [first,last,false_or,or_false,Option.some.injEq,exists_eq_left']

section Expansion
variable {audioPadId n : Nat} {ids : List Nat}

theorem expandOne : expandFirst audioPadId 1 ids = ids := by
  induction ids with
  | nil => rfl
  | cons id ids ih =>
    by_cases same : id = audioPadId
    · simp [expandFirst,same]
    · simp [expandFirst,same,ih]

theorem expandsFirst (ids : List Nat) (audioPadId n : Nat) :
    expandAudioPadIdsFirst ids audioPadId n = expandFirst audioPadId n ids := by
  unfold expandAudioPadIdsFirst
  split
  · next one => rw [one,expandOne]
  · rfl

theorem expandAt {before after : List Nat} (plain : audioPadId ∉ before) :
    expandFirst audioPadId n (before ++ audioPadId::after) = before ++ (List.replicate n audioPadId ++ after) := by
  induction before with
  | nil => simp [expandFirst]
  | cons id before ih =>
    simp only [List.mem_cons,not_or] at plain
    simp [expandFirst,Ne.symm plain.1,ih plain.2]

theorem expandCount (inside : audioPadId ∈ ids) :
    (expandFirst audioPadId n ids).count audioPadId+1 = n+ids.count audioPadId := by
  induction ids with
  | nil => contradiction
  | cons id ids ih =>
    by_cases same : id = audioPadId
    · simp [expandFirst,same,Nat.add_assoc]
    · have rest := ih ((List.mem_cons.mp inside).resolve_left (Ne.symm same))
      simpa [expandFirst,same] using rest

end Expansion

section Integrity
variable {tokenizer : Tokenizer} {ids : String → List Nat} {padId audioPadId : Nat}

def expandedIds (ids : String → List Nat) (audioPadId : Nat) (request : PromptRequest) : List Nat :=
  expandFirst audioPadId (audioOutLen request.featureMask) (ids (buildPrompt request.context request.forceLanguage))

theorem promptIds (spells : SpellsAudioPad tokenizer ids padId audioPadId) (request : PromptRequest) :
    ids (buildPrompt request.context request.forceLanguage) =
      ids (promptBefore request.context) ++ audioPadId::ids (promptAfter request.forceLanguage) := by
  rw [promptParts,spells.spelled]

theorem spelledMember (spells : SpellsAudioPad tokenizer ids padId audioPadId) (text : String) :
    audioPadId ∈ ids text ↔ audioPad.toList <:+: text.toList := by
  constructor
  · intro inside
    exact Classical.not_not.mp fun plain => spells.plain text plain inside
  · rintro ⟨before,after,whole⟩
    have parts : text = String.ofList before ++ audioPad ++ String.ofList after :=
      String.toList_inj.mp (by simp [← whole])
    simp [parts,spells.spelled]

theorem cleanIds (spells : SpellsAudioPad tokenizer ids padId audioPadId) (request : PromptRequest) :
    Clean request ↔ audioPadId ∉ ids (promptBefore request.context) ∧
      audioPadId ∉ ids (promptAfter request.forceLanguage) := by
  unfold Clean
  rw [spelledMember spells,spelledMember spells,beforeClean,afterClean]
  simp only [not_exists,not_and]

theorem expandedCount (spells : SpellsAudioPad tokenizer ids padId audioPadId) (request : PromptRequest) :
    (expandedIds ids audioPadId request).count audioPadId = audioOutLen request.featureMask +
      ((ids (promptBefore request.context)).count audioPadId +
        (ids (promptAfter request.forceLanguage)).count audioPadId) := by
  have inside : audioPadId ∈ ids (buildPrompt request.context request.forceLanguage) := by
    simp [promptIds spells]
  have counted := expandCount (n := audioOutLen request.featureMask) inside
  rw [promptIds spells,List.count_append,List.count_cons_self] at counted
  unfold expandedIds
  rw [promptIds spells]
  omega

theorem countClean (spells : SpellsAudioPad tokenizer ids padId audioPadId) (request : PromptRequest) :
    (expandedIds ids audioPadId request).count audioPadId = audioOutLen request.featureMask ↔ Clean request := by
  rw [expandedCount spells,cleanIds spells,← List.count_eq_zero,← List.count_eq_zero]
  omega

theorem placedClean (spells : SpellsAudioPad tokenizer ids padId audioPadId) {request : PromptRequest}
    {row : PreparedInputs} {extra : Nat}
    (padded : row.inputIds = expandedIds ids audioPadId request ++ List.replicate extra padId) :
    Placed ids padId audioPadId request row ↔ Clean request := by
  have counted : row.inputIds.count audioPadId = (expandedIds ids audioPadId request).count audioPadId := by
    simp [padded,List.count_replicate,spells.distinct]
  unfold Placed
  rw [counted,countClean spells]
  constructor
  · exact And.right
  · intro clean
    have apart : expandFirst audioPadId (audioOutLen request.featureMask)
        (ids (promptBefore request.context) ++ audioPadId::ids (promptAfter request.forceLanguage)) = _ :=
      expandAt ((cleanIds spells request).mp clean).1
    rw [← promptIds spells] at apart
    exact ⟨⟨extra,by rw [padded,expandedIds,apart]; simp only [List.append_assoc]⟩,clean⟩

def paddedRow (padId pad : Nat) (ids : List Nat) : PreparedInputs :=
  ⟨ids ++ List.replicate pad padId,List.replicate ids.length 1 ++ List.replicate pad 0⟩

theorem preparedRowOk {maxTokens : Nat} {row : List Nat} (padToBatchMax : Bool) (within : row.length ≤ maxTokens) :
    preparedRow padId maxTokens padToBatchMax row =
      .ok (paddedRow padId (if padToBatchMax then maxTokens-row.length else 0) row) := by
  unfold preparedRow paddedRow
  cases padToBatchMax with
  | false => simp
  | true => simp [Nat.not_lt.mpr within]

theorem preparedRows (spells : SpellsAudioPad tokenizer ids padId audioPadId) (padToBatchMax : Bool)
    (requests : List PromptRequest) :
    ∃ rows, prepareBatch tokenizer padToBatchMax (requests.map item) = .ok rows ∧
      List.Forall₂ (fun request row => ∃ extra,
        row.inputIds = expandedIds ids audioPadId request ++ List.replicate extra padId) requests rows := by
  unfold prepareBatch
  split
  · next empty =>
    cases List.map_eq_nil_iff.mp empty
    exact ⟨[],rfl,.nil⟩
  · have encoded : List.Forall₂ (fun (prompt,featureMask) expanded => (do
        let baseIds ← tokenizer.encode prompt
        .ok (expandAudioPadIdsFirst baseIds audioPadId (audioOutLen featureMask))) = .ok expanded)
        (requests.map item) (requests.map (expandedIds ids audioPadId)) := by
      simp [List.forall₂_map_left_iff,List.forall₂_map_right_iff,List.forall₂_same,item,spells.encodes,bind,
        Except.bind,expandsFirst,expandedIds]
    let maxTokens := maxOf ((requests.map (expandedIds ids audioPadId)).map List.length)
    let pad := fun row : List Nat => if padToBatchMax then maxTokens-row.length else 0
    have rows : List.Forall₂ (fun row out => preparedRow padId maxTokens padToBatchMax row = .ok out)
        (requests.map (expandedIds ids audioPadId))
        ((requests.map (expandedIds ids audioPadId)).map fun row => paddedRow padId (pad row) row) :=
      List.forall₂_map_right_iff.mpr (List.forall₂_same.mpr fun row inside =>
        preparedRowOk padToBatchMax (List.le_max?_getD_of_mem (List.mem_map_of_mem inside)))
    refine ⟨_,exceptBind.mpr ⟨_,spells.padFound,exceptBind.mpr ⟨_,spells.audioPadFound,exceptBind.mpr
      ⟨_,exceptMapM.mpr encoded,exceptMapM.mpr rows⟩⟩⟩,?_⟩
    simp only [List.map_map,List.forall₂_map_right_iff,List.forall₂_same]
    exact fun request _ => ⟨_,rfl⟩

/- Over a batch there are as many placeholders as features only when no request adds one. -/
theorem sumClean (spells : SpellsAudioPad tokenizer ids padId audioPadId) {requests : List PromptRequest}
    {rows : List PreparedInputs} (padded : List.Forall₂ (fun request row => ∃ extra,
      row.inputIds = expandedIds ids audioPadId request ++ List.replicate extra padId) requests rows) :
    (requests.map fun request => audioOutLen request.featureMask).sum ≤
      (rows.map fun row => row.inputIds.count audioPadId).sum ∧
    ((rows.map fun row => row.inputIds.count audioPadId).sum =
        (requests.map fun request => audioOutLen request.featureMask).sum ↔
      ∀ request ∈ requests, Clean request) := by
  induction padded with
  | nil => simp
  | @cons request row requests rows head _ ih =>
    obtain ⟨extra,whole⟩ := head
    have counted : row.inputIds.count audioPadId = (expandedIds ids audioPadId request).count audioPadId := by
      simp [whole,List.count_replicate,spells.distinct]
    have more := expandedCount spells request
    have exact' := countClean spells request
    obtain ⟨below,same⟩ := ih
    simp only [List.map_cons,List.sum_cons,List.forall_mem_cons,counted]
    rw [← same,← exact']
    omega

theorem placedCounts {requests : List PromptRequest} {rows : List PreparedInputs}
    (placed : List.Forall₂ (Placed ids padId audioPadId) requests rows) :
    rows.map (·.inputIds.count audioPadId) = requests.map (audioOutLen ·.featureMask) := by
  induction placed with
  | nil => rfl
  | cons head _ ih => exact congrArg₂ List.cons head.2 ih

theorem auditPasses {φ : Type} {run : ContinuousRun φ} {requests : List PromptRequest} {rows : List PreparedInputs}
    (serves : Serves run audioPadId requests) :
    PassesAudioCheck run rows ↔ (rows.map fun row => row.inputIds.count audioPadId).sum =
      (requests.map fun request => audioOutLen request.featureMask).sum ∨ rows = [] := by
  unfold PassesAudioCheck enter rowAudioLens
  rw [← serves.features,← serves.token]
  by_cases empty : rows = []
  · simp [empty]
  · by_cases same : (rows.map fun row => row.inputIds.count run.thinker.audioTokenId).sum = run.audioFeatures.length
    · simp [empty,serves.limit,same]
    · simp only [empty,List.length_eq_zero_iff,serves.limit,same,if_false,if_true,ne_eq,not_false_eq_true,or_self,
        iff_false,not_forall]
      exact ⟨0,⟨⟨1,1,1,false⟩,BlockManager.new 1 1,[]⟩,_,_,fun kept => kept rfl⟩

/-- The audio of a request stands where its prompt puts it, and alone, exactly when neither of
its texts spells the placeholder; and one request that does fails the check of the batch. -/
theorem placeholderIntegrity (spells : SpellsAudioPad tokenizer ids padId audioPadId) (padToBatchMax : Bool)
    (requests : List PromptRequest) :
    ∃ rows, prepareBatch tokenizer padToBatchMax (requests.map item) = .ok rows ∧
      List.Forall₂ (fun request row => Placed ids padId audioPadId request row ↔ Clean request) requests rows ∧
      ∀ {φ : Type} (run : ContinuousRun φ), Serves run audioPadId requests →
        (PassesAudioCheck run rows ↔ ∀ request ∈ requests, Clean request) := by
  obtain ⟨rows,ok,padded⟩ := preparedRows spells padToBatchMax requests
  refine ⟨rows,ok,padded.imp fun request row ⟨_,whole⟩ => placedClean spells whole,fun run serves => ?_⟩
  rw [auditPasses serves,(sumClean spells padded).2]
  constructor
  · rintro (clean | empty)
    · exact clean
    · cases empty
      cases padded
      simp
  · exact Or.inl

end Integrity

section Examples

def characterIds (text : String) : List Nat :=
  scan '<' "|audio_pad|>".toList 1 (fun c => c.toNat+2) 0 text.toList

def characters : Tokenizer where
  encode text := .ok (characterIds text)
  tokenToId token := if token = audioPad then .ok 1 else if token = "<|endoftext|>" then .ok 0
    else .error "token not found in vocab"

theorem charactersSpell : SpellsAudioPad characters characterIds 0 1 where
  padFound := rfl
  audioPadFound := rfl
  distinct := by simp
  encodes _ := rfl
  spelled before after := by
    have whole : (before ++ audioPad ++ after).toList =
        before.toList ++ '<' :: ("|audio_pad|>".toList ++ after.toList) := by
      simp [audioPad]
    unfold characterIds
    rw [whole]
    exact scanSplit (by decide) 0 before.toList after.toList (Nat.zero_le _)
  plain text absent := scanPlain (fun c => by simp) text.toList absent

def nineFrames : List Nat := List.replicate 9 1

def spellingContext : List PromptRequest := [⟨"<|audio_pad|>",none,nineFrames⟩,⟨"",some "English",nineFrames⟩]

def fourFeatures : ContinuousRun Nat where
  maxNumSeqs := 2
  thinker := ⟨1,false,fun _ _ => .ok fun _ _ => 0⟩
  prepared := []
  audioFeatures := [10,11,12,13]
  maxNewTokens := 4
  eosTokenIds := [0]
  padId := 0

theorem fourFeaturesServe : Serves fourFeatures 1 spellingContext := ⟨rfl,rfl,by decide⟩

theorem placeholderIntegritySpelled :
    SpellsAudioPad characters characterIds 0 1 ∧
    ∃ rows, prepareBatch characters true (spellingContext.map item) = .ok rows ∧
      List.Forall₂ (fun request row => Placed characterIds 0 1 request row ↔ Clean request) spellingContext rows ∧
      (PassesAudioCheck fourFeatures rows ↔ ∀ request ∈ spellingContext, Clean request) := by
  obtain ⟨rows,ok,placed,checked⟩ := placeholderIntegrity charactersSpell true spellingContext
  exact ⟨charactersSpell,rows,ok,placed,checked fourFeatures fourFeaturesServe⟩

/- The first request has three placeholders for two features, the batch five for four. -/
theorem spelledContextFails :
    ∃ rows, prepareBatch characters true (spellingContext.map item) = .ok rows ∧
      rows.map (·.inputIds.count 1) = [3,2] ∧ audioOutLen nineFrames = 2 ∧
      ¬List.Forall₂ (Placed characterIds 0 1) spellingContext rows ∧ ¬PassesAudioCheck fourFeatures rows := by
  obtain ⟨rows,ok,padded⟩ := preparedRows charactersSpell true spellingContext
  have counts : rows.map (·.inputIds.count 1) = [3,2] := by
    obtain _ | ⟨⟨extra,first⟩,_ | ⟨⟨more,second⟩,_ | _⟩⟩ := padded
    simp only [List.map_cons,List.map_nil,first,second,List.count_append,expandedCount charactersSpell]
    simp only [List.count_replicate]
    rfl
  have frames : audioOutLen nineFrames = 2 := rfl
  refine ⟨rows,ok,counts,frames,fun placed => ?_,fun passes => ?_⟩
  · have each := placedCounts placed
    rw [counts] at each
    simp [spellingContext,frames] at each
  · rcases (auditPasses fourFeaturesServe).mp passes with same | empty
    · rw [counts] at same
      simp [spellingContext,frames] at same
    · simp [empty] at counts

end Examples

end Qwen3Asr.PromptBuilder
