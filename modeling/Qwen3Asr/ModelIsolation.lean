import Qwen3Asr.EagerGeneration
import Qwen3Asr.Library.SharedTable
import Qwen3Asr.PrefixReuse

/-! Batches of several models on one thread. The templates of shared prefixes are kept by the ids of the
prefix alone, so a call may resume from the cache of another model. -/
namespace Qwen3Asr.ModelIsolation
open Library Library.Effect Library.SharedTable
open PagedMetadata EagerThinker BatchPrefill EagerGeneration KvCache

variable {φ η κ ι : Type}

structure ModelCall (ι φ : Type) where
  model : ι
  inputIds : List (List Nat)
  attentionMask : List (List Nat)
  opts : GreedyGenerateBatchOpts φ

def generate (models : ι → CausalThinker φ η κ) (call : ModelCall ι φ) :
    EStateM String (Templates κ) (List (List Nat)) :=
  greedyGenerateCachedBatch (models call.model) call.inputIds call.attentionMask call.opts

/- The ids of the batch's shared prefix; none where the checks fail. -/
def prefixKey (models : ι → CausalThinker φ η κ) (call : ModelCall ι φ) : List Nat :=
  match batchChecks call.inputIds call.attentionMask call.opts.eosTokenIds with
  | .ok (ids,mask) => prefixIdsOf (models call.model) ids mask call.opts.audioFeatures
  | .error _ => []

section Local
variable {thinker : CausalThinker φ η κ} {ids mask : Grid Nat} {opts : GreedyGenerateBatchOpts φ}

theorem localStorePrefix {audioFeatures : Option (List φ)} (cache : KVCache κ) :
    LocalTo (prefixIdsOf thinker ids mask audioFeatures) (storePrefix thinker ids mask audioFeatures cache) := by
  unfold storePrefix
  dsimp only
  split
  · exact localBind (localAttempt _) fun template => localStore template
  · exact localPure ()

theorem localPrefill : LocalTo (prefixIdsOf thinker ids mask opts.audioFeatures) (prefillBatch thinker ids mask opts) := by
  unfold prefillBatch
  refine localBind (localAttempt _) fun cache => localBind (localAttempt _) fun lens => localRead ?_ fun templates => ?_
  · intro s t same
    have found : cachedPrefix thinker ids mask opts.audioFeatures s = cachedPrefix thinker ids mask opts.audioFeatures t := by
      unfold cachedPrefix
      rw [same]
    rw [found]
  · cases cachedPrefix thinker ids mask opts.audioFeatures templates with
    | some template => exact localAttempt _
    | none =>
      exact localBind (localAttempt _) fun filled =>
        localBind (localStorePrefix _) fun _ => localBind (localAttempt _) fun next => localPure _

theorem unsharedLeaves {audioFeatures : Option (List φ)} {cache : KVCache κ} {promptLens : List Int}
    (unshared : ¬ 0 < prefixLenOf thinker ids mask audioFeatures) :
    Within (· = ·) (wholePrefill thinker ids mask audioFeatures cache promptLens) := by
  have nothing (filled : KVCache κ) :
      storePrefix thinker ids mask audioFeatures filled = (pure () : EStateM String (Templates κ) Unit) := by
    unfold storePrefix
    exact if_neg unshared
  unfold wholePrefill
  refine withinBind (withinAttempt _) fun filled => ?_
  dsimp only
  rw [nothing]
  exact withinBind (withinPure ()) fun _ => withinBind (withinAttempt _) fun next => withinPure _

/- A template stays once it is there: a batch that finds one resumes from it. -/
theorem prefillKeeps {templates : Templates κ} {template : KVCache κ}
    (there : templates (prefixIdsOf thinker ids mask opts.audioFeatures) = some template) :
    after (prefillBatch thinker ids mask opts templates) = templates := by
  unfold prefillBatch
  rw [afterAttempt]
  split
  · next cache _ =>
    rw [afterAttempt]
    split
    · rw [bindThen (getRun templates)]
      cases found : cachedPrefix thinker ids mask opts.audioFeatures templates with
      | some prefixCache => exact (withinAttempt (R := (· = ·)) _ templates).symm
      | none =>
        have unshared : ¬ 0 < prefixLenOf thinker ids mask opts.audioFeatures := by
          intro shared
          rw [cachedPrefix,if_pos shared,there] at found
          cases found
        exact (unsharedLeaves unshared templates).symm
    · rfl
  · rfl

end Local

section Calls
variable (models : ι → CausalThinker φ η κ)

theorem prefixKeyChecked {call : ModelCall ι φ} {checked : Grid Nat × Grid Nat}
    (ok : batchChecks call.inputIds call.attentionMask call.opts.eosTokenIds = .ok checked) :
    prefixKey models call = prefixIdsOf (models call.model) checked.1 checked.2 call.opts.audioFeatures := by
  unfold prefixKey
  rw [ok]

theorem localGenerate (call : ModelCall ι φ) : LocalTo (prefixKey models call) (generate models call) := by
  unfold generate greedyGenerateCachedBatch
  split
  · exact localPure []
  · refine localAttemptBind fun checked ok => ?_
    rw [prefixKeyChecked models ok]
    dsimp only
    split
    · exact localPure _
    · exact localBind localPrefill fun prefilled => localAttempt _

theorem generateKeeps (call : ModelCall ι φ) {templates : Templates κ} {template : KVCache κ}
    (there : templates (prefixKey models call) = some template) :
    after (generate models call templates) (prefixKey models call) = some template := by
  unfold generate greedyGenerateCachedBatch
  split
  · exact there
  · rw [afterAttempt]
    cases ok : batchChecks call.inputIds call.attentionMask call.opts.eosTokenIds with
    | error e => exact there
    | ok checked =>
      rw [prefixKeyChecked models ok] at there ⊢
      dsimp only
      split
      · exact there
      · have kept := @prefillKeeps _ _ _ _ _ _ call.opts _ _ there
        rw [afterBind]
        split
        · next prefilled templates' ran =>
          rw [ran] at kept
          rw [← withinAttempt (R := (· = ·)) (decodePrefilled (models call.model) checked.2 call.opts prefilled) templates']
          exact (congrFun kept _).trans there
        · next ran =>
          rw [ran] at kept
          exact (congrFun kept _).trans there

def onOneThread : Calls String (List (List Nat)) (List Nat) (KVCache κ) (ModelCall ι φ) ι where
  owner call := call.model
  key := prefixKey models
  run := generate models
  local_ := localGenerate models
  kept call _ _ there := generateKeeps models call there

def resultAfter (earlier : List (ModelCall ι φ)) (call : ModelCall ι φ) : Except String (List (List Nat)) :=
  outcome (generate models call (tableAfter (onOneThread models) earlier))

/- The model whose call kept the template that a call finds. -/
def templateFrom (earlier : List (ModelCall ι φ)) (call : ModelCall ι φ) : Option ι :=
  keeper (onOneThread models) earlier (prefixKey models call)

/-- Where no call of a run finds a template of another model, each returns what it returns without the
calls of the other models. -/
theorem modelsIsolated [DecidableEq ι] (run : List (ModelCall ι φ))
    (own : ∀ i call, run[i]? = some call → ∀ model, templateFrom models (run.take i) call = some model →
      model = call.model)
    {i : Nat} {call : ModelCall ι φ} (there : run[i]? = some call) :
    resultAfter models (run.take i) call =
      resultAfter models ((run.take i).filter fun c => c.model = call.model) call :=
  isolated own there

end Calls

def twoVersions : Bool → CausalThinker Nat Nat Nat
  | false => PrefixReuse.addingThinker
  | true => {PrefixReuse.addingThinker with
    layers := [⟨fun h p => h+3*p.toNat,fun h _ keys => h+2*keys.sum⟩,⟨fun h p => h+p.toNat,fun h _ keys => h+keys.sum⟩]
    deep := List.cons_ne_nil _ _}

def prefixCall (model : Bool) (first : Nat) : ModelCall Bool Nat where
  model
  inputIds := [[first,2,3,4,5,6,7,8,9,3],[first,2,3,4,5,6,7,8,9,4]]
  attentionMask := [List.replicate 10 1,List.replicate 10 1]
  opts := ⟨some [5,6],2,[0]⟩

/- Each version has a prefix of its own, and the first one comes back to its. -/
theorem modelsIsolatedThreeCalls :
    templateFrom twoVersions [prefixCall false 1,prefixCall true 2] (prefixCall false 1) = some false ∧
    resultAfter twoVersions [prefixCall false 1,prefixCall true 2] (prefixCall false 1) =
      resultAfter twoVersions [prefixCall false 1] (prefixCall false 1) := by
  have first : templateFrom twoVersions [] (prefixCall false 1) = none := by decide +kernel
  have second : templateFrom twoVersions [prefixCall false 1] (prefixCall true 2) = none := by decide +kernel
  have third : templateFrom twoVersions [prefixCall false 1,prefixCall true 2] (prefixCall false 1) = some false := by
    decide +kernel
  refine ⟨third,modelsIsolated twoVersions [prefixCall false 1,prefixCall true 2,prefixCall false 1]
    (fun i call there model found => ?_) (i := 2) rfl⟩
  match i with
  | 0 =>
    cases there
    cases first.symm.trans found
  | 1 =>
    cases there
    cases second.symm.trans found
  | 2 =>
    cases there
    cases third.symm.trans found
    rfl
  | n+3 => cases there

def resultOf (earlier : List (ModelCall Bool Nat)) (call : ModelCall Bool Nat) : Option (List (List Nat)) :=
  (resultAfter twoVersions earlier call).toOption

/-- The second model resumes from the first model's cache of the same prefix, and generates other tokens. -/
theorem prefixLeaks : resultOf [prefixCall false 1] (prefixCall true 1) ≠ resultOf [] (prefixCall true 1) ∧
    (resultOf [] (prefixCall true 1)).isSome = true := by
  decide +kernel

end Qwen3Asr.ModelIsolation
