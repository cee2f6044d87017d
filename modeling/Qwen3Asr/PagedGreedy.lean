import Qwen3Asr.EarlierCalls
import Qwen3Asr.PagedMemory
import Qwen3Asr.SchedulerWrites

/-! Continuous batching over the paged cache decodes every prompt as a causal pass over it alone would. -/
namespace Qwen3Asr.PagedGreedy
open Library.Holding Library.Effect Library.Word Library.Loop Library.CausalStack
open BlockManager PagedMetadata BatchEngine DecodeOutcome PrefillOutcome CallHistory RowOracle BlockOwnership
open Scheduler SchedulerTurn SchedulerRules SchedulerConservation SchedulerPositions GreedyRefinement WatchedRuns
open CacheWriters CallSlots CallFeeds SchedulerWrites PagedLayers PagedMemory EarlierCalls

variable {φ : Type}

section Feeds
variable {thinker : Thinker φ} {eosTokenIds : List Nat} {maxNewTokens step : Nat} {slots slots' : List PagedDecodeSlot}
  {r t : PagedCacheRuntime φ}

theorem decodedFed (decoded : Decoded thinker slots step maxNewTokens eosTokenIds r slots' t)
    (here : ∀ slot ∈ slots, atStep step slot = true) (stored : ∀ slot ∈ slots, Stored r slot)
    (fed : WellFed r.history) (answered : AllAnswered thinker r.history) :
    WellFed t.history ∧ AllAnswered thinker t.history := by
  cases decoded with
  | idle _ => exact ⟨fed,answered⟩
  | limit _ => exact ⟨fed,answered⟩
  | refused _ _ _ _ _ _ => exact ⟨fed,answered⟩
  | ended _ _ _ _ _ _ => exact ⟨fed,answered⟩
  | forwarded granted m blockTables call logits below asked nonempty read forward =>
    refine ⟨⟨?_,fed⟩,⟨logits,forward.answered⟩,answered⟩
    unfold CallFed
    rw [decodeQueryLens forward.metadata]
    refine decodeFed forward nonempty fun row inside => ?_
    obtain ⟨p,there,_,_,rfl⟩ := activeRow (fun p inside => here _ (List.of_mem_zip inside).1) inside
    have member := (List.of_mem_zip there).1
    have before := stored _ member
    have level := before.step.symm.trans (atStepLive (here _ member)).2
    exact ⟨before.lengths,level ▸ before.fed⟩

theorem prefilledFed {inputIds attentionMask : List (List Nat)} {audioFeatures : Option (List φ)} {config : PagedBatchConfig}
    {state : PagedBatchState} (packed : thinker.usePackedCudaPrefill = true)
    (p : PrefillOk thinker inputIds attentionMask audioFeatures config r state t)
    (fed : WellFed r.history) (answered : AllAnswered thinker r.history) :
    WellFed t.history ∧ AllAnswered thinker t.history := by
  have calls : t.history = p.prefilled.call::r.history := congrArg PagedCacheRuntime.history p.runtime
  rw [calls]
  refine ⟨⟨?_,fed⟩,⟨p.logits,p.answered⟩,answered⟩
  unfold CallFed
  rw [(prefilledRow p).2.2.1]
  exact prefillFed packed p

end Feeds

section Runs
variable {run : ContinuousRun φ} {numBlocks blockSize : Nat} {s t : LoopState φ}

structure Watched (run : ContinuousRun φ) (numBlocks blockSize : Nat) (s : LoopState φ) : Prop where
  clean : Clean numBlocks s
  size : s.runtime.cache.blockSize = blockSize
  fed : WellFed s.runtime.history
  answered : AllAnswered run.thinker s.runtime.history

theorem watchedGroup {group : Nat × List Nat} (watched : Watched run numBlocks blockSize s) (ready : GroupReady group s)
    (none_ : NoneSkipped run group s) (ok : decodeGroup run group s = .ok () t) : Watched run numBlocks blockSize t := by
  obtain ⟨g⟩ := groupOk ok
  have runtime : t.runtime = g.runtime := congrArg LoopState.runtime g.same
  have runs := fun slot (inside : slot ∈ g.slots) => groupRuns ready g inside
  have here : ∀ slot ∈ g.slots, atStep group.1 slot = true := fun slot inside => (runs slot inside).choose_spec.choose_spec.2.2
  have stored : ∀ slot ∈ g.slots, Stored s.runtime slot := by
    intro slot inside
    obtain ⟨i,entry,found,rfl,live⟩ := runs slot inside
    exact watched.clean.stored i entry found (atStepLive live).1
  obtain ⟨fed,answered⟩ := decodedFed g.decoded here stored watched.fed watched.answered
  obtain ⟨cache,_⟩ := decodedCall g.decoded here (groupIds g watched.clean.apart ready.1)
  rw [← runtime] at fed answered cache
  exact ⟨cleanGroup watched.clean ready none_ ok,cache ▸ watched.size,fed,answered⟩

theorem watchedWave {wave : List (Nat × Nat)} (packed : run.thinker.usePackedCudaPrefill = true)
    (watched : Watched run numBlocks blockSize s) (once : (wave.map Prod.snd).Nodup)
    (free : ∀ slotIdx ∈ wave.map Prod.snd, s.running[slotIdx]? = some none) (ok : prefillWave run wave s = .ok () t) :
    Watched run numBlocks blockSize t := by
  obtain ⟨w⟩ := waveOk ok
  obtain ⟨p⟩ := prefillOk w.prefill
  have runtime := waveRuntime w
  obtain ⟨fed,answered⟩ := prefilledFed packed p watched.fed watched.answered
  have cache := prefillCache p
  rw [← runtime] at fed answered cache
  exact ⟨cleanWave watched.clean once free ok,cache ▸ watched.size,fed,answered⟩

theorem watchedKept (packed : run.thinker.usePackedCudaPrefill = true) (numBlocks blockSize : Nat) :
    Kept run (NoneSkipped run) (Watched run numBlocks blockSize) where
  free _ watched := ⟨cleanFree watched.clean,watched.size,watched.fed,watched.answered⟩
  group _ _ _ ready none_ watched ok := watchedGroup watched ready none_ ok
  limit _ watched := ⟨cleanLimit watched.clean,watched.size,watched.fed,watched.answered⟩
  wave _ rest s _ watched _ once free ok := by
    have clean := watched.clean
    have waits : Clean numBlocks {s with waiting := rest} :=
      ⟨⟨clean.apart.once,clean.apart.fresh⟩,clean.covered,clean.size,clean.stored,clean.issued,clean.sound⟩
    exact watchedWave packed ⟨waits,watched.size,watched.fed,watched.answered⟩ once free ok

structure Resumable (thinker : Thinker φ) (numBlocks blockSize nextRequestId : Nat) (r : PagedCacheRuntime φ) : Prop where
  pooled : Pooled numBlocks r.manager
  size : r.cache.blockSize = blockSize
  positive : 0 < blockSize
  issued : ∀ call ∈ r.history, ∀ k ∈ call.requestIds, k < nextRequestId
  sound : Sound r.cache.blockSize r.history
  fed : WellFed r.history
  answered : AllAnswered thinker r.history

theorem watchedInitial {nextRequestId : Nat} {r : PagedCacheRuntime φ}
    (resumable : Resumable run.thinker numBlocks blockSize nextRequestId r) :
    Watched run numBlocks blockSize (initial run nextRequestId r) where
  clean := cleanInitial run resumable.pooled (resumable.size ▸ resumable.positive) resumable.issued resumable.sound
  size := resumable.size
  fed := resumable.fed
  answered := resumable.answered

theorem resumableLeft (watched : Watched run numBlocks blockSize s) :
    Resumable run.thinker numBlocks blockSize s.nextRequestId (freeAllRunning s).runtime where
  pooled := releaseCovered watched.clean.covered
  size := watched.size
  positive := watched.size ▸ watched.clean.size
  issued := watched.clean.issued
  sound := watched.clean.sound
  fed := watched.fed
  answered := watched.answered

end Runs

section Returns
variable {run : ContinuousRun φ} {numBlocks blockSize nextRequestId : Nat} {r : PagedCacheRuntime φ}

theorem answeredTail {thinker : Thinker φ} {history : List (ForwardCall φ)} (answered : AllAnswered thinker history) :
    AllAnswered thinker history.tail := by
  cases history with
  | nil => trivial
  | cons _ _ => exact answered.2

theorem keptSkipless {Inv : LoopState φ → Prop} (kept : Kept run (NoneSkipped run) Inv) : Kept run (NoneRefused run) Inv where
  free := kept.free
  group group s t ready none_ := kept.group group s t ready (noneSkips none_)
  limit := kept.limit
  wave := kept.wave

theorem resumableReturns (kept : Kept run (NoneRefused run) (Watched run numBlocks blockSize))
    (none_ : ∀ s, Reaches (body run) (initial run nextRequestId r) s → EveryTurnGroup run (NoneRefused run) s)
    (resumable : Resumable run.thinker numBlocks blockSize nextRequestId r) {fuel : Nat} {outputs : List (List Nat)}
    {left : Nat × PagedCacheRuntime φ} (returns : runContinuousPrepared run nextRequestId r fuel = some (.ok outputs,left)) :
    Resumable run.thinker numBlocks blockSize left.1 left.2 := by
  unfold runContinuousPrepared enter at returns
  dsimp only at returns
  split at returns
  · rename_i early
    split at early
    · cases early
      cases returns
      exact resumable
    split at early
    · cases early
      cases returns
      exact resumable
    split at early
    · cases early
      cases returns
    · cases early
  · rename_i s entered
    split at entered <;> try contradiction
    split at entered <;> try contradiction
    split at entered <;> try contradiction
    cases entered
    obtain ⟨⟨result,t⟩,exits,same⟩ := Option.map_eq_some_iff.mp returns
    cases same
    obtain ⟨u,reached,last⟩ := runExit exits
    obtain ⟨v,ended,rfl,rfl⟩ := bodyExitOk last
    have before := keptReached kept (reachesVia none_ reached) (watchedInitial resumable)
    exact resumableLeft (keptTurn kept (none_ u reached) before ended)

end Returns

section Watched
variable {η μ κ ρ ω : Type} (thinker : PagedThinker φ η μ κ ρ ω) (blockSize : Nat)

/- The calls made so far are sound and well fed, and those behind the last one were answered. -/
def Guard (history : List (ForwardCall φ)) : Prop :=
  Sound blockSize history ∧ WellFed history ∧ AllAnswered (overPagedCache thinker) history.tail

open Classical in
/- The model, answering allowed calls only. -/
noncomputable def watch (older : List (ForwardCall φ)) (call : ForwardCall φ) : Except String (Nat → Nat → Nat) :=
  if Guard thinker blockSize (call::older) then (overPagedCache thinker).forward older call else .error "unwatched call"

variable {thinker blockSize}

theorem watchOk {older : List (ForwardCall φ)} {call : ForwardCall φ} {logits : Nat → Nat → Nat} :
    watch thinker blockSize older call = .ok logits ↔
      Guard thinker blockSize (call::older) ∧ (overPagedCache thinker).forward older call = .ok logits := by
  unfold watch
  split
  · rename_i allowed
    exact ⟨fun ok => ⟨allowed,ok⟩,And.right⟩
  · rename_i refused
    exact ⟨fun ok => (by cases ok),fun both => absurd both.1 refused⟩

/- Watched, the model over the paged cache picks every row's token from that row alone. -/
theorem watchRowWise {reads : μ → Nat → κ} (lawful : Lawful thinker.kernels blockSize reads)
    (packed : thinker.usePackedCudaPrefill = true) (flash : thinker.flash = true)
    (allocated : thinker.allocated.length = thinker.layers.length) :
    RowWise {overPagedCache thinker with forward := watch thinker blockSize} (choose thinker) := by
  intro older call logits ok requestId listed
  obtain ⟨⟨sound,fed,answered⟩,ok⟩ := watchOk.mp ok
  have hold := cachesHeld lawful packed flash allocated sound.2 fed.2 answered
  unfold overPagedCache at ok
  dsimp only at ok
  split at ok <;> try contradiction
  rename_i logits' caches' ran
  cases ok
  have each := (callAnswers lawful packed flash sound.1 fed hold ran).2 requestId listed
  change logits (answerOf thinker.usePackedCudaPrefill call requestId).1 (answerOf thinker.usePackedCudaPrefill call requestId).2 =
    choose thinker (promptOf thinker.usePackedCudaPrefill requestId (call::older)) _
  rw [packed]
  exact each

end Watched

section Batches
variable {η μ κ ρ ω : Type} {thinker : PagedThinker φ η μ κ ρ ω} {reads : μ → Nat → κ} {run : ContinuousRun φ}
  {prompts : List (List Nat)} {numBlocks blockSize nextRequestId : Nat} {r : PagedCacheRuntime φ}

/- What the model over the paged cache is built with: the kernels at this block size, the packed prefill,
flash attention, and a cache for every layer. -/
structure Fitted (thinker : PagedThinker φ η μ κ ρ ω) (blockSize : Nat) (reads : μ → Nat → κ) : Prop where
  lawful : Lawful thinker.kernels blockSize reads
  packed : thinker.usePackedCudaPrefill = true
  flash : thinker.flash = true
  allocated : thinker.allocated.length = thinker.layers.length

theorem clearGoals (fitted : Fitted thinker blockSize reads) (model : run.thinker = overPagedCache thinker)
    (prepared : Prepared run prompts) (resumable : Resumable run.thinker numBlocks blockSize nextRequestId r)
    (none_ : ∀ s, Reaches (body run) (initial run nextRequestId r) s → EveryTurnGroup run (NoneRefused run) s)
    {fuel : Nat} {outputs : List (List Nat)} {left : Nat × PagedCacheRuntime φ}
    (returns : runContinuousPrepared run nextRequestId r fuel = some (.ok outputs,left)) :
    outputs = goals run (choose thinker) prompts ∧ Resumable run.thinker numBlocks blockSize left.1 left.2 := by
  have kept : Kept run (NoneRefused run) (Watched run numBlocks blockSize) :=
    keptSkipless (watchedKept (by rw [model]; exact fitted.packed) numBlocks blockSize)
  refine ⟨?_,resumableReturns kept none_ resumable returns⟩
  have answers : Answers run.thinker (Guard thinker blockSize) (watch thinker blockSize) := by
    rw [model]
    exact fun _ _ _ ok allowed => watchOk.mpr ⟨allowed,ok⟩
  have back : Answers {run.thinker with forward := watch thinker blockSize} (fun _ => True) run.thinker.forward := by
    rw [model]
    exact fun _ _ _ ok _ => (watchOk.mp ok).2
  have rowWise : RowWise (moved run (watch thinker blockSize)).thinker (choose thinker) := by
    rw [moved,model]
    exact watchRowWise fitted.lawful fitted.packed fitted.flash fitted.allocated
  have good (u : LoopState φ) (watched : Watched run numBlocks blockSize u) : Guard thinker blockSize u.runtime.history :=
    ⟨watched.size ▸ watched.clean.sound,watched.fed,answeredTail (model ▸ watched.answered)⟩
  have same := runFollows answers kept good (watchedInitial resumable) none_ returns
  exact (continuousGreedy rowWise ⟨prepared.rows,prepared.padding⟩
    (fun s reached => everyOver back (none_ s (reachesBack back reached))) same).1

structure Idle (numBlocks blockSize : Nat) (r : PagedCacheRuntime φ) : Prop where
  pooled : Pooled numBlocks r.manager
  size : r.cache.blockSize = blockSize
  positive : 0 < blockSize

theorem idleFresh {cudaGraph : Bool} (made : newRuntime numBlocks blockSize cudaGraph = .ok r) : Idle numBlocks blockSize r := by
  unfold newRuntime at made
  split at made <;> try contradiction
  rename_i size
  split at made <;> try contradiction
  cases made
  have positive : 0 < blockSize := by omega
  exact ⟨⟨positive,List.Perm.refl _,rfl⟩,rfl,positive⟩

def startingFrom (thinker : PagedThinker φ η μ κ ρ ω) (older : List (ForwardCall φ)) : PagedThinker φ η μ κ ρ ω :=
  {thinker with allocated := cachesAfter thinker older}

theorem resumedModel (thinker : PagedThinker φ η μ κ ρ ω) (older : List (ForwardCall φ)) :
    resumed older (overPagedCache thinker) = overPagedCache (startingFrom thinker older) := by
  have caches (newer : List (ForwardCall φ)) : cachesAfter thinker (newer ++ older) = cachesAfter (startingFrom thinker older) newer :=
    List.foldr_append
  unfold resumed overPagedCache
  simp only [caches]
  rfl

theorem fittedFrom (fitted : Fitted thinker blockSize reads) (older : List (ForwardCall φ)) :
    Fitted (startingFrom thinker older) blockSize reads :=
  ⟨fitted.lawful,fitted.packed,fitted.flash,(cachesLength older).trans fitted.allocated⟩

/- A batch decodes what the causal passes over its prompts decode, from whatever request id it starts. -/
theorem batchGoals (fitted : Fitted thinker blockSize reads) (model : run.thinker = overPagedCache thinker)
    (prepared : Prepared run prompts) (idle : Idle numBlocks blockSize r)
    (granted : ∀ s, Reaches (body run) (initial run nextRequestId r) s → EveryTurnGroup run (NoneRefused run) s)
    {fuel : Nat} {outputs : List (List Nat)} {left : Nat × PagedCacheRuntime φ}
    (returns : runContinuousPrepared run nextRequestId r fuel = some (.ok outputs,left)) :
    outputs = goals run (choose thinker) prompts ∧ Idle numBlocks blockSize left.2 := by
  -- the calls made before are put into the model, so that the record starts anew
  let clear : PagedCacheRuntime φ := {r with history := []}
  have whole : r = behind r.history clear := rfl
  rw [whole,runBehind] at returns
  obtain ⟨⟨result,next,last⟩,returned,same⟩ := Option.map_eq_some_iff.mp returns
  cases same
  have started : Resumable (runResumed r.history run).thinker numBlocks blockSize nextRequestId clear :=
    ⟨idle.pooled,idle.size,idle.positive,fun _ inside => (by cases inside),trivial,trivial,trivial⟩
  have anew : (runResumed r.history run).thinker = overPagedCache (startingFrom thinker r.history) := by
    rw [← resumedModel,← model]
    rfl
  obtain ⟨decoded,resumable⟩ := clearGoals (fittedFrom fitted r.history) anew ⟨prepared.rows,prepared.padding⟩ started
    (grantedBehind r.history run granted) returned
  exact ⟨decoded,resumable.pooled,resumable.size,resumable.positive⟩

structure Batch (φ : Type) where
  run : ContinuousRun φ
  prompts : List (List Nat)
  outputs : List (List Nat)

/- Batches one after the other on one runtime, no step of which is refused a block. Every batch has its own
scheduler, which counts its requests from where it likes. -/
inductive Batches (thinker : PagedThinker φ η μ κ ρ ω) : PagedCacheRuntime φ → List (Batch φ) → Prop
  | nil (r : PagedCacheRuntime φ) : Batches thinker r []
  | cons {nextRequestId : Nat} {r : PagedCacheRuntime φ} {batch : Batch φ} {batches : List (Batch φ)}
      {left : Nat × PagedCacheRuntime φ} {fuel : Nat} (model : batch.run.thinker = overPagedCache thinker)
      (prepared : Prepared batch.run batch.prompts)
      (granted : ∀ s, Reaches (body batch.run) (initial batch.run nextRequestId r) s →
        EveryTurnGroup batch.run (NoneRefused batch.run) s)
      (returns : runContinuousPrepared batch.run nextRequestId r fuel = some (.ok batch.outputs,left))
      (rest : Batches thinker left.2 batches) : Batches thinker r (batch::batches)

structure BatchServed (thinker : PagedThinker φ η μ κ ρ ω) (batch : Batch φ) : Prop where
  model : batch.run.thinker = overPagedCache thinker
  prepared : Prepared batch.run batch.prompts
  features : batch.run.prepared ≠ [] → batch.run.maxNewTokens ≠ 0 → (rowAudioLens batch.run).sum = batch.run.audioFeatures.length
  outputs : batch.outputs = goals batch.run (choose thinker) batch.prompts

theorem featuresCounted {fuel : Nat} {outputs : List (List Nat)} {left : Nat × PagedCacheRuntime φ}
    (returns : runContinuousPrepared run nextRequestId r fuel = some (.ok outputs,left)) (some_ : run.prepared ≠ [])
    (limit : run.maxNewTokens ≠ 0) : (rowAudioLens run).sum = run.audioFeatures.length := by
  by_contra differ
  have refused : enter run nextRequestId r = .returned (.error s!"continuous batch audio token mismatch: prepared placeholders={(rowAudioLens run).sum} audio_features={run.audioFeatures.length}",
      nextRequestId,r) := by
    unfold enter
    dsimp only
    rw [if_neg (mt List.eq_nil_of_length_eq_zero some_),if_neg limit,if_pos differ]
  unfold runContinuousPrepared at returns
  rw [refused] at returns
  cases returns

theorem batchesServed (fitted : Fitted thinker blockSize reads) {batches : List (Batch φ)} (idle : Idle numBlocks blockSize r)
    (served : Batches thinker r batches) : ∀ batch ∈ batches, BatchServed thinker batch := by
  induction served with
  | nil => simp
  | cons model prepared granted returns _ ih =>
    obtain ⟨outputs,left⟩ := batchGoals fitted model prepared idle granted returns
    exact List.forall_mem_cons.mpr ⟨⟨model,prepared,featuresCounted returns,outputs⟩,ih left⟩

end Batches

section Adding

def addingLayer : TextLayer Nat Nat Nat Nat := ⟨fun h _ => h,fun h p => h+p.toNat,fun h a => h+a⟩

def adding : PagedThinker Nat Nat (Nat → Nat) Nat Nat Nat where
  audioTokenId := 9
  usePackedCudaPrefill := true
  flash := true
  embed c := c.id+c.audio.getD 0
  layers := [addingLayer,addingLayer]
  deep := by simp
  pick h := h%7
  kernels := reference 8 (fun q keys => q+keys.sum) 0
  prefillFallback _ _ _ _ _ _ := .error "no fallback"
  allocated := [fun _ => 0,fun _ => 0]

theorem addingFitted : Fitted adding 8 fun cache slot => cache slot := ⟨referenceLawful 8 (fun q keys => q+keys.sum) 0,rfl,rfl,rfl⟩

def addingRun (prepared : List PreparedInputs) (audioFeatures : List Nat) : ContinuousRun Nat :=
  ⟨2,overPagedCache adding,prepared,audioFeatures,3,[2],0⟩

def fourFree : PagedCacheRuntime Nat := ⟨⟨8,5,40,false⟩,new 5 8,[]⟩

def leftBy (run : ContinuousRun Nat) (nextRequestId : Nat) (r : PagedCacheRuntime Nat) : PagedCacheRuntime Nat :=
  ((runContinuousPrepared run nextRequestId r 12).map (·.2.2)).getD r

def firstBatch : Batch Nat := ⟨addingRun [⟨[7,0],[1,0]⟩,⟨[9,8,9],[1,1,1]⟩] [4,5],[[7],[9,8,9]],[[0,4,0],[5]]⟩

/- The last of these prompts takes the block of the second one of the first batch. -/
def secondBatch : Batch Nat := ⟨addingRun [⟨[6],[1]⟩,⟨[5],[1]⟩,⟨[7],[1]⟩] [],[[6],[5],[7]],[[5,1,3],[3,5,6],[0,4,0]]⟩

theorem batchRuns {batch : Batch Nat} {batches : List (Batch Nat)} {nextRequestId : Nat} {r : PagedCacheRuntime Nat}
    (model : batch.run.thinker = overPagedCache adding) (prepared : Prepared batch.run batch.prompts)
    (halts : (steps (body batch.run) 12 (initial batch.run nextRequestId r)).isNone = true)
    (granted : ∀ m < 12, (steps (body batch.run) m (initial batch.run nextRequestId r)).all (fun s => decide
      (EveryTurnGroup batch.run (NoneRefused batch.run) s)) = true)
    (done : (runContinuousPrepared batch.run nextRequestId r 12).any (fun result =>
      decide (result.1.toOption = some batch.outputs)) = true)
    (rest : Batches adding (leftBy batch.run nextRequestId r) batches) : Batches adding r (batch::batches) := by
  obtain ⟨⟨result,left⟩,returns,listed⟩ := (Option.any_eq_true _ _).mp done
  have listed := of_decide_eq_true listed
  cases result with
  | error e => cases listed
  | ok outputs =>
    cases listed
    have same : leftBy batch.run nextRequestId r = left.2 := by rw [leftBy,returns]; rfl
    rw [same] at rest
    exact .cons model prepared (fun s reached => reachedWithin (Option.isNone_iff_eq_none.mp halts)
      (fun m t less taken => by
        have all := granted m less
        rw [taken] at all
        exact of_decide_eq_true all) reached) returns rest

theorem fourFreeMade : newRuntime 5 8 false = .ok fourFree := rfl

theorem addingServed : Batches adding fourFree [firstBatch,secondBatch] := by
  have first : Prepared firstBatch.run firstBatch.prompts :=
    ⟨.cons ⟨[0],by decide,rfl,rfl⟩ (.cons ⟨[],by decide,rfl,rfl⟩ .nil),by decide⟩
  have second : Prepared secondBatch.run secondBatch.prompts :=
    ⟨.cons ⟨[],by decide,rfl,rfl⟩ (.cons ⟨[],by decide,rfl,rfl⟩ (.cons ⟨[],by decide,rfl,rfl⟩ .nil)),by decide⟩
  have rest : Batches adding (leftBy firstBatch.run 0 fourFree) [secondBatch] :=
    @batchRuns _ _ 0 _ rfl second (by decide +kernel) (by decide +kernel) (by decide +kernel) (.nil _)
  exact @batchRuns _ _ 0 _ rfl first (by decide +kernel) (by decide +kernel) (by decide +kernel) rest

end Adding

section Main
variable {η μ κ ρ ω : Type} {thinker : PagedThinker φ η μ κ ρ ω} {reads : μ → Nat → κ} {numBlocks blockSize : Nat}
  {r : PagedCacheRuntime φ}

/-- However many batches run on one paged cache, whose blocks go from request to request, each decodes
for every client what a causal pass over its prompt alone decodes greedily. -/
theorem batchesGreedy (fitted : Fitted thinker blockSize reads) {cudaGraph : Bool}
    (fresh : newRuntime numBlocks blockSize cudaGraph = .ok r) {batches : List (Batch φ)}
    (served : Batches thinker r batches) :
    ∀ batch ∈ batches, batch.outputs = (clientPrompts batch.run batch.prompts).map
      (greedyDecode (choose thinker) batch.run.eosTokenIds batch.run.maxNewTokens) :=
  fun batch inside => (batchesServed fitted (idleFresh fresh) served batch inside).outputs

theorem batchesGreedyAdding : Batches adding fourFree [firstBatch,secondBatch] ∧
    ∀ batch ∈ [firstBatch,secondBatch], batch.outputs = (clientPrompts batch.run batch.prompts).map
      (greedyDecode (choose adding) batch.run.eosTokenIds batch.run.maxNewTokens) :=
  ⟨addingServed,batchesGreedy addingFitted fourFreeMade addingServed⟩

end Main

end Qwen3Asr.PagedGreedy
