import Mathlib.Algebra.Field.Rat
import Mathlib.Algebra.Order.Ring.Unbundled.Rat
import Qwen3Asr.Library.Pieces
import Qwen3Asr.Library.Simulation
import Qwen3Asr.Streaming
import Qwen3Asr.StreamingFeatures

/-! However audio is cut into pushes, the same chunks are decoded. A stream that meets an error holds
every sample it was handed: those before the offset were given to the extractor. -/
namespace Qwen3Asr.PushSplit
open Library.Effect Library.Pieces Library.Simulation
open AudioNormalize FeatureExtractor StreamingFeatures Streaming

variable {K η : Type}

section Listing
variable {setup : StreamSetup K η}

abbrev listed (st : DecodeState K η) : StreamingFeatureExtractor K K × List (List K × String) := (st.features,st.steps)

abbrev Unlisted : DecodeState K η → DecodeState K η → Prop := Leaves listed

def Listed (prefixStr : String) (st st' : DecodeState K η) : Prop :=
  listed st' = (st.features,st.steps ++ [(st.features.wav,prefixStr)])

theorem commitUnlisted : Within Unlisted (maybeCommitWindowedText setup) := by
  unfold maybeCommitWindowedText
  refine withinGetBind fun state => ?_
  cases state.rollingText with
  | none => exact withinPure _
  | some rolling =>
    dsimp only
    split
    · exact withinPure _
    · exact withinBind (withinAttempt _) fun _ => withinModify fun _ => rfl

theorem listedThen {α : Type} {prefixStr : String} {f : Unit → Decoding K η α} (rest : ∀ a, Within Unlisted (f a)) :
    Within (Listed prefixStr) (modify (fun st => {st with steps := st.steps ++ [(st.features.wav,prefixStr)]}) >>= f) := by
  intro st
  rw [bindThen (modifyRun _ _)]
  exact rest () _

theorem listedBind {α β : Type} {prefixStr : String} {x : Decoding K η α} {f : α → Decoding K η β}
    (first : Within (Listed prefixStr) x) (rest : ∀ a, Within Unlisted (f a)) : Within (Listed prefixStr) (x >>= f) := by
  intro st
  have start := first st
  rw [afterBind]
  cases ran : x st with
  | ok a t =>
    rw [ran] at start
    exact (rest a t).trans start
  | error e t =>
    rw [ran] at start
    exact start

def Fed (audios : List (List K)) (st : DecodeState K η) {α : Type} : EStateM.Result String (DecodeState K η) α → Prop
  | .ok _ st' => st'.steps.map Prod.fst = st.steps.map Prod.fst ++ audios
  | .error _ st' => ∃ begun, begun <+: audios ∧ st'.steps.map Prod.fst = st.steps.map Prod.fst ++ begun

theorem fedBind {α β : Type} {first second : List (List K)} {x : Decoding K η α} {f : α → Decoding K η β} {st : DecodeState K η}
    (fed : Fed first st (x st)) (rest : ∀ a t, x st = .ok a t → Fed second t (f a t)) :
    Fed (first ++ second) st ((x >>= f) st) := by
  cases ran : x st with
  | ok a t =>
    have later := rest a t ran
    rw [ran] at fed
    change t.steps.map Prod.fst = _ at fed
    rw [bindThen ran]
    cases done : f a t with
    | ok b u =>
      rw [done] at later
      exact later.trans (by rw [fed,List.append_assoc])
    | error e u =>
      rw [done] at later
      obtain ⟨begun,some_,same⟩ := later
      exact ⟨first ++ begun,(List.prefix_append_right_inj first).mpr some_,same.trans (by rw [fed,List.append_assoc])⟩
  | error e t =>
    rw [ran] at fed
    rw [bindFailed ran]
    obtain ⟨begun,some_,same⟩ := fed
    exact ⟨begun,some_.trans (List.prefix_append first second),same⟩

theorem fedOnce {prefixStr : String} {x : Decoding K η AsrTranscription} {st st₀ : DecodeState K η}
    (same : listed st₀ = listed st) (rule : Within (Listed prefixStr) x) :
    Fed [st.features.wav] st (x st₀) ∧ (after (x st₀)).features = st.features := by
  have features : st₀.features = st.features := congrArg Prod.fst same
  have steps : st₀.steps = st.steps := congrArg Prod.snd same
  have once := rule st₀
  rw [Listed,features,steps] at once
  have longer : (after (x st₀)).steps = st.steps ++ [(st.features.wav,prefixStr)] := congrArg Prod.snd once
  have audios : (after (x st₀)).steps.map Prod.fst = st.steps.map Prod.fst ++ [st.features.wav] := by
    rw [longer,List.map_append]
    rfl
  refine ⟨?_,congrArg Prod.fst once⟩
  cases ran : x st₀ with
  | ok a t =>
    rw [ran] at audios
    exact audios
  | error e t =>
    rw [ran] at audios
    exact ⟨_,List.prefix_rfl,audios⟩

theorem notFed {α : Type} (audios : List (List K)) (e : String) {st st₀ : DecodeState K η} (same : listed st₀ = listed st) :
    Fed audios st (.error e st₀ : EStateM.Result String (DecodeState K η) α) := by
  have steps : st₀.steps = st.steps := congrArg Prod.snd same
  exact ⟨[],List.nil_prefix,by rw [steps,List.append_nil]⟩

def blockAudios (chunk : Nat) (wav xs : List K) (n : Nat) : List (List K) :=
  (List.range n).map fun (k : Nat) => wav ++ xs.take ((k+1)*chunk)

theorem blockAudiosSucc (chunk : Nat) (wav xs : List K) (n : Nat) : blockAudios chunk wav xs (n+1) =
    [wav ++ xs.take chunk] ++ blockAudios chunk (wav ++ xs.take chunk) (xs.drop chunk) n := by
  unfold blockAudios
  rw [List.range_succ_eq_map,List.map_cons,List.map_map,Nat.zero_add,Nat.one_mul,List.singleton_append]
  refine congrArg _ (List.map_congr_left fun k _ => ?_)
  change wav ++ xs.take ((k+1+1)*chunk) = _
  rw [Nat.succ_mul,Nat.add_comm _ chunk,List.take_add,List.append_assoc]

def Waits (waiting : List K) (st : AsrStream K η) : Prop :=
  st.bufferOffset ≤ st.buffer.length ∧ st.buffer.drop st.bufferOffset = waiting

theorem decodingSimulates {α : Type} (x : Decoding K η α) (st : AsrStream K η) :
    Simulates AsrStream.toDecodeState (fun a st' b => a = b ∧ ∃ d, st' = {st with toDecodeState := d})
      (decoding x st) (x st.toDecodeState) :=
  simulatesZoom (fun _ _ => rfl) x st

theorem compactedWaits {st : AsrStream K η} {waiting : List K} (waits : Waits waiting st) :
    Waits waiting (compacted st) ∧ (compacted st).toDecodeState = st.toDecodeState := by
  unfold compacted
  split
  · exact ⟨⟨Nat.zero_le _,waits.2⟩,rfl⟩
  · exact ⟨waits,rfl⟩

end Listing

variable [Field K] [LinearOrder K] {setup : StreamSetup K η} {codec : AudioCodec K}

section Steps

theorem stepKeepsFeatures : Within (Leaves AudioState.features) (audioFeaturesForStep setup) := by
  unfold audioFeaturesForStep
  refine withinGetBind fun state => withinBind (withinAttempt _) fun (framesTotal,start,stop) => ?_
  dsimp only
  split
  · exact withinBind (withinModify fun _ => rfl) fun _ => withinBind (withinAttempt _) fun _ => withinAttempt _
  · refine withinBind (withinAttempt _) fun segments => ?_
    cases segments with
    | none => exact withinBind (withinAttempt _) fun _ => withinAttempt _
    | some segmentFrames =>
      dsimp only
      cases cacheHit state framesTotal with
      | some audioFeatures => exact withinPure _
      | none => exact withinBind (withinAttempt _) fun _ => withinBind (withinAttempt _) fun _ =>
          withinBind (withinModify fun _ => rfl) fun _ => withinPure _

theorem audioUnlisted : Within Unlisted
    (zoom DecodeState.toAudioState (fun audio st => {st with toAudioState := audio}) (audioFeaturesForStep setup)) :=
  withinZoom (fun st _ same => congrArg (·,st.steps) same) stepKeepsFeatures

theorem generateListed (prefixStr : String) : Within (Listed prefixStr) (generateForStep setup prefixStr) :=
  listedThen fun _ => withinBind audioUnlisted fun _ => withinBind (withinAttempt _) fun _ => withinAttempt _

theorem decodeStepListed (prefixStr : String) : Within (Listed prefixStr) (decodeStep setup prefixStr) :=
  listedBind (generateListed prefixStr) fun _ => withinBind (withinAttempt _) fun _ =>
    withinBind (withinModify fun _ => rfl) fun _ => withinPure _

theorem windowedListed (prefixIds : List Nat) (prefixStr : String) :
    Within (Listed prefixStr) (decodeStepWindowedWithPrefix setup prefixIds prefixStr) := by
  refine listedBind (generateListed prefixStr) fun genIds => withinGetBind fun st => ?_
  cases st.rollingText with
  | none => exact withinThrow _
  | some rolling =>
    refine withinBind (withinModify fun _ => rfl) fun _ => withinBind commitUnlisted fun _ => withinGetBind fun st => ?_
    cases st.rollingText with
    | none => exact withinThrow _
    | some rolling => exact withinBind (withinAttempt _) fun _ => withinBind (withinModify fun _ => rfl) fun _ => withinPure _

theorem decodeFed (plain : DecodeState K η → Except String String)
    (windowed : DecodeState K η → RollingTextState → Except String (List Nat × String)) (st : DecodeState K η) :
    Fed [st.features.wav] st (decodeWith setup plain windowed st) ∧
      (after (decodeWith setup plain windowed st)).features = st.features := by
  unfold decodeWith
  rw [bindThen (getRun st)]
  cases st.rollingText with
  | some _ =>
    have cleared : listed (clearUnfixed setup st) = listed st := by
      unfold clearUnfixed
      split <;> rfl
    dsimp only
    rw [bindThen (modifyRun _ _),bindThen (getRun _)]
    cases (clearUnfixed setup st).rollingText with
    | none => exact ⟨notFed _ _ cleared,congrArg Prod.fst cleared⟩
    | some rolling =>
      dsimp only
      cases windowed (clearUnfixed setup st) rolling with
      | error e => exact ⟨notFed _ _ cleared,congrArg Prod.fst cleared⟩
      | ok made =>
        rw [attemptThen rfl]
        exact fedOnce cleared (windowedListed made.1 made.2)
  | none =>
    dsimp only
    cases plain st with
    | error e => exact ⟨notFed _ _ rfl,rfl⟩
    | ok made =>
      rw [attemptThen rfl]
      exact fedOnce rfl (decodeStepListed made)

end Steps

section Whole

def chunkStep (setup : StreamSetup K η) (slice : List K) : Decoding K η Unit := do
  appendFeatures setup slice
  let _ ← decodeWith setup (buildPrefix setup) (buildPrefixWindowed setup)

def tailStep (setup : StreamSetup K η) (tail : List K) : Decoding K η AsrTranscription := do
  if tail = [] then
    let st ← get
    pure (st.last.getD ⟨"",""⟩)
  else
  appendFeatures setup tail
  let _ ← decodeWith setup (buildFinishPrefix setup) (buildFinishPrefixWindowed setup)
  let st ← get
  pure (st.last.getD ⟨"",""⟩)

/- The decode steps of some audio: after each whole chunk, and after what is left. Each builds its
prefix from the state that the one before left. -/
def transcribeWhole (setup : StreamSetup K η) (audio : List K) : Decoding K η AsrTranscription := do
  blocks setup.chunkSizeSamples (chunkStep setup) (audio.length/setup.chunkSizeSamples) audio
  tailStep setup (leftover setup.chunkSizeSamples audio)

def stepAudios (chunk : Nat) (audio : List K) : List (List K) :=
  ((List.range (audio.length/chunk)).map fun (k : Nat) => audio.take ((k+1)*chunk)) ++
    if leftover chunk audio = [] then [] else [audio]

variable {wav : List K} {st : DecodeState K η}

theorem appendRuns (features : st.features = extracted setup.logMel wav) (fits : wav.length ≤ maxWavLen) (slice : List K) :
    (∃ e st', appendFeatures setup slice st = .error e st' ∧ st'.steps = st.steps) ∨
    ((wav ++ slice).length ≤ maxWavLen ∧
      appendFeatures setup slice st = .ok () {st with features := extracted setup.logMel (wav ++ slice)}) := by
  rcases Nat.lt_or_ge maxWavLen (wav ++ slice).length with long | short
  · cases ran : appendSamples setup.logMel slice st.features with
    | ok _ f => exact absurd (features ▸ ran) (appendTooLong fits long)
    | error e f => exact Or.inl ⟨e,{st with features := f},zoomError.mpr ⟨f,ran,rfl⟩,rfl⟩
  · have ran : appendSamples setup.logMel slice (extracted setup.logMel wav) = _ := appendGoes short
    rw [← features] at ran
    exact Or.inr ⟨short,zoomOk.mpr ⟨_,ran,rfl⟩⟩

theorem fedAfterAppend {α : Type} (features : st.features = extracted setup.logMel wav) (fits : wav.length ≤ maxWavLen)
    (slice : List K) {f : Unit → Decoding K η α}
    (rest : (wav ++ slice).length ≤ maxWavLen → ∀ st', st'.features = extracted setup.logMel (wav ++ slice) →
      Fed [wav ++ slice] st' (f () st')) : Fed [wav ++ slice] st ((appendFeatures setup slice >>= f) st) := by
  rcases appendRuns features fits slice with ⟨e,st',failed,steps⟩ | ⟨short,ran⟩
  · rw [bindFailed failed]
    exact ⟨[],List.nil_prefix,by rw [steps,List.append_nil]⟩
  · rw [bindThen ran]
    exact rest short _ rfl

theorem decodeThenFed {α : Type} {plain : DecodeState K η → Except String String}
    {windowed : DecodeState K η → RollingTextState → Except String (List Nat × String)} {f : AsrTranscription → Decoding K η α}
    (features : st.features = extracted setup.logMel wav)
    (rest : ∀ a t, Fed ([] : List (List K)) t (f a t)) : Fed [wav] st ((decodeWith setup plain windowed >>= f) st) := by
  have fed : Fed [st.features.wav] st (decodeWith setup plain windowed st) := (decodeFed plain windowed st).1
  rw [features] at fed
  exact fedBind fed fun a t _ => rest a t

theorem chunkFed (features : st.features = extracted setup.logMel wav) (fits : wav.length ≤ maxWavLen) (slice : List K) :
    Fed [wav ++ slice] st (chunkStep setup slice st) :=
  fedAfterAppend features fits slice fun _ _ features' => decodeThenFed features' fun _ _ => (List.append_nil _).symm

theorem chunkFeatures (features : st.features = extracted setup.logMel wav) (fits : wav.length ≤ maxWavLen) {slice : List K}
    {st' : DecodeState K η} (ok : chunkStep setup slice st = .ok () st') :
    st'.features = extracted setup.logMel (wav ++ slice) ∧ (wav ++ slice).length ≤ maxWavLen := by
  obtain ⟨_,st₁,appended,ok⟩ := bindOk.mp ok
  obtain ⟨tx,st₂,decoded,ok⟩ := bindOk.mp ok
  cases ok
  rcases appendRuns features fits slice with ⟨e,st',failed,_⟩ | ⟨short,ran⟩
  · cases failed.symm.trans appended
  · cases ran.symm.trans appended
    have kept : (after (decodeWith setup (buildPrefix setup) (buildPrefixWindowed setup) _)).features = _ :=
      (decodeFed _ _ {st with features := extracted setup.logMel (wav ++ slice)}).2
    rw [decoded] at kept
    exact ⟨kept,short⟩

theorem blocksFed (features : st.features = extracted setup.logMel wav) (fits : wav.length ≤ maxWavLen) (n : Nat) (xs : List K) :
    Fed (blockAudios setup.chunkSizeSamples wav xs n) st (blocks setup.chunkSizeSamples (chunkStep setup) n xs st) ∧
    ∀ st', blocks setup.chunkSizeSamples (chunkStep setup) n xs st = .ok () st' →
      st'.features = extracted setup.logMel (wav ++ xs.take (n*setup.chunkSizeSamples)) ∧
      (wav ++ xs.take (n*setup.chunkSizeSamples)).length ≤ maxWavLen := by
  induction n generalizing wav xs st with
  | zero =>
    refine ⟨(List.append_nil _).symm,fun st' ok => ?_⟩
    cases ok
    rw [Nat.zero_mul,List.take_zero,List.append_nil]
    exact ⟨features,fits⟩
  | succ n ih =>
    rw [blockAudiosSucc]
    refine ⟨fedBind (chunkFed features fits _) fun _ t ran => ?_,fun st' ok => ?_⟩
    · obtain ⟨features',fits'⟩ := chunkFeatures features fits ran
      exact (ih features' fits' _).1
    · obtain ⟨_,t,ran,ok⟩ := bindOk.mp ok
      obtain ⟨features',fits'⟩ := chunkFeatures features fits ran
      rw [Nat.succ_mul,Nat.add_comm _ setup.chunkSizeSamples,List.take_add,← List.append_assoc]
      exact (ih features' fits' _).2 st' ok

theorem wholeFed (features : st.features = extracted setup.logMel []) (audio : List K) :
    Fed (stepAudios setup.chunkSizeSamples audio) st (transcribeWhole setup audio st) := by
  have some_ : ([] : List K).length ≤ maxWavLen := Nat.zero_le _
  obtain ⟨fed,runs⟩ := blocksFed features some_ (audio.length/setup.chunkSizeSamples) audio
  refine fedBind fed fun _ t ran => ?_
  obtain ⟨features',fits⟩ := runs t ran
  rw [List.nil_append] at features' fits
  unfold tailStep
  split
  · exact (List.append_nil _).symm
  · have all : audio.take (audio.length/setup.chunkSizeSamples*setup.chunkSizeSamples) ++
        leftover setup.chunkSizeSamples audio = audio := List.take_append_drop _ _
    rw [show [audio] = [_ ++ _] from congrArg (fun xs => [xs]) all.symm]
    exact fedAfterAppend features' fits _ fun _ _ appended => decodeThenFed appended fun _ _ => (List.append_nil _).symm

end Whole

section Pushes

def pushAll (setup : StreamSetup K η) (codec : AudioCodec K) : List (AudioInput K) → Pushing K η Unit
  | [] => pure ()
  | input::inputs => do
    let _ ← pushAudioChunk setup codec input
    pushAll setup codec inputs

def transcribePushes (setup : StreamSetup K η) (codec : AudioCodec K) (inputs : List (AudioInput K)) :
    Pushing K η AsrTranscription := do
  pushAll setup codec inputs
  finish setup

theorem loopSimulates (k : Nat) {fuel : Nat} {out : Option AsrTranscription} {st : AsrStream K η}
    (inside : st.bufferOffset ≤ st.buffer.length) (counted : (st.buffer.length-st.bufferOffset)/setup.chunkSizeSamples = k)
    (enough : k ≤ fuel) :
    Simulates AsrStream.toDecodeState (fun _ st' _ => st'.buffer = st.buffer ∧ st'.bufferOffset = st.bufferOffset+k*setup.chunkSizeSamples)
      (pushLoop setup fuel out st)
      (blocks setup.chunkSizeSamples (chunkStep setup) k (st.buffer.drop st.bufferOffset) st.toDecodeState) := by
  induction k generalizing fuel out st with
  | zero =>
    have short : st.buffer.length-st.bufferOffset < setup.chunkSizeSamples :=
      (Nat.div_eq_zero_iff_lt setup.chunkPositive).mp counted
    have stays : pushLoop setup fuel out st = .ok out st := by
      cases fuel with
      | zero => rfl
      | succ fuel =>
        unfold pushLoop
        rw [bindThen (getRun st),if_pos short]
        rfl
    rw [stays]
    exact ⟨out,st,rfl,rfl,rfl,by rw [Nat.zero_mul]; rfl⟩
  | succ k ih =>
    obtain ⟨fuel,rfl⟩ : ∃ m, fuel = m+1 := ⟨fuel-1,by omega⟩
    have whole : setup.chunkSizeSamples ≤ st.buffer.length-st.bufferOffset :=
      (Nat.div_pos_iff.mp (by omega)).2
    unfold pushLoop
    rw [bindThen (getRun st),if_neg (Nat.not_lt.mpr whole)]
    rw [if_neg (by omega)]
    rw [blocksSucc]
    simp only [chunkStep,bind_assoc,pure_bind,List.drop_drop]
    refine simulatesBind (decodingSimulates _ st) fun _ _ _ ⟨_,d,same⟩ => ?_
    rw [same,bindThen (modifyRun _ _)]
    refine simulatesBind (decodingSimulates _ _) fun tx _ _ ⟨_,d',same'⟩ => ?_
    have fewer : (st.buffer.length-(st.bufferOffset+setup.chunkSizeSamples))/setup.chunkSizeSamples = k := by
      have cut := Nat.sub_mul_div (st.buffer.length-st.bufferOffset) setup.chunkSizeSamples 1
      rw [Nat.mul_one,Nat.sub_sub,counted] at cut
      exact cut
    have turn := @ih fuel (some tx) {st with toDecodeState := d', bufferOffset := st.bufferOffset+setup.chunkSizeSamples} (by
        change st.bufferOffset+setup.chunkSizeSamples ≤ st.buffer.length
        omega) fewer (by omega)
    rw [same']
    refine simulatesMono turn fun _ st' _ ⟨buffer,offset⟩ => ⟨buffer,offset.trans ?_⟩
    dsimp only
    rw [Nat.succ_mul]
    omega

theorem loopWaits {fuel : Nat} {out : Option AsrTranscription} {st : AsrStream K η} {xs : List K} (waits : Waits xs st)
    (enough : xs.length/setup.chunkSizeSamples ≤ fuel) :
    Simulates AsrStream.toDecodeState (fun _ st' _ => Waits (leftover setup.chunkSizeSamples xs) st') (pushLoop setup fuel out st)
      (blocks setup.chunkSizeSamples (chunkStep setup) (xs.length/setup.chunkSizeSamples) xs st.toDecodeState) := by
  obtain ⟨inside,rfl⟩ := waits
  rw [List.length_drop] at enough ⊢
  refine simulatesMono (loopSimulates _ inside rfl enough) fun _ st' _ ⟨buffer,offset⟩ => ?_
  have taken := Nat.div_mul_le_self (st.buffer.length-st.bufferOffset) setup.chunkSizeSamples
  unfold Waits leftover
  rw [buffer,offset,List.length_drop,List.drop_drop]
  exact ⟨by omega,rfl⟩

theorem pushSimulates {st : AsrStream K η} {waiting : List K} (waits : Waits waiting st)
    (short : waiting.length < setup.chunkSizeSamples) (wav : List K) :
    Simulates AsrStream.toDecodeState (fun _ st' rest => Waits rest st' ∧ rest.length < setup.chunkSizeSamples)
      (pushSamples setup wav st) ((do
        let xs := waiting ++ wav
        blocks setup.chunkSizeSamples (chunkStep setup) (xs.length/setup.chunkSizeSamples) xs
        pure (leftover setup.chunkSizeSamples xs)) st.toDecodeState) := by
  unfold pushSamples
  split
  · next none =>
    rw [none,List.append_nil]
    dsimp only
    rw [Nat.div_eq_of_lt short,leftoverShort short]
    exact ⟨_,st,rfl,rfl,waits,short⟩
  · obtain ⟨inside,waits⟩ := waits
    have longer : st.bufferOffset ≤ (st.buffer ++ wav).length := inside.trans (by simp)
    have waits' : Waits (waiting ++ wav) {st with buffer := st.buffer ++ wav} :=
      ⟨longer,by rw [← waits]; exact List.drop_append_of_le_length inside⟩
    have length := congrArg List.length waits'.2
    rw [List.length_drop] at length
    rw [bindThen (modifyRun _ _),bindThen (getRun _),if_neg (Nat.not_lt.mpr longer)]
    refine simulatesBind (loopWaits waits' ((Nat.div_le_self _ _).trans (by rw [← length]; exact Nat.sub_le _ _)))
      fun out st' _ waits => ?_
    obtain ⟨kept,same⟩ := compactedWaits waits
    rw [bindThen (modifyRun _ _)]
    exact ⟨out,_,rfl,same,kept,leftoverLength setup.chunkPositive⟩

theorem pushAllSimulates {inputs : List (AudioInput K)} {parts : List (List K)}
    (normalized : List.Forall₂ (fun input part => normalizeAudioInput codec input = .ok part) inputs parts) {st : AsrStream K η}
    {waiting : List K} (waits : Waits waiting st) (short : waiting.length < setup.chunkSizeSamples) :
    Simulates AsrStream.toDecodeState (fun _ st' rest => Waits rest st') (pushAll setup codec inputs st)
      (feed setup.chunkSizeSamples (chunkStep setup) parts waiting st.toDecodeState) := by
  induction normalized generalizing st waiting with
  | nil => exact ⟨(),st,rfl,rfl,waits⟩
  | @cons input part inputs parts head _ ih =>
    have pushed : pushAudioChunk setup codec input st = pushSamples setup part st := attemptThen head
    have step := pushSimulates waits short part
    rw [← pushed] at step
    have split : feed setup.chunkSizeSamples (chunkStep setup) (part::parts) waiting = (do
        let xs := waiting ++ part
        blocks setup.chunkSizeSamples (chunkStep setup) (xs.length/setup.chunkSizeSamples) xs
        pure (leftover setup.chunkSizeSamples xs)) >>= feed setup.chunkSizeSamples (chunkStep setup) parts := by
      simp only [feed,bind_assoc,pure_bind]
    rw [split]
    exact simulatesBind step fun _ st' rest kept => ih kept.1 kept.2

theorem finishSimulates {st : AsrStream K η} {waiting : List K} (waits : Waits waiting st) :
    Simulates AsrStream.toDecodeState (fun a _ b => a = b) (finish setup st) (tailStep setup waiting st.toDecodeState) := by
  obtain ⟨inside,rfl⟩ := waits
  unfold finish tailStep
  rw [bindThen (getRun st),if_neg (Nat.not_lt.mpr inside)]
  split
  · exact ⟨_,st,rfl,rfl,rfl⟩
  · refine simulatesBind (decodingSimulates _ st) fun _ _ _ ⟨_,d,same⟩ => ?_
    rw [same,bindThen (modifyRun _ _)]
    refine simulatesBind (decodingSimulates _ _) fun _ st' _ _ => ?_
    exact ⟨_,st',rfl,rfl,rfl⟩

end Pushes

section Buffer

/- Every sample pushed was given to the extractor, or waits in the buffer. -/
def Held (setup : StreamSetup K η) (pushed : List K) (st : AsrStream K η) : Prop :=
  st.bufferOffset ≤ st.buffer.length ∧
  ∃ consumed, st.features = extracted setup.logMel consumed ∧ consumed ++ st.buffer.drop st.bufferOffset = pushed

variable {pushed : List K}

theorem decodeHolds (plain : DecodeState K η → Except String String)
    (windowed : DecodeState K η → RollingTextState → Except String (List Nat × String)) :
    Within (Keeps (Held setup pushed)) (decoding (decodeWith setup plain windowed)) :=
  withinZoom (Q := Leaves (·.features)) (fun _ _ same ⟨inside,consumed,features,whole⟩ =>
    ⟨inside,consumed,same.trans features,whole⟩) fun st => (decodeFed plain windowed st).2

theorem loopHolds (fits : pushed.length ≤ maxWavLen) (fuel : Nat) (out : Option AsrTranscription) :
    Within (Keeps (Held setup pushed)) (pushLoop setup fuel out) := by
  induction fuel generalizing out with
  | zero => exact withinPure out
  | succ fuel ih =>
    intro st held
    unfold pushLoop
    rw [bindThen (getRun st)]
    split
    · exact held
    · next whole =>
      obtain ⟨inside,consumed,features,all⟩ := held
      have counted := congrArg List.length all
      simp only [List.length_append,List.length_drop] at counted
      rw [if_neg (by omega)]
      have parted := List.take_append_drop setup.chunkSizeSamples (st.buffer.drop st.bufferOffset)
      generalize (st.buffer.drop st.bufferOffset).take setup.chunkSizeSamples = slice at parted ⊢
      have sliced := congrArg List.length parted
      simp only [List.length_append,List.length_drop] at sliced
      have appended : decoding (appendFeatures setup slice) st =
          .ok () {st with features := extracted setup.logMel (consumed ++ slice)} := by
        refine zoomOk.mpr ⟨_,zoomOk.mpr ⟨_,?_,rfl⟩,rfl⟩
        rw [features]
        exact appendGoes (by simp; omega)
      rw [bindThen appended,bindThen (modifyRun _ _)]
      refine withinBind (R := Keeps (Held setup pushed)) (decodeHolds _ _) (fun tx => ih (some tx)) _ ⟨?_,_,rfl,?_⟩
      · change st.bufferOffset+setup.chunkSizeSamples ≤ st.buffer.length
        omega
      · change _ ++ st.buffer.drop (st.bufferOffset+setup.chunkSizeSamples) = pushed
        rw [← List.drop_drop,List.append_assoc,parted,all]

theorem pushHolds {st : AsrStream K η} {wav : List K} (fits : (pushed ++ wav).length ≤ maxWavLen) (held : Held setup pushed st) :
    Held setup (pushed ++ wav) (after (pushSamples setup wav st)) := by
  obtain ⟨inside,consumed,features,all⟩ := held
  unfold pushSamples
  split
  · next none =>
    rw [none,List.append_nil]
    exact ⟨inside,consumed,features,all⟩
  · have longer : st.bufferOffset ≤ (st.buffer ++ wav).length := inside.trans (by simp)
    rw [bindThen (modifyRun _ _),bindThen (getRun _),if_neg (Nat.not_lt.mpr longer)]
    refine withinBind (R := Keeps (Held setup (pushed ++ wav))) (loopHolds fits _ _) (fun out => withinBind
      (withinModify fun st' held => ?_) fun _ => withinPure out) _ ⟨longer,consumed,features,?_⟩
    · obtain ⟨inside,consumed,features,all⟩ := held
      obtain ⟨waits,same⟩ := @compactedWaits K η st' _ ⟨inside,rfl⟩
      exact ⟨waits.1,consumed,(congrArg (·.features) same).trans features,by rw [waits.2]; exact all⟩
    · change consumed ++ (st.buffer ++ wav).drop st.bufferOffset = _
      rw [List.drop_append_of_le_length inside,← List.append_assoc,all]

/- The samples that a push hands over; one that cannot be read hands over none. -/
def samplesOf (codec : AudioCodec K) (input : AudioInput K) : List K :=
  match normalizeAudioInput codec input with
  | .ok wav => wav
  | .error _ => []

inductive Reached (setup : StreamSetup K η) (codec : AudioCodec K) : AsrStream K η → List K → Prop where
  | start {st : AsrStream K η} (started : startStream setup = .ok st) : Reached setup codec st []
  | push {st : AsrStream K η} {pushed : List K} (earlier : Reached setup codec st pushed) (input : AudioInput K) :
      Reached setup codec (after (pushAudioChunk setup codec input st)) (pushed ++ samplesOf codec input)

theorem startedFresh {st : AsrStream K η} (started : startStream setup = .ok st) :
    st.features = extracted setup.logMel [] ∧ st.steps = [] ∧ st.buffer = [] ∧ st.bufferOffset = 0 := by
  unfold startStream at started
  split at started
  · cases started
  · cases Except.ok.inj started
    exact ⟨extractedNil.symm,rfl,rfl,rfl⟩

theorem reachedHolds {st : AsrStream K η} (reached : Reached setup codec st pushed) (fits : pushed.length ≤ maxWavLen) :
    Held setup pushed st := by
  induction reached with
  | start started =>
    obtain ⟨features,_,buffer,offset⟩ := startedFresh started
    exact ⟨by rw [offset]; exact Nat.zero_le _,[],features,by rw [buffer]; exact List.drop_nil⟩
  | @push st pushed earlier input ih =>
    have held := ih ((List.length_append ▸ Nat.le_add_right _ _).trans fits)
    unfold samplesOf at fits ⊢
    unfold pushAudioChunk
    rw [afterAttempt]
    cases read : normalizeAudioInput codec input with
    | ok wav =>
      rw [read] at fits
      exact pushHolds fits held
    | error e =>
      dsimp only
      rw [List.append_nil]
      exact held

end Buffer

section Splits

theorem pushesWhole {st : AsrStream K η} (started : startStream setup = .ok st) {inputs : List (AudioInput K)} {parts : List (List K)}
    (normalized : inputs.mapM (normalizeAudioInput codec) = .ok parts) :
    outcome (transcribePushes setup codec inputs st) = outcome (transcribeWhole setup parts.flatten st.toDecodeState) ∧
    (after (transcribePushes setup codec inputs st)).toDecodeState = after (transcribeWhole setup parts.flatten st.toDecodeState) := by
  obtain ⟨_,_,buffer,offset⟩ := startedFresh started
  have waits : Waits [] st := by
    unfold Waits
    rw [buffer,offset]
    exact ⟨Nat.le_refl _,rfl⟩
  have short : ([] : List K).length < setup.chunkSizeSamples := setup.chunkPositive
  have pushed := pushAllSimulates (exceptMapM.mp normalized) waits short
  rw [feedFlatten setup.chunkPositive short,List.nil_append] at pushed
  have whole : transcribeWhole setup parts.flatten = (do
      blocks setup.chunkSizeSamples (chunkStep setup) (parts.flatten.length/setup.chunkSizeSamples) parts.flatten
      pure (leftover setup.chunkSizeSamples parts.flatten)) >>= tailStep setup := by
    simp only [transcribeWhole,bind_assoc,pure_bind]
  rw [whole]
  exact simulatesOutcome (simulatesBind pushed fun _ _ _ waits => finishSimulates waits) fun _ _ _ same => same

structure SplitInvariant (setup : StreamSetup K η) (codec : AudioCodec K) (st : AsrStream K η) : Prop where
  /-- Pushes come to the decode steps of the whole audio, at the end of every chunk and of the audio. -/
  whole : ∀ inputs parts, inputs.mapM (normalizeAudioInput codec) = .ok parts →
    let r := transcribePushes setup codec inputs st
    outcome r = outcome (transcribeWhole setup parts.flatten st.toDecodeState) ∧
    (after r).toDecodeState = after (transcribeWhole setup parts.flatten st.toDecodeState) ∧
    (after r).steps.map Prod.fst <+: stepAudios setup.chunkSizeSamples parts.flatten ∧
    ∀ tx, outcome r = .ok tx → (after r).steps.map Prod.fst = stepAudios setup.chunkSizeSamples parts.flatten
  split : ∀ inputs inputs' parts parts', inputs.mapM (normalizeAudioInput codec) = .ok parts →
    inputs'.mapM (normalizeAudioInput codec) = .ok parts' → parts.flatten = parts'.flatten →
    outcome (transcribePushes setup codec inputs st) = outcome (transcribePushes setup codec inputs' st) ∧
    (after (transcribePushes setup codec inputs st)).steps = (after (transcribePushes setup codec inputs' st)).steps
  /-- What was consumed and what is buffered are all samples pushed, errors or not; there is no
  longer audio than the extractor takes. -/
  held : ∀ st' pushed, Reached setup codec st' pushed → pushed.length ≤ maxWavLen →
    st'.bufferOffset ≤ st'.buffer.length ∧ st'.features.wav ++ st'.buffer.drop st'.bufferOffset = pushed

/-- Normalized audio is transcribed the same however it is cut into pushes, and a stream loses none of it. -/
theorem pushSplitInvariant {st : AsrStream K η} (started : startStream setup = .ok st) : SplitInvariant setup codec st where
  whole inputs parts normalized := by
    obtain ⟨same,states⟩ := pushesWhole started normalized
    obtain ⟨features,steps,_⟩ := startedFresh started
    have fed := wholeFed features parts.flatten
    have listed : (after (transcribePushes setup codec inputs st)).steps =
        (after (transcribeWhole setup parts.flatten st.toDecodeState)).steps := congrArg (·.steps) states
    dsimp only
    refine ⟨same,states,?_⟩
    rw [same,listed]
    cases ran : transcribeWhole setup parts.flatten st.toDecodeState with
    | ok tx st' =>
      rw [ran,Fed,steps] at fed
      exact ⟨fed ▸ List.prefix_rfl,fun _ _ => fed⟩
    | error e st' =>
      rw [ran] at fed
      obtain ⟨begun,some_,seen⟩ := fed
      rw [steps] at seen
      exact ⟨seen.symm ▸ some_,fun _ bad => (by cases bad)⟩
  split inputs inputs' parts parts' normalized normalized' same := by
    obtain ⟨left,states⟩ := pushesWhole started normalized
    obtain ⟨right,states'⟩ := pushesWhole started normalized'
    rw [same] at left states
    exact ⟨left.trans right.symm,congrArg (·.steps) (states.trans states'.symm)⟩
  held st' pushed reached fits := by
    obtain ⟨inside,consumed,features,all⟩ := reachedHolds reached fits
    refine ⟨inside,?_⟩
    rw [features]
    exact all

end Splits

section Echo

theorem inferWindowFits : 100 < 2^64 := by decide

def echoSetup (chunkSizeSamples : Nat) (chunkPositive : 0 < chunkSizeSamples) : StreamSetup ℚ ℚ where
  logMel samples _ := samples.getD 201 0
  tower := ⟨featureSize,50,100,inferWindowFits,13,false,.ok (),fun chunk _ => (chunk.headD []).headD 0,[]⟩
  audioWindowFrames := .ok none
  encode _ := .ok []
  decode ids := .ok (if ids = [1] then "quiet" else "loud")
  generateIds _ _ features := .ok (if features = [17/16] then [1] else [2])
  parseAsrOutput raw := ("",raw)
  audioTokenId := 0
  promptRaw := ""
  chunkSizeSamples
  chunkPositive
  unfixedChunkNum := 1
  unfixedTokenNum := 0
  textWindowTokens := none

def waveformsOnly : AudioCodec ℚ where
  decodePath _ := .error "decode_path requires the audio-loading feature"
  decodeUrl _ := .error "decode_url requires the audio-loading feature"
  decodeBase64 _ := .error "decode_base64 requires the audio-loading feature"
  resampleMono _ _ _ := .error "resample_mono_f32 requires the audio-loading feature"

def echoStream : AsrStream ℚ ℚ := ⟨⟨⟨newExtractor,none⟩,0,"",none,none,[]⟩,[],0⟩

theorem pushSplitInvariantEcho : SplitInvariant (echoSetup 160 (by decide)) waveformsOnly echoStream :=
  pushSplitInvariant rfl

/- Each push is scaled by its own peak; and a caller who goes on after an error feeds what the failed push
left behind together with the next. -/
theorem pushesNormalizedApart :
    let quiet := List.replicate 158 (0 : ℚ)
    let transcribe := fun inputs => returned (transcribePushes (echoSetup 160 (by decide)) waveformsOnly inputs echoStream)
    let setup := echoSetup 1 (by decide)
    let goOn := fun inputs => after (finish setup
      (inputs.foldl (fun st input => after (pushAudioChunk setup waveformsOnly input st)) echoStream))
    (transcribe [.waveform (2::1/2::quiet) 16000] = some ⟨"","quiet"⟩ ∧
      transcribe [.waveform [2] 16000,.waveform (1/2::quiet) 16000] = some ⟨"","loud"⟩) ∧
    (goOn [.waveform [0,0,0] 16000]).steps.map Prod.fst = [[0],[0,0,0]] ∧
    (goOn [.waveform [0] 16000,.waveform [0] 16000,.waveform [0] 16000]).steps.map Prod.fst = [[0],[0,0],[0,0,0]] := by
  refine ⟨⟨?_,?_⟩,?_,?_⟩ <;> decide +kernel

end Echo

end Qwen3Asr.PushSplit
