import Qwen3Asr.AudioStream
import Qwen3Asr.Library.Loop

/-! What the framing of audio bytes promises: its loop ends when frames have bytes, and a flush keeps what it cannot
deliver when the pending samples fill the channels. -/
namespace Qwen3Asr.StreamFraming
open Library Library.Effect Library.Loop MediaData AudioStream

section Loop
variable (config : StreamConfig)

structure Framing where
  stream : AudioBytesStream
  chunks : List AudioChunk

abbrev Framed := Except WaveformError (List AudioChunk) × AudioBytesStream

def frameTurn (s : Framing) : Next Framing Framed :=
  if s.stream.buffer.length < frameBytes config then .exit (.ok s.chunks,s.stream) else
  let drained := {s.stream with buffer := s.stream.buffer.drop (frameBytes config)}
  match chunkFromBytes config (s.stream.buffer.take (frameBytes config)) false drained with
  | .ok chunk stream => .next ⟨stream,s.chunks ++ [chunk]⟩
  | .error error stream => .exit (.error error,stream)

def pushed (st : AudioBytesStream) (bytes : List UInt8) : Framing := ⟨{st with buffer := st.buffer ++ bytes},[]⟩

def Consumes (s : Framing) : Prop := match frameTurn config s with
  | .next t => t.stream.buffer.length < s.stream.buffer.length
  | .exit (.error _,stream) => stream.buffer.length < s.stream.buffer.length
  | .exit (.ok _,_) => True

/- Frames of so many bytes that a word holds some of them: the samples of a chunk fill the channels. -/
def FramesFilled : Prop := ¬2^63 ∣ config.sampleRate*config.chunkSizeMs%2^64/1000*config.numChannels

end Loop

section Turns
variable {config : StreamConfig} {s t : Framing} {st st' : AudioBytesStream} {bytes : List UInt8} {last : Bool} {chunk : AudioChunk}

theorem framesFilled : FramesFilled config ↔ 0 < frameBytes config := by
  unfold FramesFilled frameBytes
  dsimp only
  omega

theorem chunkBuffer : (after (chunkFromBytes config bytes last st)).buffer = st.buffer := by
  unfold chunkFromBytes
  cases decoded : fromI16PcmBytes bytes config.sampleRate (config.numChannels%2^16) with
  | error error => rw [bindFailed (attemptError.mpr ⟨rfl,rfl⟩)]; rfl
  | ok waveform => rw [attemptThen rfl]; rfl

theorem chunkDecoded {waveform : Waveform} (decoded : fromI16PcmBytes bytes config.sampleRate (config.numChannels%2^16) = .ok waveform) :
    ∃ chunk t, chunkFromBytes config bytes last st = .ok chunk t ∧ chunk.waveform = waveform := by
  unfold chunkFromBytes
  rw [attemptThen decoded]
  exact ⟨_,_,rfl,rfl⟩

theorem chunkFailed {e : WaveformError} (failed : fromI16PcmBytes bytes config.sampleRate (config.numChannels%2^16) = .error e) :
    chunkFromBytes config bytes last st = .error e st := by
  unfold chunkFromBytes
  exact bindFailed (attemptError.mpr ⟨failed,rfl⟩)

theorem turnNext (next : frameTurn config s = .next t) :
    t.stream.buffer = s.stream.buffer.drop (frameBytes config) ∧ frameBytes config ≤ s.stream.buffer.length := by
  unfold frameTurn at next
  split at next
  · cases next
  · next long =>
    dsimp only at next
    split at next
    · next chunk stream taken =>
      cases next
      have kept := @chunkBuffer config {s.stream with buffer := s.stream.buffer.drop (frameBytes config)}
        (s.stream.buffer.take (frameBytes config)) false
      rw [taken] at kept
      exact ⟨kept,Nat.not_lt.mp long⟩
    · cases next

theorem turnError {e : WaveformError} (failed : frameTurn config s = .exit (.error e,st)) :
    st.buffer = s.stream.buffer.drop (frameBytes config) ∧ frameBytes config ≤ s.stream.buffer.length := by
  unfold frameTurn at failed
  split at failed
  · cases failed
  · next long =>
    dsimp only at failed
    split at failed
    · cases failed
    · next error stream taken =>
      cases failed
      have kept := @chunkBuffer config {s.stream with buffer := s.stream.buffer.drop (frameBytes config)}
        (s.stream.buffer.take (frameBytes config)) false
      rw [taken] at kept
      exact ⟨kept,Nat.not_lt.mp long⟩

theorem turnConsumes (positive : 0 < frameBytes config) (s : Framing) : Consumes config s := by
  unfold Consumes
  split
  · next t next =>
    obtain ⟨rest,long⟩ := turnNext next
    rw [rest,List.length_drop]
    omega
  · next e stream failed =>
    obtain ⟨rest,long⟩ := turnError failed
    rw [rest,List.length_drop]
    omega
  · trivial

theorem emptyConsumes (none_ : frameBytes config = 0) (s : Framing) : ¬Consumes config s := by
  unfold Consumes
  split
  · next t next =>
    rw [(turnNext next).1,none_,List.drop_zero]
    exact Nat.lt_irrefl _
  · next e stream failed =>
    rw [(turnError failed).1,none_,List.drop_zero]
    exact Nat.lt_irrefl _
  · next chunks stream done =>
    unfold frameTurn at done
    rw [none_,if_neg (Nat.not_lt_zero _)] at done
    dsimp only at done
    split at done <;> cases done

theorem turnHalts (positive : 0 < frameBytes config) (s : Framing) : Halts (frameTurn config) s := by
  have less : ∀ s t : Framing, frameTurn config s = .next t → t.stream.buffer.length < s.stream.buffer.length := by
    intro s t next
    have consumed := turnConsumes positive s
    unfold Consumes at consumed
    rwa [next] at consumed
  refine (haltsIffMoves (fun s => s.stream.buffer.length) (fun s t next => .inr (less s t next)) s).mpr fun t _ next => ?_
  exact Nat.lt_irrefl _ (less t t next)

/- Without bytes a frame is decoded for good, unless there are no channels left of their count. -/
theorem emptyTurn (none_ : frameBytes config = 0) (s : Framing) :
    if config.numChannels%2^16 = 0 then ∃ r, frameTurn config s = .exit r else ∃ t, frameTurn config s = .next t := by
  have drained : frameTurn config s = match chunkFromBytes config [] false s.stream with
      | .ok chunk stream => .next ⟨stream,s.chunks ++ [chunk]⟩
      | .error error stream => .exit (.error error,stream) := by
    unfold frameTurn
    rw [none_,if_neg (Nat.not_lt_zero _),List.take_zero,List.drop_zero]
  rw [drained]
  split
  · next zero =>
    have failed : fromI16PcmBytes [] config.sampleRate (config.numChannels%2^16) = .error .invalidChannelCount := by
      unfold fromI16PcmBytes
      rw [if_neg (by decide),if_pos zero]
    rw [chunkFailed failed]
    exact ⟨_,rfl⟩
  · next some_ =>
    have decoded : fromI16PcmBytes [] config.sampleRate (config.numChannels%2^16) =
        .ok ⟨[],config.sampleRate,config.numChannels%2^16⟩ := by
      unfold fromI16PcmBytes
      rw [if_neg (by decide),if_neg some_]
      exact if_neg (by simp [i16Samples])
    obtain ⟨chunk,t,made,_⟩ := @chunkDecoded config s.stream [] false _ decoded
    rw [made]
    exact ⟨_,rfl⟩

theorem emptyHalts (none_ : frameBytes config = 0) (s : Framing) :
    Halts (frameTurn config) s ↔ config.numChannels%2^16 = 0 := by
  have turn := fun s => @emptyTurn config none_ s
  by_cases zero : config.numChannels%2^16 = 0
  · refine iff_of_true ?_ zero
    have exits := turn s
    rw [if_pos zero] at exits
    obtain ⟨r,exits⟩ := exits
    exact ⟨1,r,by simp only [run,exits]⟩
  · refine iff_of_false ?_ zero
    rintro ⟨fuel,r,done⟩
    obtain ⟨t,_,exits⟩ := runExit done
    have goes := turn t
    rw [if_neg zero] at goes
    obtain ⟨u,next⟩ := goes
    rw [next] at exits
    cases exits

end Turns

section Push
variable {config : StreamConfig} {st st' : AudioBytesStream} {chunks more : List AudioChunk} {fuel : Nat}

theorem chunkNoDivergence {bytes : List UInt8} {last : Bool} (failed : chunkFromBytes config bytes last st = .error .diverges st') :
    False := by
  unfold chunkFromBytes at failed
  rcases bindError.mp failed with first | ⟨waveform,t,_,rest⟩
  · obtain ⟨wrong,_⟩ := attemptError.mp first
    unfold fromI16PcmBytes at wrong
    dsimp only at wrong
    split_ifs at wrong <;> cases wrong
  · cases rest

theorem pushFramesLoop (chunks : List AudioChunk) (st : AudioBytesStream) (fuel : Nat) : match pushFrames config fuel st with
    | .ok more st' => run (frameTurn config) (fuel+1) ⟨st,chunks⟩ = some (.ok (chunks ++ more),st')
    | .error .diverges _ => True
    | .error e st' => run (frameTurn config) (fuel+1) ⟨st,chunks⟩ = some (.error e,st') := by
  induction fuel generalizing st chunks with
  | zero =>
    unfold pushFrames
    rw [bindThen (getRun st)]
    by_cases short : st.buffer.length < frameBytes config
    · rw [if_pos short]
      simp [run,frameTurn,short]
    · rw [if_neg short]
      trivial
  | succ fuel ih =>
    unfold pushFrames
    rw [bindThen (getRun st)]
    by_cases short : st.buffer.length < frameBytes config
    · rw [if_pos short]
      simp [run,frameTurn,short]
    · rw [if_neg short,bindThen (modifyRun _ st)]
      have turned : frameTurn config ⟨st,chunks⟩ = match chunkFromBytes config (st.buffer.take (frameBytes config)) false
          {st with buffer := st.buffer.drop (frameBytes config)} with
        | .ok chunk stream => .next ⟨stream,chunks ++ [chunk]⟩
        | .error error stream => .exit (.error error,stream) := if_neg short
      rw [run,turned]
      cases taken : chunkFromBytes config (st.buffer.take (frameBytes config)) false
          {st with buffer := st.buffer.drop (frameBytes config)} with
      | error e stream =>
        rw [bindFailed taken]
        cases e <;> first | rfl | trivial
      | ok chunk stream =>
        rw [bindThen taken]
        have later := ih (chunks ++ [chunk]) stream
        cases rest : pushFrames config fuel stream with
        | error e st' =>
          rw [rest] at later
          rw [bindFailed rest]
          cases e <;> exact later
        | ok more st' =>
          rw [rest] at later
          rw [bindThen rest]
          dsimp only at later ⊢
          rw [later,List.append_assoc]
          rfl

theorem pushFramesEnough (positive : 0 < frameBytes config) (st : AudioBytesStream) {fuel : Nat} (enough : st.buffer.length < fuel) :
    pushFrames config fuel st ≠ .error .diverges st' := by
  induction fuel generalizing st with
  | zero => omega
  | succ fuel ih =>
    intro failed
    unfold pushFrames at failed
    rw [bindThen (getRun st)] at failed
    split at failed
    · cases failed
    · next long =>
      rw [bindThen (modifyRun _ st)] at failed
      rcases bindError.mp failed with first | ⟨chunk,t,taken,rest⟩
      · exact chunkNoDivergence first
      · have kept := @chunkBuffer config {st with buffer := st.buffer.drop (frameBytes config)}
          (st.buffer.take (frameBytes config)) false
        rw [taken] at kept
        change t.buffer = _ at kept
        rcases bindError.mp rest with later | ⟨_,_,_,last⟩
        · refine ih t ?_ later
          rw [kept,List.length_drop]
          omega
        · cases last

def PushRuns (config : StreamConfig) (st : AudioBytesStream) (bytes : List UInt8) : Prop := match push config bytes st with
  | .ok chunks st' => ∃ fuel, run (frameTurn config) fuel (pushed st bytes) = some (.ok chunks,st')
  | .error .diverges _ => ¬Halts (frameTurn config) (pushed st bytes)
  | .error e st' => ∃ fuel, run (frameTurn config) fuel (pushed st bytes) = some (.error e,st')

theorem pushRuns (valid : validate config = .ok ()) (st : AudioBytesStream) (bytes : List UInt8) : PushRuns config st bytes := by
  have loop := @pushFramesLoop config [] {st with buffer := st.buffer ++ bytes} ((st.buffer ++ bytes).length+1)
  have whole : push config bytes st =
      pushFrames config ((st.buffer ++ bytes).length+1) {st with buffer := st.buffer ++ bytes} := by
    unfold push
    rw [attemptThen valid,bindThen (modifyRun _ st),bindThen (getRun _)]
  unfold PushRuns
  rw [whole]
  cases result : pushFrames config ((st.buffer ++ bytes).length+1) {st with buffer := st.buffer ++ bytes} with
  | ok chunks st' =>
    rw [result] at loop
    exact ⟨_,loop⟩
  | error e st' =>
    rw [result] at loop
    cases e with
    | diverges =>
      have none_ : frameBytes config = 0 := by
        by_contra some_
        exact pushFramesEnough (Nat.pos_of_ne_zero some_) _ (Nat.lt_succ_self _) result
      intro halts
      -- Without channels the first turn fails, and the push with it.
      have exits := @emptyTurn config none_ (pushed st bytes)
      rw [if_pos ((emptyHalts none_ _).mp halts)] at exits
      obtain ⟨r,exits⟩ := exits
      unfold pushFrames at result
      rw [bindThen (getRun _),if_neg (by omega),bindThen (modifyRun _ _)] at result
      unfold frameTurn at exits
      rw [if_neg (by omega)] at exits
      dsimp only at exits
      split at exits
      · cases exits
      · next error stream failed =>
        rcases bindError.mp result with first | ⟨chunk,t,taken,_⟩
        · exact chunkNoDivergence first
        · cases taken.symm.trans failed
    | _ => exact ⟨_,loop⟩

/-- Every push of a stream with a valid configuration ends, and every turn of it takes a byte, just when the samples of a
chunk fill the channels to a number of bytes. Where they do not, the first turn takes nothing, and only channels beyond
the range of their count end the push. -/
theorem pushTerminates (config : StreamConfig) (valid : validate config = .ok ()) (st : AudioBytesStream) (bytes : List UInt8) :
    ((Halts (frameTurn config) (pushed st bytes) ∧
        ∀ s, Reaches (frameTurn config) (pushed st bytes) s → Consumes config s) ↔ FramesFilled config) ∧
    (Halts (frameTurn config) (pushed st bytes) ↔ FramesFilled config ∨ config.numChannels%2^16 = 0) ∧
    PushRuns config st bytes := by
  refine ⟨?_,?_,pushRuns valid st bytes⟩ <;> rw [framesFilled] <;> rcases Nat.eq_zero_or_pos (frameBytes config) with none_ | positive
  · exact iff_of_false (fun both => emptyConsumes none_ _ (both.2 _ .refl)) (by omega)
  · exact iff_of_true ⟨turnHalts positive _,fun s _ => turnConsumes positive s⟩ positive
  · rw [emptyHalts none_]
    exact ⟨.inr,fun either => either.resolve_left (by omega)⟩
  · exact iff_of_true (turnHalts positive _) (.inl positive)

theorem pushTerminatesLine : Halts (frameTurn ⟨8000,1,10⟩) (pushed newStream [1,2,3]) :=
  ((pushTerminates ⟨8000,1,10⟩ rfl newStream [1,2,3]).2.1).mpr (.inl (by unfold FramesFilled; decide))

/- Chunks of a millisecond at a hundred samples a second have no sample. -/
theorem pushRunsOn : validate ⟨100,1,1⟩ = .ok () ∧ ¬Halts (frameTurn ⟨100,1,1⟩) (pushed newStream [1]) := by
  refine ⟨rfl,?_⟩
  rw [emptyHalts rfl]
  decide

end Push

section Flush
variable {config : StreamConfig} {st : AudioBytesStream}

def pendingFrames (config : StreamConfig) (st : AudioBytesStream) : Nat :=
  st.buffer.length/(2*config.numChannels)*(2*config.numChannels)

/- A flush delivers the pending bytes with all whole frames among them, or leaves them where they are. -/
def FlushKeeps (config : StreamConfig) (st : AudioBytesStream) : Prop := match flush config st with
  | .ok chunks _ => ∃ taken, pendingFrames config st ≤ taken ∧ taken ≤ st.buffer.length ∧
    chunks.flatMap (fun chunk => chunk.waveform.samples) = i16Samples (st.buffer.take taken)
  | .error _ st' => st'.buffer = st.buffer

/- The pending samples fill the channels, as the decoder counts them; nothing else is asked of a stream that has
none or cannot be flushed at all. -/
def FillsChannels (config : StreamConfig) (st : AudioBytesStream) : Prop :=
  validate config ≠ .ok () ∨ st.buffer.length < 2 ∨
  config.numChannels%2^16 ≠ 0 ∧ config.numChannels%2^16 ∣ st.buffer.length/2

theorem flushInvalid (invalid : validate config ≠ .ok ()) : FlushKeeps config st := by
  unfold FlushKeeps flush
  cases reason : validate config with
  | ok _ => exact absurd reason invalid
  | error error => rw [bindFailed (attemptError.mpr ⟨rfl,rfl⟩)]

theorem pendingFew (config : StreamConfig) (st : AudioBytesStream) :
    pendingFrames config st ≤ st.buffer.length-st.buffer.length%2 := by
  have within : pendingFrames config st ≤ st.buffer.length := Nat.div_mul_le_self _ _
  have even : pendingFrames config st%2 = 0 :=
    Nat.mod_eq_zero_of_dvd (Nat.dvd_mul_left_of_dvd ⟨config.numChannels,rfl⟩ _)
  omega

theorem flushFew (valid : validate config = .ok ()) (few : st.buffer.length < 2) : FlushKeeps config st := by
  have whole := pendingFew config st
  have nothing : st.buffer.take (st.buffer.length-st.buffer.length%2) = [] := by
    rw [show st.buffer.length-st.buffer.length%2 = 0 by omega,List.take_zero]
  unfold FlushKeeps flush
  rw [attemptThen valid,bindThen (getRun st)]
  by_cases empty : st.buffer = []
  · rw [if_pos empty]
    exact ⟨0,by omega,Nat.zero_le _,rfl⟩
  · rw [if_neg empty,bindThen (modifyRun _ st),nothing,if_pos rfl]
    exact ⟨0,by omega,Nat.zero_le _,rfl⟩

theorem flushDecodes (valid : validate config = .ok ()) (more : 2 ≤ st.buffer.length) :
    let complete := st.buffer.take (st.buffer.length-st.buffer.length%2)
    flush config st = (chunkFromBytes config complete true >>= fun chunk => pure [chunk]) {st with buffer := []} := by
  dsimp only
  have some_ : st.buffer ≠ [] := List.ne_nil_of_length_pos (by omega)
  have left : st.buffer.take (st.buffer.length-st.buffer.length%2) ≠ [] := by
    refine List.ne_nil_of_length_pos ?_
    rw [List.length_take]
    omega
  unfold flush
  rw [attemptThen valid,bindThen (getRun st),if_neg some_,bindThen (modifyRun _ st),if_neg left]

/-- A flush delivers every whole frame that is pending or leaves the pending bytes in place just when the pending samples
fill the channels. -/
theorem flushKeepsIff (config : StreamConfig) (st : AudioBytesStream) : FlushKeeps config st ↔ FillsChannels config st := by
  by_cases valid : validate config = .ok ()
  swap
  · exact iff_of_true (flushInvalid valid) (.inl valid)
  rcases Nat.lt_or_ge st.buffer.length 2 with few | more
  · exact iff_of_true (flushFew valid few) (.inr (.inl few))
  have some_ : ([] : List UInt8) ≠ st.buffer := fun same => by
    rw [← same] at more
    cases more
  have fills : FillsChannels config st ↔ config.numChannels%2^16 ≠ 0 ∧ config.numChannels%2^16 ∣ st.buffer.length/2 := by
    unfold FillsChannels
    rw [or_iff_right (not_not.mpr valid),or_iff_right (Nat.not_lt.mpr more)]
  have even : (st.buffer.take (st.buffer.length-st.buffer.length%2)).length = st.buffer.length-st.buffer.length%2 := by
    rw [List.length_take]
    omega
  have samples : (i16Samples (st.buffer.take (st.buffer.length-st.buffer.length%2))).length = st.buffer.length/2 := by
    rw [samplesLength,even]
    omega
  rw [fills]
  unfold FlushKeeps
  rw [flushDecodes valid more]
  by_cases filled : config.numChannels%2^16 ≠ 0 ∧ config.numChannels%2^16 ∣ st.buffer.length/2
  · have decoded : fromI16PcmBytes (st.buffer.take (st.buffer.length-st.buffer.length%2)) config.sampleRate
        (config.numChannels%2^16) = .ok ⟨i16Samples (st.buffer.take (st.buffer.length-st.buffer.length%2)),config.sampleRate,
          config.numChannels%2^16⟩ := by
      unfold fromI16PcmBytes
      rw [if_neg (by omega),if_neg filled.1]
      dsimp only
      rw [samples,if_neg (not_not.mpr (Nat.mod_eq_zero_of_dvd filled.2))]
    refine iff_of_true ?_ filled
    obtain ⟨chunk,t,made,waveform⟩ := @chunkDecoded config {st with buffer := []} _ true _ decoded
    rw [bindThen made]
    refine ⟨st.buffer.length-st.buffer.length%2,pendingFew config st,Nat.sub_le _ _,?_⟩
    rw [List.flatMap_singleton,waveform]
  · have failed : ∃ e, fromI16PcmBytes (st.buffer.take (st.buffer.length-st.buffer.length%2)) config.sampleRate
        (config.numChannels%2^16) = .error e := by
      unfold fromI16PcmBytes
      rw [if_neg (by omega)]
      by_cases zero : config.numChannels%2^16 = 0
      · exact ⟨_,if_pos zero⟩
      · rw [if_neg zero]
        dsimp only
        rw [samples,if_pos fun whole => filled ⟨zero,Nat.dvd_of_mod_eq_zero whole⟩]
        exact ⟨_,rfl⟩
    obtain ⟨e,failed⟩ := failed
    refine iff_of_false ?_ filled
    rw [bindFailed (chunkFailed failed)]
    exact some_

/- Three samples for two channels: the frame and the half behind it are gone. -/
theorem flushDrops : flush ⟨16000,2,10⟩ ⟨[1,0,2,0,3,0],0⟩ = .error (.incompleteFrame 3 2) ⟨[],0⟩ ∧
    ¬FlushKeeps ⟨16000,2,10⟩ ⟨[1,0,2,0,3,0],0⟩ := by
  have gone : flush ⟨16000,2,10⟩ ⟨[1,0,2,0,3,0],0⟩ = .error (.incompleteFrame 3 2) ⟨[],0⟩ := rfl
  refine ⟨gone,?_⟩
  unfold FlushKeeps
  rw [gone]
  exact List.cons_ne_nil _ _ ∘ Eq.symm

end Flush

end Qwen3Asr.StreamFraming
