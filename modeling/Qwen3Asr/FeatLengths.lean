import Qwen3Asr.EncoderBlocks

/-! The length formula against the audio tower: the placeholders of a prompt are as many as the rows that the
convolutions leave, and whole windows of frames can be counted apart from the rest. -/
namespace Qwen3Asr.FeatLengths
open Library Library.Effect Library.Word PromptBuilder AudioEncoder EncoderBlocks

variable {K η : Type}

section Formula

def convolved (len : Nat) : Nat := strided (strided (strided len))

theorem convolvedIs (len : Nat) : convolved len = (len+7)/8 := by
  simp only [convolved,strided]
  omega

theorem convolvedLength {len : Nat} (within : len ≤ 100) : featExtractOutputLength len = convolved len := by
  rw [featLengthIs (by omega),convolvedIs]
  rcases Nat.eq_or_lt_of_le within with rfl | short
  · rfl
  · rw [Nat.div_eq_of_lt short,Nat.mod_eq_of_lt short,Nat.mul_zero,Nat.zero_add]

theorem chunkWithin {frames window len : Nat} (positive : 0 < window) (inside : len ∈ chunkLengths frames window) : len ≤ window := by
  unfold chunkLengths at inside
  dsimp only at inside
  split at inside
  · rcases List.mem_or_eq_of_mem_set inside with whole | rfl
    · exact (List.eq_of_mem_replicate whole).le
    · exact (Nat.mod_lt _ positive).le
  · exact (List.eq_of_mem_replicate inside).le

/- The formula counts what the convolutions leave of every window. -/
theorem lengthConvolved {frames : Nat} (small : frames < 2^63) :
    featExtractOutputLength frames = ((chunkLengths frames 100).map convolved).sum := by
  rw [countedHundred small]
  refine congrArg List.sum (List.map_congr_left fun len inside => ?_)
  exact convolvedLength (chunkWithin (by decide) inside)

theorem lengthSplit {r frames : Nat} (small : frames < 2^63) (whole : 100 ∣ r) (within : r ≤ frames) :
    featExtractOutputLength r+featExtractOutputLength (frames-r) = featExtractOutputLength frames := by
  obtain ⟨k,rfl⟩ := whole
  rw [featLengthIs (by omega),featLengthIs (by omega),featLengthIs small]
  omega

end Formula

section Rows
variable {tower : AudioTower K η} {g : Grid K} {rows : List η}

theorem stackWhole (layers : List (List η → Nat → η)) {total : Nat} {hidden : List η} (counted : hidden.length = total) :
    (stack layers [0,total] hidden).length = total := by
  induction layers generalizing hidden with
  | nil => exact counted
  | cons layer layers ih =>
    refine ih ?_
    simp [forwardLayer,segments,counted]

theorem stackChecked {window frames total : Nat} {cu : List Nat} {hidden : List η}
    (windows : attentionWindows tower window frames total = .ok cu) (counted : hidden.length = total) :
    (stack tower.layers cu hidden).length = total := by
  by_cases flash : tower.useFlashAttn = true
  · obtain ⟨same,made,_⟩ := (attentionWindowsOk flash).mp windows
    rw [same] at made
    rcases Nat.eq_zero_or_pos total with none_ | some_
    · rw [cuSeqlensFromAftercnnLen,if_pos none_] at made
      cases Except.ok.inj made
      rw [none_] at counted ⊢
      exact @stackLength η tower.layers 1 0 Nat.one_pos _ counted
    · obtain ⟨_,_,_,positive,rfl⟩ := (cuSeqlensOk some_).mp made
      exact stackLength tower.layers positive counted
  · unfold attentionWindows at windows
    rw [if_neg flash] at windows
    cases Except.ok.inj windows
    exact stackWhole tower.layers counted

variable [Zero K]

theorem forwardRows (fifty : tower.nWindow = 50) (ok : forwardOne tower g = .ok rows) :
    rows.length = featExtractOutputLength g.width := by
  have windowed : AudioEncoder.window tower = .ok 100 := by
    unfold AudioEncoder.window
    rw [fifty]
    rfl
  unfold forwardOne at ok
  dsimp only at ok
  split at ok
  · cases ok
  obtain ⟨window,same,ok⟩ := exceptBind.mp ok
  cases same.symm.trans windowed
  split at ok
  · next none_ =>
    cases Except.ok.inj ok
    have empty : g.width = 0 := by
      by_contra some_
      exact chunkLengthsSome (by decide) (Nat.pos_of_ne_zero some_) none_
    rw [empty]
    rfl
  split at ok
  · cases ok
  obtain ⟨_,indexed,ok⟩ := exceptBind.mp ok
  obtain ⟨cu,windows,ok⟩ := exceptBind.mp ok
  have counted : (hiddenStates tower 100 g.rows 0 (chunkLengths g.width 100)).length = featExtractOutputLength g.width := by
    rw [hiddenLength,countedHundred (smallIndexed indexed)]
  rw [← Except.ok.inj ok,← counted]
  exact stackChecked windows rfl

theorem encoderRows (fifty : tower.nWindow = 50) {featureLen : Nat} (ok : forwardWithLens tower g featureLen = .ok rows) :
    rows.length = featExtractOutputLength featureLen := by
  unfold forwardWithLens at ok
  split_ifs at ok with bins past none_
  · cases Except.ok.inj ok
    rw [none_]
    rfl
  · rw [forwardRows fifty ok]
    simp only [Grid.columns,Nat.sub_zero]
    rw [Nat.min_eq_left (by omega)]

end Rows

section Placeholders
variable {audioPadId : Nat} {before after : List Nat}

theorem expandsPlaceholder (plain : audioPadId ∉ before) (featureMask : List Nat) :
    expandAudioPadIdsFirst (before ++ audioPadId::after) audioPadId (audioOutLen featureMask) =
      before ++ (List.replicate (audioOutLen featureMask) audioPadId ++ after) := by
  unfold expandAudioPadIdsFirst
  split
  · next one =>
    rw [one]
    rfl
  · exact expandAt plain

/-- For a number of frames that a list of the source can have, the formula counts what three strided convolutions leave
of every window of hundred frames, and can be split at any multiple of hundred. Where the audio tower has such windows,
the rows it gives for an audio are as many as the placeholders its prompt has for it. -/
theorem placeholdersMatchRows [Zero K] : (∀ frames, frames < 2^63 →
      featExtractOutputLength frames = ((chunkLengths frames 100).map convolved).sum ∧
      (∀ len ∈ chunkLengths frames 100, featExtractOutputLength len = convolved len) ∧
      ∀ r, 100 ∣ r → r ≤ frames →
        featExtractOutputLength r+featExtractOutputLength (frames-r) = featExtractOutputLength frames) ∧
    ∀ (tower : AudioTower K η) (g : Grid K) (featureMask : List Nat) (rows : List η), tower.nWindow = 50 →
      forwardWithLens tower g (realFrames featureMask) = .ok rows →
      ∀ before after audioPadId, audioPadId ∉ before →
        expandAudioPadIdsFirst (before ++ audioPadId::after) audioPadId (audioOutLen featureMask) =
          before ++ (List.replicate rows.length audioPadId ++ after) := by
  refine ⟨fun frames small => ⟨lengthConvolved small,fun len inside => ?_,fun r whole within => lengthSplit small whole within⟩,?_⟩
  · exact convolvedLength (chunkWithin (by decide) inside)
  · intro tower g featureMask rows fifty ok before after audioPadId plain
    rw [encoderRows fifty ok]
    exact expandsPlaceholder plain featureMask

theorem hundredFits : 100 < 2^64 := by decide

def numberedTower : AudioTower Nat Nat := ⟨1,50,100,hundredFits,13,true,.ok (),fun _ place => place,[]⟩

def numberedFrames : Grid Nat := ⟨[List.replicate 111 0],111,by simp⟩

theorem placeholdersMatchRowsNumbered :
    forwardWithLens numberedTower numberedFrames (realFrames (List.replicate 111 1)) =
      .ok (List.range 13 ++ List.range 2) ∧
    expandAudioPadIdsFirst [7,9,8] 9 (audioOutLen (List.replicate 111 1)) = [7] ++ (List.replicate 15 9 ++ [8]) ∧
    featExtractOutputLength 100+featExtractOutputLength (111-100) = featExtractOutputLength 111 := by
  obtain ⟨lengths,placeholders⟩ := @placeholdersMatchRows Nat Nat _
  have encoded : forwardWithLens numberedTower numberedFrames (realFrames (List.replicate 111 1)) =
      .ok (List.range 13 ++ List.range 2) := by decide +kernel
  refine ⟨encoded,?_,(lengths 111 (by decide)).2.2 100 (by decide) (by decide)⟩
  exact placeholders numberedTower _ _ _ rfl encoded [7] [8] 9 (by decide)

end Placeholders

end Qwen3Asr.FeatLengths
