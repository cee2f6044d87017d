import Mathlib.Tactic.Ring
import Qwen3Asr.AudioEncoder

/-! Blocks of the encoder: tokens are as many as the lengths say, and blocks that fill whole
attention windows are encoded apart from each other. -/
namespace Qwen3Asr.EncoderBlocks
open Library Library.Effect Library.Word
open PromptBuilder AudioEncoder

variable {K η α : Type}

section Offsets

def pieces (size : Nat) : Nat → List α → List (List α)
  | 0, _ => []
  | fuel+1, xs => if xs = [] then [] else xs.take size :: pieces size fuel (xs.drop size)

theorem piecesFuel {size : Nat} (positive : 0 < size) {xs : List α} {m n : Nat} (enough : xs.length ≤ m) (more : xs.length ≤ n) :
    pieces size m xs = pieces size n xs := by
  induction m generalizing xs n with
  | zero =>
    obtain rfl : xs = [] := List.length_eq_zero_iff.mp (by omega)
    cases n <;> simp [pieces]
  | succ m ih =>
    cases n with
    | zero =>
      obtain rfl : xs = [] := List.length_eq_zero_iff.mp (by omega)
      simp [pieces]
    | succ n =>
      unfold pieces
      split
      · rfl
      · next some =>
        have counted : 0 < xs.length := List.length_pos_iff.mpr some
        rw [ih (n := n) (by rw [List.length_drop]; omega) (by rw [List.length_drop]; omega)]

theorem piecesFlatten {size : Nat} (positive : 0 < size) {xs : List α} {n : Nat} (enough : xs.length ≤ n) :
    (pieces size n xs).flatten = xs := by
  induction n generalizing xs with
  | zero =>
    obtain rfl : xs = [] := List.length_eq_zero_iff.mp (by omega)
    rfl
  | succ n ih =>
    unfold pieces
    split
    · next none => rw [none]; rfl
    · next some =>
      have counted : 0 < xs.length := List.length_pos_iff.mpr some
      rw [List.flatten_cons,ih (by rw [List.length_drop]; omega),List.take_append_drop]

theorem piecesAppend {size : Nat} (positive : 0 < size) {xs ys : List α} {k m n : Nat} (whole : xs.length = k*size)
    (enough : xs.length ≤ m) (more : (xs ++ ys).length ≤ n) :
    pieces size n (xs ++ ys) = pieces size m xs ++ pieces size n ys := by
  induction k generalizing xs m n with
  | zero =>
    obtain rfl : xs = [] := List.length_eq_zero_iff.mp (by omega)
    cases m <;> simp [pieces]
  | succ k ih =>
    have counted : xs.length = k*size+size := by rw [whole,Nat.succ_mul]
    obtain ⟨m,rfl⟩ : ∃ m', m = m'+1 := Nat.exists_eq_succ_of_ne_zero (by omega)
    obtain ⟨n,rfl⟩ : ∃ n', n = n'+1 := Nat.exists_eq_succ_of_ne_zero (by rw [List.length_append] at more; omega)
    have nonempty : xs ≠ [] := List.length_pos_iff.mp (by omega)
    have rest : (xs.drop size ++ ys).length ≤ n := by
      rw [List.length_append,List.length_drop]
      rw [List.length_append] at more
      omega
    have here : pieces size (n+1) (xs ++ ys) = xs.take size :: pieces size n (xs.drop size ++ ys) := by
      rw [pieces,if_neg (by simp [nonempty]),List.take_append_of_le_length (by omega),
        List.drop_append_of_le_length (by omega)]
    have left : pieces size (m+1) xs = xs.take size :: pieces size m (xs.drop size) := by
      rw [pieces,if_neg nonempty]
    have tail : ys.length ≤ n := by
      rw [List.length_append] at rest
      omega
    rw [here,left,ih (m := m) (n := n) (by rw [List.length_drop]; omega) (by rw [List.length_drop]; omega) rest,
      List.cons_append,piecesFuel positive tail (n := n+1) (by omega)]

theorem segmentsPieces {size : Nat} (xs : List α) {fuel offset : Nat} (within : offset ≤ xs.length) :
    segments xs (offset :: offsetsFrom xs.length size fuel offset) = pieces size fuel (xs.drop offset) := by
  induction fuel generalizing offset with
  | zero => rfl
  | succ fuel ih =>
    unfold offsetsFrom pieces
    split
    · next before =>
      have some : xs.drop offset ≠ [] := List.length_pos_iff.mp (by rw [List.length_drop]; omega)
      rw [if_neg some,segments,ih (by omega),List.drop_drop]
      rcases Nat.le_total (xs.length-offset) size with short | long
      · rw [Nat.min_eq_left short,show offset+(xs.length-offset)-offset = (xs.drop offset).length by rw [List.length_drop]; omega,
          List.take_length,List.take_of_length_le (by rw [List.length_drop]; omega)]
        have done : xs.drop (offset+(xs.length-offset)) = [] := List.drop_eq_nil_of_le (by omega)
        have past : xs.drop (offset+size) = [] := List.drop_eq_nil_of_le (by omega)
        rw [done,past]
      · rw [Nat.min_eq_right long,Nat.add_sub_cancel_left]
    · next past =>
      have none : xs.drop offset = [] := List.drop_eq_nil_of_le (by omega)
      rw [none,if_pos rfl]
      rfl

theorem offsetsReach {size : Nat} (positive : 0 < size) {total fuel offset : Nat} (enough : total-offset ≤ fuel) (within : offset ≤ total) :
    (offset :: offsetsFrom total size fuel offset).getLast? = some total := by
  induction fuel generalizing offset with
  | zero =>
    obtain rfl : offset = total := by omega
    rfl
  | succ fuel ih =>
    unfold offsetsFrom
    split
    · rw [List.getLast?_cons_cons]
      exact ih (by omega) (by omega)
    · obtain rfl : offset = total := by omega
      rfl

end Offsets

section Layers

def cuOf (size total : Nat) : List Nat := 0 :: offsetsFrom total size total 0

def stack (layers : List (List η → Nat → η)) (cuSeqlens : List Nat) (hidden : List η) : List η :=
  layers.foldl (fun hidden layer => forwardLayer layer cuSeqlens hidden) hidden

theorem forwardLayerPieces (layer : List η → Nat → η) {size total : Nat} {hidden : List η} (counted : hidden.length = total) :
    forwardLayer layer (cuOf size total) hidden =
      (pieces size total hidden).flatMap fun win => (List.range win.length).map (layer win) := by
  subst counted
  rw [forwardLayer,cuOf,segmentsPieces hidden (Nat.zero_le _),List.drop_zero]

theorem forwardLayerLength (layer : List η → Nat → η) {size total : Nat} (positive : 0 < size) {hidden : List η}
    (counted : hidden.length = total) : (forwardLayer layer (cuOf size total) hidden).length = total := by
  rw [forwardLayerPieces layer counted,List.length_flatMap]
  simp only [List.length_map,List.length_range]
  rw [← List.length_flatten,piecesFlatten positive (Nat.le_of_eq counted),counted]

theorem stackLength (layers : List (List η → Nat → η)) {size total : Nat} (positive : 0 < size) {hidden : List η}
    (counted : hidden.length = total) : (stack layers (cuOf size total) hidden).length = total := by
  induction layers generalizing hidden with
  | nil => exact counted
  | cons layer layers ih => exact ih (forwardLayerLength layer positive counted)

/- Tokens that fill whole windows go through the layers apart from those behind them. -/
theorem stackApart (layers : List (List η → Nat → η)) {size k m n : Nat} (positive : 0 < size) {xs ys : List η}
    (left : xs.length = m) (right : ys.length = n) (whole : m = k*size) :
    stack layers (cuOf size (m+n)) (xs ++ ys) = stack layers (cuOf size m) xs ++ stack layers (cuOf size n) ys := by
  induction layers generalizing xs ys with
  | nil => rfl
  | cons layer layers ih =>
    have both : (xs ++ ys).length = m+n := by rw [List.length_append,left,right]
    have apart : forwardLayer layer (cuOf size (m+n)) (xs ++ ys) =
        forwardLayer layer (cuOf size m) xs ++ forwardLayer layer (cuOf size n) ys := by
      rw [forwardLayerPieces layer both,forwardLayerPieces layer left,forwardLayerPieces layer right,
        piecesAppend positive (left.trans whole) (Nat.le_of_eq left) (Nat.le_of_eq both),List.flatMap_append,
        piecesFuel positive (m := m+n) (n := n) (by omega) (Nat.le_of_eq right)]
    have step := ih (forwardLayerLength layer positive left) (forwardLayerLength layer positive right)
    rw [← apart] at step
    exact step

end Layers

section Lengths

theorem divFloorPos (a : Int) {b : Int} (positive : 0 < b) : divFloor a b = a/b := by
  have low := Int.emod_nonneg a (Int.ne_of_gt positive)
  have high := Int.emod_lt_of_pos a positive
  unfold divFloor
  rw [Int.tdiv_eq_ediv,Int.tmod_eq_emod,Int.sign_eq_one_of_pos positive]
  by_cases up : 0 ≤ a ∨ b ∣ a
  · simp only [up,if_true,Int.add_zero,Nat.cast_zero,Int.sub_zero]
    exact if_neg fun off => off.2 (propext ⟨fun _ => positive,fun _ => lt_of_le_of_ne low (Ne.symm off.1)⟩)
  · simp only [up,if_false]
    have negative : a%b-b.natAbs < 0 := by omega
    rw [if_pos ⟨Int.ne_of_lt negative,fun same => absurd (same.mpr positive) (by omega)⟩,Int.add_sub_cancel]

theorem featLengthIs {n : Nat} (small : n < 2^63) : featExtractOutputLength n = 13*(n/100)+(n%100+7)/8 := by
  unfold featExtractOutputLength
  rw [if_pos small]
  simp only [divFloorPos _ (show (0:Int) < 2 by decide),divFloorPos _ (show (0:Int) < 100 by decide),
    Int.tmod_eq_emod_of_nonneg (Int.natCast_nonneg n)]
  omega

theorem chunkLengthsNext {window : Nat} (positive : 0 < window) (frames : Nat) :
    chunkLengths (window+frames) window = window :: chunkLengths frames window := by
  have chunks : (window+frames) ⌈/⌉ window = frames ⌈/⌉ window+1 := by
    rw [Nat.ceilDiv_eq_add_pred_div,Nat.ceilDiv_eq_add_pred_div,show window+frames+window-1 = frames+window-1+window by omega,
      Nat.add_div_right _ positive]
  unfold chunkLengths
  rw [chunks,Nat.add_mod_left]
  cases counted : frames ⌈/⌉ window with
  | zero =>
    have none : frames = 0 := by
      have covered := (ceilDiv_le_iff_le_mul positive).mp (Nat.le_of_eq counted)
      omega
    simp [none]
  | succ n =>
    dsimp only
    split
    · next left =>
      rw [if_pos ⟨Nat.succ_pos n,left.2⟩]
      simp [List.replicate_succ]
    · next exact_ =>
      rw [if_neg fun left => exact_ ⟨Nat.succ_pos _,left.2⟩]
      rfl

theorem chunkLengthsBlocks {window : Nat} (positive : 0 < window) (k frames : Nat) :
    chunkLengths (k*window+frames) window = List.replicate k window ++ chunkLengths frames window := by
  induction k with
  | zero => simp
  | succ k ih =>
    rw [show (k+1)*window+frames = window+(k*window+frames) by rw [Nat.succ_mul]; omega,chunkLengthsNext positive,ih]
    rfl

theorem chunkLengthsSome {window frames : Nat} (positive : 0 < window) (some_ : 0 < frames) : chunkLengths frames window ≠ [] := by
  intro none
  have chunks : 0 < frames ⌈/⌉ window := by
    refine Nat.pos_of_ne_zero fun zero => ?_
    have covered := (ceilDiv_le_iff_le_mul positive).mp (Nat.le_of_eq zero)
    omega
  unfold chunkLengths at none
  have counted := congrArg List.length none
  dsimp only at counted
  split at counted <;> simp at counted <;> omega

end Lengths

section Forward
variable {total maxLen window windowInfer : Nat} {cu : List Nat}

theorem cuSeqlensOk (some_ : 0 < total) :
    cuSeqlensFromAftercnnLen total maxLen window windowInfer = .ok cu ↔
      window ≠ 0 ∧ windowInfer/window ≠ 0 ∧ maxLen*(windowInfer/window) < 2^64 ∧ 0 < maxLen*(windowInfer/window) ∧
        cuOf (maxLen*(windowInfer/window)) total = cu := by
  unfold cuSeqlensFromAftercnnLen
  rw [if_neg (Nat.ne_of_gt some_)]
  split
  · next none => simp [none]
  · next nonzero =>
    dsimp only
    split
    · next none => simp [none]
    · next ratio =>
      constructor
      · intro ok
        obtain ⟨size,made,ok⟩ := exceptBind.mp ok
        obtain ⟨small,rfl⟩ := checkedMulSome.mp (okOrOk.mp made)
        split at ok
        · cases ok
        · next positive =>
          split at ok
          · cases ok
          · exact ⟨nonzero,ratio,small,Nat.pos_of_ne_zero positive,Except.ok.inj ok⟩
      · intro ⟨_,_,small,positive,made⟩
        refine exceptBind.mpr ⟨_,okOrOk.mpr (checkedMulSome.mpr ⟨small,rfl⟩),?_⟩
        rw [if_neg (Nat.ne_of_gt positive),if_neg]
        · exact congrArg Except.ok made
        · exact not_not.mpr (offsetsReach positive (by omega) (Nat.zero_le _))

theorem keptIndicesOk {lengths : List Nat} : keptIndices window lengths = .ok () ↔
    ∀ p ∈ lengths.zipIdx, featExtractOutputLength p.1 ≤ maxT window ∧ p.2*maxT window < 2^64 ∧
      ∀ j, j < featExtractOutputLength p.1 → p.2*maxT window+j < 2^32 := by
  have each (p : Nat × Nat) (positions : List Nat) :
      (if maxT window < featExtractOutputLength p.1 then
          .error s!"aftercnn_len={featExtractOutputLength p.1} exceeds max_t={maxT window}"
        else do
          let base ← okOr (checkedMul p.2 (maxT window)) "index overflow"
          (List.range (featExtractOutputLength p.1)).mapM fun j => do
            let pos ← okOr (checkedAdd base j) "index overflow"
            okOr (u32TryFrom pos) "index overflow" : Except String (List Nat)) = .ok positions ↔
      (featExtractOutputLength p.1 ≤ maxT window ∧ p.2*maxT window < 2^64 ∧
        ∀ j, j < featExtractOutputLength p.1 → p.2*maxT window+j < 2^32) ∧
      (List.range (featExtractOutputLength p.1)).map (p.2*maxT window + ·) = positions := by
    have inner (base : Nat) : ((List.range (featExtractOutputLength p.1)).mapM fun j => do
          let pos ← okOr (checkedAdd base j) "index overflow"
          okOr (u32TryFrom pos) "index overflow") = .ok positions ↔
        (∀ j ∈ List.range (featExtractOutputLength p.1), base+j < 2^32) ∧
        (List.range (featExtractOutputLength p.1)).map (base + ·) = positions := by
      refine exceptMapChecked fun j _ pos => ?_
      constructor
      · intro ok
        obtain ⟨at_,added,narrowed⟩ := exceptBind.mp ok
        obtain ⟨_,rfl⟩ := checkedAddSome.mp (okOrOk.mp added)
        exact u32TryFromSome.mp (okOrOk.mp narrowed)
      · intro ⟨small,same⟩
        exact exceptBind.mpr ⟨_,okOrOk.mpr (checkedAddSome.mpr ⟨by omega,rfl⟩),okOrOk.mpr (u32TryFromSome.mpr ⟨small,same⟩)⟩
    simp only [List.mem_range] at inner
    constructor
    · intro ok
      split at ok
      · cases ok
      · next short =>
        obtain ⟨base,multiplied,ok⟩ := exceptBind.mp ok
        obtain ⟨small,rfl⟩ := checkedMulSome.mp (okOrOk.mp multiplied)
        obtain ⟨places,made⟩ := (inner _).mp ok
        exact ⟨⟨Nat.not_lt.mp short,small,places⟩,made⟩
    · intro ⟨⟨short,small,places⟩,made⟩
      rw [if_neg (Nat.not_lt.mpr short)]
      exact exceptBind.mpr ⟨_,okOrOk.mpr (checkedMulSome.mpr ⟨small,rfl⟩),(inner _).mpr ⟨places,made⟩⟩
  unfold keptIndices
  constructor
  · intro ok
    obtain ⟨lists,ok,_⟩ := exceptBind.mp ok
    exact ((exceptMapChecked fun p _ b => each p b).mp ok).1
  · intro places
    exact exceptBind.mpr ⟨_,(exceptMapChecked fun p _ b => each p b).mpr ⟨places,rfl⟩,rfl⟩

theorem keptIndicesParts {left right : List Nat} (ok : keptIndices window (left ++ right) = .ok ()) :
    keptIndices window left = .ok () ∧ keptIndices window right = .ok () := by
  rw [keptIndicesOk] at ok
  constructor
  · refine keptIndicesOk.mpr fun p inside => ok p ?_
    rw [List.zipIdx_append]
    exact List.mem_append_left _ inside
  · refine keptIndicesOk.mpr fun p inside => ?_
    have there : (p.1,left.length+p.2) ∈ (left ++ right).zipIdx := by
      rw [List.mem_zipIdx_iff_getElem?] at inside ⊢
      rw [List.getElem?_append_right (Nat.le_add_right _ _),Nat.add_sub_cancel_left]
      exact inside
    obtain ⟨short,small,places⟩ := ok _ there
    dsimp only at short small places
    rw [Nat.add_mul] at small places
    exact ⟨short,by omega,fun j inChunk => by have := places j inChunk; omega⟩

theorem attentionWindowsOk {tower : AudioTower K η} (flash : tower.useFlashAttn = true) {frames idxLen : Nat} {cu : List Nat} :
    attentionWindows tower window frames idxLen = .ok cu ↔ featExtractOutputLength frames = idxLen ∧
      cuSeqlensFromAftercnnLen (featExtractOutputLength frames) (maxT window) window tower.nWindowInfer = .ok cu ∧
      (tower.layers ≠ [] → 0 < idxLen → tower.flashReady = .ok ()) := by
  unfold attentionWindows
  rw [if_pos flash]
  dsimp only
  constructor
  · intro ok
    split at ok
    · cases ok
    · next same =>
      obtain ⟨cu',made,ok⟩ := exceptBind.mp ok
      split at ok
      · obtain ⟨_,ready,ok⟩ := exceptBind.mp ok
        cases Except.ok.inj ok
        exact ⟨not_not.mp same,made,fun _ _ => ready⟩
      · next unneeded =>
        cases Except.ok.inj ok
        exact ⟨not_not.mp same,made,fun deep some_ => absurd ⟨deep,Nat.ne_of_gt some_⟩ unneeded⟩
  · intro ⟨same,made,ready⟩
    rw [if_neg (not_not.mpr same)]
    refine exceptBind.mpr ⟨cu,made,?_⟩
    split
    · next needed => exact exceptBind.mpr ⟨(),ready needed.1 (Nat.pos_of_ne_zero needed.2),rfl⟩
    · rfl

end Forward

section Hidden
variable [Zero K] {tower : AudioTower K η} {g h : Grid K} {window : Nat}

theorem hiddenSplit (rows : List (List K)) (offset : Nat) (left right : List Nat) :
    hiddenStates tower window rows offset (left ++ right) =
      hiddenStates tower window rows offset left ++ hiddenStates tower window rows (offset+left.sum) right := by
  induction left generalizing offset with
  | nil => rfl
  | cons len left ih =>
    simp only [List.cons_append,hiddenStates,List.sum_cons,← Nat.add_assoc]
    rw [ih,List.append_assoc]

theorem hiddenLeft (same : g.rows.length = h.rows.length) {offset : Nat} {lengths : List Nat}
    (within : offset+lengths.sum ≤ g.width) :
    hiddenStates tower window (Grid.append g h).rows offset lengths = hiddenStates tower window g.rows offset lengths := by
  induction lengths generalizing offset with
  | nil => rfl
  | cons len lengths ih =>
    rw [List.sum_cons] at within
    rw [hiddenStates,hiddenStates,Grid.appendCutLeft same (by omega),ih (by omega)]

theorem hiddenRight (same : g.rows.length = h.rows.length) (offset : Nat) (lengths : List Nat) :
    hiddenStates tower window (Grid.append g h).rows (g.width+offset) lengths =
      hiddenStates tower window h.rows offset lengths := by
  induction lengths generalizing offset with
  | nil => rfl
  | cons len lengths ih => rw [hiddenStates,hiddenStates,Grid.appendCutRight same,Nat.add_assoc,ih]

theorem hiddenLength (rows : List (List K)) (offset : Nat) (lengths : List Nat) :
    (hiddenStates tower window rows offset lengths).length = (lengths.map featExtractOutputLength).sum := by
  induction lengths generalizing offset with
  | nil => rfl
  | cons len lengths ih => simp [hiddenStates,chunkTokens,ih]

structure Forwarded (tower : AudioTower K η) (g : Grid K) (window : Nat) (v : List η) : Prop where
  bins : g.rows.length = tower.numMelBins
  placed : maxT window ≤ tower.maxSourcePositions
  indexed : keptIndices window (chunkLengths g.width window) = .ok ()
  counted : featExtractOutputLength g.width = ((chunkLengths g.width window).map featExtractOutputLength).sum
  ready : tower.layers ≠ [] → 0 < featExtractOutputLength g.width → tower.flashReady = .ok ()
  output : ∃ cu, cuSeqlensFromAftercnnLen (featExtractOutputLength g.width) (maxT window) window tower.nWindowInfer = .ok cu ∧
    stack tower.layers cu (hiddenStates tower window g.rows 0 (chunkLengths g.width window)) = v

theorem forwardOneOk (flash : tower.useFlashAttn = true) (window_ : AudioEncoder.window tower = .ok window)
    (some_ : 0 < g.width) {v : List η} : forwardOne tower g = .ok v ↔ Forwarded tower g window v := by
  have positive : 0 < window := by
    unfold AudioEncoder.window at window_
    obtain ⟨w,_,made⟩ := exceptBind.mp window_
    split at made
    · cases made
    · next nonzero =>
      cases Except.ok.inj made
      exact Nat.pos_of_ne_zero nonzero
  have chunks := chunkLengthsSome positive some_
  unfold forwardOne
  dsimp only
  constructor
  · intro ok
    split at ok
    · cases ok
    · next bins =>
      obtain ⟨w,same,ok⟩ := exceptBind.mp ok
      cases same.symm.trans window_
      rw [if_neg chunks] at ok
      split at ok
      · cases ok
      · next placed =>
        obtain ⟨_,indexed,ok⟩ := exceptBind.mp ok
        obtain ⟨cu,windows,ok⟩ := exceptBind.mp ok
        obtain ⟨counted,made,ready⟩ := (attentionWindowsOk flash).mp windows
        rw [hiddenLength] at counted ready
        exact ⟨not_not.mp bins,Nat.not_lt.mp placed,indexed,counted,counted ▸ ready,cu,made,Except.ok.inj ok⟩
  · intro made
    obtain ⟨cu,windows,output⟩ := made.output
    rw [if_neg (not_not.mpr made.bins)]
    refine exceptBind.mpr ⟨window,window_,?_⟩
    rw [if_neg chunks,if_neg (Nat.not_lt.mpr made.placed)]
    refine exceptBind.mpr ⟨(),made.indexed,exceptBind.mpr ⟨cu,(attentionWindowsOk flash).mpr ?_,congrArg Except.ok output⟩⟩
    rw [hiddenLength]
    exact ⟨made.counted,windows,made.counted ▸ made.ready⟩

theorem forwardOneLength (flash : tower.useFlashAttn = true) (some_ : 0 < g.width) {v : List η}
    (ok : forwardOne tower g = .ok v) : v.length = featExtractOutputLength g.width := by
  have windowed : ∃ w, AudioEncoder.window tower = .ok w := by
    unfold forwardOne at ok
    dsimp only at ok
    split at ok
    · cases ok
    · obtain ⟨w,same,_⟩ := exceptBind.mp ok
      exact ⟨w,same⟩
  obtain ⟨w,same⟩ := windowed
  have made := (forwardOneOk flash same some_).mp ok
  obtain ⟨cu,windows,output⟩ := made.output
  have length := (@hiddenLength K η _ tower w g.rows 0 (chunkLengths g.width w)).trans made.counted.symm
  rw [← output]
  rcases Nat.eq_zero_or_pos (featExtractOutputLength g.width) with none | tokens
  · rw [cuSeqlensFromAftercnnLen,if_pos none] at windows
    cases Except.ok.inj windows
    rw [none] at length ⊢
    exact @stackLength η tower.layers 1 0 Nat.one_pos _ length
  · obtain ⟨_,_,_,positive,rfl⟩ := (cuSeqlensOk tokens).mp windows
    exact stackLength tower.layers positive length

end Hidden

def Placed (tower : AudioTower K η) (frames : Nat) : Prop :=
  ∃ w, AudioEncoder.window tower = .ok w ∧ keptIndices w (chunkLengths frames w) = .ok ()

/-- Whole blocks of frames and what follows them are encoded apart from each other. -/
structure BlockIndependent [Zero K] (tower : AudioTower K η) (segmentFrames : Nat) : Prop where
  split : ∀ g h : Grid K, g.rows.length = h.rows.length → segmentFrames ∣ g.width → 0 < g.width → 0 < h.width →
    ∀ v, forwardOne tower (Grid.append g h) = .ok v →
      ∃ a b, forwardOne tower g = .ok a ∧ forwardOne tower h = .ok b ∧ v = a ++ b
  join : ∀ g h : Grid K, g.rows.length = h.rows.length → segmentFrames ∣ g.width → 0 < g.width → 0 < h.width →
    ∀ a b, forwardOne tower g = .ok a → forwardOne tower h = .ok b → Placed tower (g.width+h.width) →
      forwardOne tower (Grid.append g h) = .ok (a ++ b)

section Hundred
variable [Zero K] {tower : AudioTower K η} {g h : Grid K}

theorem featLengthSome {n : Nat} (small : n < 2^63) (some_ : 0 < n) : 0 < featExtractOutputLength n := by
  rw [featLengthIs small]
  omega

theorem smallIndexed {frames : Nat} (indexed : keptIndices 100 (chunkLengths frames 100) = .ok ()) : frames < 2^63 := by
  rw [← Nat.div_add_mod' frames 100] at indexed ⊢
  rw [chunkLengthsBlocks (by omega)] at indexed
  have left := Nat.mod_lt frames (show 0 < 100 by omega)
  rcases Nat.eq_zero_or_pos (frames/100) with none | blocks
  · omega
  · have last : (100,frames/100-1) ∈ (List.replicate (frames/100) 100).zipIdx := by
      rw [List.mem_zipIdx_iff_getElem?,List.getElem?_replicate,if_pos (by omega)]
    obtain ⟨_,_,places⟩ := keptIndicesOk.mp (keptIndicesParts indexed).1 _ last
    have first := places 0 (featLengthSome (by omega) (by omega))
    change (frames/100-1)*13+0 < 2^32 at first
    omega

/- Chunks of hundred frames have as many tokens together as all their frames. -/
theorem countedHundred {frames : Nat} (small : frames < 2^63) :
    featExtractOutputLength frames = ((chunkLengths frames 100).map featExtractOutputLength).sum := by
  have left := Nat.mod_lt frames (show 0 < 100 by omega)
  have rest : ((chunkLengths (frames%100) 100).map featExtractOutputLength).sum = featExtractOutputLength (frames%100) := by
    unfold chunkLengths
    rcases Nat.eq_zero_or_pos (frames%100) with none | some_
    · rw [none]
      rfl
    · have one : (frames%100) ⌈/⌉ 100 = 1 := by
        rw [Nat.ceilDiv_eq_add_pred_div]
        omega
      rw [one,if_pos ⟨Nat.one_pos,by omega⟩,Nat.mod_mod]
      simp
  have whole := chunkLengthsBlocks (show 0 < 100 by omega) (frames/100) (frames%100)
  rw [Nat.div_add_mod'] at whole
  have hundred : featExtractOutputLength 100 = 13 := rfl
  rw [whole,List.map_append,List.sum_append,rest,List.map_replicate,List.sum_replicate,hundred,featLengthIs small,
    featLengthIs (by omega),smul_eq_mul]
  omega

theorem forwardHundred (flash : tower.useFlashAttn = true) (fifty : tower.nWindow = 50) (some_ : 0 < g.width) {v : List η} :
    forwardOne tower g = .ok v ↔ g.rows.length = tower.numMelBins ∧ 13 ≤ tower.maxSourcePositions ∧
      keptIndices 100 (chunkLengths g.width 100) = .ok () ∧ (tower.layers ≠ [] → tower.flashReady = .ok ()) ∧
      tower.nWindowInfer/100 ≠ 0 ∧ 13*(tower.nWindowInfer/100) < 2^64 ∧
      stack tower.layers (cuOf (13*(tower.nWindowInfer/100)) (featExtractOutputLength g.width))
        (hiddenStates tower 100 g.rows 0 (chunkLengths g.width 100)) = v := by
  have windowed : AudioEncoder.window tower = .ok 100 := by
    unfold AudioEncoder.window
    rw [fifty]
    rfl
  rw [forwardOneOk flash windowed some_]
  constructor
  · intro made
    have tokens := featLengthSome (smallIndexed made.indexed) some_
    obtain ⟨cu,windows,output⟩ := made.output
    obtain ⟨_,ratio,small,_,rfl⟩ := (cuSeqlensOk tokens).mp windows
    exact ⟨made.bins,made.placed,made.indexed,fun deep => made.ready deep tokens,ratio,small,output⟩
  · intro ⟨bins,placed,indexed,ready,ratio,small,output⟩
    have tokens := featLengthSome (smallIndexed indexed) some_
    exact ⟨bins,placed,indexed,countedHundred (smallIndexed indexed),fun deep _ => ready deep,_,
      (cuSeqlensOk tokens).mpr ⟨by omega,ratio,small,Nat.mul_pos (by decide) (Nat.pos_of_ne_zero ratio),rfl⟩,output⟩

theorem hiddenApart (same : g.rows.length = h.rows.length) {k : Nat} (width : g.width = k*100) (window : Nat) (lengths : List Nat) :
    hiddenStates tower window (Grid.append g h).rows 0 (List.replicate k 100 ++ lengths) =
      hiddenStates tower window g.rows 0 (List.replicate k 100) ++ hiddenStates tower window h.rows 0 lengths := by
  have total : 0+(List.replicate k 100).sum = g.width := by
    rw [List.sum_replicate,width,smul_eq_mul,Nat.zero_add]
  rw [hiddenSplit,total,hiddenLeft same (Nat.le_of_eq total),← hiddenRight same 0 lengths,Nat.add_zero]

theorem stackHundred (same : g.rows.length = h.rows.length) {ratio : Nat} (windows : 0 < ratio) (whole : 100*ratio ∣ g.width)
    (indexed : keptIndices 100 (chunkLengths (g.width+h.width) 100) = .ok ()) :
    (keptIndices 100 (chunkLengths g.width 100) = .ok () ∧ keptIndices 100 (chunkLengths h.width 100) = .ok ()) ∧
    stack tower.layers (cuOf (13*ratio) (featExtractOutputLength (g.width+h.width)))
        (hiddenStates tower 100 (Grid.append g h).rows 0 (chunkLengths (g.width+h.width) 100)) =
      stack tower.layers (cuOf (13*ratio) (featExtractOutputLength g.width))
          (hiddenStates tower 100 g.rows 0 (chunkLengths g.width 100)) ++
        stack tower.layers (cuOf (13*ratio) (featExtractOutputLength h.width))
          (hiddenStates tower 100 h.rows 0 (chunkLengths h.width 100)) := by
  obtain ⟨blocks,filled⟩ := whole
  have width : g.width = blocks*ratio*100 := by
    rw [filled]
    ring
  have left : chunkLengths g.width 100 = List.replicate (blocks*ratio) 100 := by
    have cut := chunkLengthsBlocks (show 0 < 100 by omega) (blocks*ratio) 0
    rw [Nat.add_zero,← width] at cut
    rw [cut]
    exact List.append_nil _
  have all : chunkLengths (g.width+h.width) 100 = List.replicate (blocks*ratio) 100 ++ chunkLengths h.width 100 := by
    rw [width]
    exact chunkLengthsBlocks (by omega) _ _
  have small := smallIndexed indexed
  rw [all] at indexed
  have counted : featExtractOutputLength g.width = blocks*(13*ratio) := by
    rw [featLengthIs (by omega),width,Nat.mul_div_cancel _ (by omega),Nat.mul_mod_left]
    ring
  have total : featExtractOutputLength (g.width+h.width) = featExtractOutputLength g.width+featExtractOutputLength h.width := by
    rw [featLengthIs small,featLengthIs (show h.width < 2^63 by omega),featLengthIs (show g.width < 2^63 by omega)]
    omega
  refine ⟨left ▸ keptIndicesParts indexed,?_⟩
  rw [all,hiddenApart same width,total,left]
  refine stackApart tower.layers (by omega) ?_ ?_ counted
  · rw [hiddenLength,← left,← countedHundred (by omega)]
  · rw [hiddenLength,← countedHundred (by omega)]

/-- The windows that the configuration ships with encode their blocks apart. -/
theorem blockIndependentHundred (flash : tower.useFlashAttn = true) (fifty : tower.nWindow = 50) :
    BlockIndependent tower (100*(tower.nWindowInfer/100)) where
  split g h same whole some_ behind v ok := by
    have width : (Grid.append g h).width = g.width+h.width := rfl
    obtain ⟨bins,placed,indexed,ready,ratio,small,output⟩ := (forwardHundred flash fifty (by omega)).mp ok
    obtain ⟨⟨first,second⟩,apart⟩ := @stackHundred K η _ tower g h same _ (Nat.pos_of_ne_zero ratio) whole indexed
    have count : (Grid.append g h).rows.length = g.rows.length := by simp [Grid.append,same]
    rw [count] at bins
    refine ⟨_,_,(forwardHundred flash fifty some_).mpr ⟨bins,placed,first,ready,ratio,small,rfl⟩,
      (forwardHundred flash fifty behind).mpr ⟨same ▸ bins,placed,second,ready,ratio,small,rfl⟩,?_⟩
    rw [← output]
    exact apart
  join g h same whole some_ behind a b left right places := by
    obtain ⟨bins,placed,_,ready,ratio,small,rfl⟩ := (forwardHundred flash fifty some_).mp left
    obtain ⟨_,_,_,_,_,_,rfl⟩ := (forwardHundred flash fifty behind).mp right
    obtain ⟨w,windowed,indexed⟩ := places
    unfold AudioEncoder.window at windowed
    rw [fifty] at windowed
    cases Except.ok.inj windowed
    have count : (Grid.append g h).rows.length = g.rows.length := by simp [Grid.append,same]
    have width : (Grid.append g h).width = g.width+h.width := rfl
    have apart := (@stackHundred K η _ tower g h same _ (Nat.pos_of_ne_zero ratio) whole indexed).2
    exact (forwardHundred flash fifty (by omega)).mpr ⟨count.trans bins,placed,indexed,ready,ratio,small,apart⟩

end Hundred

end Qwen3Asr.EncoderBlocks
