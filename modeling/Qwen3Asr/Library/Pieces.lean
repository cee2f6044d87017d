import Mathlib.Algebra.Order.Group.Nat
import Qwen3Asr.Library.Effect

/-! A list is taken in blocks of one length. The same list handed over in pieces is taken in the same
blocks: what does not fill a block waits for the next piece. -/
namespace Library.Pieces

variable {ε σ α : Type} (size : Nat)

def cut : Nat → List α → List (List α)
  | 0, _ => []
  | n+1, xs => xs.take size::cut n (xs.drop size)

def leftover (xs : List α) : List α := xs.drop (xs.length/size*size)

def cutPieces : List (List α) → List α → List (List α)
  | [], _ => []
  | piece::pieces, waiting =>
    let xs := waiting ++ piece
    cut size (xs.length/size) xs ++ cutPieces pieces (leftover size xs)

section Cut
variable {size} {xs : List α}

theorem cutAdd (m n : Nat) (xs : List α) : cut size (m+n) xs = cut size m xs ++ cut size n (xs.drop (m*size)) := by
  induction m generalizing xs with
  | zero => simp [cut]
  | succ m ih =>
    rw [Nat.succ_add]
    simp only [cut,ih,List.drop_drop,List.cons_append]
    rw [Nat.succ_mul,Nat.add_comm size]

theorem cutAppend {n : Nat} (within : n*size ≤ xs.length) (ys : List α) : cut size n (xs ++ ys) = cut size n xs := by
  induction n generalizing xs with
  | zero => rfl
  | succ n ih =>
    rw [Nat.succ_mul] at within
    have first : size ≤ xs.length := by omega
    have rest : n*size ≤ (xs.drop size).length := by rw [List.length_drop]; omega
    simp only [cut]
    rw [List.take_append_of_le_length first,List.drop_append_of_le_length first,ih rest]

theorem cutFlatten (n : Nat) (xs : List α) : (cut size n xs).flatten = xs.take (n*size) := by
  induction n generalizing xs with
  | zero => simp [cut]
  | succ n ih =>
    rw [cut,List.flatten_cons,ih,Nat.succ_mul,Nat.add_comm _ size,List.take_add]

theorem cutLengths {n : Nat} (within : n*size ≤ xs.length) : ∀ block ∈ cut size n xs, block.length = size := by
  induction n generalizing xs with
  | zero => exact fun _ mem => (by cases mem)
  | succ n ih =>
    rw [Nat.succ_mul] at within
    refine List.forall_mem_cons.mpr ⟨by rw [List.length_take]; omega,ih ?_⟩
    rw [List.length_drop]
    omega

theorem leftoverLength (positive : 0 < size) : (leftover size xs).length < size := by
  have split := Nat.div_add_mod' xs.length size
  have short := Nat.mod_lt xs.length positive
  rw [leftover,List.length_drop]
  omega

theorem leftoverShort (short : xs.length < size) : leftover size xs = xs := by
  rw [leftover,Nat.div_eq_of_lt short,Nat.zero_mul,List.drop_zero]

theorem cutBounds (positive : 0 < size) {n : Nat} (within : n*size < xs.length+size) :
    ∀ block ∈ cut size n xs, block ≠ [] ∧ block.length ≤ size := by
  induction n generalizing xs with
  | zero => exact fun _ inside => (by cases inside)
  | succ n ih =>
    rw [Nat.succ_mul] at within
    have some_ : 0 < xs.length := by omega
    have first : (xs.take size).length = min size xs.length := List.length_take
    refine List.forall_mem_cons.mpr ⟨⟨List.ne_nil_of_length_pos (by omega),by omega⟩,ih ?_⟩
    rw [List.length_drop]
    omega

theorem cutLeftover (xs : List α) : (cut size (xs.length/size) xs).flatten ++ leftover size xs = xs := by
  rw [cutFlatten]
  exact List.take_append_drop _ xs

theorem leftoverAppend (positive : 0 < size) (xs ys : List α) :
    (xs ++ ys).length/size = xs.length/size+(leftover size xs ++ ys).length/size ∧
    leftover size (leftover size xs ++ ys) = leftover size (xs ++ ys) := by
  have within : xs.length/size*size ≤ xs.length := Nat.div_mul_le_self _ _
  have dropped : (xs ++ ys).drop (xs.length/size*size) = leftover size xs ++ ys := List.drop_append_of_le_length within
  have counted : (xs ++ ys).length = (leftover size xs ++ ys).length+xs.length/size*size := by
    rw [← dropped,List.length_drop,List.length_append]
    omega
  have divided : (xs ++ ys).length/size = xs.length/size+(leftover size xs ++ ys).length/size := by
    rw [counted,Nat.add_mul_div_right _ _ positive,Nat.add_comm]
  refine ⟨divided,?_⟩
  calc leftover size (leftover size xs ++ ys)
      = ((xs ++ ys).drop (xs.length/size*size)).drop ((leftover size xs ++ ys).length/size*size) := by rw [dropped]; rfl
    _ = leftover size (xs ++ ys) := by rw [List.drop_drop,← Nat.add_mul,← divided]; rfl

/-- A list handed over in pieces is cut as it is at once. -/
theorem cutPiecesFlatten (positive : 0 < size) {waiting : List α} (short : waiting.length < size) (pieces : List (List α)) :
    cutPieces size pieces waiting =
      cut size ((waiting ++ pieces.flatten).length/size) (waiting ++ pieces.flatten) := by
  induction pieces generalizing waiting with
  | nil =>
    rw [List.flatten_nil,List.append_nil,Nat.div_eq_of_lt short]
    rfl
  | cons piece pieces ih =>
    have within : (waiting ++ piece).length/size*size ≤ (waiting ++ piece).length := Nat.div_mul_le_self _ _
    simp only [cutPieces,List.flatten_cons]
    rw [ih (leftoverLength positive),← List.append_assoc,(leftoverAppend positive (waiting ++ piece) pieces.flatten).1,cutAdd,
      cutAppend within,List.drop_append_of_le_length within]
    rfl

end Cut

section Steps
variable (step : List α → EStateM ε σ Unit)

def blocks (n : Nat) (xs : List α) : EStateM ε σ Unit := forM (cut size n xs) step

def feed : List (List α) → List α → EStateM ε σ (List α)
  | [], waiting => pure waiting
  | piece::pieces, waiting => do
    let xs := waiting ++ piece
    blocks size step (xs.length/size) xs
    feed pieces (leftover size xs)

variable {size} {step} {xs : List α}

theorem blocksSucc (n : Nat) (xs : List α) : blocks size step (n+1) xs = (do
    step (xs.take size)
    blocks size step n (xs.drop size)) := rfl

theorem feedCut (positive : 0 < size) {waiting : List α} (short : waiting.length < size) (pieces : List (List α)) :
    feed size step pieces waiting = (do
      forM (cutPieces size pieces waiting) step
      pure (leftover size (waiting ++ pieces.flatten))) := by
  induction pieces generalizing waiting with
  | nil =>
    rw [List.flatten_nil,List.append_nil,leftoverShort short]
    rfl
  | cons piece pieces ih =>
    have last := (leftoverAppend positive (waiting ++ piece) pieces.flatten).2
    simp only [feed,cutPieces,List.flatten_cons]
    rw [ih (leftoverLength positive),last,List.forM_append,bind_assoc,List.append_assoc]
    rfl

/-- Handing over a list in pieces comes to handing it over at once. -/
theorem feedFlatten (positive : 0 < size) {waiting : List α} (short : waiting.length < size) (pieces : List (List α)) :
    feed size step pieces waiting = (do
      let xs := waiting ++ pieces.flatten
      blocks size step (xs.length/size) xs
      pure (leftover size xs)) := by
  rw [feedCut positive short,cutPiecesFlatten positive short]
  rfl

end Steps

end Library.Pieces
