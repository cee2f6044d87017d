import Qwen3Asr.Library.EditDistance
import Qwen3Asr.Library.Effect
import Qwen3Asr.Library.Loop
import Qwen3Asr.Library.Word

/-! Character error rate. The edits are counted on the way back through a table of edit distances, whose
cells are those of the prefixes of the two texts. -/
namespace Qwen3Asr.Cer
open Library.EditDistance Library.Loop Library.Effect Library.Word

structure CerStats where
  substitutions : Nat
  deletions : Nat
  insertions : Nat
  referenceChars : Nat
  deriving DecidableEq, Repr

def CerStats.edits (stats : CerStats) : Nat := stats.substitutions+stats.deletions+stats.insertions

section Table

def fillCells (r : Char) : List Char → List Nat → Nat → List Nat
  | h::hypothesis, diagonal::up::above, left =>
    let cost := if r = h then 0 else 1
    let cell := min (min (up+1) (left+1)) (diagonal+cost)
    cell::fillCells r hypothesis (up::above) cell
  | _, _, _ => []

def fillRows (hypothesis : List Char) : Nat → List Nat → List Char → List (List Nat)
  | _, above, [] => [above]
  | i, above, r::reference => above::fillRows hypothesis (i+1) ((i+1)::fillCells r hypothesis above (i+1)) reference

def table (reference hypothesis : List Char) : List (List Nat) :=
  fillRows hypothesis 0 (List.range (hypothesis.length+1)) reference

end Table

section Backtrace

structure Trace where
  i : Nat
  j : Nat
  substitutions : Nat
  deletions : Nat
  insertions : Nat
  deriving DecidableEq, Repr

def at_ {α : Type} (xs : List α) (i : Nat) : Except String α :=
  okOr xs[i]? s!"index out of bounds: the len is {xs.length} but the index is {i}"

def cellAt (dp : List (List Nat)) (i j : Nat) : Except String Nat := do
  let row ← at_ dp i
  at_ row j

variable (reference hypothesis : List Char) (dp : List (List Nat))

def matchesHere (t : Trace) : Except String Bool :=
  if 0 < t.i ∧ 0 < t.j then do
    let r ← at_ reference (t.i-1)
    let h ← at_ hypothesis (t.j-1)
    .ok (decide (r = h))
  else .ok false

def substitutesHere (t : Trace) : Except String Bool :=
  if 0 < t.i ∧ 0 < t.j then do
    let here ← cellAt dp t.i t.j
    let diagonal ← cellAt dp (t.i-1) (t.j-1)
    .ok (decide (here = diagonal+1))
  else .ok false

def deletesHere (t : Trace) : Except String Bool :=
  if 0 < t.i then do
    let here ← cellAt dp t.i t.j
    let up ← cellAt dp (t.i-1) t.j
    .ok (decide (here = up+1))
  else .ok false

def traceMove (t : Trace) : Except String Trace := do
  if ← matchesHere reference hypothesis t then .ok {t with i := t.i-1, j := t.j-1} else
  if ← substitutesHere dp t then .ok {t with i := t.i-1, j := t.j-1, substitutions := t.substitutions+1} else
  if ← deletesHere dp t then .ok {t with i := t.i-1, deletions := t.deletions+1} else
  if t.j = 0 then .error "attempt to subtract with overflow" else
  .ok {t with j := t.j-1, insertions := t.insertions+1}

def traceBody (t : Trace) : Next Trace (Except String Trace) :=
  if 0 < t.i ∨ 0 < t.j then
    match traceMove reference hypothesis dp t with
    | .ok next => .next next
    | .error panic_ => .exit (.error panic_)
  else .exit (.ok t)

end Backtrace

/- Without a result where the way back does not end within `fuel` turns. -/
def levenshteinOps (fuel : Nat) (reference hypothesis : List Char) : Option (Except String (Nat × Nat × Nat)) :=
  let n := reference.length
  let m := hypothesis.length
  if n = 0 then some (.ok (0,0,m)) else
  if m = 0 then some (.ok (0,n,0)) else do
  let traced ← run (traceBody reference hypothesis (table reference hypothesis)) fuel ⟨n,m,0,0,0⟩
  some (traced.map fun t => (t.substitutions,t.deletions,t.insertions))

def computeCer (fuel : Nat) (reference hypothesis : String) : Option (Except String CerStats) := do
  let ops ← levenshteinOps fuel reference.toList hypothesis.toList
  some (ops.map fun (substitutions,deletions,insertions) =>
    ⟨substitutions,deletions,insertions,reference.toList.length⟩)

section Cells
variable (xs : List Char)

def cells (xs : List Char) : List Char → List Char → List Nat
  | front, [] => [distance xs front]
  | front, h::rest => distance xs front::cells xs (front ++ [h]) rest

theorem cellsGet (front rest : List Char) {j : Nat} (bound : j ≤ rest.length) :
    (cells xs front rest)[j]? = some (distance xs (front ++ rest.take j)) := by
  induction rest generalizing front j with
  | nil =>
    obtain rfl : j = 0 := Nat.le_zero.mp bound
    simp [cells]
  | cons h rest ih =>
    cases j with
    | zero => simp [cells]
    | succ j =>
      have later := ih (front ++ [h]) (Nat.le_of_succ_le_succ bound)
      simpa [cells] using later

theorem cellsFirst (front rest : List Char) : cells [] front rest = List.range' front.length (rest.length+1) := by
  induction rest generalizing front with
  | nil => rw [cells,distance,List.length_nil]; rfl
  | cons h rest ih =>
    rw [cells,ih,distance,List.length_append,List.length_singleton,List.length_cons]
    exact List.range'_succ.symm

theorem fillCellsNext (r : Char) (front rest : List Char) :
    distance (xs ++ [r]) front::fillCells r rest (cells xs front rest) (distance (xs ++ [r]) front) =
      cells (xs ++ [r]) front rest := by
  induction rest generalizing front with
  | nil => rfl
  | cons h rest ih =>
    have up : ∃ above, cells xs (front ++ [h]) rest = distance xs (front ++ [h])::above := by
      cases rest <;> exact ⟨_,rfl⟩
    obtain ⟨above,next⟩ := up
    have rest_ := ih (front ++ [h])
    rw [next,distanceLast r h xs front] at rest_
    rw [cells,next,fillCells,rest_,cells]

theorem fillRowsGet (hypothesis front reference : List Char) {i : Nat} (bound : i ≤ reference.length) :
    (fillRows hypothesis front.length (cells front [] hypothesis) reference)[i]? =
      some (cells (front ++ reference.take i) [] hypothesis) := by
  induction reference generalizing front i with
  | nil =>
    obtain rfl : i = 0 := Nat.le_zero.mp bound
    simp [fillRows]
  | cons r reference ih =>
    cases i with
    | zero => simp [fillRows]
    | succ i =>
      have row := fillCellsNext front r [] hypothesis
      have first : distance (front ++ [r]) [] = front.length+1 := by
        rw [distanceNil,List.length_append,List.length_singleton]
      rw [first] at row
      have later := ih (front ++ [r]) (Nat.le_of_succ_le_succ bound)
      rw [List.length_append,List.length_singleton] at later
      rw [fillRows,row,List.getElem?_cons_succ,later,List.append_assoc,List.take_succ_cons]
      rfl

/- A cell of the table is the distance of the prefixes that end there. -/
theorem tableCell {reference hypothesis : List Char} {i j : Nat} (row : i ≤ reference.length) (column : j ≤ hypothesis.length) :
    cellAt (table reference hypothesis) i j = .ok (distance (reference.take i) (hypothesis.take j)) := by
  have first : List.range (hypothesis.length+1) = cells [] [] hypothesis := by
    rw [cellsFirst,List.range_eq_range']
    rfl
  have found := fillRowsGet hypothesis [] reference row
  have cell := cellsGet (reference.take i) [] hypothesis column
  unfold cellAt at_ table
  rw [first]
  exact exceptBind.mpr ⟨_,okOrOk.mpr found,okOrOk.mpr cell⟩

end Cells

section Back
variable {reference hypothesis : List Char} {t : Trace} {i j : Nat}

/- What is counted so far together with what the prefixes still cost is the whole distance. -/
structure Tracing (reference hypothesis : List Char) (t : Trace) : Prop where
  row : t.i ≤ reference.length
  column : t.j ≤ hypothesis.length
  cost : t.substitutions+t.deletions+t.insertions+distance (reference.take t.i) (hypothesis.take t.j) =
    distance reference hypothesis
  lengths : reference.length+t.insertions+t.j = hypothesis.length+t.deletions+t.i
  deleted : t.deletions+t.i ≤ reference.length

theorem traceMoveOf {a b c : Bool} (first : matchesHere reference hypothesis t = .ok a)
    (second : substitutesHere (table reference hypothesis) t = .ok b)
    (third : deletesHere (table reference hypothesis) t = .ok c) :
    traceMove reference hypothesis (table reference hypothesis) t =
      if a then .ok {t with i := t.i-1, j := t.j-1} else
      if b then .ok {t with i := t.i-1, j := t.j-1, substitutions := t.substitutions+1} else
      if c then .ok {t with i := t.i-1, deletions := t.deletions+1} else
      if t.j = 0 then .error "attempt to subtract with overflow" else
      .ok {t with j := t.j-1, insertions := t.insertions+1} := by
  unfold traceMove
  rw [first,second,third]
  cases a <;> cases b <;> cases c <;> rfl

theorem insideFinds (row : t.i < reference.length) (column : t.j < hypothesis.length) :
    matchesHere reference hypothesis {t with i := t.i+1, j := t.j+1} = .ok (decide (reference[t.i] = hypothesis[t.j])) ∧
    substitutesHere (table reference hypothesis) {t with i := t.i+1, j := t.j+1} =
      .ok (decide (distance (reference.take (t.i+1)) (hypothesis.take (t.j+1)) =
        distance (reference.take t.i) (hypothesis.take t.j)+1)) ∧
    deletesHere (table reference hypothesis) {t with i := t.i+1, j := t.j+1} =
      .ok (decide (distance (reference.take (t.i+1)) (hypothesis.take (t.j+1)) =
        distance (reference.take t.i) (hypothesis.take (t.j+1))+1)) := by
  have both : 0 < t.i+1 ∧ 0 < t.j+1 := ⟨Nat.zero_lt_succ _,Nat.zero_lt_succ _⟩
  have here := tableCell (Nat.succ_le_of_lt row) (Nat.succ_le_of_lt column)
  have diagonal := tableCell (Nat.le_of_lt row) (Nat.le_of_lt column)
  have up := tableCell (Nat.le_of_lt row) (Nat.succ_le_of_lt column)
  refine ⟨?_,?_,?_⟩
  · unfold matchesHere at_
    rw [if_pos both]
    exact exceptBind.mpr ⟨reference[t.i],okOrOk.mpr (List.getElem?_eq_getElem row),
      exceptBind.mpr ⟨hypothesis[t.j],okOrOk.mpr (List.getElem?_eq_getElem column),rfl⟩⟩
  · unfold substitutesHere
    rw [if_pos both]
    exact exceptBind.mpr ⟨_,here,exceptBind.mpr ⟨_,diagonal,rfl⟩⟩
  · unfold deletesHere
    rw [if_pos both.1]
    exact exceptBind.mpr ⟨_,here,exceptBind.mpr ⟨_,up,rfl⟩⟩

def Moves (reference hypothesis : List Char) (t : Trace) : Prop :=
  ∃ next, traceMove reference hypothesis (table reference hypothesis) t = .ok next ∧
    Tracing reference hypothesis next ∧ next.i+next.j < t.i+t.j

theorem movesLeft {s d n : Nat} (tracing : Tracing reference hypothesis ⟨0,j+1,s,d,n⟩) :
    Moves reference hypothesis ⟨0,j+1,s,d,n⟩ := by
  obtain ⟨row,column,cost,lengths,deleted⟩ := tracing
  have moved : traceMove reference hypothesis (table reference hypothesis) ⟨0,j+1,s,d,n⟩ = .ok ⟨0,j,s,d,n+1⟩ :=
    traceMoveOf (a := false) (b := false) (c := false) rfl rfl rfl
  dsimp only at column cost lengths deleted
  refine ⟨_,moved,⟨row,Nat.le_of_succ_le column,?_,by dsimp only; omega,deleted⟩,by dsimp only; omega⟩
  rw [List.take_zero,distance,List.length_take] at cost ⊢
  dsimp only
  omega

theorem movesUp {s d n : Nat} (tracing : Tracing reference hypothesis ⟨i+1,0,s,d,n⟩) :
    Moves reference hypothesis ⟨i+1,0,s,d,n⟩ := by
  obtain ⟨row,column,cost,lengths,deleted⟩ := tracing
  dsimp only at row cost lengths deleted
  have here := tableCell row column
  have up := tableCell (Nat.le_of_succ_le row) column
  have longer : distance (reference.take (i+1)) (hypothesis.take 0) = distance (reference.take i) (hypothesis.take 0)+1 := by
    rw [List.take_zero,distanceNil,distanceNil,List.length_take,List.length_take]
    omega
  have finds : deletesHere (table reference hypothesis) ⟨i+1,0,s,d,n⟩ = .ok true := by
    unfold deletesHere
    rw [if_pos (Nat.zero_lt_succ i)]
    exact exceptBind.mpr ⟨_,here,exceptBind.mpr ⟨_,up,congrArg _ (decide_eq_true longer)⟩⟩
  have moved : traceMove reference hypothesis (table reference hypothesis) ⟨i+1,0,s,d,n⟩ = .ok ⟨i,0,s,d+1,n⟩ :=
    traceMoveOf (a := false) (b := false) rfl rfl finds
  refine ⟨_,moved,⟨Nat.le_of_succ_le row,column,?_,by dsimp only; omega,by dsimp only; omega⟩,by dsimp only; omega⟩
  dsimp only
  omega

theorem movesInside {s d n : Nat} (tracing : Tracing reference hypothesis ⟨i+1,j+1,s,d,n⟩) :
    Moves reference hypothesis ⟨i+1,j+1,s,d,n⟩ := by
  obtain ⟨row,column,cost,lengths,deleted⟩ := tracing
  obtain ⟨matches_,substitutes,deletes⟩ := insideFinds (t := ⟨i,j,s,d,n⟩) row column
  have moved := traceMoveOf matches_ substitutes deletes
  have ends : reference.take (i+1) = reference.take i ++ [reference[i]] := (List.take_append_getElem row).symm
  have ends' : hypothesis.take (j+1) = hypothesis.take j ++ [hypothesis[j]] := (List.take_append_getElem column).symm
  have cell := distanceLast reference[i] hypothesis[j] (reference.take i) (hypothesis.take j)
  rw [← ends,← ends'] at cell
  dsimp only [Nat.add_one_sub_one] at moved row column cost lengths deleted
  by_cases same : reference[i] = hypothesis[j]
  · have kept := distanceKeepLast reference[i] (reference.take i) (hypothesis.take j)
    rw [← ends,same,← ends'] at kept
    rw [if_pos (decide_eq_true same)] at moved
    exact ⟨_,moved,⟨Nat.le_of_succ_le row,Nat.le_of_succ_le column,by rw [← kept]; exact cost,by dsimp only; omega,
      by dsimp only; omega⟩,by dsimp only; omega⟩
  · rw [if_neg same] at cell
    rw [if_neg (by simp [same])] at moved
    split at moved
    · next replaced =>
      have replaced := of_decide_eq_true replaced
      exact ⟨_,moved,⟨Nat.le_of_succ_le row,Nat.le_of_succ_le column,by dsimp only; omega,by dsimp only; omega,
        by dsimp only; omega⟩,by dsimp only; omega⟩
    · next unreplaced =>
      split at moved
      · next dropped =>
        have dropped := of_decide_eq_true dropped
        exact ⟨_,moved,⟨Nat.le_of_succ_le row,column,by dsimp only; omega,by dsimp only; omega,by dsimp only; omega⟩,
          by dsimp only; omega⟩
      · next undropped =>
        -- the cell is one above neither of these two, so it is one above its left one
        rw [decide_eq_true_eq] at unreplaced undropped
        rw [if_neg (Nat.succ_ne_zero j)] at moved
        exact ⟨_,moved,⟨row,Nat.le_of_succ_le column,by dsimp only; omega,by dsimp only; omega,deleted⟩,
          by dsimp only; omega⟩

theorem moves (tracing : Tracing reference hypothesis t) (more : 0 < t.i ∨ 0 < t.j) : Moves reference hypothesis t := by
  obtain ⟨i,j,s,d,n⟩ := t
  cases i with
  | zero =>
    cases j with
    | zero => exact absurd more (by simp)
    | succ j => exact movesLeft tracing
  | succ i =>
    cases j with
    | zero => exact movesUp tracing
    | succ j => exact movesInside tracing

end Back

section Ops
variable (reference hypothesis : List Char)

abbrev turns : Nat := reference.length+hypothesis.length+1

/- Where the way back has arrived, the counts are the cost of a whole script. -/
theorem traced : ∃ t, run (traceBody reference hypothesis (table reference hypothesis)) (turns reference hypothesis)
      ⟨reference.length,hypothesis.length,0,0,0⟩ = some (.ok t) ∧ Tracing reference hypothesis t ∧ t.i = 0 ∧ t.j = 0 := by
  have start : Tracing reference hypothesis ⟨reference.length,hypothesis.length,0,0,0⟩ := {
    row := Nat.le_refl _
    column := Nat.le_refl _
    cost := by simp
    lengths := by dsimp only; omega
    deleted := by dsimp only; omega}
  have bounded := @runBounded _ _ (traceBody reference hypothesis (table reference hypothesis))
    (Tracing reference hypothesis) (fun r => ∃ t, r = .ok t ∧ Tracing reference hypothesis t ∧ t.i = 0 ∧ t.j = 0)
    (fun t => t.i+t.j) (fun t next tracing turned => ?_) (fun t r tracing ended => ?_)
    (turns reference hypothesis) _ start (Nat.lt_succ_self _)
  · obtain ⟨_,ran,t,rfl,arrived⟩ := bounded
    exact ⟨t,ran,arrived⟩
  · unfold traceBody at turned
    split at turned
    · next more =>
      obtain ⟨_,moved,kept,less⟩ := moves tracing more
      rw [moved] at turned
      cases turned
      exact ⟨kept,less⟩
    · cases turned
  · unfold traceBody at ended
    split at ended
    · next more =>
      obtain ⟨_,moved,_⟩ := moves tracing more
      rw [moved] at ended
      cases ended
    · next done =>
      cases ended
      exact ⟨t,rfl,tracing,by omega,by omega⟩

theorem opsCounted : ∃ substitutions deletions insertions,
    levenshteinOps (turns reference hypothesis) reference hypothesis = some (.ok (substitutions,deletions,insertions)) ∧
    substitutions+deletions+insertions = distance reference hypothesis ∧
    deletions ≤ reference.length ∧ hypothesis.length = reference.length-deletions+insertions := by
  unfold levenshteinOps
  dsimp only
  split
  · next none =>
    obtain rfl := List.eq_nil_of_length_eq_zero none
    exact ⟨0,0,hypothesis.length,rfl,by rw [distance]; omega,Nat.zero_le _,by simp⟩
  · split
    · next none =>
      obtain rfl := List.eq_nil_of_length_eq_zero none
      exact ⟨0,reference.length,0,rfl,by rw [distanceNil]; omega,Nat.le_refl _,by simp⟩
    · obtain ⟨t,ran,tracing,row,column⟩ := traced reference hypothesis
      have cost := tracing.cost
      have lengths := tracing.lengths
      have deleted := tracing.deleted
      rw [row,column,List.take_zero,List.take_zero,distance,List.length_nil] at cost
      exact ⟨t.substitutions,t.deletions,t.insertions,by rw [ran]; rfl,by omega,by omega,by omega⟩

/-- The edits counted on the way back are as many as the edit distance, and account for the lengths. -/
theorem cerCounted : ∃ stats,
    levenshteinOps (turns reference hypothesis) reference hypothesis =
      some (.ok (stats.substitutions,stats.deletions,stats.insertions)) ∧
    computeCer (turns reference hypothesis) (String.ofList reference) (String.ofList hypothesis) = some (.ok stats) ∧
    stats.edits = distance reference hypothesis ∧ stats.referenceChars = reference.length ∧
    stats.deletions ≤ stats.referenceChars ∧
    hypothesis.length = stats.referenceChars-stats.deletions+stats.insertions := by
  obtain ⟨substitutions,deletions,insertions,ran,least,lengths⟩ := opsCounted reference hypothesis
  refine ⟨⟨substitutions,deletions,insertions,reference.length⟩,ran,?_,least,rfl,lengths⟩
  unfold computeCer
  rw [String.toList_ofList,String.toList_ofList,ran]
  rfl

example : computeCer 14 "kitten" "sitting" = some (.ok ⟨2,0,1,6⟩) := by decide

end Ops

end Qwen3Asr.Cer
