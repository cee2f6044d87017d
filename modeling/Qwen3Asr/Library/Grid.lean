import Mathlib.Data.List.Basic

/-! Rows of one width, and the ways a batch is cut and put together by rows and by columns. -/
namespace Library

@[ext] structure Grid (α : Type) where
  rows : List (List α)
  width : Nat
  rectangular : ∀ row ∈ rows, row.length = width

namespace Grid
variable {α β γ : Type}

theorem rowLength {g : Grid α} {i : Nat} {row : List α} (found : g.rows[i]? = some row) : row.length = g.width :=
  g.rectangular row (List.mem_of_getElem? found)

def map (f : α → β) (g : Grid α) : Grid β where
  rows := g.rows.map (List.map f)
  width := g.width
  rectangular row inside := by
    obtain ⟨row,there,rfl⟩ := List.mem_map.mp inside
    rw [List.length_map,g.rectangular row there]

def mapIdx (f : Nat → Nat → α → β) (g : Grid α) : Grid β where
  rows := g.rows.mapIdx fun i row => row.mapIdx (f i)
  width := g.width
  rectangular row inside := by
    obtain ⟨i,bound,rfl⟩ := List.mem_mapIdx.mp inside
    rw [List.length_mapIdx,g.rectangular _ (List.getElem_mem bound)]

def zipWith (f : α → β → γ) (g : Grid α) (g' : Grid β) : Grid γ where
  rows := List.zipWith (List.zipWith f) g.rows g'.rows
  width := min g.width g'.width
  rectangular row inside := by
    obtain ⟨i,found⟩ := List.getElem?_of_mem inside
    obtain ⟨row,row',here,there,rfl⟩ := List.getElem?_zipWith_eq_some.mp found
    rw [List.length_zipWith,rowLength here,rowLength there]

def append (g g' : Grid α) : Grid α where
  rows := List.zipWith (· ++ ·) g.rows g'.rows
  width := g.width+g'.width
  rectangular row inside := by
    obtain ⟨i,found⟩ := List.getElem?_of_mem inside
    obtain ⟨row,row',here,there,rfl⟩ := List.getElem?_zipWith_eq_some.mp found
    rw [List.length_append,rowLength here,rowLength there]

def columns (g : Grid α) (start len : Nat) : Grid α where
  rows := g.rows.map fun row => (row.drop start).take len
  width := min len (g.width-start)
  rectangular row inside := by
    obtain ⟨row,there,rfl⟩ := List.mem_map.mp inside
    rw [List.length_take,List.length_drop,g.rectangular row there]

def repeated (n : Nat) (g : Grid α) : Grid α where
  rows := (List.replicate n g.rows).flatten
  width := g.width
  rectangular row inside := by
    obtain ⟨rows,there,found⟩ := List.mem_flatten.mp inside
    rw [List.eq_of_mem_replicate there] at found
    exact g.rectangular row found

def firstRow (g : Grid α) : Grid α where
  rows := g.rows.take 1
  width := g.width
  rectangular row inside := g.rectangular row (List.mem_of_mem_take inside)

def ofRows (width : Nat) (rows : List (List α)) : Option (Grid α) :=
  if same : ∀ row ∈ rows, row.length = width then some ⟨rows,width,same⟩ else none

section Rows
variable {g g' : Grid α} {i : Nat} {row row' : List α}

theorem mapRow (f : α → β) (found : g.rows[i]? = some row) : (g.map f).rows[i]? = some (row.map f) := by
  simp [map,found]

theorem mapIdxRow (f : Nat → Nat → α → β) (found : g.rows[i]? = some row) :
    (g.mapIdx f).rows[i]? = some (row.mapIdx (f i)) := by
  simp [mapIdx,found]

theorem zipWithRow (f : α → β → γ) {h : Grid β} {other : List β} (found : g.rows[i]? = some row)
    (there : h.rows[i]? = some other) : (zipWith f g h).rows[i]? = some (List.zipWith f row other) :=
  List.getElem?_zipWith_eq_some.mpr ⟨_,_,found,there,rfl⟩

theorem appendRow (found : g.rows[i]? = some row) (there : g'.rows[i]? = some row') :
    (append g g').rows[i]? = some (row ++ row') :=
  List.getElem?_zipWith_eq_some.mpr ⟨_,_,found,there,rfl⟩

theorem columnsRow (start len : Nat) (found : g.rows[i]? = some row) :
    (g.columns start len).rows[i]? = some ((row.drop start).take len) := by
  simp [columns,found]

theorem mapAppend (f : α → β) (g g' : Grid α) : (append g g').map f = append (g.map f) (g'.map f) := by
  refine Grid.ext ?_ rfl
  simp only [map,append,List.map_zipWith,List.zipWith_map,List.map_append]

theorem mapColumns (f : α → β) (g : Grid α) (start len : Nat) : (g.columns start len).map f = (g.map f).columns start len := by
  refine Grid.ext ?_ rfl
  simp [map,columns,List.map_take,List.map_drop]

theorem mapFirstRow (f : α → β) (g : Grid α) : g.firstRow.map f = (g.map f).firstRow := by
  refine Grid.ext ?_ rfl
  simp [map,firstRow,List.map_take]

theorem mapRepeated (f : α → β) (n : Nat) (g : Grid α) : (g.repeated n).map f = (g.map f).repeated n := by
  refine Grid.ext ?_ rfl
  simp [map,repeated,List.map_flatten]

theorem columnsWhole (g : Grid α) : g.columns 0 g.width = g := by
  refine Grid.ext ?_ (by simp [columns])
  change g.rows.map (fun row => (row.drop 0).take g.width) = g.rows
  conv_rhs => rw [← List.map_id g.rows]
  refine List.map_congr_left fun row inside => ?_
  rw [List.drop_zero,List.take_of_length_le (Nat.le_of_eq (g.rectangular row inside)),id]

theorem firstRowColumns (g : Grid α) {n len : Nat} (within : len ≤ n) :
    (g.columns 0 n).firstRow.columns 0 len = g.firstRow.columns 0 len := by
  refine Grid.ext ?_ (by simp only [columns,firstRow]; omega)
  simp only [columns,firstRow,List.drop_zero,← List.map_take,List.map_map]
  refine List.map_congr_left fun row _ => ?_
  rw [Function.comp_apply,List.take_take,Nat.min_eq_left within]

theorem repeatedOnce (g : Grid α) : g.repeated 1 = g := by
  refine Grid.ext ?_ rfl
  simp [repeated]

theorem columnsAppend (g : Grid α) {start middle stop : Nat} (first : start ≤ middle) (second : middle ≤ stop)
    (within : stop ≤ g.width) :
    append (g.columns start (middle-start)) (g.columns middle (stop-middle)) = g.columns start (stop-start) := by
  refine Grid.ext ?_ ?_
  · change List.zipWith (· ++ ·) (g.rows.map fun row => (row.drop start).take (middle-start))
      (g.rows.map fun row => (row.drop middle).take (stop-middle)) = g.rows.map fun row => (row.drop start).take (stop-start)
    rw [List.zipWith_map,List.zipWith_self]
    refine List.map_congr_left fun row _ => ?_
    have later : row.drop middle = (row.drop start).drop (middle-start) := by
      rw [List.drop_drop]
      congr 1
      omega
    rw [later,← List.take_add]
    congr 1
    omega
  · simp only [append,columns]
    omega

theorem columnsWidth {g : Grid α} {start stop : Nat} (within : stop ≤ g.width) : (g.columns start (stop-start)).width = stop-start := by
  simp only [columns]
  omega

theorem appendCutLeft {g h : Grid α} (same : g.rows.length = h.rows.length) {offset len : Nat} (within : offset+len ≤ g.width) :
    ((append g h).rows.map fun row => (row.drop offset).take len) = g.rows.map fun row => (row.drop offset).take len := by
  refine List.ext_getElem (by simp [append,same]) fun i _ inside => ?_
  have bound : i < g.rows.length := by simpa using inside
  have width := g.rectangular _ (List.getElem_mem bound)
  simp only [append,List.getElem_map,List.getElem_zipWith]
  rw [List.drop_append_of_le_length (by omega),List.take_append_of_le_length (by rw [List.length_drop]; omega)]

theorem appendCutRight {g h : Grid α} (same : g.rows.length = h.rows.length) (offset len : Nat) :
    ((append g h).rows.map fun row => (row.drop (g.width+offset)).take len) =
      h.rows.map fun row => (row.drop offset).take len := by
  refine List.ext_getElem (by simp [append,same]) fun i _ inside => ?_
  have bound : i < g.rows.length := by
    rw [same]
    simpa using inside
  have width := g.rectangular _ (List.getElem_mem bound)
  have dropped (row : List α) : (g.rows[i] ++ row).drop (g.width+offset) = row.drop offset := by
    rw [← width,List.drop_length_add_append]
  simp only [append,List.getElem_map,List.getElem_zipWith,dropped]

theorem repeatedRow {n : Nat} {only : List α} (single : g.rows = [only]) (inside : i < n) :
    (g.repeated n).rows[i]? = some only := by
  simp [repeated,single,List.flatten_replicate_singleton,inside]

theorem ofRowsSome {width : Nat} {rows : List (List α)} : ofRows width rows = some g ↔
    g.rows = rows ∧ g.width = width ∧ ∀ row ∈ rows, row.length = width := by
  unfold ofRows
  split
  · next same =>
    constructor
    · intro made
      cases made
      exact ⟨rfl,rfl,same⟩
    · intro parts
      exact congrArg some (Grid.ext parts.1.symm parts.2.1.symm)
  · next ragged =>
    constructor
    · intro made
      cases made
    · intro parts
      exact absurd parts.2.2 ragged

end Rows

end Grid
end Library
