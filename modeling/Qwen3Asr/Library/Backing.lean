import Qwen3Asr.Library.Grid

/-! Grids that are written in place. What is written behind the columns in use and read with them is
what would be appended to them, whatever the room behind them held. -/
namespace Library.Backing
open Grid

variable {α : Type}

def zeros [Zero α] (rows width : Nat) : Grid α where
  rows := List.replicate rows (List.replicate width 0)
  width := width
  rectangular row inside := by rw [List.eq_of_mem_replicate inside,List.length_replicate]

def overwrite (dst src : Grid α) (offset : Nat) (fits : offset+src.width ≤ dst.width) : Grid α where
  rows := List.zipWith (fun row new => row.take offset ++ new ++ row.drop (offset+new.length)) dst.rows src.rows
  width := dst.width
  rectangular row inside := by
    obtain ⟨i,found⟩ := List.getElem?_of_mem inside
    obtain ⟨row,new,here,there,rfl⟩ := List.getElem?_zipWith_eq_some.mp found
    have width := rowLength here
    have newWidth := rowLength there
    rw [List.length_append,List.length_append,List.length_take,List.length_drop,width,newWidth]
    omega

section Rules
variable {dst src : Grid α} {offset : Nat} {fits : offset+src.width ≤ dst.width}

@[simp] theorem zerosRows [Zero α] (rows width : Nat) : (zeros rows width : Grid α).rows.length = rows := by
  simp [zeros]

@[simp] theorem zerosWidth [Zero α] (rows width : Nat) : (zeros rows width : Grid α).width = width := rfl

@[simp] theorem overwriteWidth : (overwrite dst src offset fits).width = dst.width := rfl

theorem overwriteAppends (same : dst.rows.length = src.rows.length) :
    (overwrite dst src offset fits).columns 0 (offset+src.width) = append (dst.columns 0 offset) src := by
  refine Grid.ext (List.ext_getElem (by simp [columns,overwrite,append,same]) fun i _ inside => ?_) ?_
  · have bound : i < dst.rows.length := by
      simp only [columns,append,List.length_zipWith,List.length_map] at inside
      omega
    have width := dst.rectangular _ (List.getElem_mem bound)
    have newWidth := src.rectangular _ (List.getElem_mem (same ▸ bound))
    simp only [columns,overwrite,append,List.getElem_map,List.getElem_zipWith,List.drop_zero]
    have front : ((dst.rows[i]).take offset ++ src.rows[i]).length = offset+src.width := by
      rw [List.length_append,List.length_take]
      omega
    rw [List.take_append_of_le_length (Nat.le_of_eq front.symm),List.take_of_length_le (Nat.le_of_eq front)]
  · simp only [columns,overwrite,append]
    omega

theorem overwriteZeros [Zero α] {rows width : Nat} (same : rows = src.rows.length)
    {fits : 0+src.width ≤ (zeros rows width : Grid α).width} :
    (overwrite (zeros rows width) src 0 fits).columns 0 src.width = src := by
  have rows : (zeros rows width : Grid α).rows.length = src.rows.length := by rw [zerosRows,same]
  have read := @overwriteAppends _ _ _ 0 fits rows
  rw [Nat.zero_add] at read
  rw [read]
  refine Grid.ext (List.ext_getElem (by simp [columns,append,rows]) fun i _ inside => ?_) (by simp [columns,append])
  simp [columns,append]

end Rules

end Library.Backing
