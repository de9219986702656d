import Mathlib.Data.List.Basic

/-! A list of rows in two flat lists. -/

structure Packed (α : Type) where
  starts : List Nat
  elems : List α

namespace Packed

open List

variable {α : Type} (rows : List (List α))

/-- The loop over the rows: note where the row starts, then append it. -/
def pack : Packed α :=
  let filled := rows.foldl (fun p row => ⟨p.starts ++ [p.elems.length], p.elems ++ row⟩)
    (⟨[], []⟩ : Packed α)
  { filled with starts := filled.starts ++ [filled.elems.length] }

/-- One row; `none` beyond the last. -/
def row (p : Packed α) (i : Nat) : Option (List α) := do
  let first ← p.starts[i]?
  let last ← p.starts[i + 1]?
  return (p.elems.drop first).take (last - first)

/-- Where row `i` starts. -/
def offset (i : Nat) : Nat := (rows.take i).flatten.length

lemma fill_eq (done : List (List α)) :
    rows.foldl (fun p row => (⟨p.starts ++ [p.elems.length], p.elems ++ row⟩ : Packed α))
      ⟨(range done.length).map (offset done), done.flatten⟩ =
      ⟨(range (done ++ rows).length).map (offset (done ++ rows)), (done ++ rows).flatten⟩ := by
  induction rows generalizing done with
  | nil => simp
  | cons row rest ih =>
    have hn : (⟨(range done.length).map (offset done) ++ [done.flatten.length],
        done.flatten ++ row⟩ : Packed α) =
        ⟨(range (done ++ [row]).length).map (offset (done ++ [row])), (done ++ [row]).flatten⟩ := by
      have he : (range done.length).map (offset (done ++ [row])) =
          (range done.length).map (offset done) := by
        refine map_congr_left fun i hr => ?_
        have hb := mem_range.1 hr
        rw [offset, offset, take_append_of_le_length (by omega)]
      have hh : offset (done ++ [row]) done.length = done.flatten.length := by
        rw [offset, take_left]
      rw [length_append, length_singleton, range_succ, map_append, he, map_singleton, hh]
      simp
    rw [foldl_cons, hn, ih, append_assoc, singleton_append]

lemma pack_eq : pack rows = ⟨(range (rows.length + 1)).map (offset rows), rows.flatten⟩ := by
  have hf := fill_eq rows []
  simp only [length_nil, range_zero, map_nil, flatten_nil, nil_append] at hf
  have hw : offset rows rows.length = rows.flatten.length := by
    rw [offset, take_length]
  simp only [pack, hf, range_succ, map_append, map_singleton, hw]

lemma row_pack (i : Nat) : (pack rows).row i = rows[i]? := by
  rw [pack_eq]
  by_cases hi : i < rows.length
  · have hs : rows.flatten =
        (rows.take i).flatten ++ (rows[i] ++ (rows.drop (i + 1)).flatten) := by
      rw [← flatten_cons, ← drop_eq_getElem_cons hi, ← flatten_append, take_append_drop]
    have hn : offset rows (i + 1) = offset rows i + rows[i].length := by
      rw [offset, offset, take_succ_eq_append_getElem hi, flatten_append, length_append,
        flatten_singleton]
    have hf : ((range (rows.length + 1)).map (offset rows))[i]? = some (offset rows i) := by
      simp [getElem?_range (show i < rows.length + 1 by omega)]
    have hl : ((range (rows.length + 1)).map (offset rows))[i + 1]? =
        some (offset rows (i + 1)) := by
      simp [getElem?_range (show i + 1 < rows.length + 1 by omega)]
    simp only [row, hf, hl, Option.bind_eq_bind, Option.bind_some, Option.pure_def]
    rw [getElem?_eq_getElem hi, hn, Nat.add_sub_cancel_left, hs, offset, drop_left, take_left]
  · have hl : ((range (rows.length + 1)).map (offset rows))[i + 1]? = none := by
      simp
      omega
    rw [getElem?_eq_none (by omega)]
    simp only [row, hl]
    cases ((range (rows.length + 1)).map (offset rows))[i]? <;> rfl

end Packed
