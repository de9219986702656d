import Mathlib.Data.List.Sort

/-! A log in a table. -/

namespace SeqLog

open List

variable {ρ : Type} {seq : ρ → Nat} {rows : List ρ} {row : ρ}

/-- The rows carry their positions. -/
def Numbered (seq : ρ → Nat) (rows : List ρ) : Prop := rows.map seq = List.range rows.length

lemma numbered_nil : Numbered seq [] := rfl

lemma Numbered.append (hn : Numbered seq rows) (next : seq row = rows.length) :
    Numbered seq (rows ++ [row]) := by
  unfold Numbered at *
  rw [map_append, hn, length_append, length_singleton, range_succ]
  simp [next]

lemma Numbered.of_append (hn : Numbered seq (rows ++ [row])) :
    Numbered seq rows ∧ seq row = rows.length := by
  unfold Numbered at *
  rw [map_append, length_append, length_singleton, range_succ] at hn
  have hs := append_inj' hn rfl
  exact ⟨hs.1, (List.cons.inj hs.2).1⟩

lemma Numbered.lt (hn : Numbered seq rows) (hro : row ∈ rows) : seq row < rows.length := by
  have hr := mem_map_of_mem (f := seq) hro
  rw [hn] at hr
  exact mem_range.1 hr

/-- In the order of their numbers the rows stand as they were added. -/
lemma Numbered.insertionSort (hn : Numbered seq rows) :
    rows.insertionSort (fun a b => seq a ≤ seq b) = rows := by
  have hs : (rows.map seq).Pairwise (· ≤ ·) := by
    rw [hn]
    exact pairwise_le_range
  exact (pairwise_map.1 hs).insertionSort_eq

end SeqLog
