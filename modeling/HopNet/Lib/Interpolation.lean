import Mathlib.LinearAlgebra.Lagrange

/-! A systematic code by interpolation. -/

namespace Interpolation

open Finset Lagrange

lemma injOn_range {α : Type} {points : ℕ → α} {k n : ℕ} (hd : Set.InjOn points (range n))
    (hw : k ≤ n) : Set.InjOn points (range k) :=
  hd.mono (coe_subset.2 (range_subset_range.2 hw))

variable {F : Type} [Field F] {points : ℕ → F} {k n : ℕ} {data other : ℕ → F}

/-- The value at each point of the polynomial through the first `k` data. -/
noncomputable def codeword (points : ℕ → F) (k : ℕ) (data : ℕ → F) (i : ℕ) : F :=
  (interpolate (range k) points data).eval (points i)

lemma codeword_of_lt (hd : Set.InjOn points (range n)) (hw : k ≤ n) {i : ℕ}
    (hi : i < k) : codeword points k data i = data i :=
  eval_interpolate_at_node data (injOn_range hd hw) (mem_range.2 hi)

/-- Two codewords that agree at `k` of the points have the same data. -/
lemma data_eq_of_agree (hd : Set.InjOn points (range n)) (hw : k ≤ n)
    {positions} (hp : positions ⊆ range n) (he : k ≤ positions.card)
    (ha : ∀ i ∈ positions, codeword points k data i = codeword points k other i) :
    ∀ i < k, data i = other i := by
  have hde : ∀ values : ℕ → F,
      (interpolate (range k) points values).degree < positions.card := by
    intro values
    have low := degree_interpolate_lt values (injOn_range hd hw)
    rw [card_range] at low
    exact low.trans_le (Nat.cast_le.2 he)
  have hs : interpolate (range k) points data =
      interpolate (range k) points other :=
    Polynomial.eq_of_degrees_lt_of_eval_index_eq positions
      (hd.mono (coe_subset.2 hp)) (hde data) (hde other) ha
  intro i hi
  exact values_eq_on_of_interpolate_eq data other (injOn_range hd hw) hs i (mem_range.2 hi)

end Interpolation
