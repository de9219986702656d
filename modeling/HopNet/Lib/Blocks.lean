import Mathlib.Data.List.Basic

/-! A list cut into blocks of one size: the full blocks at the front, the rest behind them, and both
together. -/

namespace Blocks

open List

variable {α : Type}

/-- The full blocks at the front. -/
def full (n : Nat) (xs : List α) : List (List α) :=
  if 0 < n ∧ n ≤ xs.length then xs.take n :: full n (xs.drop n) else []
termination_by xs.length
decreasing_by
  simp only [length_drop]
  omega

/-- What is behind the full blocks. -/
def rest (n : Nat) (xs : List α) : List α :=
  if 0 < n ∧ n ≤ xs.length then rest n (xs.drop n) else xs
termination_by xs.length
decreasing_by
  simp only [length_drop]
  omega

/-- All blocks; the last may be short. -/
def cut (n : Nat) (xs : List α) : List (List α) :=
  if 0 < n ∧ 0 < xs.length then xs.take n :: cut n (xs.drop n) else []
termination_by xs.length
decreasing_by
  simp only [length_drop]
  omega

variable {n : Nat} {xs : List α}

lemma full_of_le (hp : 0 < n) (he : n ≤ xs.length) :
    full n xs = xs.take n :: full n (xs.drop n) := by
  rw [full, if_pos ⟨hp, he⟩]

lemma rest_of_le (hp : 0 < n) (he : n ≤ xs.length) : rest n xs = rest n (xs.drop n) := by
  rw [rest, if_pos ⟨hp, he⟩]

lemma full_of_lt (hs : xs.length < n) : full n xs = [] := by
  rw [full, if_neg (by omega)]

lemma rest_of_lt (hs : xs.length < n) : rest n xs = xs := by
  rw [rest, if_neg (by omega)]

lemma cut_of_pos (hp : 0 < n) (hs : 0 < xs.length) : cut n xs = xs.take n :: cut n (xs.drop n) := by
  rw [cut, if_pos ⟨hp, hs⟩]

lemma cut_nil : cut n ([] : List α) = [] := by
  rw [cut, if_neg (by simp)]

/-- Blocks of more data: those there, then those of the rest with the new. -/
lemma full_append (hp : 0 < n) (xs ys : List α) :
    full n (xs ++ ys) = full n xs ++ full n (rest n xs ++ ys) := by
  induction xs using full.induct n with
  | case1 xs he ih =>
    rw [full_of_le hp he.2, rest_of_le hp he.2,
      full_of_le hp (by rw [length_append]; omega),
      take_append_of_le_length he.2, drop_append_of_le_length he.2, ih, cons_append]
  | case2 xs he => rw [@full_of_lt α n xs (by omega), rest_of_lt (by omega), nil_append]

lemma rest_append (hp : 0 < n) (xs ys : List α) : rest n (xs ++ ys) = rest n (rest n xs ++ ys) := by
  induction xs using full.induct n with
  | case1 xs he ih =>
    rw [@rest_of_le α n xs hp he.2,
      rest_of_le hp (by rw [length_append]; omega),
      drop_append_of_le_length he.2, ih]
  | case2 xs he => rw [@rest_of_lt α n xs (by omega)]

lemma length_rest_lt (hp : 0 < n) (xs : List α) : (rest n xs).length < n := by
  induction xs using full.induct n with
  | case1 xs he ih => rwa [rest_of_le hp he.2]
  | case2 xs he =>
    rw [rest_of_lt (by omega)]
    omega

/-- All blocks are the full ones and the rest, if there is any. -/
lemma cut_eq (hp : 0 < n) (xs : List α) :
    cut n xs = full n xs ++ if rest n xs = [] then [] else [rest n xs] := by
  induction xs using full.induct n with
  | case1 xs he ih =>
    rw [cut_of_pos hp (by omega), full_of_le hp he.2, rest_of_le hp he.2, ih, cons_append]
  | case2 xs he =>
    rw [full_of_lt (by omega), rest_of_lt (by omega), nil_append]
    cases xs with
    | nil => rw [cut_nil, if_pos rfl]
    | cons x others =>
      rw [cut_of_pos hp (by simp), take_of_length_le (by omega),
        drop_eq_nil_of_le (by omega), cut_nil, if_neg (by simp)]

lemma getElem?_cut (hp : 0 < n) (i : Nat) (xs : List α) :
    (cut n xs)[i]? = if i * n < xs.length then some ((xs.drop (i * n)).take n) else none := by
  induction i generalizing xs with
  | zero =>
    by_cases he : xs = []
    · rw [he, cut_nil]
      simp
    · have hs := length_pos_of_ne_nil he
      rw [cut_of_pos hp hs]
      simp [hs]
  | succ i ih =>
    by_cases he : xs = []
    · rw [he, cut_nil]
      simp
    · rw [cut_of_pos hp (length_pos_of_ne_nil he), getElem?_cons_succ, ih,
        length_drop, drop_drop]
      have hn : (i + 1) * n = i * n + n := Nat.succ_mul i n
      have hb : n + i * n = (i + 1) * n := by omega
      rw [hb]
      by_cases hi : i * n < xs.length - n
      · rw [if_pos hi, if_pos (by omega)]
      · rw [if_neg hi, if_neg (by omega)]

lemma length_of_mem_cut (hp : 0 < n) {block} (hc : block ∈ cut n xs) :
    0 < block.length ∧ block.length ≤ n := by
  obtain ⟨i, hi⟩ := mem_iff_getElem?.1 hc
  rw [getElem?_cut hp] at hi
  split_ifs at hi with hin
  rw [← Option.some.inj hi, length_take, length_drop]
  omega

lemma flatten_cut (hp : 0 < n) (xs : List α) : (cut n xs).flatten = xs := by
  induction xs using cut.induct n with
  | case1 xs hs ih => rw [cut_of_pos hp hs.2, flatten_cons, ih, take_append_drop]
  | case2 xs hs =>
    rw [cut, if_neg hs, flatten_nil]
    exact (length_eq_zero_iff.1 (by omega)).symm

end Blocks
