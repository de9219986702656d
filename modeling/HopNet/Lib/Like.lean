import Mathlib.Data.List.Infix

/-! SQL's `LIKE`: `%` stands for any text, `_` for any one character, and letters match without
regard to ASCII case. -/

namespace Like

open List Bool

def like : List Char → List Char → Bool
  | [], text => text.isEmpty
  | c :: pattern, text =>
    if c = '%' then text.tails.any (like pattern)
    else
      match text with
      | [] => false
      | t :: rest => (c = '_' || c.toLower = t.toLower) && like pattern rest

variable {p q s : List Char} {c t : Char}

lemma like_wild (hw : c = '%') : like (c :: p) s = s.tails.any (like p) := by
  exact if_pos hw

lemma like_nil (hp : c ≠ '%') : like (c :: p) [] = false := by
  exact if_neg hp

lemma like_cons (hp : c ≠ '%') :
    like (c :: p) (t :: s) = ((c = '_' || c.toLower = t.toLower) && like p s) := by
  exact if_neg hp

/-- A concatenated pattern matches a concatenation of matches. -/
lemma like_append : like (p ++ q) s = true ↔ ∃ a b, s = a ++ b ∧ like p a = true ∧
    like q b = true := by
  induction p generalizing s with
  | nil =>
    constructor
    · intro hm
      exact ⟨[], s, rfl, rfl, hm⟩
    · rintro ⟨a, b, rfl, he, hm⟩
      rw [like, List.isEmpty_iff] at he
      simpa [he] using hm
  | cons c p ih =>
    rw [cons_append]
    by_cases hw : c = '%'
    · -- The wildcard's share of the text is cut off first, the rest is the induction's.
      rw [like_wild hw, any_eq_true]
      constructor
      · rintro ⟨t, ht, hm⟩
        obtain ⟨w, rfl⟩ := (mem_tails t s).1 ht
        obtain ⟨a, b, rfl, hf, hs⟩ := ih.1 hm
        refine ⟨w ++ a, b, by simp, ?_, hs⟩
        rw [like_wild hw, any_eq_true]
        exact ⟨a, (mem_tails a _).2 (suffix_append w a), hf⟩
      · rintro ⟨a, b, rfl, hf, hs⟩
        rw [like_wild hw, any_eq_true] at hf
        obtain ⟨t, ht, hm⟩ := hf
        obtain ⟨w, rfl⟩ := (mem_tails t a).1 ht
        refine ⟨t ++ b, (mem_tails _ _).2 ⟨w, by simp⟩, ih.2 ⟨t, b, rfl, hm, hs⟩⟩
    · cases s with
      | nil =>
        rw [like_nil hw]
        constructor
        · intro hi
          cases hi
        · rintro ⟨a, b, hsp, hf, _⟩
          rw [(nil_eq_append_iff.1 hsp).1, like_nil hw] at hf
          cases hf
      | cons t rest =>
        rw [like_cons hw, and_eq_true, ih]
        constructor
        · rintro ⟨hh, a, b, rfl, hf, hs⟩
          refine ⟨t :: a, b, rfl, ?_, hs⟩
          rw [like_cons hw, and_eq_true]
          exact ⟨hh, hf⟩
        · rintro ⟨a, b, hsp, hf, hs⟩
          cases a with
          | nil =>
            rw [like_nil hw] at hf
            cases hf
          | cons u a =>
            rw [like_cons hw, and_eq_true] at hf
            obtain ⟨rfl, rfl⟩ := hsp
            exact ⟨hf.1, a, b, rfl, hf.2, hs⟩

/-- The character matches only itself among lower-case texts. -/
def Literal (c : Char) : Prop := c ≠ '%' ∧ c ≠ '_' ∧ c.toLower = c
deriving Decidable

lemma like_self : like s s = true := by
  induction s with
  | nil => rfl
  | cons c s ih =>
    by_cases hw : c = '%'
    · rw [like_wild hw, any_eq_true]
      exact ⟨s, (mem_tails s _).2 (suffix_cons c s), ih⟩
    · simp [like_cons hw, ih]

lemma eq_of_like (hl : ∀ c ∈ p, Literal c) (hlo : ∀ c ∈ s, c.toLower = c) :
    like p s = true → p = s := by
  induction p generalizing s with
  | nil =>
    intro hm
    exact (isEmpty_iff.1 hm).symm
  | cons c p ih =>
    obtain ⟨hma, ho, hlc⟩ := hl c mem_cons_self
    intro hm
    cases s with
    | nil =>
      rw [like_nil hma] at hm
      cases hm
    | cons t rest =>
      rw [like_cons hma] at hm
      have hlt : t.toLower = t := hlo t mem_cons_self
      simp only [ho, decide_false, Bool.false_or, and_eq_true, decide_eq_true_eq, hlc, hlt] at hm
      rw [hm.1, ih (fun d inP => hl d (mem_cons_of_mem _ inP))
        (fun d hr => hlo d (mem_cons_of_mem _ hr)) hm.2]

lemma like_many : like ['%'] s = true := by
  rw [like_wild rfl, any_eq_true]
  exact ⟨[], (mem_tails [] s).2 nil_suffix, rfl⟩

/-- `text LIKE pattern || c || '%'`, where `c` matches only itself. -/
lemma like_separated (hm : c ≠ '%') : like (p ++ [c, '%']) s = true ↔
    ∃ a t b, s = a ++ t :: b ∧ like p a = true ∧ (c = '_' ∨ c.toLower = t.toLower) := by
  rw [like_append]
  constructor
  · rintro ⟨a, b, rfl, hf, hs⟩
    cases b with
    | nil =>
      rw [like_nil hm] at hs
      cases hs
    | cons t b =>
      rw [like_cons hm, and_eq_true, or_eq_true, decide_eq_true_eq, decide_eq_true_eq] at hs
      exact ⟨a, t, b, rfl, hf, hs.1⟩
  · rintro ⟨a, t, b, rfl, hf, hse⟩
    refine ⟨a, t :: b, rfl, hf, ?_⟩
    rw [like_cons hm, and_eq_true, or_eq_true, decide_eq_true_eq, decide_eq_true_eq]
    exact ⟨hse, like_many⟩

end Like
