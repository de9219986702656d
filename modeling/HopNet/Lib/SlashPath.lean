import HopNet.Lib.Like

/-! Paths kept as one text with `/` before every segment. -/

namespace SlashPath

open Like List

variable {a b p q s : List Char}

/-- `p` is `a/…`. -/
def Below (a p : List Char) : Prop := ∃ s, p = a ++ '/' :: s

lemma below_iff_prefix : Below a p ↔ a ++ ['/'] <+: p := by
  constructor
  · rintro ⟨s, rfl⟩
    exact ⟨s, by simp⟩
  · rintro ⟨s, rfl⟩
    exact ⟨s, by simp⟩

instance (a p : List Char) : Decidable (Below a p) := decidable_of_iff _ below_iff_prefix.symm

/-- A named proper ancestor; the empty text is the root. -/
def Ancestor (a p : List Char) : Prop := a ≠ [] ∧ Below a p
deriving Decidable

lemma Below.trans (hf : Below a b) (hs : Below b p) : Below a p := by
  obtain ⟨s, rfl⟩ := hf
  obtain ⟨t, rfl⟩ := hs
  exact ⟨s ++ '/' :: t, by simp⟩

lemma Below.length_lt (hb : Below a p) : a.length < p.length := by
  obtain ⟨s, rfl⟩ := hb
  simp

lemma Below.ne (hb : Below a p) : p ≠ a := by
  rintro rfl
  exact absurd hb.length_lt (Nat.lt_irrefl _)

lemma Below.total (hf : Below a p) (hs : Below b p) : a = b ∨ Below a b ∨ Below b a := by
  obtain ⟨s, rfl⟩ := hf
  obtain ⟨t, same⟩ := hs
  rcases append_eq_append_iff.1 same with ⟨m, rfl, ht⟩ | ⟨m, rfl, ht⟩
  · cases m with
    | nil => exact .inl (by simp)
    | cons c m =>
      obtain ⟨rfl, _⟩ := ht
      exact .inr (.inl ⟨m, rfl⟩)
  · cases m with
    | nil => exact .inl (by simp)
    | cons c m =>
      obtain ⟨rfl, _⟩ := ht
      exact .inr (.inr ⟨m, rfl⟩)

def pathOf (segments : List (List Char)) : List Char := segments.flatMap ('/' :: ·)

lemma pathOf_cons (g : List Char) (gs : List (List Char)) :
    pathOf (g :: gs) = '/' :: (g ++ pathOf gs) := rfl

/-- A text before a slash reaches past a segment without one. -/
lemma split_segment {g rest} (hp : '/' ∉ g) (hs : a ++ '/' :: s = g ++ rest) :
    ∃ a', a = g ++ a' ∧ a' ++ '/' :: s = rest := by
  rcases append_eq_append_iff.1 hs with ⟨m, hr, ht⟩ | ⟨m, hr, ht⟩
  · cases m with
    | nil => exact ⟨[], by simpa using hr.symm, by simpa using ht⟩
    | cons c m =>
      obtain ⟨rfl, _⟩ := ht
      exact absurd (by rw [hr]; simp) hp
  · exact ⟨m, hr, ht.symm⟩

/-- The ancestors of `/s₁/…/sₙ` are `/s₁/…/sᵢ` for `0 < i < n`. -/
lemma ancestor_pathOf {segments} (hpl : ∀ g ∈ segments, '/' ∉ g) :
    Ancestor a (pathOf segments) ↔ ∃ i, 0 < i ∧ i < segments.length ∧
      a = pathOf (segments.take i) := by
  induction segments generalizing a with
  | nil =>
    constructor
    · rintro ⟨_, s, same⟩
      simp [pathOf] at same
    · rintro ⟨i, _, hsh, _⟩
      exact absurd hsh (Nat.not_lt_zero i)
  | cons g gs ih =>
    constructor
    · rintro ⟨hn, s, same⟩
      cases a with
      | nil => exact absurd rfl hn
      | cons c a =>
        rw [pathOf_cons, cons_append, List.cons.injEq] at same
        obtain ⟨rfl, same⟩ := same
        obtain ⟨a', rfl, hr⟩ := split_segment (hpl g mem_cons_self) same.symm
        by_cases hh : a' = []
        · subst hh
          refine ⟨1, Nat.one_pos, ?_, by simp [pathOf]⟩
          have hm : gs ≠ [] := by
            rintro rfl
            simp [pathOf] at hr
          have := length_pos_of_ne_nil hm
          rw [length_cons]
          omega
        · obtain ⟨i, _, hsh, rfl⟩ :=
            (ih fun g' hl => hpl g' (mem_cons_of_mem g hl)).1 ⟨hh, s, hr.symm⟩
          refine ⟨i + 1, by omega, by rw [length_cons]; omega, ?_⟩
          rw [take_succ_cons, pathOf_cons]
    · rintro ⟨i, hp, hsh, rfl⟩
      obtain ⟨j, rfl⟩ : ∃ j, i = j + 1 := ⟨i - 1, by omega⟩
      refine ⟨by simp [pathOf_cons], ?_⟩
      have hl : gs.drop j ≠ [] := by
        rw [length_cons] at hsh
        simpa using by omega
      obtain ⟨g', gs', ht⟩ := exists_cons_of_ne_nil hl
      have hs : pathOf gs = pathOf (gs.take j) ++ '/' :: (g' ++ pathOf gs') := by
        rw [← pathOf_cons, ← ht, pathOf, pathOf, pathOf, ← flatMap_append, take_append_drop]
      exact ⟨g' ++ pathOf gs', by rw [take_succ_cons, pathOf_cons, pathOf_cons, hs]; simp⟩

/-- `path = p OR path LIKE p || '/%'`. -/
def inSubtree (p path : List Char) : Bool := path = p || like (p ++ ['/', '%']) path

lemma like_of_below (hb : Below p q) : like (p ++ ['/', '%']) q = true := by
  obtain ⟨s, rfl⟩ := hb
  exact (like_separated (by decide)).2 ⟨p, '/', s, rfl, like_self, .inr rfl⟩

lemma inSubtree_of_below (hb : Below p q) : inSubtree p q = true := by
  rw [inSubtree, Bool.or_eq_true]
  exact .inr (like_of_below hb)

/-- Whatever the pattern, with what is selected goes everything below it. -/
lemma inSubtree_below (hs : inSubtree p q = true) (hb : Below q s) : inSubtree p s = true := by
  obtain ⟨t, rfl⟩ := hb
  rw [inSubtree, Bool.or_eq_true, decide_eq_true_eq] at hs
  rcases hs with rfl | hm
  · exact inSubtree_of_below ⟨t, rfl⟩
  · obtain ⟨x, c, y, rfl, hf, hse⟩ := (like_separated (by decide)).1 hm
    rw [inSubtree, Bool.or_eq_true]
    exact .inr ((like_separated (by decide)).2 ⟨x, c, y ++ '/' :: t, by simp, hf, hse⟩)

/-- The characters of a path that `LIKE` takes literally. -/
def LiteralPath (p : List Char) : Prop := ∀ c ∈ p, Literal c

instance (p : List Char) : Decidable (LiteralPath p) := List.decidableBAll Literal p

lemma like_below_iff (hli : LiteralPath p) (hl : LiteralPath q) :
    like (p ++ ['/', '%']) q = true ↔ Below p q := by
  rw [like_separated (by decide)]
  constructor
  · rintro ⟨x, c, y, rfl, hf, hs⟩
    have hsl : c = '/' := by
      have hlo : c.toLower = c := (hl c (by simp)).2.2
      rcases hs with hi | same
      · exact absurd hi (by decide)
      · rw [hlo] at same
        exact same.symm.trans (by decide)
    have isP : p = x := eq_of_like hli (fun d inX => (hl d (mem_append_left _ inX)).2.2) hf
    exact ⟨y, by rw [hsl, isP]⟩
  · rintro ⟨t, rfl⟩
    exact ⟨p, '/', t, rfl, like_self, .inr rfl⟩

lemma inSubtree_iff (hli : LiteralPath p) (hl : LiteralPath q) :
    inSubtree p q = true ↔ q = p ∨ Below p q := by
  rw [inSubtree, Bool.or_eq_true, decide_eq_true_eq, like_below_iff hli hl]

end SlashPath
