import Mathlib.Algebra.BigOperators.Group.List.Basic
import Mathlib.Algebra.Order.Monoid.Defs
import Mathlib.Data.List.MinMax
import Mathlib.Data.List.Sort

/-!
The first element of a list whose key is least or greatest in a linear order, and the elements with
the largest keys. -/

namespace Extremes

open List

variable {α β : Type} [LinearOrder β]

abbrev leastBy (key : α → β) (l : List α) : Option α := l.argmin key

abbrev greatestBy (key : α → β) (l : List α) : Option α := l.argmax key

/-- A minimum by a key that names its element ignores the list's order. -/
lemma leastBy_perm [DecidableEq α] {f g : α → β} (hi : Function.Injective g) {l l'} (hp : l.Perm l')
    (hs : ∀ a ∈ l, f a = g a) : leastBy f l = leastBy g l' := by
  cases hf : leastBy f l with
  | none =>
    have he := argmin_eq_none.1 hf
    subst he
    rw [nil_perm.1 hp]
    rfl
  | some m =>
    have hle := mem_argmin_iff.1 (Option.mem_def.2 hf)
    have hl : ∀ b ∈ l', g m ≤ g b := by
      intro b inL
      have ho := hp.mem_iff.2 inL
      rw [← hs m hle.1, ← hs b ho]
      exact hle.2.1 b ho
    symm
    refine mem_argmin_iff.2 ⟨hp.mem_iff.1 hle.1, hl, ?_⟩
    intro b inL hb
    rw [hi (le_antisymm (hl b inL) hb)]

/-- The elements of a list, those with the largest keys first. -/
def byLargest (key : α → β) (l : List α) : List α := l.insertionSort fun a b => key b ≤ key a

lemma pairwise_byLargest (key : α → β) (l : List α) :
    (byLargest key l).Pairwise fun a b => key b ≤ key a := by
  exact pairwise_insertionSort _ l

/-- An exchange: no choice of elements has a larger sum than as many of the largest. -/
lemma sum_le_sum_take [DecidableEq α] [AddCommMonoid β] [IsOrderedAddMonoid β] {key : α → β}
    {l : List α} (sorted : l.Pairwise fun a b => key b ≤ key a) {chosen} (hs : chosen <+~ l) :
    (chosen.map key).sum ≤ ((l.take chosen.length).map key).sum := by
  induction l generalizing chosen with
  | nil => simp [subperm_nil.1 hs]
  | cons a rest ih =>
    obtain ⟨largest, sorted⟩ := pairwise_cons.1 sorted
    cases chosen with
    | nil => simp
    | cons b others =>
      -- the largest element is chosen, or it takes the place of one that is
      have hr : (b :: others).erase a <+~ rest := by simpa using hs.erase a
      obtain ⟨c, left, hp, hc, hl⟩ : ∃ c left, (b :: others).Perm (c :: left) ∧ key c ≤ key a ∧
          left <+~ rest := by
        by_cases ha : a ∈ b :: others
        · exact ⟨a, _, perm_cons_erase ha, le_rfl, hr⟩
        · rw [erase_of_not_mem ha] at hr
          exact ⟨b, others, .refl _, largest b (hr.subset mem_cons_self),
            (sublist_cons_self b others).subperm.trans hr⟩
      have hlen : others.length = left.length := by simpa using hp.length_eq
      rw [(hp.map key).sum_eq, length_cons, hlen, take_succ_cons, map_cons, map_cons,
        sum_cons, sum_cons]
      exact add_le_add hc (ih sorted hl)

end Extremes
