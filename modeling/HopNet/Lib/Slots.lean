import Mathlib.Data.List.Basic

/-! A list as numbered slots, such as the threads or the objects of a machine. -/

namespace Slots

open List

variable {α : Type} {slots : List α} {i j : Nat} {old new : α}

lemma set_cases (hf : (slots.set i new)[j]? = some old) :
    (j = i ∧ old = new) ∨ (j ≠ i ∧ slots[j]? = some old) := by
  by_cases hs : i = j
  · subst hs
    rw [getElem?_set_self'] at hf
    cases hb : slots[i]? with
    | none =>
      rw [hb] at hf
      cases hf
    | some _ =>
      rw [hb] at hf
      cases hf
      exact .inl ⟨rfl, rfl⟩
  · rw [getElem?_set_ne hs] at hf
    exact .inr ⟨Ne.symm hs, hf⟩

lemma append_cases (hf : (slots ++ [new])[j]? = some old) :
    slots[j]? = some old ∨ (j = slots.length ∧ old = new) := by
  rw [getElem?_append] at hf
  split_ifs at hf with hb
  · exact .inl hf
  · rw [getElem?_singleton] at hf
    split_ifs at hf with hfi
    cases hf
    exact .inr ⟨by omega, rfl⟩

lemma lt_length (hf : slots[i]? = some old) : i < slots.length := (List.getElem?_eq_some_iff.1 hf).1

lemma set_here (hf : slots[i]? = some old) : (slots.set i new)[i]? = some new :=
  getElem?_set_self (lt_length hf)

/-- What becomes of a slot when another or the same is set. -/
lemma set_of (new : α) {was : α} (hf : slots[i]? = some old) (hw : slots[j]? = some was) :
    (j = i ∧ was = old ∧ (slots.set i new)[j]? = some new) ∨ (slots.set i new)[j]? = some was := by
  by_cases hs : i = j
  · subst hs
    exact .inl ⟨rfl, Option.some.inj (hw.symm.trans hf), set_here hf⟩
  · exact .inr ((getElem?_set_ne hs).trans hw)

end Slots
