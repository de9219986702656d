import Mathlib.Data.List.Nodup

/-! Lookups in a list of keyed values. -/

namespace Assoc

open List

variable {κ β : Type} [DecidableEq κ] {k : κ} {v : β} {entries : List (κ × β)}

lemma mem_of_lookup (hf : entries.lookup k = some v) : (k, v) ∈ entries := by
  obtain ⟨before, after, hs, _⟩ := lookup_eq_some_iff.1 hf
  rw [hs]
  simp

lemma lookup_of_mem_keys (hk : k ∈ entries.map (·.1)) : ∃ v, entries.lookup k = some v := by
  obtain ⟨entry, he, hn⟩ := mem_map.1 hk
  have hf : (entries.lookup k).isSome := lookup_isSome_iff.2 ⟨entry, he, by simp [hn]⟩
  exact Option.isSome_iff_exists.1 hf

lemma lookup_of_mem (hd : (entries.map (·.1)).Nodup) (he : (k, v) ∈ entries) :
    entries.lookup k = some v := by
  obtain ⟨w, hf⟩ := lookup_of_mem_keys (mem_map_of_mem he)
  have hs := inj_on_of_nodup_map hd (mem_of_lookup hf) he rfl
  rw [hf, (Prod.mk.inj hs).2]

/-- Changes the value of a key, which is added at the end if it is new. -/
def upsert (k : κ) (change : Option β → β) : List (κ × β) → List (κ × β)
  | [] => [(k, change none)]
  | (j, v) :: rest => if j = k then (j, change (some v)) :: rest else (j, v) :: upsert k change rest

lemma upsert_of_new {change : Option β → β} (new : k ∉ entries.map (·.1)) :
    upsert k change entries = entries ++ [(k, change none)] := by
  induction entries with
  | nil => rfl
  | cons entry rest ih =>
    rw [map_cons, mem_cons, not_or] at new
    rw [upsert, if_neg fun hs => new.1 hs.symm, ih new.2, cons_append]

lemma lookup_cons_ite (j i : κ) (v : β) (rest : List (κ × β)) :
    ((i, v) :: rest).lookup j = if j = i then some v else rest.lookup j := by
  by_cases hs : j = i
  · rw [hs, lookup_cons_self, if_pos rfl]
  · have hu : (j == i) = false := beq_false_of_ne hs
    rw [lookup_cons, hu, if_neg hs]

lemma lookup_upsert (change : Option β → β) (j : κ) : (upsert k change entries).lookup j =
    if j = k then some (change (entries.lookup k)) else entries.lookup j := by
  induction entries with
  | nil => exact lookup_cons_ite j k (change none) []
  | cons entry rest ih =>
    obtain ⟨i, v⟩ := entry
    by_cases hh : i = k
    · rw [upsert, if_pos hh, lookup_cons_ite, lookup_cons_ite, lookup_cons_ite,
        if_pos hh.symm, hh]
      by_cases hs : j = k
      · rw [if_pos hs, if_pos hs]
      · rw [if_neg hs, if_neg hs, if_neg hs]
    · have ha : ¬ k = i := fun hs => hh hs.symm
      rw [upsert, if_neg hh, lookup_cons_ite, lookup_cons_ite, lookup_cons_ite, if_neg ha, ih]
      by_cases hs : j = i
      · have ho : ¬ j = k := fun isK => hh (hs.symm.trans isK)
        rw [if_pos hs, if_pos hs, if_neg ho]
      · rw [if_neg hs, if_neg hs]

lemma keys_upsert (change : Option β → β) : (upsert k change entries).map (·.1) =
    if k ∈ entries.map (·.1) then entries.map (·.1) else entries.map (·.1) ++ [k] := by
  induction entries with
  | nil => rfl
  | cons entry rest ih =>
    by_cases hh : entry.1 = k
    · rw [upsert, if_pos hh, if_pos (by simp [hh])]
      rfl
    · have ha : ¬ k = entry.1 := fun hs => hh hs.symm
      rw [upsert, if_neg hh, map_cons, ih]
      by_cases hl : k ∈ rest.map (·.1)
      · rw [if_pos hl, map_cons, if_pos (mem_cons_of_mem _ hl)]
      · rw [if_neg hl, if_neg (by simpa [ha] using hl)]
        rfl

end Assoc
