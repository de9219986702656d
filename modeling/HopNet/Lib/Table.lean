import Mathlib.Algebra.Order.Ring.Nat
import Mathlib.Data.List.Induction
import Mathlib.Data.List.Nodup

/-! Tables as lists of rows with a key. -/

namespace Table

open List

section

variable {α κ : Type} {key : α → κ} {rows : List α} {row : α}

/-- What stays distinct when one row is added. -/
lemma nodup_map_append_singleton :
    ((rows ++ [row]).map key).Nodup ↔ (rows.map key).Nodup ∧ ∀ old ∈ rows, key old ≠ key row := by
  rw [map_append, map_singleton, nodup_append]
  simp

lemma map_key_map {change} (hk : ∀ row ∈ rows, key (change row) = key row) :
    (rows.map change).map key = rows.map key := by
  rw [map_map]
  exact map_congr_left hk

lemma filter_later_filter {p q : α → Prop} [DecidablePred p] [DecidablePred q]
    (hi : ∀ row ∈ rows, ¬ q row → ¬ p row) :
    (rows.filter fun row => q row).filter (fun row => p row) = rows.filter fun row => p row := by
  rw [filter_filter]
  refine filter_congr fun row hr => ?_
  by_cases hk : q row
  · simp [hk]
  · simp [hk, hi row hr hk]

end

variable {α κ : Type} [DecidableEq κ] (key : α → κ) (k : κ) (rows : List α)

def HasKey : Prop := ∃ row ∈ rows, key row = k

instance (k : κ) (rows : List α) : Decidable (HasKey key k rows) :=
  inferInstanceAs (Decidable (∃ row ∈ rows, _))

variable (row : α)

def insertOrIgnore (rows : List α) : List α :=
  if HasKey key (key row) rows then rows else rows ++ [row]

def insertOrReplace (rows : List α) : List α :=
  (rows.filter fun other => key other ≠ key row) ++ [row]

/-- `INSERT … ON CONFLICT DO UPDATE` of every other column. -/
def upsert (rows : List α) : List α :=
  if HasKey key (key row) rows then rows.map fun other => if key other = key row then row else other
  else rows ++ [row]

/-- `SELECT` of the row with a key. -/
def lookup : Option α := rows.find? fun row => key row = k

/-- `UPDATE` of the row with a key. -/
def modify (change : α → α) (rows : List α) : List α :=
  rows.map fun row => if key row = k then change row else row

/-- `DELETE` of the row with a key. -/
def delete : List α := rows.filter fun row => key row ≠ k

variable {key} {row other : α} {rows : List α} {writes : List α}

/-- Where keys differ, a lookup finds the row with the key. -/
lemma find?_of_mem {k} (hd : (rows.map key).Nodup) (ht : row ∈ rows) (hk : key row = k) :
    rows.find? (fun x => key x = k) = some row := by
  subst hk
  have hs : (rows.find? fun x => key x = key row).isSome :=
    find?_isSome.2 ⟨row, ht, decide_eq_true rfl⟩
  obtain ⟨found, hf⟩ := Option.isSome_iff_exists.1 hs
  have same : key found = key row := by simpa using find?_some hf
  rw [hf, inj_on_of_nodup_map hd (mem_of_find?_eq_some hf) ht same]

lemma mem_insertOrIgnore :
    other ∈ insertOrIgnore key row rows ↔ other ∈ rows ∨
    (other = row ∧ ¬ HasKey key (key row) rows) := by
  unfold insertOrIgnore
  split_ifs with hp <;> simp [hp]

lemma mem_insertOrReplace :
    other ∈ insertOrReplace key row rows ↔ (other ∈ rows ∧ key other ≠ key row) ∨ other = row := by
  simp [insertOrReplace]

lemma mem_upsert : other ∈ upsert key row rows ↔ (other ∈ rows ∧ key other ≠ key row) ∨
    other = row := by
  unfold upsert
  split_ifs with hp
  · simp only [mem_map]
    constructor
    · rintro ⟨old, hr, rfl⟩
      split_ifs with hs
      · exact .inr rfl
      · exact .inl ⟨hr, hs⟩
    · rintro (⟨hr, ha⟩ | rfl)
      · exact ⟨other, hr, if_neg ha⟩
      · obtain ⟨old, hr, hs⟩ := hp
        exact ⟨old, hr, if_pos hs⟩
  · rw [mem_append, mem_singleton]
    have ha : ∀ old ∈ rows, key old ≠ key row := fun old hr hs => hp ⟨old, hr, hs⟩
    constructor
    · rintro (hr | rfl)
      · exact .inl ⟨hr, ha other hr⟩
      · exact .inr rfl
    · rintro (⟨hr, _⟩ | rfl)
      · exact .inl hr
      · exact .inr rfl

def latest (key : α → κ) (k : κ) (writes : List α) : Option α :=
  writes.reverse.find? fun row => key row = k

lemma latest_append_singleton {k} :
    latest key k (writes ++ [row]) = if key row = k then some row else latest key k writes := by
  rw [latest, reverse_append, reverse_singleton, singleton_append, find?_cons]
  by_cases hs : key row = k
  · simp [hs]
  · simp [hs, latest]

lemma mem_of_latest {k} (hl : latest key k writes = some row) : row ∈ writes :=
  mem_reverse.1 (mem_of_find?_eq_some hl)

lemma latest_eq_none {k} : latest key k writes = none ↔ ∀ write ∈ writes, key write ≠ k := by
  simp [latest]

/-- Rows written one by one, each in the place of the row with its key. -/
lemma mem_foldl_write {write : α → List α → List α}
    (hw : ∀ {row rows other}, other ∈ write row rows ↔ (other ∈ rows ∧ key other ≠ key row) ∨
      other = row) :
    row ∈ writes.foldl (fun rows row => write row rows) rows ↔
      latest key (key row) writes = some row ∨
      (row ∈ rows ∧ latest key (key row) writes = none) := by
  induction writes using List.reverseRecOn with
  | nil => simp [latest]
  | append_singleton before new ih =>
    rw [foldl_append, foldl_cons, foldl_nil, hw, latest_append_singleton, ih]
    by_cases hs : key new = key row
    · rw [if_pos hs]
      constructor
      · rintro (⟨_, ha⟩ | rfl)
        · exact absurd hs.symm ha
        · exact .inl rfl
      · rintro (hn | ⟨_, hi⟩)
        · exact .inr (Option.some.inj hn).symm
        · cases hi
    · rw [if_neg hs]
      constructor
      · rintro (⟨hb, _⟩ | rfl)
        · exact hb
        · exact absurd rfl hs
      · exact fun hb => .inl ⟨hb, fun back => hs back.symm⟩

variable {k j : κ} {change : α → α}

lemma mem_of_lookup (hf : lookup key k rows = some row) : row ∈ rows := mem_of_find?_eq_some hf

lemma key_of_lookup (hf : lookup key k rows = some row) : key row = k := by
  simpa using find?_some hf

lemma lookup_cons :
    lookup key k (row :: rows) = if key row = k then some row else lookup key k rows := by
  rw [lookup, find?_cons]
  by_cases hs : key row = k
  · simp [hs]
  · simp [hs, lookup]

lemma lookup_eq_none : lookup key k rows = none ↔ ¬ HasKey key k rows := by
  simp [lookup, HasKey]

lemma lookup_append_singleton :
    lookup key k (rows ++ [row]) = (lookup key k rows).or
    (if key row = k then some row else none) := by
  have hl : lookup key k [row] = if key row = k then some row else none := lookup_cons
  rw [← hl, lookup, find?_append]
  rfl

lemma lookup_modify (hk : ∀ row, key row = k → key (change row) = k) :
    lookup key j (modify key k change rows) = if j = k then
    (lookup key k rows).map change else lookup key j rows := by
  induction rows with
  | nil => simp [lookup, modify]
  | cons first rest ih =>
    rw [modify, map_cons, ← modify, lookup_cons, ih, lookup_cons, lookup_cons]
    by_cases hh : key first = k
    · rw [if_pos hh, hk first hh, if_pos hh]
      by_cases hs : j = k
      · simp [hs]
      · simp [hs, Ne.symm hs, hh]
    · rw [if_neg hh, if_neg hh]
      by_cases hs : j = k
      · simp [hs, hh]
      · simp [hs]

lemma lookup_delete :
    lookup key j (delete key k rows) = if j = k then none else lookup key j rows := by
  induction rows with
  | nil => simp [lookup, delete]
  | cons first rest ih =>
    rw [delete, filter_cons, ← delete, lookup_cons]
    by_cases hh : key first = k
    · rw [if_neg (by simp [hh]), ih]
      by_cases hs : j = k
      · simp [hs]
      · simp [hs, Ne.symm hs, hh]
    · rw [if_pos (by simpa using hh), lookup_cons, ih]
      by_cases hs : j = k
      · simp [hs, hh]
      · simp [hs]

lemma lookup_map {change : α → α} (hk : ∀ row ∈ rows, key (change row) = key row) :
    lookup key k (rows.map change) = (lookup key k rows).map change := by
  induction rows with
  | nil => rfl
  | cons first rest ih =>
    rw [map_cons, lookup_cons, lookup_cons, hk first mem_cons_self,
      ih fun row hr => hk row (mem_cons_of_mem _ hr)]
    split_ifs <;> rfl

lemma map_key_modify (hk : ∀ row, key row = k → key (change row) = k) :
    (modify key k change rows).map key = rows.map key := by
  refine map_key_map fun row _ => ?_
  split_ifs with hh
  · rw [hk row hh, hh]
  · rfl

lemma modify_of_absent (ha : k ∉ rows.map key) : modify key k change rows = rows := by
  conv_rhs => rw [← map_id rows]
  refine map_congr_left fun row hr => if_neg fun hs => ha ?_
  exact mem_map.2 ⟨row, hr, hs⟩

lemma delete_of_absent (ha : k ∉ rows.map key) : delete key k rows = rows := by
  refine filter_eq_self.2 fun row hr => decide_eq_true fun hs => ha ?_
  exact mem_map.2 ⟨row, hr, hs⟩

lemma sum_modify (hd : (rows.map key).Nodup) (hf : lookup key k rows = some row)
    (weight : α → Nat) :
    ((modify key k change rows).map weight).sum + weight row = (rows.map weight).sum + weight
    (change row) := by
  induction rows with
  | nil => cases hf
  | cons first rest ih =>
    rw [lookup_cons] at hf
    rw [map_cons, nodup_cons] at hd
    rw [modify, map_cons, map_cons, sum_cons, ← modify, map_cons, sum_cons]
    by_cases hh : key first = k
    · rw [if_pos hh] at hf
      cases hf
      rw [if_pos hh, modify_of_absent (hh ▸ hd.1)]
      omega
    · rw [if_neg hh] at hf
      have ho := ih hd.2 hf
      rw [if_neg hh]
      omega

lemma sum_delete (hd : (rows.map key).Nodup) (hf : lookup key k rows = some row)
    (weight : α → Nat) :
    ((delete key k rows).map weight).sum + weight row = (rows.map weight).sum := by
  induction rows with
  | nil => cases hf
  | cons first rest ih =>
    rw [lookup_cons] at hf
    rw [map_cons, nodup_cons] at hd
    rw [delete, filter_cons, ← delete, map_cons, sum_cons]
    by_cases hh : key first = k
    · rw [if_pos hh] at hf
      cases hf
      rw [if_neg (by simp [hh]), delete_of_absent (hh ▸ hd.1)]
      omega
    · rw [if_neg hh] at hf
      have ho := ih hd.2 hf
      rw [if_pos (by simpa using hh), map_cons, sum_cons]
      omega

lemma countP_eq_sum (test : α → Bool) (rows : List α) :
    rows.countP test = (rows.map fun row => (test row).toNat).sum := by
  induction rows with
  | nil => rfl
  | cons first rest ih =>
    rw [countP_cons, map_cons, sum_cons, ih]
    cases test first <;> simp [Nat.add_comm]

lemma countP_modify (hd : (rows.map key).Nodup) (hf : lookup key k rows = some row)
    (test : α → Bool) :
    (modify key k change rows).countP test + (test row).toNat =
      rows.countP test + (test (change row)).toNat := by
  rw [countP_eq_sum, countP_eq_sum]
  exact sum_modify hd hf _

lemma countP_delete (hd : (rows.map key).Nodup) (hf : lookup key k rows = some row)
    (test : α → Bool) : (delete key k rows).countP test + (test row).toNat = rows.countP test := by
  rw [countP_eq_sum, countP_eq_sum]
  exact sum_delete hd hf _

end Table
