import Mathlib.Data.List.MinMax
import Mathlib.Data.List.Pairwise

/-! Rows that take effect at a time. -/

namespace Timeline

open List

variable {ρ κ : Type} [DecidableEq κ] (key : ρ → κ) (time : ρ → Nat) (rows : List ρ)

/-- The primary key `(key, time)`. -/
def Keyed : Prop := rows.Pairwise fun a b => ¬ (key a = key b ∧ time a = time b)

/-- `r` is in effect at `h` and no row of its key took effect later. -/
def IsLatest (h : Nat) (r : ρ) : Prop :=
  time r ≤ h ∧ ∀ r' ∈ rows, key r' = key r → time r' ≤ h → time r' ≤ time r

instance (rows : List ρ) (h : Nat) (r : ρ) : Decidable (IsLatest key time rows h r) :=
  inferInstanceAs (Decidable (_ ∧ _))

/-- The row of `k` that counts at `h`. -/
def latest (k : κ) (h : Nat) : Option ρ :=
  (rows.filter fun r => key r = k ∧ time r ≤ h).argmax time

variable {key time} {rows new : List ρ} {k : κ} {h h' : Nat} {r : ρ}

omit [DecidableEq κ] in
lemma Keyed.eq_of_same (keyed : Keyed key time rows) {a b} (inA : a ∈ rows) (inB : b ∈ rows)
    (sameKey : key a = key b) (sameTime : time a = time b) : a = b := by
  by_contra apart
  have symmetric : Std.Symm fun a b : ρ => ¬ (key a = key b ∧ time a = time b) :=
    ⟨fun a b distinct same => distinct ⟨same.1.symm, same.2.symm⟩⟩
  exact (List.Pairwise.forall keyed inA inB apart) ⟨sameKey, sameTime⟩

lemma latest_mem (hf : latest key time rows k h = some r) :
    r ∈ rows ∧ key r = k ∧ IsLatest key time rows h r := by
  have hm := argmax_mem (f := time) (Option.mem_def.2 hf)
  simp only [mem_filter, decide_eq_true_eq] at hm
  refine ⟨hm.1, hm.2.1, hm.2.2, fun r' hr hs he => ?_⟩
  refine le_of_mem_argmax (f := time) (m := r) (l := rows.filter _) ?_ hf
  simp only [mem_filter, decide_eq_true_eq]
  exact ⟨hr, hs.trans hm.2.1, he⟩

lemma latest_isSome_of_mem (hr : r ∈ rows) (hk : key r = k) (he : time r ≤ h) :
    ∃ r', latest key time rows k h = some r' := by
  cases hf : latest key time rows k h with
  | some r' => exact ⟨r', rfl⟩
  | none =>
    have hem := argmax_eq_none.1 hf
    have hm : r ∈ rows.filter fun r => key r = k ∧ time r ≤ h := by
      simp [mem_filter, hr, hk, he]
    rw [hem] at hm
    cases hm

lemma latest_of_mem (hke : Keyed key time rows) (hr : r ∈ rows) (hk : key r = k)
    (hl : IsLatest key time rows h r) : latest key time rows k h = some r := by
  obtain ⟨he, last⟩ := hl
  obtain ⟨r', hf⟩ := latest_isSome_of_mem hr hk he
  obtain ⟨hr', hk', he', hl'⟩ := latest_mem hf
  have hs : key r' = key r := hk'.trans hk.symm
  have hst : time r' = time r :=
    le_antisymm (last r' hr' hs he') (hl' r hr hs.symm he)
  rw [hf, hke.eq_of_same hr' hr hs hst]

lemma latest_append_of_ne (ho : ∀ r ∈ new, key r ≠ k) :
    latest key time (rows ++ new) k h = latest key time rows k h := by
  have none : new.filter (fun r => key r = k ∧ time r ≤ h) = [] :=
    filter_eq_nil_iff.2 fun r hn => by simp [ho r hn]
  rw [latest, filter_append, none, append_nil, latest]

/-- Once every row is in effect, time no longer matters. -/
lemma latest_eq_of_le (hb : ∀ r ∈ rows, time r ≤ h) (hb' : ∀ r ∈ rows, time r ≤ h') :
    latest key time rows k h = latest key time rows k h' := by
  have hs : rows.filter (fun r => key r = k ∧ time r ≤ h) =
      rows.filter (fun r => key r = k ∧ time r ≤ h') :=
    filter_congr fun r hr => by simp [hb r hr, hb' r hr]
  rw [latest, hs, latest]

/-- A row written after all others of its key counts from then on. -/
lemma latest_append_new (hk : Keyed key time (rows ++ new)) (hn : r ∈ new) (he : time r ≤ h)
    (hl : ∀ r' ∈ rows ++ new, key r' = key r → time r' ≤ time r) :
    latest key time (rows ++ new) (key r) h = some r :=
  latest_of_mem hk (mem_append_right rows hn) rfl ⟨he, fun r' hr hs _ => hl r' hr hs⟩

end Timeline
