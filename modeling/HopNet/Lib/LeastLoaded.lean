import Mathlib.Algebra.Order.BigOperators.Group.Finset
import Mathlib.Algebra.Group.Action.Defs
import Mathlib.Tactic.Ring

/-! Handing out items one at a time, each to an element that carries the least so far. -/

namespace LeastLoaded

open List Finset

variable {α : Type} [DecidableEq α] {s : Finset α} {loads : α → Nat} {picks : List α} {a b : α}

def IsLeast (s : Finset α) (loads : α → Nat) (a : α) : Prop :=
  a ∈ s ∧ ∀ b ∈ s, loads a ≤ loads b

/-- No element of `s` carries two more than another. -/
def Level (s : Finset α) (loads : α → Nat) : Prop :=
  ∀ a ∈ s, ∀ b ∈ s, loads a ≤ loads b + 1

def give (loads : α → Nat) (a : α) : α → Nat := Function.update loads a (loads a + 1)

/-- Each item goes to an element that carries the least in its turn. -/
def Greedy (s : Finset α) : (α → Nat) → List α → Prop
  | _, [] => True
  | loads, a :: rest => IsLeast s loads a ∧ Greedy s (give loads a) rest

lemma give_apply (loads : α → Nat) (a b : α) :
    give loads a b = loads b + if a = b then 1 else 0 := by
  by_cases hs : a = b
  · subst hs
    simp [give]
  · have ho : b ≠ a := fun hb => hs hb.symm
    simp [give, hs, ho]

lemma Level.give (hl : Level s loads) (hle : IsLeast s loads a) : Level s (give loads a) := by
  intro b inB c inC
  have ha := hl b inB c inC
  have low := hle.2 c inC
  rw [give_apply, give_apply]
  by_cases isB : a = b
  · subst isB
    split_ifs <;> omega
  · rw [if_neg isB]
    omega

/-- The loads after `picks` have been handed out. -/
lemma Greedy.level (hl : Level s loads) (hg : Greedy s loads picks) :
    Level s fun a => loads a + picks.count a := by
  induction picks generalizing loads with
  | nil => simpa using hl
  | cons a rest ih =>
    have ha := ih (hl.give hg.1) hg.2
    have hs : (fun b => LeastLoaded.give loads a b + rest.count b) =
        fun b => loads b + (a :: rest).count b := by
      funext b
      rw [give_apply, count_cons]
      simp only [beq_iff_eq]
      omega
    rwa [hs] at ha

lemma Greedy.take (hg : Greedy s loads picks) (k : Nat) : Greedy s loads (picks.take k) := by
  induction picks generalizing loads k with
  | nil => simpa using hg
  | cons a rest ih =>
    cases k with
    | zero => trivial
    | succ k => exact ⟨hg.1, ih hg.2 k⟩

lemma Greedy.mem (hg : Greedy s loads picks) : ∀ a ∈ picks, a ∈ s := by
  induction picks generalizing loads with
  | nil => simp
  | cons a rest ih =>
    intro b hp
    cases mem_cons.1 hp with
    | inl hf => exact hf ▸ hg.1.1
    | inr hl => exact ih hg.2 b hl

omit [DecidableEq α] in
/-- Level shares of `n` over `s` are the quotient, rounded down or up. -/
lemma Level.share {n : Nat} (level : Level s loads) (total : ∑ b ∈ s, loads b = n) (inS : a ∈ s) :
    loads a = n / s.card ∨ loads a = (n + s.card - 1) / s.card := by
  have upper : ∑ b ∈ s, loads b < ∑ _b ∈ s, (loads a + 1) :=
    sum_lt_sum (fun b inB => level b inB a inS) ⟨a, inS, Nat.lt_succ_self _⟩
  have lower : ∑ _b ∈ s, loads a < ∑ b ∈ s, (loads b + 1) :=
    sum_lt_sum (fun b inB => level a inS b inB) ⟨a, inS, Nat.lt_succ_self _⟩
  rw [sum_const, smul_eq_mul] at upper lower
  rw [sum_add_distrib, sum_const, smul_eq_mul, mul_one] at lower
  rw [total] at upper lower
  by_cases full : s.card * loads a ≤ n
  · left
    symm
    apply Nat.div_eq_of_lt_le <;> rwa [mul_comm]
  · right
    symm
    have expand : (loads a + 1) * s.card = s.card * loads a + s.card := by ring
    apply Nat.div_eq_of_lt_le
    · rw [mul_comm]
      omega
    · rw [expand]
      omega

/-- What each element of `s` has of a greedy list that starts from nothing. -/
lemma Greedy.share (hg : Greedy s (fun _ => 0) picks) (inS : a ∈ s) :
    picks.count a = picks.length / s.card ∨
    picks.count a = (picks.length + s.card - 1) / s.card := by
  have hl : Level s fun b => picks.count b := by
    have hs : Level s fun _ => 0 := fun _ _ _ _ => Nat.zero_le _
    simpa using hg.level hs
  have ht : ∑ b ∈ s, picks.count b = picks.length := by
    have sums := Multiset.sum_count_eq_card (s := s) (m := (picks : Multiset α)) hg.mem
    simpa using sums
  exact hl.share ht inS

lemma min?_perm {l l' : List Nat} (hp : l.Perm l') : l.min? = l'.min? := by
  cases hf : l.min? with
  | none =>
    have he := min?_eq_none_iff.1 hf
    subst he
    rw [nil_perm.1 hp]
    rfl
  | some m =>
    have hl := min?_eq_some_iff.1 hf
    symm
    refine min?_eq_some_iff.2 ⟨hp.mem_iff.1 hl.1, ?_⟩
    intro b inL
    exact hl.2 b (hp.mem_iff.2 inL)

end LeastLoaded
