import Mathlib.Algebra.BigOperators.Ring.Finset
import Mathlib.Algebra.Group.Action.Defs
import Mathlib.Algebra.Order.BigOperators.Group.Finset
import Mathlib.Tactic.Ring
import HopNet.Quorum

/-! The watermark of a chunk: how many live classes let it through the largest burst that consensus
survives. -/

namespace HopNet

open Finset

structure WatermarkParams where
  k : Nat
  n : Nat
  bMax : Nat
  sigma : Nat
  epsilon : Nat

def divCeil (n v : Nat) : Nat := (n + v - 1) / v

def burst (v : Nat) (profile : QuorumProfile) (p : WatermarkParams) : Nat :=
  min (v - profile.quorum v) p.bMax

def advMax (n v b : Nat) : Nat :=
  let c := divCeil n v
  let f := n - v * (c - 1)
  min b f * c + (b - f) * (c - 1)

def watermarkWith (v : Nat) (profile : QuorumProfile) (p : WatermarkParams) : Nat :=
  if v = 0 then p.k + p.epsilon
  else
    let b := burst v profile p
    p.k + min (divCeil (b * p.n) v + p.sigma) (advMax p.n v b) + p.epsilon

variable {n v b : Nat}

/-- The classes of some members. -/
def owned (owner : Fin n → Fin v) (members : Finset (Fin v)) : Nat :=
  (univ.filter (owner · ∈ members)).card

def Balanced (owner : Fin n → Fin v) : Prop :=
  ∀ m, owned owner {m} = n / v ∨ owned owner {m} = divCeil n v

/-- Every member has `d` classes, and `f` of them one more. -/
lemma exists_share (hv : 1 ≤ v) (hn : 1 ≤ n) :
    ∃ d f, divCeil n v = d + 1 ∧ n = v * d + f ∧ 1 ≤ f ∧ f ≤ v := by
  refine ⟨(n - 1) / v, (n - 1) % v + 1, ?_, ?_, by omega, Nat.mod_lt _ hv⟩
  · rw [divCeil, show n + v - 1 = n - 1 + v by omega, Nat.add_div_right _ hv]
  · have := Nat.div_add_mod (n - 1) v
    omega

lemma advMax_eq {d f} (hd : divCeil n v = d + 1) (hf : n = v * d + f) :
    advMax n v b = b * d + min b f := by
  have hs : n - v * d = f := by omega
  simp only [advMax, hd, Nat.add_sub_cancel, hs]
  rcases Nat.le_total b f with hle | hle
  · rw [Nat.min_eq_left hle, Nat.sub_eq_zero_of_le hle]
    ring
  · rw [Nat.min_eq_right hle]
    obtain ⟨k, rfl⟩ := Nat.exists_eq_add_of_le hle
    rw [Nat.add_sub_cancel_left]
    ring

lemma owned_eq_sum (owner : Fin n → Fin v) (members : Finset (Fin v)) :
    owned owner members = ∑ m ∈ members, owned owner {m} := by
  rw [owned, card_eq_sum_card_fiberwise (f := owner) (t := members) (by simp [Set.MapsTo])]
  refine sum_congr rfl fun m hm => ?_
  congr 1
  ext i
  simp +contextual [hm]

lemma isGreatest_owned (hv : 1 ≤ v) (hn : 1 ≤ n) (hb : b ≤ v) {owner : Fin n → Fin v}
    (hbal : Balanced owner) :
    IsGreatest {m | ∃ members : Finset (Fin v), members.card = b ∧ owned owner members = m}
    (advMax n v b) := by
  obtain ⟨d, f, hd, hf, hpos, hle⟩ := exists_share hv hn
  let heavy := univ.filter fun m => owned owner {m} = d + 1
  have hone : ∀ m, owned owner {m} = d + if m ∈ heavy then 1 else 0 := by
    intro m
    have hdiv : n / v = d + f / v := by rw [hf, Nat.mul_add_div hv]
    have hone : f / v ≤ 1 := Nat.div_le_of_le_mul (by omega)
    generalize f / v = extra at hdiv hone
    have hm := hbal m
    simp only [heavy, mem_filter, mem_univ, true_and]
    split_ifs <;> omega
  have hsum : ∀ members : Finset (Fin v),
      owned owner members = members.card * d + (members ∩ heavy).card := by
    intro members
    rw [owned_eq_sum, sum_congr rfl fun m _ => hone m, sum_add_distrib, sum_const, smul_eq_mul,
      sum_boole, filter_mem_eq_inter]
    rfl
  have hcard : heavy.card = f := by
    have := hsum univ
    rw [univ_inter, card_univ, Fintype.card_fin, owned] at this
    simp at this
    omega
  rw [advMax_eq hd hf]
  constructor
  · obtain ⟨members, hc, hi⟩ : ∃ members : Finset (Fin v), members.card = b ∧
        (members ∩ heavy).card = min b f := by
      rcases Nat.le_total b f with hle | hle
      · obtain ⟨members, hsub, hc⟩ := exists_subset_card_eq (hcard ▸ hle)
        exact ⟨members, hc, by rw [inter_eq_left.2 hsub, hc, Nat.min_eq_left hle]⟩
      · obtain ⟨members, hsub, _, hc⟩ := exists_subsuperset_card_eq heavy.subset_univ (hcard ▸ hle)
          (by simpa using hb)
        exact ⟨members, hc, by rw [inter_eq_right.2 hsub, hcard, Nat.min_eq_right hle]⟩
    exact ⟨members, hc, by rw [hsum, hc, hi]⟩
  · rintro _ ⟨members, hc, rfl⟩
    rw [hsum, hc]
    have h1 := card_le_card (inter_subset_left : members ∩ heavy ⊆ members)
    have h2 := card_le_card (inter_subset_right : members ∩ heavy ⊆ heavy)
    omega

lemma divCeil_le (hv : 1 ≤ v) {a b : Nat} (hle : a ≤ b) : divCeil a v ≤ divCeil b v :=
  Nat.div_le_div_right (by omega)

/-- The watermark leaves a chunk `k + epsilon` classes after the worst burst. -/
theorem watermark_bounds_burst (profile : QuorumProfile) (p : WatermarkParams) (hv : 1 ≤ v)
    (hn : 1 ≤ p.n) :
    (1 ≤ divCeil p.n v ∧ v * (divCeil p.n v - 1) ≤ p.n) ∧
    (∀ owner : Fin p.n → Fin v, Balanced owner →
      IsGreatest {m | ∃ members : Finset (Fin v), members.card = burst v profile p ∧
        owned owner members = m}
        (advMax p.n v (burst v profile p)) ∧
      (advMax p.n v (burst v profile p) - divCeil (burst v profile p * p.n) v ≤ p.sigma →
        ∀ (live : Finset (Fin p.n)) (lost : Finset (Fin v)), watermarkWith v profile p ≤ live.card →
          lost.card = burst v profile p → p.k + p.epsilon ≤ (live.filter (owner · ∉ lost)).card)) ∧
    (1 ≤ burst v profile p → p.k + divCeil p.n v ≤ watermarkWith v profile p) := by
  have hb : burst v profile p ≤ v := (Nat.min_le_left ..).trans (Nat.sub_le ..)
  obtain ⟨d, f, hd, hf, hpos, hle⟩ := exists_share hv hn
  have hw : watermarkWith v profile p = p.k + min (divCeil (burst v profile p * p.n) v + p.sigma)
      (advMax p.n v (burst v profile p)) + p.epsilon := if_neg (by omega)
  refine ⟨⟨by omega, by rw [hd, Nat.add_sub_cancel]; omega⟩, fun owner hbal => ?_, fun hone => ?_⟩
  · have hg := isGreatest_owned hv hn hb hbal
    refine ⟨hg, fun hs live lost hl hc => ?_⟩
    have hlost := hg.2 ⟨lost, hc, rfl⟩
    have hsplit := card_filter_add_card_filter_not (s := live) (owner · ∈ lost)
    have hsub : (live.filter (owner · ∈ lost)).card ≤ owned owner lost :=
      card_le_card (filter_subset_filter _ (subset_univ _))
    omega
  · have hc := divCeil_le hv (Nat.le_mul_of_pos_left p.n hone)
    have ha : d + 1 ≤ advMax p.n v (burst v profile p) := by
      rw [advMax_eq hd hf]
      have := Nat.le_mul_of_pos_left d hone
      omega
    omega

/-- Thirty classes dealt out to five members. -/
def dealt (i : Fin 30) : Fin 5 := ⟨i % 5, by omega⟩

theorem watermark_bounds_five : watermarkWith 5 .auto ⟨10, 30, 5, 1, 0⟩ = 22 ∧
    (∃ lost : Finset (Fin 5), lost.card = 2 ∧ owned dealt lost = 12) ∧
    ∀ (live : Finset (Fin 30)) (lost : Finset (Fin 5)), 22 ≤ live.card → lost.card = 2 →
      10 ≤ (live.filter (dealt · ∉ lost)).card := by
  have hbal : Balanced dealt := by unfold Balanced; decide
  obtain ⟨-, howned, -⟩ := watermark_bounds_burst (v := 5) .auto ⟨10, 30, 5, 1, 0⟩ (by decide)
    (by decide)
  obtain ⟨⟨hworst, -⟩, hleft⟩ := howned dealt hbal
  exact ⟨by decide, hworst, hleft (by decide)⟩

end HopNet
