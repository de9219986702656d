import Mathlib.Data.Nat.Basic

namespace HopNet

/-- The mesh's fault model. `auto` is majority below `vBft` members, Byzantine from there. -/
inductive QuorumProfile where
  | bft
  | majority
  | auto
deriving DecidableEq

/-- A fraction of the voting power that has to be exceeded. -/
structure ThresholdParam where
  numerator : Nat
  denominator : Nat

namespace ThresholdParam

def isMet (t : ThresholdParam) (power total : Nat) : Bool :=
  decide (total * t.numerator < power * t.denominator)

def minExpected (t : ThresholdParam) (total : Nat) : Nat :=
  1 + total * t.numerator / t.denominator

end ThresholdParam

structure ThresholdParams where
  quorum : ThresholdParam
  honest : ThresholdParam

def ThresholdParams.default : ThresholdParams := ⟨⟨2, 3⟩, ⟨1, 3⟩⟩

def vBft : Nat := 7

namespace QuorumProfile

variable (profile : QuorumProfile) (v : Nat)

/-- The profile in force at `v` members, never `auto`. -/
def profileAt : QuorumProfile :=
  match profile with
  | .auto => if vBft ≤ v then .bft else .majority
  | other => other

def quorum : Nat :=
  match profile.profileAt v with
  | .bft => v * 2 / 3 + 1
  | .majority => v / 2 + 1
  | .auto => 0

def fEq : Nat :=
  match profile.profileAt v with
  | .bft => (v - 1) / 3
  | .majority => 0
  | .auto => 0

def parse (s : String) : Option QuorumProfile :=
  if s = "bft" then some .bft
  else if s = "majority" then some .majority
  else if s = "auto" then some .auto
  else none

def thresholdsFor : ThresholdParams :=
  match profile.profileAt v with
  | .bft => .default
  | .majority => ⟨⟨1, 2⟩, ⟨1, 2⟩⟩
  | .auto => .default

/-- The `auto` arms of `quorum`, `fEq` and `thresholdsFor` are `unreachable!()`. -/
lemma profileAt_ne_auto : profile.profileAt v ≠ .auto := by
  cases profile with
  | bft | majority => simp [profileAt]
  | auto => unfold profileAt; dsimp only; split <;> simp

lemma profileAt_cases : profile.profileAt v = .bft ∨ profile.profileAt v = .majority := by
  cases hr : profile.profileAt v with
  | bft => exact .inl rfl
  | majority => exact .inr rfl
  | auto => exact absurd hr (profile.profileAt_ne_auto v)

/-- `quorum v` is the smallest number of votes that meets the threshold. -/
lemma isMet_iff_quorum_le (votes : Nat) :
    (profile.thresholdsFor v).quorum.isMet votes v = true ↔ profile.quorum v ≤ votes := by
  unfold thresholdsFor quorum
  rcases profile.profileAt_cases v with hr | hr
  · simp only [hr, ThresholdParams.default, ThresholdParam.isMet, decide_eq_true_eq]
    omega
  · simp only [hr, ThresholdParam.isMet, decide_eq_true_eq]
    omega

/-- Two quorums of one set overlap in more than the tolerated equivocators. -/
lemma fEq_lt_overlap {v : Nat} (hp : 0 < v) :
    profile.fEq v + 1 + v ≤ profile.quorum v + profile.quorum v := by
  unfold fEq quorum
  rcases profile.profileAt_cases v with hr | hr
  · simp only [hr]
    omega
  · simp only [hr]
    omega

end QuorumProfile

end HopNet
