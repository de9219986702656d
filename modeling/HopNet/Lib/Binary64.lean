import Mathlib.Algebra.Order.Ring.Int
import Mathlib.Algebra.Order.Ring.Nat

/-! Bit patterns of IEEE 754 double precision numbers. -/

namespace Binary64

variable (bits : BitVec 64)

def exponent : Nat := bits.toNat / 2 ^ 52 % 2 ^ 11

def fraction : Nat := bits.toNat % 2 ^ 52

def IsNan : Prop := exponent bits = 2047 ∧ fraction bits ≠ 0
deriving Decidable

def IsZero : Prop := exponent bits = 0 ∧ fraction bits = 0
deriving Decidable

/-- The absolute value, times `2 ^ 1074`; infinity is the first power of two above. -/
def magnitude : Nat :=
  if exponent bits = 0 then fraction bits else (2 ^ 52 + fraction bits) * 2 ^ (exponent bits - 1)

def scaled : Int := if bits.msb then -(magnitude bits : Int) else magnitude bits

/-- An integer in the same unit. -/
def scaledInt (n : Int) : Int := n * (2 ^ 1074 : Nat)

/-- Negative zero becomes zero. -/
def canonical : BitVec 64 := if IsZero bits then 0 else bits

variable {bits}

lemma isZero_zero : IsZero 0 := by decide

lemma not_isNan_zero : ¬ IsNan 0 := by decide

lemma magnitude_of_isZero (hz : IsZero bits) : magnitude bits = 0 := by
  rw [magnitude, if_pos hz.1, hz.2]

lemma scaled_of_isZero (hz : IsZero bits) : scaled bits = 0 := by
  rw [scaled, magnitude_of_isZero hz]
  simp

@[simp] lemma scaled_canonical : scaled (canonical bits) = scaled bits := by
  by_cases hz : IsZero bits
  · rw [canonical, if_pos hz, scaled_of_isZero hz, scaled_of_isZero isZero_zero]
  · rw [canonical, if_neg hz]

@[simp] lemma canonical_canonical : canonical (canonical bits) = canonical bits := by
  by_cases hz : IsZero bits
  · rw [canonical, canonical, if_pos hz, if_pos isZero_zero]
  · rw [canonical, canonical, if_neg hz, if_neg hz]

lemma not_isNan_canonical (hn : ¬ IsNan bits) : ¬ IsNan (canonical bits) := by
  by_cases hz : IsZero bits
  · rw [canonical, if_pos hz]
    exact not_isNan_zero
  · rwa [canonical, if_neg hz]

end Binary64
