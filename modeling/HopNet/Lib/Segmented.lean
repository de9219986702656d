import Mathlib.Algebra.Order.Ring.Nat
import Mathlib.Data.List.Basic

/-! A message sealed segment by segment. -/

namespace Segmented

open List Nat

variable {α ε : Type}

/-- How a segment is sealed and opened at a position, the last or not. -/
structure Scheme (α ε : Type) where
  size : Nat
  overhead : Nat
  sealOne : Nat → Bool → List α → Except ε (List α)
  openOne : Nat → Bool → List α → Except ε (List α)

namespace Scheme

variable (s : Scheme α ε)

/-- Seals full segments while more than one is left, then the last. -/
def sealFrom (position : Nat) (message : List α) : Except ε (List α) :=
  if 0 < s.size ∧ s.size < message.length then do
    let first ← s.sealOne position false (message.take s.size)
    let others ← sealFrom (position + 1) (message.drop s.size)
    return first ++ others
  else if message = [] then .ok []
  else s.sealOne position true message
termination_by message.length
decreasing_by
  simp only [length_drop]
  omega

/-- Opens full segments while more than one is left, then the last. -/
def openFrom (position : Nat) (sealed : List α) : Except ε (List α) :=
  if 0 < s.size ∧ s.size + s.overhead < sealed.length then do
    let first ← s.openOne position false (sealed.take (s.size + s.overhead))
    let others ← openFrom (position + 1) (sealed.drop (s.size + s.overhead))
    return first ++ others
  else if sealed = [] then .ok []
  else s.openOne position true sealed
termination_by sealed.length
decreasing_by
  simp only [length_drop]
  omega

/-- Up to `limit` positions a segment seals, grows by the overhead, and opens at its position and
flag. -/
structure Lawful (limit : Nat) : Prop where
  positive : 0 < s.size
  one : ∀ position last segment, position < limit → segment.length ≤ s.size →
    ∃ sealed, s.sealOne position last segment = .ok sealed ∧
      sealed.length = segment.length + s.overhead ∧
      s.openOne position last sealed = .ok segment

def sealedLength (length : Nat) : Nat := length + (length + s.size - 1) / s.size * s.overhead

lemma sealedLength_of_lt {length} (hp : 0 < s.size) (hm : s.size < length) :
    s.sealedLength length = s.size + s.overhead + s.sealedLength (length - s.size) := by
  have hs : (length + s.size - 1) / s.size = (length - s.size + s.size - 1) / s.size + 1 := by
    rw [← add_div_right _ hp]
    congr 1
    omega
  unfold sealedLength
  rw [hs, succ_mul]
  omega

lemma sealedLength_of_le {length} (hso : 0 < length) (one : length ≤ s.size) :
    s.sealedLength length = length + s.overhead := by
  have hs : (length + s.size - 1) / s.size = 1 := by
    rw [Nat.div_eq_iff (by omega)]
    omega
  rw [sealedLength, hs, one_mul]

variable {s}

/-- A message that fits seals, to a length its own determines, and opens again. -/
lemma Lawful.open_seal {limit} (hla : s.Lawful limit) (message : List α) (position : Nat)
    (hse : message ≠ []) (hf : position + (message.length - 1) / s.size < limit) :
    ∃ sealed, s.sealFrom position message = .ok sealed ∧
      sealed.length = s.sealedLength message.length ∧ s.openFrom position sealed = .ok message := by
  induction hn : message.length using Nat.strongRecOn generalizing message position with
  | _ length ih =>
    subst hn
    have hp := hla.positive
    have hle := length_pos_of_ne_nil hse
    have hli : position < limit := lt_of_le_of_lt (le_add_right _ _) hf
    by_cases hm : s.size < message.length
    · -- One full segment, and a rest that is not empty.
      obtain ⟨first, hsf, hl, hof⟩ :=
        hla.one position false (message.take s.size) hli (length_take_le _ _)
      have hr : message.drop s.size ≠ [] := by
        rw [Ne, drop_eq_nil_iff]
        omega
      have hc : (message.length - 1) / s.size =
          (message.length - s.size - 1) / s.size + 1 := by
        rw [← add_div_right _ hp]
        congr 1
        omega
      obtain ⟨others, hs, hlo, ho⟩ :=
        ih (message.drop s.size).length (by rw [length_drop]; omega) (message.drop s.size)
          (position + 1) hr (by rw [length_drop]; omega) rfl
      rw [length_take, min_eq_left (by omega)] at hl
      rw [length_drop] at hlo
      have hos : 0 < others.length := by
        rw [hlo, sealedLength]
        omega
      refine ⟨first ++ others, ?_, ?_, ?_⟩
      · rw [sealFrom, if_pos ⟨hp, hm⟩, hsf, hs]
        rfl
      · rw [length_append, hl, hlo, s.sealedLength_of_lt hp hm]
      · rw [openFrom, if_pos ⟨hp, by rw [length_append]; omega⟩,
          take_left' hl, drop_left' hl, hof, ho]
        show Except.ok (List.take _ _ ++ List.drop _ _) = _
        rw [take_append_drop]
    · obtain ⟨sealed, hso, hls, hop⟩ :=
        hla.one position true message hli (by omega)
      refine ⟨sealed, ?_, ?_, ?_⟩
      · rw [sealFrom, if_neg (by omega), if_neg hse, hso]
      · rw [hls, s.sealedLength_of_le hle (by omega)]
      · have hss : sealed ≠ [] := ne_nil_of_length_pos (by omega)
        rw [openFrom, if_neg (by omega), if_neg hss, hop]

end Scheme

end Segmented
