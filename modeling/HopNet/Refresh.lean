import HopNet.Lifecycle

/-! The refresh of attestations: a rotation of the sweep leaves out the fragments whose stamp is
fresh. -/

namespace HopNet

/-- A node's own row on a fragment, as the sweep reads it. -/
structure InventoryStamp where
  verifiedHeight : Option Nat
  provenance : Option Nat
  suspect : Bool

def InventoryRow.stamp (row : InventoryRow) : InventoryStamp :=
  ⟨row.verifiedHeight.map heightFromDb, row.provenance, row.suspect⟩

inductive RefreshDue where
  | flags
  | age
  | cap
  | no
deriving DecidableEq

structure RefreshPolicy where
  threshold : Nat
  jitterHeights : Nat
  maxAgeSecs : Nat
  capJitterSecs : Nat

structure RefreshJitter where
  height : UInt64
  cap : UInt64

def refreshMarginHeights : Nat := 512

def refreshMaxAgeSecs : Nat := 86400

def refreshRotationFloorHeights : Nat := 2700

/-- `saturating_mul` and `saturating_add` cut here. -/
def saturated (n : Nat) : Nat := min n (2 ^ 64 - 1)

def RefreshPolicy.forRotation (window rotationHeights : UInt64) : RefreshPolicy :=
  let rotationHeights := max rotationHeights.toNat refreshRotationFloorHeights
  let budget := saturated (saturated (rotationHeights * 2) + refreshMarginHeights)
  let threshold := window.toNat - budget
  ⟨threshold, threshold / 4, refreshMaxAgeSecs, refreshMaxAgeSecs / 4⟩

def jitterOffset (span : Nat) (jitter : UInt64) : Nat := span * jitter.toNat / 2 ^ 64

def refreshDue (stamp : Option InventoryStamp) (height : Nat) (wallAgeSecs : Option Nat)
    (jitter : RefreshJitter) (policy : RefreshPolicy) : RefreshDue :=
  match stamp with
  | none => .flags
  | some stamp =>
    match stamp.verifiedHeight with
    | none => .flags
    | some verified =>
      if stamp.suspect ∨ stamp.provenance ≠ some 0 then .flags
      else if policy.threshold - jitterOffset (min policy.jitterHeights policy.threshold)
        jitter.height ≤ height - verified then .age
      else
        match wallAgeSecs with
        | none => .no
        | some age =>
          if policy.maxAgeSecs - jitterOffset (min policy.capJitterSecs policy.maxAgeSecs)
          jitter.cap ≤ age then .cap else .no

/-- Two rotations and the margin, uncut. -/
def rotationBudget (rotationHeights : UInt64) : Nat :=
  2 * max rotationHeights.toNat refreshRotationFloorHeights + refreshMarginHeights

variable {window rotation : UInt64}

/-- A cut budget leaves no threshold; the jitter only lowers it. -/
lemma refreshDue_no {wallAgeSecs jitter stamp height}
    (hn : refreshDue stamp height wallAgeSecs jitter (.forRotation window rotation) = .no) :
    ∃ s ∈ stamp, s.suspect = false ∧ ∃ verified ∈ s.verifiedHeight,
      rotationBudget rotation < window.toNat ∧
      height + rotationBudget rotation < verified + window.toNat := by
  unfold refreshDue at hn
  split at hn
  · cases hn
  · rename_i s
    split at hn
    · cases hn
    · rename_i verified hv
      split_ifs at hn with hf ha
      refine ⟨s, rfl, by simpa using fun hs => hf (.inl hs), verified, hv, ?_⟩
      have hw := window.toNat_lt
      simp only [RefreshPolicy.forRotation, saturated] at ha
      unfold rotationBudget
      omega

lemma heightToDb_le_iff {a b : Nat} (hle : a ≤ b) (hb : b < 2 ^ 64) :
    heightToDb a ≤ heightToDb b ↔ (a < 2 ^ 63 → b < 2 ^ 63) := by
  simp only [heightToDb, BitVec.toInt_eq_toNat_cond, BitVec.toNat_ofNat]
  omega

/-- A stamp that is left out stays inside the window through a failed rotation. The table compares
signed heights, so it still counts as evidence exactly if the bit of `2 ^ 63` does not part it from
the floor. -/
theorem skipped_counts_iff (window rotation height : UInt64) (wallAgeSecs : Option Nat)
    (jitter : RefreshJitter) :
    (window.toNat ≤ rotationBudget rotation → ∀ stamp,
      refreshDue stamp height.toNat wallAgeSecs jitter (.forRotation window rotation) ≠ .no) ∧
    ∀ (row : InventoryRow) (verified later : UInt64),
      row.verifiedHeight = some (heightToDb verified.toNat) →
      refreshDue (some row.stamp) height.toNat wallAgeSecs jitter (.forRotation window rotation) =
      .no → later.toNat ≤ height.toNat + rotationBudget rotation →
      later.toNat - window.toNat ≤ verified.toNat ∧
      (row.Attests row.fragmentHash row.nodeId (heightToDb (later.toNat - window.toNat)) ↔
        (later.toNat - window.toNat < 2 ^ 63 → verified.toNat < 2 ^ 63)) := by
  constructor
  · intro hw stamp hn
    obtain ⟨_, _, _, _, _, hb, _⟩ := refreshDue_no hn
    omega
  · intro row verified later hv hn hl
    obtain ⟨_, hsome, hs, v, hm, _, hlt⟩ := refreshDue_no hn
    cases hsome
    rw [InventoryRow.stamp, hv, Option.map_some, heightFromDb_toDb verified.toNat_lt] at hm
    cases hm
    have hle : later.toNat - window.toNat ≤ verified.toNat := by omega
    refine ⟨hle, ?_⟩
    rw [← heightToDb_le_iff hle verified.toNat_lt]
    simp only [InventoryRow.Attests, hv, true_and]
    constructor
    · rintro ⟨-, _, hm, hle⟩
      cases hm
      exact hle
    · intro hle
      exact ⟨hs, _, rfl, hle⟩

def freshRow (verified : Nat) : InventoryRow :=
  ⟨.replicate 32 0, 1, none, some (heightToDb verified), some 0, false⟩

theorem skipped_counts_first :
    (freshRow 100).Attests (.replicate 32 0) 1 (heightToDb (6012 - 8192)) :=
  (((skipped_counts_iff 8192 0 100 none ⟨0, 0⟩).2 (freshRow 100) 100 6012 rfl (by decide)
    (by decide)).2).2
    (fun _ => by decide)

end HopNet
