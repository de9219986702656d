import Mathlib.Data.List.Dedup
import Mathlib.Data.List.Sort
import HopNet.Lib.Packed
import HopNet.Types

namespace HopNet

open List

/-- Class to responsible node under one storage view. -/
abbrev Assignment := List Int

/-- The epochs whose obligations protect a blob's copies. -/
structure ProtectionEpochs where
  confirmed : Option Assignment
  inFlight : List Assignment

def ProtectionEpochs.assignments (epochs : ProtectionEpochs) : List Assignment :=
  epochs.confirmed.toList ++ epochs.inFlight

/-- Per class, the responsible nodes over all epochs, in packed rows. -/
structure Protection where
  neverConfirmed : Bool
  memo : Packed Int

namespace Protection

/-- The row of one class: sorted, each node once. -/
def holdersOf (assignments : List Assignment) (fragmentClass : Nat) : List Int :=
  ((assignments.filterMap fun a => a[fragmentClass]?).insertionSort (· ≤ ·)).dedup

/-- Epochs of differing lengths are joined up to the longest. -/
def fromEpochs (epochs : ProtectionEpochs) : Protection :=
  let n := (epochs.assignments.map length).max?.getD 0
  { neverConfirmed := epochs.confirmed.isNone
    memo := .pack ((range n).map (holdersOf epochs.assignments)) }

/-- The record could not answer: everything is protected. -/
def unknown : Protection := ⟨true, ⟨[], []⟩⟩

/-- The guard. A class beyond the memo is protected. -/
def protects (p : Protection) (fragmentClass : Nat) (node : Int) (pinned : Bool) : Bool :=
  if pinned || p.neverConfirmed then true
  else
    match p.memo.row fragmentClass with
    | some holders => holders.contains node
    | none => true

variable {fragmentClass : Nat}

lemma mem_holdersOf {assignments node} :
    node ∈ holdersOf assignments fragmentClass ↔
    ∃ a ∈ assignments, a[fragmentClass]? = some node := by
  simp [holdersOf]

lemma protects_of_assigned {epochs assigned node} (he : assigned ∈ epochs.assignments)
    (hr : assigned[fragmentClass]? = some node) (pinned : Bool) :
    (fromEpochs epochs).protects fragmentClass node pinned = true := by
  unfold protects
  split_ifs
  · rfl
  · simp only [fromEpochs, Packed.row_pack, getElem?_map]
    by_cases hra : fragmentClass < (epochs.assignments.map length).max?.getD 0
    · rw [getElem?_range hra]
      simpa using mem_holdersOf.2 ⟨assigned, he, hr⟩
    · rw [getElem?_eq_none (by simpa using hra)]
      rfl

lemma unknown_protects (fragmentClass : Nat) (node : Int) (pinned : Bool) :
    unknown.protects fragmentClass node pinned = true := by
  simp [unknown, protects]

end Protection

end HopNet
