import HopNet.StorageDb

namespace HopNet

/-- The directory as its files. Reads take the first file of a name; a store replaces it. -/
structure Fragstore where
  files : List (Blake3Hash × Bytes)
deriving DecidableEq

namespace Fragstore

variable (dir : Fragstore) (hash other : Blake3Hash)

def readFragment : Option Bytes := (dir.files.find? (·.1 = hash)).map (·.2)

def Holds : Prop := (dir.readFragment hash).isSome
deriving Decidable

/-- The temporary file is renamed over the old one. -/
def storeFragment (data : Bytes) : Fragstore :=
  ⟨(hash, data) :: dir.files.filter (·.1 ≠ hash)⟩

variable (refuses : Blake3Hash → Bool)

/-- An absent file counts as deleted. One that the system `refuses` to unlink stays, and the callers
go on. -/
def deleteFragment : Fragstore :=
  if refuses hash then dir else ⟨dir.files.filter (·.1 ≠ hash)⟩

variable (hashes : List Blake3Hash)

def deleteFragments : Fragstore :=
  hashes.foldl (fun dir hash => dir.deleteFragment hash refuses) dir

variable {dir hash other} {refuses : Blake3Hash → Bool} {data : Bytes}

lemma find?_filter_ne (files : List (Blake3Hash × Bytes)) (ha : other ≠ hash) :
    (files.filter (·.1 ≠ hash)).find? (·.1 = other) =
      files.find? fun file => file.1 = other := by
  rw [List.find?_filter]
  congr 1
  funext file
  by_cases hn : file.1 = other
  · simp [hn, ha]
  · simp [hn]

@[simp] lemma readFragment_store_self :
    (dir.storeFragment hash data).readFragment hash = some data := by
  simp [readFragment, storeFragment]

lemma readFragment_store_of_ne (ha : other ≠ hash) :
    (dir.storeFragment hash data).readFragment other = dir.readFragment other := by
  have away : ¬ hash = other := fun hs => ha hs.symm
  simp only [readFragment, storeFragment, List.find?_cons, away, decide_false]
  rw [find?_filter_ne dir.files ha]

lemma readFragment_delete : (dir.deleteFragment hash refuses).readFragment other =
    if other = hash ∧ refuses hash = false then none else dir.readFragment other := by
  unfold deleteFragment
  cases hr : refuses hash with
  | true => simp
  | false =>
    by_cases hs : other = hash
    · subst hs
      simp [readFragment]
    · simp only [readFragment, hs, false_and, if_false, Bool.false_eq_true]
      rw [find?_filter_ne dir.files hs]

lemma readFragment_deleteFragments : (dir.deleteFragments refuses hashes).readFragment other =
    if other ∈ hashes ∧ refuses other = false then none else dir.readFragment other := by
  induction hashes generalizing dir with
  | nil => simp [deleteFragments]
  | cons hash rest ih =>
    have hl := @ih (dir.deleteFragment hash refuses)
    unfold deleteFragments at hl ⊢
    rw [List.foldl_cons, hl, readFragment_delete]
    by_cases hs : other = hash
    · subst hs
      by_cases hk : refuses other = false <;> simp [hk]
    · simp [hs]

lemma holds_deleteFragments : (dir.deleteFragments refuses hashes).Holds other ↔
    dir.Holds other ∧ ¬ (other ∈ hashes ∧ refuses other = false) := by
  unfold Holds
  rw [readFragment_deleteFragments]
  by_cases hd : other ∈ hashes ∧ refuses other = false <;> simp [hd]

end Fragstore

end HopNet
