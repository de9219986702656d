import HopNet.Lib.Runs
import HopNet.Lifecycle

/-!
What a decided block does to the storage tables, one entry at a time, and what each kind of entry
can do to the pair of a blob and to the transition record. -/

namespace HopNet

open Fallible Runs Option StorageTables

/-- One entry of a storage transaction, or the view memo that ends a block. -/
inductive StorageEvent where
  | insert (probe : Blake3Hash → Bool) (op : BlobInsertOp)
  | declare (target : PlacementTarget)
  | confirm (c : PlacementConfirmation)
  | commitPlacement (blobId : BlobId) (height : Nat)
  | selfCheck (report : SelfCheckFragments)
  | attest (report : FragmentAttestation)
  | delete (blobIds : List BlobId)
  | transition (snapshot : ViewSnapshot)

variable (P : Primitives)

def StorageEvent.apply (height : Nat) (t : StorageTables) :
    StorageEvent → Except StorageFailure StorageTables
  | .insert probe op => applyBlobInsert probe height op t
  | .declare target => .ok (declareOne height t target)
  | .confirm c => .ok (confirmOne P height t c)
  | .commitPlacement blobId placed => .ok (HopNet.commitPlacement t (blobId, placed))
  | .selfCheck report => .ok (applySelfCheck report t)
  | .attest report => .ok (applyAttestation height report t)
  | .delete blobIds => .ok (applyDeleteOrphaned blobIds t).1
  | .transition snapshot => .ok (recordTransition height snapshot t)

/-- The tables with the height of the last block that wrote them. -/
structure StorageState where
  tables : StorageTables
  last : Nat

def StorageState.genesis : StorageState := ⟨.empty, 0⟩

/-- A block's entries share its height, a `u64`; heights never go down. -/
structure StorageStep (s : StorageState) (label : Nat × StorageEvent) (s' : StorageState) :
    Prop where
  rises : s.last ≤ label.1
  fits : label.1 < 2 ^ 64
  applied : label.2.apply P label.1 s.tables = .ok s'.tables
  last : s'.last = label.1

/-- The step of a label, where there is one. -/
def StorageState.after (s : StorageState) (label : Nat × StorageEvent) : Option StorageState :=
  if s.last ≤ label.1 ∧ label.1 < 2 ^ 64 then
    match label.2.apply P label.1 s.tables with
    | .ok tables => some ⟨tables, label.1⟩
    | .error _ => none
  else none

variable {P} {t t' : StorageTables} {b b' : BlobId} {height : Nat}

lemma StorageStep.of_after {s s' label} (ran : s.after P label = some s') :
    StorageStep P s label s' := by
  unfold StorageState.after at ran
  split_ifs at ran with hb
  cases ha : label.2.apply P label.1 s.tables with
  | error e => simp [ha] at ran
  | ok tables =>
    simp only [ha] at ran
    cases ran
    exact ⟨hb.1, hb.2, ha, rfl⟩

section

variable {row : DataBlockRow} {op : BlobInsertOp}

lemma block_id (hf : t.block b = some row) : row.id = b := by
  simpa using List.find?_some hf

lemma block_eq_of_id {row old} (hf : t.block b = some row) (hh : row.id = b')
    (ht : t.block b' = some old) : old = row := by
  rw [← hh, block_id hf, hf] at ht
  exact (some.inj ht).symm

lemma block_updateBlock {change} (hk : ∀ row, (change row).id = row.id) :
    (t.updateBlock b change).block b' =
    (t.block b').map fun row => if row.id = b then change row else row := by
  have hs : ∀ row : DataBlockRow, (if row.id = b then change row else row).id = row.id := by
    intro row
    split_ifs
    · exact hk row
    · rfl
  unfold block updateBlock
  rw [List.find?_map]
  congr 2
  funext row
  simp only [Function.comp_apply, hs]

lemma block_updateBlock_of_some {change} (hk : ∀ row, (change row).id = row.id)
    (hf : t.block b' = some row) :
    (t.updateBlock b change).block b' = some (if row.id = b then change row else row) := by
  rw [block_updateBlock hk, hf, map_some]

/-- One more blob, in flight to this height, and the other tables. -/
structure Inserted (t : StorageTables) (height : Nat) (op : BlobInsertOp) (t' : StorageTables) :
    Prop where
  fresh : t.block op.blobId = none
  blocks : ∃ row : DataBlockRow, row.id = op.blobId ∧ row.placementHeight = none ∧
    row.desiredPlacementHeight = heightToDb height ∧ t'.dataBlocks = t.dataBlocks ++ [row]
  transitions : t'.transitions = t.transitions

/-- What the fragments and wraps of a blob leave alone. -/
def StorageTables.aside (t : StorageTables) : List DataBlockRow × List TransitionRow :=
  (t.dataBlocks, t.transitions)

lemma insertFragment_aside {probe fragment} (ran : insertFragment probe t fragment = .ok t') :
    t'.aside = t.aside := by
  simp only [insertFragment, require_bind, pure_eq_ok] at ran
  obtain ⟨_, _, rfl⟩ := ran
  rfl

lemma addBlobAccess_aside {access} (ran : addBlobAccess t access = .ok t') :
    t'.aside = t.aside := by
  simp only [addBlobAccess, require_bind, pure_eq_ok] at ran
  obtain ⟨_, rfl⟩ := ran
  rfl

lemma applyBlobInsert_ok {probe} (ran : applyBlobInsert probe height op t = .ok t') :
    Inserted t height op t' := by
  simp only [applyBlobInsert, bind_eq_ok, exists_require] at ran
  obtain ⟨fresh, middle, hf, ha⟩ := ran
  have hfi := foldlM_invariant (·.aside = aside { t with dataBlocks := _ }) op.fragments
    (fun _ _ _ _ same step => (insertFragment_aside step).trans same) rfl hf
  have same := foldlM_invariant (·.aside = aside { t with dataBlocks := _ }) op.access
    (fun _ _ _ _ same step => (addBlobAccess_aside step).trans same) hfi ha
  simp only [aside, Prod.mk.injEq] at same
  exact ⟨by simpa [block] using fresh, ⟨_, rfl, rfl, rfl, same.1⟩, same.2⟩

/-- The other blobs do not notice an insert. -/
lemma Inserted.block_of_some
    (hi : Inserted t height op t') (hf : t.block b = some row) : t'.block b = some row := by
  obtain ⟨_, _, _, _, hr⟩ := hi.blocks
  unfold block at hf ⊢
  rw [hr, List.find?_append, hf]
  rfl

lemma recordTransition_dataBlocks (height : Nat) (snapshot : ViewSnapshot) (t : StorageTables) :
    (recordTransition height snapshot t).dataBlocks = t.dataBlocks := by
  unfold recordTransition
  cases latestTransition t.transitions with
  | none => rfl
  | some latest =>
    dsimp only
    split_ifs <;> rfl

end

/-- A declare entry that qualifies. -/
structure Declared (t : StorageTables) (height : Nat) (target : PlacementTarget)
    (row : DataBlockRow) : Prop where
  found : t.block target.blobId = some row
  goal : heightFromDb row.desiredPlacementHeight = target.fromHeight
  rises : target.fromHeight < target.toHeight
  decided : target.toHeight < height
  needed : transitionIn t target.fromHeight target.toHeight

lemma declared_of_reason {target} (hr : declareReason t height target = none) :
    ∃ row, Declared t height target row := by
  unfold declareReason at hr
  cases hf : t.block target.blobId with
  | none => simp [hf] at hr
  | some row =>
    simp only [hf] at hr
    split_ifs at hr with hg _ _ hn
    exact ⟨row, hf, not_not.1 hg, by omega, by omega, hn⟩

variable (target : PlacementTarget)

def DataBlockRow.retarget (row : DataBlockRow) : DataBlockRow :=
  if row.desiredPlacementHeight = heightToDb target.fromHeight then
    { row with desiredPlacementHeight := heightToDb target.toHeight }
  else row

lemma DataBlockRow.retarget_id (row : DataBlockRow) : (row.retarget target).id = row.id := by
  unfold retarget
  split_ifs <;> rfl

lemma declareOne_cases (t : StorageTables) (height : Nat) (target : PlacementTarget) :
    declareOne height t target = t ∨ ∃ row, Declared t height target row ∧
      declareOne height t target = t.updateBlock target.blobId (·.retarget target) := by
  cases hr : declareReason t height target with
  | some text => exact .inl (by simp [declareOne, hr])
  | none =>
    obtain ⟨row, hd⟩ := declared_of_reason hr
    exact .inr ⟨row, hd, by simp only [declareOne, hr]; rfl⟩

lemma declareOne_frame (t : StorageTables) (height : Nat) (target : PlacementTarget) :
    ∃ rows, declareOne height t target = { t with dataBlocks := rows } := by
  rcases declareOne_cases t height target with hs | ⟨_, _, hw⟩
  · exact ⟨t.dataBlocks, hs⟩
  · exact ⟨_, hw⟩

/-- A confirm entry that qualifies, with the view that its goal means. -/
structure Confirmed (P : Primitives) (t : StorageTables) (height : Nat) (c : PlacementConfirmation)
    (row : DataBlockRow) (view : ViewSnapshot) : Prop where
  found : t.block c.blobId = some row
  goal : heightFromDb row.desiredPlacementHeight = c.height
  open_ : row.placementHeight.map heightFromDb ≠ some c.height
  onRecord : snapshotAt t c.height = some view
  evidence : EvidenceComplete t c.blobId (view.assignment P c.blobId) height

lemma confirmReason_eq_none {c} :
    confirmReason P t height c = none ↔ ∃ row view, Confirmed P t height c row view := by
  constructor
  · intro hr
    unfold confirmReason at hr
    cases hf : t.block c.blobId with
    | none => simp [hf] at hr
    | some row =>
      simp only [hf] at hr
      split_ifs at hr with hg hd
      cases ho : snapshotAt t c.height with
      | none => simp [ho] at hr
      | some view =>
        simp only [ho] at hr
        split_ifs at hr with he
        exact ⟨row, view, hf, not_not.1 hg, hd, ho, he⟩
  · rintro ⟨row, view, hc⟩
    simp [confirmReason, hc.found, hc.goal, hc.open_, hc.onRecord, hc.evidence]

variable (c : PlacementConfirmation)

def DataBlockRow.settle (row : DataBlockRow) : DataBlockRow :=
  if row.desiredPlacementHeight = heightToDb c.height then
    { row with placementHeight := some (heightToDb c.height) }
  else row

lemma DataBlockRow.settle_id (row : DataBlockRow) : (row.settle c).id = row.id := by
  unfold settle
  split_ifs <;> rfl

lemma confirmOne_cases (P : Primitives) (t : StorageTables) (height : Nat)
    (c : PlacementConfirmation) :
    confirmOne P height t c = t ∨ ∃ row view, Confirmed P t height c row view ∧
      confirmOne P height t c = t.updateBlock c.blobId (·.settle c) := by
  cases hr : confirmReason P t height c with
  | some text => exact .inl (by simp [confirmOne, hr])
  | none =>
    obtain ⟨row, view, hc⟩ := confirmReason_eq_none.1 hr
    exact .inr ⟨row, view, hc, by simp only [confirmOne, hr]; rfl⟩

lemma confirmOne_frame (P : Primitives) (t : StorageTables) (height : Nat)
    (c : PlacementConfirmation) :
    ∃ rows, confirmOne P height t c = { t with dataBlocks := rows } := by
  rcases confirmOne_cases P t height c with hs | ⟨_, _, _, hw⟩
  · exact ⟨t.dataBlocks, hs⟩
  · exact ⟨_, hw⟩

end HopNet
