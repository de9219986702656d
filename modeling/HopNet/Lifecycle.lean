import HopNet.Protection
import HopNet.StorageDb

/-! The block lifecycle: a blob is confirmed at one height and heads for another, the transition
record says which view each height means, and two transactions move the pair. -/

namespace HopNet

/-- Evidence must be disk-verified within this many heights of the deciding block. -/
def attestationRecencyHeights : Nat := 8192

structure PlacementTarget where
  blobId : BlobId
  fromHeight : Nat
  toHeight : Nat

structure PlacementConfirmation where
  blobId : BlobId
  height : Nat

section

/-- `ORDER BY height DESC LIMIT 1`. -/
def latestTransition (rows : List TransitionRow) : Option TransitionRow :=
  Extremes.greatestBy (·.height) rows

/-- Appends the snapshot unless it is the latest already or the record has moved past `height`. -/
def recordTransition (height : Nat) (snapshot : ViewSnapshot) (t : StorageTables) : StorageTables :=
  let inserted := { t with
    transitions := t.transitions.filter (fun row => row.height ≠ heightToDb height) ++
      [⟨heightToDb height, snapshot⟩] }
  match latestTransition t.transitions with
  | none => inserted
  | some latest =>
    if latest.snapshot = snapshot ∨ heightFromDb latest.height > height then t else inserted

variable (t : StorageTables) (fromExclusive : Nat)

/-- Whether the view changed after `fromExclusive` and up to `toInclusive`. -/
def transitionIn (toInclusive : Nat) : Prop :=
  ∃ row ∈ t.transitions, heightToDb fromExclusive < row.height ∧ row.height ≤ heightToDb toInclusive
deriving Decidable

/-- The row whose view is in force at a height: the latest at or below it. -/
def transitionAt (height : Int) : Option TransitionRow :=
  latestTransition (t.transitions.filter (·.height ≤ height))

def snapshotAt (height : Nat) : Option ViewSnapshot :=
  (transitionAt t (heightToDb height)).map (·.snapshot)

/-- The snapshots after one height and up to another, oldest first. -/
def snapshotsIn (toInclusive : Nat) : List ViewSnapshot :=
  ((t.transitions.filter fun row =>
      heightToDb fromExclusive < row.height ∧ row.height ≤ heightToDb toInclusive).insertionSort
    fun a b => a.height ≤ b.height).map (·.snapshot)

/-- Appends what has not been seen. -/
def pushUnseen (seen : List ViewSnapshot) (snapshot : ViewSnapshot) : List ViewSnapshot :=
  if snapshot ∈ seen then seen else seen ++ [snapshot]

variable (P : Primitives)

/-- The epochs that protect a blob's copies: the confirmed one, those recorded since, up to the
goal, and the goal's own. `none` when the record cannot answer. -/
def epochsForBlob (t : StorageTables) (blobId : BlobId) (placementHeight : Option Nat)
    (desired : Nat) : Option ProtectionEpochs :=
  match placementHeight with
  | none => some ⟨none, []⟩
  | some confirmedHeight =>
    match snapshotAt t confirmedHeight with
    | none => none
    | some confirmed =>
      if desired = confirmedHeight then some ⟨some (confirmed.assignment P blobId), []⟩
      else
        match snapshotAt t desired with
        | none => none
        | some target =>
          let seen :=
            pushUnseen ((snapshotsIn t confirmedHeight desired).foldl pushUnseen []) target
          some ⟨some (confirmed.assignment P blobId), seen.map (·.assignment P blobId)⟩

end

section

/-- Why an entry is skipped; the texts are what the source logs. -/
def declareReason (t : StorageTables) (decidingHeight : Nat) (target : PlacementTarget) :
    Option String :=
  match t.block target.blobId with
  | none => some "unknown blob"
  | some row =>
    if heightFromDb row.desiredPlacementHeight ≠ target.fromHeight then some "goal moved (CAS)"
    else if target.toHeight ≤ target.fromHeight then some "to <= from"
    else if decidingHeight ≤ target.toHeight then some "to not below the deciding height"
    else if ¬ transitionIn t target.fromHeight target.toHeight then some "no transition in range"
    else none

variable (decidingHeight : Nat)

def declareOne (t : StorageTables) (target : PlacementTarget) : StorageTables :=
  match declareReason t decidingHeight target with
  | some _ => t
  | none => t.updateBlock target.blobId fun row =>
    if row.desiredPlacementHeight = heightToDb target.fromHeight then
      { row with desiredPlacementHeight := heightToDb target.toHeight }
    else row

def applyDeclare (targets : List PlacementTarget) (t : StorageTables) : StorageTables :=
  targets.foldl (declareOne decidingHeight) t

end

variable (P : Primitives)

/-- It counts as evidence: not suspect, and disk-verified at or after the floor. -/
def InventoryRow.Attests (row : InventoryRow) (hash : Blake3Hash) (node : Int) (floor : Int) :
    Prop :=
  row.fragmentHash = hash ∧ row.nodeId = node ∧ row.suspect = false ∧
    ∃ verified ∈ row.verifiedHeight, floor ≤ verified
deriving Decidable

/-- Every fragment, and there is one, is attested by its responsible node. -/
def EvidenceComplete (t : StorageTables) (blobId : BlobId) (assigned : Assignment) (tip : Nat) :
    Prop :=
  t.fragmentsOf blobId ≠ [] ∧
    ∀ fragment ∈ t.fragmentsOf blobId, ∃ node ∈ assigned[fragment.localIndex]?,
      ∃ row ∈ t.fragmentInventory,
        row.Attests fragment.fragmentHash node (heightToDb (tip - attestationRecencyHeights))
deriving Decidable

def confirmReason (t : StorageTables) (decidingHeight : Nat) (c : PlacementConfirmation) :
    Option String :=
  match t.block c.blobId with
  | none => some "unknown blob"
  | some row =>
    if heightFromDb row.desiredPlacementHeight ≠ c.height then some "not the declared goal"
    else if row.placementHeight.map heightFromDb = some c.height then some "already confirmed"
    else
      match snapshotAt t c.height with
      | none => some "view at goal not on record"
      | some snapshot =>
        if EvidenceComplete t c.blobId (snapshot.assignment P c.blobId) decidingHeight then none
        else some "evidence incomplete"

variable (decidingHeight : Nat)

def confirmOne (t : StorageTables) (c : PlacementConfirmation) : StorageTables :=
  match confirmReason P t decidingHeight c with
  | some _ => t
  | none => t.updateBlock c.blobId fun row =>
    if row.desiredPlacementHeight = heightToDb c.height then
      { row with placementHeight := some (heightToDb c.height) }
    else row

def applyConfirm (confirmations : List PlacementConfirmation) (t : StorageTables) : StorageTables :=
  confirmations.foldl (confirmOne P decidingHeight) t

end HopNet
