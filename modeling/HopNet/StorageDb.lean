import HopNet.Lib.Fallible
import HopNet.Placement

/-!
The storage tables and the writes that consensus applies to them. A height is a `u64` outside and
a signed `INTEGER` inside; the tables compare what they hold. -/

namespace HopNet

open Fallible

/-- The same 64 bits, read as a signed number. -/
def heightToDb (h : Nat) : Int := (BitVec.ofNat 64 h).toInt

def heightFromDb (v : Int) : Nat := (BitVec.ofInt 64 v).toNat

lemma heightFromDb_toDb {h : Nat} (hf : h < 2 ^ 64) : heightFromDb (heightToDb h) = h := by
  rw [heightFromDb, heightToDb, BitVec.ofInt_toInt, BitVec.toNat_ofNat, Nat.mod_eq_of_lt hf]

lemma heightToDb_of_lt {h : Nat} (hs : h < 2 ^ 63) : heightToDb h = h := by
  have hb : (BitVec.ofNat 64 h).toNat = h := by
    rw [BitVec.toNat_ofNat, Nat.mod_eq_of_lt (by omega)]
  rw [heightToDb, BitVec.toInt_eq_toNat_of_lt (by omega), hb]

inductive StorageFailure where
  | encryption
  | hashMismatch
  | io
  | read
  | rs
  | insufficientSpace

/-- A row of `data_blocks`, keyed by `id`. -/
structure DataBlockRow where
  id : BlobId
  fileHash : Blake3Hash
  fragmentCount : Nat
  addedBytes : Nat
  /-- The confirmed goal; `none` until the first confirmation. -/
  placementHeight : Option Int
  fileSize : Nat
  /-- The declared goal. -/
  desiredPlacementHeight : Int
deriving DecidableEq

structure FragmentMeta where
  blobId : BlobId
  chunkNumber : Nat
  localIndex : Nat
  fragmentId : CustomUUID
  fragmentHash : Blake3Hash
  recovery : Bool
deriving DecidableEq

/-- A row of `fragment_hashes`, keyed by `(data_block_id, chunk_number, local_index)`. The flag is
node-local. -/
structure FragmentRow where
  fragment : FragmentMeta
  storedLocally : Bool
deriving DecidableEq

/-- A row of `fragment_inventory`, keyed by `(fragment_hash, node_id)`. -/
structure InventoryRow where
  fragmentHash : Blake3Hash
  nodeId : Int
  selfVerifiedHeight : Option Int
  verifiedHeight : Option Int
  provenance : Option Nat
  suspect : Bool
deriving DecidableEq

/-- A row of `blob_access`, keyed by `(blob_id, recipient_pubkey)`. -/
structure BlobAccess where
  blobId : BlobId
  recipientPubkey : FixedBytes 32
  ephemeralPubkey : FixedBytes 32
  wrappedKey : Bytes
deriving DecidableEq

/-- How the wrap that comes with a share is read. -/
abbrev AccessDecoder := Bytes → Option BlobAccess

/-- A row of `storage_view_transitions`, keyed by `height`. The encoding is lossless, so its bytes
compare as the snapshot. -/
structure TransitionRow where
  height : Int
  snapshot : ViewSnapshot
deriving DecidableEq

structure StorageTables where
  dataBlocks : List DataBlockRow
  fragmentHashes : List FragmentRow
  fragmentInventory : List InventoryRow
  blobAccess : List BlobAccess
  transitions : List TransitionRow
deriving DecidableEq

namespace StorageTables

def empty : StorageTables := ⟨[], [], [], [], []⟩

variable (t : StorageTables) (blobId : BlobId)

def block : Option DataBlockRow :=
  t.dataBlocks.find? (·.id = blobId)

/-- `UPDATE data_blocks … WHERE id = ?`. -/
def updateBlock (change : DataBlockRow → DataBlockRow) : StorageTables :=
  { t with dataBlocks := t.dataBlocks.map fun row => if row.id = blobId then change row else row }

def fragmentsOf : List FragmentMeta :=
  (t.fragmentHashes.filter (·.fragment.blobId = blobId)).map (·.fragment)

end StorageTables

structure BlobInsertOp where
  blobId : BlobId
  integrityHash : Blake3Hash
  addedBytes : Nat
  fileSize : Nat
  fragments : List FragmentMeta
  access : List BlobAccess
deriving DecidableEq

structure SelfCheckFragments where
  nodeId : Int
  selfVerifiedHeight : Nat
  fragmentsAdded : List Blake3Hash
  fragmentsRemoved : List Blake3Hash

structure FragmentAttestation where
  nodeId : Int
  height : Nat
  present : List Blake3Hash
  suspect : List Blake3Hash

variable (probe : Blake3Hash → Bool) (t : StorageTables)

/-- The insert of a `fragment_hashes` row; `probe` looks at this node's disk. -/
def insertFragment (fragment : FragmentMeta) : Except StorageFailure StorageTables := do
  require (∀ row ∈ t.fragmentHashes, ¬ (row.fragment.blobId = fragment.blobId ∧
    row.fragment.chunkNumber = fragment.chunkNumber ∧
    row.fragment.localIndex = fragment.localIndex)) .io
  require (∃ row ∈ t.dataBlocks, row.id = fragment.blobId) .io
  return { t with
    fragmentHashes := t.fragmentHashes ++ [⟨fragment, probe fragment.fragmentHash⟩] }

/-- `INSERT OR REPLACE` of one wrap. -/
def addBlobAccess (access : BlobAccess) : Except StorageFailure StorageTables := do
  require (∃ row ∈ t.dataBlocks, row.id = access.blobId) .io
  let others := t.blobAccess.filter fun row =>
    ¬ (row.blobId = access.blobId ∧ row.recipientPubkey = access.recipientPubkey)
  return { t with blobAccess := others ++ [access] }

/-- A newborn blob's goal is the block's height; it has no confirmation. -/
def applyBlobInsert (height : Nat) (op : BlobInsertOp)
    (t : StorageTables) : Except StorageFailure StorageTables := do
  require (∀ row ∈ t.dataBlocks, row.id ≠ op.blobId) .io
  let row : DataBlockRow :=
    { id := op.blobId
      fileHash := op.integrityHash
      fragmentCount := op.fragments.length
      addedBytes := op.addedBytes
      placementHeight := none
      fileSize := op.fileSize
      desiredPlacementHeight := heightToDb height }
  let t ← op.fragments.foldlM (insertFragment probe) { t with dataBlocks := t.dataBlocks ++ [row] }
  op.access.foldlM addBlobAccess t

/-- An entry of `apply_placement_commit`, written as given. -/
def commitPlacement (update : BlobId × Nat) : StorageTables :=
  t.updateBlock update.1 fun row => { row with placementHeight := some (heightToDb update.2) }

def applyPlacementCommit (updates : List (BlobId × Nat)) (t : StorageTables) : StorageTables :=
  updates.foldl commitPlacement t

variable (report : SelfCheckFragments)

/-- A removal never discards a row disk-verified after the report's view. -/
def InventoryRow.Removed (row : InventoryRow) : Prop :=
  row.nodeId = report.nodeId ∧ row.fragmentHash ∈ report.fragmentsRemoved ∧
    row.verifiedHeight.all fun verified => verified ≤ heightToDb report.selfVerifiedHeight
deriving Decidable

/-- The assertion of one held fragment: a belief, not a verification. -/
def assertFragment (nodeId : Int) (height : Int) (rows : List InventoryRow) (hash : Blake3Hash) :
    List InventoryRow :=
  if ∃ row ∈ rows, row.fragmentHash = hash ∧ row.nodeId = nodeId then
    rows.map fun row =>
      if row.fragmentHash = hash ∧ row.nodeId = nodeId then
        { row with selfVerifiedHeight := some (max (row.selfVerifiedHeight.getD 0) height) }
      else row
  else rows ++ [⟨hash, nodeId, some height, none, none, false⟩]

/-- Removals first, then the assertions. -/
def applySelfCheck (t : StorageTables) : StorageTables :=
  let kept := t.fragmentInventory.filter fun row => ¬ row.Removed report
  { t with
    fragmentInventory := report.fragmentsAdded.foldl
      (assertFragment report.nodeId (heightToDb report.selfVerifiedHeight)) kept }

/-- Rows are stamped or marked, none created. The stamp is capped at the deciding height and only
rises. -/
def applyAttestation (decidingHeight : Nat) (report : FragmentAttestation) (t : StorageTables) :
    StorageTables :=
  let stamp := heightToDb (min report.height decidingHeight)
  let present := t.fragmentInventory.map fun row =>
    if row.nodeId = report.nodeId ∧ row.fragmentHash ∈ report.present then
      { row with
        verifiedHeight := some (max (row.verifiedHeight.getD 0) stamp)
        provenance := some 0
        suspect := false }
    else row
  { t with
    fragmentInventory := present.map fun row =>
      if row.nodeId = report.nodeId ∧ row.fragmentHash ∈ report.suspect then
        { row with suspect := true }
      else row }

/-- The blobs' rows go, with every inventory row of their hashes. The hashes this node has files of
are returned. -/
def applyDeleteOrphaned (blobIds : List BlobId) (t : StorageTables) :
    StorageTables × List Blake3Hash :=
  let orphaned := t.fragmentHashes.filter (·.fragment.blobId ∈ blobIds)
  let localHashes := (orphaned.filter (·.storedLocally)).map (·.fragment.fragmentHash)
  let hashes := orphaned.map (·.fragment.fragmentHash)
  ({ t with
      fragmentInventory := t.fragmentInventory.filter (·.fragmentHash ∉ hashes)
      fragmentHashes := t.fragmentHashes.filter (·.fragment.blobId ∉ blobIds)
      blobAccess := t.blobAccess.filter (·.blobId ∉ blobIds)
      dataBlocks := t.dataBlocks.filter fun row => row.id ∉ blobIds }, localHashes)

end HopNet
