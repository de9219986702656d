import HopNet.Db
import HopNet.Drive.Tables
import Mathlib.Data.Char
import Mathlib.Data.List.Dedup

namespace HopNet

open Fallible SlashPath

/-- What an apply is told about the block and this node's disk. -/
structure ApplyCtx where
  fragmentExists : Blake3Hash → Bool
  height : Nat

structure IncomingShareUpdate where
  incomingShareId : CustomUUID
  newFileAccessBlob : Bytes
deriving DecidableEq

structure ModifyItemPayload where
  userId : Int
  inodeId : CustomUUID
  newEncryptedPath : Option Path
  /-- `some none` clears the content. -/
  contentUpdate : Option (Option BlobInsertOp)
  incomingShareUpdates : Option (List IncomingShareUpdate)
  replace : Bool
deriving DecidableEq

/-- The row and its entries in the log. -/
def DriveDb.insertLogged (height : Nat) (inode : Inode) (db : DriveDb) : DriveDb :=
  let db := db.addInode inode
  db.setDrive (db.drive.logModification inode.id inode.ownerId none (some inode.path) height)

/-- A folder whose id or path is taken is left out; a file is refused. -/
def insertInode (height : Nat) (db : DriveDb) (inode : Inode) : DbResult DriveDb :=
  match inode.inodeType with
  | .folder =>
    if db.Occupied inode then .ok db
    else do
      require (db.References inode) .insertError
      return db.insertLogged height inode
  | .file => do
      require (¬ db.Occupied inode) .insertError
      require (db.References inode) .insertError
      return db.insertLogged height inode

/-- Every blob of a batch is registered before the rows that hold it. -/
def applyBlobInserts (ctx : ApplyCtx) (ops : List BlobInsertOp) (t : StorageTables) :
    DbResult StorageTables :=
  (ops.foldlM (fun t op => applyBlobInsert ctx.fragmentExists ctx.height op t) t).mapError
    fun _ => .insertError

def insertFiles (ctx : ApplyCtx) (blobOps : List BlobInsertOp) (inodes : List Inode)
    (db : DriveDb) :
    DbResult DriveDb := do
  let storage ← applyBlobInserts ctx blobOps db.storage
  inodes.foldlM (insertInode ctx.height) { db with storage }

/-- `/s₁`, `/s₁/s₂`, … up to the path's parent, without leading slashes. -/
def properPrefixes (path : Path) : List Path :=
  let parts := (path.dropWhile (· = '/')).splitOn '/'
  (List.range (parts.length - 1)).map fun i => pathOf (parts.take (i + 1))

/-- The ancestors of the paths at which nobody has an inode, sorted. -/
def findMissingParents (inodes : List Inode) (newPaths : List Path) : List Path :=
  let ancestors := (newPaths.flatMap properPrefixes).dedup.insertionSort (· ≤ ·)
  ancestors.filter fun path => ∀ row ∈ inodes, row.path ≠ path

/-- Folder rows for the missing ancestors come first; `mint` gives ids. -/
def prependMissingParents (committed : List Inode) (mint : Nat → CustomUUID) (userId : Int)
    (inodes : List Inode) : List Inode :=
  (findMissingParents committed (inodes.map (·.path))).mapIdx
    (fun i path => ⟨mint i, userId, path, .folder, none⟩) ++ inodes

namespace DriveTables

/-- `(path = ? OR path LIKE ?) AND owner_id = ?`. -/
def Selected (path : Path) (userId : Int) (row : Inode) : Prop :=
  row.ownerId = userId ∧ inSubtree path row.path = true
deriving Decidable

/-- The user stops sharing the block and takes back what was offered of it. -/
def leaveShares (userId : Int) (t : DriveTables) (b : BlobId) : DriveTables :=
  (t.removeUserFromShares b userId).removeSenderIncomingShares b userId

/-- The tables, and what it returns: the ancestors' entries are written even where nothing is
found. -/
def deleteFiles (t : DriveTables) (path : Path) (userId : Int) (height : Nat) :
    DriveTables × DbResult Unit :=
  let t := t.logAncestorModifications path userId height
  let gone := t.inodes.filter fun row => Selected path userId row
  if gone = [] then (t, .error .notFound)
  else
    let t := t.logInodes gone height
    let t := (gone.filterMap (·.dataId)).dedup.foldl (leaveShares userId) t
    ({ t with inodes := t.inodes.filter fun row => ¬ Selected path userId row }, .ok ())

section

variable (t : DriveTables) (item : Inode) (newPath : Path)

/-- A compatible occupant of the destination is deleted first. -/
def clearDestination (replace : Bool) (height : Nat) : DbResult DriveTables :=
  match t.inodes.find? fun row =>
      row.path = newPath ∧ row.ownerId = item.ownerId ∧ row.id ≠ item.id with
  | none => .ok t
  | some occupant => do
      require (replace = true) .conflictError
      require (occupant.inodeType = item.inodeType) .invalidPayload
      require (¬ (occupant.inodeType = .folder ∧ ∃ row ∈ t.inodes, row.ownerId = item.ownerId ∧
        Like.like (newPath ++ ['/', '%']) row.path = true)) .notEmpty
      (t.deleteFiles newPath item.ownerId height).2
      return (t.deleteFiles newPath item.ownerId height).1

/-- A file's own row, or a folder's row with those below it. -/
def Moves (row : Inode) : Prop :=
  row.ownerId = item.ownerId ∧
    (row.path = item.path ∨ item.inodeType = .folder ∧ inSubtree item.path row.path = true)
deriving Decidable

/-- `path = ? || substr(path, length(?) + 1)`. -/
def moveInode (row : Inode) : Inode :=
  if Moves item row then { row with path := newPath ++ row.path.drop item.path.length } else row

/-- The update, which the key of the table can refuse. -/
def movePaths : DbResult DriveTables := do
  let inodes := t.inodes.map (moveInode item newPath)
  require (inodes.map fun row => (row.ownerId, row.path)).Nodup .processingError
  return { t with inodes := inodes }

/-- The path half of `modify_item`. A folder cannot move below itself. -/
def changePath (replace : Bool) (height : Nat) : DbResult DriveTables := do
  require (¬ (item.inodeType = .folder ∧ (Below item.path newPath ∨ newPath = item.path)))
    .invalidPayload
  let t ← t.clearDestination item newPath replace height
  t.movePaths item newPath

end

variable (t : DriveTables)

def updateSharesDataBlock (old new : BlobId) : DbResult DriveTables := do
  let shares := t.shares.map fun row => if row.dataBlockId =
    old then { row with dataBlockId := new } else row
  require shares.Nodup .processingError
  return { t with shares := shares }

variable (userId : Int)

/-- The inodes of the block's other accepted sharers follow. -/
def repointSharers (old : BlobId) (new : Option BlobId) : DriveTables :=
  { t with inodes := t.inodes.map fun row =>
      if row.dataId = some old ∧ row.ownerId ≠ userId ∧ row.ownerId ∈ t.sharersOf old then
        { row with dataId := new }
      else row }

def logSharers (new : BlobId) (height : Nat) : DriveTables :=
  (t.inodes.filter fun row => row.dataId = some new ∧ row.ownerId ≠ userId).foldl
    (fun t row => t.logModification row.id row.ownerId none (some row.path) height) t

/-- A block that nobody shares stays. Cleared content passes to the sharers' inodes only. -/
def propagate (old : BlobId) (new : Option BlobId)
    (updates : Option (List IncomingShareUpdate)) (height : Nat) : DbResult DriveTables :=
  if t.sharersOf old = [] then .ok t
  else
    match new with
    | none => .ok (t.repointSharers userId old none)
    | some nid => do
        let t := (t.repointSharers userId old (some nid)).logSharers userId nid height
        let t ← t.updateSharesDataBlock old nid
        return (updates.getD []).foldl
          (fun t update =>
          t.updateIncomingShareDataBlock update.incomingShareId nid update.newFileAccessBlob) t

end DriveTables

def DriveTables.setData (t : DriveTables) (inodeId : CustomUUID) (userId : Int)
    (dataId : Option BlobId) : DriveTables :=
  { t with inodes := t.inodes.map fun row =>
      if row.id = inodeId ∧ row.ownerId = userId then { row with dataId := dataId } else row }

variable (ctx : ApplyCtx)

def updateContent (userId : Int) (inodeId : CustomUUID) (update : Option BlobInsertOp)
    (updates : Option (List IncomingShareUpdate)) (db : DriveDb) : DbResult DriveDb := do
  let newDataId := update.map (·.blobId)
  let storage ← applyBlobInserts ctx update.toList db.storage
  let drive := db.drive.setData inodeId userId newDataId
  match (db.drive.inodeOf inodeId userId).bind (·.dataId) with
  | none => return { db with storage := storage, drive := drive }
  | some old => do
      let drive ← drive.propagate userId old newDataId updates ctx.height
      return { db with storage := storage, drive := drive }

def applyPathChange (item : Inode) (newPath : Option Path) (replace : Bool) (height : Nat)
    (t : DriveTables) : DbResult DriveTables :=
  match newPath with
  | none => .ok t
  | some path => t.changePath item path replace height

variable (payload : ModifyItemPayload)

def applyContentUpdate (db : DriveDb) : DbResult DriveDb :=
  match payload.contentUpdate with
  | none => .ok db
  | some update =>
    updateContent ctx payload.userId payload.inodeId update payload.incomingShareUpdates db

/-- The move, then the content, then the item's entries in the log. -/
def modifyItem (db : DriveDb) : DbResult DriveDb :=
  match db.drive.inodeOf payload.inodeId payload.userId with
  | none => .error .notFound
  | some item => do
      let drive ← applyPathChange item payload.newEncryptedPath payload.replace ctx.height db.drive
      let db ← applyContentUpdate ctx payload (db.setDrive drive)
      let oldPath := payload.newEncryptedPath.map fun _ => item.path
      let newPath := payload.newEncryptedPath.getD item.path
      return db.setDrive
        (db.drive.logModification payload.inodeId payload.userId oldPath (some newPath) ctx.height)

end HopNet
