import HopNet.Lib.SlashPath
import HopNet.StorageDb
import HopNet.Users

namespace HopNet

open SlashPath

abbrev Path := List Char

inductive InodeType where
  | file
  | folder
deriving DecidableEq

/-- A row of `inodes`, keyed by `(owner_id, path)`; `id` is unique. -/
structure Inode where
  id : CustomUUID
  ownerId : Int
  path : Path
  inodeType : InodeType
  dataId : Option BlobId
deriving DecidableEq

/-- A row of `modification_log`, keyed by `(inode_id, modified_at_height)`. -/
structure ModificationRow where
  inodeId : CustomUUID
  ownerId : Int
  modifiedAtHeight : Int
deriving DecidableEq

/-- A row of `incoming_shares`, keyed by `id`: a share not yet answered. -/
structure IncomingShareRow where
  id : CustomUUID
  dataBlockId : BlobId
  senderId : Int
  recipientId : Int
  fileAccess : Bytes
  displayEphemeralPubkey : Bytes
  encryptedDisplayName : Bytes
deriving DecidableEq

/-- A row of `shares`, keyed by both columns: an accepted sharer. -/
structure ShareRow where
  dataBlockId : BlobId
  userId : Int
deriving DecidableEq

structure DriveTables where
  inodes : List Inode
  modificationLog : List ModificationRow
  incomingShares : List IncomingShareRow
  shares : List ShareRow
deriving DecidableEq

structure DriveDb where
  users : List UserRow
  storage : StorageTables
  drive : DriveTables
deriving DecidableEq

/-- What the tables' keys say of the inodes. -/
@[mk_iff]
structure InodeKeys (inodes : List Inode) : Prop where
  ids : (inodes.map (·.id)).Nodup
  paths : (inodes.map fun row => (row.ownerId, row.path)).Nodup

namespace DriveTables

def empty : DriveTables := ⟨[], [], [], []⟩

variable (t : DriveTables) (inodeId : CustomUUID)

/-- `SELECT … FROM inodes WHERE id = ? AND owner_id = ?`. -/
def inodeOf (userId : Int) : Option Inode :=
  t.inodes.find? fun row => row.id = inodeId ∧ row.ownerId = userId

/-- `INSERT OR IGNORE INTO modification_log`. -/
def logOne (ownerId : Int) (height : Nat) : DriveTables :=
  if ∃ row ∈ t.modificationLog, row.inodeId = inodeId ∧
    row.modifiedAtHeight = heightToDb height then t
  else { t with modificationLog := t.modificationLog ++ [⟨inodeId, ownerId, heightToDb height⟩] }

/-- The owner's folders `a` with `path LIKE a || '/%'`. -/
def ancestorFolders (path : Path) (ownerId : Int) : List Inode :=
  t.inodes.filter fun row =>
    row.ownerId = ownerId ∧ row.inodeType = .folder ∧ Like.like (row.path ++ ['/', '%']) path = true

def logInodes (rows : List Inode) (height : Nat) : DriveTables :=
  rows.foldl (fun t row => t.logOne row.id row.ownerId height) t

def logAncestorModifications (path : Path) (ownerId : Int) (height : Nat) : DriveTables :=
  t.logInodes (t.ancestorFolders path ownerId) height

/-- The item itself, then the ancestors of its old and of its new path. -/
def logModification (ownerId : Int) (oldPath newPath : Option Path) (height : Nat) : DriveTables :=
  let t := t.logOne inodeId ownerId height
  let t := match oldPath with
    | some path => t.logAncestorModifications path ownerId height
    | none => t
  match newPath with
  | some path => t.logAncestorModifications path ownerId height
  | none => t

variable (b : BlobId)

def sharersOf : List Int :=
  (t.shares.filter (·.dataBlockId = b)).map (·.userId)

def incomingShareById (id : CustomUUID) : Option IncomingShareRow :=
  t.incomingShares.find? (·.id = id)

def incomingSharesOf : List IncomingShareRow :=
  t.incomingShares.filter (·.dataBlockId = b)

def removeUserFromShares (userId : Int) : DriveTables :=
  { t with shares := t.shares.filter fun row => ¬ (row.dataBlockId = b ∧ row.userId = userId) }

def removeSenderIncomingShares (senderId : Int) : DriveTables :=
  { t with incomingShares :=
      t.incomingShares.filter fun row => ¬ (row.dataBlockId = b ∧ row.senderId = senderId) }

def updateIncomingShareDataBlock (shareId : CustomUUID) (b : BlobId) (fileAccess : Bytes) :
    DriveTables :=
  { t with incomingShares := t.incomingShares.map fun row =>
      if row.id = shareId then { row with dataBlockId := b, fileAccess := fileAccess } else row }

end DriveTables

/-- The inode's id or its owner's path is in use. -/
def Taken (inodes : List Inode) (inode : Inode) : Prop :=
  ∃ row ∈ inodes, row.id = inode.id ∨ (row.ownerId = inode.ownerId ∧ row.path = inode.path)
deriving Decidable

namespace DriveDb

variable (db : DriveDb)

def BlockExists (b : BlobId) : Prop := ∃ row ∈ db.storage.dataBlocks, row.id = b
deriving Decidable

variable (inode : Inode)

def Occupied : Prop := Taken db.drive.inodes inode
deriving Decidable

/-- The foreign keys of an inode. -/
def References : Prop :=
  UserExists db.users inode.ownerId ∧ ∀ b ∈ inode.dataId, db.BlockExists b
deriving Decidable

def setDrive (drive : DriveTables) : DriveDb := { db with drive := drive }

@[simp] lemma setDrive_drive (db : DriveDb) (drive : DriveTables) :
    (db.setDrive drive).drive = drive := rfl

def addInode : DriveDb :=
  db.setDrive { db.drive with inodes := db.drive.inodes ++ [inode] }

end DriveDb

end HopNet
