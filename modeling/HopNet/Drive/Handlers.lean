import HopNet.Drive.Files

namespace HopNet

open Fallible

structure ShareFilePayload where
  id : CustomUUID
  dataBlockId : BlobId
  senderId : Int
  recipientId : Int
  fileAccess : Bytes
  displayEphemeralPubkey : Bytes
  encryptedDisplayName : Bytes
deriving DecidableEq

structure AcceptSharePayload where
  incomingShareId : CustomUUID
  recipientId : Int
  encryptedPath : Path
  inodeId : CustomUUID
  parentFolderInodes : List (CustomUUID × Path)
deriving DecidableEq

inductive DriveTx where
  | insertFiles (blobOps : List BlobInsertOp) (inodes : List Inode)
  | modifyItem (payload : ModifyItemPayload)
  | deleteFiles (encryptedPath : Path) (userId : Int)
  | shareFile (payload : ShareFilePayload)
  | acceptShare (payload : AcceptSharePayload)
  | declineShare (incomingShareId : CustomUUID) (userId : Int)
  | unshare (inodeId : CustomUUID) (userId : Int)
deriving DecidableEq

variable (signer : Option Int)

/-- The payload names its user, who must be the signer. -/
def requireSigner (userId : Int) : DbResult Unit :=
  require (signer = some userId) .authorizationError

/-- `Err(NotFound)` for an absent row. -/
def orNotFound {α : Type} : Option α → DbResult α
  | some a => .ok a
  | none => .error .notFound

@[simp] lemma orNotFound_eq_ok {α : Type} {o} {a : α} : orNotFound o = .ok a ↔ o = some a := by
  cases o <;> simp [orNotFound]

@[simp] lemma requireSigner_eq_ok {signer userId u} :
    requireSigner signer userId = .ok u ↔ signer = some userId :=
  require_eq_ok

section

def ShareExistsFor (t : DriveTables) (b : BlobId) (recipientId : Int) : Prop :=
  (∃ row ∈ t.incomingShares, row.dataBlockId = b ∧ row.recipientId = recipientId) ∨
    ∃ row ∈ t.shares, row.dataBlockId = b ∧ row.userId = recipientId
deriving Decidable

variable (payload : ShareFilePayload)

def ShareFilePayload.row : IncomingShareRow :=
  ⟨payload.id, payload.dataBlockId, payload.senderId, payload.recipientId, payload.fileAccess,
    payload.displayEphemeralPubkey, payload.encryptedDisplayName⟩

/-- Whether the sender holds the block is not asked. -/
def shareFile (db : DriveDb) : DbResult DriveDb := do
  requireSigner signer payload.senderId
  require (payload.senderId ≠ payload.recipientId) .invalidPayload
  require (db.BlockExists payload.dataBlockId) .notFound
  require (UserExists db.users payload.recipientId) .notFound
  require (¬ ShareExistsFor db.drive payload.dataBlockId payload.recipientId) .conflictError
  require ((∀ row ∈ db.drive.incomingShares, row.id ≠ payload.id) ∧
    UserExists db.users payload.senderId) .insertError
  return db.setDrive { db.drive with incomingShares := db.drive.incomingShares ++ [payload.row] }

variable (decode : AccessDecoder)

/-- `INSERT OR REPLACE INTO blob_access`: block and key as the sender wrote them. -/
def acceptAccess (share : IncomingShareRow) (t : StorageTables) : DbResult StorageTables :=
  match decode share.fileAccess with
  | none => .error .invalidPayload
  | some access => (addBlobAccess t access).mapError fun _ => .insertError

/-- A pre-generated parent: left out where its id or path is taken, not logged. -/
def insertParentFolder (recipientId : Int) (db : DriveDb) (folder : CustomUUID × Path) :
    DbResult DriveDb :=
  let inode : Inode := ⟨folder.1, recipientId, folder.2, .folder, none⟩
  if db.Occupied inode then .ok db
  else do
    require (db.References inode) .insertError
    return db.addInode inode

def insertShareMember (b : BlobId) (db : DriveDb) (userId : Int) : DbResult DriveDb :=
  if (⟨b, userId⟩ : ShareRow) ∈ db.drive.shares then .ok db
  else do
    require (db.BlockExists b ∧ UserExists db.users userId) .insertError
    return db.setDrive { db.drive with shares := db.drive.shares ++ [⟨b, userId⟩] }

def deleteIncomingShare (t : DriveTables) (shareId : CustomUUID) : DbResult DriveTables := do
  require (∃ row ∈ t.incomingShares, row.id = shareId) .notFound
  return { t with incomingShares := t.incomingShares.filter fun row => row.id ≠ shareId }

/-- The recipient's inode, after its parents. -/
def insertSharedInode (payload : AcceptSharePayload) (share : IncomingShareRow) (db : DriveDb) :
    DbResult DriveDb := do
  let db ← payload.parentFolderInodes.foldlM (insertParentFolder payload.recipientId) db
  let inode : Inode :=
    ⟨payload.inodeId, payload.recipientId, payload.encryptedPath, .file, some share.dataBlockId⟩
  require (¬ db.Occupied inode) .insertError
  require (db.References inode) .insertError
  return db.addInode inode

def acceptShare (ctx : ApplyCtx) (signer : Option Int)
    (payload : AcceptSharePayload) (db : DriveDb) : DbResult DriveDb := do
  requireSigner signer payload.recipientId
  let share ← orNotFound (db.drive.incomingShareById payload.incomingShareId)
  require (share.recipientId = payload.recipientId) .authorizationError
  require (∀ row ∈ db.drive.inodes, ¬ (row.path = payload.encryptedPath ∧
    row.ownerId = payload.recipientId)) .conflictError
  let storage ← acceptAccess decode share db.storage
  let db ← insertSharedInode payload share { db with storage }
  let db ← [share.senderId, payload.recipientId].foldlM (insertShareMember share.dataBlockId) db
  let drive ← deleteIncomingShare db.drive payload.incomingShareId
  return db.setDrive
    (drive.logModification payload.inodeId payload.recipientId none
      (some payload.encryptedPath) ctx.height)

def declineShare (incomingShareId : CustomUUID) (userId : Int) (db : DriveDb) :
    DbResult DriveDb := do
  requireSigner signer userId
  let share ← orNotFound (db.drive.incomingShareById incomingShareId)
  require (share.senderId = userId ∨ share.recipientId = userId) .authorizationError
  let drive ← deleteIncomingShare db.drive incomingShareId
  return db.setDrive drive

/-- The user keeps the inode and the wrap. -/
def unshare (inodeId : CustomUUID) (userId : Int) (db : DriveDb) : DbResult DriveDb := do
  requireSigner signer userId
  let inode ← orNotFound (db.drive.inodeOf inodeId userId)
  let b ← orNotFound inode.dataId
  require (userId ∈ db.drive.sharersOf b) .notFound
  return db.setDrive (db.drive.leaveShares userId b)

end

section

variable (ctx : ApplyCtx)

/-- Every inode is the signer's. Blobs and wraps are taken as they come; an inode may name any
existing block. -/
def insertFilesHandler (signer : Option Int) (blobOps : List BlobInsertOp)
    (inodes : List Inode) (db : DriveDb) : DbResult DriveDb :=
  match signer with
  | none => .error .authorizationError
  | some userId => do
      require (∀ inode ∈ inodes, inode.ownerId = userId) .authorizationError
      insertFiles ctx blobOps inodes db

def modifyItemHandler (signer : Option Int) (payload : ModifyItemPayload)
    (db : DriveDb) : DbResult DriveDb := do
  requireSigner signer payload.userId
  modifyItem ctx payload db

/-- Nothing to delete is no error. -/
def deleteFilesHandler (signer : Option Int) (path : Path) (userId : Int)
    (db : DriveDb) : DbResult DriveDb := do
  requireSigner signer userId
  return db.setDrive (db.drive.deleteFiles path userId ctx.height).1

end

section

variable {ctx : ApplyCtx} {signer : Option Int} {userId : Int} {db db' : DriveDb}

lemma insertFilesHandler_ok {blobOps inodes}
    (ran : insertFilesHandler ctx signer blobOps inodes db = .ok db') :
    ∃ userId, signer = some userId ∧ (∀ inode ∈ inodes, inode.ownerId = userId) ∧
      insertFiles ctx blobOps inodes db = .ok db' := by
  cases signer with
  | none => cases ran
  | some userId =>
    simp only [insertFilesHandler, require_bind] at ran
    exact ⟨userId, rfl, ran⟩

lemma modifyItemHandler_ok {payload} (ran : modifyItemHandler ctx signer payload db = .ok db') :
    signer = some payload.userId ∧ modifyItem ctx payload db = .ok db' := by
  simpa only [modifyItemHandler, bind_eq_ok, requireSigner_eq_ok, exists_const] using ran

lemma deleteFilesHandler_ok {path} (ran : deleteFilesHandler ctx signer path userId db = .ok db') :
    signer = some userId ∧ db.setDrive (db.drive.deleteFiles path userId ctx.height).1 = db' := by
  simpa only [deleteFilesHandler, bind_eq_ok, requireSigner_eq_ok, exists_const, pure_eq_ok]
    using ran

lemma shareFile_ok {payload} (ran : shareFile signer payload db = .ok db') :
    signer = some payload.senderId ∧ db.BlockExists payload.dataBlockId ∧
      (∀ row ∈ db.drive.incomingShares, row.id ≠ payload.id) ∧
      db.setDrive { db.drive with incomingShares := db.drive.incomingShares ++ [payload.row] } =
        db' := by
  simp only [shareFile, bind_eq_ok, requireSigner_eq_ok, exists_require, exists_const, pure_eq_ok]
    at ran
  exact ⟨ran.1, ran.2.2.1, ran.2.2.2.2.2.1.1, ran.2.2.2.2.2.2⟩

lemma declineShare_ok {shareId : CustomUUID}
    (ran : declineShare signer shareId userId db = .ok db') :
    signer = some userId ∧ ∃ share, db.drive.incomingShareById shareId = some share ∧
      (share.senderId = userId ∨ share.recipientId = userId) ∧
      db.setDrive { db.drive with incomingShares := db.drive.incomingShares.filter fun row =>
        row.id ≠ shareId } = db' := by
  simp only [declineShare, deleteIncomingShare, bind_eq_ok, requireSigner_eq_ok, orNotFound_eq_ok,
    exists_require, exists_const, pure_eq_ok] at ran
  obtain ⟨hs, share, hf, may, _, ⟨_, rfl⟩, rfl⟩ := ran
  exact ⟨hs, share, hf, may, rfl⟩

lemma unshare_ok {inodeId : CustomUUID} (ran : unshare signer inodeId userId db = .ok db') :
    signer = some userId ∧ ∃ b, db.setDrive (db.drive.leaveShares userId b) = db' := by
  simp only [unshare, bind_eq_ok, requireSigner_eq_ok, orNotFound_eq_ok, exists_require,
    exists_const, pure_eq_ok] at ran
  obtain ⟨hs, _, _, b, _, _, hl⟩ := ran
  exact ⟨hs, b, hl⟩

end

/-- The drive's part of the dispatch table. -/
def DriveTx.process (decode : AccessDecoder) (ctx : ApplyCtx) (signer : Option Int)
    (db : DriveDb) : DriveTx → DbResult DriveDb
  | .insertFiles blobOps inodes => insertFilesHandler ctx signer blobOps inodes db
  | .modifyItem payload => modifyItemHandler ctx signer payload db
  | .deleteFiles path userId => deleteFilesHandler ctx signer path userId db
  | .shareFile payload => HopNet.shareFile signer payload db
  | .acceptShare payload => HopNet.acceptShare decode ctx signer payload db
  | .declineShare shareId userId => HopNet.declineShare signer shareId userId db
  | .unshare inodeId userId => HopNet.unshare signer inodeId userId db

end HopNet
