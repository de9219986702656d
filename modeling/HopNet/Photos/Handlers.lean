import HopNet.Drive.Handlers
import HopNet.Photos.Writes

namespace HopNet

open Fallible

structure PhotoOpEntry where
  photoId : CustomUUID
  operationId : CustomUUID

structure PhotoUndoEntry where
  photoId : CustomUUID
  targetOperationId : CustomUUID
  operationId : CustomUUID

structure PhotoIngressClaimPayload where
  deviceId : CustomUUID
  operationId : CustomUUID
  libraryId : Option CustomUUID

structure LibraryKeyWrap where
  userId : Int
  wrap : KeyWrap

structure CreateSharedLibraryPayload where
  libraryId : CustomUUID
  encryptedName : Bytes
  nameNonce : FixedBytes 12
  creatorKey : LibraryKeyWrap

structure LibraryInvitePayload where
  libraryId : CustomUUID
  invitee : LibraryKeyWrap
  operationId : CustomUUID

structure LibraryAccessGrantPayload where
  libraryId : CustomUUID
  userId : Int
  entries : List LibraryMetadataGrant
  blobWraps : List LibraryBlobGrant

structure LibraryAccessRevokePayload where
  libraryId : CustomUUID
  userId : Int
  photoIds : List CustomUUID
  dataBlockIds : List BlobId

inductive PhotosTx where
  | photoAdd (entries : List PhotoAddEntry)
  | photoDelete (entries : List PhotoOpEntry)
  | photoRestore (entries : List PhotoOpEntry)
  | photoCleanupExpired (photoIds : List CustomUUID) (scanCutoff : String)
  | photoEditContent (entries : List PhotoEditContentEntry)
  | photoEditMetadata (entries : List PhotoEditMetadataEntry)
  | photoUndo (entries : List PhotoUndoEntry)
  | photoFavorite (entries : List PhotoOpEntry)
  | photoUnfavorite (entries : List PhotoOpEntry)
  | photoIngressClaim (payload : PhotoIngressClaimPayload)
  | createSharedLibrary (payload : CreateSharedLibraryPayload)
  | libraryInvite (payload : LibraryInvitePayload)
  | libraryInviteAccept (libraryId : CustomUUID)
  | libraryInviteDecline (libraryId : CustomUUID) (inviteeUserId : Int)
  | libraryRemoveMember (libraryId : CustomUUID) (userId : Int)
  | libraryAccessGrant (payload : LibraryAccessGrantPayload)
  | libraryAccessRevoke (payload : LibraryAccessRevokePayload)

def signerId : Option Int → DbResult Int
  | some userId => .ok userId
  | none => .error .authorizationError

@[simp] lemma signerId_eq_ok {signer userId} :
    signerId signer = .ok userId ↔ signer = some userId := by
  cases signer <;> simp [signerId]

section

variable (db : PhotosDb) (userId : Int) (photoId : CustomUUID)

def writablePhoto : DbResult PhotoRow := do
  let photo ← orNotFound (db.photos.photo photoId)
  require (db.photos.PhotoWriteAllowed userId photo) .authorizationError
  return photo

/-- Tombstoned photos take no edits. -/
def editablePhoto : DbResult PhotoRow := do
  let photo ← writablePhoto db userId photoId
  require (photo.deletedAt = none) .conflictError
  return photo

variable (entry : PhotoEditContentEntry)

/-- Something to do, no kind twice, and never without an original. -/
def PhotoEditContentEntry.ValidShape : Prop :=
  ¬ (entry.resources = [] ∧ entry.removeResources = []) ∧
    (entry.resources.map (·.resourceType) ++ entry.removeResources).Nodup ∧
    0 ∉ entry.removeResources
deriving Decidable

variable (photo : PhotoRow)

/-- The members and invitees of the photo's library, or its uploader. -/
def Entitled (userId : Int) : Prop :=
  (photo.libraryId = none ∧ userId = photo.uploadedBy) ∨ ∃ libraryId ∈ photo.libraryId,
    (db.photos.IsMember libraryId userId ∨ db.photos.IsInvitee libraryId userId) ∧
    UserExists db.users userId
deriving Decidable

def uncoveredWrapHolders (supplied : List MetadataAccessEntry) : List Int :=
  ((db.photos.metadataAccess.filter (·.photoId = photo.id)).map (·.userId)).filter fun holder =>
    Entitled db photo holder ∧ ∀ entry ∈ supplied, entry.userId ≠ holder

/-- A re-key that leaves out a holder is refused. No wraps means the old key. -/
def rejectStrandingRekey (access : List MetadataAccessEntry) : DbResult Unit :=
  require (access = [] ∨ uncoveredWrapHolders db photo access = []) .conflictError

/-- Wraps without a ciphertext are never applied, so they are not checked. -/
def PhotoEditContentEntry.rejectStranding : DbResult Unit :=
  if entry.encryptedMetadata.isSome then rejectStrandingRekey db photo entry.metadataAccess
    else .ok ()

end

section

variable (ctx : ApplyCtx) (userId : Int) (db : PhotosDb)

def photoAddEntry (entry : PhotoAddEntry) : DbResult PhotosDb := do
  require (entry.uploadedBy = userId) .authorizationError
  require (∀ libraryId ∈ entry.libraryId, db.photos.IsMember libraryId userId) .authorizationError
  insertPhotoEntry ctx entry db

variable (entry : PhotoOpEntry)

/-- A photo that is gone is skipped. -/
def photoDeleteEntry : DbResult PhotosDb :=
  match db.photos.photo entry.photoId with
  | none => .ok db
  | some photo => do
      require (db.photos.PhotoWriteAllowed userId photo) .authorizationError
      match entry.operationId.extractTimestamp with
      | none => .error .invalidPayload
      | some deletedAt =>
          softDeletePhoto entry.photoId userId deletedAt photo.libraryId entry.operationId db

def photoRestoreEntry : DbResult PhotosDb :=
  match db.photos.photo entry.photoId with
  | none => .ok db
  | some photo => do
      require (db.photos.PhotoWriteAllowed userId photo) .authorizationError
      restorePhoto entry.photoId userId photo.libraryId entry.operationId db

def photoEditContentEntry (entry : PhotoEditContentEntry) : DbResult PhotosDb := do
  require entry.ValidShape .invalidPayload
  let photo ← editablePhoto db userId entry.photoId
  entry.rejectStranding db photo
  editPhotoContent ctx entry userId db

def photoEditMetadataEntry (entry : PhotoEditMetadataEntry) : DbResult PhotosDb := do
  let photo ← editablePhoto db userId entry.photoId
  rejectStrandingRekey db photo entry.metadataAccess
  editPhotoMetadata entry userId db

def photoUndoEntry (entry : PhotoUndoEntry) : DbResult PhotosDb := do
  let _ ← editablePhoto db userId entry.photoId
  undoContentEdit entry.photoId entry.targetOperationId entry.operationId userId db

def favoriteOperation (operationType : Int) (entry : PhotoOpEntry) : OperationRow :=
  ⟨entry.operationId, none, entry.photoId, operationType, none, none, none, none, userId⟩

def photoFavoriteEntry : DbResult PhotosDb :=
  match db.photos.photo entry.photoId with
  | none => .ok db
  | some photo => do
      require (photo.deletedAt = none) .conflictError
      require (db.photos.PhotoWriteAllowed userId photo) .authorizationError
      let db ← insertFavorite entry.photoId userId db
      insertOperationRow (favoriteOperation userId 6 entry) (upsertPhotoChanges entry.photoId db)

/-- A tombstoned photo has no favorites left, and is skipped too. -/
def photoUnfavoriteEntry : DbResult PhotosDb :=
  match db.photos.photo entry.photoId with
  | none => .ok db
  | some photo =>
    if photo.deletedAt = none then do
      require (db.photos.PhotoWriteAllowed userId photo) .authorizationError
      insertOperationRow (favoriteOperation userId 7 entry)
        (upsertPhotoChanges entry.photoId (deleteFavorite entry.photoId userId db))
    else .ok db

end

section

variable (userId : Int) (db : PhotosDb)

def photoIngressClaim (payload : PhotoIngressClaimPayload) : DbResult PhotosDb := do
  require (∃ device ∈ db.devices, device.id = payload.deviceId ∧
    device.userId = userId) .authorizationError
  require (∀ libraryId ∈ payload.libraryId, db.photos.IsMember libraryId userId) .authorizationError
  upsertIngressResponsibility ⟨userId, payload.libraryId, payload.deviceId, payload.operationId⟩ db

def createSharedLibrary (payload : CreateSharedLibraryPayload) : DbResult PhotosDb := do
  require (payload.creatorKey.userId = userId) .authorizationError
  let db ← insertLibrary ⟨payload.libraryId, payload.encryptedName, payload.nameNonce⟩ db
  let db ← insertMember payload.libraryId userId db
  insertLibraryKey ⟨payload.libraryId, userId, payload.creatorKey.wrap⟩ db

def libraryInvite (payload : LibraryInvitePayload) : DbResult PhotosDb := do
  require (db.photos.IsMember payload.libraryId userId) .authorizationError
  require (¬ (payload.invitee.userId = userId ∨
    db.photos.IsMember payload.libraryId payload.invitee.userId))
    .conflictError
  require (userX25519Pubkey db.users payload.invitee.userId ≠ none) .invalidPayload
  insertInvite ⟨payload.libraryId, payload.invitee.userId, userId, payload.operationId,
    payload.invitee.wrap⟩ db

variable (libraryId : CustomUUID)

/-- Signed by the invitee; the invite's wrap becomes the member's. -/
def libraryInviteAccept : DbResult PhotosDb := do
  let invite ← orNotFound (db.photos.invite libraryId userId)
  let db ← insertMember libraryId userId db
  let db ← insertLibraryKey ⟨libraryId, userId, invite.wrap⟩ db
  upsertViewChange userId libraryId (db.setPhotos (db.photos.deleteInvite libraryId userId))

/-- The invitee refuses, or a member retracts. -/
def libraryInviteDecline (inviteeUserId : Int) : DbResult PhotosDb := do
  require (inviteeUserId = userId ∨ db.photos.IsMember libraryId userId) .authorizationError
  require (db.photos.IsInvitee libraryId inviteeUserId) .notFound
  return db.setPhotos (db.photos.deleteInvite libraryId inviteeUserId)

/-- Leaving, or removing another. The access rows are left to the convergence. -/
def libraryRemoveMember (target : Int) : DbResult PhotosDb := do
  require (db.photos.IsMember libraryId userId) .authorizationError
  require (db.photos.IsMember libraryId target ∨ db.photos.IsInvitee libraryId target) .notFound
  return db.setPhotos
    ((((db.photos.deleteMember libraryId target).deleteInvite libraryId target).deleteLibraryKey
    libraryId target).deleteViewChange target libraryId |>.deleteIngress target libraryId)

def libraryAccessGrant (payload : LibraryAccessGrantPayload) : DbResult PhotosDb := do
  require (¬ (payload.entries = [] ∧ payload.blobWraps = [])) .invalidPayload
  require (db.photos.IsMember payload.libraryId userId) .authorizationError
  require (db.photos.IsMember payload.libraryId payload.userId ∨
    db.photos.IsInvitee payload.libraryId payload.userId) .authorizationError
  match userX25519Pubkey db.users payload.userId with
  | none => .error .invalidPayload
  | some targetPubkey => do
      let db ← payload.entries.foldlM
        (insertMetadataAccessGrant payload.libraryId payload.userId) db
      let db ← payload.blobWraps.foldlM (insertBlobAccessGrant payload.libraryId targetPubkey) db
      upsertViewChange payload.userId payload.libraryId db

/-- The target must have left. The ids are deleted as they are given. -/
def libraryAccessRevoke (payload : LibraryAccessRevokePayload) : DbResult PhotosDb := do
  require (db.photos.IsMember payload.libraryId userId) .authorizationError
  require (¬ (db.photos.IsMember payload.libraryId payload.userId ∨
    db.photos.IsInvitee payload.libraryId payload.userId)) .authorizationError
  match userX25519Pubkey db.users payload.userId with
  | none => .error .invalidPayload
  | some targetPubkey =>
    return { db with
      photos := db.photos.deleteMetadataAccess payload.photoIds payload.userId
      storage := db.storage.deleteBlobAccess payload.dataBlockIds targetPubkey }

end

inductive PhotosEntry where
  | add (entry : PhotoAddEntry)
  | delete (entry : PhotoOpEntry)
  | restore (entry : PhotoOpEntry)
  | cleanup (photoId : CustomUUID) (scanCutoff : String)
  | editContent (entry : PhotoEditContentEntry)
  | editMetadata (entry : PhotoEditMetadataEntry)
  | undo (entry : PhotoUndoEntry)
  | favorite (entry : PhotoOpEntry)
  | unfavorite (entry : PhotoOpEntry)
  | claim (payload : PhotoIngressClaimPayload)
  | createLibrary (payload : CreateSharedLibraryPayload)
  | invite (payload : LibraryInvitePayload)
  | accept (libraryId : CustomUUID)
  | decline (libraryId : CustomUUID) (inviteeUserId : Int)
  | remove (libraryId : CustomUUID) (userId : Int)
  | grant (payload : LibraryAccessGrantPayload)
  | revoke (payload : LibraryAccessRevokePayload)

variable (expired : Expiry) (ctx : ApplyCtx) (signer : Option Int) (db : PhotosDb)

def PhotosEntry.apply : PhotosEntry → DbResult PhotosDb
  | .cleanup photoId scanCutoff => do
      require (signer = none) .authorizationError
      return hardDeleteExpiredPhoto (expired scanCutoff) db photoId
  | .add entry => do photoAddEntry ctx (← signerId signer) db entry
  | .delete entry => do photoDeleteEntry (← signerId signer) db entry
  | .restore entry => do photoRestoreEntry (← signerId signer) db entry
  | .editContent entry => do photoEditContentEntry ctx (← signerId signer) db entry
  | .editMetadata entry => do photoEditMetadataEntry (← signerId signer) db entry
  | .undo entry => do photoUndoEntry (← signerId signer) db entry
  | .favorite entry => do photoFavoriteEntry (← signerId signer) db entry
  | .unfavorite entry => do photoUnfavoriteEntry (← signerId signer) db entry
  | .claim payload => do photoIngressClaim (← signerId signer) db payload
  | .createLibrary payload => do createSharedLibrary (← signerId signer) db payload
  | .invite payload => do libraryInvite (← signerId signer) db payload
  | .accept libraryId => do libraryInviteAccept (← signerId signer) db libraryId
  | .decline libraryId invitee => do libraryInviteDecline (← signerId signer) db libraryId invitee
  | .remove libraryId target => do libraryRemoveMember (← signerId signer) db libraryId target
  | .grant payload => do libraryAccessGrant (← signerId signer) db payload
  | .revoke payload => do libraryAccessRevoke (← signerId signer) db payload

/-- The entries of a transaction, in the order they are applied. -/
def PhotosTx.entries : PhotosTx → List PhotosEntry
  | .photoAdd entries => entries.map .add
  | .photoDelete entries => entries.map .delete
  | .photoRestore entries => entries.map .restore
  | .photoCleanupExpired photoIds scanCutoff => photoIds.map fun photoId =>
      .cleanup photoId scanCutoff
  | .photoEditContent entries => entries.map .editContent
  | .photoEditMetadata entries => entries.map .editMetadata
  | .photoUndo entries => entries.map .undo
  | .photoFavorite entries => entries.map .favorite
  | .photoUnfavorite entries => entries.map .unfavorite
  | .photoIngressClaim payload => [.claim payload]
  | .createSharedLibrary payload => [.createLibrary payload]
  | .libraryInvite payload => [.invite payload]
  | .libraryInviteAccept libraryId => [.accept libraryId]
  | .libraryInviteDecline libraryId invitee => [.decline libraryId invitee]
  | .libraryRemoveMember libraryId target => [.remove libraryId target]
  | .libraryAccessGrant payload => [.grant payload]
  | .libraryAccessRevoke payload => [.revoke payload]

/-- The cleanup is for nodes only, all else for users. -/
def PhotosTx.forNodes : PhotosTx → Bool
  | .photoCleanupExpired _ _ => true
  | _ => false

/-- The photos' dispatch: a handler checks the signer and goes through its entries. -/
def PhotosTx.process (tx : PhotosTx) : DbResult PhotosDb := do
  require (signer.isNone = tx.forNodes) .authorizationError
  tx.entries.foldlM (fun db entry => entry.apply expired ctx signer db) db

end HopNet
