import HopNet.Photos.Tables

namespace HopNet

open Fallible Table

structure PhotoEditContentEntry where
  photoId : CustomUUID
  resources : List PhotoResourceOp
  encryptedMetadata : Option Bytes
  metadataNonce : Option (FixedBytes 12)
  operationId : CustomUUID
  metadataAccess : List MetadataAccessEntry
  removeResources : List Int

structure PhotoEditMetadataEntry where
  photoId : CustomUUID
  encryptedMetadata : Bytes
  metadataNonce : FixedBytes 12
  operationId : CustomUUID
  metadataAccess : List MetadataAccessEntry

/-- The resource an edit is logged against, and its new block: the first upserted, or removed. -/
def PhotoEditContentEntry.primary (entry : PhotoEditContentEntry) : Option (Int × Option BlobId) :=
  match entry.resources, entry.removeResources with
  | resource :: _, _ => some (resource.resourceType, some resource.op.blobId)
  | [], resourceType :: _ => some (resourceType, none)
  | [], [] => none

def upsertResourceRow (photoId : CustomUUID) (db : PhotosDb) (resource : PhotoResourceOp) :
    DbResult PhotosDb := do
  require (db.photos.PhotoExists photoId ∧ ∃ row ∈ db.storage.dataBlocks,
    row.id = resource.op.blobId) .insertError
  return db.setPhotos { db.photos with
    resources := upsert (fun row => (row.photoId, row.resourceType))
      ⟨photoId, resource.resourceType, resource.op.blobId⟩ db.photos.resources }

def PhotoTables.removeResources (t : PhotoTables) (photoId : CustomUUID)
    (resourceTypes : List Int) : PhotoTables :=
  { t with
    resources := t.resources.filter fun row => ¬ (row.photoId = photoId ∧
      row.resourceType ∈ resourceTypes) }

def PhotoTables.setMetadata (t : PhotoTables) (photoId : CustomUUID) (encryptedMetadata : Bytes)
    (metadataNonce : FixedBytes 12) : PhotoTables :=
  t.updatePhoto photoId fun row =>
    { row with encryptedMetadata := encryptedMetadata, metadataNonce := metadataNonce }

/-- New metadata and the wraps that come with it. -/
def replaceMetadata (photoId : CustomUUID) (encryptedMetadata : Bytes)
    (metadataNonce : FixedBytes 12)
    (access : List MetadataAccessEntry) (db : PhotosDb) : DbResult PhotosDb :=
  access.foldlM (upsertMetadataAccessRow photoId)
    (db.setPhotos (db.photos.setMetadata photoId encryptedMetadata metadataNonce))

/-- Both halves of the metadata must be there. -/
def PhotoEditContentEntry.applyMetadata (entry : PhotoEditContentEntry) (db : PhotosDb) :
    DbResult PhotosDb :=
  match entry.encryptedMetadata, entry.metadataNonce with
  | some encryptedMetadata, some nonce =>
    replaceMetadata entry.photoId encryptedMetadata nonce entry.metadataAccess db
  | _, _ => .ok db

def editPhotoContent (ctx : ApplyCtx) (entry : PhotoEditContentEntry) (performedBy : Int)
    (db : PhotosDb) :
    DbResult PhotosDb := do
  let storage ← applyBlobInserts ctx (entry.resources.map (·.op)) db.storage
  match entry.primary with
  | none => .error .invalidPayload
  | some (primaryType, primaryNew) => do
      let prior := db.photos.resource entry.photoId primaryType
      let db ← entry.resources.foldlM (upsertResourceRow entry.photoId)
        { db with storage := storage }
      let db := db.setPhotos (db.photos.removeResources entry.photoId entry.removeResources)
      let db ← entry.applyMetadata db
      insertOperationRow ⟨entry.operationId, none, entry.photoId, 1, some primaryType, prior,
        primaryNew, none, performedBy⟩ (upsertPhotoChanges entry.photoId db)

/-- The metadata that is replaced goes to the log. -/
def editPhotoMetadata (entry : PhotoEditMetadataEntry) (performedBy : Int) (db : PhotosDb) :
    DbResult PhotosDb :=
  match db.photos.photo entry.photoId with
  | none => .error .notFound
  | some row => do
      let db ← replaceMetadata entry.photoId entry.encryptedMetadata entry.metadataNonce
        entry.metadataAccess db
      insertOperationRow ⟨entry.operationId, none, entry.photoId, 3, none, none, none,
        some row.encryptedMetadata, performedBy⟩ (upsertPhotoChanges entry.photoId db)

def PhotoTables.contentEdit (t : PhotoTables) (operationId photoId : CustomUUID) :
    Option OperationRow :=
  t.operations.find? fun row => row.id = operationId ∧ row.photoId = photoId ∧ row.operationType = 1

/-- `UPDATE photo_resources SET data_block_id = ?`; no row, no update. -/
def PhotoTables.setResource (t : PhotoTables) (photoId : CustomUUID) (resourceType : Int)
    (b : BlobId) : PhotoTables :=
  { t with resources := t.resources.map fun row =>
      if row.photoId = photoId ∧ row.resourceType = resourceType then { row with dataBlockId := b }
        else row }

/-- The undo is logged with the target's new block as its prior. -/
def undoContentEdit (photoId targetOperationId operationId : CustomUUID) (performedBy : Int)
    (db : PhotosDb) : DbResult PhotosDb :=
  match db.photos.contentEdit targetOperationId photoId with
  | none => .error .notFound
  | some target =>
    match target.resourceType, target.priorDataBlockId with
    | none, _ => .error .recallError
    | some _, none => .error .notFound
    | some resourceType, some prior => do
        require (∃ row ∈ db.storage.dataBlocks, row.id = prior) .notFound
        let db := db.setPhotos (db.photos.setResource photoId resourceType prior)
        insertOperationRow ⟨operationId, none, photoId, 1, some resourceType, target.newDataBlockId,
          some prior, none, performedBy⟩ (upsertPhotoChanges photoId db)

def insertFavorite (photoId : CustomUUID) (userId : Int) (db : PhotosDb) : DbResult PhotosDb := do
  require (db.photos.PhotoExists photoId ∧ UserExists db.users userId) .insertError
  return db.setPhotos
    { db.photos with favorites := insertOrIgnore id ⟨photoId, userId⟩ db.photos.favorites }

def deleteFavorite (photoId : CustomUUID) (userId : Int) (db : PhotosDb) : PhotosDb :=
  db.setPhotos { db.photos with favorites := db.photos.favorites.filter (· ≠ ⟨photoId, userId⟩) }

/-- A personal claim meets the partial index on the user, a shared one the key. -/
def upsertIngressResponsibility (row : IngressRow) (db : PhotosDb) : DbResult PhotosDb := do
  require (UserExists db.users row.userId ∧ (∃ device ∈ db.devices, device.id = row.deviceId) ∧
    ∀ libraryId ∈ row.libraryId, db.photos.LibraryExists libraryId) .insertError
  return db.setPhotos { db.photos with
    ingress := upsert (fun row => (row.userId, row.libraryId)) row db.photos.ingress }

def insertLibrary (row : LibraryRow) (db : PhotosDb) : DbResult PhotosDb := do
  require (¬ db.photos.LibraryExists row.id) .conflictError
  return db.setPhotos { db.photos with libraries := db.photos.libraries ++ [row] }

def insertMember (libraryId : CustomUUID) (userId : Int) (db : PhotosDb) : DbResult PhotosDb := do
  require (¬ db.photos.IsMember libraryId userId) .conflictError
  require (db.photos.LibraryExists libraryId ∧ UserExists db.users userId) .insertError
  return db.setPhotos { db.photos with members := db.photos.members ++ [⟨libraryId, userId⟩] }

def insertLibraryKey (row : LibraryKeyRow) (db : PhotosDb) : DbResult PhotosDb := do
  require (db.photos.LibraryExists row.libraryId ∧ UserExists db.users row.userId) .insertError
  return db.setPhotos { db.photos with
    libraryKeys :=
      insertOrIgnore (fun row => (row.libraryId, row.userId)) row db.photos.libraryKeys }

def insertInvite (row : InviteRow) (db : PhotosDb) : DbResult PhotosDb := do
  require (¬ db.photos.IsInvitee row.libraryId row.userId) .conflictError
  require (db.photos.LibraryExists row.libraryId ∧ UserExists db.users row.userId ∧
    UserExists db.users row.invitedBy) .insertError
  return db.setPhotos { db.photos with invites := db.photos.invites ++ [row] }

def PhotoTables.invite (t : PhotoTables) (libraryId : CustomUUID) (userId : Int) :
    Option InviteRow :=
  t.invites.find? fun row => row.libraryId = libraryId ∧ row.userId = userId

def PhotoTables.deleteMember (t : PhotoTables) (libraryId : CustomUUID) (userId : Int) :
    PhotoTables :=
  { t with members := t.members.filter (· ≠ ⟨libraryId, userId⟩) }

def PhotoTables.deleteInvite (t : PhotoTables) (libraryId : CustomUUID) (userId : Int) :
    PhotoTables :=
  { t with invites := t.invites.filter fun row => ¬ (row.libraryId = libraryId ∧
    row.userId = userId) }

def PhotoTables.deleteLibraryKey (t : PhotoTables) (libraryId : CustomUUID) (userId : Int) :
    PhotoTables :=
  { t with libraryKeys := t.libraryKeys.filter fun row => ¬ (row.libraryId = libraryId ∧
    row.userId = userId) }

def PhotoTables.deleteViewChange (t : PhotoTables) (userId : Int) (libraryId : CustomUUID) :
    PhotoTables :=
  { t with viewChanges := t.viewChanges.filter fun row => ¬ (row.userId = userId ∧
    row.libraryId = libraryId) }

def PhotoTables.deleteIngress (t : PhotoTables) (userId : Int) (libraryId : CustomUUID) :
    PhotoTables :=
  { t with ingress := t.ingress.filter fun row => ¬ (row.userId = userId ∧
    row.libraryId = some libraryId) }

def upsertViewChange (userId : Int) (libraryId : CustomUUID) (db : PhotosDb) :
    DbResult PhotosDb := do
  require (UserExists db.users userId ∧ db.photos.LibraryExists libraryId) .insertError
  return db.setPhotos { db.photos with
    viewChanges := insertOrReplace (fun row => (row.userId, row.libraryId))
      ⟨userId, libraryId, heightToDb (db.currentHeight + 1)⟩ db.photos.viewChanges }

structure LibraryMetadataGrant where
  photoId : CustomUUID
  wrap : KeyWrap

structure LibraryBlobGrant where
  dataBlockId : BlobId
  wrap : KeyWrap

/-- Live photos of this library only; the first committed wrap wins. -/
def insertMetadataAccessGrant (libraryId : CustomUUID) (target : Int) (db : PhotosDb)
    (grant : LibraryMetadataGrant) : DbResult PhotosDb := do
  require (db.photos.PhotoInLibraryLive grant.photoId libraryId) .validationError
  require (UserExists db.users target) .insertError
  return db.setPhotos { db.photos with
    metadataAccess := insertOrIgnore (fun row => (row.photoId, row.userId))
      ⟨grant.photoId, target, grant.wrap⟩ db.photos.metadataAccess }

/-- Likewise for the wraps of blobs, under the target's own key. -/
def insertBlobAccessGrant (libraryId : CustomUUID) (targetPubkey : FixedBytes 32) (db : PhotosDb)
    (grant : LibraryBlobGrant) : DbResult PhotosDb := do
  require (db.photos.BlockInLibrary grant.dataBlockId libraryId) .validationError
  require (∃ row ∈ db.storage.dataBlocks, row.id = grant.dataBlockId) .insertError
  return { db with storage := { db.storage with
    blobAccess := insertOrIgnore (fun row => (row.blobId, row.recipientPubkey))
      ⟨grant.dataBlockId, targetPubkey, grant.wrap.ephemeralPubkey, grant.wrap.wrappedKey⟩
      db.storage.blobAccess } }

def PhotoTables.deleteMetadataAccess (t : PhotoTables) (photoIds : List CustomUUID) (userId : Int) :
    PhotoTables :=
  { t with metadataAccess := t.metadataAccess.filter fun row => ¬ (row.photoId ∈ photoIds ∧
    row.userId = userId) }

def StorageTables.deleteBlobAccess (t : StorageTables) (blobIds : List BlobId)
    (recipientPubkey : FixedBytes 32) : StorageTables :=
  { t with
    blobAccess := t.blobAccess.filter fun row => ¬ (row.blobId ∈ blobIds ∧
      row.recipientPubkey = recipientPubkey) }

end HopNet
