import HopNet.Drive.Files
import HopNet.Lib.Table

/-!
The tables of the photos projection and the writes that `db/photos.rs` and `db/libraries.rs` make to
them. Foreign keys are on: a row that points at nothing is refused. -/

namespace HopNet

open Fallible Table

/-- Whether a photo deleted at a time is past its retention at a cutoff. -/
abbrev Expiry := String → Int → Bool

def allExpired : Expiry := fun _ _ => true

/-- A row of `device_tokens`, keyed by `id`. -/
structure DeviceRow where
  id : CustomUUID
  userId : Int
  apiKeyHash : Blake3Hash
  encryptedDeviceName : String
  wrappedUserKey : Bytes
deriving DecidableEq

/-- One X25519 wrap of a key: the ephemeral key and the ciphertext. -/
structure KeyWrap where
  ephemeralPubkey : FixedBytes 32
  wrappedKey : Bytes
deriving DecidableEq

/-- A row of `shared_libraries`, keyed by `id`. -/
structure LibraryRow where
  id : CustomUUID
  encryptedName : Bytes
  nameNonce : FixedBytes 12
deriving DecidableEq

/-- A row of `shared_library_members`, keyed by both columns. -/
structure MemberRow where
  libraryId : CustomUUID
  userId : Int
deriving DecidableEq

/-- A row of `shared_library_keys`, keyed by library and user. -/
structure LibraryKeyRow where
  libraryId : CustomUUID
  userId : Int
  wrap : KeyWrap
deriving DecidableEq

/-- A row of `shared_library_invites`, keyed by library and invitee. -/
structure InviteRow where
  libraryId : CustomUUID
  userId : Int
  invitedBy : Int
  operationId : CustomUUID
  wrap : KeyWrap
deriving DecidableEq

/-- A row of `photos`, keyed by `id`. `deletedAt` is the stored text's instant. -/
structure PhotoRow where
  id : CustomUUID
  libraryId : Option CustomUUID
  uploadedBy : Int
  encryptedMetadata : Bytes
  metadataNonce : FixedBytes 12
  deletedAt : Option Int
  deletedBy : Option Int
  cloudFingerprint : Option (FixedBytes 32)
deriving DecidableEq

/-- A row of `photo_metadata_access`, keyed by photo and user. -/
structure MetadataAccessRow where
  photoId : CustomUUID
  userId : Int
  wrap : KeyWrap
deriving DecidableEq

/-- A row of `photo_resources`, keyed by photo and type. -/
structure ResourceRow where
  photoId : CustomUUID
  resourceType : Int
  dataBlockId : BlobId
deriving DecidableEq

/-- A row of `photo_operations`, keyed by `id`, with soft pointers. -/
structure OperationRow where
  id : CustomUUID
  libraryId : Option CustomUUID
  photoId : CustomUUID
  operationType : Int
  resourceType : Option Int
  priorDataBlockId : Option BlobId
  newDataBlockId : Option BlobId
  operationData : Option Bytes
  performedBy : Int
deriving DecidableEq

/-- A row of `photo_changes`, keyed by `photo_id`. -/
structure PhotoChangeRow where
  photoId : CustomUUID
  changedAtHeight : Int
deriving DecidableEq

/-- A row of `photo_view_changes`, keyed by user and library. -/
structure ViewChangeRow where
  userId : Int
  libraryId : CustomUUID
  changedAtHeight : Int
deriving DecidableEq

/-- A row of `photo_album_entries`, keyed by album and photo. -/
structure AlbumEntryRow where
  albumId : CustomUUID
  photoId : CustomUUID
  sortOrder : Option Int
deriving DecidableEq

/-- A row of `photo_favorites`, keyed by both columns. -/
structure FavoriteRow where
  photoId : CustomUUID
  userId : Int
deriving DecidableEq

/-- A row of `photo_ingress_responsibility`: one per user and scope. -/
structure IngressRow where
  userId : Int
  libraryId : Option CustomUUID
  deviceId : CustomUUID
  operationId : CustomUUID
deriving DecidableEq

structure PhotoTables where
  libraries : List LibraryRow
  members : List MemberRow
  libraryKeys : List LibraryKeyRow
  invites : List InviteRow
  photos : List PhotoRow
  metadataAccess : List MetadataAccessRow
  resources : List ResourceRow
  operations : List OperationRow
  changes : List PhotoChangeRow
  viewChanges : List ViewChangeRow
  albumEntries : List AlbumEntryRow
  favorites : List FavoriteRow
  ingress : List IngressRow
deriving DecidableEq

def PhotoTables.empty : PhotoTables := ⟨[], [], [], [], [], [], [], [], [], [], [], [], []⟩

/-- What the photos handlers see. `currentHeight` is the last decided height. -/
structure PhotosDb where
  users : List UserRow
  devices : List DeviceRow
  storage : StorageTables
  photos : PhotoTables
  currentHeight : Nat
deriving DecidableEq

namespace PhotosDb

variable (db : PhotosDb)

def setPhotos (t : PhotoTables) : PhotosDb := { db with photos := t }

end PhotosDb

namespace PhotoTables

variable (t : PhotoTables) (libraryId : CustomUUID) (userId : Int)

def IsMember : Prop := (⟨libraryId, userId⟩ : MemberRow) ∈ t.members
deriving Decidable

def IsInvitee : Prop :=
  ∃ row ∈ t.invites, row.libraryId = libraryId ∧ row.userId = userId
deriving Decidable

variable (photoId : CustomUUID)

def photo : Option PhotoRow := t.photos.find? (·.id = photoId)

def resource (resourceType : Int) : Option BlobId :=
  (t.resources.find? fun row => row.photoId = photoId ∧ row.resourceType = resourceType).map
    (·.dataBlockId)

def PhotoExists : Prop := ∃ row ∈ t.photos, row.id = photoId
deriving Decidable

def LibraryExists : Prop := ∃ row ∈ t.libraries, row.id = libraryId
deriving Decidable

/-- A photo of this library that is not tombstoned. -/
def PhotoInLibraryLive (libraryId : CustomUUID) : Prop :=
  ∃ row ∈ t.photos, row.id = photoId ∧ row.libraryId = some libraryId ∧ row.deletedAt = none
deriving Decidable

/-- The block backs some resource of such a photo. -/
def BlockInLibrary (dataBlockId : BlobId) (libraryId : CustomUUID) : Prop :=
  ∃ row ∈ t.resources, row.dataBlockId = dataBlockId ∧ t.PhotoInLibraryLive row.photoId libraryId
deriving Decidable

/-- The uploader may write to a photo, and every member of its library. -/
def PhotoWriteAllowed (userId : Int) (photo : PhotoRow) : Prop :=
  photo.uploadedBy = userId ∨ ∃ libraryId ∈ photo.libraryId, t.IsMember libraryId userId
deriving Decidable

end PhotoTables

variable (photoId : CustomUUID) (db : PhotosDb)

/-- The feed row of a photo, at the height being applied. -/
def upsertPhotoChanges : PhotosDb :=
  db.setPhotos { db.photos with
    changes := insertOrReplace (·.photoId) ⟨photoId, heightToDb (db.currentHeight + 1)⟩
      db.photos.changes }

def insertOperationRow (row : OperationRow) (db : PhotosDb) : DbResult PhotosDb := do
  require (∀ other ∈ db.photos.operations, other.id ≠ row.id) .insertError
  require (db.photos.PhotoExists row.photoId ∧ UserExists db.users row.performedBy) .insertError
  return db.setPhotos { db.photos with operations := db.photos.operations ++ [row] }

structure MetadataAccessEntry where
  userId : Int
  wrap : KeyWrap

/-- An edit re-wraps, so a row that is there is overwritten. -/
def upsertMetadataAccessRow (entry : MetadataAccessEntry) : DbResult PhotosDb := do
  require (db.photos.PhotoExists photoId ∧ UserExists db.users entry.userId) .insertError
  return db.setPhotos { db.photos with
    metadataAccess := upsert (fun row => (row.photoId, row.userId))
      ⟨photoId, entry.userId, entry.wrap⟩ db.photos.metadataAccess }

structure PhotoResourceOp where
  resourceType : Int
  op : BlobInsertOp

structure PhotoAddEntry where
  photoId : CustomUUID
  libraryId : Option CustomUUID
  uploadedBy : Int
  encryptedMetadata : Bytes
  metadataNonce : FixedBytes 12
  resources : List PhotoResourceOp
  metadataAccess : List MetadataAccessEntry
  operationId : CustomUUID
  cloudFingerprint : Option (FixedBytes 32)

/-- Two partial indexes: unique among personal photos, and in each library. -/
def FingerprintFree (photos : List PhotoRow) (libraryId : Option CustomUUID)
    (fingerprint : Option (FixedBytes 32)) : Prop :=
  ∀ print ∈ fingerprint, ∀ row ∈ photos,
    ¬ (row.libraryId = libraryId ∧ row.cloudFingerprint = some print)
deriving Decidable

def insertPhotoRow (row : PhotoRow) (db : PhotosDb) : DbResult PhotosDb := do
  require (∀ other ∈ db.photos.photos, other.id ≠ row.id) .insertError
  require (FingerprintFree db.photos.photos row.libraryId row.cloudFingerprint) .insertError
  require (UserExists db.users row.uploadedBy ∧
    ∀ libraryId ∈ row.libraryId, db.photos.LibraryExists libraryId) .insertError
  return db.setPhotos { db.photos with photos := db.photos.photos ++ [row] }

def insertResourceRow (resource : PhotoResourceOp) : DbResult PhotosDb := do
  require (∀ row ∈ db.photos.resources,
    ¬ (row.photoId = photoId ∧ row.resourceType = resource.resourceType)) .insertError
  require (db.photos.PhotoExists photoId ∧ ∃ row ∈ db.storage.dataBlocks,
    row.id = resource.op.blobId) .insertError
  return db.setPhotos { db.photos with
    resources := db.photos.resources ++ [⟨photoId, resource.resourceType, resource.op.blobId⟩] }

/-- One entry of `photo_add`: the blobs, then the rows that point at them. -/
def insertPhotoEntry (ctx : ApplyCtx) (entry : PhotoAddEntry) (db : PhotosDb) :
    DbResult PhotosDb := do
  let storage ← applyBlobInserts ctx (entry.resources.map (·.op)) db.storage
  let db ← insertPhotoRow ⟨entry.photoId, entry.libraryId, entry.uploadedBy,
    entry.encryptedMetadata,
    entry.metadataNonce, none, none, entry.cloudFingerprint⟩ { db with storage := storage }
  let db ← entry.resources.foldlM (insertResourceRow entry.photoId) db
  let db ← entry.metadataAccess.foldlM (upsertMetadataAccessRow entry.photoId) db
  let db ← insertOperationRow ⟨entry.operationId, entry.libraryId, entry.photoId, 0, none,
    none, none, none, entry.uploadedBy⟩ db
  return upsertPhotoChanges entry.photoId db

/-- `UPDATE photos … WHERE id = ?`. -/
def PhotoTables.updatePhoto (t : PhotoTables) (photoId : CustomUUID)
    (change : PhotoRow → PhotoRow) : PhotoTables :=
  { t with photos := t.photos.map fun row => if row.id = photoId then change row else row }

/-- A tombstoned photo keeps its tombstone; the operation is logged. -/
def softDeletePhoto (deletedBy : Int) (deletedAt : Int) (libraryId : Option CustomUUID)
    (operationId : CustomUUID) (db : PhotosDb) : DbResult PhotosDb := do
  require (UserExists db.users deletedBy) .insertError
  let t := db.photos.updatePhoto photoId fun row =>
    if row.deletedAt =
      none then { row with deletedAt := some deletedAt, deletedBy := some deletedBy } else row
  let db := db.setPhotos { t with
    albumEntries := t.albumEntries.filter (·.photoId ≠ photoId)
    favorites := t.favorites.filter (·.photoId ≠ photoId) }
  let db ← insertOperationRow ⟨operationId, libraryId, photoId, 2, none, none, none, none,
    deletedBy⟩ db
  return upsertPhotoChanges photoId db

def restorePhoto (restoredBy : Int) (libraryId : Option CustomUUID)
    (operationId : CustomUUID) (db : PhotosDb) : DbResult PhotosDb := do
  require (∃ row ∈ db.photos.photos, row.id = photoId ∧ row.deletedAt ≠ none) .notFound
  let db := db.setPhotos (db.photos.updatePhoto photoId fun row =>
    if row.deletedAt ≠ none then { row with deletedAt := none, deletedBy := none } else row)
  let db ← insertOperationRow ⟨operationId, libraryId, photoId, 8, none, none, none, none,
    restoredBy⟩ db
  return upsertPhotoChanges photoId db

/-- All rows of a photo, children first. -/
def PhotoTables.dropPhoto (t : PhotoTables) (photoId : CustomUUID) : PhotoTables :=
  { t with
    operations := t.operations.filter (·.photoId ≠ photoId)
    resources := t.resources.filter (·.photoId ≠ photoId)
    metadataAccess := t.metadataAccess.filter (·.photoId ≠ photoId)
    favorites := t.favorites.filter (·.photoId ≠ photoId)
    albumEntries := t.albumEntries.filter (·.photoId ≠ photoId)
    photos := t.photos.filter (·.id ≠ photoId) }

/-- `expired deletedAt` is SQLite's `datetime(deleted_at, '+30 days') < datetime(scan_cutoff)`. An
absent photo, a restored one and one in its window are skipped. -/
def hardDeleteExpiredPhoto (expired : Int → Bool) (db : PhotosDb) (photoId : CustomUUID) :
    PhotosDb :=
  match (db.photos.photo photoId).bind (·.deletedAt) with
  | none => db
  | some deletedAt =>
    if expired deletedAt then
      let db := upsertPhotoChanges photoId db
      db.setPhotos (db.photos.dropPhoto photoId)
    else db

end HopNet
