import HopNet.Lib.Fallible
import HopNet.Lib.Table
import HopNet.Types
import Mathlib.Data.List.Sort

/-! The ingress daemon's `state.db`: libraries, photos with their resources, and the reference
counts of the blobs in the spool. A column that is only ever tested for NULL is a flag here, and the
resource rows of a photo are kept in its row: every statement reads them through the photo's id. -/

namespace HopNet.Ingress

open Table

abbrev PhotoId := CustomUUID
abbrev LibraryId := String
abbrev ContentHash := Blake3Hash

inductive ResourceType where
  | original
  | edited
  | pairedVideo
  | adjustmentData
  | rawAlternate
  | thumbnailSmall
  | thumbnailMedium
  | editedPairedVideo
deriving DecidableEq

namespace ResourceType

/-- The value of the `resource_type` column. -/
def value : ResourceType → Nat
  | original => 0
  | edited => 1
  | pairedVideo => 2
  | adjustmentData => 3
  | rawAlternate => 4
  | thumbnailSmall => 5
  | thumbnailMedium => 6
  | editedPairedVideo => 7

def fromPhType (ph : Int) : Option ResourceType :=
  if ph = 1 ∨ ph = 2 then some original
  else if ph = 5 ∨ ph = 6 then some edited
  else if ph = 9 then some pairedVideo
  else if ph = 7 then some adjustmentData
  else if ph = 4 then some rawAlternate
  else if ph = 10 then some editedPairedVideo
  else if ph = 1005 then some thumbnailSmall
  else if ph = 1006 then some thumbnailMedium
  else none

def isThumbnail : ResourceType → Bool
  | thumbnailSmall | thumbnailMedium => true
  | _ => false

end ResourceType

inductive LibraryScope where
  | personal
  | shared
deriving DecidableEq

structure LibraryConfig where
  libraryId : LibraryId
  scopeBinding : Option String
  meshLibraryId : Option CustomUUID

def icloudSharedLibraryBinding : String := "icloud-shared-library"

/-- `content_hash`, `ext` and `size_bytes`, set and cleared together. -/
structure StoredContent where
  hash : ContentHash
  ext : String
  sizeBytes : Int
deriving DecidableEq

structure ResourceRecord where
  resourceType : ResourceType
  content : Option StoredContent
  written : Bool
  publishedContentHash : Option ContentHash
  removed : Bool
deriving DecidableEq

def ResourceRecord.contentHash (r : ResourceRecord) : Option ContentHash :=
  r.content.map StoredContent.hash

structure PhotoRecord where
  photoId : PhotoId
  libraryId : Option LibraryId
  cloudId : Option String
  localId : Option String
  discoveredAt : Nat
  assetModifiedAt : Option Nat
  materialized : Bool
  hasDescriptor : Bool
  published : Bool
  consensusPhotoId : Option PhotoId
  deletedAt : Option Nat
  tombstonePublished : Bool
  publishedAssetModifiedAt : Option Nat
  resources : List ResourceRecord
deriving DecidableEq

structure BlobRecord where
  libraryId : LibraryId
  contentHash : ContentHash
  ext : String
  sizeBytes : Int
  refCount : Int
  evicted : Bool
deriving DecidableEq

def BlobRecord.key (b : BlobRecord) : LibraryId × ContentHash := (b.libraryId, b.contentHash)

structure StateStore where
  libraries : List LibraryConfig
  photos : List PhotoRecord
  blobs : List BlobRecord

inductive IngressError where
  | rowNotFound
  | constraint
  | unmappedLibraryPhoto (photoId : PhotoId)
  | missingBlobRow (library : LibraryId) (hash : ContentHash)
  | noLibraryRow (library : LibraryId)
  | unmappedScope (scope : LibraryScope)
  | cloudIdConflict (cloudId : String)

namespace PhotoRecord

variable (p : PhotoRecord)

/-- `resources_for_photo`: the rows but those whose removal is owed to the mesh. -/
def liveResources : List ResourceRecord :=
  (p.resources.filter fun r => !r.removed).insertionSort fun a b => a.resourceType.value ≤
    b.resourceType.value

variable (rt : ResourceType)

def resource : Option ResourceRecord :=
  lookup ResourceRecord.resourceType rt p.resources

/-- The primary key of `photo_resources`. -/
abbrev TypesDistinct : Prop := (p.resources.map ResourceRecord.resourceType).Nodup

/-- `UPDATE photo_resources … WHERE photo_id = ? AND resource_type = ?`. -/
def updateResource (change : ResourceRecord → ResourceRecord) : PhotoRecord :=
  { p with resources := modify ResourceRecord.resourceType rt change p.resources }

def deleteResourceRow : PhotoRecord :=
  { p with resources := delete ResourceRecord.resourceType rt p.resources }

def insertPendingResource : Except IngressError PhotoRecord :=
  if (p.resource rt).isSome then .error .constraint
  else .ok { p with resources := p.resources ++ [⟨rt, none, false, none, false⟩] }

/-- A written row is queued again; its content still points to what the new bytes replace. -/
def reopenResource : PhotoRecord :=
  p.updateResource rt fun r => { r with written := false }

/-- A resource the mesh holds becomes a removal marker; another is deleted. -/
def removeResource : PhotoRecord :=
  match p.resource rt with
  | some r =>
    if r.publishedContentHash.isSome then p.updateResource rt fun r =>
    { r with removed := true, content := none } else p.deleteResourceRow rt
  | none => p

/-- A resource row with its new content. -/
def writeResource (content : StoredContent) : PhotoRecord :=
  p.updateResource rt fun r => { r with content := some content, written := true }

/-- The blob that a write replaces: a row that was reopened still names it. -/
def superseded : Option ContentHash :=
  ((p.resource rt).filter fun r => !r.written).bind ResourceRecord.contentHash

/-- The guarded stamp of `materialized_at`: no row is unwritten. -/
def stampMaterialized : PhotoRecord :=
  if p.materialized = false ∧ ∀ r ∈ p.resources, r.written then { p with materialized := true }
    else p

def setLibrary (library : LibraryId) : PhotoRecord := { p with libraryId := some library }

/-- `adopt_library`: only a photo of an unbound scope. -/
def adoptLibrary (library : LibraryId) : PhotoRecord :=
  { p with libraryId := p.libraryId.or (some library) }

def clearMaterialized : PhotoRecord := { p with materialized := false }

/-- `stamp_resource_baseline`. -/
def stampResourceBaseline : PhotoRecord :=
  { p with
    resources := p.resources.map fun r =>
      if r.removed = false ∧ r.written then { r with publishedContentHash := r.contentHash }
        else r }

def markPublished : PhotoRecord :=
  if p.published then p
  else { p with published := true, publishedAssetModifiedAt :=
    p.assetModifiedAt }.stampResourceBaseline

def markTombstonePublished : PhotoRecord := { p with tombstonePublished := true }

def clearTombstonePublished : PhotoRecord := { p with tombstonePublished := false }

def markResourceEditPublished (hash : ContentHash) : PhotoRecord :=
  p.updateResource rt fun r => { r with publishedContentHash := some hash }

/-- A propagated edit's stamp: the bytes sent are the written row's, which the pass holds. -/
def markWrittenPublished : PhotoRecord :=
  match (p.resource rt).filter fun r => r.written && !r.removed with
  | some r =>
    match r.contentHash with
    | some hash => p.markResourceEditPublished rt hash
    | none => p
  | none => p

def finishResourceRemoval : PhotoRecord :=
  { p with resources := p.resources.filter fun r => ¬ (r.resourceType = rt ∧ r.removed) }

end PhotoRecord

/-- Outcome of `mark_resource_written`: whether the photo is complete, and the superseded blob at
zero, whose file the caller deletes. -/
structure WriteCommit where
  photoCompleted : Bool
  reapSuperseded : Option (ContentHash × String)

namespace StateStore

variable (s : StateStore)

def photo (id : PhotoId) : Option PhotoRecord := lookup PhotoRecord.photoId id s.photos

def library (id : LibraryId) : Option LibraryConfig :=
  lookup LibraryConfig.libraryId id s.libraries

variable (library : LibraryId)

def blob (hash : ContentHash) : Option BlobRecord :=
  lookup BlobRecord.key (library, hash) s.blobs

def updatePhoto (id : PhotoId) (change : PhotoRecord → PhotoRecord) : StateStore :=
  { s with photos := modify PhotoRecord.photoId id change s.photos }

def updateBlob (hash : ContentHash) (change : BlobRecord → BlobRecord) : StateStore :=
  { s with blobs := modify BlobRecord.key (library, hash) change s.blobs }

/-- The library that a PhotoKit scope is routed to. -/
def resolveScope : LibraryScope → Option LibraryId
  | .personal => (s.libraries.find? (·.scopeBinding = none)).map LibraryConfig.libraryId
  | .shared =>
    (s.libraries.find? fun l => l.scopeBinding = some icloudSharedLibraryBinding).map
      LibraryConfig.libraryId

/-- `upsert_increment`: on a conflict the first `ext` and the eviction stamp stay. -/
def upsertIncrement (hash : ContentHash) (ext : String) (sizeBytes : Int) : StateStore :=
  if (s.blob library hash).isSome then s.updateBlob library hash fun b => { b with refCount :=
  b.refCount + 1 } else { s with blobs := s.blobs ++ [⟨library, hash, ext, sizeBytes, 1, false⟩] }

/-- `decrement_and_reap`: at zero the row goes, its `ext` returned for the file. -/
def decrementAndReap (hash : ContentHash) : Except IngressError (StateStore × Option String) :=
  match s.blob library hash with
  | none => .error (.missingBlobRow library hash)
  | some b =>
    if b.refCount - 1 = 0 then
      .ok ({ s with blobs := delete BlobRecord.key (library, hash) s.blobs }, some b.ext)
    else .ok (s.updateBlob library hash fun b => { b with refCount := b.refCount - 1 }, none)

def stampBlobEvicted (hash : ContentHash) : StateStore :=
  s.updateBlob library hash fun b => { b with evicted := true }

def clearBlobEviction (hash : ContentHash) : StateStore :=
  s.updateBlob library hash fun b => { b with evicted := false }

/-- `hash_is_live`: some library's row still expects the bytes on disk. -/
def hashIsLive (hash : ContentHash) : Bool :=
  s.blobs.any fun b => decide (b.contentHash = hash) && !b.evicted

/-- It keeps a blob from eviction: its photo is unpublished, or the mesh has other bytes. -/
def Blocked (hash : ContentHash) : Prop :=
  ∃ p ∈ s.photos, p.libraryId = some library ∧
    ∃ r ∈ p.resources, r.contentHash = some hash ∧
      (p.published = false ∨ r.publishedContentHash ≠ some hash)
deriving Decidable

/-- `evictable_blobs`; the rows stand in the order they were written. -/
def evictableBlobs (limit : Nat) : List BlobRecord :=
  (s.blobs.filter fun b => b.evicted = false ∧ ¬ s.Blocked b.libraryId b.contentHash).take limit

/-- `mark_resource_written`: the content, the counts of the new and the superseded blob, and the
photo's completion, in one transaction. -/
def markResourceWritten (photoId : PhotoId) (rt : ResourceType) (content : StoredContent) :
    Except IngressError (StateStore × WriteCommit) :=
  match s.photo photoId with
  | none => .error .rowNotFound
  | some p =>
    match p.libraryId with
    | none => .error (.unmappedLibraryPhoto photoId)
    | some library => do
        let written := p.writeResource rt content
        let completed := written.stampMaterialized
        let counted := (s.updatePhoto photoId fun _ => completed).upsertIncrement library
          content.hash content.ext content.sizeBytes
        match p.superseded rt with
        | none => pure (counted, ⟨decide (completed ≠ written), none⟩)
        | some old =>
          let (swapped, reaped) ← counted.decrementAndReap library old
          pure (swapped, ⟨decide (completed ≠ written), reaped.map fun ext => (old, ext)⟩)

end StateStore

end HopNet.Ingress
