import HopNet.Ingress.Changes

/-! The three queues of the publish pass, what the pass assembles for the mesh from a claimed photo,
and the part of consensus that its submissions change. Attempts and backoff only put a claim off and
are left out, and the file that a resource's bytes are read from is there or the submission is not
made. -/

namespace HopNet.Ingress

open Fallible PhotoRecord

/-- A publish target: the personal library, or a shared one bound to the mesh. -/
def LibraryConfig.Publishes (l : LibraryConfig) : Prop :=
  l.scopeBinding = none ∨ l.meshLibraryId ≠ none
deriving Decidable

namespace PhotoRecord

variable (p : PhotoRecord)

/-- The photo's id in consensus: an adopted one keeps its first publisher's. -/
def consensusId : PhotoId := p.consensusPhotoId.getD p.photoId

/-- The photo's tombstone is not the one the mesh was told of. -/
def TombstonePropagatable : Prop :=
  p.published ∧ (p.deletedAt.isSome ∧ p.tombstonePublished = false ∨ p.deletedAt = none ∧
    p.tombstonePublished)
deriving Decidable

/-- The photo's bytes or metadata moved on from what the mesh was told. -/
def Diverged : Prop :=
  p.publishedAssetModifiedAt ≠ p.assetModifiedAt ∨ ∃ r ∈ p.resources,
    r.removed ∧ r.publishedContentHash ≠ none ∨
      r.removed = false ∧ r.written ∧ r.publishedContentHash ≠ r.contentHash
deriving Decidable

def pendingRemovals : List ResourceType :=
  ResourceType.all.filter fun rt =>
    p.resources.any fun r => r.resourceType = rt ∧ r.removed ∧ r.publishedContentHash ≠ none

def markAdopted (remote : PhotoId) : PhotoRecord :=
  if p.published then p
  else
    { p with
      published := true
      consensusPhotoId := some remote
      publishedAssetModifiedAt := p.assetModifiedAt }.stampResourceBaseline

def markMetadataPublished : PhotoRecord := { p with publishedAssetModifiedAt := p.assetModifiedAt }

end PhotoRecord

namespace StateStore

variable (s : StateStore) (p : PhotoRecord)

def publishLibrary : Option LibraryConfig :=
  (p.libraryId.bind s.library).filter (·.Publishes)

/-- The publish scope of a photo's library, `none` for the personal partition. -/
def scopeOf : Option CustomUUID :=
  (p.libraryId.bind s.library).bind LibraryConfig.meshLibraryId

/-- `publishable_photos`. -/
def Publishable : Prop :=
  (s.publishLibrary p).isSome ∧ p.published = false ∧ p.materialized ∧ p.deletedAt = none
deriving Decidable

/-- `editable_photos`. -/
def Editable : Prop :=
  (s.publishLibrary p).isSome ∧ p.published ∧ p.materialized ∧ p.deletedAt = none ∧ p.Diverged
deriving Decidable

end StateStore

inductive AssembleSkip where
  | missingDescriptor
  | nothingToDo
  | transient

/-- A resource of a submission. -/
structure SentResource where
  resourceType : ResourceType
  content : StoredContent

structure PublishItem where
  photo : PhotoRecord
  library : LibraryConfig
  resources : List SentResource

structure EditItem where
  consensusPhotoId : PhotoId
  library : LibraryConfig
  resources : List SentResource
  removals : List ResourceType
  metadataChanged : Bool

namespace StateStore

/-- What to send of the live rows: a written row has its hash, extension and size. -/
def sentResources (rows : List ResourceRecord) : Except AssembleSkip (List SentResource) :=
  rows.mapM fun r =>
    match r.content with
    | some content => .ok ⟨r.resourceType, content⟩
    | none => .error .transient

variable (s : StateStore)

/-- The live rows of a photo, read again for the submission. -/
def currentRows (id : PhotoId) : List ResourceRecord :=
  ((s.photo id).map liveResources).getD []

variable (photo : PhotoRecord)

/-- The checks both assemblers begin with: the claimed photo's library and capsule. -/
def assembleLibrary : Except AssembleSkip LibraryConfig :=
  match s.publishLibrary photo with
  | none => .error .transient
  | some library => if photo.hasDescriptor then .ok library else .error .missingDescriptor

def assembleItem : Except AssembleSkip PublishItem := do
  let library ← s.assembleLibrary photo
  let resources ← sentResources ((s.currentRows photo.photoId).filter (·.written))
  require (resources ≠ []) .transient
  pure ⟨photo, library, resources⟩

def assembleEditItem : Except AssembleSkip EditItem := do
  let library ← s.assembleLibrary photo
  let resources ← sentResources ((s.currentRows photo.photoId).filter fun r =>
    r.written ∧ r.publishedContentHash ≠ r.contentHash)
  let removals := ((s.photo photo.photoId).map pendingRemovals).getD []
  let metadataChanged := decide (photo.publishedAssetModifiedAt ≠ photo.assetModifiedAt)
  require (resources ≠ [] ∨ removals ≠ [] ∨ metadataChanged) .nothingToDo
  pure ⟨photo.consensusId, library, resources, removals, metadataChanged⟩

end StateStore

/-- What consensus has of a photo: its library, whether it is tombstoned, and each resource's
hash. -/
structure MeshPhoto where
  library : Option CustomUUID
  tombstoned : Bool
  resources : ResourceType → Option ContentHash

/-- What the daemon sees of consensus: photos, and a shared library's users. -/
structure Mesh where
  photos : PhotoId → Option MeshPhoto
  members : CustomUUID → List Int
  invites : CustomUUID → List Int

inductive PublishRefusal where
  | notMember
  | noRecipients
  | duplicateRecipient
  | invalidPersonalRecipients
  | uploaderNotMember
  | emptyEdit
  | nonPositiveSize
  | duplicateByteSource
  | duplicateRemoval
  | editedAndRemoved

/-- An edit as sent: the users that each new blob's key is wrapped for, and those of the new
metadata key, if any. -/
structure EditSubmission where
  photoId : PhotoId
  resources : List SentResource
  removals : List ResourceType
  blobKeysFor : List Int
  metadataKeyFor : Option (List Int)

/-- The stamps of an acknowledged edit, in one transaction. -/
def PhotoRecord.markEditPublished (p : PhotoRecord) (item : EditItem) : PhotoRecord :=
  let stamped :=
    item.resources.foldl (fun p r => p.markResourceEditPublished r.resourceType r.content.hash) p
  let finished := item.removals.foldl finishResourceRemoval stamped
  if item.metadataChanged then finished.markMetadataPublished else finished

namespace Mesh

variable (m : Mesh) (user : Int)

/-- `read_library_membership`: the uploader alone, else the members and the invitees. -/
def readLibraryMembership : Option CustomUUID → Except PublishRefusal (List Int)
  | none => .ok [user]
  | some library => do
      require (user ∈ m.members library ∨ user ∈ m.invites library) .notMember
      pure ((m.members library ++ m.invites library).dedup.insertionSort fun a b => a ≤ b)

variable (library : Option CustomUUID)

def validateRecipients (members : List Int) : Except PublishRefusal Unit := do
  require (members ≠ []) .noRecipients
  require members.Nodup .duplicateRecipient
  require (library = none → members = [user]) .invalidPersonalRecipients
  require (library ≠ none → user ∈ members) .uploaderNotMember

/-- The users that a publish wraps its keys for. -/
def recipients : Except PublishRefusal (List Int) := do
  let members ← m.readLibraryMembership user library
  validateRecipients user library members
  pure members

/-- The checks of `validate_edit` on the edit itself. -/
def validateEdit (item : EditItem) : Except PublishRefusal Unit := do
  require (item.resources ≠ [] ∨ item.removals ≠ [] ∨ item.metadataChanged) .emptyEdit
  require (item.resources.map SentResource.resourceType).Nodup .duplicateByteSource
  require item.removals.Nodup .duplicateRemoval
  require (∀ rt ∈ item.removals, rt ∉ item.resources.map SentResource.resourceType)
    .editedAndRemoved

/-- `publish_edit` and `publish_photo_edit`, until the transaction is submitted. -/
def publishEdit (item : EditItem) : Except PublishRefusal EditSubmission := do
  require (∀ r ∈ item.resources, 0 < r.content.sizeBytes) .nonPositiveSize
  let recipients ← m.readLibraryMembership user item.library.meshLibraryId
  validateEdit item
  validateRecipients user item.library.meshLibraryId recipients
  pure ⟨item.consensusPhotoId, item.resources, item.removals, recipients,
    if item.metadataChanged then some recipients else none⟩

def setPhoto (id : PhotoId) (photo : MeshPhoto) : Mesh :=
  { m with photos := Function.update m.photos id (some photo) }

def sentHash (sent : List SentResource) (rt : ResourceType) : Option ContentHash :=
  (Table.lookup SentResource.resourceType rt sent).map (·.content.hash)

/-- `photo_add` of a new id. -/
def photoAdd (item : PublishItem) : Mesh :=
  m.setPhoto item.photo.photoId ⟨item.library.meshLibraryId, false, sentHash item.resources⟩

/-- `photo_delete` and `photo_restore`; an unknown id is passed over. -/
def setTombstone (id : PhotoId) (tombstoned : Bool) : Mesh :=
  match m.photos id with
  | some photo => m.setPhoto id { photo with tombstoned := tombstoned }
  | none => m

def editedResources (resources : ResourceType → Option ContentHash) (sent : List SentResource)
    (removals : List ResourceType) (rt : ResourceType) : Option ContentHash :=
  if rt ∈ removals then none else (sentHash sent rt).or (resources rt)

/-- `photo_edit_content` and `photo_edit_metadata`, refused for a missing or tombstoned photo. -/
def photoEdit (edit : EditSubmission) : Option Mesh :=
  match m.photos edit.photoId with
  | some photo =>
    if photo.tombstoned then none
    else some (m.setPhoto edit.photoId
      { photo with resources := editedResources photo.resources edit.resources edit.removals })
  | none => none

end Mesh

end HopNet.Ingress
