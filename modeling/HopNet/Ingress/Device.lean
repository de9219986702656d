import HopNet.Ingress.Publish

/-! One device and the mesh: PhotoKit events and the drain change the store, the publish pass claims
photos and submits what it owes the mesh, and a submission may be applied although its sender got an
error. A pass keeps the events of its photos off until it ends; only a scan may tombstone one
meanwhile. -/

namespace HopNet.Ingress

open PhotoRecord

/-- A photo in a work list of the pass, with its row as it was claimed. -/
inductive Claim where
  | publish (photo : PhotoRecord)
  | tombstone (photo : PhotoRecord)
  | edit (photo : PhotoRecord)
deriving DecidableEq

def Claim.photo : Claim → PhotoRecord
  | publish photo | tombstone photo | edit photo => photo

/-- Applied and acknowledged, applied although the sender got an error, or not applied. -/
inductive Reply where
  | ok
  | lost
  | refused

/-- `claims` is the pass's work, `held` the photos it has registered inflight. -/
structure Device where
  user : Int
  store : StateStore
  mesh : Mesh
  claims : List Claim
  held : List PhotoId

inductive DeviceEvent where
  | descriptor (desc : AssetDescriptor) (minted : PhotoId) (now : Nat) (reached : Reached)
  | tombstone (photoId : PhotoId) (now : Nat)
  | write (photoId : PhotoId) (rt : ResourceType) (content : StoredContent)
  | describe (photoId : PhotoId)
  | merge (photoId : PhotoId) (hash : ContentHash) (desc : AssetDescriptor)
  | evict (limit : Nat)
  | beginPass (claims : List Claim)
  | adopt (photo : PhotoRecord) (remote : PhotoId)
  | submit (claim : Claim) (reply : Reply)
  | skip (claim : Claim)
  | endPass
  | roster (library : CustomUUID) (members invites : List Int)
  | foreign (id : PhotoId) (photo : MeshPhoto)

namespace StateStore

variable (s : StateStore)

/-- A row of the queue that the claim is for. -/
def Claimable : Claim → Prop
  | .publish p => s.photo p.photoId = some p ∧ s.Publishable p
  | .tombstone p => s.photo p.photoId = some p ∧ p.TombstonePropagatable
  | .edit p => s.photo p.photoId = some p ∧ s.Editable p

instance (s : StateStore) (claim : Claim) : Decidable (s.Claimable claim) := by
  cases claim <;> unfold Claimable <;> infer_instance

/-- The drain may finalize the photo's resource: its row is live and unwritten. -/
def Pending (photoId : PhotoId) (rt : ResourceType) : Prop :=
  ∃ p ∈ s.photo photoId, ∃ r ∈ p.resource rt, r.written = false ∧ r.removed = false
deriving Decidable

/-- `evict_published_blobs`, of which only the stamps are the store's. -/
def evictBlobs (limit : Nat) : StateStore :=
  (s.evictableBlobs limit).foldl (fun s b => s.stampBlobEvicted b.libraryId b.contentHash) s

end StateStore

namespace Device

def start (user : Int) (libraries : List LibraryConfig) (mesh : Mesh) : Device :=
  ⟨user, ⟨libraries, [], []⟩, mesh, [], []⟩

variable (d : Device)

def setStore (store : StateStore) : Device := { d with store := store }

def setMesh (mesh : Mesh) : Device := { d with mesh := mesh }

def mark (photoId : PhotoId) (change : PhotoRecord → PhotoRecord) : Device :=
  d.setStore (d.store.updatePhoto photoId change)

def finishClaim (claim : Claim) : Device := { d with claims := d.claims.erase claim }

variable (photo : PhotoRecord) (reply : Reply)

/-- `publish`: a photo that is committed already is only marked. -/
def submitPublish : Option Device :=
  match d.store.assembleItem photo with
  | .error _ => none
  | .ok item =>
    if (d.mesh.photos photo.photoId).isSome then some (d.mark photo.photoId markPublished)
    else
      match d.mesh.recipients d.user item.library.meshLibraryId, reply with
      | .error _, _ => none
      | .ok _, .ok => some ((d.setMesh (d.mesh.photoAdd item)).mark photo.photoId markPublished)
      | .ok _, .lost => some (d.setMesh (d.mesh.photoAdd item))
      | .ok _, .refused => some d

/-- One photo of `propagate_tombstones`. -/
def submitTombstone : Device :=
  let told := d.setMesh (d.mesh.setTombstone photo.consensusId photo.deletedAt.isSome)
  match reply with
  | .ok =>
    told.mark photo.photoId
      (if photo.deletedAt.isSome then markTombstonePublished else clearTombstonePublished)
  | .lost => told
  | .refused => d

/-- One photo of `propagate_edits`. -/
def submitEdit : Option Device :=
  match d.store.assembleEditItem photo with
  | .error _ => none
  | .ok item =>
    match d.mesh.publishEdit d.user item, reply with
    | .error _, _ => none
    | .ok _, .refused => some d
    | .ok edit, .lost => (d.mesh.photoEdit edit).map d.setMesh
    | .ok edit, .ok =>
      (d.mesh.photoEdit edit).map fun mesh => (d.setMesh mesh).mark photo.photoId fun p =>
        p.markEditPublished item

def submit (claim : Claim) (reply : Reply) : Option Device :=
  match claim with
  | .publish photo => d.submitPublish photo reply
  | .tombstone photo => some (d.submitTombstone photo reply)
  | .edit photo => d.submitEdit photo reply

/-- The photo's fingerprint is committed in its scope, under its id or another device's. -/
def adopt (remote : PhotoId) : Device :=
  d.mark photo.photoId fun p => if remote = photo.photoId then p.markPublished
    else p.markAdopted remote

def next : DeviceEvent → Option Device
  | .descriptor desc minted now reached =>
    if (∀ p ∈ d.store.resolveEventPhoto desc, p.photoId ∉ d.held) ∧ d.store.photo minted = none ∧
        (d.mesh.photos minted).isNone then
      some (d.setStore (d.store.applyChange minted now desc reached).1)
    else none
  | .tombstone photoId now => some (d.setStore (d.store.tombstonePhoto photoId now))
  | .write photoId rt content =>
    if photoId ∉ d.held ∧ d.store.Pending photoId rt then
      match d.store.markResourceWritten photoId rt content with
      | .error _ => none
      | .ok (store, _) => some (d.setStore store)
    else none
  | .describe photoId =>
    if ∃ p ∈ d.store.photo photoId,
    p.materialized then some (d.mark photoId fun p => { p with hasDescriptor := true }) else none
  | .merge photoId hash desc =>
    match d.store.photo photoId with
    | some p =>
      if photoId ∉ d.held ∧ p.cloudId ≠ none ∧ d.store.Pending photoId .original then
        match p.libraryId.map fun library => d.store.lateBindingMerge library hash desc photoId with
        | some (.ok (store, _)) => some (d.setStore store)
        | _ => none
      else none
    | none => none
  | .evict limit => some (d.setStore (d.store.evictBlobs limit))
  | .beginPass claims =>
    if d.claims = [] ∧ d.held = [] ∧ claims.Nodup ∧ ∀ claim ∈ claims, d.store.Claimable claim then
      some { d with claims := claims, held := claims.map fun claim => claim.photo.photoId }
    else none
  | .adopt photo remote =>
    if Claim.publish photo ∈ d.claims ∧ photo.cloudId ≠ none ∧
        (∃ m ∈ d.mesh.photos remote, m.library = d.store.scopeOf photo) then
      some ((d.adopt photo remote).finishClaim (.publish photo))
    else none
  | .submit claim reply =>
    if claim ∈ d.claims then (d.submit claim reply).map fun d => d.finishClaim claim else none
  | .skip claim => if claim ∈ d.claims then some (d.finishClaim claim) else none
  | .endPass => if d.claims = [] then some { d with held := [] } else none
  | .roster library members invites =>
    some (d.setMesh
      { d.mesh with
        members := Function.update d.mesh.members library members
        invites := Function.update d.mesh.invites library invites })
  | .foreign id photo =>
    if (d.mesh.photos id).isNone ∧
      d.store.photo id = none then some (d.setMesh (d.mesh.setPhoto id photo)) else none

def Step (event : DeviceEvent) (d' : Device) : Prop := d.next event = some d'

end Device

end HopNet.Ingress
