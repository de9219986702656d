import HopNet.Ingress.Markers
import Mathlib.Data.List.Dedup

namespace HopNet.Ingress

open List Option Fallible StateStore PhotoRecord Mesh

open Runs (Reaches)

/-- The uploader alone, or the members and invitees of the shared library. -/
def Mesh.audience (m : Mesh) (user : Int) : Option CustomUUID → List Int
  | none => [user]
  | some library => m.members library ++ m.invites library

/-- Everyone in one list is in the other. -/
def SameUsers (a b : List Int) : Prop := (∀ u ∈ a, u ∈ b) ∧ ∀ u ∈ b, u ∈ a
deriving Decidable

/-- Every key of the edit is wrapped for exactly these users. -/
def EditSubmission.For (edit : EditSubmission) (users : List Int) : Prop :=
  SameUsers edit.blobKeysFor users ∧ ∀ keyed ∈ edit.metadataKeyFor, SameUsers keyed users
deriving Decidable

lemma Mesh.sameUsers_readLibraryMembership {m : Mesh} {user library users}
    (hr : m.readLibraryMembership user library = .ok users) :
    SameUsers users (m.audience user library) := by
  cases library with
  | none =>
    cases hr
    exact ⟨fun _ => id, fun _ => id⟩
  | some library =>
    simp only [readLibraryMembership, bind_eq_ok, pure_eq_ok, require_eq_ok] at hr
    obtain ⟨_, _, rfl⟩ := hr
    constructor
    · intro u hu
      rwa [mem_insertionSort, mem_dedup] at hu
    · intro u ha
      rwa [mem_insertionSort, mem_dedup]

namespace Device

variable (d : Device)

def editOf : Claim → Option EditSubmission
  | .edit photo =>
    match d.store.assembleEditItem photo with
    | .error _ => none
    | .ok item =>
      match d.mesh.publishEdit d.user item with
      | .error _ => none
      | .ok edit => some edit
  | .publish _ | .tombstone _ => none

/-- Every edit submitted is for the audience of the library that the mesh has the photo in. -/
def Addressed : Prop :=
  ∀ claim ∈ d.claims, ∀ edit ∈ d.editOf claim, ∀ m ∈ d.mesh.photos edit.photoId,
    edit.For (d.mesh.audience d.user m.library)
deriving Decidable

/-- A descriptor of a photo on the mesh comes under a scope without a library, or with the mesh
binding of the photo's own. -/
def Stays : DeviceEvent → Prop
  | .descriptor desc .. => ∀ p ∈ d.store.resolveEventPhoto desc,
      (d.mesh.photos p.consensusId).isSome → ∀ library ∈ d.store.resolveScope desc.scope,
        (d.store.library library).bind LibraryConfig.meshLibraryId = d.store.scopeOf p
  | _ => True

instance (d : Device) (event : DeviceEvent) : Decidable (d.Stays event) := by
  apply DeviceEvent.casesOn (motive := fun event => Decidable (d.Stays event)) event <;> intros <;>
    dsimp only [Stays] <;> infer_instance

end Device

/-- The row of a photo after a step that neither moves nor adopts it. -/
structure PhotoRecord.Alike (p q : PhotoRecord) : Prop where
  photoId : q.photoId = p.photoId
  libraryId : q.libraryId = p.libraryId
  consensusPhotoId : q.consensusPhotoId = p.consensusPhotoId
  published : p.published = true → q.published = true
  types : p.TypesDistinct → q.TypesDistinct

variable {p q : PhotoRecord} {c : Claim}

lemma StateStore.scopeOf_congr {s s' : StateStore} (hl : s'.libraries = s.libraries)
    (library : q.libraryId = p.libraryId) : s'.scopeOf q = s.scopeOf p := by
  rw [scopeOf, library, library_congr hl]
  rfl

namespace PhotoRecord

lemma Alike.refl (p : PhotoRecord) : p.Alike p := ⟨rfl, rfl, rfl, id, id⟩

lemma Alike.consensusId (ha : p.Alike q) : q.consensusId = p.consensusId := by
  rw [PhotoRecord.consensusId, PhotoRecord.consensusId, ha.consensusPhotoId, ha.photoId]

lemma Restamped.alike (hs : p.Restamped q) (hp : p.published = true → q.published = true) :
    p.Alike q := by
  refine ⟨?_, ?_, ?_, hp, hs.types⟩ <;> rw [hs.same]

lemma alike_markPublished (p : PhotoRecord) : p.Alike p.markPublished := by
  cases hp : p.published with
  | true =>
    rw [markPublished_of_published hp]
    exact .refl p
  | false => exact (restamped_markPublished hp).alike fun _ => p.published_markPublished

lemma alike_markEditPublished (p : PhotoRecord) (item : EditItem) :
    p.Alike (p.markEditPublished item) := by
  obtain ⟨hs, same⟩ := restamped_markEditPublished p item
  exact hs.alike fun hp => same.trans hp

lemma alike_written (p : PhotoRecord) (rt : ResourceType) (content : StoredContent) :
    p.Alike (p.writeResource rt content).stampMaterialized := by
  refine ⟨?_, ?_, ?_, ?_, types_written rt content⟩ <;> rw [writeResource_eq]
  exact id

end PhotoRecord

/-- The claimed photo's row has the library and consensus id it was claimed with. -/
def Claim.Stands : Claim → PhotoRecord → Prop
  | .publish photo, p => p.libraryId = photo.libraryId
  | .tombstone _, _ => True
  | .edit photo, p =>
    p.libraryId = photo.libraryId ∧ p.published = true ∧ p.consensusPhotoId = photo.consensusPhotoId

lemma Claim.Stands.congr (hs : c.Stands p) (hl : q.libraryId = p.libraryId)
    (hp : p.published = true → q.published = true) (hc : q.consensusPhotoId = p.consensusPhotoId) :
    c.Stands q := by
  cases c with
  | publish photo => exact hl.trans hs
  | tombstone photo => trivial
  | edit photo => exact ⟨hl.trans hs.1, hp hs.2.1, hc.trans hs.2.2⟩

lemma Claim.Stands.alike (hs : c.Stands p) (ha : p.Alike q) : c.Stands q :=
  hs.congr ha.libraryId ha.published ha.consensusPhotoId

/-- The mesh has the photo in the library that the row's is bound to, and has its adopted id. -/
structure PhotoRecord.Placed (s : StateStore) (mesh : Mesh) (p : PhotoRecord) : Prop where
  types : p.TypesDistinct
  library : ∀ m, mesh.photos p.consensusId = some m → m.library = s.scopeOf p
  adopted : ∀ remote, p.consensusPhotoId = some remote → (mesh.photos remote).isSome

variable {s s' : StateStore} {mesh : Mesh} {id : PhotoId}

namespace PhotoRecord

variable {mesh' : Mesh}

/-- The row is neither moved nor adopted, nor a placement on the mesh changed. -/
lemma Placed.alike (row : p.Placed s mesh) (hal : p.Alike q) (hl : s'.libraries = s.libraries)
    (same : ∀ id, (mesh'.photos id).map MeshPhoto.library =
      (mesh.photos id).map MeshPhoto.library) :
    q.Placed s' mesh' := by
  refine ⟨hal.types row.types, fun m ho => ?_, fun remote ha => ?_⟩
  · have hm := same q.consensusId
    rw [ho, hal.consensusId] at hm
    obtain ⟨m₀, ho0, hs⟩ := map_eq_some_iff.1 hm.symm
    rw [scopeOf_congr hl hal.libraryId, ← row.library m₀ ho0, hs]
  · rw [hal.consensusPhotoId] at ha
    have hm := congrArg Option.isSome (same remote)
    simp only [isSome_map] at hm
    exact hm.trans (row.adopted remote ha)

lemma Placed.apart (row : p.Placed s mesh) (photo : MeshPhoto) (hm : mesh.photos id = none)
    (hd : p.photoId ≠ id) : p.Placed s (mesh.setPhoto id photo) := by
  have hot : ∀ remote, p.consensusPhotoId = some remote → remote ≠ id := by
    rintro remote ha rfl
    have hp := row.adopted remote ha
    rw [hm] at hp
    cases hp
  have hc : p.consensusId ≠ id := by
    cases ha : p.consensusPhotoId with
    | none => rwa [consensusId, ha]
    | some remote =>
      rw [consensusId, ha]
      exact hot remote ha
  refine ⟨row.types, fun m ho => row.library m ?_, fun remote ha => ?_⟩
  · rwa [setPhoto_of_ne _ _ hc] at ho
  · rw [setPhoto_of_ne _ _ (hot remote ha)]
    exact row.adopted remote ha

end PhotoRecord

def placedRows : RowInvariant where
  Row := PhotoRecord.Placed
  Fits := fun _ => Claim.Stands
  types := fun row => row.types
  congr := fun hl same row => row.alike (.refl _) hl fun id => by rw [same]
  fits := fun _ same hs => hs.congr same.libraryId same.published.trans same.consensusPhotoId
  apart := fun photo hm hd row => row.apart photo hm hd

variable {d d' : Device} {store : StateStore}

namespace Device

open PhotoRecord (alike_markPublished alike_markEditPublished)

variable {photo : PhotoRecord} {reply : Reply}

lemma Holds.replaceAlike (hh : d.Holds placedRows) (hf : d.store.photo id = some p)
    (hr : StateStore.Replaces id q d.store store) (ha : p.Alike q)
    (hs : ∀ id, (mesh.photos id).map MeshPhoto.library = (d.mesh.photos id).map MeshPhoto.library) :
    ((d.setMesh mesh).setStore store).Holds placedRows :=
  hh.replace hf hr (fun _ _ _ _ row => row.alike (.refl _) rfl hs)
    (PhotoRecord.Placed.alike (hh.photos id p hf) ha rfl hs) fun _ _ _ fits => fits.alike ha

lemma scopeOf_assembleLibrary {library} (ha : store.assembleLibrary photo = .ok library) :
    store.scopeOf photo = library.meshLibraryId := by
  unfold assembleLibrary at ha
  split at ha
  · cases ha
  · next ht =>
      split_ifs at ha
      cases ha
      obtain ⟨hl, _⟩ := filter_eq_some_iff.1 ht
      rw [scopeOf, hl]
      rfl

/-- A claim's edit names the claimed id, its keys for the claimed library's binding. -/
lemma editOf_edit {edit} (hf : d.store.photo photo.photoId = some p)
    (he : d.editOf (.edit photo) = some edit) :
    edit.photoId = photo.consensusId ∧
    edit.For (d.mesh.audience d.user (d.store.scopeOf photo)) := by
  rw [editOf] at he
  split at he
  · cases he
  · next item has =>
      split at he
      · cases he
      · next sent hp =>
          cases he
          obtain ⟨hph, ha, _⟩ := assembleEditItem_sent hf has
          obtain ⟨users, hr, rfl⟩ := publishEdit_ok hp
          have hs := sameUsers_readLibraryMembership hr
          rw [scopeOf_assembleLibrary ha]
          refine ⟨hph, hs, fun keyed hk => ?_⟩
          have hk : (if item.metadataChanged then some users else none) = some keyed := hk
          split_ifs at hk
          cases hk
          exact hs

lemma Holds.addressed (hh : d.Holds placedRows) : d.Addressed := by
  intro claim hcl edit he m ho
  cases claim with
  | publish | tombstone => cases he
  | edit photo =>
    obtain ⟨_, p, hf, hl, _, hc⟩ := hh.claims _ hcl
    have hn : p.photoId = photo.photoId := (mem_of_photo hf).2
    obtain ⟨hph, hk⟩ := editOf_edit hf he
    have ho : d.mesh.photos photo.consensusId = some m := hph ▸ ho
    have ho : d.mesh.photos p.consensusId = some m := by
      rw [PhotoRecord.consensusId, hc, hn]
      exact ho
    have row : p.Placed d.store d.mesh := hh.photos _ p hf
    rw [row.library m ho, scopeOf_congr rfl hl]
    exact hk

lemma Holds.submitPublish_placed (hh : d.Holds placedRows)
    (hc : Claim.publish photo ∈ d.claims) (ran : d.submitPublish photo reply = some d') :
    d'.Holds placedRows := by
  obtain ⟨_, p, hfo, hl⟩ := hh.claims _ hc
  have hfo : d.store.photo photo.photoId = some p := hfo
  have row : p.Placed d.store d.mesh := hh.photos _ p hfo
  unfold Device.submitPublish at ran
  split at ran
  · cases ran
  · next item has =>
      obtain ⟨hph, ha, _⟩ := assembleItem_sent hfo has
      split_ifs at ran with ho
      · cases ran
        exact hh.replaceAlike hfo (.update _ hfo (fun _ => (alike_markPublished _).photoId.trans)
          rfl rfl) (alike_markPublished p) fun _ => rfl
      · have hm : d.mesh.photos photo.photoId = none := by simpa using ho
        have here : (d.mesh.photoAdd item).photos photo.photoId =
            some ⟨item.library.meshLibraryId, false, sentHash item.resources⟩ := by
          rw [photoAdd, hph]
          exact setPhoto_self ..
        have he : ∀ other q, other ≠ photo.photoId → d.store.photo other = some q →
          q.Placed d.store d.mesh →
            q.Placed d.store (d.mesh.photoAdd item) := fun other q hd hf row =>
          row.apart _ (hph ▸ hm) (by rwa [hph, (mem_of_photo hf).2])
        have had : p.Placed d.store (d.mesh.photoAdd item) := by
          refine ⟨row.types, fun m ho => ?_, fun remote hr => ?_⟩
          · -- an adopted id would be on the mesh already, so the row is under its own
            by_cases how : p.consensusId = photo.photoId
            · cases here.symm.trans (how ▸ ho)
              exact ((scopeOf_congr rfl hl).trans (scopeOf_assembleLibrary ha)).symm
            · rw [photoAdd, hph, setPhoto_of_ne _ _ how] at ho
              exact row.library m ho
          · have hs := row.adopted remote hr
            rw [photoAdd, hph, setPhoto_of_ne _ _ fun same => by rw [same, hm] at hs; cases hs]
            exact hs
        split at ran
        · cases ran
        · cases ran
          exact hh.replace hfo
            (.update _ hfo (fun _ => (alike_markPublished _).photoId.trans) rfl rfl) he
            (had.alike (alike_markPublished p) rfl fun _ => rfl) fun _ _ _ fits =>
              fits.alike (alike_markPublished p)
        · cases ran
          exact hh.replace hfo (.refl hfo) he had fun _ _ _ fits => fits
        · cases ran
          exact hh

lemma library_setPhoto {photo photo'} (hf : mesh.photos id = some photo)
    (hs : photo'.library = photo.library) (other : PhotoId) :
    ((mesh.setPhoto id photo').photos other).map MeshPhoto.library =
      (mesh.photos other).map MeshPhoto.library := by
  rcases eq_or_ne other id with rfl | ha
  · rw [setPhoto_self, hf, map_some, map_some, hs]
  · rw [setPhoto_of_ne _ _ ha]

lemma library_setTombstone (mesh : Mesh) (id : PhotoId) (tombstoned : Bool) (other : PhotoId) :
    ((mesh.setTombstone id tombstoned).photos other).map MeshPhoto.library =
      (mesh.photos other).map MeshPhoto.library := by
  unfold setTombstone
  split
  · next photo hf => exact library_setPhoto hf (by rfl) other
  · rfl

lemma library_photoEdit {edit mesh'} (ran : mesh.photoEdit edit = some mesh') (other : PhotoId) :
    (mesh'.photos other).map MeshPhoto.library = (mesh.photos other).map MeshPhoto.library := by
  obtain ⟨photo, hf, rfl⟩ := photoEdit_eq_some ran
  exact library_setPhoto hf (by rfl) other

lemma Holds.submitTombstone_placed (hh : d.Holds placedRows)
    (hc : Claim.tombstone photo ∈ d.claims) : (d.submitTombstone photo reply).Holds placedRows := by
  obtain ⟨_, p, hf, _⟩ := hh.claims _ hc
  have hs := library_setTombstone d.mesh photo.consensusId photo.deletedAt.isSome
  cases reply with
  | refused => exact hh
  | lost => exact hh.replaceAlike hf (.refl hf) (.refl p) hs
  | ok =>
    have ha : ∀ p : PhotoRecord, p.Alike ((if photo.deletedAt.isSome then markTombstonePublished
        else clearTombstonePublished) p) := by
      intro p
      split_ifs <;> exact ⟨rfl, rfl, rfl, id, id⟩
    exact hh.replaceAlike hf (.update _ hf (fun _ => (ha _).photoId.trans) rfl rfl) (ha p) hs

lemma Holds.submitEdit_placed (hh : d.Holds placedRows)
    (hc : Claim.edit photo ∈ d.claims) (ran : d.submitEdit photo reply = some d') :
    d'.Holds placedRows := by
  obtain ⟨_, p, hf, _⟩ := hh.claims _ hc
  unfold Device.submitEdit at ran
  split at ran
  · cases ran
  · next item _ =>
      split at ran
      · cases ran
      · cases ran
        exact hh
      · obtain ⟨mesh', he, rfl⟩ := map_eq_some_iff.1 ran
        exact hh.replaceAlike hf (.refl hf) (.refl p) (library_photoEdit he)
      · obtain ⟨mesh', he, rfl⟩ := map_eq_some_iff.1 ran
        exact hh.replaceAlike hf
          (.update _ hf (fun _ => (alike_markEditPublished _ item).photoId.trans) rfl rfl)
          (alike_markEditPublished p item) (library_photoEdit he)

end Device

namespace PhotoRecord

variable {remote : PhotoId}

lemma markAdopted_of_published (hp : p.published = true) : p.markAdopted remote = p := by
  rw [markAdopted, hp]
  rfl

lemma markAdopted_of_unpublished (hu : p.published = false) : p.markAdopted remote =
    ({ p with
      published := true
      consensusPhotoId := some remote
      publishedAssetModifiedAt := p.assetModifiedAt } : PhotoRecord).stampResourceBaseline := by
  rw [markAdopted, hu]
  rfl

lemma markAdopted_ids (p : PhotoRecord) (remote : PhotoId) :
    (p.markAdopted remote).photoId = p.photoId ∧
    (p.markAdopted remote).libraryId = p.libraryId := by
  unfold markAdopted
  split_ifs <;> exact ⟨rfl, rfl⟩

lemma Placed.markAdopted {m} (row : p.Placed s mesh) (ho : mesh.photos remote = some m)
    (hs : m.library = s.scopeOf p) : (p.markAdopted remote).Placed s mesh := by
  cases hp : p.published with
  | true =>
    rw [markAdopted_of_published hp]
    exact row
  | false =>
    rw [markAdopted_of_unpublished hp]
    refine ⟨(restamped_stampResourceBaseline _).types row.types, fun m' ho' => ?_,
      fun other ha => ?_⟩
    · cases ho.symm.trans ho'
      exact hs
    · cases ha
      rw [ho]
      rfl

end PhotoRecord

lemma Claim.Stands.markAdopted {p} (hs : c.Stands p) (remote : PhotoId) :
    c.Stands (p.markAdopted remote) := by
  cases c with
  | publish photo => exact (p.markAdopted_ids remote).2.trans hs
  | tombstone photo => trivial
  | edit photo =>
    rw [markAdopted_of_published hs.2.1]
    exact hs

namespace Device

open PhotoRecord (alike_markPublished)

lemma Holds.adopt_placed {photo remote m} (hh : d.Holds placedRows)
    (hc : Claim.publish photo ∈ d.claims) (ho : d.mesh.photos remote = some m)
    (hs : m.library = d.store.scopeOf photo) : (d.adopt photo remote).Holds placedRows := by
  obtain ⟨_, p, hf, hl⟩ := hh.claims _ hc
  rw [Device.adopt]
  by_cases how : remote = photo.photoId
  · simp only [if_pos how]
    exact hh.replaceAlike hf (.update _ hf (fun _ => (alike_markPublished _).photoId.trans) rfl rfl)
      (alike_markPublished p) fun _ => rfl
  · simp only [if_neg how]
    refine hh.replace hf
      (.update (fun p => p.markAdopted remote) hf
        (fun p hi => (p.markAdopted_ids remote).1.trans hi) rfl rfl)
      (fun _ _ _ _ row => row) (PhotoRecord.Placed.markAdopted (hh.photos _ p hf) ho ?_)
      fun c _ _ hst => hst.markAdopted remote
    exact hs.trans (scopeOf_congr rfl hl).symm

lemma renewed_placed {desc p'} (row : p.Placed d.store d.mesh) (hr : p.Renewed d.store desc p')
    (hst : (d.mesh.photos p.consensusId).isSome → ∀ library ∈ d.store.resolveScope desc.scope,
      (d.store.library library).bind LibraryConfig.meshLibraryId = d.store.scopeOf p) : p'.Placed
        d.store d.mesh := by
  have hd := hr.described
  have hn : p'.photoId = p.photoId := by rw [hd.same]
  have hc : p'.consensusPhotoId = p.consensusPhotoId := by rw [hd.same]
  have hsi : p'.consensusId = p.consensusId := by
    rw [PhotoRecord.consensusId, PhotoRecord.consensusId, hc, hn]
  refine ⟨hd.types row.types, fun m ho => ?_, hc ▸ row.adopted⟩
  rw [hsi] at ho
  rw [row.library m ho]
  rcases hd.library with same | ⟨hs, hm⟩
  · exact (scopeOf_congr rfl same).symm
  · obtain ⟨library, hh⟩ := ne_none_iff_exists'.1 hm
    rw [← hst (by rw [ho]; rfl) library (hs.symm.trans hh), scopeOf, hh]
    rfl

lemma placedRows_rules : placedRows.Rules Stays where
  minted := by
    intro s mesh minted now desc library hf
    refine ⟨(newPhoto_resources minted now desc library).1, fun m ho => ?_, fun remote ha => ?_⟩
    · cases hf.symm.trans ho
    · cases ha
  renewed := fun hst he hr row => renewed_placed row hr (hst _ he)
  tombstoned := fun _ _ row => row.alike ⟨rfl, rfl, rfl, id, id⟩ rfl fun _ => rfl
  written := fun _ _ row => row.alike (alike_written _ _ _) rfl fun _ => rfl
  described := fun row => row.alike ⟨rfl, rfl, rfl, id, id⟩ rfl fun _ => rfl
  bound := fun _ _ row => row.alike ⟨rfl, rfl, rfl, id, id⟩ rfl fun _ => rfl
  claimed := by
    intro s mesh c ha _
    cases c with
    | publish photo => exact rfl
    | tombstone photo => trivial
    | edit photo => exact ⟨rfl, ha.2.2.1, rfl⟩
  adopted := fun hh hc _ ho hs => hh.adopt_placed hc ho hs
  submitted := by
    intro d d' claim reply hh hc _ ran
    cases claim with
    | publish photo => exact hh.submitPublish_placed hc ran
    | tombstone photo =>
      cases ran
      exact hh.submitTombstone_placed hc
    | edit photo => exact hh.submitEdit_placed hc ran

end Device

/-- A shared library, bound to a mesh library of two members. -/
def sharedLibrary : LibraryConfig := ⟨"shared", some icloudSharedLibraryBinding, some ⟨7⟩⟩

def sharedMesh : Mesh := ⟨fun _ => none, fun _ => [1, 2], fun _ => []⟩

variable (scope : LibraryScope)

/-- The asset of `plainAsset` with a new modification date, in a scope. -/
def editedAsset : AssetDescriptor := ⟨"a", some "A", scope, some 3, [⟨1, none⟩]⟩

variable (library : LibraryId)

/-- Its row, in the library of the scope. -/
def editedPhoto : PhotoRecord :=
  { plainPhoto true none false with libraryId := some library, assetModifiedAt := some 3 }

/-- The asset is published from the personal library and edited, and the edit claimed. -/
def publishedThenEdited : List DeviceEvent :=
  [.descriptor (plainAsset "a" "A") ⟨1⟩ 0 .finished, .write ⟨1⟩ .original (sameBytes "heic"),
    .describe ⟨1⟩,
    .beginPass [.publish (plainPhoto false none false)],
    .submit (.publish (plainPhoto false none false)) .ok, .endPass,
    .descriptor (editedAsset scope) ⟨2⟩ 9 .finished, .beginPass [.edit (editedPhoto library)]]

end HopNet.Ingress
