import HopNet.Manifest
import HopNet.Node.Access

namespace HopNet

open Fallible Table Runs List PhotoTables PhotosEntry BlobAccess

/-- A row of `query_changes`. Without a photo it tells of a hard delete. -/
structure ChangeRow where
  photoId : CustomUUID
  changedAtHeight : Int
  photo : Option PhotoRow
  wrap : Option KeyWrap

namespace PhotoTables

variable (t : PhotoTables) (userId : Int)

/-- The feed row with its two left joins. -/
def changeRow (change : PhotoChangeRow) : ChangeRow :=
  ⟨change.photoId, change.changedAtHeight, t.photo change.photoId,
    (t.metadataAccess.find? fun row => row.photoId = change.photoId ∧ row.userId = userId).map
      (·.wrap)⟩

/-- The user has access to the photo, and is a member of its library. -/
def Serves (row : ChangeRow) : Prop :=
  (row.wrap.isSome ∨ row.photo = none) ∧
    ∀ photo ∈ row.photo, ∀ libraryId ∈ photo.libraryId, t.IsMember libraryId userId
deriving Decidable

/-- The user's rows among the changes, by height and then by photo. -/
def servedRows (changes : List PhotoChangeRow) : List ChangeRow :=
  ((changes.map (t.changeRow userId)).filter fun row => t.Serves userId row).mergeSort fun a b =>
    a.changedAtHeight < b.changedAtHeight ∨
      (a.changedAtHeight = b.changedAtHeight ∧ a.photoId.value ≤ b.photoId.value)

/-- `LIMIT ?`, where a negative number is no limit. -/
def takeLimit (limit : Nat) (rows : List ChangeRow) : List ChangeRow :=
  if heightToDb limit < 0 then rows else rows.take (heightToDb limit).toNat

/-- A full batch goes on to the end of its last height. -/
def queryChanges (sinceHeight limit : Nat) : List ChangeRow :=
  let rows := takeLimit limit
    (t.servedRows userId
      (t.changes.filter fun change => heightToDb sinceHeight < change.changedAtHeight))
  match rows.getLast? with
  | none => rows
  | some boundary =>
    if rows.length = limit then
      rows ++ t.servedRows userId (t.changes.filter fun change =>
        change.changedAtHeight = boundary.changedAtHeight ∧
          boundary.photoId.value < change.photoId.value)
    else rows

end PhotoTables

inductive ResourceBlockLookup where
  | found (dataBlockId : BlobId)
  | notFound
  | notMember

variable (t : PhotoTables) (photoId : CustomUUID)

/-- The resource joined with its photo. Only a library asks for more. -/
def PhotoTables.lookupResourceBlockAuthz (resourceType userId : Int) : ResourceBlockLookup :=
  match t.resource photoId resourceType, t.photo photoId with
  | some dataBlockId, some photo =>
    if ∀ libraryId ∈ photo.libraryId, t.IsMember libraryId userId then .found dataBlockId
      else .notMember
  | _, _ => .notFound

def StorageTables.getBlobAccess (t : StorageTables) (b : BlobId) (pubkey : FixedBytes 32) :
    Option BlobAccess :=
  t.blobAccess.find? fun row => row.blobId = b ∧ row.recipientPubkey = pubkey

def NodeTables.getBlobAccessForUser (t : NodeTables) (b : BlobId) (userId : Int) :
    Option BlobAccess :=
  (userX25519Pubkey t.users userId).bind (t.storage.getBlobAccess b)

inductive ResourceGrantError where
  | notFound
  | forbidden
  | internal

structure ResourceGrant where
  dataBlockId : BlobId
  access : BlobAccess
  manifest : BlobManifest

/-- The bytes are served after the lookup finds the block and the user's wrap. -/
def NodeTables.readResourceGrant (t : NodeTables) (userId : Int) (photoId : CustomUUID)
    (resourceType : Int) : Except ResourceGrantError ResourceGrant :=
  match t.photos.lookupResourceBlockAuthz photoId resourceType userId with
  | .notFound => .error .notFound
  | .notMember => .error .forbidden
  | .found dataBlockId =>
    match t.getBlobAccessForUser dataBlockId userId with
    | none => .error .forbidden
    | some access =>
      match blobManifest t.storage dataBlockId with
      | none => .error .internal
      | some manifest => .ok ⟨dataBlockId, access, manifest⟩

/-- The photo is the uploader's, or of a library the user is a member of. -/
def PhotoTables.InGallery (userId : Int) (photo : PhotoRow) : Prop :=
  photo.uploadedBy = userId ∨ ∃ libraryId ∈ photo.libraryId, t.IsMember libraryId userId

/-- Nothing else is served to anyone. -/
structure GalleriesOwn (t : NodeTables) : Prop where
  changes : ∀ userId sinceHeight limit, ∀ row ∈ t.photos.queryChanges userId sinceHeight limit,
    ∀ photo ∈ row.photo, t.photos.InGallery userId photo
  resources : ∀ userId photoId resourceType grant, t.readResourceGrant userId photoId resourceType =
    .ok grant → ∃ photo ∈ t.photos.photo photoId, t.photos.InGallery userId photo

def PhotoTables.personalOwner : Option Int :=
  (t.photo photoId).bind fun photo => if photo.libraryId = none then some photo.uploadedBy else none

namespace PhotosEntry

variable (t : PhotoTables)

/-- The owner once the entry is applied. -/
def ownerAfter (entry : PhotosEntry) (photoId : CustomUUID) : Option Int :=
  match entry with
  | .add e =>
    if e.photoId = photoId then (if e.libraryId = none then some e.uploadedBy else none)
    else t.personalOwner photoId
  | _ => t.personalOwner photoId

/-- The photos to which the payload gives users rows of access. -/
def names : PhotosEntry → List (CustomUUID × Int)
  | .add e => e.metadataAccess.map fun access => (e.photoId, access.userId)
  | .editContent e => (e.metadata.elim [] (·.2.2)).map fun access => (e.photoId, access.userId)
  | .editMetadata e => e.metadataAccess.map fun access => (e.photoId, access.userId)
  | .grant payload => payload.entries.map fun grant => (grant.photoId, payload.userId)
  | _ => []

/-- The blocks that become resources of a photo. -/
def shows : PhotosEntry → List (CustomUUID × BlobId)
  | .add e => e.resources.map fun resource => (e.photoId, resource.op.blobId)
  | .editContent e => e.resources.map fun resource => (e.photoId, resource.op.blobId)
  | .undo e =>
    (((t.contentEdit e.targetOperationId e.photoId).bind (·.priorDataBlockId)).map fun b =>
      (e.photoId, b)).toList
  | _ => []

/-- The blocks that are wrapped, each with the key they are wrapped for. -/
def installs (users : List UserRow) : PhotosEntry → List (BlobId × FixedBytes 32)
  | .grant payload => (userX25519Pubkey users payload.userId).toList.flatMap fun key =>
    payload.blobWraps.map fun grant => (grant.dataBlockId, key)
  | entry => entry.wraps.map key

end PhotosEntry

/-- Rows and wraps of personal photos go to their uploaders only. -/
structure PhotosEntry.KeepsPersonal (t : NodeTables) (entry : PhotosEntry) : Prop where
  readers : ∀ named ∈ entry.names, ∀ owner ∈ entry.ownerAfter t.photos named.1, named.2 = owner
  blocks : ∀ shown ∈ t.photos.resources.map (fun row => (row.photoId, row.dataBlockId)) ++
    entry.shows t.photos, ∀ owner ∈ entry.ownerAfter t.photos shown.1,
      ∀ wrap ∈ t.storage.blobAccess.map key ++ entry.installs t.users,
        wrap.1 = shown.2 → userX25519Pubkey t.users owner = some wrap.2

instance PhotosEntry.decidableKeepsPersonal (t : NodeTables) (entry : PhotosEntry) :
    Decidable (entry.KeepsPersonal t) :=
  decidable_of_iff (_ ∧ _)
    ⟨fun both => ⟨both.1, both.2⟩, fun keeps => ⟨keeps.readers, keeps.blocks⟩⟩

/-- No two users have the same key. -/
def KeysApart (users : List UserRow) : Prop :=
  ∀ userId other key, userX25519Pubkey users userId = some key →
    userX25519Pubkey users other = some key → userId = other

/-- Personal photos are open to their uploaders only. -/
structure PersonalClosed (t : NodeTables) : Prop where
  sound : PhotosSound (t.photosDb 0)
  keys : KeysApart t.users
  readers : ∀ row ∈ t.photos.metadataAccess, ∀ owner ∈ t.photos.personalOwner row.photoId,
    row.userId = owner
  blocks : ∀ row ∈ t.photos.resources, ∀ owner ∈ t.photos.personalOwner row.photoId,
    ∀ wrap ∈ t.storage.blobAccess, wrap.blobId = row.dataBlockId →
      userX25519Pubkey t.users owner = some wrap.recipientPubkey

variable {t : NodeTables} {userId : Int}

section

variable {row : ChangeRow} {photo : PhotoRow} {sinceHeight limit : Nat}

lemma PhotoTables.mem_servedRows {t : PhotoTables} {changes}
    (hs : row ∈ t.servedRows userId changes) :
    ∃ change, row = t.changeRow userId change ∧ t.Serves userId row := by
  rw [servedRows, mem_mergeSort, mem_filter, decide_eq_true_eq, mem_map] at hs
  obtain ⟨⟨change, _, rfl⟩, served⟩ := hs
  exact ⟨change, rfl, served⟩

lemma PhotoTables.mem_takeLimit {limit rows} (ht : row ∈ takeLimit limit rows) : row ∈ rows := by
  unfold takeLimit at ht
  split_ifs at ht
  · exact ht
  · exact mem_of_mem_take ht

lemma PhotoTables.mem_queryChanges {t : PhotoTables}
    (hs : row ∈ t.queryChanges userId sinceHeight limit) :
    ∃ change, row = t.changeRow userId change ∧ t.Serves userId row := by
  unfold queryChanges at hs
  dsimp only at hs
  split at hs
  · exact mem_servedRows (mem_takeLimit hs)
  · split_ifs at hs
    · rcases mem_append.1 hs with hf | rest
      · exact mem_servedRows (mem_takeLimit hf)
      · exact mem_servedRows rest
    · exact mem_servedRows (mem_takeLimit hs)

lemma PhotoTables.inGallery_of {t : PhotoTables}
    (hm : ∀ libraryId ∈ photo.libraryId, t.IsMember libraryId userId)
    (own : photo.libraryId = none → userId = photo.uploadedBy) : t.InGallery userId photo := by
  cases hl : photo.libraryId with
  | none => exact .inl (own hl).symm
  | some libraryId => exact .inr ⟨libraryId, hl, hm libraryId hl⟩

lemma PhotoTables.personalOwner_of_photo {t : PhotoTables} {photoId}
    (hf : t.photo photoId = some photo) (hp : photo.libraryId = none) :
    t.personalOwner photoId = some photo.uploadedBy := by
  rw [personalOwner, hf, Option.bind_some, if_pos hp]

lemma PersonalClosed.changes (hc : PersonalClosed t)
    (hs : row ∈ t.photos.queryChanges userId sinceHeight limit) (hl : photo ∈ row.photo) :
    t.photos.InGallery userId photo := by
  obtain ⟨change, rfl, hac, hm⟩ := mem_queryChanges hs
  refine inGallery_of (hm photo hl) fun hp => ?_
  have hf : t.photos.photo change.photoId = some photo := hl
  rcases hac with hw | hg
  · rw [changeRow, Option.isSome_map, Option.isSome_iff_exists] at hw
    obtain ⟨row, hr⟩ := hw
    have hn : row.photoId = change.photoId ∧ row.userId = userId := by simpa using find?_some hr
    have ho := hc.readers row (mem_of_find?_eq_some hr) photo.uploadedBy
    rw [hn.1, hn.2] at ho
    exact ho (personalOwner_of_photo hf hp)
  · have ha : t.photos.photo change.photoId = none := hg
    rw [hf] at ha
    cases ha

lemma PersonalClosed.resources (hc : PersonalClosed t) {photoId : CustomUUID} {resourceType grant}
    (hs : t.readResourceGrant userId photoId resourceType = .ok grant) :
    ∃ photo ∈ t.photos.photo photoId, t.photos.InGallery userId photo := by
  unfold NodeTables.readResourceGrant at hs
  split at hs
  · cases hs
  · cases hs
  rename_i b found
  unfold lookupResourceBlockAuthz at found
  split at found
  rotate_left
  · cases found
  rename_i photo hb hf
  split_ifs at found with hm
  cases found
  refine ⟨photo, hf, inGallery_of hm fun hp => ?_⟩
  split at hs
  · cases hs
  rename_i access hw
  rw [NodeTables.getBlobAccessForUser, Option.bind_eq_some_iff] at hw
  obtain ⟨key, hk, ha⟩ := hw
  have hn : access.blobId = b ∧ access.recipientPubkey = key := by
    simpa using find?_some ha
  rw [resource, Option.map_eq_some_iff] at hb
  obtain ⟨row, hr, rfl⟩ := hb
  have hph : row.photoId = photoId ∧ row.resourceType = resourceType := by
    simpa using find?_some hr
  have ho := hc.blocks row (mem_of_find?_eq_some hr) photo.uploadedBy
    (hph.1 ▸ personalOwner_of_photo hf hp) access
    (mem_of_find?_eq_some ha) hn.1
  exact hc.keys _ _ key hk (hn.2 ▸ ho)

lemma PersonalClosed.galleriesOwn (hc : PersonalClosed t) : GalleriesOwn t :=
  ⟨fun _ _ _ _ hs _ hl => hc.changes hs hl, fun _ _ _ _ hs => hc.resources hs⟩

end

variable {expired : Expiry} {signer : Option Int} {db db' : PhotosDb}

section

variable {ctx : ApplyCtx} {entry : PhotosEntry} {photoId : CustomUUID} {owner : Int}

/-- The photo is there, without a library and by this user. -/
def PhotoTables.PersonalOf (t : PhotoTables) (photoId : CustomUUID) (owner : Int) : Prop :=
  ∃ photo ∈ t.photos, photo.id = photoId ∧ photo.libraryId = none ∧ photo.uploadedBy = owner

lemma PhotosSound.personalOwner_iff (hs : PhotosSound db) :
    db.photos.personalOwner photoId = some owner ↔ db.photos.PersonalOf photoId owner := by
  rw [personalOwner, Option.bind_eq_some_iff]
  constructor
  · rintro ⟨photo, hf, ho⟩
    split_ifs at ho with hp
    exact ⟨photo, mem_of_find?_eq_some hf, by simpa using find?_some hf, hp, Option.some.inj ho⟩
  · rintro ⟨photo, hph, hpo, hp, rfl⟩
    exact ⟨photo, find?_of_mem hs.ids hph hpo, if_pos hp⟩

lemma PhotosKept.personalOf {t t'} (hk : PhotosKept t t') (how : t'.PersonalOf photoId owner) :
    t.PersonalOf photoId owner := by
  obtain ⟨f, same, hps⟩ := hk
  obtain ⟨photo', hp, hph, hpe, ho⟩ := how
  rw [hps] at hp
  obtain ⟨photo, hol, rfl⟩ := mem_map.1 hp
  obtain ⟨hsi, hsl, hs⟩ := same photo
  exact ⟨photo, hol, hsi ▸ hph, hsl ▸ hpe, hs ▸ ho⟩

lemma PhotosEffect.personalOf (he : PhotosEffect ctx signer entry db db')
    (how : db'.photos.PersonalOf photoId owner) :
    db.photos.PersonalOf photoId owner ∨
      ∃ e, entry = .add e ∧ e.photoId = photoId ∧ e.libraryId = none ∧ e.uploadedBy = owner := by
  have hs : db'.photos.photos = db.photos.photos → db.photos.PersonalOf photoId owner := fun hp =>
    (PhotosKept.of_eq hp).personalOf how
  cases he with
  | aside hf | edited _ hf | rewritten hf | undone _ hf => exact .inl (hf.photosKept.personalOf how)
  | created _ hf | invited _ hf | settled _ hf | granted hf => exact .inl (hs hf.photos)
  | dropped =>
    obtain ⟨photo, hph, rest⟩ := how
    exact .inl ⟨photo, mem_of_mem_filter hph, rest⟩
  | @added _ e _ _ ran =>
    obtain ⟨_, _, _, rfl⟩ := insertPhotoEntry_ok ran
    obtain ⟨photo, hph, hpo, hpe, ho⟩ := how
    rcases mem_append.1 hph with old | new
    · exact .inl ⟨photo, old, hpo, hpe, ho⟩
    · rw [mem_singleton.1 new] at hpo hpe ho
      exact .inr ⟨e, rfl, hpo, hpe, ho⟩
  | revoked => exact .inl (hs rfl)

lemma PhotosEffect.resources (hef : PhotosEffect ctx signer entry db db') {row}
    (hr : row ∈ db'.photos.resources) :
    (∃ old ∈ db.photos.resources, old.photoId = row.photoId ∧ old.dataBlockId = row.dataBlockId) ∨
      (row.photoId, row.dataBlockId) ∈ entry.shows db.photos := by
  have hs : db'.photos.resources = db.photos.resources →
      ∃ old ∈ db.photos.resources, old.photoId = row.photoId ∧
        old.dataBlockId = row.dataBlockId := by
    intro resources
    exact ⟨row, resources ▸ hr, rfl, rfl⟩
  cases hef with
  | aside hf | created _ hf | invited _ hf | settled _ hf | granted hf =>
      exact .inl (hs hf.resources)
  | dropped => exact .inl ⟨row, mem_of_mem_filter hr, rfl, rfl⟩
  | added ran =>
    obtain ⟨_, _, _, rfl⟩ := insertPhotoEntry_ok ran
    rcases mem_append.1 hr with old | new
    · exact .inl ⟨row, old, rfl, rfl⟩
    · obtain ⟨resource, hen, rfl⟩ := mem_map.1 new
      exact .inr (mem_map.2 ⟨resource, hen, rfl⟩)
  | edited ran =>
    obtain ⟨_, _, _, _, _, _, _, _, rfl⟩ := photoEditContentEntry_ok ran
    have he : row ∈ (db.photos.edited _).resources := hr
    rw [PhotoTables.edited, (withMetadata_aside _).1] at he
    rcases mem_upsertResources.1 (mem_of_mem_filter he) with old | new
    · exact .inl ⟨row, old, rfl, rfl⟩
    · exact .inr new
  | rewritten _ same => exact .inl (hs same.2)
  | undone ran =>
    obtain ⟨target, _, prior, ht, _, hp, rfl⟩ := photoUndoEntry_ok ran
    obtain ⟨old, ho, rfl⟩ := mem_map.1 hr
    split_ifs with hu
    · refine .inr ?_
      rw [shows, ht, Option.bind_some, hp, hu.1]
      exact mem_singleton.2 rfl
    · exact .inl ⟨old, ho, rfl, rfl⟩
  | revoked => exact .inl (hs rfl)

lemma names_of_upsertWraps {row access rows} (hr : row ∈ upsertWraps photoId access rows) :
    row ∈ rows ∨ (row.photoId, row.userId) ∈ access.map fun entry => (photoId, entry.userId) := by
  rcases mem_upsertWraps.1 hr with ⟨old, _⟩ | ⟨hp, new⟩
  · exact .inl old
  · exact .inr (mem_map.2 ⟨_, new, by rw [hp]⟩)

lemma names_of_withMetadata {row} {t : PhotoTables} {metadata}
    (hr : row ∈ (t.withMetadata photoId metadata).metadataAccess) :
    row ∈ t.metadataAccess ∨
      (row.photoId, row.userId) ∈ (metadata.elim [] (·.2.2)).map fun entry =>
        (photoId, entry.userId) := by
  cases metadata with
  | none => exact .inl hr
  | some m => exact names_of_upsertWraps hr

lemma PhotosEffect.readers {row} (hef : PhotosEffect ctx signer entry db db')
    (hr : row ∈ db'.photos.metadataAccess) :
    row ∈ db.photos.metadataAccess ∨ (row.photoId, row.userId) ∈ entry.names := by
  cases hef with
  | aside hf | created _ hf | invited _ hf | settled _ hf => exact .inl (hf.metadataAccess ▸ hr)
  | dropped => exact .inl (mem_of_mem_filter hr)
  | added ran =>
    obtain ⟨_, _, _, rfl⟩ := insertPhotoEntry_ok ran
    exact names_of_upsertWraps hr
  | edited _ hf | rewritten hf | undone _ hf =>
    rw [hf.metadataAccess] at hr
    exact names_of_withMetadata hr
  | granted hd =>
    rcases hd.came row hr with old | ⟨grant, he, hro, _⟩
    · exact .inl old
    · rw [hro]
      exact .inr (mem_map.2 ⟨grant, he, rfl⟩)
  | revoked => exact .inl (mem_of_mem_filter hr)

lemma mem_of_installWraps {wraps rows row} (hr : row ∈ installWraps wraps rows) :
    row ∈ rows ∨ row ∈ wraps := by
  rw [installWraps, mem_foldl_write mem_insertOrReplace] at hr
  rcases hr with hl | ⟨old, _⟩
  · exact .inr (mem_of_latest hl)
  · exact .inl old

lemma libraryAccessGrant_wraps {userId payload}
    (ran : libraryAccessGrant userId db payload = .ok db') {row}
    (hr : row ∈ db'.storage.blobAccess) :
    row ∈ db.storage.blobAccess ∨ row.key ∈ (grant payload).installs db.users := by
  simp only [libraryAccessGrant, require_bind] at ran
  obtain ⟨_, _, _, ran⟩ := ran
  split at ran
  · cases ran
  rename_i key hk
  simp only [bind_eq_ok] at ran
  obtain ⟨granted, hm, wrapped, hb, hs⟩ := ran
  have hf : granted.storage = db.storage := by
    refine foldlM_invariant (·.storage = db.storage) _ ?_ rfl hm
    intro grant _ s s' same step
    simp only [insertMetadataAccessGrant, require_bind, pure_eq_ok] at step
    obtain ⟨_, _, rfl⟩ := step
    exact same
  have hse : ∀ row ∈ wrapped.storage.blobAccess,
      row ∈ db.storage.blobAccess ∨ row.key ∈ (grant payload).installs db.users := by
    refine foldlM_invariant (fun s : PhotosDb => ∀ row ∈ s.storage.blobAccess,
      row ∈ db.storage.blobAccess ∨
      row.key ∈ (grant payload).installs db.users) _ ?_ (fun row old => .inl (hf ▸ old)) hb
    intro grant hp s s' so step row hr
    simp only [insertBlobAccessGrant, require_bind, pure_eq_ok] at step
    obtain ⟨_, _, rfl⟩ := step
    rcases mem_insertOrIgnore.1 hr with old | ⟨rfl, _⟩
    · exact so row old
    · refine .inr ?_
      simp only [installs, hk, Option.toList_some, flatMap_singleton]
      exact mem_map.2 ⟨grant, hp, rfl⟩
  simp only [upsertViewChange, require_bind, pure_eq_ok] at hs
  obtain ⟨_, rfl⟩ := hs
  exact hse row hr

lemma PhotosEntry.apply_installs (ran : entry.apply expired ctx signer db = .ok db') {row}
    (hr : row ∈ db'.storage.blobAccess) :
    row ∈ db.storage.blobAccess ∨ row.key ∈ entry.installs db.users := by
  have hi : entry.convergence = false → row ∈ db.storage.blobAccess ∨
      row.key ∈ entry.wraps.map key := by
    intro ha
    rw [apply_wraps ha ran] at hr
    rcases mem_of_installWraps hr with old | new
    · exact .inl old
    · exact .inr (mem_map_of_mem new)
  cases entry with
  | grant payload =>
    simp only [apply, bind_eq_ok, signerId_eq_ok] at ran
    obtain ⟨_, _, ran⟩ := ran
    exact libraryAccessGrant_wraps ran hr
  | revoke payload =>
    simp only [apply, bind_eq_ok, signerId_eq_ok] at ran
    obtain ⟨_, _, ran⟩ := ran
    obtain ⟨_, _, _, _, rfl⟩ := libraryAccessRevoke_ok ran
    exact .inl (mem_of_mem_filter hr)
  | _ => exact hi rfl

end

inductive GalleryEvent where
  | entry (ctx : ProjectionCtx) (signer : Option Int) (entry : PhotosEntry)
  | drive (ctx : ProjectionCtx) (signer : Option Int) (tx : DriveTx)
  /-- A new account. -/
  | account (row : UserRow)
  /-- A transaction of another part. -/
  | other

/-- Other parts leave the photos and the users' keys, and write no wraps. -/
def GalleryStep (decode : AccessDecoder) (expired : Expiry) (t : NodeTables)
    (event : GalleryEvent) (t' : NodeTables) : Prop :=
  match event with
  | .entry ctx signer entry =>
    ∃ db, entry.apply expired ctx.apply signer (t.photosDb ctx.currentHeight) = .ok db ∧
      t' = t.setPhotosDb db
  | .drive ctx signer tx => ∃ db, tx.process decode ctx.apply signer t.driveDb = .ok db ∧
      t' = t.setDriveDb db
  | .account row => (∀ user ∈ t.users, user.userId ≠ row.userId) ∧ t'.users = t.users ++ [row] ∧
      t'.photos = t.photos ∧ t'.storage = t.storage
  | .other => (∀ userId, userX25519Pubkey t'.users userId = userX25519Pubkey t.users userId) ∧
      t'.photos = t.photos ∧ t'.storage.blobAccess ⊆ t.storage.blobAccess

/-- What a step must be for galleries to stay their users' own. -/
def GalleryEvent.KeepsPersonal (decode : AccessDecoder) (t : NodeTables) : GalleryEvent → Prop
  | .entry _ _ change => change.KeepsPersonal t
  | .drive _ _ tx => ∀ row ∈ t.photos.resources, ∀ owner ∈ t.photos.personalOwner row.photoId,
      ∀ wrap ∈ tx.wraps decode t.drive, wrap.blobId = row.dataBlockId →
        userX25519Pubkey t.users owner = some wrap.recipientPubkey
  | .account row => ∀ user ∈ t.users, user.x25519Pubkey ≠ row.x25519Pubkey
  | .other => True

instance (decode : AccessDecoder) (t : NodeTables) (event : GalleryEvent) :
    Decidable (event.KeepsPersonal decode t) := by
  cases event <;> unfold GalleryEvent.KeepsPersonal <;> infer_instance

variable {t' : NodeTables}

section

variable {users : List UserRow} {row : UserRow}

lemma userX25519Pubkey_isSome_iff :
    (userX25519Pubkey users userId).isSome ↔ UserExists users userId := by
  rw [userX25519Pubkey, Option.isSome_map, find?_isSome]
  simp [UserExists]

lemma userX25519Pubkey_append : userX25519Pubkey (users ++ [row]) userId =
    (userX25519Pubkey users userId).or
    (if row.userId = userId then some row.x25519Pubkey else none) := by
  rw [userX25519Pubkey, find?_append, Option.map_or, find?_singleton, ← userX25519Pubkey]
  by_cases hr : row.userId = userId <;> simp [hr]

lemma userX25519Pubkey_mem {key}
    (hk : userX25519Pubkey users userId = some key) : ∃ user ∈ users, user.x25519Pubkey = key := by
  rw [userX25519Pubkey, Option.map_eq_some_iff] at hk
  obtain ⟨user, hf, hu⟩ := hk
  exact ⟨user, mem_of_find?_eq_some hf, hu⟩

lemma KeysApart.account (ha : KeysApart users)
    (hf : ∀ user ∈ users, user.x25519Pubkey ≠ row.x25519Pubkey) : KeysApart (users ++ [row]) := by
  intro userId other key hk hot
  simp only [userX25519Pubkey_append, Option.or_eq_some_iff, Option.ite_none_right_eq_some,
    Option.some.injEq] at hk hot
  have new : ∀ userId, userX25519Pubkey users userId ≠ some row.x25519Pubkey := by
    intro userId old
    obtain ⟨user, hu, hs⟩ := userX25519Pubkey_mem old
    exact hf user hu hs
  rcases hk with old | ⟨_, rfl, rfl⟩
  · rcases hot with ho | ⟨_, _, rfl⟩
    · exact ha userId other key old ho
    · exact absurd old (new _)
  · rcases hot with ho | ⟨_, hs, _⟩
    · exact absurd ho (new _)
    · exact hs

lemma PhotosEntry.ownerAfter_of_exists {ctx} {entry : PhotosEntry}
    (ran : entry.apply expired ctx signer db = .ok db') {photoId}
    (hk : db.photos.PhotoExists photoId) :
    entry.ownerAfter db.photos photoId = db.photos.personalOwner photoId := by
  cases entry with
  | add e =>
    simp only [apply, bind_eq_ok, signerId_eq_ok] at ran
    obtain ⟨_, _, ran⟩ := ran
    obtain ⟨_, _, ⟨hf, _⟩, _⟩ := insertPhotoEntry_ok (photoAddEntry_ok ran)
    obtain ⟨photo, hp, hph⟩ := hk
    exact if_neg fun hs => hf photo hp (hph.trans hs.symm)
  | _ => rfl

lemma PhotosEntry.apply_owner {ctx} {entry : PhotosEntry}
    (ran : entry.apply expired ctx signer db = .ok db') (hs : PhotosSound db) {photoId owner}
    (how : db'.photos.personalOwner photoId = some owner) :
    entry.ownerAfter db.photos photoId = some owner := by
  rw [(apply_photosSound hs ran).personalOwner_iff] at how
  rcases (apply_effect ran).personalOf how with hb | ⟨e, rfl, hp, hpe, ho⟩
  · have ⟨photo, hph, hpo, _⟩ := hb
    rw [ownerAfter_of_exists ran ⟨photo, hph, hpo⟩, hs.personalOwner_iff.2 hb]
  · rw [ownerAfter, if_pos hp, if_pos hpe, ho]

lemma PersonalClosed.entry {ctx : ProjectionCtx} {entry : PhotosEntry} {db}
    (hc : PersonalClosed t) (hke : entry.KeepsPersonal t)
    (ran : entry.apply expired ctx.apply signer (t.photosDb ctx.currentHeight) = .ok db) :
    PersonalClosed (t.setPhotosDb db) := by
  have hso : PhotosSound (t.photosDb ctx.currentHeight) := hc.sound.congr rfl fun _ hk => hk
  have users : db.users = t.users := apply_users ran
  have he := apply_effect ran
  refine ⟨(apply_photosSound hso ran).congr rfl fun userId hk => ?_, hc.keys, ?_, ?_⟩
  · rw [users] at hk
    exact hk
  · intro row hr owner ho
    have ha := apply_owner ran hso ho
    rcases he.readers hr with old | new
    · rw [ownerAfter_of_exists ran (hso.rows row old)] at ha
      exact hc.readers row old owner ha
    · exact hke.readers _ new owner ha
  · intro row hr owner ho wrap hwr hb
    have ha := apply_owner ran hso ho
    have hsh : (row.photoId, row.dataBlockId) ∈
        t.photos.resources.map (fun row => (row.photoId, row.dataBlockId)) ++ entry.shows
          t.photos := by
      rcases he.resources hr with ⟨old, hol, hsp, hs⟩ | new
      · exact mem_append_left _ (mem_map.2 ⟨old, hol, by rw [hsp, hs]⟩)
      · exact mem_append_right _ new
    have hw : wrap.key ∈ t.storage.blobAccess.map key ++ entry.installs t.users := by
      rcases apply_installs ran hwr with old | new
      · exact mem_append_left _ (mem_map_of_mem old)
      · exact mem_append_right _ new
    exact hke.blocks _ hsh owner ha _ hw hb

lemma PersonalClosed.step {decode} {event : GalleryEvent} (hc : PersonalClosed t)
    (step : GalleryStep decode expired t event t') (hke : event.KeepsPersonal decode t) :
    PersonalClosed t' := by
  cases event with
  | entry ctx signer change =>
    obtain ⟨db, ran, rfl⟩ := step
    exact hc.entry hke ran
  | drive ctx signer tx =>
    obtain ⟨db, ran, rfl⟩ := step
    refine ⟨hc.sound.congr rfl fun _ hk => hk, hc.keys, hc.readers, ?_⟩
    intro row hr owner how wrap hw hb
    have hw : wrap ∈ db.storage.blobAccess := hw
    rw [DriveTx.process_wraps ran] at hw
    rcases mem_of_installWraps hw with old | new
    · exact hc.blocks row hr owner how wrap old hb
    · exact hke row hr owner how wrap new hb
  | account row =>
    obtain ⟨_, users, hp, hs⟩ := step
    refine ⟨hc.sound.congr hp fun userId hk => ?_, users ▸ hc.keys.account hke, hp ▸ hc.readers, ?_⟩
    · obtain ⟨user, hu, hus⟩ := hk
      have hu : user ∈ t'.users := users ▸ mem_append_left _ hu
      exact ⟨user, hu, hus⟩
    · rw [hp, hs, users]
      intro row hr owner how wrap hw hb
      rw [userX25519Pubkey_append, hc.blocks row hr owner how wrap hw hb, Option.some_or]
  | other =>
    obtain ⟨keys, hp, hf⟩ := step
    refine ⟨hc.sound.congr hp fun userId hk => ?_, ?_, hp ▸ hc.readers, ?_⟩
    · have hk : (userX25519Pubkey t.users userId).isSome := userX25519Pubkey_isSome_iff.2 hk
      rw [← keys] at hk
      exact userX25519Pubkey_isSome_iff.1 hk
    · intro userId other key hky ho
      rw [keys] at hky ho
      exact hc.keys userId other key hky ho
    · rw [hp]
      intro row hr owner how wrap hw hb
      rw [keys]
      exact hc.blocks row hr owner how wrap (hf hw) hb

lemma PersonalClosed.empty (hs : t.photos = .empty) (ha : KeysApart t.users) :
    PersonalClosed t := by
  refine ⟨.empty hs, ha, ?_, ?_⟩ <;> rw [hs] <;> exact forall_mem_nil _

/-- In every run in which the payloads give rows and wraps of personal photos to their uploaders
only, and accounts have keys of their own, users are served only their own photos and those of
libraries of which they are members. -/
theorem galleries_own (decode : AccessDecoder) (expired : Expiry) (t₀ t : NodeTables)
    (past : List GalleryEvent) (start : t₀.photos = .empty) (apart : KeysApart t₀.users)
    (run : Reaches (fun t event t' => GalleryStep decode expired t event t' ∧
      event.KeepsPersonal decode t)
      t₀ past t) : GalleriesOwn t :=
  (run.invariant_state PersonalClosed (.empty start apart) fun _ _ _ hc ht =>
    hc.step ht.1 ht.2).galleriesOwn

end

def galleryNext (t : NodeTables) : GalleryEvent → Option NodeTables
  | .entry ctx signer change =>
    (change.apply allExpired ctx.apply signer (t.photosDb ctx.currentHeight)).toOption.map
      t.setPhotosDb
  | .account row =>
    if ∀ user ∈ t.users, user.userId ≠ row.userId then some { t with users := t.users ++ [row] }
      else none
  | _ => none

lemma galleryNext_sound {event} (hn : galleryNext t event = some t') :
    GalleryStep sampleDecode allExpired t event t' := by
  cases event with
  | entry ctx signer change =>
    rw [galleryNext, Option.map_eq_some_iff] at hn
    obtain ⟨db, ran, rfl⟩ := hn
    exact ⟨db, toOption_eq_some.1 ran, rfl⟩
  | drive ctx signer tx => cases hn
  | account row =>
    rw [galleryNext] at hn
    split_ifs at hn with hf
    cases hn
    exact ⟨hf, rfl, rfl, rfl⟩
  | other => cases hn

variable (readers : List Nat)

/-- A personal photo of user 1 on one block, for the readers given. -/
def personalPhoto : PhotosEntry :=
  .add { samplePhoto none [] (readers.map fun reader : Nat => ⟨(reader : Int), sampleWrap reader⟩)
    with resources := [⟨0, { sampleBlobOp 11 1 with
      fragments := [⟨⟨11⟩, 0, 0, ⟨12⟩, .replicate 32 3, false⟩]
      access := readers.map fun reader =>
        ⟨⟨11⟩, (UserRow.sample reader).x25519Pubkey, .replicate 32 1, [1]⟩ }⟩] }

def galleryEvents : List GalleryEvent :=
  [.account (.sample 1), .account (.sample 2),
    .entry sampleProjection (some 1) (personalPhoto readers)]

def galleryAfter : NodeTables :=
  final galleryNext .empty (galleryEvents readers)

/-- User 1 puts a photo into the gallery of user 2: the feed and the resources serve it there. -/
theorem foreign_photo_served :
    Reaches (GalleryStep sampleDecode allExpired) .empty (galleryEvents [1, 2])
    (galleryAfter [1, 2]) ∧
      (∃ row ∈ (galleryAfter [1, 2]).photos.queryChanges 2 0 100, ∃ photo ∈ row.photo,
        photo.uploadedBy = 1 ∧ photo.libraryId = none ∧ photo.deletedAt = none) ∧
      ((galleryAfter [1, 2]).readResourceGrant 2 ⟨1⟩ 0).toOption.isSome ∧
      ¬ GalleriesOwn (galleryAfter [1, 2]) := by
  have hs : ∃ row ∈ (galleryAfter [1, 2]).photos.queryChanges 2 0 100, ∃ photo ∈ row.photo,
      photo.uploadedBy = 1 ∧ photo.libraryId = none ∧ photo.deletedAt = none := by decide +kernel
  refine ⟨.of_foldlM galleryNext_sound (by decide +kernel), hs, by decide +kernel, ?_⟩
  intro own
  obtain ⟨row, hr, photo, live, hup, hp, _⟩ := hs
  rcases own.changes 2 0 100 row hr photo live with hu | ⟨libraryId, hl, _⟩
  · rw [hup] at hu
    cases hu
  · rw [hp] at hl
    cases hl

theorem personal_photo_served_to_uploader : GalleriesOwn (galleryAfter [1]) ∧
    ∃ row ∈ (galleryAfter [1]).photos.queryChanges 1 0 100, row.photo.isSome := by
  have hn : KeysApart NodeTables.empty.users := by
    intro userId other key hk
    cases hk
  exact ⟨galleries_own sampleDecode allExpired .empty (galleryAfter [1]) (galleryEvents [1]) rfl hn
    (.of_guarded galleryNext_sound (by decide +kernel)), by decide +kernel⟩

end HopNet
