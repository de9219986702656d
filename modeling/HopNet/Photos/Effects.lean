import HopNet.Photos.Handlers

namespace HopNet

open Fallible Table List PhotoEditContentEntry

variable {db db' : PhotosDb} {photoId : CustomUUID}

section

variable {access : List MetadataAccessEntry} {resources : List PhotoResourceOp}

lemma insertOperationRow_ok {row} (ran : insertOperationRow row db = .ok db') :
    db' = db.setPhotos { db.photos with operations := db.photos.operations ++ [row] } := by
  simp only [insertOperationRow, require_bind, pure_eq_ok] at ran
  exact ran.2.2.symm

def upsertWraps (photoId : CustomUUID) (access : List MetadataAccessEntry)
    (rows : List MetadataAccessRow) : List MetadataAccessRow :=
  (access.map fun entry => ⟨photoId, entry.userId, entry.wrap⟩).foldl
    (fun rows row => upsert (fun row => (row.photoId, row.userId)) row rows) rows

lemma upsertMetadataAccessRows_ok
    (ran : access.foldlM (upsertMetadataAccessRow photoId) db = .ok db') :
    db' = db.setPhotos { db.photos with
      metadataAccess := upsertWraps photoId access db.photos.metadataAccess } := by
  induction access generalizing db with
  | nil =>
    cases ran
    rfl
  | cons entry rest ih =>
    rw [foldlM_cons, bind_eq_ok] at ran
    obtain ⟨middle, hf, ho⟩ := ran
    simp only [upsertMetadataAccessRow, require_bind, pure_eq_ok] at hf
    obtain ⟨_, rfl⟩ := hf
    exact ih ho

/-- A row there afterwards was there or is new; one goes only when its user gets a new one. -/
lemma mem_upsertWraps {rows row} : (row ∈ upsertWraps photoId access rows →
      (row ∈ rows ∧ (row.photoId = photoId → ∀ entry ∈ access, entry.userId ≠ row.userId)) ∨
        (row.photoId = photoId ∧ (⟨row.userId, row.wrap⟩ : MetadataAccessEntry) ∈ access)) ∧
    (row ∈ rows → (row.photoId = photoId → ∀ entry ∈ access, entry.userId ≠ row.userId) →
      row ∈ upsertWraps photoId access rows) := by
  rw [upsertWraps, mem_foldl_write mem_upsert, latest_eq_none, forall_mem_map]
  simp only [ne_eq, Prod.mk.injEq, not_and]
  constructor
  · rintro (new | ⟨old, apart⟩)
    · obtain ⟨entry, he, rfl⟩ := mem_map.1 (mem_of_latest new)
      exact .inr ⟨rfl, he⟩
    · exact .inl ⟨old, fun hp entry he => apart entry he hp.symm⟩
  · exact fun hr apart => .inr ⟨hr, fun entry he hp => apart hp.symm entry he⟩

def upsertResources (photoId : CustomUUID) (resources : List PhotoResourceOp)
    (rows : List ResourceRow) : List ResourceRow :=
  (resources.map fun resource => ⟨photoId, resource.resourceType, resource.op.blobId⟩).foldl
    (fun rows row => upsert (fun row => (row.photoId, row.resourceType)) row rows) rows

lemma upsertResourceRows_ok (ran : resources.foldlM (upsertResourceRow photoId) db = .ok db') :
    db' = db.setPhotos { db.photos with
      resources := upsertResources photoId resources db.photos.resources } := by
  induction resources generalizing db with
  | nil =>
    cases ran
    rfl
  | cons resource rest ih =>
    rw [foldlM_cons, bind_eq_ok] at ran
    obtain ⟨middle, hf, ho⟩ := ran
    simp only [upsertResourceRow, require_bind, pure_eq_ok] at hf
    obtain ⟨_, rfl⟩ := hf
    exact ih ho

lemma mem_upsertResources {rows row} : (row ∈ upsertResources photoId resources rows → row ∈ rows ∨
      (row.photoId, row.dataBlockId) ∈ resources.map fun resource =>
        (photoId, resource.op.blobId)) ∧
    (row ∈ rows →
      (row.photoId = photoId → ∀ resource ∈ resources, resource.resourceType ≠ row.resourceType) →
      row ∈ upsertResources photoId resources rows) := by
  rw [upsertResources, mem_foldl_write mem_upsert, latest_eq_none, forall_mem_map]
  simp only [ne_eq, Prod.mk.injEq, not_and]
  constructor
  · rintro (new | ⟨old, _⟩)
    · obtain ⟨resource, he, rfl⟩ := mem_map.1 (mem_of_latest new)
      exact .inr (mem_map.2 ⟨resource, he, rfl⟩)
    · exact .inl old
  · exact fun hr apart => .inr ⟨hr, fun resource he hp => apart hp.symm resource he⟩

lemma insertResourceRows_ok (ran : resources.foldlM (insertResourceRow photoId) db = .ok db') :
    db' = db.setPhotos { db.photos with resources := db.photos.resources ++
      (resources.map fun resource => ⟨photoId, resource.resourceType, resource.op.blobId⟩) } := by
  induction resources generalizing db with
  | nil =>
    cases ran
    simp [PhotosDb.setPhotos]
  | cons resource rest ih =>
    rw [foldlM_cons, bind_eq_ok] at ran
    obtain ⟨middle, hf, ho⟩ := ran
    simp only [insertResourceRow, require_bind, pure_eq_ok] at hf
    obtain ⟨_, _, rfl⟩ := hf
    rw [ih ho]
    simp [PhotosDb.setPhotos]

end

variable {ctx : ApplyCtx} {userId : Int} {entry : PhotoEditContentEntry}

lemma insertPhotoEntry_ok {entry} (ran : insertPhotoEntry ctx entry db = .ok db') :
    ∃ storage, applyBlobInserts ctx (entry.resources.map (·.op)) db.storage = .ok storage ∧
      ((∀ other ∈ db.photos.photos, other.id ≠ entry.photoId) ∧
        ∀ libraryId ∈ entry.libraryId, db.photos.LibraryExists libraryId) ∧
      db' = upsertPhotoChanges entry.photoId ⟨db.users, db.devices, storage, { db.photos with
        photos := db.photos.photos ++ [⟨entry.photoId, entry.libraryId, entry.uploadedBy,
          entry.encryptedMetadata, entry.metadataNonce, none, none, entry.cloudFingerprint⟩]
        resources := db.photos.resources ++
          (entry.resources.map fun resource =>
            ⟨entry.photoId, resource.resourceType, resource.op.blobId⟩)
        metadataAccess := upsertWraps entry.photoId entry.metadataAccess db.photos.metadataAccess
        operations := db.photos.operations ++ [⟨entry.operationId, entry.libraryId, entry.photoId,
          0, none, none, none, none, entry.uploadedBy⟩] }, db.currentHeight⟩ := by
  simp only [insertPhotoEntry, insertPhotoRow, bind_eq_ok, exists_require, pure_eq_ok] at ran
  obtain ⟨storage, hr, _, ⟨hf, _, refs, rfl⟩, _, resources, _, hw, _, hl, rfl⟩ := ran
  rw [insertResourceRows_ok resources] at hw
  rw [upsertMetadataAccessRows_ok hw] at hl
  obtain rfl := insertOperationRow_ok hl
  exact ⟨storage, hr, ⟨hf, refs.2⟩, rfl⟩

lemma photoAddEntry_ok {entry} (ran : photoAddEntry ctx userId db entry = .ok db') :
    insertPhotoEntry ctx entry db = .ok db' := by
  simp only [photoAddEntry, require_bind] at ran
  exact ran.2.2

lemma editablePhoto_ok {photo} (ran : editablePhoto db userId photoId = .ok photo) :
    db.photos.photo photoId = some photo ∧ db.photos.PhotoWriteAllowed userId photo ∧
    photo.deletedAt = none := by
  simp only [editablePhoto, writablePhoto, bind_eq_ok, orNotFound_eq_ok, exists_require,
    pure_eq_ok] at ran
  obtain ⟨_, ⟨_, hf, ha, rfl⟩, hl, rfl⟩ := ran
  exact ⟨hf, ha, hl⟩

/-- The metadata that an entry brings, if it brings both halves. -/
def PhotoEditContentEntry.metadata (entry : PhotoEditContentEntry) :
    Option (Bytes × FixedBytes 12 × List MetadataAccessEntry) :=
  entry.encryptedMetadata.bind fun encrypted =>
    entry.metadataNonce.map fun nonce => (encrypted, nonce, entry.metadataAccess)

/-- A photo's ciphertext and wraps after an edit. -/
def PhotoTables.withMetadata (t : PhotoTables) (photoId : CustomUUID) :
    Option (Bytes × FixedBytes 12 × List MetadataAccessEntry) → PhotoTables
  | none => t
  | some (encrypted, nonce, access) => { t.setMetadata photoId encrypted nonce with
      metadataAccess := upsertWraps photoId access t.metadataAccess }

lemma replaceMetadata_ok {encrypted nonce access}
    (ran : replaceMetadata photoId encrypted nonce access db = .ok db') :
    db' = db.setPhotos (db.photos.withMetadata photoId (some (encrypted, nonce, access))) :=
  upsertMetadataAccessRows_ok ran

lemma applyMetadata_ok (ran : entry.applyMetadata db = .ok db') :
    db' = db.setPhotos (db.photos.withMetadata entry.photoId entry.metadata) := by
  unfold applyMetadata at ran
  unfold metadata
  cases he : entry.encryptedMetadata with
  | none =>
    rw [he] at ran
    cases ran
    rfl
  | some bytes =>
    cases hn : entry.metadataNonce with
    | none =>
      rw [he, hn] at ran
      cases ran
      rfl
    | some n =>
      rw [he, hn] at ran
      exact replaceMetadata_ok ran

lemma PhotoTables.withMetadata_aside (t : PhotoTables) {metadata} :
    (t.withMetadata photoId metadata).resources = t.resources ∧
      (t.withMetadata photoId metadata).operations = t.operations := by
  cases metadata with
  | none | some => exact ⟨rfl, rfl⟩

def PhotoTables.edited (t : PhotoTables) (entry : PhotoEditContentEntry) : PhotoTables :=
  ({ t with resources := upsertResources entry.photoId entry.resources t.resources }.removeResources
    entry.photoId entry.removeResources).withMetadata entry.photoId entry.metadata

lemma photoEditContentEntry_ok (ran : photoEditContentEntry ctx userId db entry = .ok db') :
    ∃ photo storage primaryType primaryNew, editablePhoto db userId entry.photoId = .ok photo ∧
      (entry.encryptedMetadata.isSome → entry.metadataAccess = [] ∨
        uncoveredWrapHolders db photo entry.metadataAccess = []) ∧
      applyBlobInserts ctx (entry.resources.map (·.op)) db.storage = .ok storage ∧
      entry.primary = some (primaryType, primaryNew) ∧
      db' = (upsertPhotoChanges entry.photoId
        ⟨db.users, db.devices, storage, { db.photos.edited entry with
        operations := (db.photos.edited entry).operations ++ [⟨entry.operationId, none,
          entry.photoId, 1, some primaryType, db.photos.resource entry.photoId primaryType,
          primaryNew, none, userId⟩] }, db.currentHeight⟩) := by
  have hv : ∃ photo, editablePhoto db userId entry.photoId = .ok photo ∧
      (entry.encryptedMetadata.isSome → entry.metadataAccess = [] ∨
        uncoveredWrapHolders db photo entry.metadataAccess = []) ∧
      editPhotoContent ctx entry userId db = .ok db' := by
    revert ran
    simp only [photoEditContentEntry, rejectStranding, rejectStrandingRekey, require_bind]
    cases entry.encryptedMetadata.isSome with
    | true | false => simp
  obtain ⟨photo, he, hco, ran⟩ := hv
  simp only [editPhotoContent, bind_eq_ok] at ran
  obtain ⟨storage, hr, ran⟩ := ran
  split at ran
  · cases ran
  rename_i primaryType primaryNew hf
  simp only [bind_eq_ok] at ran
  obtain ⟨_, hu, _, hm, hl⟩ := ran
  rw [upsertResourceRows_ok hu] at hm
  rw [applyMetadata_ok hm] at hl
  obtain rfl := insertOperationRow_ok hl
  exact ⟨photo, storage, primaryType, primaryNew, he, hco, hr, hf, rfl⟩

lemma photoEditMetadataEntry_ok {entry} (ran : photoEditMetadataEntry userId db entry = .ok db') :
    ∃ photo row, editablePhoto db userId entry.photoId = .ok photo ∧
      (entry.metadataAccess = [] ∨ uncoveredWrapHolders db photo entry.metadataAccess = []) ∧
      db.photos.photo entry.photoId = some row ∧
      let t := db.photos.withMetadata entry.photoId
        (some (entry.encryptedMetadata, entry.metadataNonce, entry.metadataAccess))
      db' = (upsertPhotoChanges entry.photoId ⟨db.users, db.devices, db.storage, { t with
        operations := t.operations ++ [⟨entry.operationId, none, entry.photoId, 3, none, none, none,
          some row.encryptedMetadata, userId⟩] }, db.currentHeight⟩) := by
  simp only [photoEditMetadataEntry, rejectStrandingRekey, bind_eq_ok, exists_require,
    editPhotoMetadata] at ran
  obtain ⟨photo, he, hco, ran⟩ := ran
  split at ran
  · cases ran
  rename_i row hf
  simp only [bind_eq_ok] at ran
  obtain ⟨_, hm, hl⟩ := ran
  rw [replaceMetadata_ok hm] at hl
  obtain rfl := insertOperationRow_ok hl
  exact ⟨photo, row, he, hco, hf, rfl⟩

lemma photoUndoEntry_ok {entry} (ran : photoUndoEntry userId db entry = .ok db') :
    ∃ target resourceType prior, db.photos.contentEdit entry.targetOperationId entry.photoId =
      some target ∧ target.resourceType = some resourceType ∧ target.priorDataBlockId = some prior ∧
      let t := db.photos.setResource entry.photoId resourceType prior
      db' = (upsertPhotoChanges entry.photoId ⟨db.users, db.devices, db.storage, { t with
        operations :=
          t.operations ++ [⟨entry.operationId, none, entry.photoId, 1, some resourceType,
          target.newDataBlockId, some prior, none, userId⟩] }, db.currentHeight⟩) := by
  simp only [photoUndoEntry, bind_eq_ok, undoContentEdit] at ran
  obtain ⟨_, _, ran⟩ := ran
  split at ran
  · cases ran
  rename_i target hf
  split at ran
  · cases ran
  · cases ran
  rename_i resourceType prior hk hb
  obtain rfl := insertOperationRow_ok (require_bind.1 ran).2
  exact ⟨target, resourceType, prior, hf, hk, hb, rfl⟩

/-- What an edit, with the metadata it brings if any, does beside its photo's resources. -/
structure Rekeyed (userId : Int) (photoId : CustomUUID)
    (metadata : Option (Bytes × FixedBytes 12 × List MetadataAccessEntry)) (db db' : PhotosDb) :
    Prop where
  covered : ∃ photo, editablePhoto db userId photoId = .ok photo ∧
    ∀ m ∈ metadata, m.2.2 = [] ∨ uncoveredWrapHolders db photo m.2.2 = []
  users : db'.users = db.users
  photos : db'.photos.photos = (db.photos.withMetadata photoId metadata).photos
  metadataAccess : db'.photos.metadataAccess =
    (db.photos.withMetadata photoId metadata).metadataAccess
  members : db'.photos.members = db.photos.members
  invites : db'.photos.invites = db.photos.invites
  libraries : db'.photos.libraries = db.photos.libraries
  operations : ∃ op, db'.photos.operations = db.photos.operations ++ [op]

lemma photoEditContentEntry_rekeyed (ran : photoEditContentEntry ctx userId db entry = .ok db') :
    Rekeyed userId entry.photoId entry.metadata db db' := by
  obtain ⟨photo, _, _, _, he, hco, _, _, rfl⟩ := photoEditContentEntry_ok ran
  have hc : ∀ m ∈ entry.metadata, m.2.2 = [] ∨ uncoveredWrapHolders db photo m.2.2 = [] := by
    intro m hm
    obtain ⟨encrypted, hs, nonce, _, rfl⟩ := by
      simpa only [metadata, Option.mem_def, Option.bind_eq_some_iff, Option.map_eq_some_iff]
        using hm
    exact hco (Option.isSome_of_eq_some hs)
  simp only [PhotoTables.edited, upsertPhotoChanges, PhotosDb.setPhotos]
  cases hm : entry.metadata with
  | none | some => exact ⟨⟨photo, he, hm ▸ hc⟩, rfl, rfl, rfl, rfl, rfl, rfl, _, rfl⟩

lemma photoEditMetadataEntry_rekeyed {entry}
    (ran : photoEditMetadataEntry userId db entry = .ok db') :
    Rekeyed userId entry.photoId
      (some (entry.encryptedMetadata, entry.metadataNonce, entry.metadataAccess)) db db' ∧
      db'.storage = db.storage ∧ db'.photos.resources = db.photos.resources := by
  obtain ⟨photo, _, he, hc, _, rfl⟩ := photoEditMetadataEntry_ok ran
  refine ⟨⟨⟨photo, he, ?_⟩, rfl, rfl, rfl, rfl, rfl, rfl, _, rfl⟩, rfl, rfl⟩
  rintro m ⟨⟩
  exact hc

lemma photoUndoEntry_rekeyed {entry} (ran : photoUndoEntry userId db entry = .ok db') :
    Rekeyed userId entry.photoId none db db' ∧ db'.storage = db.storage := by
  obtain ⟨photo, he, _⟩ := bind_eq_ok.1 ran
  obtain ⟨_, _, _, _, _, _, rfl⟩ := photoUndoEntry_ok ran
  exact ⟨⟨⟨photo, he, nofun⟩, rfl, rfl, rfl, rfl, rfl, rfl, _, rfl⟩, rfl⟩

end HopNet
