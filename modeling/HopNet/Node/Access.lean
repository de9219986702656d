import HopNet.Node.Tables
import HopNet.Photos.Keys

namespace HopNet

open Fallible Table Runs List PhotosEntry BlobAccess PhotosTx StorageTables UserRow

def BlobAccess.key (access : BlobAccess) : BlobId × FixedBytes 32 :=
  (access.blobId, access.recipientPubkey)

/-- The wraps of blobs after a batch of `apply_blob_access_add`. -/
def installWraps (wraps rows : List BlobAccess) : List BlobAccess :=
  wraps.foldl (fun rows wrap => insertOrReplace key wrap rows) rows

/-- The batch leaves another wrap in the row's place. -/
def Overwrites (wraps : List BlobAccess) (row : BlobAccess) : Prop :=
  ∃ wrap ∈ latest key row.key wraps, wrap ≠ row
deriving Decidable

variable {ctx : ApplyCtx}

section

variable {t t' : StorageTables}

lemma mem_installWraps {rows row wraps} (hr : row ∈ rows) :
    row ∈ installWraps wraps rows ↔ ¬ Overwrites wraps row := by
  rw [installWraps, mem_foldl_write mem_insertOrReplace, Overwrites]
  cases latest key row.key wraps with
  | none => simp [hr]
  | some wrap => simp

lemma addBlobAccess_wraps {access} (ran : addBlobAccess t access = .ok t') :
    t'.blobAccess = insertOrReplace key access t.blobAccess := by
  simp only [addBlobAccess, require_bind, pure_eq_ok] at ran
  obtain ⟨_, rfl⟩ := ran
  show _ ++ [access] = _ ++ [access]
  simp [key]

lemma insertFragment_wraps {probe fragment}
    (ran : insertFragment probe t fragment = .ok t') : t'.blobAccess = t.blobAccess := by
  simp only [insertFragment, require_bind, pure_eq_ok] at ran
  obtain ⟨_, _, rfl⟩ := ran
  rfl

lemma applyBlobInsert_wraps {probe height op} (ran : applyBlobInsert probe height op t = .ok t') :
    t'.blobAccess = installWraps op.access t.blobAccess := by
  simp only [applyBlobInsert, bind_eq_ok, exists_require] at ran
  obtain ⟨_, middle, hf, hw⟩ := ran
  have hs := foldlM_view blobAccess (fun rows _ => rows) op.fragments
    (fun _ _ _ _ => insertFragment_wraps) hf
  have hi := foldlM_view blobAccess
    (fun rows wrap => insertOrReplace key wrap rows) op.access
      (fun _ _ _ _ => addBlobAccess_wraps) hw
  rw [hi, hs, foldl_fixed]
  rfl

lemma applyBlobInserts_wraps {ops} (ran : applyBlobInserts ctx ops t = .ok t') :
    t'.blobAccess = installWraps (ops.flatMap (·.access)) t.blobAccess := by
  rw [applyBlobInserts, mapError_eq_ok] at ran
  rw [foldlM_view blobAccess (fun rows op => installWraps op.access rows) ops
    (fun _ _ _ _ => applyBlobInsert_wraps) ran, installWraps, foldl_flatMap]
  rfl

end

variable {decode : AccessDecoder} {signer : Option Int}

/-- The wraps of the blobs it registers, or the sender's in the share it accepts. -/
def DriveTx.wraps (decode : AccessDecoder) (t : DriveTables) (tx : DriveTx) : List BlobAccess :=
  tx.registers.flatMap
    (·.access) ++ ((tx.accepts t).bind fun share => decode share.fileAccess).toList

lemma DriveTx.process_wraps {db db'} {tx : DriveTx}
    (ran : tx.process decode ctx signer db = .ok db') :
    db'.storage.blobAccess = installWraps (tx.wraps decode db.drive) db.storage.blobAccess := by
  unfold DriveTx.wraps
  rcases DriveTx.process_storage ran with ⟨hns, hr⟩ | ⟨share, hf, hn, hw⟩
  · rw [hns, applyBlobInserts_wraps hr]
    simp
  · rw [hf, hn]
    unfold acceptAccess at hw
    split at hw
    · cases hw
    rename_i access hd
    rw [addBlobAccess_wraps (mapError_eq_ok.1 hw)]
    simp [hd, installWraps]

variable {expired : Expiry} {db : PhotosDb}

section

variable {db' : PhotosDb} {entry : PhotosEntry}

/-- The wraps that come with the resources of an add or an edit. -/
def resourceWraps (resources : List PhotoResourceOp) : List BlobAccess :=
  (resources.map (·.op)).flatMap (·.access)

def PhotosEntry.wraps : PhotosEntry → List BlobAccess
  | .add entry => resourceWraps entry.resources
  | .editContent entry => resourceWraps entry.resources
  | _ => []

def PhotosEntry.writesStorage : PhotosEntry → Bool
  | .add _ | .editContent _ | .grant _ | .revoke _ => true
  | _ => false

lemma PhotosEffect.storage (he : PhotosEffect ctx signer entry db db')
    (ha : entry.writesStorage = false) : db'.storage = db.storage := by
  cases he with
  | aside hs | created _ hs | invited _ hs | settled _ hs => exact hs.storage
  | dropped => rfl
  | rewritten _ same => exact same.1
  | undone _ _ same => exact same
  | added | edited | granted | revoked => cases ha

/-- A grant or a revocation; all else writes wraps only of blobs it registers. -/
def PhotosEntry.convergence : PhotosEntry → Bool
  | .grant _ | .revoke _ => true
  | _ => false

lemma PhotosEntry.apply_wraps (ha : entry.convergence = false)
    (ran : entry.apply expired ctx signer db = .ok db') :
    db'.storage.blobAccess = installWraps entry.wraps db.storage.blobAccess := by
  have hq : entry.writesStorage = false → entry.wraps = [] →
      db'.storage.blobAccess = installWraps entry.wraps db.storage.blobAccess := by
    intro ha hn
    rw [hn, (apply_effect ran).storage ha]
    rfl
  cases entry with
  | add entry =>
    simp only [apply, bind_eq_ok, signerId_eq_ok] at ran
    obtain ⟨_, _, ran⟩ := ran
    obtain ⟨storage, hr, _, rfl⟩ := insertPhotoEntry_ok (photoAddEntry_ok ran)
    exact applyBlobInserts_wraps hr
  | editContent entry =>
    simp only [apply, bind_eq_ok, signerId_eq_ok] at ran
    obtain ⟨_, _, ran⟩ := ran
    obtain ⟨_, _, _, _, _, _, hr, _, rfl⟩ := photoEditContentEntry_ok ran
    exact applyBlobInserts_wraps hr
  | grant | revoke => cases ha
  | _ => exact hq rfl rfl

lemma PhotosTx.process_wraps {tx : PhotosTx} (ha : ∀ entry ∈ tx.entries, entry.convergence = false)
    (ran : tx.process expired ctx signer db = .ok db') :
    db'.storage.blobAccess = installWraps (tx.entries.flatMap (·.wraps)) db.storage.blobAccess := by
  have hi := foldlM_view (fun db : PhotosDb => db.storage.blobAccess)
    (fun rows entry => installWraps entry.wraps rows) tx.entries
    (fun entry ht _ _ => apply_wraps (ha entry ht)) (process_entries ran)
  rw [hi, installWraps, foldl_flatMap]
  rfl

end

/-- The uploader of the photo, or a member of its library. -/
def PhotoTables.MayWrite (t : PhotoTables) (userId : Int) (photoId : CustomUUID) : Prop :=
  ∃ photo ∈ t.photos, photo.id = photoId ∧ t.PhotoWriteAllowed userId photo

variable {userId : Int}

section

variable {s s' : PhotosDb} {photo : PhotoRow}

/-- Old photos keep who may write to them, and rows went only from photos the user may write to. -/
structure WritesOwn (userId : Int) (db s : PhotosDb) : Prop where
  members : s.photos.members = db.photos.members
  kept : ∀ old ∈ db.photos.photos, ∃ photo ∈ s.photos.photos, photo.id = old.id
  photos : ∀ photo ∈ s.photos.photos, (∃ row ∈ db.photos.photos, row.id = photo.id) →
    ∃ old ∈ db.photos.photos, old.id = photo.id ∧ old.libraryId = photo.libraryId ∧
      old.uploadedBy = photo.uploadedBy
  rows : ∀ row ∈ db.photos.metadataAccess, row ∈ s.photos.metadataAccess ∨
    db.photos.MayWrite userId row.photoId

lemma WritesOwn.refl (userId : Int) (db : PhotosDb) : WritesOwn userId db db :=
  ⟨rfl, fun old hr => ⟨old, hr, rfl⟩, fun photo hr _ => ⟨photo, hr, rfl, rfl, rfl⟩,
    fun _ hr => .inl hr⟩

/-- Photos change beside their owners, and rows stay. -/
lemma WritesOwn.map (own : WritesOwn userId db s) (hm : s'.photos.members = s.photos.members)
    (hk : PhotosKept s.photos s'.photos)
    (rows : ∀ row ∈ db.photos.metadataAccess, row ∈ s.photos.metadataAccess →
      row ∈ s'.photos.metadataAccess ∨ db.photos.MayWrite userId row.photoId) :
    WritesOwn userId db s' := by
  obtain ⟨f, same, hph⟩ := hk
  refine ⟨hm.trans own.members, ?_, ?_, ?_⟩
  · intro old hr
    obtain ⟨photo, hp, hpo⟩ := own.kept old hr
    exact ⟨f photo, hph ▸ mem_map_of_mem hp, (same photo).1.trans hpo⟩
  · rw [hph]
    intro photo' hp hk
    obtain ⟨photo, ho, rfl⟩ := mem_map.1 hp
    obtain ⟨hsi, hsl, hs⟩ := same photo
    rw [hsi] at hk ⊢
    rw [hsl, hs]
    exact own.photos photo ho hk
  · intro row hr
    rcases own.rows row hr with hst | ha
    · exact rows row hr hst
    · exact .inr ha

lemma WritesOwn.allowed (own : WritesOwn userId db s) (hp : photo ∈ s.photos.photos)
    (hk : ∃ row ∈ db.photos.photos, row.id = photo.id)
    (ha : s.photos.PhotoWriteAllowed userId photo) : db.photos.MayWrite userId photo.id := by
  obtain ⟨old, ho, hs, hli, hup⟩ := own.photos photo hp hk
  refine ⟨old, ho, hs, ?_⟩
  rw [PhotoTables.PhotoWriteAllowed, hli, hup]
  rcases ha with hu | ⟨libraryId, hl, hm⟩
  · exact .inl hu
  · rw [PhotoTables.IsMember, own.members] at hm
    exact .inr ⟨libraryId, hl, hm⟩

lemma WritesOwn.rekeyed (own : WritesOwn userId db s) (hso : PhotosSound db) {photoId metadata}
    (he : Rekeyed userId photoId metadata s s') : WritesOwn userId db s' := by
  obtain ⟨photo, hed, _⟩ := he.covered
  obtain ⟨hph, rfl⟩ := editablePhoto_mem hed
  refine own.map he.members he.photosKept fun row hr hs => ?_
  rw [he.metadataAccess]
  cases metadata with
  | none => exact .inl hs
  | some m =>
    by_cases hp : row.photoId = photo.id
    · obtain ⟨old, hol, ho⟩ := hso.rows row hr
      exact .inr (hp ▸ own.allowed hph ⟨old, hol, ho.trans hp⟩ (editablePhoto_ok hed).2.1)
    · exact .inl (mem_upsertWraps.2 hs fun hh => absurd hh hp)

lemma WritesOwn.added (own : WritesOwn userId db s) (hs : PhotosSound db) {entry}
    (ran : insertPhotoEntry ctx entry s = .ok s') : WritesOwn userId db s' := by
  obtain ⟨_, _, ⟨hf, _⟩, rfl⟩ := insertPhotoEntry_ok ran
  have hu : ∀ old ∈ db.photos.photos, old.id ≠ entry.photoId := by
    intro old hr same
    obtain ⟨photo, hp, hph⟩ := own.kept old hr
    exact hf photo hp (hph.trans same)
  refine ⟨own.members, ?_, ?_, ?_⟩
  · intro old hr
    obtain ⟨photo, hp, hph⟩ := own.kept old hr
    exact ⟨photo, mem_append_left _ hp, hph⟩
  · rintro photo hp ⟨row, hr, hro⟩
    rcases mem_append.1 hp with old | new
    · exact own.photos photo old ⟨row, hr, hro⟩
    · rw [mem_singleton.1 new] at hro
      exact absurd hro (hu row hr)
  · intro row hr
    rcases own.rows row hr with hst | ha
    · obtain ⟨old, hol, ho⟩ := hs.rows row hr
      exact .inl (mem_upsertWraps.2 hst fun hh => absurd (ho.trans hh) (hu old hol))
    · exact .inr ha

/-- Neither about a library nor a revocation: what comes in batches. -/
def PhotosEntry.batched : PhotosEntry → Bool
  | .grant _ | .revoke _ => false
  | entry => !entry.membership

lemma WritesOwn.step {entry : PhotosEntry} (own : WritesOwn userId db s) (hso : PhotosSound db)
    (hb : entry.batched = true) (ran : entry.apply expired ctx (some userId) s = .ok s') :
    WritesOwn userId db s' := by
  cases apply_effect ran with
  | aside same =>
    exact own.map same.members same.photosKept fun row _ hs => .inl (same.metadataAccess ▸ hs)
  | settled ha _ _ =>
    have hap : entry.batched = !entry.membership := by
      cases entry with
      | grant | revoke => cases ha
      | _ => rfl
    rw [hap, ha] at hb
    cases hb
  | created | invited | granted | revoked => cases hb
  | added ran => exact own.added hso ran
  | edited _ edit | rewritten edit | undone _ edit => exact own.rekeyed hso edit

lemma PhotosEffect.metadata_kept {entry : PhotosEntry} {signer}
    (he : PhotosEffect ctx signer entry db s')
    (hb : entry.batched = false) (hn : ∀ payload, entry ≠ .revoke payload) :
    ∀ row ∈ db.photos.metadataAccess, row ∈ s'.photos.metadataAccess := by
  cases he with
  | aside hs | created _ hs | invited _ hs | settled _ hs => exact fun _ hr =>
      hs.metadataAccess ▸ hr
  | granted done => exact done.kept
  | revoked => exact absurd rfl (hn _)
  | dropped | added | edited | rewritten | undone => cases hb

lemma PhotosTx.process_metadata {tx : PhotosTx} (hso : PhotosSound db)
    (hk : ∀ payload, tx ≠ .libraryAccessRevoke payload)
    (ran : tx.process expired ctx (some userId) db = .ok s') :
    ∀ row ∈ db.photos.metadataAccess, row ∈ s'.photos.metadataAccess ∨
      db.photos.MayWrite userId row.photoId := by
  have hb : (∀ entry ∈ tx.entries, entry.batched = true) → WritesOwn userId db s' := fun all =>
    foldlM_invariant (WritesOwn userId db) tx.entries (fun entry ht _ _ own step =>
      own.step hso (all entry ht) step) (.refl userId db) (process_entries ran)
  cases tx with
  | createSharedLibrary | libraryInvite | libraryInviteAccept | libraryInviteDecline |
      libraryRemoveMember
  | libraryAccessGrant =>
    exact fun row hr => .inl
      ((apply_effect (process_single _ rfl ran)).metadata_kept rfl (nofun) row hr)
  | libraryAccessRevoke payload => exact absurd rfl (hk payload)
  | _ => exact (hb (by simp [entries, batched, membership])).rows

end

def ProjectionTx.revocation : ProjectionTx → Option LibraryAccessRevokePayload
  | .photos (.libraryAccessRevoke payload) => some payload
  | _ => none

namespace PhotoTables

variable (t : PhotoTables) (libraryId : CustomUUID)

def InLibrary (photoId : CustomUUID) : Prop :=
  ∃ photo ∈ t.photos, photo.id = photoId ∧ photo.libraryId = some libraryId

def Backs (b : BlobId) : Prop :=
  ∃ row ∈ t.resources, row.dataBlockId = b ∧ t.InLibrary libraryId row.photoId

/-- Neither a member nor invited. -/
def Left (userId : Int) : Prop := ¬ (t.IsMember libraryId userId ∨ t.IsInvitee libraryId userId)

end PhotoTables

/-- Others keep their wraps, but for what a revocation and a photo's writer may take. -/
structure AccessKept (userId : Int) (tx : ProjectionTx) (t t' : NodeTables) : Prop where
  blobs : ∀ row ∈ t.storage.blobAccess, userX25519Pubkey t.users userId ≠ some row.recipientPubkey →
    row ∈ t'.storage.blobAccess ∨ ∃ payload ∈ tx.revocation,
      t.photos.IsMember payload.libraryId userId ∧ t.photos.Backs payload.libraryId row.blobId ∧
      ∃ owner, userX25519Pubkey t.users owner = some row.recipientPubkey ∧
        t.photos.Left payload.libraryId owner
  metadata : ∀ row ∈ t.photos.metadataAccess, row.userId ≠ userId →
    row ∈ t'.photos.metadataAccess ∨ t.photos.MayWrite userId row.photoId ∨
      ∃ payload ∈ tx.revocation, t.photos.IsMember payload.libraryId userId ∧
        t.photos.InLibrary payload.libraryId row.photoId ∧
        t.photos.Left payload.libraryId row.userId

/-- The wraps in a payload are not for rows of others that are there. -/
def SparesWraps (userId : Int) (t : NodeTables) (wraps : List BlobAccess) : Prop :=
  ∀ row ∈ t.storage.blobAccess, userX25519Pubkey t.users userId ≠ some row.recipientPubkey →
    ¬ Overwrites wraps row
deriving Decidable

/-- The revoked ids are of the library, as far as the target has rows for them. -/
def RevokesInLibrary (userId : Int) (t : NodeTables) (payload : LibraryAccessRevokePayload) :
    Prop :=
  (∀ row ∈ t.storage.blobAccess, userX25519Pubkey t.users userId ≠ some row.recipientPubkey →
    row.blobId ∈ payload.dataBlockIds → userX25519Pubkey t.users payload.userId =
      some row.recipientPubkey → t.photos.Backs payload.libraryId row.blobId) ∧
  ∀ row ∈ t.photos.metadataAccess, row.photoId ∈ payload.photoIds → row.userId = payload.userId →
    t.photos.MayWrite userId row.photoId ∨ t.photos.InLibrary payload.libraryId row.photoId

/-- What a transaction must be for others to keep their wraps. -/
def ProjectionTx.LeavesAccess (decode : AccessDecoder) (userId : Int) (t : NodeTables)
    (tx : ProjectionTx) : Prop :=
  match tx with
  | .drive tx => SparesWraps userId t (tx.wraps decode t.drive)
  | .photos (.libraryAccessRevoke payload) => RevokesInLibrary userId t payload
  | .photos tx => SparesWraps userId t (tx.entries.flatMap (·.wraps))

variable {t t' : NodeTables}

lemma accessKept_iff_spares {tx wraps} (hap : tx.revocation = none)
    (hi : t'.storage.blobAccess = installWraps wraps t.storage.blobAccess)
    (hm : ∀ row ∈ t.photos.metadataAccess,
      row ∈ t'.photos.metadataAccess ∨ t.photos.MayWrite userId row.photoId) :
    AccessKept userId tx t t' ↔ SparesWraps userId t wraps := by
  constructor
  · intro hk row hr hf
    rcases hk.blobs row hr hf with hst | ⟨payload, hre, _⟩
    · rw [hi, mem_installWraps hr] at hst
      exact hst
    · rw [hap] at hre
      cases hre
  · refine fun hs => ⟨fun row hr hf => .inl ?_, fun row hr _ => ?_⟩
    · rw [hi, mem_installWraps hr]
      exact hs row hr hf
    · rcases hm row hr with hst | ha
      · exact .inl hst
      · exact .inr (.inl ha)

lemma accessKept_iff_revokes {payload height db'}
    (ran : libraryAccessRevoke userId (t.photosDb height) payload = .ok db') :
    AccessKept userId (.photos (.libraryAccessRevoke payload)) t (t.setPhotosDb db') ↔
      RevokesInLibrary userId t payload := by
  obtain ⟨targetPubkey, hm, left, ht, rfl⟩ := libraryAccessRevoke_ok ran
  have ht : userX25519Pubkey t.users payload.userId = some targetPubkey := ht
  have hb : ∀ row ∈ t.storage.blobAccess,
      row ∈ (t.storage.deleteBlobAccess payload.dataBlockIds targetPubkey).blobAccess ↔
        ¬ (row.blobId ∈ payload.dataBlockIds ∧ row.recipientPubkey = targetPubkey) := by
    intro row hr
    rw [deleteBlobAccess, mem_filter, decide_eq_true_eq]
    exact and_iff_right hr
  have hme : ∀ row ∈ t.photos.metadataAccess,
      row ∈ (t.photos.deleteMetadataAccess payload.photoIds payload.userId).metadataAccess ↔
        ¬ (row.photoId ∈ payload.photoIds ∧ row.userId = payload.userId) := by
    intro row hr
    rw [PhotoTables.deleteMetadataAccess, mem_filter, decide_eq_true_eq]
    exact and_iff_right hr
  constructor
  · refine fun hk => ⟨fun row hr hf hn ho => ?_, fun row hr hn ho => ?_⟩
    · rw [ht, Option.some.injEq] at ho
      rcases hk.blobs row hr hf with hs | ⟨_, hre, _, hba, _⟩
      · exact absurd ⟨hn, ho.symm⟩ ((hb row hr).1 hs)
      · cases hre
        exact hba
    · have hot : row.userId ≠ userId := by
        intro same
        rw [← ho, same] at left
        exact left (.inl hm)
      rcases hk.metadata row hr hot with hs | ha | ⟨_, hre, _, hl, _⟩
      · exact absurd ⟨hn, ho⟩ ((hme row hr).1 hs)
      · exact .inl ha
      · cases hre
        exact .inr hl
  · refine fun hre => ⟨fun row hr hf => ?_, fun row hr _ => ?_⟩
    · by_cases hg : row.blobId ∈ payload.dataBlockIds ∧ row.recipientPubkey = targetPubkey
      · have ho : userX25519Pubkey t.users payload.userId = some row.recipientPubkey := hg.2 ▸ ht
        exact .inr ⟨payload, rfl, hm, hre.1 row hr hf hg.1 ho, payload.userId, ho, left⟩
      · exact .inl ((hb row hr).2 hg)
    · by_cases hg : row.photoId ∈ payload.photoIds ∧ row.userId = payload.userId
      · rcases hre.2 row hr hg.1 hg.2 with ha | hl
        · exact .inr (.inl ha)
        · exact .inr (.inr ⟨payload, rfl, hm, hl, hg.2 ▸ left⟩)
      · exact .inl ((hme row hr).2 hg)

/-- An accepted transaction leaves others their wraps iff its payload is of that kind. -/
lemma ProjectionTx.accessKept_iff {ctx tx} (hs : PhotosSound (t.photosDb ctx.currentHeight))
    (ran : tx.process decode expired ctx (some userId) t = .ok t') :
    AccessKept userId tx t t' ↔ tx.LeavesAccess decode userId t := by
  cases tx with
  | drive tx =>
    simp only [ProjectionTx.process, bind_eq_ok, pure_eq_ok] at ran
    obtain ⟨db, ran, rfl⟩ := ran
    exact accessKept_iff_spares rfl (DriveTx.process_wraps ran) fun _ hr => .inl hr
  | photos tx =>
    simp only [ProjectionTx.process, bind_eq_ok, pure_eq_ok] at ran
    obtain ⟨db, ran, rfl⟩ := ran
    have ha : ∀ {tx : PhotosTx}, (∀ payload, tx ≠ .libraryAccessRevoke payload) →
        (∀ payload, tx ≠ .libraryAccessGrant payload) →
          ∀ entry ∈ tx.entries, entry.convergence = false := by
      intro tx hn hng
      cases tx with
      | libraryAccessRevoke payload => exact absurd rfl (hn payload)
      | libraryAccessGrant payload => exact absurd rfl (hng payload)
      | _ => simp [entries, convergence]
    cases tx with
    | libraryAccessRevoke payload =>
        exact accessKept_iff_revokes (process_single (.revoke payload) rfl ran)
    | libraryAccessGrant payload =>
      -- A grant adds rows only.
      have hg := libraryAccessGrant_ok (process_single (.grant payload) rfl ran)
      refine ⟨fun _ row _ _ => ?_, fun _ => ⟨fun row hr _ => .inl (hg.blobs row hr),
        fun row hr _ => .inl (hg.kept row hr)⟩⟩
      rintro ⟨wrap, hl, _⟩
      cases hl
    | _ =>
      exact accessKept_iff_spares rfl
        (process_wraps (ha (fun _ ho => by cases ho) (fun _ ho => by cases ho)) ran)
        (process_metadata hs (fun _ ho => by cases ho) ran)

inductive ProjectionEvent where
  | tx (ctx : ProjectionCtx) (signer : Option Int) (tx : ProjectionTx)
  /-- A transaction of another part. -/
  | other

/-- Other parts leave the photos alone, and never delete a user. -/
def ProjectionStep (decode : AccessDecoder) (expired : Expiry) (t : NodeTables)
    (event : ProjectionEvent) (t' : NodeTables) : Prop :=
  match event with
  | .tx ctx signer tx => tx.process decode expired ctx signer t = .ok t'
  | .other => t'.photos = t.photos ∧ ∀ userId, UserExists t.users userId →
      UserExists t'.users userId

lemma ProjectionStep.sound {event} (hs : PhotosSound (t.photosDb 0))
    (step : ProjectionStep decode expired t event t') : PhotosSound (t'.photosDb 0) := by
  cases event with
  | other => exact hs.congr step.1 step.2
  | tx ctx signer tx =>
    cases tx with
    | drive tx =>
      simp only [ProjectionStep, ProjectionTx.process, bind_eq_ok, pure_eq_ok] at step
      obtain ⟨db, _, rfl⟩ := step
      exact hs.congr rfl fun _ hk => hk
    | photos tx =>
      simp only [ProjectionStep, ProjectionTx.process, bind_eq_ok, pure_eq_ok] at step
      obtain ⟨db, ran, rfl⟩ := step
      have hst : PhotosSound (t.photosDb ctx.currentHeight) := hs.congr rfl fun _ hk => hk
      have hd : PhotosSound db ∧ db.users = t.users := by
        refine foldlM_invariant (fun s => PhotosSound s ∧ s.users = t.users) tx.entries ?_
          ⟨hst, rfl⟩ (process_entries ran)
        rintro entry _ s s' ⟨hs, users⟩ ran
        exact ⟨apply_photosSound hs ran, (apply_users ran).trans users⟩
      refine hd.1.congr rfl fun userId hk => ?_
      rw [hd.2] at hk
      exact hk

/-- In every state that drive, photos and other transactions reach, an accepted transaction of a
user leaves all others their wraps, but for what a revocation in its library and a writer of a photo
may take, if and only if its payload names no wrap of another key that is there and revokes only
what is of the library. -/
theorem others_keep_access_iff (decode : AccessDecoder) (expired : Expiry)
    (ctx : ProjectionCtx) (userId : Int) (t₀ t t' : NodeTables) (past : List ProjectionEvent)
    (tx : ProjectionTx)
    (start : t₀.photos = .empty) (run : Reaches (ProjectionStep decode expired) t₀ past t)
    (ran : tx.process decode expired ctx (some userId) t = .ok t') :
    AccessKept userId tx t t' ↔ tx.LeavesAccess decode userId t := by
  have hs : PhotosSound (t.photosDb 0) :=
    run.invariant_state (fun t => PhotosSound (t.photosDb 0)) (.empty start) fun _ _ _ hs step =>
      step.sound hs
  exact ProjectionTx.accessKept_iff (hs.congr rfl fun _ hk => hk) ran

def emptyNode : NodeTables := { NodeTables.empty with users := [.sample 1, .sample 2, .sample 3] }

def projectionNext (t : NodeTables) : ProjectionEvent → Option NodeTables
  | .tx ctx signer tx => (tx.process sampleDecode allExpired ctx signer t).toOption
  | .other => none

lemma projectionNext_sound {t t' event} (hn : projectionNext t event = some t') :
    ProjectionStep sampleDecode allExpired t event t' := by
  cases event with
  | tx ctx signer tx => exact toOption_eq_some.1 hn
  | other => cases hn

def sampleProjection : ProjectionCtx := ⟨sampleCtx 1, 0⟩

def signedBy (userId : Nat) (tx : ProjectionTx) : ProjectionEvent :=
  .tx sampleProjection (some userId) tx

/-- User 1 has a file on block 10 and a photo on block 11, user 3 an empty library. -/
def ownedByFirst : List ProjectionEvent :=
  [signedBy 1
    (.drive (.insertFiles [sampleBlobOp 10 1] [sampleInode 1 1 ['/', 'a'] .file (some 10)])),
    signedBy 1 (.photos (.photoAdd [samplePhoto none [(0, 11)] [⟨1, sampleWrap 1⟩]])),
    signedBy 3 (.photos (.createSharedLibrary ⟨⟨9⟩, [], .replicate 12 0, ⟨3, sampleWrap 0⟩⟩))]

def firstOwns : NodeTables := final projectionNext emptyNode ownedByFirst

/-- User 3 uploads its own block; the payload's wraps are for block 10 and user 1. -/
def overwriting : ProjectionTx :=
  .drive (.insertFiles
    [{ sampleBlobOp 30 3 with access := [⟨⟨10⟩, (sample 1).x25519Pubkey, .replicate 32 9, [9]⟩] }]
      [])

def overwritten : NodeTables :=
  (overwriting.process sampleDecode allExpired sampleProjection (some 3) firstOwns).toOption.getD
    emptyNode

/-- User 3 revokes, in its library, what user 1 has of its file and photo. -/
def revoking : ProjectionTx := .photos (.libraryAccessRevoke ⟨⟨9⟩, 1, [⟨1⟩], [⟨10⟩, ⟨11⟩]⟩)

def revoked : NodeTables :=
  (revoking.process sampleDecode allExpired sampleProjection (some 3) firstOwns).toOption.getD
    emptyNode

/-- Both are accepted, and user 1 has lost its wraps. -/
theorem access_destroyed :
    Reaches (ProjectionStep sampleDecode allExpired) emptyNode ownedByFirst firstOwns ∧
    overwriting.process sampleDecode allExpired sampleProjection (some 3) firstOwns =
      .ok overwritten ∧
    revoking.process sampleDecode allExpired sampleProjection (some 3) firstOwns = .ok revoked ∧
    firstOwns.storage.blobAccess = [⟨⟨10⟩, (sample 1).x25519Pubkey, .replicate 32 1, [1]⟩,
      ⟨⟨11⟩, (sample 1).x25519Pubkey, .replicate 32 1, [1]⟩] ∧
    firstOwns.photos.metadataAccess = [⟨⟨1⟩, 1, sampleWrap 1⟩] ∧
    overwritten.storage.blobAccess = [⟨⟨11⟩, (sample 1).x25519Pubkey, .replicate 32 1, [1]⟩,
      ⟨⟨10⟩, (sample 1).x25519Pubkey, .replicate 32 9, [9]⟩] ∧
    revoked.storage.blobAccess = [] ∧ revoked.photos.metadataAccess = [] :=
  ⟨.of_foldlM projectionNext_sound (by decide +kernel), by decide +kernel⟩

/-- An upload with the user's own wrap only. -/
def uploading : ProjectionTx :=
  .drive (.insertFiles [sampleBlobOp 30 3] [sampleInode 3 3 ['/', 'c'] .file (some 30)])

def uploaded : NodeTables :=
  (uploading.process sampleDecode allExpired sampleProjection (some 3) firstOwns).toOption.getD
    emptyNode

theorem uploading_keeps_access : AccessKept 3 uploading firstOwns uploaded :=
  (others_keep_access_iff sampleDecode allExpired sampleProjection 3 emptyNode firstOwns uploaded
    ownedByFirst
    uploading rfl (.of_foldlM projectionNext_sound (by decide +kernel)) (by decide +kernel)).2
    (show SparesWraps 3 firstOwns (sampleBlobOp 30 3).access by decide +kernel)

end HopNet
