import HopNet.Drive.Steps
import HopNet.Photos.Effects

namespace HopNet

open Fallible Table Runs List

section

variable {expired : Expiry} {ctx : ApplyCtx} {signer : Option Int} {db db' : PhotosDb}
  {tx : PhotosTx}

lemma PhotosTx.process_entries (ran : tx.process expired ctx signer db = .ok db') :
    tx.entries.foldlM (fun db entry => entry.apply expired ctx signer db) db = .ok db' :=
  (require_bind.1 ran).2

lemma PhotosTx.process_single (entry) (he : tx.entries = [entry])
    (ran : tx.process expired ctx signer db = .ok db') :
    entry.apply expired ctx signer db = .ok db' := by
  simpa [he] using process_entries ran

end

/-- A write beside the content: tombstones, favorites, albums and claims. -/
structure Aside (db db' : PhotosDb) : Prop where
  users : db'.users = db.users
  storage : db'.storage = db.storage
  metadataAccess : db'.photos.metadataAccess = db.photos.metadataAccess
  resources : db'.photos.resources = db.photos.resources
  members : db'.photos.members = db.photos.members
  invites : db'.photos.invites = db.photos.invites
  libraries : db'.photos.libraries = db.photos.libraries
  operations : ∃ added, db'.photos.operations = db.photos.operations ++ added
  photos : ∃ f : PhotoRow → PhotoRow, (∀ row, ∃ deletedAt deletedBy,
    f row = { row with deletedAt := deletedAt, deletedBy := deletedBy }) ∧
      db'.photos.photos = db.photos.photos.map f

/-- A write to a library's members and invitees, and what goes with them. -/
structure Membership (db db' : PhotosDb) : Prop where
  users : db'.users = db.users
  storage : db'.storage = db.storage
  metadataAccess : db'.photos.metadataAccess = db.photos.metadataAccess
  resources : db'.photos.resources = db.photos.resources
  operations : db'.photos.operations = db.photos.operations
  photos : db'.photos.photos = db.photos.photos
  libraries : ∀ libraryId, db.photos.LibraryExists libraryId → db'.photos.LibraryExists libraryId

section

variable {db db' : PhotosDb} {userId invitee target : Int} {libraryId : CustomUUID}
  {entry : PhotoOpEntry} {t t' : PhotoTables}

lemma Aside.refl (db : PhotosDb) : Aside db db :=
  ⟨rfl, rfl, rfl, rfl, rfl, rfl, rfl, ⟨[], (append_nil _).symm⟩, id,
    fun row => ⟨row.deletedAt, row.deletedBy, rfl⟩, (map_id _).symm⟩

/-- An operation of a photo whose tombstone alone may change. -/
lemma aside_of_update {row photoId} {f : PhotoRow → PhotoRow}
    (ran : insertOperationRow row (db.setPhotos t) = .ok db')
    (hot : t.metadataAccess = db.photos.metadataAccess ∧ t.resources = db.photos.resources ∧
      t.members = db.photos.members ∧ t.invites = db.photos.invites ∧
      t.libraries = db.photos.libraries ∧ t.operations = db.photos.operations)
    (hp : t.photos = db.photos.photos.map f)
    (hs : ∀ row, f row = row ∨ ∃ deletedAt deletedBy,
      f row = { row with deletedAt := deletedAt, deletedBy := deletedBy }) :
    Aside db (upsertPhotoChanges photoId db') := by
  obtain rfl := insertOperationRow_ok ran
  obtain ⟨ha, hr, hm, hi, hl, ho⟩ := hot
  refine ⟨rfl, rfl, ha, hr, hm, hi, hl, ⟨[row], ?_⟩, f, fun row => ?_, hp⟩
  · show t.operations ++ [row] = _
    rw [ho]
  · exact (hs row).elim (fun same => ⟨row.deletedAt, row.deletedBy, same⟩) id

lemma photoDeleteEntry_aside (ran : photoDeleteEntry userId db entry = .ok db') : Aside db db' := by
  unfold photoDeleteEntry at ran
  split at ran
  · cases ran
    exact .refl db
  split at ran
  · simp only [require_bind] at ran
    cases ran.2
  simp only [softDeletePhoto, bind_eq_ok, exists_require, pure_eq_ok] at ran
  obtain ⟨_, _, middle, hl, rfl⟩ := ran
  refine aside_of_update hl ⟨rfl, rfl, rfl, rfl, rfl, rfl⟩ rfl fun row => ?_
  beta_reduce
  split_ifs <;> simp

lemma photoRestoreEntry_aside (ran : photoRestoreEntry userId db entry = .ok db') :
    Aside db db' := by
  unfold photoRestoreEntry at ran
  split at ran
  · cases ran
    exact .refl db
  simp only [restorePhoto, bind_eq_ok, exists_require, pure_eq_ok] at ran
  obtain ⟨_, _, middle, hl, rfl⟩ := ran
  refine aside_of_update hl ⟨rfl, rfl, rfl, rfl, rfl, rfl⟩ rfl fun row => ?_
  beta_reduce
  split_ifs <;> simp

lemma photoFavoriteEntry_aside (ran : photoFavoriteEntry userId db entry = .ok db') :
    Aside db db' := by
  unfold photoFavoriteEntry at ran
  split at ran
  · cases ran
    exact .refl db
  simp only [insertFavorite, bind_eq_ok, exists_require, pure_eq_ok] at ran
  obtain ⟨_, _, _, ⟨_, rfl⟩, hl⟩ := ran
  obtain rfl := insertOperationRow_ok hl
  exact { Aside.refl db with operations := ⟨_, rfl⟩ }

lemma photoUnfavoriteEntry_aside (ran : photoUnfavoriteEntry userId db entry = .ok db') :
    Aside db db' := by
  unfold photoUnfavoriteEntry at ran
  split at ran
  · cases ran
    exact .refl db
  split_ifs at ran
  · simp only [require_bind] at ran
    obtain rfl := insertOperationRow_ok ran.2
    exact { Aside.refl db with operations := ⟨_, rfl⟩ }
  · cases ran
    exact .refl db

lemma photoIngressClaim_aside {payload}
    (ran : photoIngressClaim userId db payload = .ok db') : Aside db db' := by
  simp only [photoIngressClaim, upsertIngressResponsibility, require_bind, pure_eq_ok] at ran
  obtain ⟨_, _, _, rfl⟩ := ran
  exact { Aside.refl db with }

lemma createSharedLibrary_ok {payload} (ran : createSharedLibrary userId db payload = .ok db') :
    Membership db db' ∧ (¬ db.photos.LibraryExists payload.libraryId ∧ UserExists db.users userId) ∧
      db'.photos.members = db.photos.members ++ [⟨payload.libraryId, userId⟩] ∧
      db'.photos.invites = db.photos.invites := by
  simp only [createSharedLibrary, insertLibrary, insertMember, insertLibraryKey, bind_eq_ok,
    exists_require, pure_eq_ok] at ran
  obtain ⟨_, _, ⟨hf, rfl⟩, _, ⟨_, refs, rfl⟩, _, rfl⟩ := ran
  refine ⟨⟨rfl, rfl, rfl, rfl, rfl, rfl, ?_⟩, ⟨hf, refs.2⟩, rfl, rfl⟩
  rintro libraryId ⟨row, hr, hl⟩
  exact ⟨row, mem_append_left _ hr, hl⟩

lemma libraryInvite_ok {payload} (ran : libraryInvite userId db payload = .ok db') :
    Membership db db' ∧ UserExists db.users payload.invitee.userId ∧
    db'.photos.members = db.photos.members ∧
      db'.photos.invites = db.photos.invites ++ [⟨payload.libraryId, payload.invitee.userId, userId,
        payload.operationId, payload.invitee.wrap⟩] := by
  simp only [libraryInvite, insertInvite, require_bind, pure_eq_ok] at ran
  obtain ⟨_, _, _, _, hr, rfl⟩ := ran
  exact ⟨⟨rfl, rfl, rfl, rfl, rfl, rfl, fun _ hk => hk⟩, hr.2.1, rfl, rfl⟩

/-- Nobody comes to a library who was not in it or invited. -/
def Fewer (t t' : PhotoTables) : Prop :=
  ∀ libraryId userId, t'.IsMember libraryId userId ∨ t'.IsInvitee libraryId userId →
    t.IsMember libraryId userId ∨ t.IsInvitee libraryId userId

lemma Fewer.of_subset (hme : t'.members ⊆ t.members) (hi : t'.invites ⊆ t.invites) :
    Fewer t t' := by
  rintro libraryId userId (hm | ⟨row, hr, hn⟩)
  · exact .inl (hme hm)
  · exact .inr ⟨row, hi hr, hn⟩

lemma Fewer.of_eq (hm : t'.members = t.members) (hi : t'.invites = t.invites) : Fewer t t' :=
  .of_subset (hm ▸ Subset.refl _) (hi ▸ Subset.refl _)

lemma libraryInviteAccept_settled (ran : libraryInviteAccept userId db libraryId = .ok db') :
    Membership db db' ∧ Fewer db.photos db'.photos := by
  simp only [libraryInviteAccept, insertMember, insertLibraryKey, upsertViewChange, bind_eq_ok,
    require_eq_ok, orNotFound_eq_ok, exists_const, pure_eq_ok] at ran
  obtain ⟨invite, hf, _, ⟨_, _, rfl⟩, _, ⟨_, rfl⟩, _, rfl⟩ := ran
  have hn : invite.libraryId = libraryId ∧ invite.userId = userId := by simpa using find?_some hf
  refine ⟨⟨rfl, rfl, rfl, rfl, rfl, rfl, fun _ hk => hk⟩, ?_⟩
  rintro l u (hm | ⟨row, hr, hn⟩)
  · rcases mem_append.1 hm with old | new
    · exact .inl old
    · -- The new member had an invite.
      cases mem_singleton.1 new
      exact .inr ⟨invite, mem_of_find?_eq_some hf, hn⟩
  · exact .inr ⟨row, mem_of_mem_filter hr, hn⟩

lemma libraryInviteDecline_settled
    (ran : libraryInviteDecline userId db libraryId invitee = .ok db') :
    Membership db db' ∧ Fewer db.photos db'.photos := by
  simp only [libraryInviteDecline, require_bind, pure_eq_ok] at ran
  obtain ⟨_, _, rfl⟩ := ran
  exact ⟨⟨rfl, rfl, rfl, rfl, rfl, rfl, fun _ hk => hk⟩,
    .of_subset (Subset.refl _) (filter_subset_self _)⟩

lemma libraryRemoveMember_settled (ran : libraryRemoveMember userId db libraryId target = .ok db') :
    Membership db db' ∧ Fewer db.photos db'.photos := by
  simp only [libraryRemoveMember, require_bind, pure_eq_ok] at ran
  obtain ⟨_, _, rfl⟩ := ran
  exact ⟨⟨rfl, rfl, rfl, rfl, rfl, rfl, fun _ hk => hk⟩,
    .of_subset (filter_subset_self _) (filter_subset_self _)⟩

end

inductive PhotosEvent where
  | entry (ctx : ApplyCtx) (signer : Option Int) (entry : PhotosEntry)
  /-- Another part's transaction leaves the photos' tables alone. -/
  | other

def PhotosStep (expired : Expiry) (db : PhotosDb) (event : PhotosEvent) (db' : PhotosDb) : Prop :=
  match event with
  | .entry ctx signer entry => entry.apply expired ctx signer db = .ok db'
  | .other => db'.photos = db.photos

section

variable {ctx : ApplyCtx} {signer : Option Int} {entry : PhotosEntry} {db db' : PhotosDb}

lemma hardDelete_cases (expired : Int → Bool) (db : PhotosDb) (photoId : CustomUUID) :
    hardDeleteExpiredPhoto expired db photoId = db ∨
      hardDeleteExpiredPhoto expired db photoId =
        (upsertPhotoChanges photoId db).setPhotos
        ((upsertPhotoChanges photoId db).photos.dropPhoto photoId) := by
  unfold hardDeleteExpiredPhoto
  cases (db.photos.photo photoId).bind (·.deletedAt) with
  | none => exact .inl rfl
  | some deletedAt =>
    simp only
    split_ifs
    · exact .inr rfl
    · exact .inl rfl

/-- New wraps for the target, where it had none. -/
structure Granted (userId : Int) (payload : LibraryAccessGrantPayload) (db db' : PhotosDb) :
    Prop where
  member : db.photos.IsMember payload.libraryId userId
  target : db.photos.IsMember payload.libraryId payload.userId ∨
    db.photos.IsInvitee payload.libraryId payload.userId
  users : db'.users = db.users
  resources : db'.photos.resources = db.photos.resources
  operations : db'.photos.operations = db.photos.operations
  photos : db'.photos.photos = db.photos.photos
  members : db'.photos.members = db.photos.members
  invites : db'.photos.invites = db.photos.invites
  libraries : db'.photos.libraries = db.photos.libraries
  kept : ∀ row ∈ db.photos.metadataAccess, row ∈ db'.photos.metadataAccess
  came : ∀ row ∈ db'.photos.metadataAccess, row ∈ db.photos.metadataAccess ∨
    ∃ grant ∈ payload.entries,
    row = ⟨grant.photoId, payload.userId, grant.wrap⟩ ∧
    db.photos.PhotoInLibraryLive grant.photoId payload.libraryId ∧
      ∀ old ∈ db.photos.metadataAccess,
      ¬ (old.photoId = grant.photoId ∧ old.userId = payload.userId)
  blobs : ∀ row ∈ db.storage.blobAccess, row ∈ db'.storage.blobAccess

lemma libraryAccessGrant_ok {userId payload}
    (ran : libraryAccessGrant userId db payload = .ok db') : Granted userId payload db db' := by
  simp only [libraryAccessGrant, require_bind] at ran
  obtain ⟨_, hme, ht, ran⟩ := ran
  split at ran
  · cases ran
  rename_i targetPubkey key
  simp only [bind_eq_ok] at ran
  obtain ⟨granted, hm, wrapped, hb, hsi⟩ := ran
  have hst : Granted userId payload db db :=
    ⟨hme, ht, rfl, rfl, rfl, rfl, rfl, rfl, rfl, fun _ hr => hr, fun _ hr => .inl hr,
      fun _ hr => hr⟩
  have hf : Granted userId payload db granted := by
    refine foldlM_invariant (Granted userId payload db) _ ?_ hst hm
    intro grant he s s' so step
    simp only [insertMetadataAccessGrant, require_bind, pure_eq_ok] at step
    obtain ⟨hl, _, rfl⟩ := step
    refine { so with kept := fun row hr => mem_insertOrIgnore.2 (.inl (so.kept row hr)), came :=
      ?_ }
    intro row hr
    rcases mem_insertOrIgnore.1 hr with old | ⟨rfl, ha⟩
    · exact so.came row old
    · refine .inr ⟨grant, he, rfl, ?_, ?_⟩
      · rw [PhotoTables.PhotoInLibraryLive, so.photos] at hl
        exact hl
      · intro old ho same
        exact ha ⟨old, so.kept old ho, Prod.ext same.1 same.2⟩
  have hs : Granted userId payload db wrapped := by
    refine foldlM_invariant (Granted userId payload db) _ ?_ hf hb
    intro grant _ s s' so step
    simp only [insertBlobAccessGrant, require_bind, pure_eq_ok] at step
    obtain ⟨_, _, rfl⟩ := step
    exact { so with blobs := fun row hr => mem_insertOrIgnore.2 (.inl (so.blobs row hr)) }
  simp only [upsertViewChange, require_bind, pure_eq_ok] at hsi
  obtain ⟨_, rfl⟩ := hsi
  exact { hs with }

lemma libraryAccessRevoke_ok {userId payload}
    (ran : libraryAccessRevoke userId db payload = .ok db') :
    ∃ targetPubkey, db.photos.IsMember payload.libraryId userId ∧
      ¬ (db.photos.IsMember payload.libraryId payload.userId ∨
        db.photos.IsInvitee payload.libraryId payload.userId) ∧
      userX25519Pubkey db.users payload.userId = some targetPubkey ∧
      db' = { db with
        photos := db.photos.deleteMetadataAccess payload.photoIds payload.userId
        storage := db.storage.deleteBlobAccess payload.dataBlockIds targetPubkey } := by
  simp only [libraryAccessRevoke, require_bind] at ran
  obtain ⟨hm, hl, ran⟩ := ran
  split at ran
  · cases ran
  rename_i targetPubkey key
  cases ran
  exact ⟨targetPubkey, hm, hl, key, rfl⟩

/-- The entries about the members and invitees of a library. -/
def PhotosEntry.membership : PhotosEntry → Bool
  | .createLibrary _ | .invite _ | .accept _ | .decline _ _ | .remove _ _ => true
  | _ => false

inductive PhotosEffect (ctx : ApplyCtx) : Option Int → PhotosEntry → PhotosDb → PhotosDb → Prop
  | aside {signer : Option Int} {entry db db'} (same : Aside db db') :
      PhotosEffect ctx signer entry db db'
  | created {userId payload db db'}
      (ran : createSharedLibrary userId db payload = .ok db') (same : Membership db db') :
      PhotosEffect ctx (some userId) (.createLibrary payload) db db'
  | invited {userId payload db db'}
      (ran : libraryInvite userId db payload = .ok db') (same : Membership db db') :
      PhotosEffect ctx (some userId) (.invite payload) db db'
  /-- An answer to an invite, or a removal: nobody comes who was not invited. -/
  | settled {signer : Option Int} {entry db db'} (answer : entry.membership = true)
      (same : Membership db db') (fewer : Fewer db.photos db'.photos) :
      PhotosEffect ctx signer entry db db'
  | dropped {photoId scanCutoff db} : PhotosEffect ctx none (.cleanup photoId scanCutoff) db
        ((upsertPhotoChanges photoId db).setPhotos
          ((upsertPhotoChanges photoId db).photos.dropPhoto photoId))
  | added {userId entry db db'} (ran : insertPhotoEntry ctx entry db = .ok db') :
      PhotosEffect ctx (some userId) (.add entry) db db'
  | edited {userId entry db db'} (ran : photoEditContentEntry ctx userId db entry = .ok db')
      (edit : Rekeyed userId entry.photoId entry.metadata db db') :
      PhotosEffect ctx (some userId) (.editContent entry) db db'
  | rewritten {userId entry db db'} (edit : Rekeyed userId entry.photoId
        (some (entry.encryptedMetadata, entry.metadataNonce, entry.metadataAccess)) db db')
      (same : db'.storage = db.storage ∧ db'.photos.resources = db.photos.resources) :
      PhotosEffect ctx (some userId) (.editMetadata entry) db db'
  | undone {userId entry db db'} (ran : photoUndoEntry userId db entry = .ok db')
      (edit : Rekeyed userId entry.photoId none db db') (same : db'.storage = db.storage) :
      PhotosEffect ctx (some userId) (.undo entry) db db'
  | granted {userId payload db db'}
      (done : Granted userId payload db db') :
      PhotosEffect ctx (some userId) (.grant payload) db db'
  | revoked {userId payload db targetPubkey} (member : db.photos.IsMember payload.libraryId userId)
      (key : userX25519Pubkey db.users payload.userId = some targetPubkey) :
      PhotosEffect ctx (some userId) (.revoke payload) db { db with
        photos := db.photos.deleteMetadataAccess payload.photoIds payload.userId
        storage := db.storage.deleteBlobAccess payload.dataBlockIds targetPubkey }

lemma PhotosEntry.apply_effect {expired} (ran : entry.apply expired ctx signer db = .ok db') :
    PhotosEffect ctx signer entry db db' := by
  cases entry with
  | cleanup photoId scanCutoff =>
    simp only [PhotosEntry.apply, require_bind, pure_eq_ok] at ran
    obtain ⟨rfl, rfl⟩ := ran
    rcases hardDelete_cases (expired scanCutoff) db photoId with hs | hg
    · rw [hs]
      exact .aside (.refl db)
    · rw [hg]
      exact .dropped
  | _ =>
    simp only [PhotosEntry.apply, bind_eq_ok, signerId_eq_ok] at ran
    obtain ⟨userId, rfl, ran⟩ := ran
    first
    | exact .added (photoAddEntry_ok ran)
    | exact .edited ran (photoEditContentEntry_rekeyed ran)
    | exact .rewritten (photoEditMetadataEntry_rekeyed ran).1 (photoEditMetadataEntry_rekeyed ran).2
    | exact .undone ran (photoUndoEntry_rekeyed ran).1 (photoUndoEntry_rekeyed ran).2
    | exact .granted (libraryAccessGrant_ok ran)
    | obtain ⟨_, member, _, key, rfl⟩ := libraryAccessRevoke_ok ran
      exact .revoked member key
    | exact .aside (photoDeleteEntry_aside ran)
    | exact .aside (photoRestoreEntry_aside ran)
    | exact .aside (photoFavoriteEntry_aside ran)
    | exact .aside (photoUnfavoriteEntry_aside ran)
    | exact .aside (photoIngressClaim_aside ran)
    | exact .created ran (createSharedLibrary_ok ran).1
    | exact .invited ran (libraryInvite_ok ran).1
    | exact .settled rfl (libraryInviteAccept_settled ran).1 (libraryInviteAccept_settled ran).2
    | exact .settled rfl (libraryInviteDecline_settled ran).1 (libraryInviteDecline_settled ran).2
    | exact .settled rfl (libraryRemoveMember_settled ran).1 (libraryRemoveMember_settled ran).2

lemma PhotosEntry.apply_users {expired} (ran : entry.apply expired ctx signer db = .ok db') :
    db'.users = db.users := by
  cases PhotosEntry.apply_effect ran with
  | aside hs | created _ hs | invited _ hs | settled _ hs | granted hs | edited _ hs | rewritten hs
  | undone _ hs => exact hs.users
  | dropped | revoked => rfl
  | added ran =>
    obtain ⟨_, _, _, rfl⟩ := insertPhotoEntry_ok ran
    rfl

end

def emptyPhotos : PhotosDb := ⟨[.sample 1, .sample 2, .sample 3], [], .empty, .empty, 0⟩

def photosNext (db : PhotosDb) : PhotosEvent → Option PhotosDb
  | .entry ctx signer entry => (entry.apply allExpired ctx signer db).toOption
  | .other => none

lemma photosNext_sound {db db' event} (hn : photosNext db event = some db') :
    PhotosStep allExpired db event db' := by
  cases event with
  | entry ctx signer entry => exact toOption_eq_some.1 hn
  | other => cases hn

/-- A version 7 id that is minted on a day. -/
def mintedOn (day n : Nat) : CustomUUID :=
  ⟨BitVec.ofNat 128 (day * 86400000 * 0x100000000000000000000 + 0x70008000000000000000 + n)⟩

def sampleWrap (key : Nat) : KeyWrap := ⟨.replicate 32 (UInt8.ofNat key), [UInt8.ofNat key]⟩

/-- Photo 1 of user 1, with one block for each resource type given. -/
def samplePhoto (libraryId : Option CustomUUID) (resources : List (Int × Nat))
    (access : List MetadataAccessEntry) : PhotoAddEntry :=
  ⟨⟨1⟩, libraryId, 1, [1], .replicate 12 0, resources.map fun (kind, b) => ⟨kind, sampleBlobOp b 1⟩,
    access, mintedOn 0 1, none⟩

def photosAs (userId : Nat) (entry : PhotosEntry) : PhotosEvent :=
  .entry (sampleCtx 1) (some userId) entry

end HopNet
