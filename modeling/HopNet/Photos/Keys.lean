import HopNet.Photos.Entries

namespace HopNet

open Fallible Table Runs List PhotosEntry Option PhotoTables

/-- The key a ciphertext is under, and the key that a wrap opens to. -/
structure KeyReading (κ : Type) where
  ciphertext : Bytes → FixedBytes 12 → κ
  wrap : KeyWrap → κ

variable {κ : Type}

/-- The key of a photo's current metadata. -/
def KeyReading.ofPhoto (K : KeyReading κ) (photo : PhotoRow) : κ :=
  K.ciphertext photo.encryptedMetadata photo.metadataNonce

variable (t : PhotoTables)

/-- A member or invitee of the library, or a personal photo's uploader. -/
def PhotoTables.Holds (photo : PhotoRow) (userId : Int) : Prop :=
  (photo.libraryId = none ∧ userId = photo.uploadedBy) ∨
    ∃ libraryId ∈ photo.libraryId, t.IsMember libraryId userId ∨ t.IsInvitee libraryId userId

/-- Every row of a holder opens to the key of the current ciphertext. -/
def NoneStranded (K : KeyReading κ) (t : PhotoTables) : Prop :=
  ∀ photo ∈ t.photos, ∀ row ∈ t.metadataAccess, row.photoId = photo.id → t.Holds photo row.userId →
    K.wrap row.wrap = K.ofPhoto photo

/-- The keys and references that the tables keep. -/
structure PhotosSound (db : PhotosDb) : Prop where
  ids : (db.photos.photos.map (·.id)).Nodup
  libraries : ∀ photo ∈ db.photos.photos, ∀ libraryId ∈ photo.libraryId,
    db.photos.LibraryExists libraryId
  rows : ∀ row ∈ db.photos.metadataAccess, db.photos.PhotoExists row.photoId
  users : ∀ libraryId userId, db.photos.IsMember libraryId userId ∨
    db.photos.IsInvitee libraryId userId → UserExists db.users userId

/-- The photos of before, changed beside their owners. -/
def PhotosKept (t' : PhotoTables) : Prop :=
  ∃ f : PhotoRow → PhotoRow, (∀ row, (f row).id = row.id ∧ (f row).libraryId = row.libraryId ∧
    (f row).uploadedBy = row.uploadedBy) ∧ t'.photos = t.photos.map f

lemma PhotosKept.of_eq {t t'} (hp : t'.photos = t.photos) : PhotosKept t t' :=
  ⟨id, fun _ => ⟨rfl, rfl, rfl⟩, hp.trans (map_id _).symm⟩

variable {expired : Expiry} {ctx : ApplyCtx} {signer : Option Int} {entry : PhotosEntry}
  {db db' : PhotosDb} {encrypted : Bytes} {nonce : FixedBytes 12}

section

variable {metadata : Option (Bytes × FixedBytes 12 × List MetadataAccessEntry)}
  {photoId : CustomUUID}

lemma PhotosSound.empty (hs : db.photos = .empty) : PhotosSound db := by
  refine ⟨?_, ?_, ?_, ?_⟩ <;> rw [hs]
  · exact nodup_nil
  · exact forall_mem_nil _
  · exact forall_mem_nil _
  · rintro libraryId userId (hm | ⟨row, hr, _⟩)
    · exact absurd hm not_mem_nil
    · exact absurd hr not_mem_nil

lemma Aside.photosKept (ha : Aside db db') : PhotosKept db.photos db'.photos := by
  obtain ⟨f, ht, hp⟩ := ha.photos
  refine ⟨f, fun row => ?_, hp⟩
  obtain ⟨_, _, hr⟩ := ht row
  rw [hr]
  exact ⟨rfl, rfl, rfl⟩

lemma Rekeyed.photosKept {userId} (he : Rekeyed userId photoId metadata db db') :
    PhotosKept db.photos db'.photos := by
  cases metadata with
  | none => exact .of_eq he.photos
  | some m =>
    refine ⟨_, fun row => ?_, he.photos⟩
    split_ifs <;> exact ⟨rfl, rfl, rfl⟩

lemma editablePhoto_mem {userId photo} (he : editablePhoto db userId photoId = .ok photo) :
    photo ∈ db.photos.photos ∧ photo.id = photoId := by
  have hf := (editablePhoto_ok he).1
  exact ⟨mem_of_find?_eq_some hf, by simpa using find?_some hf⟩

variable (hs : PhotosSound db)
include hs

lemma PhotosSound.congr (hp : db'.photos = db.photos)
    (hu : ∀ userId, UserExists db.users userId → UserExists db'.users userId) :
    PhotosSound db' := by
  refine ⟨?_, ?_, ?_, ?_⟩ <;> rw [hp]
  · exact hs.ids
  · exact hs.libraries
  · exact hs.rows
  · exact fun libraryId userId hh => hu userId (hs.users libraryId userId hh)

lemma PhotosSound.mono
    (hu : ∀ userId, UserExists db.users userId → UserExists db'.users userId)
    (hp : PhotosKept db.photos db'.photos)
    (hli : ∀ libraryId, db.photos.LibraryExists libraryId → db'.photos.LibraryExists libraryId)
    (rows : ∀ row ∈ db'.photos.metadataAccess, db.photos.PhotoExists row.photoId)
    (hm : ∀ libraryId userId, db'.photos.IsMember libraryId userId ∨
      db'.photos.IsInvitee libraryId userId → UserExists db.users userId) :
    PhotosSound db' := by
  obtain ⟨f, same, hp⟩ := hp
  have he : ∀ photoId, db.photos.PhotoExists photoId → db'.photos.PhotoExists photoId := by
    rintro photoId ⟨row, hr, hph⟩
    exact ⟨f row, hp ▸ mem_map_of_mem hr, (same row).1.trans hph⟩
  refine ⟨?_, ?_, ?_, ?_⟩
  · rw [hp, map_key_map fun row _ => (same row).1]
    exact hs.ids
  · rw [hp]
    intro photo hr libraryId hl
    obtain ⟨row, ho, rfl⟩ := mem_map.1 hr
    rw [(same row).2.1] at hl
    exact hli libraryId (hs.libraries row ho libraryId hl)
  · exact fun row hr => he _ (rows row hr)
  · exact fun libraryId userId hh => hu userId (hm libraryId userId hh)

lemma PhotosSound.kept (hu : db'.users = db.users) (hp : PhotosKept db.photos db'.photos)
    (hl : db'.photos.libraries = db.photos.libraries)
    (hm : db'.photos.members = db.photos.members) (hi : db'.photos.invites = db.photos.invites)
    (rows : ∀ row ∈ db'.photos.metadataAccess, db.photos.PhotoExists row.photoId) :
    PhotosSound db' := by
  refine hs.mono (fun _ hk => hu ▸ hk) hp (fun libraryId hk => ?_) rows fun libraryId userId hh =>
    hs.users libraryId userId (Fewer.of_eq hm hi libraryId userId hh)
  rw [LibraryExists, hl]
  exact hk

lemma PhotosSound.membership (same : Membership db db')
    (hm : ∀ libraryId userId, db'.photos.IsMember libraryId userId ∨
      db'.photos.IsInvitee libraryId userId → UserExists db.users userId) :
    PhotosSound db' :=
  hs.mono (fun _ hk => same.users ▸ hk) (.of_eq same.photos) same.libraries
    (fun row hr => hs.rows row (same.metadataAccess ▸ hr)) hm

lemma PhotosSound.rekeyed {userId} (he : Rekeyed userId photoId metadata db db') :
    PhotosSound db' := by
  have rows : ∀ row ∈ (db.photos.withMetadata photoId metadata).metadataAccess,
      row ∈ db.photos.metadataAccess ∨ row.photoId = photoId := by
    intro row hr
    cases metadata with
    | none => exact .inl hr
    | some m =>
      rcases mem_upsertWraps.1 hr with ⟨old, _⟩ | ⟨hp, _⟩
      · exact .inl old
      · exact .inr hp
  refine hs.kept he.users he.photosKept he.libraries he.members he.invites fun row hr => ?_
  rcases rows row (he.metadataAccess ▸ hr) with old | hp
  · exact hs.rows row old
  · obtain ⟨photo, he, _⟩ := he.covered
    exact ⟨photo, hp ▸ editablePhoto_mem he⟩

lemma PhotosSound.added {entry} (ran : insertPhotoEntry ctx entry db = .ok db') :
    PhotosSound db' := by
  obtain ⟨storage, _, ⟨hf, hl⟩, rfl⟩ := insertPhotoEntry_ok ran
  refine ⟨?_, ?_, ?_, hs.users⟩
  · show ((db.photos.photos ++ [_]).map PhotoRow.id).Nodup
    exact nodup_map_append_singleton.2 ⟨hs.ids, hf⟩
  · exact forall_mem_append.2 ⟨hs.libraries, forall_mem_singleton.2 hl⟩
  · intro row hr
    rcases mem_upsertWraps.1 hr with ⟨old, _⟩ | ⟨hp, _⟩
    · obtain ⟨photo, hph, hp⟩ := hs.rows row old
      exact ⟨photo, mem_append_left _ hph, hp⟩
    · exact ⟨_, mem_append_right _ (mem_singleton.2 rfl), hp.symm⟩

lemma PhotosSound.dropped (photoId : CustomUUID) :
    PhotosSound ((upsertPhotoChanges photoId db).setPhotos
      ((upsertPhotoChanges photoId db).photos.dropPhoto photoId)) := by
  refine ⟨List.Nodup.sublist (filter_sublist.map _) hs.ids,
    fun photo hr => hs.libraries photo (mem_of_mem_filter hr), ?_, hs.users⟩
  intro row hr
  obtain ⟨old, hst⟩ := mem_filter.1 hr
  obtain ⟨photo, hph, hp⟩ := hs.rows row old
  exact ⟨photo, mem_filter.2 ⟨hph, hp ▸ hst⟩, hp⟩

lemma apply_photosSound (ran : entry.apply expired ctx signer db = .ok db') :
    PhotosSound db' := by
  cases apply_effect ran with
  | aside same =>
    exact hs.kept same.users same.photosKept same.libraries same.members same.invites fun row hr =>
      hs.rows row (same.metadataAccess ▸ hr)
  | @created userId payload _ _ ran =>
    obtain ⟨same, ⟨_, hk⟩, hme, hi⟩ := createSharedLibrary_ok ran
    refine hs.membership same ?_
    rintro libraryId holder (hm | ⟨row, hr, hn⟩)
    · rw [IsMember, hme] at hm
      rcases mem_append.1 hm with old | new
      · exact hs.users libraryId holder (.inl old)
      · cases mem_singleton.1 new
        exact hk
    · exact hs.users libraryId holder (.inr ⟨row, hi ▸ hr, hn⟩)
  | @invited userId payload _ _ ran =>
    obtain ⟨same, hk, hme, hi⟩ := libraryInvite_ok ran
    refine hs.membership same ?_
    rintro libraryId holder (hm | ⟨row, hr, hn⟩)
    · rw [IsMember, hme] at hm
      exact hs.users libraryId holder (.inl hm)
    · rw [hi] at hr
      rcases mem_append.1 hr with old | new
      · exact hs.users libraryId holder (.inr ⟨row, old, hn⟩)
      · rw [mem_singleton.1 new] at hn
        exact hn.2 ▸ hk
  | settled _ same hf =>
    exact hs.membership same fun libraryId userId hh =>
      hs.users libraryId userId (hf libraryId userId hh)
  | dropped => exact hs.dropped _
  | added ran => exact hs.added ran
  | edited _ edit | rewritten edit | undone _ edit => exact hs.rekeyed edit
  | granted hd =>
    refine hs.kept hd.users (.of_eq hd.photos) hd.libraries hd.members hd.invites fun row hr => ?_
    rcases hd.came row hr with old | ⟨grant, _, rfl, ⟨photo, hp, hph, _⟩, _⟩
    · exact hs.rows row old
    · exact ⟨photo, hp, hph⟩
  | revoked => exact ⟨hs.ids, hs.libraries, fun row hr => hs.rows row (mem_of_mem_filter hr),
      hs.users⟩

end

section

variable (K : KeyReading κ) (seen : List PhotosDb)

/-- An honest writer: wraps are of the key it encrypted with, and without any that is the key the
photo had when read. -/
def HonestMetadata (photoId : CustomUUID) (encrypted : Bytes) (nonce : FixedBytes 12)
    (access : List MetadataAccessEntry) : Prop :=
  (∀ entry ∈ access, K.wrap entry.wrap = K.ciphertext encrypted nonce) ∧
    (access = [] → ∃ read ∈ seen, ∃ photo ∈ read.photos.photos, photo.id = photoId ∧
      K.ofPhoto photo = K.ciphertext encrypted nonce)

/-- The granter's own row, as some state read earlier had it. -/
def HonestGrant (signer : Option Int) (grant : LibraryMetadataGrant) : Prop :=
  ∃ read ∈ seen, ∃ row ∈ read.photos.metadataAccess, row.photoId = grant.photoId ∧
    some row.userId = signer ∧ K.wrap row.wrap = K.wrap grant.wrap

/-- An honest writer's entry, prepared in any state seen so far. -/
def PhotosEntry.Honest (signer : Option Int) : PhotosEntry → Prop
  | .add entry => ∀ access ∈ entry.metadataAccess,
      K.wrap access.wrap = K.ciphertext entry.encryptedMetadata entry.metadataNonce
  | .editContent entry => ∀ m ∈ entry.metadata, HonestMetadata K seen entry.photoId m.1 m.2.1 m.2.2
  | .editMetadata entry =>
    HonestMetadata K seen entry.photoId entry.encryptedMetadata entry.metadataNonce
      entry.metadataAccess
  | .grant payload => ∀ grant ∈ payload.entries, HonestGrant K seen signer grant
  | _ => True

/-- Metadata without wraps is under the photo's key when applied. -/
def KeepsKey (t : PhotoTables) (photoId : CustomUUID) (encrypted : Bytes) (nonce : FixedBytes 12)
    (access : List MetadataAccessEntry) : Prop :=
  access = [] → ∀ photo ∈ t.photos, photo.id = photoId →
    K.ciphertext encrypted nonce = K.ofPhoto photo

/-- The keys are still current when applied: an edit's without wraps, those of grants to users
without a row, and those of the rows an invitee has from before. -/
def PhotosEntry.UnderCurrentKey (t : PhotoTables) : PhotosEntry → Prop
  | .editContent entry => ∀ m ∈ entry.metadata, KeepsKey K t entry.photoId m.1 m.2.1 m.2.2
  | .editMetadata entry =>
    KeepsKey K t entry.photoId entry.encryptedMetadata entry.metadataNonce entry.metadataAccess
  | .grant payload => ∀ grant ∈ payload.entries,
      (∀ row ∈ t.metadataAccess, ¬ (row.photoId = grant.photoId ∧ row.userId = payload.userId)) →
        ∀ photo ∈ t.photos, photo.id = grant.photoId → K.wrap grant.wrap = K.ofPhoto photo
  | .invite payload => ∀ photo ∈ t.photos, photo.libraryId = some payload.libraryId →
      ∀ row ∈ t.metadataAccess, row.photoId = photo.id → row.userId = payload.invitee.userId →
        K.wrap row.wrap = K.ofPhoto photo
  | _ => True

/-- The tables, and those of all states before. -/
structure PhotosHistory where
  earlier : List PhotosDb
  db : PhotosDb
deriving DecidableEq

/-- A step of honest writers. Other parts never delete a user. -/
def HonestStep (expired : Expiry) (h : PhotosHistory) (event : PhotosEvent) (h' : PhotosHistory) :
    Prop :=
  PhotosStep expired h.db event h'.db ∧ h'.earlier = h.db :: h.earlier ∧
    match event with
    | .entry _ signer entry => entry.Honest K (h.db :: h.earlier) signer
    | .other => ∀ userId, UserExists h.db.users userId → UserExists h'.db.users userId

/-- Such a step, whose keys are current when it is applied. -/
def CurrentKeyStep (expired : Expiry) (h : PhotosHistory) (event : PhotosEvent)
    (h' : PhotosHistory) : Prop :=
  HonestStep K expired h event h' ∧
    match event with
    | .entry _ _ entry => entry.UnderCurrentKey K h.db.photos
    | .other => True

end

section

variable {K : KeyReading κ} {t t' : PhotoTables} {userId : Int} {access : List MetadataAccessEntry}
  {photo : PhotoRow}

lemma NoneStranded.mono (hc : NoneStranded K t)
    (hps : ∀ photo' ∈ t'.photos, ∃ photo ∈ t.photos, photo.id = photo'.id ∧
      K.ofPhoto photo = K.ofPhoto photo' ∧
      ∀ userId, t'.Holds photo' userId → t.Holds photo userId)
    (rows : ∀ row ∈ t'.metadataAccess, row ∈ t.metadataAccess) : NoneStranded K t' := by
  intro photo' hp row hr hph hh
  obtain ⟨photo, ho, hsi, hs, hf⟩ := hps photo' hp
  rw [← hs]
  exact hc photo ho row (rows row hr) (hph.trans hsi.symm) (hf _ hh)

lemma PhotoTables.Holds.mono {photo photo'} (hh : t'.Holds photo' userId)
    (hl : photo'.libraryId = photo.libraryId) (hup : photo'.uploadedBy = photo.uploadedBy)
    (hf : Fewer t t') : t.Holds photo userId := by
  rcases hh with ⟨hp, hu⟩ | ⟨libraryId, hli, hm⟩
  · exact .inl ⟨hl ▸ hp, hup ▸ hu⟩
  · exact .inr ⟨libraryId, hl ▸ hli, hf _ _ hm⟩

/-- The tables keep the photos, and nobody comes to hold one. -/
lemma NoneStranded.of_fewer (hc : NoneStranded K t) (hph : ∀ photo ∈ t'.photos, photo ∈ t.photos)
    (hr : ∀ row ∈ t'.metadataAccess, row ∈ t.metadataAccess) (hf : Fewer t t') :
    NoneStranded K t' :=
  hc.mono (fun photo hp => ⟨photo, hph photo hp, rfl, rfl, fun _ hh => hh.mono rfl rfl hf⟩) hr

/-- A holder is entitled in the sense of the re-key check. -/
lemma PhotosSound.entitled (hs : PhotosSound db)
    (hh : db.photos.Holds photo userId) : Entitled db photo userId := by
  rcases hh with hp | ⟨libraryId, hl, hm⟩
  · exact .inl hp
  · exact .inr ⟨libraryId, hl, hm, hs.users libraryId userId hm⟩

/-- A re-key that passes its check reaches every row of a holder. -/
lemma rekey_covers (hs : PhotosSound db) {row} (hc : uncoveredWrapHolders db photo access = [])
    (hr : row ∈ db.photos.metadataAccess) (hp : row.photoId = photo.id)
    (hh : db.photos.Holds photo row.userId) : ∃ entry ∈ access, entry.userId = row.userId := by
  by_contra hm
  have hu : row.userId ∈ uncoveredWrapHolders db photo access := by
    refine mem_filter.2 ⟨mem_map.2 ⟨row, mem_filter.2 ⟨hr, by simpa using hp⟩, rfl⟩, ?_⟩
    simp only [decide_eq_true_eq]
    exact ⟨hs.entitled hh, fun entry ha same => hm ⟨entry, ha, same⟩⟩
  rw [hc] at hu
  exact absurd hu not_mem_nil

lemma PhotosSound.eq_of_id (hs : PhotosSound db) {photo other} (hp : photo ∈ db.photos.photos)
    (ho : other ∈ db.photos.photos) (same : photo.id = other.id) : photo = other :=
  inj_on_of_nodup_map hs.ids hp ho same

variable (hc : NoneStranded K db.photos)
include hc

lemma NoneStranded.invited {payload}
    (hf : (invite payload).UnderCurrentKey K db.photos)
    (ran : libraryInvite userId db payload = .ok db') : NoneStranded K db'.photos := by
  obtain ⟨hs, _, hme, his⟩ := libraryInvite_ok ran
  intro photo hp row hr hph hh
  rw [hs.photos] at hp
  rw [hs.metadataAccess] at hr
  rcases hh with hpe | ⟨libraryId, hl, hm | ⟨invite, hin, hi⟩⟩
  · exact hc photo hp row hr hph (.inl hpe)
  · rw [IsMember, hme] at hm
    exact hc photo hp row hr hph (.inr ⟨libraryId, hl, .inl hm⟩)
  · rw [his] at hin
    rcases mem_append.1 hin with old | new
    · exact hc photo hp row hr hph (.inr ⟨libraryId, hl, .inr ⟨invite, old, hi⟩⟩)
    · rw [mem_singleton.1 new] at hi
      obtain ⟨rfl, hie⟩ := hi
      exact hf photo hp hl row hr hph hie.symm

lemma NoneStranded.granted {payload}
    (hf : (grant payload).UnderCurrentKey K db.photos) (hd : Granted userId payload db db') :
    NoneStranded K db'.photos := by
  intro photo hp row hr hph hh
  rw [hd.photos] at hp
  have held : db.photos.Holds photo row.userId := hh.mono rfl rfl (.of_eq hd.members hd.invites)
  rcases hd.came row hr with old | ⟨grant, he, rfl, _, ha⟩
  · exact hc photo hp row old hph held
  · exact hf grant he ha photo hp hph.symm

variable (hs : PhotosSound db)
include hs

/-- New metadata strands nobody if its wraps are of its key and reach all holders, or there are none
and the key is the old one. -/
lemma NoneStranded.rekeyed {photoId metadata}
    (honest : ∀ m ∈ metadata, (∀ entry ∈ m.2.2, K.wrap entry.wrap = K.ciphertext m.1 m.2.1) ∧
      KeepsKey K db.photos photoId m.1 m.2.1 m.2.2)
    (edit : Rekeyed userId photoId metadata db db') : NoneStranded K db'.photos := by
  have hf : Fewer db.photos db'.photos := .of_eq edit.members edit.invites
  match metadata with
  | none =>
    exact hc.of_fewer (fun _ hp => edit.photos ▸ hp) (fun _ hr => edit.metadataAccess ▸ hr) hf
  | some (encrypted, nonce, access) =>
    obtain ⟨hho, hk⟩ := honest _ rfl
    obtain ⟨photo, he, covers⟩ := edit.covered
    obtain ⟨hph, rfl⟩ := editablePhoto_mem he
    have covers := covers _ rfl
    intro photo' hne row hr hp hhs
    rw [edit.photos] at hne
    obtain ⟨old, hol, rfl⟩ := mem_map.1 hne
    rw [edit.metadataAccess] at hr
    by_cases same : old.id = photo.id
    · rw [if_pos same] at hp hhs ⊢
      show K.wrap row.wrap = K.ciphertext encrypted nonce
      have he := hs.eq_of_id hol hph same
      subst he
      have held : db.photos.Holds old row.userId := hhs.mono rfl rfl hf
      rcases mem_upsertWraps.1 hr with ⟨ho, hu⟩ | ⟨_, new⟩
      · rcases covers with hn | covers
        · rw [hk hn old hol rfl]
          exact hc old hol row ho hp held
        · obtain ⟨entry, ha, hh⟩ := rekey_covers hs covers ho hp held
          exact absurd hh (hu hp entry ha)
      · exact hho _ new
    · rw [if_neg same] at hp hhs ⊢
      rcases mem_upsertWraps.1 hr with ⟨ho, _⟩ | ⟨he, _⟩
      · exact hc old hol row ho hp (hhs.mono rfl rfl hf)
      · exact absurd (hp.symm.trans he) same

lemma NoneStranded.added {entry}
    (hh : ∀ access ∈ entry.metadataAccess,
      K.wrap access.wrap = K.ciphertext entry.encryptedMetadata entry.metadataNonce)
    (ran : insertPhotoEntry ctx entry db = .ok db') : NoneStranded K db'.photos := by
  obtain ⟨storage, _, ⟨hf, _⟩, rfl⟩ := insertPhotoEntry_ok ran
  intro photo hph row hr hp hho
  rcases mem_append.1 hph with old | new
  · rcases mem_upsertWraps.1 hr with ⟨ho, _⟩ | ⟨ha, _⟩
    · exact hc photo old row ho hp hho
    · exact absurd (hp.symm.trans ha) (hf photo old)
  · rw [mem_singleton.1 new] at hp ⊢
    rcases mem_upsertWraps.1 hr with ⟨ho, _⟩ | ⟨_, hg⟩
    · obtain ⟨other, hol, hot⟩ := hs.rows row ho
      exact absurd (hot.trans hp) (hf other hol)
    · exact hh _ hg

lemma NoneStranded.created {payload} (ran : createSharedLibrary userId db payload = .ok db') :
    NoneStranded K db'.photos := by
  obtain ⟨same, ⟨hf, _⟩, hme, hi⟩ := createSharedLibrary_ok ran
  refine hc.mono (fun photo hp => ?_) (fun row hr => same.metadataAccess ▸ hr)
  rw [same.photos] at hp
  refine ⟨photo, hp, rfl, rfl, ?_⟩
  rintro holder (hpe | ⟨libraryId, hl, hm | ⟨row, hr, hn⟩⟩)
  · exact .inl hpe
  · rw [IsMember, hme] at hm
    rcases mem_append.1 hm with old | new
    · exact .inr ⟨libraryId, hl, .inl old⟩
    · cases mem_singleton.1 new
      exact absurd (hs.libraries photo hp _ hl) hf
  · exact .inr ⟨libraryId, hl, .inr ⟨row, hi ▸ hr, hn⟩⟩

lemma apply_noneStranded {seen : List PhotosDb} (hh : entry.Honest K seen signer)
    (fits : entry.UnderCurrentKey K db.photos)
    (ran : entry.apply expired ctx signer db = .ok db') : NoneStranded K db'.photos := by
  cases apply_effect ran with
  | aside same =>
    obtain ⟨f, ht, photos⟩ := same.photos
    refine hc.mono (fun photo' hp => ?_) (fun row hr => same.metadataAccess ▸ hr)
    rw [photos] at hp
    obtain ⟨photo, ho, rfl⟩ := mem_map.1 hp
    obtain ⟨deletedAt, deletedBy, hro⟩ := ht photo
    rw [hro]
    exact ⟨photo, ho, rfl, rfl, fun _ hho => hho.mono rfl rfl (.of_eq same.members same.invites)⟩
  | created ran _ => exact hc.created hs ran
  | invited ran _ => exact hc.invited fits ran
  | settled _ same hf =>
    exact hc.of_fewer (fun photo hp => same.photos ▸ hp) (fun row hr => same.metadataAccess ▸ hr) hf
  | dropped =>
    exact hc.of_fewer (fun _ hp => mem_of_mem_filter hp)
      (fun _ hr => mem_of_mem_filter hr) fun _ _ hho => hho
  | added ran => exact hc.added hs hh ran
  | edited _ edit => exact hc.rekeyed hs (fun m hm => ⟨(hh m hm).1, fits m hm⟩) edit
  | rewritten edit =>
    refine hc.rekeyed hs ?_ edit
    rintro m ⟨⟩
    exact ⟨hh.1, fits⟩
  | undone _ edit => exact hc.rekeyed hs (by simp) edit
  | granted hd => exact hc.granted fits hd
  | revoked =>
    exact hc.of_fewer (fun _ hp => hp) (fun _ hr => mem_of_mem_filter hr) fun _ _ hho => hho

end

/-- In every run of honest writers from empty photos tables whose keys are current when they are
applied, every row of a holder opens to the key of the current ciphertext, in every state
reached. -/
theorem no_holder_stranded (K : KeyReading κ) (expired : Expiry) (h₀ h : PhotosHistory)
    (past : List PhotosEvent) (start : h₀.db.photos = .empty)
    (run : Reaches (CurrentKeyStep K expired) h₀ past h) : NoneStranded K h.db.photos := by
  have hb : PhotosSound h.db ∧ NoneStranded K h.db.photos := by
    refine run.invariant_state (fun h => PhotosSound h.db ∧ NoneStranded K h.db.photos) ?_ ?_
    · refine ⟨.empty start, ?_⟩
      rw [start]
      exact forall_mem_nil _
    · rintro h event h' ⟨hs, hc⟩ ⟨⟨step, _, hh⟩, hf⟩
      cases event with
      | entry ctx signer entry =>
        exact ⟨apply_photosSound hs step, apply_noneStranded hc hs hh hf step⟩
      | other =>
        have same : h'.db.photos = h.db.photos := step
        rw [same]
        exact ⟨hs.congr same hh, hc⟩
  exact hb.2

variable [DecidableEq κ] (K : KeyReading κ) {h h' : PhotosHistory} {event : PhotosEvent}

instance PhotosEntry.decidableHonest (seen : List PhotosDb) (signer : Option Int)
    (entry : PhotosEntry) : Decidable (entry.Honest K seen signer) := by
  cases entry <;> dsimp only [PhotosEntry.Honest, HonestMetadata, HonestGrant] <;> infer_instance

instance (t : PhotoTables) (entry : PhotosEntry) : Decidable (entry.UnderCurrentKey K t) := by
  cases entry <;> dsimp only [PhotosEntry.UnderCurrentKey, KeepsKey] <;> infer_instance

/-- Bytes that are their own keys. -/
def plainKeys : KeyReading Bytes := ⟨fun encrypted _ => encrypted, fun wrap => wrap.wrappedKey⟩

def honestNext (h : PhotosHistory) : PhotosEvent → Option PhotosHistory
  | .entry ctx signer entry =>
    if entry.Honest plainKeys (h.db :: h.earlier) signer then
      (photosNext h.db (.entry ctx signer entry)).map fun db => ⟨h.db :: h.earlier, db⟩
    else none
  | .other => none

lemma honestNext_sound (hn : honestNext h event = some h') :
    HonestStep plainKeys allExpired h event h' := by
  cases event with
  | entry ctx signer entry =>
    simp only [honestNext, ite_none_right_eq_some, map_eq_some_iff] at hn
    obtain ⟨hh, db, hs, rfl⟩ := hn
    exact ⟨photosNext_sound hs, rfl, hh⟩
  | other => cases hn

def noHistory : PhotosHistory := ⟨[], emptyPhotos⟩

def runHonest (events : List PhotosEvent) : PhotosHistory :=
  (events.foldlM honestNext noHistory).getD noHistory

/-- User 1's library, with photo 1 under key 1. -/
def photoInLibrary : List PhotosEvent :=
  [photosAs 1 (.createLibrary ⟨⟨9⟩, [], .replicate 12 0, ⟨1, sampleWrap 0⟩⟩),
    photosAs 1 (.add (samplePhoto (some ⟨9⟩) [(0, 10)] [⟨1, sampleWrap 1⟩]))]

def inviteSecond (n : Nat) : PhotosEvent :=
  photosAs 1 (.invite ⟨⟨9⟩, ⟨2, sampleWrap 0⟩, mintedOn 0 n⟩)

/-- What user 1's worker derives for user 2 from a row under this key. -/
def grantSecond (key : Nat) : PhotosEvent :=
  photosAs 1 (.grant ⟨⟨9⟩, 2, [⟨⟨1⟩, sampleWrap key⟩], []⟩)

/-- User 1 edits the metadata under this key, with wraps for these users. -/
def encryptUnder (key : Nat) (wrapped : List Int) (n : Nat) : PhotosEvent :=
  photosAs 1 (.editMetadata ⟨⟨1⟩, [UInt8.ofNat key], .replicate 12 0, mintedOn 0 n,
    wrapped.map fun userId => ⟨userId, sampleWrap key⟩⟩)

/-- The grant is derived before the re-key and applied after it. -/
def grantAfterRekey : List PhotosEvent :=
  photoInLibrary ++ [inviteSecond 2, encryptUnder 2 [1] 3, grantSecond 1]

/-- User 2 had a row, left, and comes back after a re-key. -/
def rejoinAfterRekey : List PhotosEvent :=
  photoInLibrary ++ [inviteSecond 2, grantSecond 1, photosAs 1 (.remove ⟨9⟩ 2),
    encryptUnder 2 [1] 3, inviteSecond 4]

/-- An edit without wraps, prepared before the re-key and applied after. -/
def editAfterRekey : List PhotosEvent :=
  photoInLibrary ++ [encryptUnder 2 [1] 2, encryptUnder 1 [] 3]

/-- Three interleavings of honest writers that leave a holder with a row of an old key: user 2, who
is invited, twice; and user 1, a member. -/
theorem holders_stranded :
    (Reaches (HonestStep plainKeys allExpired) noHistory grantAfterRekey
      (runHonest grantAfterRekey) ∧
      (runHonest grantAfterRekey).db.photos.IsInvitee ⟨9⟩ 2 ∧
      (runHonest grantAfterRekey).db.photos.photos.map plainKeys.ofPhoto = [[2]] ∧
      ⟨⟨1⟩, 2, sampleWrap 1⟩ ∈ (runHonest grantAfterRekey).db.photos.metadataAccess) ∧
    (Reaches (HonestStep plainKeys allExpired) noHistory rejoinAfterRekey
      (runHonest rejoinAfterRekey) ∧
      (runHonest rejoinAfterRekey).db.photos.IsInvitee ⟨9⟩ 2 ∧
      (runHonest rejoinAfterRekey).db.photos.photos.map plainKeys.ofPhoto = [[2]] ∧
      ⟨⟨1⟩, 2, sampleWrap 1⟩ ∈ (runHonest rejoinAfterRekey).db.photos.metadataAccess) ∧
    Reaches (HonestStep plainKeys allExpired) noHistory editAfterRekey (runHonest editAfterRekey) ∧
      (runHonest editAfterRekey).db.photos.IsMember ⟨9⟩ 1 ∧
      (runHonest editAfterRekey).db.photos.photos.map plainKeys.ofPhoto = [[1]] ∧
      (runHonest editAfterRekey).db.photos.metadataAccess = [⟨⟨1⟩, 1, sampleWrap 2⟩] := by
  refine ⟨⟨.of_foldlM honestNext_sound (by decide +kernel), by decide +kernel⟩,
    ⟨.of_foldlM honestNext_sound (by decide +kernel), by decide +kernel⟩,
    .of_foldlM honestNext_sound (by decide +kernel), by decide +kernel⟩

def currentKeyNext (h : PhotosHistory) : PhotosEvent → Option PhotosHistory
  | .entry ctx signer entry =>
    if entry.UnderCurrentKey plainKeys h.db.photos then honestNext h (.entry ctx signer entry)
      else none
  | .other => none

lemma currentKeyNext_sound
    (hn : currentKeyNext h event = some h') : CurrentKeyStep plainKeys allExpired h event h' := by
  cases event with
  | entry ctx signer entry =>
    simp only [currentKeyNext, ite_none_right_eq_some] at hn
    exact ⟨honestNext_sound hn.2, hn.1⟩
  | other => cases hn

/-- A grant, a re-key for both users and an edit under the new key. -/
def rekeyForBoth : List PhotosEvent :=
  photoInLibrary ++ [inviteSecond 2, grantSecond 1, encryptUnder 2 [1, 2] 3, encryptUnder 2 [] 4]

theorem rekeyForBoth_current :
    (runHonest rekeyForBoth).db.photos.metadataAccess =
      [⟨⟨1⟩, 1, sampleWrap 2⟩, ⟨⟨1⟩, 2, sampleWrap 2⟩] ∧
      NoneStranded plainKeys (runHonest rekeyForBoth).db.photos :=
  ⟨by decide +kernel, no_holder_stranded plainKeys allExpired noHistory _ rekeyForBoth rfl
    (.of_foldlM currentKeyNext_sound (by decide +kernel))⟩

end HopNet
