import HopNet.Drive.Mount
import HopNet.Photos.Entries
import HopNet.StorageHandlers

namespace HopNet

open Fallible Table Runs List PhotosEntry PhotoTables

def editHistoryRetentionDays : Nat := 30

/-- What `retention_cutoff` may mint at a time in milliseconds: the low bits are random. -/
def RetentionCutoff (now : Nat) (cutoff : CustomUUID) : Prop :=
  cutoff.millis + editHistoryRetentionDays * 86400000 = now
deriving Decidable

/-- Ids compare as their texts do, from the clock down. -/
def ReferencesDataBlock (cutoff : CustomUUID) (t : PhotoTables) (b : BlobId) : Prop :=
  (∃ row ∈ t.resources, row.dataBlockId = b) ∨
    ∃ op ∈ t.operations, (op.priorDataBlockId = some b ∨ op.newDataBlockId = some b) ∧
      cutoff.value < op.id.value
deriving Decidable

lemma CustomUUID.lt_of_millis {a b : CustomUUID} (he : a.millis < b.millis) :
    a.value < b.value := by
  by_contra hl
  exact absurd (Nat.div_le_div_right (not_lt.1 hl)) (not_le.2 he)

def ResourceKeys (rows : List ResourceRow) : Prop :=
  (rows.map fun row => (row.photoId, row.resourceType)).Nodup

variable {photoId : CustomUUID} {row : ResourceRow}

section

variable {rows : List ResourceRow}

lemma ResourceKeys.append (keys : ResourceKeys rows)
    (hf : ∀ other ∈ rows, ¬ (other.photoId = row.photoId ∧ other.resourceType = row.resourceType)) :
    ResourceKeys (rows ++ [row]) := by
  refine nodup_map_append_singleton.2 ⟨keys, fun old hr hs => hf old hr ?_⟩
  exact Prod.mk.injEq .. ▸ hs

lemma ResourceKeys.upsert (hk : ResourceKeys rows) :
    ResourceKeys (Table.upsert (fun row => (row.photoId, row.resourceType)) row rows) := by
  unfold Table.upsert
  split_ifs with hp
  · rw [ResourceKeys, map_key_map]
    · exact hk
    · intro other _
      split_ifs with hh
      · exact hh.symm
      · rfl
  · exact hk.append fun other hr hs => hp ⟨other, hr, Prod.ext hs.1 hs.2⟩

lemma ResourceKeys.upsertResources (hk : ResourceKeys rows) (resources : List PhotoResourceOp) :
    ResourceKeys (upsertResources photoId resources rows) := by
  induction resources generalizing rows with
  | nil => exact hk
  | cons resource rest ih => exact ih hk.upsert

lemma ResourceKeys.less {fewer} (hk : ResourceKeys rows) (sub : fewer.Sublist rows) :
    ResourceKeys fewer :=
  List.Nodup.sublist (sub.map _) hk

lemma PhotoTables.resource_of_mem {t : PhotoTables} (hk : ResourceKeys t.resources)
    (ht : row ∈ t.resources) : t.resource row.photoId row.resourceType = some row.dataBlockId := by
  unfold resource
  cases hf : t.resources.find? fun other =>
      other.photoId = row.photoId ∧ other.resourceType = row.resourceType with
  | none => exact absurd (by simp) (find?_eq_none.1 hf row ht)
  | some other =>
    have hn : other.photoId = row.photoId ∧ other.resourceType = row.resourceType := by
      simpa using find?_some hf
    have hs := inj_on_of_nodup_map hk (mem_of_find?_eq_some hf) ht (Prod.ext hn.1 hn.2)
    rw [hs]
    rfl

end

variable {expired : Expiry} {ctx : ApplyCtx} {db db' db₀ : PhotosDb}

section

variable {signer : Option Int} {entry : PhotosEntry} {past : List PhotosEvent} {event : PhotosEvent}
  {t : PhotoTables}

lemma edited_resources {entry} :
    (t.edited entry).resources = (upsertResources entry.photoId entry.resources t.resources).filter
        (fun row => ¬ (row.photoId = entry.photoId ∧ row.resourceType ∈ entry.removeResources)) ∧
      (t.edited entry).operations = t.operations :=
  withMetadata_aside _

lemma insertResourceRows_keys {resources : List PhotoResourceOp}
    (hk : ResourceKeys db.photos.resources)
    (ran : resources.foldlM (insertResourceRow photoId) db = .ok db') :
    ResourceKeys db'.photos.resources := by
  refine foldlM_invariant (fun s => ResourceKeys s.photos.resources) resources ?_ hk ran
  intro resource _ s s' hk hs
  simp only [insertResourceRow, require_bind, pure_eq_ok] at hs
  obtain ⟨hf, _, rfl⟩ := hs
  exact hk.append hf

lemma insertPhotoEntry_keys {entry : PhotoAddEntry} (hk : ResourceKeys db.photos.resources)
    (ran : insertPhotoEntry ctx entry db = .ok db') : ResourceKeys db'.photos.resources := by
  simp only [insertPhotoEntry, insertPhotoRow, bind_eq_ok, exists_require, pure_eq_ok] at ran
  obtain ⟨storage, _, _, ⟨_, _, _, rfl⟩, middle, resources, _, hw, _, hl, rfl⟩ := ran
  have hp : ResourceKeys middle.photos.resources := by
    refine insertResourceRows_keys ?_ resources
    exact hk
  rw [upsertMetadataAccessRows_ok hw] at hl
  obtain rfl := insertOperationRow_ok hl
  exact hp

lemma setResource_keys {resourceType b} (hk : ResourceKeys t.resources) :
    ResourceKeys (t.setResource photoId resourceType b).resources := by
  rw [ResourceKeys, setResource, map_key_map]
  · exact hk
  · intro row _
    split_ifs <;> rfl

lemma apply_resourceKeys (hk : ResourceKeys db.photos.resources)
    (ran : entry.apply expired ctx signer db = .ok db') : ResourceKeys db'.photos.resources := by
  cases apply_effect ran with
  | aside hs | created _ hs | invited _ hs | settled _ hs | granted hs => exact hs.resources ▸ hk
  | dropped => exact hk.less filter_sublist
  | added ran => exact insertPhotoEntry_keys hk ran
  | @edited userId entry _ _ ran =>
    obtain ⟨_, _, _, _, _, _, _, _, rfl⟩ := photoEditContentEntry_ok ran
    show ResourceKeys (db.photos.edited entry).resources
    rw [edited_resources.1]
    exact (hk.upsertResources _).less filter_sublist
  | rewritten _ same => exact same.2 ▸ hk
  | undone ran =>
    obtain ⟨_, _, _, _, _, _, rfl⟩ := photoUndoEntry_ok ran
    exact setResource_keys hk
  | revoked => exact hk

lemma run_resourceKeys (hs : db₀.photos = .empty) (run : Reaches (PhotosStep expired) db₀ past db) :
    ResourceKeys db.photos.resources := by
  refine run.invariant_state (fun db => ResourceKeys db.photos.resources) ?_ ?_
  · rw [hs]
    exact nodup_nil
  · intro db event db' hk step
    cases event with
    | entry ctx signer entry => exact apply_resourceKeys hk step
    | other =>
      have same : db'.photos = db.photos := step
      rw [same]
      exact hk

lemma step_operations {op} (step : PhotosStep expired db event db')
    (ht : op ∈ db.photos.operations) (ha : db'.photos.PhotoExists op.photoId) :
    op ∈ db'.photos.operations := by
  cases event with
  | other =>
    have same : db'.photos = db.photos := step
    rw [same]
    exact ht
  | entry ctx signer entry =>
    cases apply_effect step with
    | aside same =>
      obtain ⟨added, rows⟩ := same.operations
      rw [rows]
      exact mem_append_left _ ht
    | created _ hs | invited _ hs | settled _ hs | granted hs => exact hs.operations ▸ ht
    | @dropped photoId _ _ =>
      obtain ⟨row, hr, hp⟩ := ha
      have hs : row.id ≠ photoId := by simpa using (mem_filter.1 hr).2
      exact mem_filter.2 ⟨ht, by simpa using hp ▸ hs⟩
    | added ran =>
      obtain ⟨_, _, _, rfl⟩ := insertPhotoEntry_ok ran
      exact mem_append_left _ ht
    | edited _ edit | rewritten edit | undone _ edit =>
      obtain ⟨op, rows⟩ := edit.operations
      rw [rows]
      exact mem_append_left _ ht
    | revoked => exact ht

/-- A step after which the photo is still there. -/
def KeepsPhoto (expired : Expiry) (photoId : CustomUUID) (db : PhotosDb) (event : PhotosEvent)
    (db' : PhotosDb) : Prop :=
  PhotosStep expired db event db' ∧ db'.photos.PhotoExists photoId

lemma run_operations {op} (ht : op ∈ db.photos.operations)
    (run : Reaches (KeepsPhoto expired op.photoId) db past db') : op ∈ db'.photos.operations :=
  run.invariant_state (fun s => op ∈ s.photos.operations) ht fun _ _ _ hl hs =>
    step_operations hs.1 hl hs.2

end

/-- The edits and undos, with the photo and id of their operation. -/
def PhotosEntry.contentOperation : PhotosEntry → Option (CustomUUID × CustomUUID)
  | .editContent entry => some (entry.photoId, entry.operationId)
  | .undo entry => some (entry.photoId, entry.operationId)
  | _ => none

variable (t : PhotoTables)

/-- An edit or undo displaces just the block that its operation names: an edit its primary
resource's, an undo what its target brought. -/
def PhotosEntry.NamesDisplaced : PhotosEntry → Prop
  | .editContent entry => ∀ primary ∈ entry.primary,
      ∀ resourceType ∈ entry.resources.map (·.resourceType) ++ entry.removeResources,
        ∀ b ∈ t.resource entry.photoId resourceType, t.resource entry.photoId primary.1 = some b
  | .undo entry => ∀ target ∈ t.contentEdit entry.targetOperationId entry.photoId,
      ∀ resourceType ∈ target.resourceType, ∀ b ∈ t.resource entry.photoId resourceType,
        target.newDataBlockId = some b ∨ target.priorDataBlockId = some b
  | _ => True

instance (t : PhotoTables) (entry : PhotosEntry) : Decidable (entry.NamesDisplaced t) := by
  apply casesOn (motive := fun entry => Decidable (entry.NamesDisplaced t)) entry <;> intros <;>
    dsimp only [PhotosEntry.NamesDisplaced] <;> infer_instance

section

variable {userId : Int} {b : BlobId}

/-- The operation of an entry is in the log and names the block. -/
def NamedBy (photoId operationId : CustomUUID) (b : BlobId) : Prop :=
  ∃ op ∈ t.operations, op.id = operationId ∧ op.photoId = photoId ∧
    (op.priorDataBlockId = some b ∨ op.newDataBlockId = some b)

lemma edit_names {entry : PhotoEditContentEntry} (hk : ResourceKeys db.photos.resources)
    (hn : (editContent entry).NamesDisplaced db.photos)
    (ran : photoEditContentEntry ctx userId db entry = .ok db') (hh : row ∈ db.photos.resources)
    (hg : row ∉ db'.photos.resources) :
    row.photoId = entry.photoId ∧
    NamedBy db'.photos entry.photoId entry.operationId row.dataBlockId := by
  obtain ⟨_, _, primaryType, primaryNew, _, _, _, hpr, rfl⟩ := photoEditContentEntry_ok ran
  have hg : row ∉ (db.photos.edited entry).resources := hg
  rw [edited_resources.1] at hg
  -- Only a row that the entry upserts or removes can go.
  have ht : row.photoId = entry.photoId ∧
      row.resourceType ∈ entry.resources.map (·.resourceType) ++ entry.removeResources := by
    by_contra hu
    have ha : row.photoId = entry.photoId →
        row.resourceType ∉ entry.resources.map (·.resourceType) ++ entry.removeResources :=
      fun hp hty => hu ⟨hp, hty⟩
    refine hg (mem_filter.2 ⟨mem_upsertResources.2 hh fun hp resource he hs => ?_, ?_⟩)
    · exact ha hp (mem_append_left _ (mem_map.2 ⟨resource, he, hs⟩))
    · simp only [decide_eq_true_eq]
      exact fun hr => ha hr.1 (mem_append_right _ hr.2)
  refine ⟨ht.1, _, mem_append_right _ (mem_singleton.2 rfl), rfl, rfl, .inl ?_⟩
  have hb := resource_of_mem hk hh
  rw [ht.1] at hb
  exact hn (primaryType, primaryNew) hpr row.resourceType ht.2 row.dataBlockId hb

lemma undo_names {entry : PhotoUndoEntry} (hk : ResourceKeys db.photos.resources)
    (hn : (undo entry).NamesDisplaced db.photos)
    (ran : photoUndoEntry userId db entry = .ok db') (hh : row ∈ db.photos.resources)
    (hg : row ∉ db'.photos.resources) :
    row.photoId = entry.photoId ∧
    NamedBy db'.photos entry.photoId entry.operationId row.dataBlockId := by
  obtain ⟨target, resourceType, prior, hf, kind, hb, rfl⟩ := photoUndoEntry_ok ran
  have ht : row.photoId = entry.photoId ∧ row.resourceType = resourceType := by
    by_contra hu
    exact hg (mem_map.2 ⟨row, hh, if_neg hu⟩)
  refine ⟨ht.1, _, mem_append_right _ (mem_singleton.2 rfl), rfl, rfl, ?_⟩
  have hbl := resource_of_mem hk hh
  rw [ht.1, ht.2] at hbl
  rcases hn target hf resourceType kind row.dataBlockId hbl with hne | hp
  · exact .inl hne
  · exact .inr (hb ▸ hp)

/-- What names a block keeps it referenced until its window closes. -/
lemma NamedBy.references {t photoId operationId cutoff now}
    (hna : NamedBy t photoId operationId b) (hc : RetentionCutoff now cutoff)
    (hr : now < operationId.millis + editHistoryRetentionDays * 86400000) :
    ReferencesDataBlock cutoff t b := by
  obtain ⟨op, hl, rfl, _, hn⟩ := hna
  refine .inr ⟨op, hl, hn, CustomUUID.lt_of_millis ?_⟩
  unfold RetentionCutoff at hc
  omega

/-- A collection that asks the photos' provider spares a referenced block. -/
lemma deleteOrphaned_spares {env ids t deleted} (hr : env.references b = true)
    (ran : deleteOrphanedDataBlocksConsensus env ids t = .ok deleted) :
    ∀ row ∈ t.dataBlocks, row.id = b → row ∈ deleted.1.dataBlocks := by
  intro row ht hro
  unfold deleteOrphanedDataBlocksConsensus at ran
  split_ifs at ran
  · cases ran
    exact ht
  · simp only [require_bind, pure_eq_ok] at ran
    obtain ⟨_, hu, rfl⟩ := ran
    refine mem_filter.2 ⟨ht, ?_⟩
    simp only [decide_eq_true_eq]
    intro hn
    have := hu row.id hn ⟨row, ht, rfl⟩
    rw [hro, hr] at this
    cases this

/-- In every reachable state, the blocks that an accepted edit or undo displaces stay referenced
while its operation is in the window and the photo is not hard-deleted, and no collection takes
them, if the operation names what the entry displaces. -/
theorem displaced_versions_stay (expired : Expiry) (ctx : ApplyCtx) (signer : Option Int)
    (db₀ db db' later : PhotosDb) (past future : List PhotosEvent) (entry : PhotosEntry)
    (photoId operationId : CustomUUID) (row : ResourceRow) (start : db₀.photos = .empty)
    (run : Reaches (PhotosStep expired) db₀ past db)
    (isContent : entry.contentOperation = some (photoId, operationId))
    (names : entry.NamesDisplaced db.photos)
    (ran : entry.apply expired ctx signer db = .ok db')
    (held : row ∈ db.photos.resources) (gone : row ∉ db'.photos.resources)
    (alive : Reaches (KeepsPhoto expired photoId) db' future later) :
    row.photoId = photoId ∧ ∀ now cutoff, RetentionCutoff now cutoff →
      now < operationId.millis + editHistoryRetentionDays * 86400000 →
        ReferencesDataBlock cutoff later.photos row.dataBlockId ∧
          ∀ env ids deleted,
            (∀ b, ReferencesDataBlock cutoff later.photos b → env.references b = true) →
            deleteOrphanedDataBlocksConsensus env ids later.storage = .ok deleted →
            ∀ block ∈ later.storage.dataBlocks, block.id = row.dataBlockId →
              block ∈ deleted.1.dataBlocks := by
  have hk := run_resourceKeys start run
  have hn : row.photoId = photoId ∧ NamedBy db'.photos photoId operationId row.dataBlockId := by
    cases apply_effect ran with
    | edited ran =>
      cases isContent
      exact edit_names hk names ran held gone
    | undone ran =>
      cases isContent
      exact undo_names hk names ran held gone
    | aside same | settled _ same => exact absurd (same.resources ▸ held) gone
    | _ => cases isContent
  refine ⟨hn.1, fun now cutoff hcu hre => ?_⟩
  have hs : NamedBy later.photos photoId operationId row.dataBlockId := by
    obtain ⟨op, hl, ho, rfl, names⟩ := hn.2
    exact ⟨op, run_operations hl alive, ho, rfl, names⟩
  have hr := hs.references hcu hre
  exact ⟨hr, fun env ids deleted ha hc =>
    deleteOrphaned_spares (ha row.dataBlockId hr) hc⟩

end

/-- The update changes a row that is there and adds none. -/
lemma PhotoTables.resource_setResource (photoId : CustomUUID) (resourceType : Int) (b : BlobId) :
    (t.setResource photoId resourceType b).resource photoId resourceType =
      (t.resource photoId resourceType).map fun _ => b := by
  unfold resource setResource
  induction t.resources with
  | nil => rfl
  | cons row rows ih =>
    by_cases hr : row.photoId = photoId ∧ row.resourceType = resourceType
    · simp [hr]
    · simpa [hr] using ih

/-- The row is there and holds the block, and the undo's operation has as prior what it held
before. -/
def Undone (entry : PhotoUndoEntry) (resourceType : Int) (b : BlobId) (db db' : PhotosDb) : Prop :=
  db'.photos.resource entry.photoId resourceType = some b ∧
    ∃ op, db'.photos.operations = db.photos.operations ++ [op] ∧ op.id = entry.operationId ∧
      op.priorDataBlockId = db.photos.resource entry.photoId resourceType

/-- An accepted undo undoes exactly where the row is there and still holds what the target brought:
the update brings no removed row back, and the prior it logs is the target's block. -/
theorem undo_undoes_iff (expired : Expiry) (ctx : ApplyCtx) (signer : Option Int)
    (db db' : PhotosDb)
    (entry : PhotoUndoEntry) (target : OperationRow) (resourceType : Int) (b : BlobId)
    (found : db.photos.contentEdit entry.targetOperationId entry.photoId = some target)
    (kind : target.resourceType = some resourceType) (prior : target.priorDataBlockId = some b)
    (ran : (undo entry).apply expired ctx signer db = .ok db') :
    Undone entry resourceType b db db' ↔ ∃ held,
      db.photos.resource entry.photoId resourceType = some held ∧
      target.newDataBlockId = some held := by
  simp only [apply, bind_eq_ok] at ran
  obtain ⟨userId, _, ran⟩ := ran
  obtain ⟨_, _, _, hf, hk, hb, same⟩ := photoUndoEntry_ok ran
  cases hf.symm.trans found
  cases hk.symm.trans kind
  cases hb.symm.trans prior
  have row : db'.photos.resource entry.photoId resourceType =
      (db.photos.resource entry.photoId resourceType).map fun _ => b :=
    same ▸ db.photos.resource_setResource entry.photoId resourceType b
  have log : db'.photos.operations =
    db.photos.operations ++ [⟨entry.operationId, none, entry.photoId, 1,
      some resourceType, target.newDataBlockId, some b, none, userId⟩] := same ▸ rfl
  rw [Undone, row, log]
  cases hr : db.photos.resource entry.photoId resourceType with
  | none => simp
  | some held => simp

def sampleEdit (day : Nat) (resources : List (Int × Nat)) : PhotosEntry :=
  .editContent ⟨⟨1⟩, resources.map fun (kind, b) => ⟨kind, sampleBlobOp b 1⟩, none, none,
    mintedOn day 2, [], []⟩

def addPair : List PhotosEvent := [photosAs 1 (.add (samplePhoto none [(0, 10), (5, 12)] []))]

def pairAdded : PhotosDb := final photosNext emptyPhotos addPair

def pairEdit : PhotosEvent := photosAs 1 (sampleEdit 1 [(0, 20), (5, 22)])

def pairEdited : PhotosDb := (photosNext pairAdded pairEdit).getD emptyPhotos

/-- Two versions after the first, on days 1 and 2. -/
def editTwice : List PhotosEvent :=
  [photosAs 1 (.add (samplePhoto none [(0, 10)] [])), photosAs 1 (sampleEdit 1 [(0, 20)]),
    photosAs 1 (sampleEdit 2 [(0, 30)])]

def editedTwice : PhotosDb := final photosNext emptyPhotos editTwice

def undoFirst : PhotosEvent := photosAs 1 (.undo ⟨⟨1⟩, mintedOn 1 2, mintedOn 20 2⟩)

def firstUndone : PhotosDb := (photosNext editedTwice undoFirst).getD emptyPhotos

/-- The second block of an edit is named by no operation, and the collection takes it at once. An
undo of the older of two edits displaces the block of the newer one, which is not named by the undo:
on day 33 the undo is 13 days old and nothing refers to the block. -/
theorem displaced_versions_collected :
    (Reaches (PhotosStep allExpired) emptyPhotos addPair pairAdded ∧
      PhotosStep allExpired pairAdded pairEdit pairEdited ∧
      (⟨⟨1⟩, 5, ⟨12⟩⟩ : ResourceRow) ∈ pairAdded.photos.resources ∧
      pairEdited.photos.resources = [⟨⟨1⟩, 0, ⟨20⟩⟩, ⟨⟨1⟩, 5, ⟨22⟩⟩] ∧
      (∀ cutoff, ¬ ReferencesDataBlock cutoff pairEdited.photos ⟨12⟩) ∧
      ∃ deleted, deleteOrphanedDataBlocksConsensus ⟨fun _ => true, false, fun b =>
          decide (ReferencesDataBlock (mintedOn 0 0) pairEdited.photos b)⟩
            [⟨12⟩] pairEdited.storage = .ok deleted ∧
        (∃ row ∈ pairEdited.storage.dataBlocks, row.id = ⟨12⟩) ∧
          ∀ row ∈ deleted.1.dataBlocks, row.id ≠ ⟨12⟩) ∧
    Reaches (PhotosStep allExpired) emptyPhotos editTwice editedTwice ∧
      PhotosStep allExpired editedTwice undoFirst firstUndone ∧
      editedTwice.photos.resources = [⟨⟨1⟩, 0, ⟨30⟩⟩] ∧ firstUndone.photos.resources =
      [⟨⟨1⟩, 0, ⟨10⟩⟩] ∧ RetentionCutoff (33 * 86400000) (mintedOn 3 0) ∧
      33 * 86400000 < (mintedOn 20 2).millis + editHistoryRetentionDays * 86400000 ∧
      ¬ ReferencesDataBlock (mintedOn 3 0) firstUndone.photos ⟨30⟩ := by
  refine ⟨⟨.of_foldlM photosNext_sound (by decide +kernel), photosNext_sound (by decide +kernel),
    by decide +kernel, by decide +kernel, ?_, ?_⟩, .of_foldlM photosNext_sound (by decide +kernel),
    photosNext_sound (by decide +kernel), by decide +kernel⟩
  · have hnr : ¬ ∃ row ∈ pairEdited.photos.resources, row.dataBlockId = ⟨12⟩ := by decide +kernel
    have hn : ∀ op ∈ pairEdited.photos.operations,
        ¬ (op.priorDataBlockId = some ⟨12⟩ ∨ op.newDataBlockId = some ⟨12⟩) := by decide +kernel
    rintro cutoff (hr | ⟨op, hl, hna, _⟩)
    · exact hnr hr
    · exact hn op hl hna
  · exact ⟨_, ok_get_toOption (by decide +kernel), by decide +kernel⟩

/-- The edit of day 1 of a photo with one resource: its old block stays through day 30. -/
theorem single_version_stays :
    (⟨⟨1⟩, 0, ⟨10⟩⟩ : ResourceRow).photoId = ⟨1⟩ ∧ ∀ now cutoff, RetentionCutoff now cutoff →
      now < (mintedOn 1 2).millis + editHistoryRetentionDays * 86400000 →
        ReferencesDataBlock cutoff editedTwice.photos ⟨10⟩ ∧
          ∀ env ids deleted,
            (∀ b, ReferencesDataBlock cutoff editedTwice.photos b → env.references b = true) →
            deleteOrphanedDataBlocksConsensus env ids editedTwice.storage = .ok deleted →
            ∀ block ∈ editedTwice.storage.dataBlocks, block.id = ⟨10⟩ →
              block ∈ deleted.1.dataBlocks := by
  have ha : Reaches (PhotosStep allExpired) emptyPhotos (editTwice.take 1)
      (final photosNext emptyPhotos (editTwice.take 1)) :=
    .of_foldlM photosNext_sound (by decide +kernel)
  have hl : KeepsPhoto allExpired ⟨1⟩
      (final photosNext emptyPhotos (editTwice.take 2)) (photosAs 1 (sampleEdit 2 [(0, 30)]))
      editedTwice := ⟨photosNext_sound (by decide +kernel), by decide +kernel⟩
  have he : (sampleEdit 1 [(0, 20)]).apply allExpired (sampleCtx 1) (some 1)
      (final photosNext emptyPhotos (editTwice.take 1)) =
      .ok (final photosNext emptyPhotos (editTwice.take 2)) := by decide +kernel
  exact displaced_versions_stay _ _ _ emptyPhotos _ _ _ _ _ _ ⟨1⟩ (mintedOn 1 2) ⟨⟨1⟩, 0,
    ⟨10⟩⟩ rfl ha rfl (by decide +kernel) he (by decide +kernel) (by decide +kernel) (.snoc .refl hl)

/-- A photo with a second resource, which an edit of day 1 removes. -/
def removeSecond : List PhotosEvent :=
  addPair ++ [photosAs 1 (.editContent ⟨⟨1⟩, [], none, none, mintedOn 1 2, [], [5]⟩)]

def secondRemoved : PhotosDb := final photosNext emptyPhotos removeSecond

def removalUndone : PhotosDb := (photosNext secondRemoved undoFirst).getD emptyPhotos

/-- An undo of a removal is accepted and brings nothing back. An undo of the older of two edits logs
block 20 as its prior where the row held block 30. -/
theorem undo_leaves_removed :
    (Reaches (PhotosStep allExpired) emptyPhotos removeSecond secondRemoved ∧
      PhotosStep allExpired secondRemoved undoFirst removalUndone ∧
      (secondRemoved.photos.contentEdit (mintedOn 1 2) ⟨1⟩).map
      (fun op => (op.resourceType, op.priorDataBlockId)) =
        some (some 5, some ⟨12⟩) ∧
      removalUndone.photos.resource ⟨1⟩ 5 = none) ∧
    Reaches (PhotosStep allExpired) emptyPhotos editTwice editedTwice ∧
      PhotosStep allExpired editedTwice undoFirst firstUndone ∧
      editedTwice.photos.resource ⟨1⟩ 0 = some ⟨30⟩ ∧
      (firstUndone.photos.operations.filter (·.id = mintedOn 20 2)).map (·.priorDataBlockId) =
        [some ⟨20⟩] := by
  refine ⟨⟨.of_foldlM photosNext_sound (by decide +kernel), photosNext_sound (by decide +kernel),
    by decide +kernel⟩, .of_foldlM photosNext_sound (by decide +kernel),
    photosNext_sound (by decide +kernel), by decide +kernel⟩

/-- The newer of the two edits is undone. -/
theorem newer_edit_undone : ∃ db',
    (undo ⟨⟨1⟩, mintedOn 2 2, mintedOn 20 2⟩).apply allExpired (sampleCtx 1) (some 1) editedTwice =
      .ok db' ∧ Undone ⟨⟨1⟩, mintedOn 2 2, mintedOn 20 2⟩ 0 ⟨20⟩ editedTwice db' := by
  have ran := ok_get_toOption (x := (undo ⟨⟨1⟩, mintedOn 2 2, mintedOn 20 2⟩).apply allExpired
    (sampleCtx 1) (some 1) editedTwice) (by decide +kernel)
  exact ⟨_, ran, (undo_undoes_iff _ _ _ _ _ _ ⟨mintedOn 2 2, none, ⟨1⟩, 1, some 0, some ⟨20⟩,
    some ⟨30⟩, none, 1⟩ 0 ⟨20⟩
    (by decide +kernel) rfl rfl ran).2 ⟨⟨30⟩, by decide +kernel, rfl⟩⟩

end HopNet
