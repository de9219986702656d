import HopNet.Drive.Steps
import HopNet.Drive.Tree

namespace HopNet

open Fallible SlashPath List Option

/-- What a rename of `item` to `newPath` leaves of a table. A content update with it may change the
blocks that the item and others' inodes hold. -/
structure RenameEffect (payload : ModifyItemPayload) (item : Inode) (newPath : Path)
    (inodes inodes' : List Inode) : Prop where
  keys : InodeKeys inodes'
  notInside : item.inodeType = .folder → newPath ≠ item.path ∧ ¬ Below item.path newPath
  moved : ∃ dataId, { item with path := newPath, dataId := dataId } ∈ inodes' ∧
    (payload.contentUpdate = none → dataId = item.dataId) ∧
    ∀ update, payload.contentUpdate = some update → dataId = update.map (·.blobId)
  descendants : ∀ row ∈ inodes, row.ownerId = item.ownerId → ∀ s, row.path = item.path ++ '/' :: s →
    { row with path := newPath ++ '/' :: s } ∈ inodes'
  occupant : ∀ row ∈ inodes, Occupies item newPath row →
    payload.replace = true ∧ row.inodeType = item.inodeType ∧
      (row.inodeType = .folder → ∀ other ∈ inodes, other.ownerId = item.ownerId →
        ¬ Below newPath other.path) ∧
      ∀ row' ∈ inodes', row'.id ≠ row.id
  others : ∀ row ∈ inodes, ¬ (row.ownerId = item.ownerId ∧ Under item.path row.path) →
    ¬ Occupies item newPath row →
    (∃ dataId, { row with dataId := dataId } ∈ inodes') ∧
      (payload.contentUpdate = none ∨ row.ownerId = item.ownerId → row ∈ inodes')
  origin : ∀ row' ∈ inodes', ∃ row ∈ inodes, row.id = row'.id

/-- Through the content half only the block of a row may change. -/
structure ContentMap (payload : ModifyItemPayload) (g : Inode → Inode) : Prop where
  place : ∀ row, ∃ dataId, g row = { row with dataId := dataId }
  none_ : payload.contentUpdate = none → ∀ row, g row = row
  own : ∀ row, row.ownerId = payload.userId → row.id ≠ payload.inodeId → g row = row
  item : ∀ row, row.id = payload.inodeId → row.ownerId = payload.userId →
    ∀ update, payload.contentUpdate = some update →
      g row = { row with dataId := update.map (·.blobId) }

lemma applyContentUpdate_inodes {ctx payload db db'}
    (ran : applyContentUpdate ctx payload db = .ok db') :
    ∃ g, ContentMap payload g ∧ db'.drive.inodes = db.drive.inodes.map g := by
  unfold applyContentUpdate at ran
  split at ran
  · rename_i ha
    cases ran
    refine ⟨id, ⟨fun row => ⟨row.dataId, rfl⟩, fun _ _ => rfl, fun _ _ _ => rfl, ?_⟩, by simp⟩
    intro row _ _ update hi
    rw [ha] at hi
    cases hi
  rename_i update ha
  have hd := updateContent_ok ran
  refine ⟨_, ⟨?_, ?_, ?_, ?_⟩, hd.inodes⟩
  · intro row
    split_ifs
    · exact ⟨_, rfl⟩
    · exact ⟨row.dataId, rfl⟩
  · intro hi
    rw [ha] at hi
    cases hi
  · intro row mine ho
    refine if_neg ?_
    rintro (⟨hit, _⟩ | ⟨_, _, _, hm, _⟩)
    · exact ho hit
    · exact hm mine
  · intro row hit mine update' hs
    rw [ha, some.injEq] at hs
    rw [if_pos (.inl ⟨hit, mine⟩), hs]

variable {ctx : ApplyCtx} {payload : ModifyItemPayload} {db db' : DriveDb} {item : Inode}
  {newPath : Path}

lemma renamed_owner (row : Inode) : (renamed item newPath row).ownerId = row.ownerId := by
  unfold renamed
  split_ifs <;> rfl

lemma renamed_below {row} (hm : row.ownerId = item.ownerId) {s}
    (at_ : row.path = item.path ++ '/' :: s) :
    renamed item newPath row = { row with path := newPath ++ '/' :: s } := by
  rw [renamed, if_pos ⟨hm, .inr ⟨s, at_⟩⟩, at_, drop_left]

lemma renamed_item : renamed item newPath item = { item with path := newPath } := by
  rw [renamed, if_pos ⟨rfl, .inl rfl⟩, drop_length, append_nil]

namespace Moved

variable {inodes inodes' : List Inode} {replace : Bool}
  (move : Moved inodes inodes' item newPath replace) {row : Inode}
include move

lemma kept (ht : row ∈ inodes) (free : ¬ Occupies item newPath row) :
    renamed item newPath row ∈ inodes' := by
  rw [move.rows]
  refine mem_map_of_mem (mem_filter.2 ⟨ht, ?_⟩)
  simpa using free

lemma stays (ht : row ∈ inodes) (free : ¬ Occupies item newPath row)
    (hu : ¬ (row.ownerId = item.ownerId ∧ Under item.path row.path)) : row ∈ inodes' := by
  have hth := move.kept ht free
  rwa [renamed, if_neg hu] at hth

lemma item_there : { item with path := newPath } ∈ inodes' := by
  have ht := move.kept move.inItem fun ho => ho.2.2 rfl
  rwa [renamed_item] at ht

lemma came {row'} (ha : row' ∈ inodes') :
    ∃ row ∈ inodes, ¬ Occupies item newPath row ∧ row.id = row'.id := by
  rw [move.rows] at ha
  obtain ⟨row, hk, rfl⟩ := mem_map.1 ha
  obtain ⟨ht, free⟩ := mem_filter.1 hk
  exact ⟨row, ht, by simpa using free, (renamed_id row).symm⟩

end Moved

/-- In a well-formed tree an accepted rename has exactly a rename's effect. -/
lemma modifyItem_renames (hg : DriveTree db.drive.inodes)
    (hmo : payload.newEncryptedPath = some newPath)
    (hf : db.drive.inodeOf payload.inodeId payload.userId = some item)
    (hac : modifyItem ctx payload db = .ok db') :
    RenameEffect payload item newPath db.drive.inodes db'.drive.inodes := by
  obtain ⟨item', drive, middle, hf', hmd, hup, rfl⟩ := modifyItem_ok hac
  rw [hf, some.injEq] at hf'
  subst hf'
  rw [hmo, applyPathChange] at hmd
  obtain ⟨hi, hii, hio⟩ := inodeOf_some hf
  obtain ⟨move, keys⟩ := changePath_moved hg hi hmd
  obtain ⟨g, hc, hma⟩ := applyContentUpdate_inodes hup
  have rows : (middle.setDrive (middle.drive.logModification payload.inodeId payload.userId
      (payload.newEncryptedPath.map fun _ => item.path)
      (some (payload.newEncryptedPath.getD item.path)) ctx.height)).drive.inodes =
        drive.inodes.map g :=
          DriveTables.sameRows_logModification.inodes.trans hma
  rw [rows]
  -- A row that is kept is found again under its new name.
  have kept : ∀ row ∈ db.drive.inodes, ¬ Occupies item newPath row →
    g (renamed item newPath row) ∈ drive.inodes.map g :=
    fun row ht free => mem_map_of_mem (move.kept ht free)
  have came : ∀ row' ∈ drive.inodes.map g, ∃ row ∈ db.drive.inodes, ¬ Occupies item newPath row ∧
      row.id = row'.id := by
    intro row' ht
    obtain ⟨row, hm, rfl⟩ := mem_map.1 ht
    obtain ⟨d, same⟩ := hc.place row
    simpa only [same] using move.came hm
  refine ⟨(inodeKeys_map_data hc.place).2 keys, ?_, ?_, ?_, ?_, ?_, ?_⟩
  · intro kind
    have := move.outside kind
    exact ⟨fun same => this (.inl same), fun hb => this (.inr hb)⟩
  · have hif : ¬ Occupies item newPath item := fun hth => hth.2.2 rfl
    have hth := kept item hi hif
    rw [renamed_item] at hth
    obtain ⟨d, same⟩ := hc.place { item with path := newPath }
    refine ⟨d, same ▸ hth, ?_, ?_⟩
    · intro hn
      have hu := hc.none_ hn { item with path := newPath }
      rw [same] at hu
      exact congrArg Inode.dataId hu
    · intro update had
      have hch := hc.item { item with path := newPath } hii hio update had
      rw [same] at hch
      exact congrArg Inode.dataId hch
  · intro row ht mine s at_
    have hb : Below item.path row.path := ⟨s, at_⟩
    have hit : row.id ≠ item.id := fun same =>
      hb.ne (congrArg Inode.path (hg.keys.eq_of_id ht hi same))
    -- The occupant has nothing below it, and is not below a folder that may move there.
    have free : ¬ Occupies item newPath row := by
      intro hth
      cases kind : item.inodeType with
      | file => exact hg.not_below_file hi kind ht mine hb
      | folder => exact move.outside kind (.inr (hth.2.1 ▸ hb))
    have hth := kept row ht free
    rw [renamed_below mine at_] at hth
    rwa [hc.own { row with path := newPath ++ '/' :: s } (mine.trans hio) (hii ▸ hit)] at hth
  · intro row ht hth
    have can := move.replaceable row ht hth
    refine ⟨can.asked, can.sameType, ?_, ?_⟩
    · intro _ other hot mine
      rw [← hth.2.1]
      exact can.empty other hot mine
    · intro row' ha same
      obtain ⟨origin, hor, free, hoi⟩ := came row' ha
      rw [hg.keys.eq_of_id hor ht (hoi.trans same)] at free
      exact free hth
  · intro row ht he free
    have hth := kept row ht free
    rw [renamed, if_neg he] at hth
    obtain ⟨d, same⟩ := hc.place row
    refine ⟨⟨d, same ▸ hth⟩, ?_⟩
    rintro (hn | mine)
    · rwa [hc.none_ hn row] at hth
    · have hit : row.id ≠ item.id := fun hs =>
        he ⟨mine, .inl (congrArg Inode.path (hg.keys.eq_of_id ht hi hs))⟩
      rwa [hc.own row (mine.trans hio) (hii ▸ hit)] at hth
  · intro row' ha
    obtain ⟨row, ht, _, same⟩ := came row' ha
    exact ⟨row, ht, same⟩

/-- Renames and deletes have exactly their effect on the tree. -/
theorem rename_and_delete_exact (db : DriveDb) (good : DriveTree db.drive.inodes) :
    (∀ ctx payload newPath item db', payload.newEncryptedPath = some newPath →
      db.drive.inodeOf payload.inodeId payload.userId = some item →
      modifyItem ctx payload db = .ok db' →
      RenameEffect payload item newPath db.drive.inodes db'.drive.inodes) ∧
    ∀ path userId height, LiteralPath path →
      (db.drive.deleteFiles path userId height).1.inodes =
        db.drive.inodes.filter fun row =>
          ¬ (row.ownerId = userId ∧ (row.path = path ∨ Below path row.path)) :=
            ⟨fun _ _ _ _ _ hm hf ha => modifyItem_renames good hm hf ha,
    fun _ _ _ hl => deleteFiles_exact hl fun row ht => (good.hex row ht).literal⟩

/-- User 1 has `/a` with a file `/a/b`, an empty folder `/c` and a file `/d`. -/
def sampleDrive : DriveDb where
  users := [.sample 1, .sample 2]
  storage := .empty
  drive :=
    { DriveTables.empty with
      inodes :=
        [sampleInode 1 1 ['/', 'a'] .folder none, sampleInode 2 1 ['/', 'a', '/', 'b'] .file none,
        sampleInode 3 1 ['/', 'c'] .folder none, sampleInode 4 1 ['/', 'd'] .file none] }

/-- `/a` takes the place of `/c`. -/
def sampleMove : ModifyItemPayload := ⟨1, ⟨1⟩, some ['/', 'c'], none, none, true⟩

lemma sampleDrive_tree : DriveTree sampleDrive.drive.inodes :=
  ⟨⟨by decide +kernel, by decide +kernel⟩, by decide +kernel, by decide +kernel⟩

def sampleMoved : DbResult DriveDb := modifyItem (sampleCtx 7) sampleMove sampleDrive

lemma sampleMoved_ok : sampleMoved.toOption.isSome = true := by decide +kernel

/-- The folder replaces the empty one, and its file goes along. -/
theorem sampleMove_exact : ∃ db', modifyItem (sampleCtx 7) sampleMove sampleDrive = .ok db' ∧
    RenameEffect sampleMove (sampleInode 1 1 ['/', 'a'] .folder none) ['/', 'c']
      sampleDrive.drive.inodes db'.drive.inodes ∧
    db'.drive.inodes = [sampleInode 1 1 ['/', 'c'] .folder none,
      sampleInode 2 1 ['/', 'c', '/', 'b'] .file none, sampleInode 4 1 ['/', 'd'] .file none] ∧
    (sampleDrive.drive.deleteFiles ['/', 'a'] 1 7).1.inodes = sampleDrive.drive.inodes.filter
      fun row => ¬ (row.ownerId = 1 ∧ (row.path = ['/', 'a'] ∨ Below ['/', 'a'] row.path)) := by
  have ran := ok_get_toOption sampleMoved_ok
  have he := rename_and_delete_exact sampleDrive sampleDrive_tree
  refine ⟨_, ran, he.1 _ _ _ _ _ rfl (by decide +kernel) ran, by decide +kernel,
    he.2 ['/', 'a'] 1 7 (by decide +kernel)⟩

end HopNet
