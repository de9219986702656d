import HopNet.Drive.FeedLog
import HopNet.Drive.FeedView
import HopNet.Drive.Isolation

namespace HopNet

open Fallible Runs SlashPath List DriveTables Option

/-- The inode's id is not in the log under another user. -/
def FreshFor (t : DriveTables) (id : CustomUUID) (userId : Int) : Prop :=
  ∀ entry ∈ t.modificationLog, entry.inodeId = id → entry.ownerId = userId
deriving Decidable

/-- The transaction logs what it changes: new inodes take no id that the log has for another user,
parents that come with an accepted share are above it, and cleared content reaches no other sharer's
inode. -/
def DriveTx.LogsChanges (db : DriveDb) : DriveTx → Prop
  | .insertFiles _ inodes => ∀ inode ∈ inodes, FreshFor db.drive inode.id inode.ownerId
  | .acceptShare payload =>
    FreshFor db.drive payload.inodeId payload.recipientId ∧
      ∀ folder ∈ payload.parentFolderInodes, FreshFor db.drive folder.1 payload.recipientId ∧
        Below folder.2 payload.encryptedPath
  | .modifyItem payload => payload.contentUpdate = some none →
      ∀ b ∈ heldBlock db.drive payload.inodeId payload.userId, ∀ row ∈ db.drive.inodes,
        row.dataId = some b → row.ownerId ≠ payload.userId → row.ownerId ∉ db.drive.sharersOf b
  | _ => True

instance (db : DriveDb) (tx : DriveTx) : Decidable (tx.LogsChanges db) := by
  apply DriveTx.casesOn (motive := fun tx => Decidable (tx.LogsChanges db)) tx <;> intros <;>
    dsimp only [DriveTx.LogsChanges] <;> infer_instance

/-- The old entries, under their owners, and an entry for whatever is seen differently. -/
structure FeedKept (height : Nat) (t t' : DriveTables) : Prop where
  owners : LogOwners t'
  kept : ∀ entry ∈ t.modificationLog, entry ∈ t'.modificationLog
  seen : ∀ userId id, (⟨id, userId, heightToDb height⟩ : ModificationRow) ∈ t'.modificationLog ∨
    HopNet.seen t' userId id = HopNet.seen t userId id

variable {ctx : ApplyCtx} {db db' : DriveDb} {height : Nat} {userId : Int} {inodes : List Inode}

lemma LogOwners.append {t inode} (ho : LogOwners t) (hf : FreshFor t inode.id inode.ownerId) :
    LogOwners { t with inodes := t.inodes ++ [inode] } := by
  intro entry hl row ht hs
  rcases mem_append.1 ht with old | new
  · exact ho entry hl row old hs
  · rw [mem_singleton.1 new] at hs ⊢
    exact hf entry hl hs

/-- A batch of inserts, part way through. -/
structure Inserting (userId : Int) (height : Nat) (t₀ t : DriveTables) : Prop where
  keys : InodeKeys t.inodes
  owners : LogOwners t
  kept : ∀ entry ∈ t₀.modificationLog, entry ∈ t.modificationLog
  came : ∀ entry ∈ t.modificationLog, entry ∈ t₀.modificationLog ∨
    ∃ row ∈ t.inodes, row.id = entry.inodeId
  rows : ∃ added, t.inodes = t₀.inodes ++ added ∧ ∀ row ∈ added, row.ownerId = userId ∧
    HasEntry t row height

lemma Inserting.insert {t₀ inode} (hs : Inserting userId height t₀ db.drive)
    (hm : inode.ownerId = userId) (hfr : FreshFor t₀ inode.id userId)
    (free : ¬ db.Occupied inode) :
    Inserting userId height t₀ (db.insertLogged height inode).drive := by
  have hf : FreshFor db.drive inode.id inode.ownerId := by
    intro entry hlo same
    rcases hs.came entry hlo with old | ⟨row, ht, hro⟩
    · exact (hfr entry old same).trans hm.symm
    · exact absurd ⟨row, ht, .inl (hro.trans same)⟩ free
  have hk : InodeKeys (db.addInode inode).drive.inodes := hs.keys.append free
  have ho : LogOwners (db.addInode inode).drive := hs.owners.append hf
  have ht : inode ∈ (db.addInode inode).drive.inodes :=
    mem_append_right _ (mem_singleton.2 rfl)
  have step : EntriesAdded (inode :: (some inode.path).toList.flatMap fun path =>
      (db.addInode inode).drive.ancestorFolders path inode.ownerId) height (db.addInode inode).drive
      ((db.addInode inode).drive.logModification inode.id inode.ownerId none
        (some inode.path) height) :=
          logModification_step ht
  rw [DriveDb.insertLogged, DriveDb.setDrive_drive]
  obtain ⟨added, rows, hl⟩ := hs.rows
  refine ⟨step.same.inodes ▸ hk, step.owners hk ho,
    fun entry hlo => step.kept entry (hs.kept entry hlo), ?_, added ++ [inode], ?_, ?_⟩
  · intro entry hlo
    rcases step.came entry hlo with old | ⟨row, hr, rfl⟩
    · rcases hs.came entry old with hol | ⟨row, hr, hro⟩
      · exact .inl hol
      · exact .inr ⟨row, step.same.inodes ▸ mem_append_left _ hr, hro⟩
    · exact .inr ⟨row, step.same.inodes ▸ hr, rfl⟩
  · rw [step.same.inodes]
    show db.drive.inodes ++ [inode] = _
    rw [rows, append_assoc]
  · intro row ha
    rcases mem_append.1 ha with old | new
    · exact ⟨(hl row old).1, step.kept _ (hl row old).2⟩
    · rw [mem_singleton.1 new]
      exact ⟨hm, step.logged hk ho inode mem_cons_self⟩

lemma insertFiles_feed {blobOps} (hg : DriveTree db.drive.inodes)
    (hg' : DriveTree db'.drive.inodes) (ho : LogOwners db.drive)
    (hm : ∀ inode ∈ inodes, inode.ownerId = userId)
    (hf : ∀ inode ∈ inodes, FreshFor db.drive inode.id inode.ownerId)
    (ran : insertFiles ctx blobOps inodes db = .ok db') :
    FeedKept ctx.height db.drive db'.drive := by
  simp only [insertFiles, bind_eq_ok] at ran
  obtain ⟨storage, _, ran⟩ := ran
  have hst : Inserting userId ctx.height db.drive
      ({ db with storage := storage } : DriveDb).drive :=
        ⟨hg.keys, ho, fun _ hlo => hlo, fun _ hlo => .inl hlo, [], (append_nil _).symm,
      forall_mem_nil _⟩
  have hd : Inserting userId ctx.height db.drive db'.drive := by
    refine foldlM_invariant (fun s => Inserting userId ctx.height db.drive s.drive)
      inodes ?_ hst ran
    intro inode hb s s' hs step
    rcases insertInode_ok step with ⟨_, rfl⟩ | ⟨free, _, rfl⟩
    · exact hs
    · exact hs.insert (hm inode hb) (hm inode hb ▸ hf inode hb) free
  obtain ⟨added, hr, hl⟩ := hd.rows
  refine ⟨hd.owners, hd.kept, fun userId' id => ?_⟩
  rcases seen_append hg hg' hr userId' id with ⟨row, ha, rfl, rfl⟩ | same
  · exact .inl (hl row ha).2
  · exact .inr same

lemma insertSharedInode_feed {payload share} (ran : insertSharedInode payload share db = .ok db')
    (hk : InodeKeys db.drive.inodes) (ho : LogOwners db.drive)
    (hf : FreshFor db.drive payload.inodeId payload.recipientId)
    (hpa : ∀ folder ∈ payload.parentFolderInodes, FreshFor db.drive folder.1 payload.recipientId ∧
      Below folder.2 payload.encryptedPath) :
    InodeKeys db'.drive.inodes ∧ LogOwners db'.drive ∧
      db'.drive.modificationLog = db.drive.modificationLog ∧
      (∃ inode ∈ db'.drive.inodes, inode.id = payload.inodeId ∧
        inode.ownerId = payload.recipientId) ∧
      ∃ added, db'.drive.inodes = db.drive.inodes ++ added ∧ ∀ row ∈ added,
        (row.id = payload.inodeId ∧ row.ownerId = payload.recipientId) ∨
          row ∈ db'.drive.ancestorFolders payload.encryptedPath payload.recipientId := by
  simp only [insertSharedInode, bind_eq_ok, exists_require, pure_eq_ok] at ran
  obtain ⟨middle, hpl, free, _, rfl⟩ := ran
  let Placing : DriveDb → Prop := fun s =>
    InodeKeys s.drive.inodes ∧ LogOwners s.drive ∧ s.drive.modificationLog =
      db.drive.modificationLog ∧ ∃ added, s.drive.inodes = db.drive.inodes ++ added ∧ ∀ row ∈ added,
        row.ownerId = payload.recipientId ∧ row.inodeType = .folder ∧
        Below row.path payload.encryptedPath
  have hs : Placing db :=
    ⟨hk, ho, rfl, [], (append_nil _).symm, forall_mem_nil _⟩
  obtain ⟨hk', ho', log, added, hr, hab⟩ : Placing middle := by
    refine foldlM_invariant Placing _ ?_ hs hpl
    rintro folder hp s s' ⟨hk', ho', log, added, hr, hab⟩ step
    rcases insertParentFolder_ok step with ⟨_, rfl⟩ | ⟨free, _, rfl⟩
    · exact ⟨hk', ho', log, added, hr, hab⟩
    · obtain ⟨hu, hb⟩ := hpa folder hp
      refine ⟨hk'.append free, ho'.append fun entry hl => hu entry (log ▸ hl), log,
        added ++ [⟨folder.1, payload.recipientId, folder.2, .folder, none⟩], ?_, ?_⟩
      · show s.drive.inodes ++ [_] = _
        rw [hr, append_assoc]
      · exact forall_mem_append.2 ⟨hab, forall_mem_singleton.2 ⟨rfl, rfl, hb⟩⟩
  refine ⟨hk'.append free, ho'.append fun entry hl => hf entry (log ▸ hl), log,
    ⟨_, mem_append_right _ (mem_singleton.2 rfl), rfl, rfl⟩,
    added ++ [⟨payload.inodeId, payload.recipientId, payload.encryptedPath, .file,
      some share.dataBlockId⟩],
    ?_, ?_⟩
  · show middle.drive.inodes ++ [_] = _
    rw [hr, append_assoc]
  · intro row ha
    rcases mem_append.1 ha with old | new
    · obtain ⟨how, kind, hb⟩ := hab row old
      refine .inr (mem_filter.2 ⟨mem_append_left _ (hr ▸ mem_append_right _ old), ?_⟩)
      simp [how, kind, like_of_below hb]
    · rw [mem_singleton.1 new]
      exact .inl ⟨rfl, rfl⟩

lemma acceptShare_feed {decode payload signer}
    (hg : DriveTree db.drive.inodes) (hg' : DriveTree db'.drive.inodes) (hos : LogOwners db.drive)
    (logs : (DriveTx.acceptShare payload).LogsChanges db)
    (ran : acceptShare decode ctx signer payload db = .ok db') :
    FeedKept ctx.height db.drive db'.drive := by
  obtain ⟨share, storage, placed, sent, joined, _, _, _, _, hi, hfi, hse, rfl⟩ := acceptShare_ok ran
  obtain ⟨keys, hop, log, ⟨inode, ht, isId, how⟩, added, rows, hab⟩ :=
    insertSharedInode_feed hi hg.keys hos logs.1 logs.2
  -- Membership and the answered offer are other tables.
  have hm : joined.drive.inodes = placed.drive.inodes ∧
      joined.drive.modificationLog = placed.drive.modificationLog := by
    rcases insertShareMember_ok hfi with ⟨_, rfl⟩ | ⟨_, _, rfl⟩ <;>
      rcases insertShareMember_ok hse with ⟨_, rfl⟩ | ⟨_, _, rfl⟩ <;> exact ⟨rfl, rfl⟩
  let answered : DriveTables :=
    { joined.drive with
      incomingShares :=
        joined.drive.incomingShares.filter (·.id ≠ payload.incomingShareId) }
  have hs : answered.inodes = placed.drive.inodes := hm.1
  have hsl : answered.modificationLog = db.drive.modificationLog := hm.2.trans log
  have hk : InodeKeys answered.inodes := hs ▸ keys
  have ho : LogOwners answered := by
    intro entry hl row hro
    exact hop entry (hm.2 ▸ hl) row (hs ▸ hro)
  have step : EntriesAdded (inode :: (some payload.encryptedPath).toList.flatMap fun path =>
      answered.ancestorFolders path inode.ownerId) ctx.height answered
      (answered.logModification inode.id inode.ownerId none
        (some payload.encryptedPath) ctx.height) :=
          logModification_step (hs ▸ ht)
  rw [isId, how] at step
  refine ⟨step.owners hk ho, fun entry hl => step.kept entry (hsl ▸ hl), ?_⟩
  intro userId id
  have hw := step.same.inodes.trans (hs.trans rows)
  rcases seen_append hg hg' hw userId id with ⟨row, ha, rfl, rfl⟩ | same
  · refine .inl ?_
    rcases hab row ha with ⟨hri, hr⟩ | hf
    · have hth := step.logged hk ho inode mem_cons_self
      rw [HasEntry, isId, how] at hth
      rw [hri, hr]
      exact hth
    · refine step.logged hk ho row (mem_cons_of_mem _ ?_)
      have hh : row ∈ answered.ancestorFolders payload.encryptedPath payload.recipientId := by
        rw [ancestorFolders, hs]
        exact hf
      simpa using hh
  · exact .inr same

variable {t t₁ t₂ t' : DriveTables} {owed : CustomUUID → Int → Prop} {item : Inode}

/-- What is seen differently is logged, or its entry is still owed. -/
structure FeedStage (owed : CustomUUID → Int → Prop) (height : Nat) (t t' : DriveTables) :
    Prop where
  grows : LogGrows height t t'
  seen : ∀ userId id, (⟨id, userId, heightToDb height⟩ : ModificationRow) ∈ t'.modificationLog ∨
    owed id userId ∨ HopNet.seen t' userId id = HopNet.seen t userId id

lemma FeedStage.refl (t : DriveTables) : FeedStage owed height t t :=
  ⟨.of_rows rfl fun row ht => ⟨row, ht, rfl, rfl⟩, fun _ _ => .inr (.inr rfl)⟩

lemma FeedStage.trans (hf : FeedStage owed height t t₁) (hs : FeedStage owed height t₁ t₂) :
    FeedStage owed height t t₂ := by
  refine ⟨hf.grows.trans hs.grows, fun userId id => ?_⟩
  rcases hs.seen userId id with hl | ho | same
  · exact .inl hl
  · exact .inr (.inl ho)
  · rcases hf.seen userId id with hl | ho | hs1
    · exact .inl (hs.grows.kept _ hl)
    · exact .inr (.inl ho)
    · exact .inr (.inr (same.trans hs1))

lemma FeedStage.done {rows} (hs : FeedStage owed height t t₁)
    (step : EntriesAdded rows height t₁ t') (hk : InodeKeys t.inodes) (hk1 : InodeKeys t₁.inodes)
    (how : LogOwners t) (hp : ∀ id userId, owed id userId → ∃ row ∈ rows, row.id = id ∧
      row.ownerId = userId) :
    FeedKept height t t' := by
  have ho1 := hs.grows.owners hk how
  refine ⟨step.owners hk1 ho1, fun entry hlo => step.kept _ (hs.grows.kept entry hlo), ?_⟩
  intro userId id
  rcases hs.seen userId id with hl | ho | same
  · exact .inl (step.kept _ hl)
  · obtain ⟨row, hr, rfl, rfl⟩ := hp id userId ho
    exact .inl (step.logged hk1 ho1 row hr)
  · refine .inr (Eq.trans ?_ same)
    rw [HopNet.seen, HopNet.seen, inodeOf, inodeOf, step.same.inodes]

lemma deleteFiles_feed {path userId} (good : DriveTree t.inodes) (ho : LogOwners t) :
    FeedKept height t (t.deleteFiles path userId height).1 := by
  obtain ⟨hg, hl⟩ := (deleteFiles_log : LogGrows height t (t.deleteFiles path userId height).1 ∧ _)
  refine ⟨hg.owners good.keys ho, hg.kept, fun w id => ?_⟩
  rcases seen_filter good (deleteFiles_tree good) deleteFiles_rows.1 w id with
    ⟨row, ht, hs, rfl, rfl⟩ | same
  · exact .inl (hl good.keys ho row ht hs)
  · exact .inr same

lemma applyPathChange_stage {newPath} {replace : Bool} (good : DriveTree t.inodes)
    (hg' : DriveTree t'.inodes) (how : LogOwners t) (hi : item ∈ t.inodes)
    (ran : applyPathChange item newPath replace height t = .ok t') :
    FeedStage (fun id userId => id = item.id ∧ userId = item.ownerId) height t t' ∧
      ∃ row ∈ t'.inodes, row.id = item.id ∧ row.ownerId = item.ownerId := by
  cases newPath with
  | none =>
    cases ran
    exact ⟨.refl t, item, hi, rfl, rfl⟩
  | some newPath =>
    have move := (changePath_moved good hi ran).1
    obtain ⟨hg, hl⟩ := changePath_log ran
    refine ⟨⟨hg, fun userId id => ?_⟩, _, move.item_there, rfl, rfl⟩
    rcases seen_move hg' move userId id with (hit | ⟨row, ht, hth, rfl, rfl⟩) | hs
    · exact .inr (.inl hit)
    · exact .inl (hl good.keys how row ht hth)
    · exact .inr (.inr hs)

/-- New content is seen of the item and of the inodes that follow it, which are logged unless it was
cleared. -/
lemma updateContent_stage {userId inodeId update updates}
    (ran : updateContent ctx userId inodeId update updates db = .ok db')
    (good : DriveTree db.drive.inodes) (hg' : DriveTree db'.drive.inodes) (ho : LogOwners db.drive)
    (hq : update = none → ∀ row ∈ db.drive.inodes, ¬ FollowsUpdate db.drive inodeId userId row) :
    FeedStage (fun id w => id = inodeId ∧ w = userId) ctx.height db.drive db'.drive := by
  have hr := (updateContent_ok ran).inodes
  unfold updateContent at ran
  rw [bind_eq_ok] at ran
  obtain ⟨storage, _, ran⟩ := ran
  have set : LogGrows ctx.height db.drive
      (db.drive.setData inodeId userId (update.map (·.blobId))) := by
    refine .of_rows rfl fun row' hm => ?_
    obtain ⟨row, ht, rfl⟩ := mem_map.1 hm
    refine ⟨row, ht, ?_⟩
    split_ifs <;> exact ⟨rfl, rfl⟩
  have hfo : LogGrows ctx.height db.drive db'.drive ∧ ∀ row ∈ db.drive.inodes,
      FollowsUpdate db.drive inodeId userId row → HasEntry db'.drive row ctx.height := by
    split at ran
    · rename_i held
      cases ran
      refine ⟨set, ?_⟩
      rintro row _ ⟨b, hh, _⟩
      rw [heldBlock, held] at hh
      cases hh
    rename_i old held
    simp only [bind_eq_ok, pure_eq_ok] at ran
    obtain ⟨drive, hp, rfl⟩ := ran
    obtain ⟨hg, hl⟩ := propagate_log hp
    refine ⟨set.trans hg, ?_⟩
    intro row ht hf
    have hc : update.map (·.blobId) ≠ none := by
      intro hcl
      exact hq (map_eq_none_iff.1 hcl) row ht hf
    obtain ⟨b, hh, hho, hot, hs⟩ := hf
    rw [heldBlock, held] at hh
    cases hh
    have hth : row ∈ (db.drive.setData inodeId userId (update.map (·.blobId))).inodes :=
      mem_map.2 ⟨row, ht, if_neg fun hi => hot hi.2⟩
    have hk : InodeKeys (db.drive.setData inodeId userId (update.map (·.blobId))).inodes := by
      refine (inodeKeys_map_data fun row => ?_).2 good.keys
      split_ifs
      · exact ⟨_, rfl⟩
      · exact ⟨row.dataId, rfl⟩
    exact hl hk (set.owners good.keys ho) hc row hth hho hot hs
  refine ⟨hfo.1, fun w id => ?_⟩
  have hpl : ∀ row : Inode, ∃ dataId,
      (if (row.id = inodeId ∧ row.ownerId = userId) ∨ FollowsUpdate db.drive inodeId userId row then
        { row with dataId := update.map (·.blobId) }
      else row) = { row with dataId := dataId } := by
    intro row
    split_ifs
    · exact ⟨_, rfl⟩
    · exact ⟨row.dataId, rfl⟩
  rcases seen_map good hg' hpl hr w id with ⟨row, ht, hc, rfl, rfl⟩ | same
  · by_cases hi : row.id = inodeId ∧ row.ownerId = userId
    · exact .inr (.inl hi)
    · by_cases hf : FollowsUpdate db.drive inodeId userId row
      · exact .inl (hfo.2 row ht hf)
      · exact absurd (if_neg (not_or.2 ⟨hi, hf⟩)) hc
  · exact .inr (.inr same)

/-- The sharers a cleared block reaches after the move shared it before. -/
lemma LogsChanges.quiet {payload} (hl : (DriveTx.modifyItem payload).LogsChanges db)
    (hk : InodeKeys db.drive.inodes)
    (hf : db.drive.inodeOf payload.inodeId payload.userId = some item)
    (hp : PathChanged payload db.drive t') (hc : payload.contentUpdate = some none) :
    ∀ row ∈ t'.inodes, ¬ FollowsUpdate t' payload.inodeId payload.userId row := by
  rintro row ht ⟨b, held, hho, hot, hs⟩
  rw [hp.heldBlock_eq hk hf, updatedBlock] at held
  have hh : b ∈ heldBlock db.drive payload.inodeId payload.userId := by
    rw [heldBlock, hf]
    rw [hf, bind_some] at held
    split_ifs at held
    · cases held
    · exact held
  have ho : row ∈ t'.inodesOfOthers payload.userId := mem_filter.2 ⟨ht, by simpa using hot⟩
  rw [hp.others.inodes] at ho
  rw [hp.mem_sharersOf] at hs
  exact hl hc b hh row (mem_filter.1 ho).1 hho hot (mem_filter.1 hs).1

lemma modifyItem_feed {payload} (good : DriveTree db.drive.inodes)
    (hg' : DriveTree db'.drive.inodes)
    (ho : LogOwners db.drive) (logs : (DriveTx.modifyItem payload).LogsChanges db)
    (ran : modifyItem ctx payload db = .ok db') : FeedKept ctx.height db.drive db'.drive := by
  obtain ⟨item, drive, middle, hfo, hmo, hu, rfl⟩ := modifyItem_ok ran
  obtain ⟨hit, hi, how⟩ := inodeOf_some hfo
  obtain ⟨g, hc, hm⟩ := applyContentUpdate_inodes hu
  have hg : DriveTree middle.drive.inodes := by
    rw [DriveDb.setDrive_drive, sameRows_logModification.inodes] at hg'
    exact hg'
  have hgd : DriveTree drive.inodes := (driveTree_map_data hc.place).1 (hm ▸ hg)
  obtain ⟨hf, row, hd, hri, hr⟩ := applyPathChange_stage good hgd ho hit hmo
  have hod := hf.grows.owners good.keys ho
  rw [hi, how] at hf
  have hs : FeedStage (fun id w => id = payload.inodeId ∧ w = payload.userId) ctx.height drive
      middle.drive := by
    unfold applyContentUpdate at hu
    split at hu
    · cases hu
      exact .refl drive
    · rename_i ha
      refine updateContent_stage hu hgd hg hod ?_
      rintro rfl
      exact LogsChanges.quiet logs good.keys hfo (applyPathChange_rows how hi hmo) ha
  -- The item is still there, and its entry is the last to be written.
  obtain ⟨d, same⟩ := hc.place row
  have ht : g row ∈ middle.drive.inodes := hm ▸ mem_map_of_mem hd
  have hro : (g row).id = payload.inodeId ∧ (g row).ownerId = payload.userId := by
    rw [same]
    exact ⟨hri.trans hi, hr.trans how⟩
  have hl : EntriesAdded
    (g row :: (some (payload.newEncryptedPath.getD item.path)).toList.flatMap fun path =>
      middle.drive.ancestorFolders path (g row).ownerId) ctx.height middle.drive
      (middle.drive.logModification (g row).id (g row).ownerId
        (payload.newEncryptedPath.map fun _ => item.path)
        (some (payload.newEncryptedPath.getD item.path)) ctx.height) := logModification_step ht
  rw [hro.1, hro.2] at hl
  refine (hf.trans hs).done hl good.keys hg.keys ho ?_
  rintro id w ⟨rfl, rfl⟩
  exact ⟨g row, mem_cons_self, hro⟩

lemma process_feed {decode : AccessDecoder} {call : DriveCall} {db db'}
    (hg : DriveTree db.drive.inodes) (hg' : DriveTree db'.drive.inodes) (ho : LogOwners db.drive)
    (logs : call.tx.LogsChanges db)
    (ran : call.tx.process decode call.ctx call.signer db = .ok db') :
    FeedKept call.ctx.height db.drive db'.drive := by
  have hu : ∀ {t : DriveTables}, t.inodes = db.drive.inodes →
      t.modificationLog = db.drive.modificationLog → FeedKept call.ctx.height db.drive t := by
    intro t hr log
    refine ⟨?_, fun entry hl => log ▸ hl, fun w id => .inr ?_⟩
    · intro entry hl row ht
      exact ho entry (log ▸ hl) row (hr ▸ ht)
    · rw [HopNet.seen, HopNet.seen, inodeOf, inodeOf, hr]
  obtain ⟨ctx, signer, tx⟩ := call
  cases tx with
  | insertFiles blobOps inodes =>
    obtain ⟨_, _, hm, ran⟩ := insertFilesHandler_ok ran
    exact insertFiles_feed hg hg' ho hm logs ran
  | modifyItem payload =>
    exact modifyItem_feed hg hg' ho logs (modifyItemHandler_ok ran).2
  | deleteFiles path userId =>
    rw [← (deleteFilesHandler_ok ran).2]
    exact deleteFiles_feed hg ho
  | acceptShare payload => exact acceptShare_feed hg hg' ho logs ran
  | shareFile payload =>
    obtain ⟨_, _, _, rfl⟩ := shareFile_ok ran
    exact hu rfl rfl
  | declineShare shareId userId =>
    obtain ⟨_, _, _, _, rfl⟩ := declineShare_ok ran
    exact hu rfl rfl
  | unshare inodeId userId =>
    obtain ⟨_, _, rfl⟩ := unshare_ok ran
    exact hu rfl rfl

end HopNet
