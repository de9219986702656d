import HopNet.Drive.Effects
import HopNet.Lib.Table
import HopNet.StorageEvents

namespace HopNet

open Fallible Table Runs List DriveTables Option

structure DriveCall where
  ctx : ApplyCtx
  signer : Option Int
  tx : DriveTx

inductive DriveEvent where
  | tx (call : DriveCall)
  /-- A transaction of another part: it leaves the drive's tables alone. -/
  | other

/-- One applied transaction. -/
def DriveStep (decode : AccessDecoder) (db : DriveDb) (event : DriveEvent) (db' : DriveDb) : Prop :=
  match event with
  | .tx call => call.tx.process decode call.ctx call.signer db = .ok db'
  | .other => db'.drive = db.drive

variable {ctx : ApplyCtx}

section

variable {s s' : StorageTables}

lemma applyBlobInserts_blocks {ops} (ran : applyBlobInserts ctx ops s = .ok s') :
    ∃ added, s'.dataBlocks = s.dataBlocks ++ added ∧
      ∀ op ∈ ops, ∃ row ∈ added, row.id = op.blobId := by
  rw [applyBlobInserts, mapError_eq_ok] at ran
  induction ops generalizing s with
  | nil =>
    cases ran
    exact ⟨[], (append_nil _).symm, forall_mem_nil _⟩
  | cons op rest ih =>
    rw [foldlM_cons, bind_eq_ok] at ran
    obtain ⟨middle, hf, ho⟩ := ran
    obtain ⟨new, hn, _, _, hg⟩ := (applyBlobInsert_ok hf).blocks
    obtain ⟨added, rows, hr⟩ := ih ho
    refine ⟨new :: added, by rw [rows, hg, append_assoc, singleton_append], fun op' hop => ?_⟩
    rcases mem_cons.1 hop with rfl | hl
    · exact ⟨new, mem_cons_self, hn⟩
    · obtain ⟨row, ha, hro⟩ := hr op' hl
      exact ⟨row, mem_cons_of_mem _ ha, hro⟩

lemma applyBlobInserts_fresh {op} (ran : applyBlobInserts ctx [op] s = .ok s') :
    ∀ row ∈ s.dataBlocks, row.id ≠ op.blobId := by
  simp only [applyBlobInserts, mapError_eq_ok, foldlM_cons, foldlM_nil, bind_eq_ok] at ran
  obtain ⟨middle, hf, _⟩ := ran
  simpa [StorageTables.block] using (applyBlobInsert_ok hf).fresh

end

variable {decode : AccessDecoder} {signer : Option Int} {db db' : DriveDb} {inode : Inode}
  {height : Nat} {b : BlobId} {userId : Int}

lemma insertInode_ok (ran : insertInode height db inode = .ok db') :
    (db.Occupied inode ∧ db' = db) ∨
    (¬ db.Occupied inode ∧ db.References inode ∧ db' = db.insertLogged height inode) := by
  unfold insertInode at ran
  split at ran
  · split_ifs at ran with ht
    · cases ran
      exact .inl ⟨ht, rfl⟩
    · simp only [require_bind, pure_eq_ok] at ran
      exact .inr ⟨ht, ran.1, ran.2.symm⟩
  simp only [require_bind, pure_eq_ok] at ran
  exact .inr ⟨ran.1, ran.2.1, ran.2.2.symm⟩

lemma insertLogged_rows :
    DriveTables.SameRows (db.addInode inode).drive (db.insertLogged height inode).drive := by
  show DriveTables.SameRows (db.addInode inode).drive
    ((db.addInode inode).drive.logModification inode.id inode.ownerId none (some inode.path) height)
  exact sameRows_logModification

lemma insertParentFolder_ok {folder} (ran : insertParentFolder userId db folder = .ok db') :
    (db.Occupied ⟨folder.1, userId, folder.2, .folder, none⟩ ∧ db' = db) ∨
      (¬ db.Occupied ⟨folder.1, userId, folder.2, .folder, none⟩ ∧
        db.References ⟨folder.1, userId, folder.2, .folder, none⟩ ∧
        db' = db.addInode ⟨folder.1, userId, folder.2, .folder, none⟩) := by
  simp only [insertParentFolder] at ran
  split_ifs at ran with ht
  · cases ran
    exact .inl ⟨ht, rfl⟩
  · simp only [require_bind, pure_eq_ok] at ran
    exact .inr ⟨ht, ran.1, ran.2.symm⟩

lemma insertShareMember_ok (ran : insertShareMember b db userId = .ok db') :
    ((⟨b, userId⟩ : ShareRow) ∈ db.drive.shares ∧ db' = db) ∨
      ((⟨b, userId⟩ : ShareRow) ∉ db.drive.shares ∧ db.BlockExists b ∧
        db' = db.setDrive { db.drive with shares := db.drive.shares ++ [⟨b, userId⟩] }) := by
  unfold insertShareMember at ran
  split_ifs at ran with hp
  · cases ran
    exact .inl ⟨hp, rfl⟩
  · simp only [require_bind, pure_eq_ok] at ran
    exact .inr ⟨hp, ran.1.1, ran.2.symm⟩

/-- What each new inode of the recipient keeps, placing a shared one keeps. -/
lemma insertSharedInode_invariant {payload share} {P : DriveDb → Prop}
    (hp : ∀ s inode, P s → inode.ownerId = payload.recipientId → ¬ s.Occupied inode →
      s.References inode →
      P (s.addInode inode))
    (ran : insertSharedInode payload share db = .ok db') (hs : P db) : P db' := by
  simp only [insertSharedInode, bind_eq_ok, exists_require, pure_eq_ok] at ran
  obtain ⟨middle, hm, hf, hr, rfl⟩ := ran
  refine hp _ _ (foldlM_invariant P _ ?_ hs hm) rfl hf hr
  intro folder _ s s' hs step
  rcases insertParentFolder_ok step with ⟨_, rfl⟩ | ⟨hf, hr, rfl⟩
  · exact hs
  · exact hp _ _ hs rfl hf hr

lemma acceptShare_ok {payload} (ran : acceptShare decode ctx signer payload db = .ok db') :
    ∃ share storage placed sent joined, signer = some payload.recipientId ∧
      db.drive.incomingShareById payload.incomingShareId = some share ∧
      share.recipientId = payload.recipientId ∧
      acceptAccess decode share db.storage = .ok storage ∧
      insertSharedInode payload share { db with storage := storage } = .ok placed ∧
      insertShareMember share.dataBlockId placed share.senderId = .ok sent ∧
      insertShareMember share.dataBlockId sent payload.recipientId = .ok joined ∧
      db' = joined.setDrive (logModification
        { joined.drive with incomingShares :=
            joined.drive.incomingShares.filter fun row => row.id ≠ payload.incomingShareId }
        payload.inodeId payload.recipientId none (some payload.encryptedPath) ctx.height) := by
  simp only [acceptShare, deleteIncomingShare, bind_eq_ok, requireSigner_eq_ok, orNotFound_eq_ok,
    exists_require, exists_const, pure_eq_ok, foldlM_cons, foldlM_nil] at ran
  obtain ⟨hs, share, hf, hr, _, storage, hw, placed, hi, _,
    ⟨sent, hfi, joined, hse, rfl⟩, _, ⟨_, rfl⟩, rfl⟩ := ran
  exact ⟨share, storage, placed, sent, joined, hs, hf, hr, hw, hi, hfi, hse, rfl⟩

lemma acceptAccess_blocks {share s s'}
    (ran : acceptAccess decode share s = .ok s') : s'.dataBlocks = s.dataBlocks := by
  unfold acceptAccess at ran
  split at ran
  · cases ran
  rename_i access hd
  exact congrArg Prod.fst (addBlobAccess_aside (mapError_eq_ok.1 ran))

section

variable {t t' : DriveTables} {item : Inode} {newPath : Path} {replace : Bool}

lemma clearDestination_ok (ran : t.clearDestination item newPath replace height = .ok t') :
    ((∀ row ∈ t.inodes, ¬ (row.path = newPath ∧ row.ownerId = item.ownerId ∧ row.id ≠ item.id)) ∧
      t' = t) ∨
      ((∃ row ∈ t.inodes, row.path = newPath ∧ row.ownerId = item.ownerId ∧ row.id ≠ item.id) ∧
        t' = (t.deleteFiles newPath item.ownerId height).1) := by
  unfold clearDestination at ran
  cases hf : t.inodes.find? (fun row =>
      row.path = newPath ∧ row.ownerId = item.ownerId ∧ row.id ≠ item.id) with
  | none =>
    rw [hf] at ran
    cases ran
    refine .inl ⟨fun row ht hth => ?_, rfl⟩
    have := find?_eq_none.1 hf row ht
    simp only [decide_eq_true_eq] at this
    exact this hth
  | some occupant =>
    rw [hf] at ran
    simp only [bind_eq_ok, exists_require, pure_eq_ok] at ran
    obtain ⟨_, _, _, _, _, rfl⟩ := ran
    exact .inr ⟨⟨occupant, mem_of_find?_eq_some hf, by simpa using find?_some hf⟩, rfl⟩

lemma changePath_ok (ran : t.changePath item newPath replace height = .ok t') :
    ∃ middle, t.clearDestination item newPath replace height = .ok middle ∧
      t' = { middle with inodes := middle.inodes.map (moveInode item newPath) } ∧
      (t'.inodes.map fun row => (row.ownerId, row.path)).Nodup := by
  unfold changePath movePaths at ran
  simp only [bind_eq_ok, exists_require, pure_eq_ok] at ran
  obtain ⟨_, middle, hc, hd, rfl⟩ := ran
  exact ⟨middle, hc, rfl, hd⟩

lemma moveInode_eq (item : Inode) (newPath : Path) (row : Inode) :
    ∃ path, moveInode item newPath row = { row with path := path } := by
  unfold moveInode
  split_ifs
  · exact ⟨_, rfl⟩
  · exact ⟨row.path, rfl⟩

end

def DriveTx.registers : DriveTx → List BlobInsertOp
  | .insertFiles blobOps _ => blobOps
  | .modifyItem payload => (payload.contentUpdate.getD none).toList
  | _ => []

/-- The wrap of the share that a transaction accepts. -/
def DriveTx.accepts (t : DriveTables) : DriveTx → Option IncomingShareRow
  | .acceptShare payload => t.incomingShareById payload.incomingShareId
  | _ => none

/-- A transaction registers blobs, or takes the wrap of a share, or leaves the storage tables. -/
lemma DriveTx.process_storage {tx : DriveTx} (ran : tx.process decode ctx signer db = .ok db') :
    (tx.accepts db.drive = none ∧ applyBlobInserts ctx tx.registers db.storage = .ok db'.storage) ∨
      ∃ share, tx.accepts db.drive = some share ∧ tx.registers = [] ∧
        acceptAccess decode share db.storage = .ok db'.storage := by
  cases tx with
  | insertFiles blobOps inodes =>
    obtain ⟨_, _, _, ran⟩ := insertFilesHandler_ok ran
    simp only [HopNet.insertFiles, bind_eq_ok] at ran
    obtain ⟨storage, hr, ran⟩ := ran
    have same : db'.storage = storage := by
      refine foldlM_invariant (·.storage = storage) inodes ?_ rfl ran
      intro inode _ now next same step
      rcases insertInode_ok step with ⟨_, rfl⟩ | ⟨_, _, rfl⟩ <;> exact same
    exact .inl ⟨rfl, same ▸ hr⟩
  | modifyItem payload =>
    obtain ⟨item, drive, middle, _, _, hu, rfl⟩ := modifyItem_ok (modifyItemHandler_ok ran).2
    refine .inl ⟨rfl, ?_⟩
    show applyBlobInserts ctx (payload.contentUpdate.getD none).toList db.storage =
      .ok middle.storage
    unfold applyContentUpdate at hu
    split at hu
    · rename_i ha
      cases hu
      rw [ha]
      rfl
    · rename_i update ha
      rw [ha]
      exact (updateContent_ok hu).storage
  | deleteFiles path userId =>
    rw [← (deleteFilesHandler_ok ran).2]
    exact .inl ⟨rfl, rfl⟩
  | acceptShare payload =>
    obtain ⟨share, storage, placed, sent, joined, _, hfo, _, hw, hi, hf, hs, rfl⟩ :=
      acceptShare_ok ran
    have hm : joined.storage = placed.storage := by
      rcases insertShareMember_ok hf with ⟨_, rfl⟩ | ⟨_, _, rfl⟩ <;>
        rcases insertShareMember_ok hs with ⟨_, rfl⟩ | ⟨_, _, rfl⟩ <;> rfl
    have same : placed.storage = storage :=
      insertSharedInode_invariant (P := fun s => s.storage = storage)
        (fun _ _ same _ _ _ => same) hi rfl
    have hst : joined.storage = storage := hm.trans same
    exact .inr ⟨share, hfo, rfl, hst ▸ hw⟩
  | shareFile payload =>
    obtain ⟨_, _, _, rfl⟩ := shareFile_ok ran
    exact .inl ⟨rfl, rfl⟩
  | declineShare shareId userId =>
    obtain ⟨_, _, _, _, rfl⟩ := declineShare_ok ran
    exact .inl ⟨rfl, rfl⟩
  | unshare inodeId userId =>
    obtain ⟨_, _, rfl⟩ := unshare_ok ran
    exact .inl ⟨rfl, rfl⟩

/-- The keys of the drive's tables, and their references to the blocks. -/
structure DriveDb.Sound (db : DriveDb) : Prop where
  keys : InodeKeys db.drive.inodes
  offers : (db.drive.incomingShares.map (·.id)).Nodup
  inodes : ∀ row ∈ db.drive.inodes, ∀ b ∈ row.dataId, db.BlockExists b
  shares : ∀ row ∈ db.drive.shares, db.BlockExists row.dataBlockId
  pending : ∀ row ∈ db.drive.incomingShares, db.BlockExists row.dataBlockId

section

variable {drive : DriveTables} {inodes : List Inode} {storage : StorageTables}

lemma DriveDb.BlockExists.grow (hp : db.BlockExists b)
    (hg : ∀ row ∈ db.storage.dataBlocks, row ∈ storage.dataBlocks) :
    ({ db with storage := storage } : DriveDb).BlockExists b := by
  obtain ⟨row, ht, hr⟩ := hp
  exact ⟨row, hg row ht, hr⟩

lemma DriveDb.Sound.grow (hs : db.Sound)
    (hg : ∀ row ∈ db.storage.dataBlocks, row ∈ storage.dataBlocks) :
    ({ db with storage := storage } : DriveDb).Sound :=
  ⟨hs.keys, hs.offers, fun row ht b hh => (hs.inodes row ht b hh).grow hg,
    fun row ht => (hs.shares row ht).grow hg,
    fun row ht => (hs.pending row ht).grow hg⟩

lemma DriveDb.Sound.less (hso : db.Sound)
    (hi : drive.inodes.Sublist db.drive.inodes) (hs : drive.shares.Sublist db.drive.shares)
    (hp : drive.incomingShares.Sublist db.drive.incomingShares) : (db.setDrive drive).Sound :=
  ⟨⟨hso.keys.ids.sublist (hi.map _), hso.keys.paths.sublist (hi.map _)⟩,
    hso.offers.sublist (hp.map _),
    fun row ht => hso.inodes row (hi.subset ht),
    fun row ht => hso.shares row (hs.subset ht),
    fun row ht => hso.pending row (hp.subset ht)⟩

lemma DriveDb.Sound.log (hs : db.Sound) (same : DriveTables.SameRows db.drive drive) :
    (db.setDrive drive).Sound :=
  hs.less (same.inodes ▸ .refl _) (same.shares ▸ .refl _) (same.incomingShares ▸ .refl _)

lemma InodeKeys.append (keys : InodeKeys inodes) (hf : ¬ ∃ row ∈ inodes, row.id = inode.id ∨
      (row.ownerId = inode.ownerId ∧ row.path = inode.path)) :
    InodeKeys (inodes ++ [inode]) := by
  have ha : ∀ row ∈ inodes, row.id ≠ inode.id ∧
      ¬ (row.ownerId = inode.ownerId ∧ row.path = inode.path) := by
    intro row ht
    exact not_or.1 fun he => hf ⟨row, ht, he⟩
  refine ⟨nodup_map_append_singleton.2 ⟨keys.ids, fun row ht => (ha row ht).1⟩,
    nodup_map_append_singleton.2 ⟨keys.paths, fun row ht hs => (ha row ht).2 ?_⟩⟩
  exact Prod.mk.injEq .. ▸ hs

lemma inodeKeys_map_data {g : Inode → Inode}
    (hp : ∀ row, ∃ dataId, g row = { row with dataId := dataId }) :
    InodeKeys (inodes.map g) ↔ InodeKeys inodes := by
  rw [inodeKeys_iff, inodeKeys_iff, map_key_map, map_key_map]
  all_goals
    intro row _
    obtain ⟨d, hs⟩ := hp row
    rw [hs]

lemma DriveDb.Sound.addInode (hs : db.Sound) (hf : ¬ db.Occupied inode) (hr : db.References inode) :
    (db.addInode inode).Sound := by
  refine ⟨hs.keys.append hf, hs.offers, ?_, hs.shares, hs.pending⟩
  exact forall_mem_append.2 ⟨hs.inodes, forall_mem_singleton.2 hr.2⟩

lemma insertInode_sound (ran : insertInode height db inode = .ok db') (hs : db.Sound) :
    db'.Sound := by
  rcases insertInode_ok ran with ⟨_, rfl⟩ | ⟨hf, hr, rfl⟩
  · exact hs
  · exact (hs.addInode hf hr).log sameRows_logModification

lemma insertFiles_sound {blobOps}
    (ran : insertFiles ctx blobOps inodes db = .ok db') (hs : db.Sound) : db'.Sound := by
  simp only [insertFiles, bind_eq_ok] at ran
  obtain ⟨storage, hr, ran⟩ := ran
  obtain ⟨added, rows, _⟩ := applyBlobInserts_blocks hr
  exact foldlM_invariant DriveDb.Sound inodes (fun _ _ _ _ hs step => insertInode_sound step hs)
    (hs.grow fun row ht => rows ▸ mem_append_left _ ht) ran

lemma insertShareMember_sound (ran : insertShareMember b db userId = .ok db') (hs : db.Sound) :
    db'.Sound := by
  rcases insertShareMember_ok ran with ⟨_, rfl⟩ | ⟨_, hp, rfl⟩
  · exact hs
  · refine ⟨hs.keys, hs.offers, hs.inodes, ?_, hs.pending⟩
    exact forall_mem_append.2 ⟨hs.shares, forall_mem_singleton.2 hp⟩

lemma acceptShare_sound {payload}
    (ran : acceptShare decode ctx signer payload db = .ok db') (hso : db.Sound) : db'.Sound := by
  obtain ⟨share, storage, placed, sent, joined, _, _, _, hw, hi, hf, hs, rfl⟩ :=
    acceptShare_ok ran
  have hg : ({ db with storage := storage } : DriveDb).Sound :=
    hso.grow fun row ht => (acceptAccess_blocks hw).symm ▸ ht
  have hp : placed.Sound :=
    insertSharedInode_invariant (fun _ _ hs _ hf hr => hs.addInode hf hr) hi hg
  have hj : joined.Sound := insertShareMember_sound hs (insertShareMember_sound hf hp)
  have ha : (joined.setDrive
      { joined.drive with
        incomingShares :=
          joined.drive.incomingShares.filter (·.id ≠ payload.incomingShareId) }).Sound :=
    hj.less (.refl _) (.refl _) filter_sublist
  exact ha.log sameRows_logModification

lemma deleteFiles_sound {path} (hso : db.Sound) :
    (db.setDrive (db.drive.deleteFiles path userId height).1).Sound := by
  obtain ⟨hi, hs, hp⟩ :=
    (deleteFiles_rows : _ ∧ _ ∧ (db.drive.deleteFiles path userId height).1.incomingShares = _)
  exact hso.less (hi ▸ filter_sublist) (hs ▸ filter_sublist) (hp ▸ filter_sublist)

lemma changePath_sound {item newPath} {replace : Bool}
    (ran : db.drive.changePath item newPath replace height = .ok drive) (hs : db.Sound) :
    (db.setDrive drive).Sound := by
  obtain ⟨middle, hc, rfl, hd⟩ := changePath_ok ran
  have hcl : (db.setDrive middle).Sound := by
    rcases clearDestination_ok hc with ⟨_, rfl⟩ | ⟨_, rfl⟩
    · exact hs
    · exact deleteFiles_sound hs
  refine ⟨⟨?_, hd⟩, hcl.offers, ?_, hcl.shares, hcl.pending⟩
  · show ((middle.inodes.map (moveInode item newPath)).map (·.id)).Nodup
    rw [map_key_map]
    · exact hcl.keys.ids
    · intro row _
      obtain ⟨path, same⟩ := moveInode_eq item newPath row
      rw [same]
  · intro row' hm b hh
    obtain ⟨row, ht, rfl⟩ := mem_map.1 hm
    obtain ⟨path, same⟩ := moveInode_eq item newPath row
    rw [same] at hh
    exact hcl.inodes row ht b hh

lemma updateContent_sound {inodeId update updates}
    (ran : updateContent ctx userId inodeId update updates db = .ok db') (hs : db.Sound) :
    db'.Sound := by
  have hd := updateContent_ok ran
  obtain ⟨added, rows, hr⟩ := applyBlobInserts_blocks hd.storage
  have old : ∀ b, db.BlockExists b → db'.BlockExists b := by
    rintro b ⟨row, ht, hro⟩
    exact ⟨row, rows ▸ mem_append_left _ ht, hro⟩
  have new : ∀ op ∈ update, db'.BlockExists op.blobId := by
    intro op isOp
    obtain ⟨row, ha, hro⟩ := hr op (mem_toList.2 isOp)
    exact ⟨row, rows ▸ mem_append_right _ ha, hro⟩
  have keys : InodeKeys db'.drive.inodes := by
    rw [hd.inodes]
    refine (inodeKeys_map_data fun row => ?_).2 hs.keys
    split_ifs
    · exact ⟨_, rfl⟩
    · exact ⟨row.dataId, rfl⟩
  obtain ⟨change, ho, hc⟩ := hd.pending_map
  have hof : db'.drive.incomingShares.map (·.id) = db.drive.incomingShares.map (·.id) := by
    rw [ho]
    refine map_key_map fun row _ => ?_
    rcases hc row with same | ⟨_, _, _, hmo⟩
    · rw [same]
    · rw [hmo]
  refine ⟨keys, by rw [hof]; exact hs.offers, ?_, ?_, ?_⟩
  · rw [hd.inodes]
    intro row' hm b hh
    obtain ⟨row, ht, rfl⟩ := mem_map.1 hm
    split_ifs at hh with hch
    · obtain ⟨op, isOp, rfl⟩ := mem_map.1 hh
      exact new op isOp
    · exact old b (hs.inodes row ht b hh)
  · rw [hd.shares]
    intro row' hm
    obtain ⟨row, ht, rfl⟩ := mem_map.1 hm
    have hb := old _ (hs.shares row ht)
    cases hh : heldBlock db.drive inodeId userId with
    | none => exact hb
    | some block =>
      show db'.BlockExists (repointShare block (update.map (·.blobId)) row).dataBlockId
      unfold repointShare
      split_ifs with here
      · cases update with
        | none => exact here ▸ hb
        | some op => exact new op rfl
      · exact hb
  · rw [ho]
    intro row' hm
    obtain ⟨row, ht, rfl⟩ := mem_map.1 hm
    rcases hc row with same | ⟨op, isOp, _, hmo⟩
    · rw [same]
      exact old _ (hs.pending row ht)
    · rw [hmo]
      exact new op isOp

lemma modifyItem_sound {payload} (ran : modifyItem ctx payload db = .ok db')
    (hs : db.Sound) : db'.Sound := by
  obtain ⟨item, drive, middle, _, hmo, hu, rfl⟩ := modifyItem_ok ran
  have hp : (db.setDrive drive).Sound := by
    unfold applyPathChange at hmo
    split at hmo
    · cases hmo
      exact hs
    · exact changePath_sound hmo hs
  have hf : middle.Sound := by
    unfold applyContentUpdate at hu
    split at hu
    · cases hu
      exact hp
    · exact updateContent_sound hu hp
  exact hf.log sameRows_logModification

lemma process_sound {call : DriveCall}
    (ran : call.tx.process decode call.ctx call.signer db = .ok db')
    (hs : db.Sound) : db'.Sound := by
  obtain ⟨ctx, signer, tx⟩ := call
  cases tx with
  | insertFiles blobOps inodes =>
    obtain ⟨_, _, _, ran⟩ := insertFilesHandler_ok ran
    exact insertFiles_sound ran hs
  | modifyItem payload =>
    exact modifyItem_sound (modifyItemHandler_ok ran).2 hs
  | deleteFiles path userId =>
    rw [← (deleteFilesHandler_ok ran).2]
    exact deleteFiles_sound hs
  | acceptShare payload => exact acceptShare_sound ran hs
  | shareFile payload =>
    obtain ⟨_, hp, hu, rfl⟩ := shareFile_ok ran
    refine ⟨hs.keys, ?_, hs.inodes, hs.shares, ?_⟩
    · show ((db.drive.incomingShares ++ [payload.row]).map (·.id)).Nodup
      exact nodup_map_append_singleton.2 ⟨hs.offers, hu⟩
    exact forall_mem_append.2 ⟨hs.pending, forall_mem_singleton.2 hp⟩
  | declineShare shareId userId =>
    obtain ⟨_, _, _, _, rfl⟩ := declineShare_ok ran
    exact hs.less (.refl _) (.refl _) filter_sublist
  | unshare inodeId userId =>
    obtain ⟨_, _, rfl⟩ := unshare_ok ran
    exact hs.less (.refl _) filter_sublist filter_sublist

/-- A database that checks its foreign keys: other parts keep the blocks that drive rows name. -/
def CheckedStep (decode : AccessDecoder) (db : DriveDb) (event : DriveEvent) (db' : DriveDb) :
    Prop :=
  DriveStep decode db event db' ∧
    (event = .other → ∀ b, db.BlockExists b → (∃ row ∈ db.drive.inodes, row.dataId = some b) ∨
      (∃ row ∈ db.drive.shares, row.dataBlockId = b) ∨
      (∃ row ∈ db.drive.incomingShares, row.dataBlockId = b) → db'.BlockExists b)

lemma CheckedStep.sound_other (step : CheckedStep decode db .other db') (hs : db.Sound) :
    db'.Sound := by
  have same : db'.drive = db.drive := step.1
  have hk := step.2 rfl
  refine ⟨?_, ?_, ?_, ?_, ?_⟩ <;> rw [same]
  · exact hs.keys
  · exact hs.offers
  · exact fun row ht b hh => hk b (hs.inodes row ht b hh) (.inl ⟨row, ht, hh⟩)
  · exact fun row ht => hk _ (hs.shares row ht) (.inr (.inl ⟨row, ht, rfl⟩))
  · exact fun row ht => hk _ (hs.pending row ht) (.inr (.inr ⟨row, ht, rfl⟩))

lemma run_sound {db₀ past} (hst : db₀.drive = .empty)
    (run : Reaches (CheckedStep decode) db₀ past db) : db.Sound := by
  refine run.invariant_state DriveDb.Sound ?_ ?_
  · refine ⟨?_, ?_, ?_, ?_, ?_⟩ <;> rw [hst]
    · exact ⟨.nil, .nil⟩
    · exact .nil
    · exact forall_mem_nil _
    · exact forall_mem_nil _
    · exact forall_mem_nil _
  · intro db event db' hs ht
    cases event with
    | tx call => exact process_sound ht.1 hs
    | other => exact ht.sound_other hs

end

/-- A step of a run without events of other parts. -/
def driveNext (decode : AccessDecoder) (db : DriveDb) : DriveEvent → Option DriveDb
  | .tx call => (call.tx.process decode call.ctx call.signer db).toOption
  | .other => none

variable {event : DriveEvent}

lemma driveNext_sound (hn : driveNext decode db event = some db') :
    DriveStep decode db event db' := by
  cases event with
  | tx call => exact toOption_eq_some.1 hn
  | other => cases hn

lemma driveNext_checked (hn : driveNext decode db event = some db') :
    CheckedStep decode db event db' := by
  refine ⟨driveNext_sound hn, ?_⟩
  rintro rfl
  cases hn

def sampleInode (id owner : Nat) (path : Path) (inodeType : InodeType) (dataId : Option Nat) :
    Inode :=
  ⟨⟨BitVec.ofNat 128 id⟩, owner, path, inodeType, dataId.map fun b => ⟨BitVec.ofNat 128 b⟩⟩

def sampleCtx (height : Nat) : ApplyCtx := ⟨fun _ => true, height⟩

def emptyDrive : DriveDb := ⟨[.sample 1, .sample 2, .sample 3], .empty, .empty⟩

def asUser (height userId : Nat) (tx : DriveTx) : DriveEvent :=
  .tx ⟨sampleCtx height, some userId, tx⟩

/-- A small blob with one wrap, for the user's key. -/
def sampleBlobOp (b userId : Nat) : BlobInsertOp where
  blobId := ⟨BitVec.ofNat 128 b⟩
  integrityHash := .replicate 32 0
  addedBytes := 0
  fileSize := b
  fragments := []
  access := [⟨⟨BitVec.ofNat 128 b⟩, (UserRow.sample userId).x25519Pubkey, .replicate 32 1, [1]⟩]

/-- Wraps for user 2, told apart by their block. -/
def sampleDecode (wrap : Bytes) : Option BlobAccess :=
  wrap.head?.map fun b =>
    ⟨⟨BitVec.ofNat 128 b.toNat⟩, (UserRow.sample 2).x25519Pubkey, .replicate 32 2, [2]⟩

def sampleOffer (shareId b sender recipient : Nat) : ShareFilePayload :=
  ⟨⟨BitVec.ofNat 128 shareId⟩, ⟨BitVec.ofNat 128 b⟩, sender, recipient, [UInt8.ofNat b], [], []⟩

/-- User 1 uploads `/a` on block 10 and shares it; user 2 takes it to `/b`. -/
def sharedFile : List DriveEvent :=
  [asUser 1 1 (.insertFiles [sampleBlobOp 10 1] [sampleInode 1 1 ['/', 'a'] .file (some 10)]),
    asUser 2 1 (.shareFile (sampleOffer 50 10 1 2)),
    asUser 3 2 (.acceptShare ⟨⟨50⟩, 2, ['/', 'b'], ⟨2⟩, []⟩)]

end HopNet
