import HopNet.Drive.Handlers

namespace HopNet

open Fallible SlashPath List DriveTables

variable {userId : Int} {inodeId : CustomUUID} {updates : Option (List IncomingShareUpdate)}

namespace DriveTables

variable {t t' : DriveTables} {path : Path} {ownerId : Int} {height : Nat} {rows : List Inode}
  {b : BlobId}

/-- Two states of the tables that differ in the log only. -/
structure SameRows (t t' : DriveTables) : Prop where
  inodes : t'.inodes = t.inodes
  incomingShares : t'.incomingShares = t.incomingShares
  shares : t'.shares = t.shares

lemma SameRows.refl (t : DriveTables) : SameRows t t := ⟨rfl, rfl, rfl⟩

lemma SameRows.trans {a b c} (hf : SameRows a b) (hs : SameRows b c) : SameRows a c :=
  ⟨hs.inodes.trans hf.inodes, hs.incomingShares.trans hf.incomingShares, hs.shares.trans hf.shares⟩

lemma sameRows_logOne : SameRows t (t.logOne inodeId ownerId height) := by
  unfold logOne
  split_ifs
  · exact .refl t
  · exact ⟨rfl, rfl, rfl⟩

lemma sameRows_foldl {log : DriveTables → Inode → DriveTables}
    (step : ∀ {t row}, SameRows t (log t row)) : SameRows t (rows.foldl log t) := by
  induction rows generalizing t with
  | nil => exact .refl t
  | cons row rest ih => exact step.trans ih

lemma sameRows_logInodes : SameRows t (t.logInodes rows height) := sameRows_foldl sameRows_logOne

lemma sameRows_logAncestors : SameRows t (t.logAncestorModifications path ownerId height) :=
  sameRows_logInodes

lemma sameRows_logModification {oldPath newPath} :
    SameRows t (t.logModification inodeId ownerId oldPath newPath height) := by
  have hf : SameRows t (t.logOne inodeId ownerId height) := sameRows_logOne
  cases oldPath with
  | none =>
    cases newPath with
    | none => exact hf
    | some new => exact hf.trans sameRows_logAncestors
  | some old =>
    cases newPath with
    | none => exact hf.trans sameRows_logAncestors
    | some new => exact (hf.trans sameRows_logAncestors).trans sameRows_logAncestors

lemma sameRows_logSharers : SameRows t (t.logSharers userId b height) :=
  sameRows_foldl sameRows_logModification

/-- The blocks of the rows that a delete takes. -/
def takenBlocks (t : DriveTables) (path : Path) (userId : Int) : List BlobId :=
  ((t.inodes.filter fun row => Selected path userId row).filterMap (·.dataId)).dedup

lemma mem_takenBlocks :
    b ∈ t.takenBlocks path userId ↔ ∃ row ∈ t.inodes, Selected path userId row ∧
      row.dataId = some b := by
  simp [takenBlocks, mem_filterMap, and_assoc]

lemma filter_leave {α : Type} (userId : Int) (b : BlobId) (rows : List α) (user : α → Int)
    (block : α → BlobId) (rest : List BlobId) :
    (rows.filter fun row => ¬ (block row = b ∧ user row = userId)).filter
        (fun row => ¬ (user row = userId ∧ block row ∈ rest)) =
      rows.filter fun row => ¬ (user row = userId ∧ block row ∈ b :: rest) := by
  rw [filter_filter]
  refine filter_congr fun row _ => ?_
  by_cases hm : user row = userId <;> by_cases hh : block row = b <;> simp [hm, hh]

lemma leaveShares_foldl (blocks : List BlobId) (t : DriveTables) :
    blocks.foldl (leaveShares userId) t =
    { t with
      shares := t.shares.filter fun row => ¬ (row.userId = userId ∧ row.dataBlockId ∈ blocks)
      incomingShares :=
        t.incomingShares.filter fun row => ¬ (row.senderId = userId ∧
          row.dataBlockId ∈ blocks) } := by
  induction blocks generalizing t with
  | nil => simp
  | cons b rest ih =>
    have shares := filter_leave userId b t.shares (·.userId) (·.dataBlockId) rest
    have hi := filter_leave userId b t.incomingShares (·.senderId) (·.dataBlockId) rest
    rw [foldl_cons, ih, ← shares, ← hi]
    rfl

/-- A delete is three filters, also where it finds nothing. -/
lemma deleteFiles_rows : (t.deleteFiles path userId height).1.inodes =
      t.inodes.filter (fun row => ¬ Selected path userId row) ∧
    (t.deleteFiles path userId height).1.shares = t.shares.filter
      (fun row => ¬ (row.userId = userId ∧ row.dataBlockId ∈ t.takenBlocks path userId)) ∧
    (t.deleteFiles path userId height).1.incomingShares = t.incomingShares.filter
      fun row => ¬ (row.senderId = userId ∧ row.dataBlockId ∈ t.takenBlocks path userId) := by
  have hl : SameRows t (t.logAncestorModifications path userId height) := sameRows_logAncestors
  unfold deleteFiles
  generalize t.logAncestorModifications path userId height = base at hl
  simp only [hl.inodes]
  split_ifs with hn
  · have hk : ∀ row ∈ t.inodes, ¬ Selected path userId row := by
      intro row ht hs
      exact filter_eq_nil_iff.1 hn row ht (by simpa using hs)
    have hnb : t.takenBlocks path userId = [] := by simp [takenBlocks, hn]
    refine ⟨?_, ?_, ?_⟩
    · rw [hl.inodes, eq_comm, filter_eq_self]
      intro row ht
      simpa using hk row ht
    · simp [hl.shares, hnb]
    · simp [hl.incomingShares, hnb]
  · have hd : SameRows t
        (base.logInodes (t.inodes.filter fun row => Selected path userId row) height) :=
          hl.trans sameRows_logInodes
    simp only [leaveShares_foldl, hd.inodes, hd.shares, hd.incomingShares]
    exact ⟨trivial, rfl, rfl⟩

variable {old nid : BlobId} {new : Option BlobId}

def rewrapped (nid : BlobId) (updates : List IncomingShareUpdate) (row : IncomingShareRow) :
    IncomingShareRow :=
  updates.foldl (fun row update =>
    if row.id = update.incomingShareId then
      { row with dataBlockId := nid, fileAccess := update.newFileAccessBlob }
    else row) row

lemma rewrapped_cases (nid : BlobId) (updates : List IncomingShareUpdate) (row : IncomingShareRow) :
    ((∀ update ∈ updates, row.id ≠ update.incomingShareId) ∧ rewrapped nid updates row = row) ∨
      ∃ update ∈ updates, row.id = update.incomingShareId ∧ rewrapped nid updates row =
        { row with dataBlockId := nid, fileAccess := update.newFileAccessBlob } := by
  induction updates generalizing row with
  | nil => exact .inl ⟨forall_mem_nil _, rfl⟩
  | cons first rest ih =>
    have hs : rewrapped nid (first :: rest) row = rewrapped nid rest
        (if row.id = first.incomingShareId then
          { row with dataBlockId := nid, fileAccess := first.newFileAccessBlob } else row) := rfl
    by_cases hh : row.id = first.incomingShareId
    · rw [if_pos hh] at hs
      rw [hs]
      rcases ih { row with dataBlockId := nid, fileAccess := first.newFileAccessBlob } with
        ⟨_, same⟩ | ⟨update, hl, hn, hm⟩
      · exact .inr ⟨first, mem_cons_self, hh, same⟩
      · exact .inr ⟨update, mem_cons_of_mem _ hl, hn, hm⟩
    · rw [if_neg hh] at hs
      rw [hs]
      rcases ih row with ⟨hu, same⟩ | ⟨update, hl, hn, hm⟩
      · refine .inl ⟨?_, same⟩
        rw [forall_mem_cons]
        exact ⟨hh, hu⟩
      · exact .inr ⟨update, mem_cons_of_mem _ hl, hn, hm⟩

lemma updateIncoming_foldl (updates : List IncomingShareUpdate) (nid : BlobId) (t : DriveTables) :
    updates.foldl
    (fun t update =>
      t.updateIncomingShareDataBlock update.incomingShareId nid update.newFileAccessBlob)
    t = { t with incomingShares := t.incomingShares.map (rewrapped nid updates) } := by
  induction updates generalizing t with
  | nil =>
    have hs : rewrapped nid [] = id := rfl
    rw [hs, map_id]
    rfl
  | cons update rest ih =>
    rw [foldl_cons, ih, updateIncomingShareDataBlock, map_map]
    rfl

lemma updateSharesDataBlock_ok : t.updateSharesDataBlock old nid = .ok t' ↔
    t' = { t with shares := t.shares.map fun row =>
      if row.dataBlockId = old then { row with dataBlockId := nid } else row } ∧
        t'.shares.Nodup := by
  rw [updateSharesDataBlock, require_bind, pure_eq_ok, and_comm, eq_comm]
  exact and_congr_right fun hs => by rw [hs]

lemma sharersOf_eq_nil : t.sharersOf b = [] ↔ ∀ row ∈ t.shares, row.dataBlockId ≠ b := by
  simp [sharersOf, filter_eq_nil_iff]

lemma mem_sharersOf : userId ∈ t.sharersOf b ↔ (⟨b, userId⟩ : ShareRow) ∈ t.shares := by
  simp only [sharersOf, mem_map, mem_filter, decide_eq_true_eq]
  constructor
  · rintro ⟨row, ⟨hs, rfl⟩, rfl⟩
    exact hs
  · intro hs
    exact ⟨_, ⟨hs, rfl⟩, rfl⟩

/-- The shares of a block after its content moved to another. -/
def repointShare (old : BlobId) (new : Option BlobId) (row : ShareRow) : ShareRow :=
  if row.dataBlockId = old then { row with dataBlockId := new.getD old } else row

structure Propagated (t t' : DriveTables) (userId : Int) (old : BlobId) (new : Option BlobId)
    (updates : Option (List IncomingShareUpdate)) : Prop where
  inodes : t'.inodes = t.inodes.map fun row =>
    if row.dataId = some old ∧ row.ownerId ≠ userId ∧ row.ownerId ∈ t.sharersOf old then
      { row with dataId := new }
    else row
  shares : t'.shares = t.shares.map (repointShare old new)
  incomingShares : t'.incomingShares =
    if t.sharersOf old = [] then t.incomingShares
    else match new with
      | none => t.incomingShares
      | some nid => t.incomingShares.map (rewrapped nid (updates.getD []))

lemma propagate_ok (ran : t.propagate userId old new updates height = .ok t') :
    Propagated t t' userId old new updates := by
  unfold propagate at ran
  split_ifs at ran with hn
  · cases ran
    have hns := sharersOf_eq_nil.1 hn
    refine ⟨?_, ?_, by rw [if_pos hn]⟩
    · simp [hn]
    · rw [eq_comm, ← map_id t.shares, map_map]
      exact map_congr_left fun row hs => if_neg (hns row hs)
  · cases new with
    | none =>
      cases ran
      have hk : repointShare old none = id := by
        funext row
        unfold repointShare
        split_ifs with hh
        · rw [Option.getD_none, ← hh]
          rfl
        · rfl
      exact ⟨rfl, by rw [hk, map_id]; rfl, by rw [if_neg hn]; rfl⟩
    | some nid =>
      simp only [bind_eq_ok, updateSharesDataBlock_ok, pure_eq_ok] at ran
      obtain ⟨middle, ⟨rfl, _⟩, rfl⟩ := ran
      have hl : SameRows (t.repointSharers userId old (some nid))
          ((t.repointSharers userId old (some nid)).logSharers userId nid height) :=
        sameRows_logSharers
      rw [updateIncoming_foldl]
      refine ⟨hl.inodes, ?_, ?_⟩
      · rw [hl.shares]
        rfl
      · rw [if_neg hn, hl.incomingShares]
        rfl

end DriveTables

variable {ctx : ApplyCtx} {db db' : DriveDb} {update : Option BlobInsertOp}

lemma modifyItem_ok {payload} (ran : modifyItem ctx payload db = .ok db') :
    ∃ item drive middle, db.drive.inodeOf payload.inodeId payload.userId = some item ∧
      applyPathChange item payload.newEncryptedPath payload.replace ctx.height db.drive =
      .ok drive ∧ applyContentUpdate ctx payload (db.setDrive drive) = .ok middle ∧
      db' = middle.setDrive (middle.drive.logModification payload.inodeId payload.userId
        (payload.newEncryptedPath.map fun _ => item.path)
        (some (payload.newEncryptedPath.getD item.path)) ctx.height) := by
  unfold modifyItem at ran
  cases hf : db.drive.inodeOf payload.inodeId payload.userId with
  | none => simp [hf] at ran
  | some item =>
    simp only [hf, bind_eq_ok, pure_eq_ok] at ran
    obtain ⟨drive, hm, middle, hu, rfl⟩ := ran
    exact ⟨item, drive, middle, rfl, hm, hu, rfl⟩

/-- The block whose content an update replaces. -/
def heldBlock (t : DriveTables) (inodeId : CustomUUID) (userId : Int) : Option BlobId :=
  (t.inodeOf inodeId userId).bind (·.dataId)

/-- Another accepted sharer's inode of the block that the updated inode holds. -/
def FollowsUpdate (t : DriveTables) (inodeId : CustomUUID) (userId : Int) (row : Inode) : Prop :=
  ∃ b ∈ heldBlock t inodeId userId, row.dataId = some b ∧ row.ownerId ≠ userId ∧
    row.ownerId ∈ t.sharersOf b
deriving Decidable

structure ContentUpdated (ctx : ApplyCtx) (userId : Int) (inodeId : CustomUUID)
    (update : Option BlobInsertOp) (updates : Option (List IncomingShareUpdate))
    (db db' : DriveDb) : Prop where
  storage : applyBlobInserts ctx update.toList db.storage = .ok db'.storage
  inodes : db'.drive.inodes = db.drive.inodes.map fun row =>
    if (row.id = inodeId ∧ row.ownerId = userId) ∨ FollowsUpdate db.drive inodeId userId row then
      { row with dataId := update.map (·.blobId) }
    else row
  shares : db'.drive.shares = db.drive.shares.map fun row =>
    match heldBlock db.drive inodeId userId with
    | none => row
    | some old => repointShare old (update.map (·.blobId)) row
  incomingShares : db'.drive.incomingShares =
    match heldBlock db.drive inodeId userId, update with
    | some old, some op =>
      if db.drive.sharersOf old = [] then db.drive.incomingShares
      else db.drive.incomingShares.map (rewrapped op.blobId (updates.getD []))
    | _, _ => db.drive.incomingShares

lemma updateContent_ok (ran : updateContent ctx userId inodeId update updates db = .ok db') :
    ContentUpdated ctx userId inodeId update updates db db' := by
  unfold updateContent at ran
  rw [bind_eq_ok] at ran
  obtain ⟨storage, hr, ran⟩ := ran
  have hb : (db.drive.inodeOf inodeId userId).bind (·.dataId) =
      heldBlock db.drive inodeId userId := rfl
  rw [hb] at ran
  split at ran
  · rename_i hh
    cases ran
    refine ⟨hr, ?_, ?_, by rw [hh]; rfl⟩
    · simp [setData, FollowsUpdate, hh]
    · simp [setData, hh]
  rename_i old hh
  simp only [bind_eq_ok, pure_eq_ok] at ran
  obtain ⟨drive, hp, rfl⟩ := ran
  have hd := propagate_ok hp
  refine ⟨hr, ?_, ?_, ?_⟩
  · rw [hd.inodes]
    show List.map _ (List.map _ _) = _
    rw [map_map]
    refine map_congr_left fun row _ => ?_
    have hf : FollowsUpdate db.drive inodeId userId row ↔
        row.dataId = some old ∧ row.ownerId ≠ userId ∧ row.ownerId ∈ db.drive.sharersOf old := by
      simp [FollowsUpdate, hh]
    -- The user's own rows are not among the sharers', so the two writes do not meet.
    by_cases hm : row.id = inodeId ∧ row.ownerId = userId
    · simp [hm]
    · by_cases ht : FollowsUpdate db.drive inodeId userId row
      · rw [if_pos (.inr ht)]
        have hc := hf.1 ht
        simp only [Function.comp_apply, if_neg hm]
        exact if_pos hc
      · rw [if_neg (not_or.2 ⟨hm, ht⟩)]
        simp only [Function.comp_apply, if_neg hm]
        exact if_neg fun hc => ht (hf.2 hc)
  · rw [hh]
    exact hd.shares
  · rw [hh]
    have hi := hd.incomingShares
    cases update with
    | none =>
      rw [hi]
      exact ite_self _
    | some op => exact hi

/-- The pending shares are rewritten row by row, to the new block. -/
lemma ContentUpdated.pending_map (hd : ContentUpdated ctx userId inodeId update updates db db') :
    ∃ change, db'.drive.incomingShares = db.drive.incomingShares.map change ∧
      ∀ row, change row = row ∨ ∃ op ∈ update, ∃ access,
        change row = { row with dataBlockId := op.blobId, fileAccess := access } := by
  have hr := hd.incomingShares
  have hu : db.drive.incomingShares = db.drive.incomingShares.map id := by simp
  cases hh : heldBlock db.drive inodeId userId with
  | none =>
    rw [hh] at hr
    exact ⟨id, hr.trans hu, fun _ => .inl rfl⟩
  | some old =>
    cases update with
    | none =>
      rw [hh] at hr
      exact ⟨id, hr.trans hu, fun _ => .inl rfl⟩
    | some op =>
      rw [hh] at hr
      simp only at hr
      split_ifs at hr
      · exact ⟨id, hr.trans hu, fun _ => .inl rfl⟩
      · refine ⟨_, hr, fun row => ?_⟩
        rcases rewrapped_cases op.blobId (updates.getD []) row with
          ⟨_, hs⟩ | ⟨change, _, _, hm⟩
        · exact .inl hs
        · exact .inr ⟨op, rfl, _, hm⟩

lemma inodeOf_some {t : DriveTables} {item} (hf : t.inodeOf inodeId userId = some item) :
    item ∈ t.inodes ∧ item.id = inodeId ∧ item.ownerId = userId := by
  have hn : item.id = inodeId ∧ item.ownerId = userId := by simpa using find?_some hf
  exact ⟨mem_of_find?_eq_some hf, hn⟩

end HopNet
