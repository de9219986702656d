import HopNet.Drive.Steps

namespace HopNet

open Fallible Runs List DriveDb DriveTables

namespace DriveTables

variable (t : DriveTables) (userId : Int)

def inodesOfOthers : List Inode :=
  t.inodes.filter (·.ownerId ≠ userId)

def sharesOfOthers : List ShareRow :=
  t.shares.filter (·.userId ≠ userId)

/-- The offers the user neither made nor received. -/
def pendingOfOthers : List IncomingShareRow :=
  t.incomingShares.filter fun row => row.senderId ≠ userId ∧ row.recipientId ≠ userId

end DriveTables

/-- The rows of others are as they were. -/
structure SameOthers (userId : Int) (t t' : DriveTables) : Prop where
  inodes : t'.inodesOfOthers userId = t.inodesOfOthers userId
  shares : t'.sharesOfOthers userId = t.sharesOfOthers userId
  pending : t'.pendingOfOthers userId = t.pendingOfOthers userId

/-- A user's content update on an own inode holding `b`, which the user shares. -/
def SharedUpdate (db : DriveDb) (userId : Int) (tx : DriveTx) (b : BlobId) (new : Option BlobId) :
    Prop :=
  ∃ payload item update, tx = .modifyItem payload ∧ payload.contentUpdate = some update ∧
    db.drive.inodeOf payload.inodeId userId = some item ∧ item.dataId = some b ∧
    new = update.map (·.blobId) ∧ userId ∈ db.drive.sharersOf b

/-- The others' rows are as they were, but for a shared update's re-pointing and the sender's row of
an accepted share. -/
structure Isolated (userId : Int) (tx : DriveTx) (db db' : DriveDb) : Prop where
  inodes : ∃ r, db'.drive.inodesOfOthers userId = (db.drive.inodesOfOthers userId).map r ∧
    ∀ row ∈ db.drive.inodesOfOthers userId, r row = row ∨ ∃ b new, SharedUpdate db userId tx b new ∧
      row.dataId = some b ∧ row.ownerId ∈ db.drive.sharersOf b ∧ r row = { row with dataId := new }
  shares : ∃ r added, db'.drive.sharesOfOthers userId = (db.drive.sharesOfOthers userId).map
    r ++ added ∧ (∀ row ∈ db.drive.sharesOfOthers userId, r row = row ∨ ∃ nid,
      SharedUpdate db userId tx row.dataBlockId (some nid) ∧
      r row = { row with dataBlockId := nid }) ∧
    (added = [] ∨ ∃ payload share, tx = .acceptShare payload ∧
      db.drive.incomingShareById payload.incomingShareId = some share ∧
      added = [⟨share.dataBlockId, share.senderId⟩])
  pending : ∃ r, db'.drive.pendingOfOthers userId = (db.drive.pendingOfOthers userId).map r ∧
    ∀ row ∈ db.drive.pendingOfOthers userId, r row = row ∨ ∃ nid access,
      SharedUpdate db userId tx row.dataBlockId (some nid) ∧
        r row = { row with dataBlockId := nid, fileAccess := access }

section

variable (t : DriveTables) (payload : ModifyItemPayload)

/-- The row is deleted with the inode that the move replaces. -/
def Cleared (row : Inode) : Prop :=
  ∃ newPath ∈ payload.newEncryptedPath, Selected newPath payload.userId row ∧
    ∃ occupant ∈ t.inodes, occupant.path = newPath ∧ occupant.ownerId = payload.userId ∧
      occupant.id ≠ payload.inodeId
deriving Decidable

/-- The block of the item, unless the move deletes the item itself. -/
def updatedBlock : Option BlobId :=
  (t.inodeOf payload.inodeId payload.userId).bind fun item =>
    if Cleared t payload item then none else item.dataId

/-- The user leaves a block with the inode that the move replaces. -/
def LeavesBlock (b : BlobId) : Prop :=
  ∃ row ∈ t.inodes, Cleared t payload row ∧ row.dataId = some b
deriving Decidable

def remainingSharers (b : BlobId) : List Int :=
  (t.sharersOf b).filter fun w => ¬ (w = payload.userId ∧ LeavesBlock t payload b)

/-- A content update reaches others' rows only through a block that its user shares, and its pending
shares are the user's own or of that block. -/
def DriveTx.StaysInside (db : DriveDb) : DriveTx → Prop
  | .modifyItem payload =>
    ∀ update, payload.contentUpdate = some update → ∀ b ∈ updatedBlock db.drive payload,
      (payload.userId ∈ db.drive.sharersOf b ∨ db.drive.sharersOf b = [] ∨
        (update = none ∧
          ∀ row ∈ db.drive.inodes, row.dataId = some b → row.ownerId ∉ db.drive.sharersOf b)) ∧
      (update ≠ none → remainingSharers db.drive payload b ≠ [] →
        ∀ change ∈ payload.incomingShareUpdates.getD [], ∀ row ∈ db.drive.incomingShares,
          row.id = change.incomingShareId → row.senderId ≠ payload.userId →
          row.recipientId ≠ payload.userId → row.dataBlockId = b)
  | _ => True

end

variable {t t' : DriveTables} {userId : Int} {tx : DriveTx}

lemma filter_map_of_same {α : Type} {p : α → Prop} [DecidablePred p] {f : α → α} {rows : List α}
    (hs : ∀ row ∈ rows, p (f row) ↔ p row) :
    (rows.map f).filter (fun row => p row) = (rows.filter fun row => p row).map f := by
  rw [filter_map]
  congr 1
  refine filter_congr fun row hr => ?_
  rw [Function.comp_apply, decide_eq_decide]
  exact hs row hr

lemma others_filter {α : Type} {p q : α → Prop} [DecidablePred p] [DecidablePred q]
    {rows rows' : List α} (own : ∀ row ∈ rows, ¬ q row → ¬ p row)
    (hr : rows' = rows.filter fun row => q row) :
    (rows'.filter fun row => p row) = rows.filter fun row => p row :=
  hr ▸ Table.filter_later_filter own

lemma SameOthers.isolated {db db' : DriveDb} (same : SameOthers userId db.drive db'.drive) :
    Isolated userId tx db db' :=
  ⟨⟨id, by rw [map_id, same.inodes], fun _ _ => .inl rfl⟩,
    ⟨id, [], by rw [map_id, append_nil, same.shares], fun _ _ => .inl rfl, .inl rfl⟩,
    ⟨id, by rw [map_id, same.pending], fun _ _ => .inl rfl⟩⟩

variable {decode : AccessDecoder} {ctx : ApplyCtx} {db db' : DriveDb} {height : Nat}
  {row : IncomingShareRow}

section

variable {share : IncomingShareRow} {payload : AcceptSharePayload} {shareId : CustomUUID}

lemma addInode_others {inode} (hm : inode.ownerId = userId) :
    (db.addInode inode).drive.inodesOfOthers userId = db.drive.inodesOfOthers userId := by
  show (db.drive.inodes ++ [inode]).filter _ = _
  simp [DriveTables.inodesOfOthers, hm]

/-- Only inodes are written, and those the user's own. -/
def OwnInodes (userId : Int) (t t' : DriveTables) : Prop :=
  t'.inodesOfOthers userId = t.inodesOfOthers userId ∧ t'.shares = t.shares ∧
    t'.incomingShares = t.incomingShares

lemma insertFiles_isolated {blobOps inodes} (hm : ∀ inode ∈ inodes, inode.ownerId = userId)
    (ran : insertFiles ctx blobOps inodes db = .ok db') :
    Isolated userId (.insertFiles blobOps inodes) db db' := by
  simp only [insertFiles, bind_eq_ok] at ran
  obtain ⟨storage, _, ran⟩ := ran
  have same : OwnInodes userId db.drive db'.drive := by
    refine foldlM_invariant (OwnInodes userId db.drive ·.drive) inodes ?_ ⟨rfl, rfl, rfl⟩ ran
    intro inode hb s s' same step
    rcases insertInode_ok step with ⟨_, rfl⟩ | ⟨_, _, rfl⟩
    · exact same
    · have hl : SameRows (s.addInode inode).drive (s.insertLogged ctx.height inode).drive :=
        insertLogged_rows
      refine ⟨?_, hl.shares.trans same.2.1, hl.incomingShares.trans same.2.2⟩
      rw [DriveTables.inodesOfOthers, hl.inodes]
      exact (addInode_others (hm inode hb)).trans same.1
  exact SameOthers.isolated ⟨same.1, congrArg (filter _) same.2.1, congrArg (filter _) same.2.2⟩

lemma deleteFiles_others {t path} : SameOthers userId t (deleteFiles t path userId height).1 := by
  obtain ⟨hi, hsh, hp⟩ :=
    (deleteFiles_rows : _ ∧ _ ∧ (t.deleteFiles path userId height).1.incomingShares = _)
  refine ⟨others_filter ?_ hi, others_filter ?_ hsh, others_filter ?_ hp⟩
  · intro row _ hs other
    exact other (not_not.1 hs).1
  · intro row _ hl other
    exact other (not_not.1 hl).1
  · intro row _ hl other
    exact other.1 (not_not.1 hl).1

lemma DriveDb.Sound.offer_unique (hso : db.Sound)
    (hf : db.drive.incomingShareById shareId = some share)
    (ht : row ∈ db.drive.incomingShares) (hn : row.id = shareId) : row = share := by
  have hs : share.id = shareId := by simpa using find?_some hf
  exact inj_on_of_nodup_map hso.offers ht (mem_of_find?_eq_some hf) (hn.trans hs.symm)

/-- An answered offer was the user's own. -/
lemma answered_others (hs : db.Sound)
    {drive : DriveTables} (hf : db.drive.incomingShareById shareId = some share)
    (hp : share.senderId = userId ∨ share.recipientId = userId)
    (hr : drive.incomingShares = db.drive.incomingShares.filter (·.id ≠ shareId)) :
    drive.pendingOfOthers userId = db.drive.pendingOfOthers userId := by
  refine others_filter ?_ hr
  intro row ht hd other
  rw [hs.offer_unique hf ht (not_not.1 hd)] at other
  exact hp.elim other.1 other.2

lemma insertSharedInode_others (ran : insertSharedInode payload share db = .ok db') :
    OwnInodes payload.recipientId db.drive db'.drive := by
  refine insertSharedInode_invariant (P := (OwnInodes payload.recipientId db.drive ·.drive)) ?_ ran
    ⟨rfl, rfl, rfl⟩
  intro s inode same hm _ _
  exact ⟨(addInode_others hm).trans same.1, same.2⟩

lemma insertShareMember_rows {b} {w : Int} (ran : insertShareMember b db w = .ok db') :
    db'.drive.inodes = db.drive.inodes ∧ db'.drive.incomingShares = db.drive.incomingShares ∧
      ∃ added, db'.drive.shares = db.drive.shares ++ added ∧ (added = [] ∨ added = [⟨b, w⟩]) := by
  rcases insertShareMember_ok ran with ⟨_, rfl⟩ | ⟨_, _, rfl⟩
  · exact ⟨rfl, rfl, [], (append_nil _).symm, .inl rfl⟩
  · exact ⟨rfl, rfl, _, rfl, .inr rfl⟩

lemma acceptShare_isolated (hso : db.Sound) {signer : Option Int}
    (ran : acceptShare decode ctx signer payload db = .ok db') :
    Isolated payload.recipientId (.acceptShare payload) db db' := by
  obtain ⟨share, storage, placed, sent, joined, _, hf, hr, _, hi, hfi, hsd, rfl⟩ :=
    acceptShare_ok ran
  obtain ⟨ho, hss, hs⟩ := insertSharedInode_others hi
  obtain ⟨hi1, hp1, sender, hs1, hse⟩ := insertShareMember_rows hfi
  obtain ⟨hi2, hp2, own, hs2, how⟩ := insertShareMember_rows hsd
  let answered : DriveTables :=
    { joined.drive with
      incomingShares :=
        joined.drive.incomingShares.filter (·.id ≠ payload.incomingShareId) }
  let logged := answered.logModification payload.inodeId payload.recipientId none
    (some payload.encryptedPath) ctx.height
  have hl : SameRows answered logged := sameRows_logModification
  refine ⟨⟨id, ?_, fun _ _ => .inl rfl⟩,
    ⟨id, sender.filter (·.userId ≠ payload.recipientId), ?_, fun _ _ => .inl rfl, ?_⟩,
    ⟨id, ?_, fun _ _ => .inl rfl⟩⟩
  · have rows : logged.inodes = placed.drive.inodes := hl.inodes.trans (hi2.trans hi1)
    exact (congrArg (filter _) rows).trans (ho.trans (map_id _).symm)
  · have hog : own.filter (·.userId ≠ payload.recipientId) = [] := by
      rcases how with rfl | rfl <;> simp
    have rows : logged.shares = db.drive.shares ++ sender ++ own := by
      rw [hl.shares, ← hss, ← hs1, ← hs2]
    rw [map_id]
    show filter _ logged.shares = _
    rw [rows, filter_append, hog, append_nil, filter_append]
    rfl
  · rcases hse with rfl | rfl
    · exact .inl rfl
    · by_cases self : share.senderId = payload.recipientId
      · exact .inl (by simp [self])
      · exact .inr ⟨payload, share, rfl, hf, by simp [self]⟩
  · rw [map_id]
    refine answered_others hso hf (.inr hr) (hl.incomingShares.trans ?_)
    show filter _ joined.drive.incomingShares = _
    rw [hp2, hp1, hs]

end

section

variable {payload : ModifyItemPayload} {item : Inode} {b : BlobId} {update : Option BlobInsertOp}

/-- The rows of the replaced subtree go, and paths of the user's own rows are written. -/
structure PathChanged (payload : ModifyItemPayload) (t t' : DriveTables) : Prop where
  inodes : ∃ f : Inode → Inode, (∀ row, ∃ path, f row = { row with path := path }) ∧
    (∀ row, row.ownerId ≠ payload.userId → f row = row) ∧
    t'.inodes = (t.inodes.filter fun row => ¬ Cleared t payload row).map f
  shares : t'.shares =
    t.shares.filter fun row => ¬ (row.userId = payload.userId ∧
      LeavesBlock t payload row.dataBlockId)
  pending : t'.incomingShares = t.incomingShares.filter
    fun row => ¬ (row.senderId = payload.userId ∧ LeavesBlock t payload row.dataBlockId)

lemma PathChanged.of_kept {f : Inode → Inode} (hn : ∀ row, ¬ Cleared t payload row)
    (path : ∀ row, ∃ path, f row = { row with path := path })
    (ho : ∀ row, row.ownerId ≠ payload.userId → f row = row) :
    PathChanged payload t { t with inodes := t.inodes.map f } := by
  have hs : ∀ b, ¬ LeavesBlock t payload b := by
    rintro b ⟨row, _, hc, _⟩
    exact hn row hc
  refine ⟨⟨f, path, ho, ?_⟩, ?_, ?_⟩
  · show t.inodes.map f = _
    congr 1
    exact (filter_eq_self.2 fun row _ => by simpa using hn row).symm
  · exact (filter_eq_self.2 fun row _ => by simp [hs]).symm
  · exact (filter_eq_self.2 fun row _ => by simp [hs]).symm

lemma applyPathChange_rows (how : item.ownerId = payload.userId) (hit : item.id = payload.inodeId)
    (ran : applyPathChange item payload.newEncryptedPath payload.replace height t = .ok t') :
    PathChanged payload t t' := by
  cases hm : payload.newEncryptedPath with
  | none =>
    rw [hm] at ran
    cases ran
    have hn : ∀ row, ¬ Cleared t payload row := by
      rintro row ⟨newPath, hi, _⟩
      rw [hm] at hi
      cases hi
    have hk : PathChanged payload t { t with inodes := t.inodes.map id } :=
      .of_kept hn (fun row => ⟨row.path, rfl⟩) fun _ _ => rfl
    rwa [map_id] at hk
  | some newPath =>
    rw [hm] at ran
    obtain ⟨middle, hcl, rfl, _⟩ := changePath_ok ran
    have ho : ∀ row : Inode, row.ownerId ≠ payload.userId →
        moveInode item newPath row = row := by
      intro row hot
      exact if_neg fun hmo => hot (hmo.1.trans how)
    rcases clearDestination_ok hcl with ⟨hf, rfl⟩ | ⟨⟨occupant, ht, hth, mine, ha⟩, rfl⟩
    · refine PathChanged.of_kept ?_ (moveInode_eq item newPath) ho
      rintro row ⟨path, hp, _, occupant, ht, hth, mine, ha⟩
      rw [hm, Option.mem_some_iff] at hp
      subst hp
      exact hf occupant ht ⟨hth, mine.trans how.symm, hit ▸ ha⟩
    · have hc : ∀ row, Cleared t payload row ↔ Selected newPath payload.userId row := by
        intro row
        constructor
        · rintro ⟨path, hp, hs, _⟩
          rw [hm, Option.mem_some_iff] at hp
          exact hp ▸ hs
        · intro hs
          exact ⟨newPath, hm, hs, occupant, ht, hth, mine.trans how, hit ▸ ha⟩
      have hl : ∀ b, b ∈ t.takenBlocks newPath payload.userId ↔ LeavesBlock t payload b := by
        intro b
        rw [mem_takenBlocks]
        simp only [LeavesBlock, hc]
      obtain ⟨inodes, hsh, hpe⟩ :=
        (deleteFiles_rows : _ ∧ _ ∧
          (t.deleteFiles newPath item.ownerId height).1.incomingShares = _)
      rw [how] at inodes hsh hpe
      refine ⟨⟨_, moveInode_eq item newPath, ho, ?_⟩, ?_, ?_⟩
      · rw [how, inodes]
        simp only [hc]
      · rw [how, hsh]
        simp only [hl]
      · rw [how, hpe]
        simp only [hl]

namespace PathChanged

variable (changed : PathChanged payload t t')
include changed

lemma others : SameOthers payload.userId t t' := by
  obtain ⟨f, path, others, rows⟩ := changed.inodes
  have kept : ∀ row ∈ t.inodes, ¬ ¬ Cleared t payload row → ¬ row.ownerId ≠ payload.userId := by
    intro row _ hcl
    obtain ⟨_, _, selected, _⟩ := not_not.1 hcl
    exact not_not.2 selected.1
  have unmoved : (t.inodesOfOthers payload.userId).map f = t.inodesOfOthers payload.userId := by
    conv_rhs => rw [← map_id (t.inodesOfOthers payload.userId)]
    refine map_congr_left fun row inOthers => others row ?_
    simpa using (mem_filter.1 inOthers).2
  refine ⟨?_, others_filter (fun _ _ left other => other (not_not.1 left).1) changed.shares,
    others_filter (fun _ _ left other => other.1 (not_not.1 left).1) changed.pending⟩
  rw [inodesOfOthers, rows, filter_map_of_same, Table.filter_later_filter kept]
  · exact unmoved
  · intro row _
    obtain ⟨p, same⟩ := path row
    rw [same]

lemma mem_sharersOf {b} {w : Int} : w ∈ t'.sharersOf b ↔ w ∈ remainingSharers t payload b := by
  rw [DriveTables.mem_sharersOf, changed.shares, remainingSharers, mem_filter, mem_filter,
    DriveTables.mem_sharersOf]

lemma sharersOf_eq_nil {b} : t'.sharersOf b = [] ↔ remainingSharers t payload b = [] := by
  simp only [eq_nil_iff_forall_not_mem, changed.mem_sharersOf]

lemma heldBlock_eq (keys : InodeKeys t.inodes)
    (found : t.inodeOf payload.inodeId payload.userId = some item) :
    heldBlock t' payload.inodeId payload.userId = updatedBlock t payload := by
  obtain ⟨f, path, _, rows⟩ := changed.inodes
  obtain ⟨inItem, isItem, owner⟩ := inodeOf_some found
  have isRow : ∀ row ∈ t.inodes, row.id = payload.inodeId → row = item := by
    intro row inTable named
    exact inj_on_of_nodup_map keys.ids inTable inItem (named.trans isItem.symm)
  rw [updatedBlock, found, Option.bind_some, heldBlock, inodeOf, rows, find?_map, find?_filter]
  obtain ⟨p, moved⟩ := path item
  cases result : t.inodes.find? _ with
  | none =>
    have := find?_eq_none.1 result item inItem
    rw [if_pos (by simpa [moved, isItem, owner] using this)]
    rfl
  | some row =>
    obtain ⟨p', moved'⟩ := path row
    have named := find?_some result
    simp only [Function.comp_apply, moved', decide_eq_true_eq] at named
    have hr := isRow row (mem_of_find?_eq_some result) (by simpa using named.2.1)
    subst hr
    rw [if_neg (by simpa using named.1), Option.map_some, Option.bind_some, moved]

end PathChanged

/-- A pending share through an update: cleared content has nothing to wrap. -/
def rewrapFor (update : Option BlobInsertOp) (updates : List IncomingShareUpdate)
    (row : IncomingShareRow) : IncomingShareRow :=
  match update with
  | none => row
  | some op => rewrapped op.blobId updates row

/-- How far a content update reaches, told on the state before. -/
structure UpdateReach (payload : ModifyItemPayload) (update : Option BlobInsertOp)
    (db db' : DriveDb) : Prop where
  inodes : db'.drive.inodesOfOthers payload.userId =
    (db.drive.inodesOfOthers payload.userId).map fun row =>
    if ∃ b ∈ updatedBlock db.drive payload, row.dataId = some b ∧
      row.ownerId ∈ db.drive.sharersOf b then { row with dataId := update.map (·.blobId) }
    else row
  shares : db'.drive.sharesOfOthers payload.userId =
    (db.drive.sharesOfOthers payload.userId).map fun row =>
    if updatedBlock db.drive payload = some row.dataBlockId then
      { row with dataBlockId := (update.map (·.blobId)).getD row.dataBlockId }
    else row
  pending : db'.drive.pendingOfOthers payload.userId =
    (db.drive.pendingOfOthers payload.userId).map fun row =>
      if ∃ b ∈ updatedBlock db.drive payload, remainingSharers db.drive payload b ≠ [] then
        rewrapFor update (payload.incomingShareUpdates.getD []) row
      else row
  fresh : ∀ op ∈ update, ¬ db.BlockExists op.blobId

lemma rewrapFor_parties (update : Option BlobInsertOp) (updates : List IncomingShareUpdate)
    (row : IncomingShareRow) :
    (rewrapFor update updates row).senderId = row.senderId ∧
      (rewrapFor update updates row).recipientId = row.recipientId := by
  cases update with
  | none => exact ⟨rfl, rfl⟩
  | some op =>
    rw [rewrapFor]
    rcases rewrapped_cases op.blobId updates row with ⟨_, hs⟩ | ⟨_, _, _, hm⟩
    · rw [hs]
      exact ⟨rfl, rfl⟩
    · rw [hm]
      exact ⟨rfl, rfl⟩

lemma repointShare_user (old : BlobId) (new : Option BlobId) (row : ShareRow) :
    (repointShare old new row).userId = row.userId := by
  unfold repointShare
  split_ifs <;> rfl

lemma modifyItem_reach (hk : InodeKeys db.drive.inodes)
    (ha : payload.contentUpdate = some update) (ran : modifyItem ctx payload db = .ok db') :
    UpdateReach payload update db db' := by
  obtain ⟨item, drive, middle, hf, hm, hu, hdb⟩ := modifyItem_ok ran
  obtain ⟨_, hi, how⟩ := inodeOf_some hf
  have path := applyPathChange_rows how hi hm
  rw [applyContentUpdate, ha] at hu
  have hd := updateContent_ok hu
  have held : heldBlock drive payload.inodeId payload.userId = updatedBlock db.drive payload :=
    path.heldBlock_eq hk hf
  have hl : SameRows middle.drive db'.drive := by
    rw [hdb, setDrive_drive]
    exact sameRows_logModification
  have ho : ∀ b w, w ≠ payload.userId → (w ∈ drive.sharersOf b ↔ w ∈ db.drive.sharersOf b) := by
    intro b w hor
    rw [path.mem_sharersOf, remainingSharers, mem_filter]
    simp [hor]
  refine ⟨?_, ?_, ?_, ?_⟩
  · rw [← path.others.inodes, DriveTables.inodesOfOthers, hl.inodes, hd.inodes, filter_map_of_same]
    · refine map_congr_left fun row hot => ?_
      have hor : row.ownerId ≠ payload.userId := by simpa using (mem_filter.1 hot).2
      refine if_congr ?_ rfl rfl
      show (_ ∨ FollowsUpdate drive payload.inodeId payload.userId row) ↔ _
      simp only [FollowsUpdate, held, hor, and_false, false_or, ne_eq, not_false_eq_true, true_and,
        ho _ row.ownerId hor]
    · intro row _
      split_ifs <;> rfl
  · have hs := hd.shares
    rw [setDrive_drive, held] at hs
    rw [← path.others.shares, sharesOfOthers, hl.shares, hs, filter_map_of_same]
    · refine map_congr_left fun row _ => ?_
      cases updatedBlock db.drive payload with
      | none => rfl
      | some old =>
        show repointShare old (update.map (·.blobId)) row = _
        rw [repointShare]
        by_cases hh : row.dataBlockId = old
        · rw [if_pos hh, if_pos (congrArg some hh.symm), hh]
        · rw [if_neg hh, if_neg fun same => hh (Option.some.inj same).symm]
    · intro row _
      cases updatedBlock db.drive payload with
      | none => exact Iff.rfl
      | some old =>
        rw [repointShare_user]
  · have rows : middle.drive.incomingShares = drive.incomingShares.map fun row =>
        if ∃ b ∈ updatedBlock db.drive payload, remainingSharers db.drive payload b ≠ [] then
          rewrapFor update (payload.incomingShareUpdates.getD []) row
        else row := by
      have hp := hd.incomingShares
      rw [setDrive_drive, held] at hp
      rw [hp]
      cases updatedBlock db.drive payload with
      | none => simp
      | some old =>
        cases update with
        | none => simp [rewrapFor]
        | some op =>
          simp only [path.sharersOf_eq_nil, Option.mem_some_iff, exists_eq_left', rewrapFor]
          by_cases hn : remainingSharers db.drive payload old = [] <;> simp [hn]
    rw [← path.others.pending, pendingOfOthers, hl.incomingShares, rows, filter_map_of_same]
    · rfl
    · intro row _
      split_ifs
      · obtain ⟨hse, hre⟩ := rewrapFor_parties update (payload.incomingShareUpdates.getD []) row
        rw [hse, hre]
      · exact Iff.rfl
  · rintro op isOp ⟨row, ht, hna⟩
    have hup : update = some op := isOp
    have hr := hd.storage
    rw [hup] at hr
    exact applyBlobInserts_fresh hr row ht hna

lemma updatedBlock_some (hb : b ∈ updatedBlock t payload) :
    ∃ item, t.inodeOf payload.inodeId payload.userId = some item ∧ item.dataId = some b := by
  obtain ⟨item, hf, hh⟩ := Option.bind_eq_some_iff.1 hb
  split_ifs at hh
  exact ⟨item, hf, hh⟩

lemma SharedUpdate.block_eq {new b b'}
    (hs : SharedUpdate db payload.userId (.modifyItem payload) b' new)
    (hb : b ∈ updatedBlock db.drive payload) : b' = b := by
  obtain ⟨_, item, _, same, _, hf, hh, _, _⟩ := hs
  cases same
  obtain ⟨item', hf', hh'⟩ := updatedBlock_some hb
  rw [hf, Option.some.injEq] at hf'
  rw [← hf', hh, Option.some.injEq] at hh'
  exact hh'

lemma SharedUpdate.user_shares {new userId}
    (hs : SharedUpdate db userId tx b new) : userId ∈ db.drive.sharersOf b := by
  obtain ⟨_, _, _, _, _, _, _, _, hsh⟩ := hs
  exact hsh

lemma SharedUpdate.intro (ha : payload.contentUpdate = some update)
    (hb : b ∈ updatedBlock db.drive payload) (hs : payload.userId ∈ db.drive.sharersOf b) :
    SharedUpdate db payload.userId (.modifyItem payload) b (update.map (·.blobId)) := by
  obtain ⟨item, hf, hh⟩ := updatedBlock_some hb
  exact ⟨payload, item, update, rfl, ha, hf, hh, rfl, hs⟩

lemma Isolated.shares_block (hso : db.Sound) (hre : UpdateReach payload update db db')
    (his : Isolated payload.userId (.modifyItem payload) db db')
    (hb : b ∈ updatedBlock db.drive payload) :
    payload.userId ∈ db.drive.sharersOf b ∨ db.drive.sharersOf b = [] ∨
      (update = none ∧ ∀ row ∈ db.drive.inodes, row.dataId = some b →
        row.ownerId ∉ db.drive.sharersOf b) := by
  by_contra hou
  obtain ⟨hs, hsd, hr⟩ := not_or.1 hou |>.imp id not_or.1
  have hne : ∀ b' new, ¬ SharedUpdate db payload.userId (.modifyItem payload) b' new := by
    intro b' new hi
    exact hs (hi.block_eq hb ▸ hi.user_shares)
  cases update with
  | some op =>
    -- The share of another user goes to a new block.
    obtain ⟨w, hsr⟩ := exists_mem_of_ne_nil _ hsd
    have hss := DriveTables.mem_sharersOf.1 hsr
    have hot : w ≠ payload.userId := fun same => hs (same ▸ hsr)
    have ho : (⟨b, w⟩ : ShareRow) ∈ db.drive.sharesOfOthers payload.userId :=
      mem_filter.2 ⟨hss, by simpa using hot⟩
    obtain ⟨r, added, rows, hk, hex⟩ := his.shares
    have hn : added = [] := by
      rcases hex with hn | ⟨_, _, hi, _⟩
      · exact hn
      · cases hi
    rw [hre.shares, hn, append_nil, map_inj_left] at rows
    have hm := rows _ ho
    have hb : updatedBlock db.drive payload = some b := hb
    rw [if_pos hb] at hm
    rcases hk _ ho with same | ⟨nid, hi, _⟩
    · rw [same] at hm
      have hni : op.blobId = b := congrArg ShareRow.dataBlockId hm
      exact hre.fresh op rfl (hni ▸ hso.shares _ hss)
    · exact hne _ _ hi
  | none =>
    have held : ∃ row ∈ db.drive.inodes, row.dataId = some b ∧
        row.ownerId ∈ db.drive.sharersOf b := by
      by_contra hno
      exact hr ⟨rfl, fun row ht hh hsh => hno ⟨row, ht, hh, hsh⟩⟩
    obtain ⟨row, ht, hh, hsh⟩ := held
    have hot : row.ownerId ≠ payload.userId := fun same => hs (same ▸ hsh)
    have ho : row ∈ db.drive.inodesOfOthers payload.userId :=
      mem_filter.2 ⟨ht, by simpa using hot⟩
    obtain ⟨r, rows, hk⟩ := his.inodes
    rw [hre.inodes, map_inj_left] at rows
    have hm := rows _ ho
    rw [if_pos ⟨b, hb, hh, hsh⟩] at hm
    rcases hk _ ho with same | ⟨_, _, hi, _⟩
    · rw [same] at hm
      have he : none = row.dataId := congrArg Inode.dataId hm
      rw [hh] at he
      cases he
    · exact hne _ _ hi

lemma Isolated.names_block (hso : db.Sound) (hrh : UpdateReach payload update db db')
    (hi : Isolated payload.userId (.modifyItem payload) db db')
    (hb : b ∈ updatedBlock db.drive payload) (new : update ≠ none)
    (hsh : remainingSharers db.drive payload b ≠ []) {change}
    (hc : change ∈ payload.incomingShareUpdates.getD [])
    (ht : row ∈ db.drive.incomingShares) (hn : row.id = change.incomingShareId)
    (hs : row.senderId ≠ payload.userId) (hr : row.recipientId ≠ payload.userId) :
    row.dataBlockId = b := by
  obtain ⟨op, rfl⟩ := Option.ne_none_iff_exists'.1 new
  have ho : row ∈ db.drive.pendingOfOthers payload.userId :=
    mem_filter.2 ⟨ht, by simpa using ⟨hs, hr⟩⟩
  obtain ⟨r, rows, hk⟩ := hi.pending
  rw [hrh.pending, map_inj_left] at rows
  have hm := rows _ ho
  rw [if_pos ⟨b, hb, hsh⟩] at hm
  have hth : (r row).dataBlockId = op.blobId := by
    rcases rewrapped_cases op.blobId (payload.incomingShareUpdates.getD []) row with
      ⟨hu, _⟩ | ⟨_, _, _, hre⟩
    · exact absurd hn (hu change hc)
    · exact hm ▸ congrArg IncomingShareRow.dataBlockId hre
  rcases hk _ ho with same | ⟨_, _, hsd, _⟩
  · rw [same] at hth
    exact absurd (hth ▸ hso.pending _ ht) (hrh.fresh op rfl)
  · exact hsd.block_eq hb

lemma UpdateReach.isolated (hre : UpdateReach payload update db db')
    (ha : payload.contentUpdate = some update) (hi : (DriveTx.modifyItem payload).StaysInside db) :
    Isolated payload.userId (.modifyItem payload) db db' := by
  have hss : ∀ b ∈ updatedBlock db.drive payload, db.drive.sharersOf b ≠ [] →
      (update = none → ∃ row ∈ db.drive.inodes, row.dataId = some b ∧
        row.ownerId ∈ db.drive.sharersOf b) →
      SharedUpdate db payload.userId (.modifyItem payload) b (update.map (·.blobId)) := by
    intro b hb hsh held
    rcases (hi update ha b hb).1 with hs | hn | ⟨hcl, hn⟩
    · exact .intro ha hb hs
    · exact absurd hn hsh
    · obtain ⟨row, ht, hh, hs⟩ := held hcl
      exact absurd hs (hn row ht hh)
  refine ⟨⟨_, hre.inodes, ?_⟩, ⟨_, [], (by rw [hre.shares, append_nil]), ?_, .inl rfl⟩,
    ⟨_, hre.pending, ?_⟩⟩
  · intro row ho
    split_ifs with hf
    · obtain ⟨b, hb, hh, hs⟩ := hf
      exact .inr ⟨b, _, hss b hb (ne_nil_of_mem hs)
        (fun _ => ⟨row, (mem_filter.1 ho).1, hh, hs⟩), hh, hs, rfl⟩
    · exact .inl rfl
  · intro row ho
    split_ifs with hb
    · cases update with
      | none => exact .inl rfl
      | some op =>
        have hs := DriveTables.mem_sharersOf.2 (mem_filter.1 ho).1
        exact .inr ⟨op.blobId, hss _ hb (ne_nil_of_mem hs) (nofun), rfl⟩
    · exact .inl rfl
  · intro row ho
    obtain ⟨ht, hot⟩ := mem_filter.1 ho
    have hot : row.senderId ≠ payload.userId ∧ row.recipientId ≠ payload.userId := by
      simpa using hot
    split_ifs with hr
    · obtain ⟨b, hb, hsha⟩ := hr
      cases update with
      | none => exact .inl rfl
      | some op =>
        rcases rewrapped_cases op.blobId (payload.incomingShareUpdates.getD []) row with
          ⟨_, same⟩ | ⟨change, hc, hro, hm⟩
        · exact .inl same
        · have hob := (hi _ ha b hb).2 (by simp) hsha change hc row ht hro
            hot.1 hot.2
          have hso : db.drive.sharersOf b ≠ [] := by
            intro hn
            exact hsha (by rw [remainingSharers, hn]; rfl)
          have hsh := hss b hb hso (nofun)
          exact .inr ⟨op.blobId, _, hob ▸ hsh, hm⟩
    · exact .inl rfl

lemma modifyItem_isolated_iff (hso : db.Sound) (ran : modifyItem ctx payload db = .ok db') :
    Isolated payload.userId (.modifyItem payload) db db' ↔
    (DriveTx.modifyItem payload).StaysInside db := by
  constructor
  · intro hi update ha b hb
    have hre := modifyItem_reach hso.keys ha ran
    refine ⟨hi.shares_block hso hre hb, ?_⟩
    intro new hsh change hc row ht hn hs hr
    exact hi.names_block hso hre hb new hsh hc ht hn hs hr
  · intro hin
    cases ha : payload.contentUpdate with
    | some update => exact (modifyItem_reach hso.keys ha ran).isolated ha hin
    | none =>
      obtain ⟨item, drive, middle, hf, hm, hu, hdb⟩ := modifyItem_ok ran
      obtain ⟨_, hit, ho⟩ := inodeOf_some hf
      have hp := (applyPathChange_rows ho hit hm).others
      rw [applyContentUpdate, ha] at hu
      cases hu
      have hl : SameRows drive db'.drive := by
        rw [hdb, setDrive_drive]
        exact sameRows_logModification
      exact SameOthers.isolated ⟨(congrArg (filter _) hl.inodes).trans hp.inodes,
        (congrArg (filter _) hl.shares).trans hp.shares,
        (congrArg (filter _) hl.incomingShares).trans hp.pending⟩

end

section

variable {call : DriveCall}

lemma process_isolated_iff (hso : db.Sound) (hs : call.signer = some userId)
    (ran : call.tx.process decode call.ctx call.signer db = .ok db') :
    Isolated userId call.tx db db' ↔ call.tx.StaysInside db := by
  obtain ⟨ctx, signer, tx⟩ := call
  subst hs
  cases tx with
  | modifyItem payload =>
    obtain ⟨⟨⟩, ran⟩ := modifyItemHandler_ok ran
    exact modifyItem_isolated_iff hso ran
  | insertFiles blobOps inodes =>
    have ran : insertFilesHandler ctx (some userId) blobOps inodes db = .ok db' := ran
    obtain ⟨_, ⟨⟩, hm, ran⟩ := insertFilesHandler_ok ran
    exact iff_of_true (insertFiles_isolated hm ran) trivial
  | deleteFiles path owner =>
    obtain ⟨⟨⟩, rfl⟩ := deleteFilesHandler_ok ran
    exact iff_of_true (SameOthers.isolated deleteFiles_others) trivial
  | acceptShare payload =>
    obtain ⟨_, _, _, _, _, hsi, _⟩ := acceptShare_ok ran
    cases hsi
    exact iff_of_true (acceptShare_isolated hso ran) trivial
  | shareFile payload =>
    obtain ⟨⟨⟩, _, _, rfl⟩ := shareFile_ok ran
    refine iff_of_true (SameOthers.isolated ⟨rfl, rfl, ?_⟩) trivial
    simp [pendingOfOthers, ShareFilePayload.row]
  | declineShare shareId owner =>
    obtain ⟨⟨⟩, share, hf, hp, rfl⟩ := declineShare_ok ran
    exact iff_of_true (SameOthers.isolated ⟨rfl, rfl, answered_others hso hf hp rfl⟩) trivial
  | unshare inodeId owner =>
    obtain ⟨⟨⟩, b, rfl⟩ := unshare_ok ran
    refine iff_of_true (SameOthers.isolated ⟨rfl, ?_, ?_⟩) trivial
    · exact others_filter (fun row _ hl other => other (not_not.1 hl).2) rfl
    · exact others_filter (fun row _ hl other => other.1 (not_not.1 hl).2) rfl

/-- In every state that a run reaches, an accepted transaction leaves the others' rows alone, but
for what sharing allows, exactly when its content update stays inside the blocks its user shares. -/
theorem drive_isolation_iff (decode : AccessDecoder) (db₀ db db' : DriveDb)
    (past : List DriveEvent) (call : DriveCall) (userId : Int) (start : db₀.drive = .empty)
    (run : Reaches (CheckedStep decode) db₀ past db) (signed : call.signer = some userId)
    (accepted : call.tx.process decode call.ctx call.signer db = .ok db') :
    Isolated userId call.tx db db' ↔ call.tx.StaysInside db :=
  process_isolated_iff (run_sound start run) signed accepted

end

/-- User 3, who shares nothing, makes an inode on the others' block. -/
def intrusion : List DriveEvent :=
  sharedFile ++ [asUser 4 3 (.insertFiles [] [sampleInode 3 3 ['/', 'c'] .file (some 10)])]

def intruded : DriveDb := final (driveNext sampleDecode) emptyDrive intrusion

/-- User 3 clears the content of that inode. -/
def clearing : DriveCall :=
  ⟨sampleCtx 5, some 3, .modifyItem ⟨3, ⟨3⟩, none, some none, none, false⟩⟩

def clearedOut : DriveDb :=
  (clearing.tx.process sampleDecode clearing.ctx clearing.signer intruded).toOption.getD emptyDrive

/-- The files of users 1 and 2 are emptied by a user who has no share of them. -/
theorem clearing_reaches_strangers :
    Reaches (CheckedStep sampleDecode) emptyDrive intrusion intruded ∧
    clearing.tx.process sampleDecode clearing.ctx clearing.signer intruded = .ok clearedOut ∧
    (3 : Int) ∉ intruded.drive.sharersOf ⟨10⟩ ∧
    sampleInode 1 1 ['/', 'a'] .file (some 10) ∈ intruded.drive.inodes ∧
    sampleInode 1 1 ['/', 'a'] .file none ∈ clearedOut.drive.inodes ∧
    ¬ Isolated 3 clearing.tx intruded clearedOut := by
  have run : Reaches (CheckedStep sampleDecode) emptyDrive intrusion intruded :=
    .of_foldlM driveNext_checked (by decide +kernel)
  have ha : clearing.tx.process sampleDecode clearing.ctx clearing.signer intruded =
      .ok clearedOut := by
    decide +kernel
  refine ⟨run, ha, by decide +kernel, by decide +kernel, by decide +kernel, ?_⟩
  intro hi
  have hin := (process_isolated_iff (run_sound rfl run) rfl ha).1 hi
  have ho : ¬ ((3 : Int) ∈ intruded.drive.sharersOf ⟨10⟩ ∨ intruded.drive.sharersOf ⟨10⟩ = [] ∨
      ((none : Option BlobInsertOp) = none ∧ ∀ row ∈ intruded.drive.inodes,
        row.dataId = some ⟨10⟩ → row.ownerId ∉ intruded.drive.sharersOf ⟨10⟩)) := by
    decide +kernel
  exact ho (hin none rfl ⟨10⟩ (by decide +kernel)).1

def beforeEdit : DriveDb := final (driveNext sampleDecode) emptyDrive sharedFile

/-- A sharer writes a new version, and the other's inode follows. -/
def editing : DriveCall :=
  ⟨sampleCtx 5, some 2, .modifyItem ⟨2, ⟨2⟩, none, some (some (sampleBlobOp 11 2)), none, false⟩⟩

def edited : DriveDb :=
  (editing.tx.process sampleDecode editing.ctx editing.signer beforeEdit).toOption.getD emptyDrive

theorem editing_isolated : Isolated 2 editing.tx beforeEdit edited ∧
    sampleInode 1 1 ['/', 'a'] .file (some 11) ∈ edited.drive.inodes := by
  have run : Reaches (CheckedStep sampleDecode) emptyDrive sharedFile beforeEdit :=
    .of_foldlM driveNext_checked (by decide +kernel)
  have ha : editing.tx.process sampleDecode editing.ctx editing.signer beforeEdit = .ok edited := by
    decide +kernel
  refine ⟨(drive_isolation_iff _ _ _ _ _ editing 2 rfl run rfl ha).2 ?_, by decide +kernel⟩
  intro update has b hb
  have ht : updatedBlock beforeEdit.drive ⟨2, ⟨2⟩, none, some (some (sampleBlobOp 11 2)),
      none, false⟩ = some ⟨10⟩ := by decide +kernel
  have hs : b = ⟨10⟩ := Option.some.inj (hb.symm.trans ht)
  subst hs
  refine ⟨.inl (by decide +kernel), ?_⟩
  intro _ _ change hi
  exact absurd hi not_mem_nil

end HopNet
