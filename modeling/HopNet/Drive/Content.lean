import HopNet.Drive.Isolation

namespace HopNet

open Fallible Runs List DriveTables

inductive StatusCode where
  | notFound
  | internalServerError
deriving DecidableEq

/-- The substrate's key wrap for one per-file key, and its wire format. -/
structure WrapEnv where
  wrapBlobKey : BlobId → FixedBytes 32 → Option BlobAccess
  encode : BlobAccess → Bytes

section

variable (env : WrapEnv)

/-- `blob_access_for_user_with_conn`. -/
def blobAccessForUser (users : List UserRow) (b : BlobId) (userId : Int) :
    Except StatusCode BlobAccess :=
  match (userX25519Pubkey users userId).bind (env.wrapBlobKey b) with
  | some access => .ok access
  | none => .error .internalServerError

def wrapPending (users : List UserRow) (b : BlobId) (row : IncomingShareRow) :
    Except StatusCode IncomingShareUpdate := do
  let access ← blobAccessForUser env users b row.recipientId
  return ⟨row.id, env.encode access⟩

def propagationOf (db : DriveDb) (userId : Int) (old new : BlobId) :
    Except StatusCode (List BlobAccess × Option (List IncomingShareUpdate)) := do
  let extras ← ((db.drive.sharersOf old).filter (· ≠ userId)).mapM
    (blobAccessForUser env db.users new)
  let pending := db.drive.incomingSharesOf old
  let updates ← pending.mapM (wrapPending env db.users new)
  return (extras, if pending = [] then none else some updates)

/-- No block, or a block without accepted sharers: nothing to propagate. -/
def buildSharePropagation (db : DriveDb) (inodeId : CustomUUID) (userId : Int) (new : BlobId) :
    Except StatusCode (List BlobAccess × Option (List IncomingShareUpdate)) :=
  match db.drive.inodeOf inodeId userId with
  | none => .error .notFound
  | some inode =>
    match inode.dataId with
    | none => .ok ([], none)
    | some old =>
      if db.drive.sharersOf old = [] then .ok ([], none)
      else propagationOf env db userId old new

/-- A blob's insert, with the wraps of its sharers, and the rewrapped offers. -/
abbrev PreparedUpdate := Option BlobInsertOp × Option (List IncomingShareUpdate)

/-- `upload` is the processed file, without wraps; an empty file has none. -/
def prepareContentUpdate (db : DriveDb) (userId : Int) (inodeId : CustomUUID)
    (upload : Option BlobInsertOp) : Except StatusCode PreparedUpdate :=
  match upload with
  | none => .ok (none, none)
  | some op => do
      let own ← blobAccessForUser env db.users op.blobId userId
      let (extras, updates) ← buildSharePropagation env db inodeId userId op.blobId
      return (some { op with access := own :: extras }, updates)

/-- What the routes submit: no inode replaced together with a content update. -/
def contentPayload (userId : Int) (inodeId : CustomUUID) (newPath : Option Path)
    (prepared : PreparedUpdate) : ModifyItemPayload :=
  ⟨userId, inodeId, newPath, some prepared.1, prepared.2, false⟩

end

/-- Nobody is left on the old version of a block. -/
structure NobodyLeft (env : WrapEnv) (b : BlobId) (new : Option BlobId) (db db' : DriveDb) :
    Prop where
  inodes : ∀ row ∈ db'.drive.inodes, row.ownerId ∈ db.drive.sharersOf b → row.dataId ≠ some b
  shares : ∀ row ∈ db'.drive.shares, row.dataBlockId ≠ b
  renewed : ∀ nid, new = some nid → ∀ row ∈ db.drive.incomingShares, row.dataBlockId = b →
    ∃ access, blobAccessForUser env db.users nid row.recipientId = .ok access ∧
      { row with dataBlockId := nid, fileAccess := env.encode access } ∈ db'.drive.incomingShares
  removed : new = none → ∀ row ∈ db.drive.incomingShares, row.dataBlockId = b →
    ∀ row' ∈ db'.drive.incomingShares, row'.id ≠ row.id

/-- A sharer of the block who has it in no other inode. -/
def OnlyCopy (t : DriveTables) (userId : Int) (inodeId : CustomUUID) (b : BlobId) : Prop :=
  userId ∈ t.sharersOf b → ∀ row ∈ t.inodes, row.ownerId = userId → row.dataId = some b →
    row.id = inodeId
deriving Decidable

section

variable {env : WrapEnv} {ctx : ApplyCtx} {db db' : DriveDb} {userId : Int} {inodeId : CustomUUID}
  {newPath : Option Path} {prepared : PreparedUpdate} {b : BlobId}
  {upload : Option BlobInsertOp} {op : BlobInsertOp}

lemma clearDestination_kept {item} {t t' : DriveTables} {path height}
    (ran : t.clearDestination item path false height = .ok t') : t' = t := by
  unfold clearDestination at ran
  split at ran
  · exact (Except.ok.inj ran).symm
  · simp at ran

/-- After a routes' content update: a rename at most, then the content. -/
lemma contentPayload_ok
    (ran : modifyItem ctx (contentPayload userId inodeId newPath prepared) db = .ok db') :
    ∃ (f : Inode → Inode) (middle : DriveDb), (∀ row, ∃ path, f row = { row with path := path }) ∧
      ContentUpdated ctx userId inodeId prepared.1 prepared.2
        (db.setDrive { db.drive with inodes := db.drive.inodes.map f }) middle ∧
      DriveTables.SameRows middle.drive db'.drive := by
  obtain ⟨item, drive, middle, hf, hm, hu, rfl⟩ := modifyItem_ok ran
  have hr : ∃ f : Inode → Inode, (∀ row, ∃ path, f row = { row with path := path }) ∧
      drive = { db.drive with inodes := db.drive.inodes.map f } := by
    cases newPath with
    | none =>
      cases hm
      exact ⟨id, fun row => ⟨row.path, rfl⟩, by rw [map_id]⟩
    | some path =>
      obtain ⟨cleared, hk, rfl, _⟩ := changePath_ok hm
      rw [clearDestination_kept hk]
      exact ⟨_, moveInode_eq item path, rfl⟩
  obtain ⟨f, path, rfl⟩ := hr
  refine ⟨f, middle, path, updateContent_ok hu, ?_⟩
  rw [DriveDb.setDrive_drive]
  exact sameRows_logModification

lemma heldBlock_map {t} {f : Inode → Inode}
    (path : ∀ row, ∃ path, f row = { row with path := path }) :
    heldBlock { t with inodes := t.inodes.map f } inodeId userId = heldBlock t inodeId userId := by
  have hs : ((fun row : Inode => decide (row.id = inodeId ∧ row.ownerId = userId)) ∘ f) =
      fun row => decide (row.id = inodeId ∧ row.ownerId = userId) := by
    funext row
    obtain ⟨p, hm⟩ := path row
    rw [Function.comp_apply, hm]
  rw [heldBlock, heldBlock, inodeOf, inodeOf, find?_map, hs]
  cases t.inodes.find? fun row => decide (row.id = inodeId ∧ row.ownerId = userId) with
  | none => rfl
  | some row =>
    obtain ⟨p, hm⟩ := path row
    rw [Option.map_some, Option.bind_some, Option.bind_some, hm]

/-- The tables after an update of a held block, told on the state before. -/
structure BlockUpdated (userId : Int) (inodeId : CustomUUID)
    (prepared : PreparedUpdate) (b : BlobId) (db db' : DriveDb) :
    Prop where
  inodes : ∃ f : Inode → Inode, (∀ row, ∃ path, f row = { row with path := path }) ∧
    db'.drive.inodes = db.drive.inodes.map fun row =>
      if (row.id = inodeId ∧ row.ownerId = userId) ∨
          (row.dataId = some b ∧ row.ownerId ≠ userId ∧ row.ownerId ∈ db.drive.sharersOf b) then
        { f row with dataId := prepared.1.map (·.blobId) }
      else f row
  shares : db'.drive.shares = db.drive.shares.map (repointShare b (prepared.1.map (·.blobId)))
  pending : db'.drive.incomingShares =
    if db.drive.sharersOf b = [] then db.drive.incomingShares
    else db.drive.incomingShares.map (rewrapFor prepared.1 (prepared.2.getD []))
  fresh : ∀ op ∈ prepared.1, ¬ db.BlockExists op.blobId

lemma contentPayload_updated
    (ran : modifyItem ctx (contentPayload userId inodeId newPath prepared) db = .ok db')
    (held : heldBlock db.drive inodeId userId = some b) :
    BlockUpdated userId inodeId prepared b db db' := by
  obtain ⟨f, middle, hp, hd, hl⟩ := contentPayload_ok ran
  have hh : heldBlock (db.setDrive { db.drive with inodes := db.drive.inodes.map f }).drive inodeId
      userId = some b :=
    (heldBlock_map hp).trans held
  refine ⟨⟨f, hp, ?_⟩, ?_, ?_, ?_⟩
  · rw [hl.inodes, hd.inodes]
    show List.map _ (db.drive.inodes.map f) = _
    rw [map_map]
    refine map_congr_left fun row _ => ?_
    obtain ⟨p, hm⟩ := hp row
    rw [Function.comp_apply]
    simp only [FollowsUpdate, hh, Option.mem_some_iff, exists_eq_left', hm]
    rfl
  · rw [hl.shares, hd.shares, hh]
    rfl
  · rw [hl.incomingShares, hd.incomingShares, hh]
    cases prepared.1 with
    | none =>
      show db.drive.incomingShares = _
      have hs : db.drive.incomingShares.map (rewrapFor none (prepared.2.getD [])) =
          db.drive.incomingShares := map_id _
      rw [hs, ite_self]
    | some op => rfl
  · rintro op ho ⟨row, ht, hn⟩
    have hu : prepared.1 = some op := ho
    have hr := hd.storage
    rw [hu] at hr
    exact applyBlobInserts_fresh hr row ht hn

/-- A prepared payload updates each pending share of the block, with a wrap for its recipient. -/
lemma prepareContentUpdate_updates
    (hr : prepareContentUpdate env db userId inodeId upload = .ok prepared)
    (hne : prepared.1 = some op)
    (held : heldBlock db.drive inodeId userId = some b) (hs : db.drive.sharersOf b ≠ []) :
    (∀ row ∈ db.drive.incomingSharesOf b, ∃ update ∈ prepared.2.getD [],
      wrapPending env db.users op.blobId row = .ok update) ∧
    ∀ update ∈ prepared.2.getD [], ∃ row ∈ db.drive.incomingSharesOf b,
      wrapPending env db.users op.blobId row = .ok update := by
  cases upload with
  | none =>
    cases hr
    cases hne
  | some file =>
    obtain ⟨inode, hf, hh⟩ := Option.bind_eq_some_iff.1 held
    simp only [prepareContentUpdate, buildSharePropagation, hf, hh, if_neg hs, propagationOf,
      bind_eq_ok, pure_eq_ok] at hr
    obtain ⟨own, _, ⟨_, _⟩, ⟨extras, _, updates, hw, rfl, rfl⟩, rfl⟩ := hr
    have same : op.blobId = file.blobId := by
      rw [← Option.some.inj hne]
    rw [same]
    by_cases hn : db.drive.incomingSharesOf b = []
    · rw [hn]
      simp
    · rw [if_neg hn]
      exact mapM_eq_ok_mem hw

/-- The new version of a shared block reaches everybody. -/
lemma BlockUpdated.nobodyLeft (hso : db.Sound) (hup : BlockUpdated userId inodeId prepared b db db')
    (hre : prepareContentUpdate env db userId inodeId upload = .ok prepared)
    (held : heldBlock db.drive inodeId userId = some b) (hne : prepared.1 = some op)
    (hsh : db.drive.sharersOf b ≠ []) (only : OnlyCopy db.drive userId inodeId b) :
    NobodyLeft env b (some op.blobId) db db' := by
  have hn : op.blobId ≠ b := by
    intro same
    obtain ⟨item, hf, hh⟩ := Option.bind_eq_some_iff.1 held
    exact hup.fresh op hne (same ▸ hso.inodes item (inodeOf_some hf).1 b hh)
  refine ⟨?_, ?_, ?_, nofun⟩
  · obtain ⟨f, path, rows⟩ := hup.inodes
    rw [rows]
    intro row' hm hs
    obtain ⟨row, ht, rfl⟩ := mem_map.1 hm
    obtain ⟨p, hmo⟩ := path row
    split_ifs at hs ⊢ with hc
    · rw [hne]
      simpa using hn
    · intro hh
      rw [hmo] at hh hs
      refine hc ?_
      by_cases mine : row.ownerId = userId
      · exact .inl ⟨only (mine ▸ hs) row ht mine hh, mine⟩
      · exact .inr ⟨hh, mine, hs⟩
  · rw [hup.shares, hne]
    intro row' hm
    obtain ⟨row, _, rfl⟩ := mem_map.1 hm
    unfold repointShare
    split_ifs with here
    · exact hn
    · exact here
  · intro nid hni row ht hob
    cases hni
    have hwr := prepareContentUpdate_updates hre hne held hsh
    have hp : row ∈ db.drive.incomingSharesOf b := mem_filter.2 ⟨ht, by simpa using hob⟩
    have ha : rewrapped op.blobId (prepared.2.getD []) row ∈ db'.drive.incomingShares := by
      rw [hup.pending, if_neg hsh, hne]
      exact mem_map_of_mem ht
    rcases rewrapped_cases op.blobId (prepared.2.getD []) row with
      ⟨hun, _⟩ | ⟨update, hu, hna, hr⟩
    · obtain ⟨update, hu, hw⟩ := hwr.1 row hp
      simp only [wrapPending, bind_eq_ok, pure_eq_ok] at hw
      obtain ⟨_, _, rfl⟩ := hw
      exact absurd rfl (hun _ hu)
    · obtain ⟨other, ho, hw⟩ := hwr.2 update hu
      simp only [wrapPending, bind_eq_ok, pure_eq_ok] at hw
      obtain ⟨access, hf, rfl⟩ := hw
      have same : row = other :=
        inj_on_of_nodup_map hso.offers ht (mem_filter.1 ho).1 hna
      subst same
      exact ⟨access, hf, hr ▸ ha⟩

/-- Who edits a shared or offered block, and what is left of the old version. -/
lemma BlockUpdated.nobodyLeft_iff (hso : db.Sound)
    (hu : BlockUpdated userId inodeId prepared b db db')
    (hr : prepareContentUpdate env db userId inodeId upload = .ok prepared)
    (held : heldBlock db.drive inodeId userId = some b)
    (hi : userId ∈ db.drive.sharersOf b ∨
      ∃ row ∈ db.drive.incomingShares, row.dataBlockId = b ∧ row.senderId = userId) :
    NobodyLeft env b (prepared.1.map (·.blobId)) db db' ↔
      prepared.1 ≠ none ∧ db.drive.sharersOf b ≠ [] ∧ OnlyCopy db.drive userId inodeId b := by
  constructor
  · intro hl
    refine ⟨?_, ?_, ?_⟩
    · -- Cleared content keeps the shares and the offers of the block.
      intro hc
      rcases hi with hs | ⟨row, ht, ho, _⟩
      · have hsh := mem_sharersOf.1 hs
        refine hl.shares ⟨b, userId⟩ ?_ rfl
        rw [hu.shares, hc]
        refine mem_map.2 ⟨_, hsh, ?_⟩
        rw [repointShare, if_pos rfl]
        rfl
      · refine hl.removed (by rw [hc]; rfl) row ht ho row ?_ rfl
        rw [hu.pending, hc]
        have same : db.drive.incomingShares.map (rewrapFor none (prepared.2.getD [])) =
            db.drive.incomingShares := map_id _
        rw [same, ite_self]
        exact ht
    · -- Without an accepted sharer the offers are not looked at.
      intro hn
      rcases hi with hs | ⟨row, ht, ho, _⟩
      · rw [hn] at hs
        exact absurd hs not_mem_nil
      · have hp : db'.drive.incomingShares = db.drive.incomingShares := by
          rw [hu.pending, if_pos hn]
        cases hne : prepared.1 with
        | none =>
          exact hl.removed (by rw [hne]; rfl) row ht ho row (hp ▸ ht) rfl
        | some op =>
          obtain ⟨access, _, hth⟩ :=
            hl.renewed op.blobId (by rw [hne]; rfl) row ht ho
          rw [hp] at hth
          exact hu.fresh op hne (hso.pending _ hth)
    · intro hs row ht mine hh
      by_contra hot
      obtain ⟨f, path, rows⟩ := hu.inodes
      obtain ⟨p, hmo⟩ := path row
      have hth : f row ∈ db'.drive.inodes := by
        rw [rows]
        refine mem_map.2 ⟨row, ht, if_neg ?_⟩
        rintro (⟨hit, _⟩ | ⟨_, hm, _⟩)
        · exact hot hit
        · exact hm mine
      rw [hmo] at hth
      exact hl.inodes _ hth (show row.ownerId ∈ _ from mine ▸ hs) hh
  · rintro ⟨hne, hsd, only⟩
    obtain ⟨op, isOp⟩ := Option.ne_none_iff_exists'.1 hne
    have hd := hu.nobodyLeft hso hr held isOp hsd only
    rwa [isOp]

end

/-- In every state that a run reaches, a content update prepared on that state leaves nobody on the
old version exactly when it brings a new blob, the block has an accepted sharer, and a user who
shares it has it in no other inode. -/
theorem content_update_leaves_nobody_iff (decode : AccessDecoder) (env : WrapEnv)
    (db₀ db db' : DriveDb) (past : List DriveEvent) (ctx : ApplyCtx) (userId : Int)
    (inodeId : CustomUUID)
    (newPath : Option Path) (upload : Option BlobInsertOp) (prepared : PreparedUpdate) (b : BlobId)
    (start : db₀.drive = .empty) (run : Reaches (CheckedStep decode) db₀ past db)
    (held : heldBlock db.drive inodeId userId = some b)
    (involved : userId ∈ db.drive.sharersOf b ∨
      ∃ row ∈ db.drive.incomingShares, row.dataBlockId = b ∧ row.senderId = userId)
    (ready : prepareContentUpdate env db userId inodeId upload = .ok prepared)
    (accepted : (DriveTx.modifyItem (contentPayload userId inodeId newPath prepared)).process
      decode ctx (some userId) db = .ok db') :
    NobodyLeft env b (prepared.1.map (·.blobId)) db db' ↔
      prepared.1 ≠ none ∧ db.drive.sharersOf b ≠ [] ∧ OnlyCopy db.drive userId inodeId b := by
  exact (contentPayload_updated (modifyItemHandler_ok accepted).2 held).nobodyLeft_iff
    (run_sound start run) ready held involved

/-- Wraps are told apart by block and key. -/
def sampleWraps : WrapEnv where
  wrapBlobKey b key := some ⟨b, key, .replicate 32 2, [2]⟩
  encode access := access.recipientPubkey.bytes.take 1

/-- User 1 has offered block 10 to user 2, who has not answered. -/
def offered : DriveDb := final (driveNext sampleDecode) emptyDrive (sharedFile.take 2)

def offeredEdit : PreparedUpdate :=
  (prepareContentUpdate sampleWraps offered 1 ⟨1⟩ (some (sampleBlobOp 11 1))).toOption.getD
    (none, none)

def offeredAfter : DriveDb :=
  ((DriveTx.modifyItem (contentPayload 1 ⟨1⟩ none offeredEdit)).process sampleDecode
    (sampleCtx 5) (some 1) offered).toOption.getD emptyDrive

/-- The offer still names the old block after the sender's edit. -/
theorem offer_left_behind :
    Reaches (CheckedStep sampleDecode) emptyDrive (sharedFile.take 2) offered ∧
    heldBlock offered.drive ⟨1⟩ 1 = some ⟨10⟩ ∧
    prepareContentUpdate sampleWraps offered 1 ⟨1⟩ (some (sampleBlobOp 11 1)) = .ok offeredEdit ∧
    (DriveTx.modifyItem (contentPayload 1 ⟨1⟩ none offeredEdit)).process
      sampleDecode (sampleCtx 5) (some 1) offered = .ok offeredAfter ∧
    offeredAfter.drive.incomingShares = offered.drive.incomingShares ∧
    (∃ row ∈ offered.drive.incomingShares, row.dataBlockId = ⟨10⟩ ∧ row.senderId = 1) ∧
    ¬ NobodyLeft sampleWraps ⟨10⟩ (offeredEdit.1.map (·.blobId)) offered offeredAfter := by
  have run : Reaches (CheckedStep sampleDecode) emptyDrive (sharedFile.take 2) offered :=
    .of_foldlM driveNext_checked (by decide +kernel)
  have same : offeredAfter.drive.incomingShares = offered.drive.incomingShares := by decide +kernel
  have hs : ∃ row ∈ offered.drive.incomingShares, row.dataBlockId = ⟨10⟩ ∧ row.senderId = 1 := by
    decide +kernel
  refine ⟨run, by decide +kernel, by decide +kernel, by decide +kernel, same, hs, ?_⟩
  intro hl
  obtain ⟨row, ht, ho, _⟩ := hs
  obtain ⟨access, _, hth⟩ := hl.renewed ⟨11⟩ (by decide +kernel) row ht ho
  have old : ∀ row ∈ offered.drive.incomingShares, row.dataBlockId = ⟨10⟩ := by decide +kernel
  have hi : (⟨11⟩ : BlobId) = ⟨10⟩ := old _ hth
  exact absurd hi (by decide)

def sharedAndOffered : List DriveEvent :=
  sharedFile ++ [asUser 4 1 (.shareFile (sampleOffer 51 10 1 3))]

def beforeNews : DriveDb := final (driveNext sampleDecode) emptyDrive sharedAndOffered

def news : PreparedUpdate :=
  (prepareContentUpdate sampleWraps beforeNews 2 ⟨2⟩ (some (sampleBlobOp 11 2))).toOption.getD
    (none, none)

def afterNews : DriveDb :=
  ((DriveTx.modifyItem (contentPayload 2 ⟨2⟩ none news)).process sampleDecode (sampleCtx 5) (some 2)
    beforeNews).toOption.getD emptyDrive

theorem news_reaches_everybody :
    NobodyLeft sampleWraps ⟨10⟩ (news.1.map (·.blobId)) beforeNews afterNews ∧
    (∃ row ∈ afterNews.drive.incomingShares, row.recipientId = 3 ∧ row.dataBlockId = ⟨11⟩) := by
  have run : Reaches (CheckedStep sampleDecode) emptyDrive sharedAndOffered beforeNews :=
    .of_foldlM driveNext_checked (by decide +kernel)
  refine ⟨(content_update_leaves_nobody_iff sampleDecode sampleWraps emptyDrive beforeNews afterNews
    sharedAndOffered (sampleCtx 5) 2 ⟨2⟩ none (some (sampleBlobOp 11 2)) news ⟨10⟩ rfl run
    (by decide +kernel) (.inl (by decide +kernel)) (by decide +kernel) (by decide +kernel)).2 ?_,
    by decide +kernel⟩
  decide +kernel

end HopNet
