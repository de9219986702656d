import HopNet.Drive.Feed
import HopNet.StorageHandlers

namespace HopNet

open Fallible Runs SlashPath List DriveEvent

variable {dec : Decrypt} {db db' : DriveDb} {userId : Int}

lemma decryptPath_last {part : List Char → Option (List Char)} {a g p} (hp : '/' ∉ g)
    (hn : g ≠ []) (hr : decryptPath part (a ++ '/' :: g) = some p) :
    ∃ n, part g = some n ∧ lastComponent p = lastComponent n := by
  have hsi : g.splitOn '/' = [g] := by
    rw [List.splitOn, splitOnP_eq_singleton]
    intro c inG
    have : c ≠ '/' := fun hsl => hp (hsl ▸ inG)
    simpa using this
  have hsp : (a ++ '/' :: g).splitOn '/' = a.splitOn '/' ++ [g] := by
    rw [← hsi, List.splitOn, splitOnP_append_cons _ _ (by simp)]
    rfl
  have hs : 1 < (a.splitOn '/' ++ [g]).length := by
    have := length_pos_iff.2 (splitOn_ne_nil '/' a)
    simpa using this
  rw [decryptPath, hsp, if_pos hs, filter_append, mapM_append] at hr
  simp only [Option.map_eq_some_iff, bind, Option.bind_eq_some_iff, pure] at hr
  obtain ⟨_, ⟨front, _, back, last, hw⟩, rfl⟩ := hr
  have hl : [g].filter (fun g => decide (g ≠ [])) = [g] := by simp [hn]
  rw [hl] at last
  simp only [mapM_cons, mapM_nil, bind, Option.bind_eq_some_iff, pure, Option.some.injEq] at last
  obtain ⟨n, hna, _, rfl, rfl⟩ := last
  refine ⟨n, hna, ?_⟩
  rw [← Option.some.inj hw, pathOf, flatMap_append, flatMap_singleton, lastComponent_append]

/-- What a user sees decides the item, while the sizes of the blocks stay. -/
lemma userItems_congr {id} (hg : DriveTree db.drive.inodes) (hg' : DriveTree db'.drive.inodes)
    (hr : Readable dec db.drive.inodes) (hre' : Readable dec db'.drive.inodes)
    (hsi : ∀ row ∈ db.drive.inodes, ∀ b, row.dataId = some b →
      (db'.storage.block b).map (·.fileSize) = (db.storage.block b).map (·.fileSize))
    (same : seen db'.drive userId id = seen db.drive userId id) :
    userItems dec db' userId id = userItems dec db userId id := by
  unfold seen at same
  unfold userItems
  cases hf : db.drive.inodeOf id userId with
  | none =>
    rw [hf, Option.map_none, Option.map_eq_none_iff] at same
    rw [same]
    rfl
  | some row =>
    rw [hf, Option.map_some, Option.map_eq_some_iff] at same
    obtain ⟨row', hf', hv⟩ := same
    obtain ⟨ht, hi, ho⟩ := inodeOf_some hf
    obtain ⟨ht', hi', ho'⟩ := inodeOf_some hf'
    simp only [viewOf, Prod.mk.injEq] at hv
    obtain ⟨hp, hs, hk, hd⟩ := hv
    obtain ⟨p, hre⟩ := Option.isSome_iff_exists.1 (hr row ht)
    obtain ⟨p', hr'⟩ := Option.isSome_iff_exists.1 (hre' row' ht')
    have name : lastComponent p' = lastComponent p := by
      obtain ⟨a, g, path, hpl, hn⟩ := (hg.hex row ht).last
      obtain ⟨a', g', path', hp', hno'⟩ := (hg'.hex row' ht').last
      rw [path, path', lastComponent_append, lastComponent_append, lastComponent_plain hpl,
        lastComponent_plain hp'] at hs
      rw [path] at hre
      rw [path'] at hr'
      obtain ⟨n, hna, hl⟩ := decryptPath_last hpl hn hre
      obtain ⟨n', hn', hl'⟩ := decryptPath_last hp' hno' hr'
      rw [hs, ho', ← ho, hna, Option.some.injEq] at hn'
      rw [hl, hl', hn']
    have size : itemSize db' row' = itemSize db row := by
      unfold itemSize
      rw [hk, hd]
      cases hh : row.dataId with
      | none => rfl
      | some b =>
        rw [Option.bind_some, Option.bind_some, hsi row ht b hh]
    rw [hf']
    simp only [Option.bind_some, rowToItem, hre, hr', Option.map_some, MountItem.state, hp, name,
      hk, size, hd]

variable {decode : AccessDecoder}

section

variable {call : DriveCall}

lemma process_blocks (ran : call.tx.process decode call.ctx call.signer db = .ok db') :
    ∃ added, db'.storage.dataBlocks = db.storage.dataBlocks ++ added := by
  rcases DriveTx.process_storage ran with ⟨_, hr⟩ | ⟨share, _, _, hw⟩
  · obtain ⟨added, rows, _⟩ := applyBlobInserts_blocks hr
    exact ⟨added, rows⟩
  · exact ⟨[], by rw [acceptAccess_blocks hw, append_nil]⟩

lemma process_sizes {b} (hp : db.BlockExists b)
    (ran : call.tx.process decode call.ctx call.signer db = .ok db') :
    db'.storage.block b = db.storage.block b := by
  obtain ⟨added, rows⟩ := process_blocks ran
  rw [StorageTables.block, rows, find?_append]
  cases hf : db.storage.dataBlocks.find? fun row => row.id = b with
  | none =>
    obtain ⟨row, ht, hr⟩ := hp
    exact absurd (by simpa using hr) (find?_eq_none.1 hf row ht)
  | some row => exact hf.symm

end

section

variable {height : Nat}

/-- A step between well-formed trees whose names their owners can read. Other parts keep the blocks
that drive rows name, with their sizes. -/
structure WellFormedStep (dec : Decrypt) (decode : AccessDecoder) (db : DriveDb)
    (event : DriveEvent) (db' : DriveDb) : Prop where
  checked : CheckedStep decode db event db'
  tree : DriveTree db'.drive.inodes
  readable : Readable dec db'.drive.inodes
  sizes : event = .other → ∀ row ∈ db.drive.inodes, ∀ b, row.dataId = some b →
    (db'.storage.block b).map (·.fileSize) = (db.storage.block b).map (·.fileSize)

def DriveEvent.LogsChanges (db : DriveDb) : DriveEvent → Prop
  | .tx call => call.tx.LogsChanges db
  | .other => True

def LoggedStep (dec : Decrypt) (decode : AccessDecoder) (db : DriveDb) (event : DriveEvent)
    (db' : DriveDb) : Prop :=
  WellFormedStep dec decode db event db' ∧ event.LogsChanges db

/-- What the feed rests on. -/
structure FeedReady (dec : Decrypt) (db : DriveDb) : Prop where
  sound : db.Sound
  tree : DriveTree db.drive.inodes
  readable : Readable dec db.drive.inodes
  owners : LogOwners db.drive

lemma FeedReady.empty (hs : db.drive = .empty) : FeedReady dec db := by
  refine ⟨run_sound hs (.refl : Reaches (CheckedStep fun _ => none) db [] db), ?_, ?_,
    ?_⟩ <;> rw [hs]
  · exact .nil
  · exact forall_mem_nil _
  · exact forall_mem_nil _

/-- The old entries, and one for every item that is not what it was. -/
structure ItemsLogged (dec : Decrypt) (height : Nat) (db db' : DriveDb) : Prop where
  kept : ∀ entry ∈ db.drive.modificationLog, entry ∈ db'.drive.modificationLog
  items : ∀ userId id,
    (⟨id, userId, heightToDb height⟩ : ModificationRow) ∈ db'.drive.modificationLog ∨
    userItems dec db' userId id = userItems dec db userId id

lemma ItemsLogged.trans {db₁} (hf : ItemsLogged dec height db db₁)
    (hs : ItemsLogged dec height db₁ db') : ItemsLogged dec height db db' := by
  refine ⟨fun entry hlo => hs.kept entry (hf.kept entry hlo), fun userId id => ?_⟩
  rcases hs.items userId id with hl | same
  · exact .inl hl
  · rcases hf.items userId id with hl | hs1
    · exact .inl (hs.kept _ hl)
    · exact .inr (same.trans hs1)

lemma LoggedStep.keeps {event} (hre : FeedReady dec db) (step : LoggedStep dec decode db event db')
    (hh : ∀ call, event = .tx call → call.ctx.height = height) :
    FeedReady dec db' ∧ ItemsLogged dec height db db' := by
  obtain ⟨⟨hc, tree, hr, hsi⟩, logs⟩ := step
  have hs : db'.Sound := by
    cases event with
    | tx call => exact process_sound hc.1 hre.sound
    | other => exact hc.sound_other hre.sound
  cases event with
  | tx call =>
    have fed := process_feed hre.tree tree hre.owners logs hc.1
    refine ⟨⟨hs, tree, hr, fed.owners⟩, fed.kept, fun userId id => ?_⟩
    rw [hh call rfl] at fed
    rcases fed.seen userId id with hl | same
    · exact .inl hl
    · refine .inr (userItems_congr hre.tree tree hre.readable hr ?_ same)
      intro row ht b held
      rw [process_sizes (hre.sound.inodes row ht b held) hc.1]
  | other =>
    have same : db'.drive = db.drive := hc.1
    refine ⟨⟨hs, tree, hr, same ▸ hre.owners⟩, fun entry hlo => same ▸ hlo, fun userId id => ?_⟩
    exact .inr (userItems_congr hre.tree tree hre.readable hr (hsi rfl) (by rw [same]))

lemma run_ready {db₀ past} (hs : db₀.drive = .empty)
    (run : Reaches (LoggedStep dec decode) db₀ past db) : FeedReady dec db := by
  refine run.invariant_state (FeedReady dec) (.empty hs) ?_
  intro db event db' hr step
  cases event with
  | tx call =>
    have hh : ∀ other, tx call = .tx other → other.ctx.height = call.ctx.height := by
      rintro other ⟨⟩
      rfl
    exact (step.keeps hr hh).1
  | other =>
    have hh : ∀ call, other = .tx call → call.ctx.height = 0 := by
      rintro call ⟨⟩
    exact (step.keeps hr hh).1

lemma block_keeps {events} (hre : FeedReady dec db)
    (hhe : ∀ call, .tx call ∈ events → call.ctx.height = height)
    (run : Reaches (LoggedStep dec decode) db events db') :
    FeedReady dec db' ∧ ItemsLogged dec height db db' := by
  have each := run.invariant (fun past now => (∀ call, .tx call ∈ past → call.ctx.height = height) →
    FeedReady dec now ∧ ItemsLogged dec height db now) ?_ ?_
  · exact each hhe
  · exact fun _ => ⟨hre, fun _ hlo => hlo, fun _ _ => .inr rfl⟩
  · intro past now event next _ hb hs hh
    obtain ⟨hrn, hl⟩ := hb fun call hp => hh call (mem_append_left _ hp)
    have here : ∀ call, event = .tx call → call.ctx.height = height := fun call he =>
      hh call (mem_append_right _ (mem_singleton.2 he.symm))
    obtain ⟨hr, one⟩ := hs.keeps hrn here
    exact ⟨hr, hl.trans one⟩

end

/-- A node and a client of one of its users, with the items and the height it was given. -/
structure FeedClient where
  db : DriveDb
  height : Nat
  anchor : Nat
  items : ItemMap

inductive FeedEvent where
  | block (height : Nat) (events : List DriveEvent)
  | poll

/-- Blocks come at rising heights, stored as `i64`; `get_changes` reads the delta and the height
from one snapshot. -/
def FeedStep (step : DriveDb → DriveEvent → DriveDb → Prop) (dec : Decrypt) (userId : Int)
    (s : FeedClient) (event : FeedEvent) (s' : FeedClient) : Prop :=
  match event with
  | .block height events =>
    s.height < height ∧ height < 2 ^ 63 ∧ (∀ call, .tx call ∈ events → call.ctx.height = height) ∧
      Reaches step s.db events s'.db ∧ s' = { s with db := s'.db, height := height }
  | .poll => ∃ delta, changesSince dec s.db userId s.anchor = .ok delta ∧
      s' = { s with items := applyDelta delta s.items, anchor := s.height }

section

variable {s s' : FeedClient}

/-- Where the log is silent above the anchor, the client has the current item. -/
structure InStep (dec : Decrypt) (userId : Int) (s : FeedClient) : Prop where
  ready : FeedReady dec s.db
  anchored : s.anchor ≤ s.height
  items : ∀ id, id ∈ touched s.db userId (heightToDb s.anchor) ∨
    userItems dec s.db userId id = s.items id

lemma mem_touched {db since id} : id ∈ touched db userId since ↔ ∃ entry ∈ db.drive.modificationLog,
    (entry.ownerId = userId ∧ since < entry.modifiedAtHeight) ∧ entry.inodeId = id := by
  simp only [touched, mem_dedup, mem_map, mem_filter, decide_eq_true_eq, and_assoc]

lemma InStep.poll (hs : InStep dec userId s) : ∃ delta, changesSince dec s.db userId s.anchor =
    .ok delta ∧ applyDelta delta s.items = userItems dec s.db userId := by
  obtain ⟨delta, ran, ha⟩ := applyDelta_changesSince hs.ready.readable
  refine ⟨delta, ran, funext fun id => ?_⟩
  rw [ha]
  split_ifs with hn
  · rfl
  · exact ((hs.items id).resolve_left hn).symm

lemma InStep.next {event} (hs : InStep dec userId s)
    (step : FeedStep (LoggedStep dec decode) dec userId s event s') : InStep dec userId s' := by
  cases event with
  | block height events =>
    obtain ⟨hla, hf, hh, run, hm⟩ := step
    obtain ⟨hr, hl⟩ := block_keeps hs.ready hh run
    rw [hm]
    refine ⟨hr, hs.anchored.trans hla.le, fun id => ?_⟩
    have ha : heightToDb s.anchor < heightToDb height := by
      have := hs.anchored
      rw [heightToDb_of_lt (by omega), heightToDb_of_lt hf]
      omega
    rcases hl.items userId id with entry | same
    · exact .inl (mem_touched.2 ⟨_, entry, ⟨rfl, ha⟩, rfl⟩)
    · rcases hs.items id with hn | hc
      · obtain ⟨entry, hlo, rest⟩ := mem_touched.1 hn
        exact .inl (mem_touched.2 ⟨entry, hl.kept entry hlo, rest⟩)
      · exact .inr (same.trans hc)
  | poll =>
    obtain ⟨delta, ran, rfl⟩ := step
    obtain ⟨delta', ran', hc⟩ := hs.poll
    rw [ran, Except.ok.injEq] at ran'
    subst ran'
    exact ⟨hs.ready, le_refl _, fun id => .inr (congrFun hc id).symm⟩

/-- From the items of any reached state on, a client that polls now and then, each time from the
height that came with its last poll, gets exactly the user's items at every poll. -/
theorem feed_follows_while_logged (dec : Decrypt) (decode : AccessDecoder) (userId : Int)
    (db₀ : DriveDb) (past : List DriveEvent) (s₀ s : FeedClient) (events : List FeedEvent)
    (start : db₀.drive = .empty) (reached : Reaches (LoggedStep dec decode) db₀ past s₀.db)
    (anchored : s₀.anchor = s₀.height) (items : s₀.items = userItems dec s₀.db userId)
    (run : Reaches (FeedStep (LoggedStep dec decode) dec userId) s₀ events s) :
    ∃ delta, changesSince dec s.db userId s.anchor = .ok delta ∧
      applyDelta delta s.items = userItems dec s.db userId := by
  refine (run.invariant_state (InStep dec userId) ?_ fun _ _ _ hs step => hs.next step).poll
  exact ⟨run_ready start reached, anchored.le, fun id => .inr (by rw [items])⟩

end

instance decidableInodeKeys (inodes : List Inode) : Decidable (InodeKeys inodes) :=
  decidable_of_iff _ (inodeKeys_iff inodes).symm

instance decidableDriveTree (inodes : List Inode) : Decidable (DriveTree inodes) :=
  decidable_of_iff _ (driveTree_iff inodes).symm

/-- Segments in the clear. -/
def plainNames : Decrypt := fun _ g => some g

def wellFormedNext (db : DriveDb) (event : DriveEvent) : Option DriveDb :=
  (driveNext sampleDecode db event).filter fun db' =>
    DriveTree db'.drive.inodes ∧ Readable plainNames db'.drive.inodes

variable {event : DriveEvent}

lemma wellFormedNext_sound
    (hn : wellFormedNext db event = some db') :
    WellFormedStep plainNames sampleDecode db event db' := by
  rw [wellFormedNext, Option.filter_eq_some_iff] at hn
  obtain ⟨hs, hg⟩ := hn
  have hg : DriveTree db'.drive.inodes ∧ Readable plainNames db'.drive.inodes := by simpa using hg
  refine ⟨driveNext_checked hs, hg.1, hg.2, ?_⟩
  rintro rfl
  cases hs

def clearShared : List DriveEvent :=
  [asUser 4 1 (.modifyItem ⟨1, ⟨1⟩, none, some none, none, false⟩)]

def fileTaken : DriveDb := final wellFormedNext emptyDrive sharedFile

def fileCleared : DriveDb := final wellFormedNext fileTaken clearShared

/-- The second user's file loses its block, and the feed says nothing. -/
theorem cleared_content_unseen :
    Reaches (WellFormedStep plainNames sampleDecode) emptyDrive sharedFile fileTaken ∧
    Reaches (WellFormedStep plainNames sampleDecode) fileTaken clearShared fileCleared ∧
    (∀ call, .tx call ∈ sharedFile → call.ctx.height ≤ 3) ∧
    (∀ call, .tx call ∈ clearShared → call.ctx.height = 4) ∧
    changesSince plainNames fileCleared 2 3 = .ok ([], []) ∧
    applyDelta ([], []) (userItems plainNames fileTaken 2) ⟨2⟩ =
      some ⟨none, ['b'], .file, some 10, some ⟨10⟩⟩ ∧
    userItems plainNames fileCleared 2 ⟨2⟩ = some ⟨none, ['b'], .file, some 0, none⟩ := by
  refine ⟨.of_foldlM wellFormedNext_sound (by decide +kernel),
    .of_foldlM wellFormedNext_sound (by decide +kernel), ?_, ?_, ?_, ?_, ?_⟩
  · intro call hr
    simp only [sharedFile, asUser, mem_cons, tx.injEq, not_mem_nil, or_false] at hr
    rcases hr with rfl | rfl | rfl <;> decide
  · intro call hr
    simp only [clearShared, asUser, mem_singleton, tx.injEq] at hr
    rw [hr]
    rfl
  · decide +kernel
  · decide +kernel
  · decide +kernel

instance (db : DriveDb) (event : DriveEvent) : Decidable (event.LogsChanges db) := by
  cases event <;> unfold DriveEvent.LogsChanges <;> infer_instance

/-- User 1 writes a new version instead. -/
def editShared : List DriveEvent :=
  [asUser 4 1 (.modifyItem ⟨1, ⟨1⟩, none, some (some (sampleBlobOp 11 1)), none, false⟩)]

def fileEdited : DriveDb := final wellFormedNext fileTaken editShared

/-- The other user's client gets the new version and goes on from its height. -/
theorem editShared_followed :
    userItems plainNames fileEdited 2 ⟨2⟩ = some ⟨none, ['b'], .file, some 11, some ⟨11⟩⟩ ∧
    ∃ delta, changesSince plainNames fileEdited 2 3 = .ok delta ∧
      applyDelta delta (userItems plainNames fileTaken 2) = userItems plainNames fileEdited 2 := by
  have hr : Reaches (LoggedStep plainNames sampleDecode) emptyDrive sharedFile fileTaken :=
    .of_guarded wellFormedNext_sound (by decide +kernel)
  have he : Reaches (LoggedStep plainNames sampleDecode) fileTaken editShared fileEdited :=
    .of_guarded wellFormedNext_sound (by decide +kernel)
  let before : FeedClient := ⟨fileTaken, 3, 3, userItems plainNames fileTaken 2⟩
  have hh : ∀ call, .tx call ∈ editShared → call.ctx.height = 4 := by
    intro call hru
    simp only [editShared, asUser, mem_singleton, tx.injEq] at hru
    rw [hru]
    rfl
  have hb : FeedStep (LoggedStep plainNames sampleDecode) plainNames 2 before (.block 4 editShared)
      { before with db := fileEdited, height := 4 } := ⟨by decide, by decide, hh, he, rfl⟩
  exact ⟨by decide +kernel,
    feed_follows_while_logged plainNames sampleDecode 2 emptyDrive sharedFile before
    { before with db := fileEdited, height := 4 } [.block 4 editShared] rfl hr rfl rfl
      (.snoc .refl hb)⟩

end HopNet
