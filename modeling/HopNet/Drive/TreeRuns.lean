import HopNet.Drive.Rename

namespace HopNet

open Fallible Runs SlashPath List DriveTables

variable {inodes : List Inode} {userId : Int}

/-- Each inode of a batch finds its ancestors in the table or the batch. What is taken is not
inserted. -/
def BatchRooted : List Inode → List Inode → Prop
  | _, [] => True
  | present, inode :: rest =>
    if Taken present inode then BatchRooted present rest
    else RootedAt present inode.ownerId inode.path ∧ BatchRooted (present ++ [inode]) rest

instance decidableBatchRooted : ∀ present batch : List Inode, Decidable (BatchRooted present batch)
  | _, [] => inferInstanceAs (Decidable True)
  | present, inode :: rest =>
    have := decidableBatchRooted present rest
    have := decidableBatchRooted (present ++ [inode]) rest
    inferInstanceAs (Decidable (if Taken present inode then _ else _ ∧ _))

def AcceptSharePayload.parents (payload : AcceptSharePayload) : List Inode :=
  payload.parentFolderInodes.map fun folder =>
    ⟨folder.1, payload.recipientId, folder.2, .folder, none⟩

/-- The paths are hexadecimal, as the routes make them, and their folders are there or brought. -/
def DriveTx.FindsParents (db : DriveDb) : DriveTx → Prop
  | .insertFiles _ inodes =>
    (∀ inode ∈ inodes, HexPath inode.path) ∧ BatchRooted db.drive.inodes inodes
  | .modifyItem payload =>
    ∀ newPath ∈ payload.newEncryptedPath, HexPath newPath ∧
      RootedAt db.drive.inodes payload.userId newPath
  | .acceptShare payload =>
    (∀ folder ∈ payload.parentFolderInodes, HexPath folder.2) ∧ HexPath payload.encryptedPath ∧
      BatchRooted db.drive.inodes (payload.parents ++
        [⟨payload.inodeId, payload.recipientId, payload.encryptedPath, .file, none⟩])
  | _ => True

instance (db : DriveDb) (tx : DriveTx) : Decidable (tx.FindsParents db) := by
  cases tx <;> unfold DriveTx.FindsParents <;> infer_instance

variable {inodes' : List Inode} {inode : Inode}

section

variable {path : Path}

lemma DriveTree.nil : DriveTree [] :=
  ⟨⟨.nil, .nil⟩, fun _ ht => absurd ht (not_mem_nil), fun _ ht =>
    absurd ht (not_mem_nil)⟩

lemma RootedAt.mono (hr : RootedAt inodes userId path) (hg : ∀ row ∈ inodes, row ∈ inodes') :
    RootedAt inodes' userId path := by
  intro a ha
  obtain ⟨folder, ht, rest⟩ := hr a ha
  exact ⟨folder, hg folder ht, rest⟩

lemma DriveTree.append (good : DriveTree inodes) (hf : ¬ Taken inodes inode)
    (hex : HexPath inode.path)
    (hr : RootedAt inodes inode.ownerId inode.path) : DriveTree (inodes ++ [inode]) := by
  refine ⟨good.keys.append hf, ?_, ?_⟩
  · exact forall_mem_append.2 ⟨good.hex, forall_mem_singleton.2 hex⟩
  · intro row ht
    have hg : ∀ row ∈ inodes, row ∈ inodes ++ [inode] := fun _ old => mem_append_left _ old
    rcases mem_append.1 ht with old | new
    · exact RootedAt.mono (good.tree row old) hg
    · rw [mem_singleton.1 new]
      exact hr.mono hg

lemma DriveTree.filter (hg : DriveTree inodes) {gone : Inode → Prop} [DecidablePred gone]
    (hc : ∀ above row : Inode, gone above → above.ownerId = row.ownerId →
      Below above.path row.path →
      gone row) :
    DriveTree (inodes.filter fun row => ¬ gone row) := by
  refine ⟨⟨hg.keys.ids.sublist (filter_sublist.map _),
    hg.keys.paths.sublist (filter_sublist.map _)⟩, ?_, ?_⟩
  · intro row hk
    exact hg.hex row (mem_filter.1 hk).1
  · intro row hk a above
    obtain ⟨ht, hs⟩ := mem_filter.1 hk
    obtain ⟨folder, hf, ho, rfl, kind⟩ := hg.tree row ht a above
    refine ⟨folder, mem_filter.2 ⟨hf, ?_⟩, ho, rfl, kind⟩
    have hs : ¬ gone row := by simpa using hs
    simpa using fun goes => hs (hc folder row goes ho above.2)

lemma driveTree_map_data {g : Inode → Inode}
    (hp : ∀ row, ∃ dataId, g row = { row with dataId := dataId }) :
    DriveTree (inodes.map g) ↔ DriveTree inodes := by
  have same : ∀ row, (g row).ownerId = row.ownerId ∧ (g row).path = row.path ∧
      (g row).inodeType = row.inodeType := by
    intro row
    obtain ⟨d, hs⟩ := hp row
    rw [hs]
    exact ⟨rfl, rfl, rfl⟩
  simp only [driveTree_iff, inodeKeys_map_data hp, TreeShaped, mem_map,
    forall_exists_index, and_imp, forall_apply_eq_imp_iff₂, exists_exists_and_eq_and, same]

end

variable {height : Nat}

section

variable {t t' : DriveTables} {item : Inode} {newPath : Path} {replace : Bool}

lemma HexPath.moved {p s} (hh : HexPath p) (hhr : HexPath (p ++ '/' :: s))
    (hhn : HexPath newPath) : HexPath (newPath ++ '/' :: s) := by
  obtain ⟨front, hn, hf, rfl⟩ := hhn
  obtain ⟨all, _, ha, hai⟩ := hhr
  have hp : ∀ g ∈ all, '/' ∉ g :=
    fun g hal hsl => absurd ((ha g hal).2 _ hsl) (by decide)
  have hab : Ancestor p (pathOf all) := ⟨hh.ne_nil, s, hai.symm⟩
  obtain ⟨i, _, _, rfl⟩ := (ancestor_pathOf hp).1 hab
  have hw : pathOf all = pathOf (all.take i) ++ pathOf (all.drop i) := by
    rw [pathOf, pathOf, pathOf, ← flatMap_append, take_append_drop]
  rw [hw, append_cancel_left_eq] at hai
  refine ⟨front ++ all.drop i, by simp [hn], ?_, ?_⟩
  · intro g hs
    rcases mem_append.1 hs with hfr | hr
    · exact hf g hfr
    · exact ha g (mem_of_mem_drop hr)
  · rw [hai, pathOf, pathOf, pathOf, flatMap_append]

lemma DriveTree.folder_of_below (hg : DriveTree inodes) {above row}
    (ha : above ∈ inodes) (hr : row ∈ inodes) (ho : row.ownerId = above.ownerId)
    (hb : Below above.path row.path) : above.inodeType = .folder := by
  cases hk : above.inodeType with
  | folder => rfl
  | file => exact absurd hb (hg.not_below_file ha hk hr ho)

namespace Moved

variable (move : Moved inodes inodes' item newPath replace) {row : Inode}
include move

/-- The ancestors of the destination are not among the rows that move. -/
lemma destination (hr : RootedAt inodes item.ownerId newPath) :
    RootedAt inodes' item.ownerId newPath := by
  intro a ha
  obtain ⟨folder, ht, ho, rfl, kind⟩ := hr a ha
  refine ⟨folder, move.stays ht (fun hth => ha.2.ne hth.2.1.symm) ?_, ho, rfl, kind⟩
  rintro ⟨_, here | hi⟩
  · have hit := move.good.keys.eq_of_path ht move.inItem ho here
    rw [hit] at kind ha
    exact move.outside kind (.inr ha.2)
  · exact move.outside (move.good.folder_of_below move.inItem ht ho hi)
      (.inr (hi.trans ha.2))

/-- The ancestors of a row that moves with its folder. -/
lemma rooted_below (hr : RootedAt inodes item.ownerId newPath) (ht : row ∈ inodes)
    (mine : row.ownerId = item.ownerId) {s} (hb : row.path = item.path ++ '/' :: s) :
    RootedAt inodes' item.ownerId (newPath ++ '/' :: s) := by
  intro a ha
  have hfo := move.good.folder_of_below move.inItem ht mine ⟨s, hb⟩
  have hn : Below newPath (newPath ++ '/' :: s) := ⟨s, rfl⟩
  rcases ha.2.total hn with rfl | hh | hl
  · exact ⟨_, move.item_there, rfl, rfl, hfo⟩
  · exact move.destination hr a ⟨ha.1, hh⟩
  · -- Between the item and the row: the folder that was there moved along.
    obtain ⟨m, rfl⟩ := hl
    obtain ⟨r, tail⟩ := ha.2
    have ho : Ancestor (item.path ++ '/' :: m) row.path := by
      refine ⟨by simp, r, ?_⟩
      rw [append_assoc, append_cancel_left_eq] at tail
      rw [hb, append_assoc, tail]
    obtain ⟨folder, hfr, how, path, kind⟩ := move.good.tree row ht _ ho
    have hf := how.trans mine
    have free : ¬ Occupies item newPath folder := by
      intro hth
      exact move.outside hfo (.inr (hth.2.1 ▸ ⟨m, path⟩))
    have hth := move.kept hfr free
    rw [renamed_below hf path] at hth
    exact ⟨_, hth, hf, rfl, kind⟩

/-- What lies above a row that does not move stays: it was not empty. -/
lemma above_stays {row folder} (ht : row ∈ inodes) (hf : folder ∈ inodes)
    (ho : folder.ownerId = row.ownerId) (hb : Below folder.path row.path)
    (hu : ¬ (row.ownerId = item.ownerId ∧ Under item.path row.path)) : folder ∈ inodes' := by
  refine move.stays hf ?_ ?_
  · intro hth
    exact (move.replaceable folder hf hth).empty row ht (ho ▸ hth.1) hb
  · rintro ⟨hm, hun⟩
    refine hu ⟨ho ▸ hm, ?_⟩
    rcases hun with hh | hi
    · exact .inr (hh ▸ hb)
    · exact .inr (hi.trans hb)

lemma rooted_unmoved (ht : row ∈ inodes)
    (hu : ¬ (row.ownerId = item.ownerId ∧ Under item.path row.path)) :
    RootedAt inodes' row.ownerId row.path := by
  intro a ha
  obtain ⟨folder, hf, ho, rfl, kind⟩ := move.good.tree row ht a ha
  exact ⟨folder, move.above_stays ht hf ho ha.2 hu, ho, rfl, kind⟩

end Moved

/-- A move to a place with its parents keeps the tree. -/
lemma changePath_tree (hg : DriveTree t.inodes) (hi : item ∈ t.inodes)
    (hmo : t.changePath item newPath replace height = .ok t')
    (hex : HexPath newPath) (hro : RootedAt t.inodes item.ownerId newPath) :
    DriveTree t'.inodes := by
  obtain ⟨move, keys⟩ := changePath_moved hg hi hmo
  have he : ∀ row' ∈ t'.inodes, HexPath row'.path ∧ RootedAt t'.inodes row'.ownerId row'.path := by
    intro row' ha
    rw [move.rows] at ha
    obtain ⟨row, hk, rfl⟩ := mem_map.1 ha
    have ht := (mem_filter.1 hk).1
    by_cases hm : row.ownerId = item.ownerId ∧ Under item.path row.path
    · obtain ⟨mine, hh | ⟨s, hb⟩⟩ := hm
      · rw [hg.keys.eq_of_path ht hi mine hh, renamed_item]
        exact ⟨hex, move.destination hro⟩
      · rw [renamed_below mine hb]
        refine ⟨(hg.hex item hi).moved (hb ▸ hg.hex row ht) hex, ?_⟩
        rw [mine]
        exact move.rooted_below hro ht mine hb
    · rw [renamed, if_neg hm]
      exact ⟨hg.hex row ht, move.rooted_unmoved ht hm⟩
  exact ⟨keys, fun row' ha => (he row' ha).1, fun row' ha => (he row' ha).2⟩

end

variable {db db' : DriveDb}

section

variable {ctx : ApplyCtx} {payload : AcceptSharePayload}

lemma insertInode_inodes (ran : insertInode height db inode = .ok db') : db'.drive.inodes =
    if Taken db.drive.inodes inode then db.drive.inodes else db.drive.inodes ++ [inode] := by
  rcases insertInode_ok ran with ⟨ht, rfl⟩ | ⟨hf, _, rfl⟩
  · exact (if_pos ht).symm
  · exact sameRows_logModification.inodes.trans (if_neg hf).symm

lemma insertParentFolder_inodes {recipientId folder}
    (ran : insertParentFolder recipientId db folder = .ok db') :
    db'.drive.inodes =
      if Taken db.drive.inodes ⟨folder.1, recipientId, folder.2, .folder, none⟩ then db.drive.inodes
      else db.drive.inodes ++ [⟨folder.1, recipientId, folder.2, .folder, none⟩] := by
  rcases insertParentFolder_ok ran with ⟨ht, rfl⟩ | ⟨hf, _, rfl⟩
  · exact (if_pos ht).symm
  · exact (if_neg hf).symm

/-- Inserts over the front of a rooted batch leave a tree, and the rest rooted in it. -/
lemma batch_tree {ι : Type} {f : DriveDb → ι → DbResult DriveDb} (row : ι → Inode)
    (he : ∀ db x db', f db x = .ok db' → db'.drive.inodes =
      if Taken db.drive.inodes (row x) then db.drive.inodes else db.drive.inodes ++ [row x])
    {batch : List ι} {rest} (hex : ∀ x ∈ batch, HexPath (row x).path)
    (ran : batch.foldlM f db = .ok db') (good : DriveTree db.drive.inodes)
    (hr : BatchRooted db.drive.inodes (batch.map row ++ rest)) :
    DriveTree db'.drive.inodes ∧ BatchRooted db'.drive.inodes rest := by
  induction batch generalizing db with
  | nil =>
    cases ran
    exact ⟨good, hr⟩
  | cons x batch ih =>
    rw [foldlM_cons, bind_eq_ok] at ran
    obtain ⟨middle, hf, ho⟩ := ran
    have hi := he db x middle hf
    have hh : ∀ y ∈ batch, HexPath (row y).path := fun y hl => hex y (mem_cons_of_mem x hl)
    rw [map_cons, cons_append, BatchRooted] at hr
    by_cases ht : Taken db.drive.inodes (row x)
    · rw [if_pos ht] at hi hr
      exact ih hh ho (hi ▸ good) (hi ▸ hr)
    · rw [if_neg ht] at hi hr
      have hg := good.append ht (hex x mem_cons_self) hr.1
      exact ih hh ho (hi ▸ hg) (hi ▸ hr.2)

lemma insertFiles_tree {blobOps : List BlobInsertOp}
    (ran : insertFiles ctx blobOps inodes db = .ok db') (hg : DriveTree db.drive.inodes)
    (hex : ∀ inode ∈ inodes, HexPath inode.path) (hr : BatchRooted db.drive.inodes inodes) :
    DriveTree db'.drive.inodes := by
  simp only [insertFiles, bind_eq_ok] at ran
  obtain ⟨storage, _, ran⟩ := ran
  have hw : BatchRooted db.drive.inodes (inodes.map id ++ []) := by simpa using hr
  exact (batch_tree id (fun _ _ _ => insertInode_inodes) hex ran hg hw).1

lemma insertShareMember_inodes {b} (ran : insertShareMember b db userId = .ok db') :
    db'.drive.inodes = db.drive.inodes := by
  rcases insertShareMember_ok ran with ⟨_, rfl⟩ | ⟨_, _, rfl⟩ <;> rfl

lemma acceptShare_inodes {decode : AccessDecoder} {signer}
    (ran : acceptShare decode ctx signer payload db = .ok db') :
    ∃ share storage placed, insertSharedInode payload share { db with storage := storage } =
      .ok placed ∧ db'.drive.inodes = placed.drive.inodes := by
  obtain ⟨share, storage, placed, sent, joined, _, _, _, _, hi, hf, hs, rfl⟩ := acceptShare_ok ran
  refine ⟨share, storage, placed, hi, ?_⟩
  rw [← insertShareMember_inodes hf, ← insertShareMember_inodes hs]
  exact sameRows_logModification.inodes

lemma insertSharedInode_tree {share : IncomingShareRow}
    (ran : insertSharedInode payload share db = .ok db') (good : DriveTree db.drive.inodes)
    (hh : ∀ folder ∈ payload.parentFolderInodes, HexPath folder.2)
    (hex : HexPath payload.encryptedPath)
    (hr : BatchRooted db.drive.inodes (payload.parents ++
      [⟨payload.inodeId, payload.recipientId, payload.encryptedPath, .file, none⟩])) :
    DriveTree db'.drive.inodes := by
  simp only [insertSharedInode, bind_eq_ok, exists_require, pure_eq_ok] at ran
  obtain ⟨middle, hp, hf, _, rfl⟩ := ran
  obtain ⟨hg, hl⟩ :=
    batch_tree (fun folder => ⟨folder.1, payload.recipientId, folder.2, .folder, none⟩)
      (fun _ _ _ => insertParentFolder_inodes) hh hp good hr
  -- Which block the new row holds does not matter to its place.
  have hf' : ¬ Taken middle.drive.inodes
      ⟨payload.inodeId, payload.recipientId, payload.encryptedPath, .file, none⟩ := hf
  rw [BatchRooted, if_neg hf'] at hl
  exact hg.append hf hex hl.1

end

section

variable {decode : AccessDecoder}

lemma modifyItem_tree {ctx payload}
    (ran : modifyItem ctx payload db = .ok db') (hg : DriveTree db.drive.inodes)
    (hfi : (DriveTx.modifyItem payload).FindsParents db) : DriveTree db'.drive.inodes := by
  obtain ⟨item, drive, middle, hfo, hmo, hu, hdb⟩ := modifyItem_ok ran
  obtain ⟨hi, _, ho⟩ := inodeOf_some hfo
  have hp : DriveTree drive.inodes := by
    unfold applyPathChange at hmo
    split at hmo
    · cases hmo
      exact hg
    · rename_i newPath hm
      obtain ⟨hex, hr⟩ := hfi newPath hm
      exact changePath_tree hg hi hmo hex (ho ▸ hr)
  obtain ⟨g, hc, hma⟩ := applyContentUpdate_inodes hu
  have hf : DriveTree middle.drive.inodes := by
    rw [hma]
    exact (driveTree_map_data hc.place).2 hp
  have hl : DriveTables.SameRows middle.drive db'.drive := by
    rw [hdb, DriveDb.setDrive_drive]
    exact sameRows_logModification
  exact hl.inodes ▸ hf

/-- A delete takes whole subtrees, whatever its pattern selects. -/
lemma deleteFiles_tree {t : DriveTables} {path height}
    (hg : DriveTree t.inodes) : DriveTree (t.deleteFiles path userId height).1.inodes := by
  rw [deleteFiles_rows.1]
  refine hg.filter ?_
  rintro above row ⟨ho, hs⟩ same hb
  exact ⟨same ▸ ho, inSubtree_below hs hb⟩

lemma process_tree {call : DriveCall}
    (ran : call.tx.process decode call.ctx call.signer db = .ok db')
    (hg : DriveTree db.drive.inodes) (hf : call.tx.FindsParents db) :
    DriveTree db'.drive.inodes := by
  obtain ⟨ctx, signer, tx⟩ := call
  cases tx with
  | insertFiles blobOps inodes =>
    obtain ⟨_, _, _, ran⟩ := insertFilesHandler_ok ran
    exact insertFiles_tree ran hg hf.1 hf.2
  | modifyItem payload =>
    exact modifyItem_tree (modifyItemHandler_ok ran).2 hg hf
  | deleteFiles path userId =>
    rw [← (deleteFilesHandler_ok ran).2]
    exact deleteFiles_tree hg
  | acceptShare payload =>
    obtain ⟨share, storage, middle, hi, hs⟩ := acceptShare_inodes ran
    rw [hs]
    exact insertSharedInode_tree hi hg hf.1 hf.2.1 hf.2.2
  | shareFile payload =>
    obtain ⟨_, _, _, rfl⟩ := shareFile_ok ran
    exact hg
  | declineShare shareId userId =>
    obtain ⟨_, _, _, _, rfl⟩ := declineShare_ok ran
    exact hg
  | unshare inodeId userId =>
    obtain ⟨_, _, rfl⟩ := unshare_ok ran
    exact hg

def DriveEvent.FindsParents (db : DriveDb) : DriveEvent → Prop
  | .tx call => call.tx.FindsParents db
  | .other => True

/-- A transaction applied while the folders its paths need are there. -/
def ParentedStep (decode : AccessDecoder) (db : DriveDb) (event : DriveEvent) (db' : DriveDb) :
    Prop :=
  DriveStep decode db event db' ∧ event.FindsParents db

lemma run_tree {db₀ past} (hs : DriveTree db₀.drive.inodes)
    (run : Reaches (ParentedStep decode) db₀ past db) : DriveTree db.drive.inodes := by
  refine run.invariant_state (fun db => DriveTree db.drive.inodes) hs ?_
  rintro db event db' hg ht
  cases event with
  | tx call => exact process_tree ht.1 hg ht.2
  | other =>
    have same : db'.drive = db.drive := ht.1
    rw [same]
    exact hg

/-- Along a run whose transactions all find their parents when they are applied, every inode at
`/s₁/…/sₙ` has a folder of its user at every `/s₁/…/sᵢ`. -/
theorem tree_kept_while_parents_found (decode : AccessDecoder) (db₀ db : DriveDb)
    (past : List DriveEvent) (start : db₀.drive.inodes = [])
    (run : Reaches (ParentedStep decode) db₀ past db) :
    ∀ row ∈ db.drive.inodes, ∀ segments : List (List Char), (∀ g ∈ segments, '/' ∉ g) →
      row.path = pathOf segments → ∀ i, 0 < i → i < segments.length →
        ∃ folder ∈ db.drive.inodes, folder.ownerId = row.ownerId ∧
          folder.path = pathOf (segments.take i) ∧ folder.inodeType = .folder := by
  intro row ht segments hpl path i hp hs
  have hg := run_tree (start ▸ DriveTree.nil) run
  exact hg.tree row ht _ (path ▸ (ancestor_pathOf hpl).2 ⟨i, hp, hs, rfl⟩)

end

def parentedNext (db : DriveDb) (event : DriveEvent) : Option DriveDb :=
  match event with
  | .tx call => if call.tx.FindsParents db then driveNext (fun _ => none) db (.tx call) else none
  | .other => none

lemma parentedNext_sound {db db' event} (hn : parentedNext db event = some db') :
    ParentedStep (fun _ => none) db event db' := by
  cases event with
  | tx call =>
    simp only [parentedNext, Option.ite_none_right_eq_some] at hn
    exact ⟨driveNext_sound hn.2, hn.1⟩
  | other => cases hn

/-- What the upload route submits for an empty file or a folder, prepared on a state. -/
def preparedUpload (committed : DriveDb) (inode : Inode) : DriveTx :=
  .insertFiles [] (prependMissingParents committed.drive.inodes
    (fun i => ⟨BitVec.ofNat 128 (100 + i)⟩) inode.ownerId [inode])

def folderA : Inode := sampleInode 1 1 ['/', 'a'] .folder none

def fileAB : Inode := sampleInode 2 1 ['/', 'a', '/', 'b'] .file none

def folderMade : List DriveEvent := [asUser 1 1 (preparedUpload emptyDrive folderA)]

def afterFolder : DriveDb :=
  (folderMade.foldlM (driveNext fun _ => none) emptyDrive).getD emptyDrive

/-- The folder is deleted between an upload's preparation and its apply. -/
def uploadRace : List DriveEvent :=
  folderMade ++ [asUser 2 1 (.deleteFiles ['/', 'a'] 1),
    asUser 3 1 (preparedUpload afterFolder fileAB)]

def afterRace : DriveDb := (uploadRace.foldlM (driveNext fun _ => none) emptyDrive).getD emptyDrive

/-- The uploaded file is left without its folder. -/
theorem upload_races_delete : Reaches (DriveStep fun _ => none) emptyDrive folderMade afterFolder ∧
    Reaches (DriveStep fun _ => none) emptyDrive
      (folderMade ++ [asUser 2 1 (.deleteFiles ['/', 'a'] 1),
        asUser 3 1 (preparedUpload afterFolder fileAB)])
      afterRace ∧
    fileAB ∈ afterRace.drive.inodes ∧ fileAB.path = pathOf [['a'], ['b']] ∧
    ¬ ∃ folder ∈ afterRace.drive.inodes, folder.ownerId = fileAB.ownerId ∧
      folder.path = pathOf [['a']] ∧ folder.inodeType = .folder := by
  refine ⟨.of_foldlM driveNext_sound ?_, .of_foldlM driveNext_sound ?_, ?_⟩ <;>
    decide +kernel

/-- The folder and the file come together, and the folder is then renamed. -/
def uploadThenMove : List DriveEvent :=
  [asUser 1 1 (preparedUpload emptyDrive fileAB),
    asUser 2 1 (.modifyItem ⟨1, ⟨100⟩, some ['/', 'c'], none, none, false⟩)]

def afterMove : DriveDb := final parentedNext emptyDrive uploadThenMove

theorem uploadThenMove_tree :
    { fileAB with path := ['/', 'c', '/', 'b'] } ∈ afterMove.drive.inodes ∧
      ∃ folder ∈ afterMove.drive.inodes, folder.ownerId = 1 ∧ folder.path = pathOf [['c']] ∧
        folder.inodeType = .folder := by
  have run : Reaches (ParentedStep fun _ => none) emptyDrive uploadThenMove afterMove :=
    .of_foldlM parentedNext_sound (by decide +kernel)
  have ht : { fileAB with path := ['/', 'c', '/', 'b'] } ∈ afterMove.drive.inodes := by
    decide +kernel
  exact ⟨ht, tree_kept_while_parents_found _ _ _ _ rfl run _ ht [['c'], ['b']] (by decide) rfl 1
    (by decide) (by decide)⟩

end HopNet
