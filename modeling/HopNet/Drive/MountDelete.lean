import HopNet.Drive.TreeRuns

namespace HopNet

open Fallible Runs List SlashPath DriveTables

structure MountDeleteRequest where
  id : CustomUUID
  recursive : Bool

def isFolderEmpty (t : DriveTables) (path : Path) (userId : Int) : Bool :=
  ∀ row ∈ t.inodes, ¬ (row.ownerId = userId ∧ Like.like (path ++ ['/', '%']) row.path = true)

variable (request : MountDeleteRequest)

/-- What is submitted. The path is resolved on one state and checked on a later one, by a delete
that is rolled back. Where `counted` is false the query for children failed, which counts as
empty. -/
def deleteItem (userId : Int) (counted : Bool) (resolved checked : DriveTables) :
    DbResult DriveTx := do
  let item ← orNotFound (resolved.inodeOf request.id userId)
  require (request.recursive ∨ ¬ counted ∨ isFolderEmpty checked item.path userId) .conflictError
  (checked.deleteFiles item.path userId 0).2
  return .deleteFiles item.path userId

/-- The inode asked for goes and, if recursive, what lies below it. -/
def RemovesAsked (t t' : DriveTables) : Prop :=
  ∀ row ∈ t.inodes, row ∉ t'.inodes → row.id = request.id ∨ request.recursive = true ∧
    ∃ item ∈ t.inodes, item.id = request.id ∧ item.ownerId = row.ownerId ∧ Below item.path row.path

/-- The path is free again, or all that is there is the inode with what is below it, and the request
is recursive or nothing is below. -/
def PathStillIts (userId : Int) (path : Path) (t : DriveTables) : Prop :=
  (∀ row ∈ t.inodes, ¬ Selected path userId row) ∨ ∃ item ∈ t.inodes, item.id = request.id ∧
    item.ownerId = userId ∧
    (∀ row ∈ t.inodes, Selected path userId row → Under item.path row.path) ∧
    (request.recursive = true ∨ ∀ row ∈ t.inodes, row.ownerId = userId → ¬ Below item.path row.path)

lemma deleteFiles_removesAsked {request userId path height t} (keys : InodeKeys t.inodes) :
    RemovesAsked request t (t.deleteFiles path userId height).1 ↔
    PathStillIts request userId path t := by
  have gone : ∀ row ∈ t.inodes, row ∉ (t.deleteFiles path userId height).1.inodes ↔
      Selected path userId row := by
    intro row there
    rw [deleteFiles_rows.1]
    simp [there]
  constructor
  · intro asked
    by_cases free : ∀ row ∈ t.inodes, ¬ Selected path userId row
    · exact .inl free
    · push Not at free
      obtain ⟨row, there, hs⟩ := free
      -- Whatever is selected shows where the inode is.
      have named : ∃ item ∈ t.inodes, item.id = request.id ∧ item.ownerId = userId := by
        rcases asked row there ((gone row there).2 hs) with same | ⟨_, item, hi, hid, ho, _⟩
        · exact ⟨row, there, same, hs.1⟩
        · exact ⟨item, hi, hid, ho.trans hs.1⟩
      obtain ⟨item, hi, hid, ho⟩ := named
      have under : ∀ row ∈ t.inodes, Selected path userId row → Under item.path row.path := by
        intro row there hs
        rcases asked row there ((gone row there).2 hs) with same | ⟨_, other, hot, hot', _, hb⟩
        · exact .inl (congrArg Inode.path (keys.eq_of_id there hi (same.trans hid.symm)))
        · exact .inr (keys.eq_of_id hot hi (hot'.trans hid.symm) ▸ hb)
      refine .inr ⟨item, hi, hid, ho, under, ?_⟩
      by_cases hr : request.recursive = true
      · exact .inl hr
      · -- Only the inode itself is selected, so a row below it would be one too.
        have only : ∀ row ∈ t.inodes, Selected path userId row → row = item := by
          intro row there hs
          rcases asked row there ((gone row there).2 hs) with same | ⟨recursive, _⟩
          · exact keys.eq_of_id there hi (same.trans hid.symm)
          · exact absurd recursive hr
        refine .inr fun below hb hbo hbe => hbe.ne ?_
        have isItem := only row there hs
        rw [only below hb ⟨hbo, inSubtree_below (isItem ▸ hs.2) hbe⟩]
  · rintro (free | ⟨item, hi, hid, ho, under, hr⟩) row there hg
    · exact absurd ((gone row there).1 hg) (free row there)
    · have hs := (gone row there).1 hg
      rcases under row there hs with same | hb
      · exact .inl (keys.eq_of_path there hi (hs.1.trans ho.symm) same ▸ hid)
      · rcases hr with recursive | none
        · exact .inr ⟨recursive, item, hi, hid, ho.trans hs.1.symm, hb⟩
        · exact absurd hb (none row there hs.1)

/-- A delete that was resolved, checked and decided in three states of one run removes what was
asked exactly where the path is still the inode's. -/
theorem delete_removes_asked_iff (decode : AccessDecoder) (ctx : ApplyCtx) (userId : Int)
    (request : MountDeleteRequest) (counted : Bool) (db₀ resolved checked db db' : DriveDb)
    (past between since : List DriveEvent) (item : Inode) (tx : DriveTx)
    (start : db₀.drive = .empty) (reached : Reaches (CheckedStep decode) db₀ past resolved)
    (first : Reaches (CheckedStep decode) resolved between checked)
    (second : Reaches (CheckedStep decode) checked since db)
    (found : resolved.drive.inodeOf request.id userId = some item)
    (sent : deleteItem request userId counted resolved.drive checked.drive = .ok tx)
    (ran : tx.process decode ctx (some userId) db = .ok db') :
    RemovesAsked request db.drive db'.drive ↔ PathStillIts request userId item.path db.drive := by
  have keys := (run_sound start ((reached.trans first).trans second)).keys
  simp only [deleteItem, found, orNotFound, bind_eq_ok, pure_eq_ok] at sent
  obtain ⟨_, same, _, _, _, _, rfl⟩ := sent
  cases same
  obtain ⟨_, rfl⟩ := deleteFilesHandler_ok ran
  exact deleteFiles_removesAsked keys

def deleteFolder : MountDeleteRequest := ⟨⟨1⟩, false⟩

def childAdded : List DriveEvent := [asUser 2 1 (.insertFiles [] [fileAB])]

/-- The folder is renamed and another one made at its old path. -/
def pathReused : List DriveEvent :=
  [asUser 2 1 (.modifyItem ⟨1, ⟨1⟩, some ['/', 'c'], none, none, false⟩),
    asUser 3 1 (.insertFiles [] [sampleInode 5 1 ['/', 'a'] .folder none])]

def deleting : DriveEvent := asUser 4 1 (.deleteFiles ['/', 'a'] 1)

def decidedAfter (events : List DriveEvent) : DriveDb :=
  (events.foldlM (driveNext fun _ => none) afterFolder).getD emptyDrive

/-- The request passes its checks while the folder is empty. Decided after an upload into the folder
it removes the file as well; decided after the path has changed hands it removes the other
folder. -/
theorem delete_removes_others :
    Reaches (CheckedStep fun _ => none) emptyDrive folderMade afterFolder ∧
    deleteItem deleteFolder 1 true afterFolder.drive afterFolder.drive = .ok
    (.deleteFiles ['/', 'a'] 1) ∧
    Reaches (CheckedStep fun _ => none) afterFolder (childAdded ++ [deleting])
      (decidedAfter (childAdded ++ [deleting])) ∧
    (decidedAfter childAdded).drive.inodes = [folderA, fileAB] ∧
    (decidedAfter (childAdded ++ [deleting])).drive.inodes = [] ∧
    Reaches (CheckedStep fun _ => none) afterFolder (pathReused ++ [deleting])
      (decidedAfter (pathReused ++ [deleting])) ∧
    (decidedAfter pathReused).drive.inodes =
      [{ folderA with path := ['/', 'c'] }, sampleInode 5 1 ['/', 'a'] .folder none] ∧
  (decidedAfter (pathReused ++ [deleting])).drive.inodes = [{ folderA with path := ['/', 'c'] }] :=
  ⟨.of_foldlM driveNext_checked (by decide +kernel), by decide +kernel,
    .of_foldlM driveNext_checked (by decide +kernel), by decide +kernel, by decide +kernel,
    .of_foldlM driveNext_checked (by decide +kernel), by decide +kernel⟩

theorem delete_removes_folder :
    RemovesAsked deleteFolder afterFolder.drive (decidedAfter [deleting]).drive :=
  (delete_removes_asked_iff (fun _ => none) (sampleCtx 4) 1 deleteFolder true emptyDrive afterFolder
    afterFolder
    afterFolder (decidedAfter [deleting]) folderMade [] [] folderA (.deleteFiles ['/', 'a'] 1) rfl
    (.of_foldlM driveNext_checked (by decide +kernel)) .refl .refl (by decide +kernel)
    (by decide +kernel) (by decide +kernel)).2
    (.inr ⟨folderA, by decide +kernel, rfl, rfl, by decide +kernel, .inr (by decide +kernel)⟩)

end HopNet
