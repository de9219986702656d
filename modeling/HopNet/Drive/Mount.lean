import HopNet.Drive.Steps
import HopNet.Drive.Tree

namespace HopNet

open Fallible SlashPath List Option Sum

/-- `INSTR(text, '/')`: the place of the first slash, from one, or zero. -/
def instrSlash (text : Path) : Nat := if '/' ∈ text then text.idxOf '/' + 1 else 0

/-- `substr(path, 1, length(path) - INSTR(reverse(path), '/'))`. -/
def parentPath (path : Path) : Path := path.take (path.length - instrSlash path.reverse)

/-- The decryption of one segment under a user's key; `none` is an error. -/
abbrev Decrypt := Int → List Char → Option (List Char)

def decryptPath (decryptPart : List Char → Option (List Char)) (path : Path) : Option (List Char) :=
  if 1 < (path.splitOn '/').length then
    (((path.splitOn '/').filter (· ≠ [])).mapM decryptPart).map pathOf
  else some ['/']

/-- `split('/').next_back()`: what stands after the last slash. -/
def lastComponent (path : List Char) : List Char := (path.reverse.takeWhile (· ≠ '/')).reverse

/-- The 48 bits of a UUIDv7's clock (`uuid_extract_timestamp`). -/
def CustomUUID.millis (id : CustomUUID) : Nat := id.value.toNat / 2 ^ 80

structure MountItem where
  id : CustomUUID
  parentId : Option CustomUUID
  name : List Char
  itemType : InodeType
  size : Option Nat
  blobId : Option BlobId
  createdMs : Nat
  modifiedMs : Nat
  height : Option Nat
deriving DecidableEq

section

variable (dec : Decrypt) (db : DriveDb)

def parentId (inodes : List Inode) (row : Inode) : Option CustomUUID :=
  (inodes.find? fun parent => parent.path = parentPath row.path ∧ parent.ownerId = row.ownerId).map
    (·.id)

/-- The size of a file without a block is zero; a folder has none. -/
def itemSize (row : Inode) : Option Nat :=
  match row.inodeType with
  | .file => some (((row.dataId.bind db.storage.block).map (·.fileSize)).getD 0)
  | .folder => none

/-- `none` when the path does not decrypt. -/
def rowToItem (height : Option Int) (row : Inode) : Option MountItem :=
  (decryptPath (dec row.ownerId) row.path).map fun path =>
    { id := row.id
      parentId := parentId db.drive.inodes row
      name := lastComponent path
      itemType := row.inodeType
      size := itemSize db row
      blobId := row.dataId
      createdMs := row.id.millis
      modifiedMs := (row.dataId.getD row.id).millis
      height := height.map heightFromDb }

variable (userId : Int) (since : Int) (inodeId : CustomUUID)

/-- The heights above the anchor where the log names the inode for the user. -/
def loggedHeights : List Int :=
  (db.drive.modificationLog.filter fun row =>
    row.ownerId = userId ∧ since < row.modifiedAtHeight ∧ row.inodeId = inodeId).map
      (·.modifiedAtHeight)

/-- The inodes that the log names for the user above the anchor, each once. -/
def touched : List CustomUUID :=
  ((db.drive.modificationLog.filter fun row => row.ownerId = userId ∧
    since < row.modifiedAtHeight).map
    (·.inodeId)).dedup

/-- One row of the feed: the live item, or the id of a deleted one. -/
def changeOf : DbResult (MountItem ⊕ CustomUUID) :=
  match db.drive.inodeOf inodeId userId with
  | none => .ok (.inr inodeId)
  | some row =>
    match rowToItem dec db (loggedHeights db userId since inodeId).max? row with
    | none => .error .recallError
    | some item => .ok (.inl item)

/-- The whole tree's changes strictly after a height. -/
def changesSince (sinceHeight : Nat) : DbResult (List MountItem × List CustomUUID) := do
  let since := heightToDb sinceHeight
  let rows ← (touched db userId since).mapM (changeOf dec db userId since)
  return (rows.filterMap getLeft?, rows.filterMap getRight?)

end

/-- What a client keeps of an item. -/
structure ItemState where
  parentId : Option CustomUUID
  name : List Char
  itemType : InodeType
  size : Option Nat
  blobId : Option BlobId
deriving DecidableEq

def MountItem.state (item : MountItem) : ItemState :=
  ⟨item.parentId, item.name, item.itemType, item.size, item.blobId⟩

abbrev ItemMap := CustomUUID → Option ItemState

/-- A user's items: the rows that decrypt. -/
def userItems (dec : Decrypt) (db : DriveDb) (userId : Int) : ItemMap := fun id =>
  ((db.drive.inodeOf id userId).bind (rowToItem dec db none)).map (·.state)

def putItem (items : ItemMap) (item : MountItem) : ItemMap := fun id =>
  if id = item.id then some item.state else items id

/-- A client takes a delta: the deleted go, the items are inserted or replaced. -/
def applyDelta (delta : List MountItem × List CustomUUID) (items : ItemMap) : ItemMap :=
  delta.1.foldl putItem fun id => if id ∈ delta.2 then none else items id

/-- Every path decrypts under its owner's key. -/
def Readable (dec : Decrypt) (inodes : List Inode) : Prop :=
  ∀ row ∈ inodes, (decryptPath (dec row.ownerId) row.path).isSome
deriving Decidable

variable {dec : Decrypt} {db : DriveDb} {userId : Int} {sinceHeight : Nat} {items : List MountItem}
  {m : ItemMap} {id : CustomUUID}

lemma foldl_putItem_of_not_mem (ha : ∀ item ∈ items, item.id ≠ id) :
    items.foldl putItem m id = m id := by
  induction items generalizing m with
  | nil => rfl
  | cons item rest ih =>
    rw [foldl_cons, ih fun other hl => ha other (mem_cons_of_mem _ hl)]
    exact if_neg (ha item mem_cons_self).symm

/-- The items of a delta that agree wherever they speak of the same inode. -/
lemma foldl_putItem_of_mem {state}
    (hp : ∃ item ∈ items, item.id = id) (ha : ∀ item ∈ items, item.id = id → item.state = state) :
    items.foldl putItem m id = some state := by
  induction items generalizing m with
  | nil =>
    obtain ⟨_, hi, _⟩ := hp
    exact absurd hi not_mem_nil
  | cons item rest ih =>
    rw [foldl_cons]
    by_cases hl : ∃ other ∈ rest, other.id = id
    · exact ih hl fun other hr => ha other (mem_cons_of_mem _ hr)
    · rw [foldl_putItem_of_not_mem fun other hr hs => hl ⟨other, hr, hs⟩]
      obtain ⟨found, hit, isId⟩ := hp
      rcases mem_cons.1 hit with rfl | hr
      · rw [putItem, if_pos isId.symm, ha found mem_cons_self isId]
      · exact absurd ⟨found, hr, isId⟩ hl

/-- A feed row is the current item, or the id of an inode that is gone. -/
lemma changeOf_readable (hr : Readable dec db.drive.inodes) (userId since : Int) (id : CustomUUID) :
    ∃ change, changeOf dec db userId since id = .ok change ∧
      match change with
      | .inl item => item.id = id ∧ userItems dec db userId id = some item.state
      | .inr gone => gone = id ∧ userItems dec db userId id = none := by
  unfold changeOf userItems
  cases hf : db.drive.inodeOf id userId with
  | none => exact ⟨.inr id, rfl, rfl, rfl⟩
  | some row =>
    obtain ⟨ht, hi, _⟩ := inodeOf_some hf
    obtain ⟨path, hd⟩ := isSome_iff_exists.1 (hr row ht)
    simp only [bind_some, rowToItem, hd, map_some]
    exact ⟨.inl _, rfl, hi, rfl⟩

/-- A client that takes the feed has the current item of every logged inode, and keeps the
others. -/
lemma applyDelta_changesSince (hre : Readable dec db.drive.inodes) :
    ∃ delta, changesSince dec db userId sinceHeight = .ok delta ∧ ∀ items id,
      applyDelta delta items id =
        if id ∈ touched db userId (heightToDb sinceHeight) then userItems dec db userId id
          else items id := by
  obtain ⟨rows, ran, _⟩ := mapM_forall₂ (R := fun _ _ => True)
    fun id (_ : id ∈ touched db userId (heightToDb sinceHeight)) => by
      obtain ⟨change, ok, _⟩ := changeOf_readable hre userId (heightToDb sinceHeight) id
      exact ⟨change, ok, trivial⟩
  obtain ⟨has, came⟩ := mapM_eq_ok_mem ran
  refine ⟨(rows.filterMap getLeft?, rows.filterMap getRight?), by simp [changesSince, ran], ?_⟩
  -- Each row speaks of its own inode, so a change is about `id` exactly when `id` is logged.
  have ha : ∀ change ∈ rows, ∃ id ∈ touched db userId (heightToDb sinceHeight),
      match change with
      | .inl item => item.id = id ∧ userItems dec db userId id = some item.state
      | .inr gone => gone = id ∧ userItems dec db userId id = none := by
    intro change hr
    obtain ⟨id, ht, hch⟩ := came change hr
    obtain ⟨change', ok, hm⟩ := changeOf_readable hre userId (heightToDb sinceHeight) id
    rw [hch, Except.ok.injEq] at ok
    exact ⟨id, ht, ok ▸ hm⟩
  intro items id
  have hag : ∀ item ∈ rows.filterMap getLeft?, userItems dec db userId item.id = some item.state ∧
      item.id ∈ touched db userId (heightToDb sinceHeight) := by
    intro item hi
    obtain ⟨id', ht, rfl, hc⟩ := ha (.inl item) (by simpa using hi)
    exact ⟨hc, ht⟩
  have hd : ∀ gone ∈ rows.filterMap getRight?, userItems dec db userId gone = none ∧
      gone ∈ touched db userId (heightToDb sinceHeight) := by
    intro gone hg
    obtain ⟨id', ht, rfl, hc⟩ := ha (.inr gone) (by simpa using hg)
    exact ⟨hc, ht⟩
  unfold applyDelta
  by_cases hn : id ∈ touched db userId (heightToDb sinceHeight)
  · rw [if_pos hn]
    obtain ⟨change, hr, hch⟩ := has id hn
    obtain ⟨change', ok, hm⟩ := changeOf_readable hre userId (heightToDb sinceHeight) id
    rw [hch, Except.ok.injEq] at ok
    subst ok
    cases change with
    | inl item =>
      obtain ⟨isId, hc⟩ := hm
      rw [hc]
      refine foldl_putItem_of_mem ⟨item, mem_filterMap.2 ⟨_, hr, rfl⟩, isId⟩ ?_
      intro other hi hs
      have ho := (hag other hi).1
      rw [hs, hc, some.injEq] at ho
      exact ho.symm
    | inr gone =>
      obtain ⟨rfl, hc⟩ := hm
      have hg : gone ∈ rows.filterMap getRight? := mem_filterMap.2 ⟨_, hr, rfl⟩
      rw [hc, foldl_putItem_of_not_mem, if_pos hg]
      intro other hi hs
      have ho := (hag other hi).1
      rw [hs, hc] at ho
      cases ho
  · rw [if_neg hn, foldl_putItem_of_not_mem, if_neg]
    · intro hg
      exact hn (hd id hg).2
    · intro other hi hs
      exact hn (hs ▸ (hag other hi).2)

end HopNet
