import HopNet.Fragstore
import HopNet.Lib.Table
import HopNet.ProtectionCover
import HopNet.StorageHandlers

namespace HopNet

open Fallible List

/-- `DeleteOrphanedDataBlocksHandler`: the tables, and under `execute` the files that the deleted
rows flagged as stored here. -/
def deleteOrphanedDataBlocksHandler (env : StorageEnv) (refuses : Blake3Hash → Bool)
    (execute : Bool) (dataBlockIds : List BlobId) (t : StorageTables) (dir : Fragstore) :
    DbResult (StorageTables × Fragstore) := do
  let deleted ← deleteOrphanedDataBlocksConsensus env dataBlockIds t
  return (deleted.1, if execute then dir.deleteFragments refuses deleted.2 else dir)

def StorageTables.Lists (t : StorageTables) (hash : Blake3Hash) : Prop :=
  ∃ row ∈ t.fragmentHashes, row.fragment.fragmentHash = hash

/-- What the collection of `ids` must leave alone. -/
structure LiveUntouched (ids : List BlobId) (t : StorageTables) (dir : Fragstore)
    (t' : StorageTables) (dir' : Fragstore) : Prop where
  blocks : ∀ b ∉ ids, t'.dataBlocks.filter (·.id = b) = t.dataBlocks.filter (·.id = b)
  fragments : ∀ b ∉ ids, t'.fragmentHashes.filter (·.fragment.blobId = b) =
    t.fragmentHashes.filter (·.fragment.blobId = b)
  access : ∀ b ∉ ids,
    t'.blobAccess.filter (·.blobId = b) = t.blobAccess.filter (·.blobId = b)
  inventory : ∀ hash, t'.Lists hash →
    t'.fragmentInventory.filter (·.fragmentHash = hash) =
      t.fragmentInventory.filter (·.fragmentHash = hash)
  files : ∀ hash, t'.Lists hash → dir'.readFragment hash = dir.readFragment hash

/-- A row that goes and a row that stays. -/
structure SharedHash (ids : List BlobId) (t : StorageTables) (gone live : FragmentRow) : Prop where
  wasListed : gone ∈ t.fragmentHashes
  goes : gone.fragment.blobId ∈ ids
  listed : live ∈ t.fragmentHashes
  stays : live.fragment.blobId ∉ ids
  same : live.fragment.fragmentHash = gone.fragment.fragmentHash

/-- A hash that the list's blobs share with a surviving one has no inventory row, and no file that
the row's flag would delete. -/
def SharesNothingHeld (ids : List BlobId) (refuses : Blake3Hash → Bool) (t : StorageTables)
    (dir : Fragstore) : Prop :=
  ∀ gone live, SharedHash ids t gone live →
    (∀ row ∈ t.fragmentInventory, row.fragmentHash ≠ gone.fragment.fragmentHash) ∧
    ¬ (gone.storedLocally = true ∧ dir.Holds gone.fragment.fragmentHash ∧
      refuses gone.fragment.fragmentHash = false)

variable {env : StorageEnv} {refuses : Blake3Hash → Bool} {ids : List BlobId}
  {t t' : StorageTables} {dir dir' : Fragstore} {hash : Blake3Hash}

/-- An accepted list is collected, whatever the gates looked at. -/
lemma deleteOrphanedDataBlocksConsensus_ok {deleted}
    (ha : deleteOrphanedDataBlocksConsensus env ids t = .ok deleted) :
    deleted = applyDeleteOrphaned ids t := by
  unfold deleteOrphanedDataBlocksConsensus at ha
  split_ifs at ha with hn
  · rw [← Except.ok.inj ha, hn]
    exact Prod.ext applyDeleteOrphaned_nil.symm (by simp [applyDeleteOrphaned])
  · simp only [bind_eq_ok, require_eq_ok] at ha
    obtain ⟨_, _, _, _, hd⟩ := ha
    exact (Except.ok.inj hd).symm

lemma deleteOrphanedDataBlocksHandler_ok
    (ha : deleteOrphanedDataBlocksHandler env refuses true ids t dir = .ok (t', dir')) :
    t' = (applyDeleteOrphaned ids t).1 ∧
      dir' = dir.deleteFragments refuses (applyDeleteOrphaned ids t).2 := by
  unfold deleteOrphanedDataBlocksHandler at ha
  rw [bind_eq_ok] at ha
  obtain ⟨deleted, hc, hd⟩ := ha
  rw [deleteOrphanedDataBlocksConsensus_ok hc] at hd
  have hp := Prod.mk.inj (Except.ok.inj hd)
  exact ⟨hp.1.symm, hp.2.symm⟩

/-- The hashes whose inventory rows go. -/
def orphanedHashes (ids : List BlobId) (t : StorageTables) : List Blake3Hash :=
  (t.fragmentHashes.filter (·.fragment.blobId ∈ ids)).map (·.fragment.fragmentHash)

lemma mem_orphanedHashes : hash ∈ orphanedHashes ids t ↔
    ∃ gone ∈ t.fragmentHashes, gone.fragment.blobId ∈ ids ∧ gone.fragment.fragmentHash = hash := by
  simp [orphanedHashes, and_assoc]

lemma mem_deletedFiles : hash ∈ (applyDeleteOrphaned ids t).2 ↔
    ∃ gone ∈ t.fragmentHashes, gone.fragment.blobId ∈ ids ∧ gone.storedLocally = true ∧
      gone.fragment.fragmentHash = hash := by
  simp [applyDeleteOrphaned, and_assoc, and_left_comm, and_comm]

lemma lists_applyDeleteOrphaned : (applyDeleteOrphaned ids t).1.Lists hash ↔
    ∃ live ∈ t.fragmentHashes, live.fragment.blobId ∉ ids ∧ live.fragment.fragmentHash = hash := by
  simp [StorageTables.Lists, applyDeleteOrphaned, and_assoc]

lemma inventory_applyDeleteOrphaned :
    (applyDeleteOrphaned ids t).1.fragmentInventory.filter (·.fragmentHash = hash) =
        t.fragmentInventory.filter (·.fragmentHash = hash) ↔
      (hash ∈ orphanedHashes ids t → ∀ row ∈ t.fragmentInventory, row.fragmentHash ≠ hash) := by
  have kept : (applyDeleteOrphaned ids t).1.fragmentInventory =
      t.fragmentInventory.filter fun row => row.fragmentHash ∉ orphanedHashes ids t := rfl
  rw [kept]
  by_cases ho : hash ∈ orphanedHashes ids t
  · have he : (t.fragmentInventory.filter fun row => row.fragmentHash ∉ orphanedHashes ids t).filter
        (·.fragmentHash = hash) = [] := by
      rw [filter_eq_nil_iff]
      intro row hk hn
      have hs : row.fragmentHash ∉ orphanedHashes ids t := by
        simpa using (mem_filter.1 hk).2
      exact hs (by rwa [of_decide_eq_true hn])
    rw [he, eq_comm, filter_eq_nil_iff]
    simp [ho]
  · have same : (t.fragmentInventory.filter fun row =>
        row.fragmentHash ∉ orphanedHashes ids t).filter (·.fragmentHash = hash) =
          t.fragmentInventory.filter fun row => row.fragmentHash = hash :=
      Table.filter_later_filter fun row _ hd hn => hd (by rwa [hn])
    exact iff_of_true same fun hl => absurd hl ho

/-- A file stays as it was unless a deleted row flags it and it can be unlinked. -/
lemma readFragment_after_delete :
    (dir.deleteFragments refuses (applyDeleteOrphaned ids t).2).readFragment hash =
      dir.readFragment hash ↔
    (hash ∈ (applyDeleteOrphaned ids t).2 → ¬ (dir.Holds hash ∧ refuses hash = false)) := by
  rw [Fragstore.readFragment_deleteFragments, Fragstore.Holds]
  by_cases hf : hash ∈ (applyDeleteOrphaned ids t).2
  · cases hr : refuses hash with
    | true => simp
    | false =>
      cases dir.readFragment hash <;> simp [hf]
  · simp [hf]

/-- The collection leaves the surviving blobs alone exactly when they share no held hash with the
collected ones. Their rows are always kept. -/
theorem deleteOrphaned_live_untouched_iff
    (accepted : deleteOrphanedDataBlocksHandler env refuses true ids t dir = .ok (t', dir')) :
    LiveUntouched ids t dir t' dir' ↔ SharesNothingHeld ids refuses t dir := by
  obtain ⟨hr, hfi⟩ := deleteOrphanedDataBlocksHandler_ok accepted
  subst hr hfi
  constructor
  · intro hu gone live hs
    have hl : (applyDeleteOrphaned ids t).1.Lists gone.fragment.fragmentHash :=
      lists_applyDeleteOrphaned.2 ⟨live, hs.listed, hs.stays, hs.same⟩
    have ho : gone.fragment.fragmentHash ∈ orphanedHashes ids t :=
      mem_orphanedHashes.2 ⟨gone, hs.wasListed, hs.goes, rfl⟩
    refine ⟨inventory_applyDeleteOrphaned.1 (hu.inventory _ hl) ho, ?_⟩
    intro hh
    have hf : gone.fragment.fragmentHash ∈ (applyDeleteOrphaned ids t).2 :=
      mem_deletedFiles.2 ⟨gone, hs.wasListed, hs.goes, hh.1, rfl⟩
    exact readFragment_after_delete.1 (hu.files _ hl) hf hh.2
  · intro hsn
    have hsh : ∀ hash, (applyDeleteOrphaned ids t).1.Lists hash →
        ∀ gone ∈ t.fragmentHashes, gone.fragment.blobId ∈ ids → gone.fragment.fragmentHash = hash →
        ∃ live, SharedHash ids t gone live := by
      intro hash hl gone hw hg hn
      obtain ⟨live, ht, hss, same⟩ := lists_applyDeleteOrphaned.1 hl
      exact ⟨live, hw, hg, ht, hss, same.trans hn.symm⟩
    refine ⟨fun b ha => ?_, fun b ha => ?_, fun b ha => ?_, fun hash hl => ?_, fun hash hl => ?_⟩
    · exact Table.filter_later_filter fun row _ hd hn => hd (by rwa [hn])
    · exact Table.filter_later_filter fun row _ hd hn => hd (by rwa [hn])
    · exact Table.filter_later_filter fun row _ hd hn => hd (by rwa [hn])
    · rw [inventory_applyDeleteOrphaned]
      intro ho
      obtain ⟨gone, hw, hg, hn⟩ := mem_orphanedHashes.1 ho
      obtain ⟨live, hs⟩ := hsh hash hl gone hw hg hn
      rw [← hn]
      exact (hsn gone live hs).1
    · rw [readFragment_after_delete]
      intro hf hh
      obtain ⟨gone, hw, hg, hst, hn⟩ := mem_deletedFiles.1 hf
      obtain ⟨live, hs⟩ := hsh hash hl gone hw hg hn
      rw [← hn] at hh
      exact (hsn gone live hs).2 ⟨hst, hh⟩

def hashOf (i : Nat) : Blake3Hash := (sampleFragment i).fragmentHash

/-- Blobs 5 and 6, the latter's fragment with the content of class `second`. Node 1 has every file
and has said so. -/
def twoBlobs (second : Nat) : StorageTables where
  dataBlocks :=
    [⟨⟨5⟩, .replicate 32 0, 1, 0, none, 20, 1⟩, ⟨⟨6⟩, .replicate 32 0, 1, 0, none, 20, 1⟩]
  fragmentHashes :=
    [⟨sampleFragment 0, true⟩,
      ⟨{ sampleFragment second with blobId := ⟨6⟩, localIndex := 0 }, true⟩]
  fragmentInventory :=
    ([hashOf 0, hashOf second].dedup).map fun hash => ⟨hash, 1, some 1, none, none, false⟩
  blobAccess := []
  transitions := []

def twoFiles : Fragstore := ⟨[(hashOf 0, [10]), (hashOf 1, [11])]⟩

def idleEnv : StorageEnv := ⟨fun _ => true, false, fun _ => false⟩

/-- What collecting blob 5 leaves, run on node 1. -/
def collected (second : Nat) : DbResult (StorageTables × Fragstore) :=
  deleteOrphanedDataBlocksHandler idleEnv (fun _ => false) true [⟨5⟩] (twoBlobs second) twoFiles

/-- With content of its own, blob 6 is untouched. -/
theorem collected_apart_untouched : ∃ t' dir', collected 1 = .ok (t', dir') ∧
    LiveUntouched [⟨5⟩] (twoBlobs 1) twoFiles t' dir' ∧ dir'.readFragment (hashOf 0) = none := by
  have ran : deleteOrphanedDataBlocksHandler idleEnv (fun _ => false) true [⟨5⟩]
      (twoBlobs 1) twoFiles = .ok ((applyDeleteOrphaned [⟨5⟩] (twoBlobs 1)).1,
        twoFiles.deleteFragments (fun _ => false) (applyDeleteOrphaned [⟨5⟩] (twoBlobs 1)).2) := rfl
  refine ⟨_, _, ran, (deleteOrphaned_live_untouched_iff ran).2 ?_, by decide +kernel⟩
  intro gone live hs
  have ha : ∀ gone ∈ (twoBlobs 1).fragmentHashes, ∀ live ∈ (twoBlobs 1).fragmentHashes,
      gone.fragment.blobId ∈ ([⟨5⟩] : List BlobId) → live.fragment.blobId ∉ ([⟨5⟩] : List BlobId) →
      live.fragment.fragmentHash ≠ gone.fragment.fragmentHash := by decide +kernel
  exact absurd hs.same (ha gone hs.wasListed live hs.listed hs.goes hs.stays)

/-- With the content of blob 5, blob 6 loses its inventory row and its only file. -/
theorem collected_shared_lost : ∃ t' dir', collected 0 = .ok (t', dir') ∧
    t'.fragmentsOf ⟨6⟩ = (twoBlobs 0).fragmentsOf ⟨6⟩ ∧ t'.Lists (hashOf 0) ∧
    t'.fragmentInventory = [] ∧ twoFiles.Holds (hashOf 0) ∧ ¬ dir'.Holds (hashOf 0) ∧
    ¬ LiveUntouched [⟨5⟩] (twoBlobs 0) twoFiles t' dir' := by
  have hl : ((applyDeleteOrphaned [⟨5⟩] (twoBlobs 0)).1).Lists (hashOf 0) :=
    ⟨⟨{ sampleFragment 0 with blobId := ⟨6⟩, localIndex := 0 }, true⟩, by decide +kernel, rfl⟩
  refine ⟨_, _, rfl, by decide +kernel, hl, by decide +kernel, by decide +kernel,
    by decide +kernel, ?_⟩
  intro hu
  have hs := hu.files (hashOf 0) hl
  exact absurd hs (by decide +kernel)

end HopNet
