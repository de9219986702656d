import HopNet.Drive.Content
import HopNet.Node.Access
import HopNet.Photos.Retention

namespace HopNet

open Fallible Runs List

/-- Texts compare byte by byte. -/
def textBefore (a b : String) : Prop :=
  a.toUTF8.data.toList.map UInt8.toNat < b.toUTF8.data.toList.map UInt8.toNat
deriving Decidable

/-- One reading of the clock: `CURRENT_TIMESTAMP`, the cutoff that `retention_cutoff` mints and the
window's start in milliseconds, as the bulk query has it. -/
structure ClockReading where
  now : String
  cutoff : CustomUUID
  since : Nat

def TakeoutRow.Active (now : String) (row : TakeoutRow) : Prop :=
  textBefore now row.expiresAt ∧ row.status ∈ [TakeoutStatus.pending, .materializing, .ready]
deriving Decidable

/-- `has_active_takeout_tx`, of one user or of anybody. -/
def HasActiveTakeout (now : String) (userId : Option Int) (t : NodeTables) : Prop :=
  ∃ row ∈ t.takeouts, (∀ user ∈ userId, row.userId = user) ∧ row.Active now
deriving Decidable

namespace DriveTables

/-- The drive's `SELECT … FROM inodes WHERE data_id = ?`, also in bulk. -/
def ReferencesBlock (t : DriveTables) (b : BlobId) : Prop := ∃ row ∈ t.inodes, row.dataId = some b
deriving Decidable

/-- Some row of the drive's tables names the block in a foreign key. -/
def HoldsBlock (t : DriveTables) (b : BlobId) : Prop :=
  t.ReferencesBlock b ∨ (∃ row ∈ t.incomingShares, row.dataBlockId = b) ∨
    ∃ row ∈ t.shares, row.dataBlockId = b
deriving Decidable

end DriveTables

namespace PhotoTables

/-- The photos' bulk query, by the milliseconds of an operation's id. -/
def BulkReferencesBlock (since : Nat) (t : PhotoTables) (b : BlobId) : Prop :=
  (∃ row ∈ t.resources, row.dataBlockId = b) ∨
    ∃ op ∈ t.operations, (op.priorDataBlockId = some b ∨ op.newDataBlockId = some b) ∧
      since < op.id.millis
deriving Decidable

end PhotoTables

section

variable (r : ClockReading)

/-- `find_orphaned_data_blocks`; a negative limit is no limit. -/
def findOrphanedDataBlocks (cutoff : CustomUUID) (limit : Int) (t : NodeTables) : List BlobId :=
  let orphaned := (t.storage.dataBlocks.map (·.id)).filter fun id =>
    id.value < cutoff.value ∧ ¬ t.drive.ReferencesBlock id ∧
      ¬ t.photos.BulkReferencesBlock r.since id
  let sorted := orphaned.insertionSort fun a b => a.value ≤ b.value
  if limit < 0 then sorted else sorted.take limit.toNat

/-- The gates as this node's tables answer them. -/
def cleanupEnv (t : NodeTables) : StorageEnv where
  fragmentExists _ := false
  hasActiveTakeout := HasActiveTakeout r.now none t
  references b := t.drive.ReferencesBlock b ∨ ReferencesDataBlock r.cutoff t.photos b

/-- `DELETE FROM data_blocks` fails when a row still names one of the blocks. -/
def deleteOrphanedDataBlocks (ids : List BlobId) (t : NodeTables) : DbResult NodeTables := do
  let deleted ← deleteOrphanedDataBlocksConsensus (cleanupEnv r t) ids t.storage
  require (∀ row ∈ t.storage.dataBlocks, row.id ∈ ids →
    ¬ t.drive.HoldsBlock row.id ∧ ∀ resource ∈ t.photos.resources, resource.dataBlockId ≠ row.id)
      .processingError
  return { t with storage := deleted.1 }

end

/-- No share or offer names the block, nor an operation of the cutoff's millisecond. -/
def Deletable (r : ClockReading) (t : NodeTables) (b : BlobId) : Prop :=
  (∀ row ∈ t.drive.incomingShares, row.dataBlockId ≠ b) ∧
    (∀ row ∈ t.drive.shares, row.dataBlockId ≠ b) ∧
    ∀ op ∈ t.photos.operations, op.priorDataBlockId = some b ∨ op.newDataBlockId = some b →
      r.cutoff.value < op.id.value → r.since < op.id.millis

variable {r : ClockReading} {t : NodeTables} {cutoff : CustomUUID} {limit : Int}

lemma mem_findOrphaned {b} (hf : b ∈ findOrphanedDataBlocks r cutoff limit t) :
    (∃ row ∈ t.storage.dataBlocks, row.id = b) ∧ ¬ t.drive.ReferencesBlock b ∧
      ¬ t.photos.BulkReferencesBlock r.since b := by
  have ha : b ∈ (t.storage.dataBlocks.map (·.id)).filter fun id =>
      id.value < cutoff.value ∧ ¬ t.drive.ReferencesBlock id ∧
        ¬ t.photos.BulkReferencesBlock r.since id := by
    unfold findOrphanedDataBlocks at hf
    split_ifs at hf with hu
    · exact (perm_insertionSort _ _).mem_iff.1 hf
    · exact (perm_insertionSort _ _).mem_iff.1 (mem_of_mem_take hf)
  obtain ⟨ht, ho⟩ := mem_filter.1 ha
  have hb := of_decide_eq_true ho
  exact ⟨mem_map.1 ht, hb.2⟩

/-- The apply finds no use of the block. -/
def Released (r : ClockReading) (t : NodeTables) (b : BlobId) : Prop :=
  (cleanupEnv r t).references b = false ∧ ¬ t.drive.HoldsBlock b ∧
    ∀ resource ∈ t.photos.resources, resource.dataBlockId ≠ b
deriving Decidable

/-- What the apply asks of a candidate beyond what selected it. -/
lemma deletable_iff {b} (hf : b ∈ findOrphanedDataBlocks r cutoff limit t) :
    Deletable r t b ↔ Released r t b := by
  obtain ⟨_, hni, hb⟩ := mem_findOrphaned hf
  have hn : ∀ resource ∈ t.photos.resources, resource.dataBlockId ≠ b :=
    fun resource ht hs => hb (.inl ⟨resource, ht, hs⟩)
  have he : ∀ op ∈ t.photos.operations, op.priorDataBlockId = some b ∨ op.newDataBlockId = some b →
      ¬ r.since < op.id.millis := fun op hl hna late => hb (.inr ⟨op, hl, hna, late⟩)
  have ha : (cleanupEnv r t).references b = false ↔
      ¬ (t.drive.ReferencesBlock b ∨ ReferencesDataBlock r.cutoff t.photos b) :=
        decide_eq_false_iff_not
  rw [Released, ha]
  constructor
  · rintro ⟨hno, hns, hw⟩
    refine ⟨?_, ?_, hn⟩
    · rintro (hi | resource | ⟨op, hl, hna, hla⟩)
      · exact hni hi
      · obtain ⟨row, ht, hs⟩ := resource
        exact hn row ht hs
      · exact he op hl hna (hw op hl hna hla)
    · rintro (hi | ⟨row, ht, hs⟩ | ⟨row, ht, hs⟩)
      · exact hni hi
      · exact hno row ht hs
      · exact hns row ht hs
  · rintro ⟨hu, hun, _⟩
    refine ⟨fun row ht hs => hun (.inr (.inl ⟨row, ht, hs⟩)),
      fun row ht hs => hun (.inr (.inr ⟨row, ht, hs⟩)), fun op hl hna hla => ?_⟩
    exact absurd (.inr (.inr ⟨op, hl, hna, hla⟩)) hu

lemma deleteOrphaned_eq {ids} (hq : ¬ HasActiveTakeout r.now none t)
    (hk : ∀ b ∈ ids, ∃ row ∈ t.storage.dataBlocks, row.id = b) :
    deleteOrphanedDataBlocks r ids t =
      if ∀ b ∈ ids, Released r t b then .ok
      { t with storage := (applyDeleteOrphaned ids t.storage).1 }
      else .error .processingError := by
  have hn : (cleanupEnv r t).hasActiveTakeout = false := decide_eq_false hq
  have hg : (∀ b ∈ ids, (∃ row ∈ t.storage.dataBlocks, row.id = b) →
      (cleanupEnv r t).references b = false) ↔ ∀ b ∈ ids, (cleanupEnv r t).references b = false :=
        forall₂_congr fun b hl => ⟨fun ha => ha (hk b hl), fun hf _ => hf⟩
  have keys : (∀ row ∈ t.storage.dataBlocks, row.id ∈ ids →
        ¬ t.drive.HoldsBlock row.id ∧ ∀ resource ∈ t.photos.resources,
        resource.dataBlockId ≠ row.id) ↔
      ∀ b ∈ ids, ¬ t.drive.HoldsBlock b ∧ ∀ resource ∈ t.photos.resources,
      resource.dataBlockId ≠ b := by
    constructor
    · intro hh b hl
      obtain ⟨row, ht, rfl⟩ := hk b hl
      exact hh row ht hl
    · intro hh row _ hl
      exact hh row.id hl
  unfold deleteOrphanedDataBlocks deleteOrphanedDataBlocksConsensus
  by_cases hno : ids = []
  · subst hno
    simp [require, applyDeleteOrphaned_nil, bind, Except.bind, pure, Except.pure]
  · simp only [if_neg hno, require, if_pos hn, hg, keys, bind, Except.bind, pure, Except.pure]
    simp only [Released, imp_and, forall_and, ite_and]
    split_ifs <;> rfl

/-- The list that the cleanup finds is applied and removes exactly its blocks when each of them is
deletable, and otherwise refused as a whole. -/
theorem cleanup_applies_iff (r : ClockReading) (cutoff : CustomUUID) (limit : Int) (t : NodeTables)
    (quiet : ¬ HasActiveTakeout r.now none t) :
    ((∃ t', deleteOrphanedDataBlocks r (findOrphanedDataBlocks r cutoff limit t) t = .ok t' ∧
        t'.storage.dataBlocks =
          t.storage.dataBlocks.filter fun row => row.id ∉ findOrphanedDataBlocks r cutoff limit t) ↔
      ∀ b ∈ findOrphanedDataBlocks r cutoff limit t, Deletable r t b) ∧
    ((∃ b ∈ findOrphanedDataBlocks r cutoff limit t, ¬ Deletable r t b) →
      deleteOrphanedDataBlocks r (findOrphanedDataBlocks r cutoff limit t) t =
        .error .processingError) := by
  have hw := deleteOrphaned_eq quiet fun b (hf : b ∈ findOrphanedDataBlocks r cutoff limit t) =>
    (mem_findOrphaned hf).1
  have ha : _ ↔ ∀ b ∈ findOrphanedDataBlocks r cutoff limit t, Deletable r t b :=
    forall₂_congr fun b hf => (deletable_iff hf).symm
  by_cases all : ∀ b ∈ findOrphanedDataBlocks r cutoff limit t, Deletable r t b
  · rw [hw, if_pos (ha.2 all)]
    refine ⟨iff_of_true ⟨_, rfl, rfl⟩ all, ?_⟩
    rintro ⟨b, hf, hs⟩
    exact absurd (all b hf) hs
  · rw [hw, if_neg (mt ha.1 all)]
    refine ⟨iff_of_false ?_ all, fun _ => rfl⟩
    rintro ⟨t', hi, _⟩
    cases hi

/-- User 1 offers `/a` and then edits it; the offer stays on block 10. Block 12 is nobody's. -/
def offerThenEdit : List ProjectionEvent :=
  [signedBy 1
    (.drive (.insertFiles [sampleBlobOp 10 1] [sampleInode 1 1 ['/', 'a'] .file (some 10)])),
    signedBy 1 (.drive (.shareFile (sampleOffer 50 10 1 2))),
    signedBy 1 (.drive (.modifyItem (contentPayload 1 ⟨1⟩ none offeredEdit))),
    signedBy 1 (.drive (.insertFiles [sampleBlobOp 12 1] []))]

def offerStuck : NodeTables := final projectionNext emptyNode offerThenEdit

def sampleReading : ClockReading := ⟨"2026-11-15 00:00:00", mintedOn 0 0, 0⟩

/-- Block 10 is found and cannot be deleted, so that block 12 stays as well; the cleanup of one
block at a time never gets past block 10. -/
theorem offered_block_stops_cleanup :
    Reaches (ProjectionStep sampleDecode allExpired) emptyNode offerThenEdit offerStuck ∧
      ¬ HasActiveTakeout sampleReading.now none offerStuck ∧
      findOrphanedDataBlocks sampleReading ⟨100⟩ 50 offerStuck = [⟨10⟩, ⟨12⟩] ∧
      deleteOrphanedDataBlocks sampleReading [⟨10⟩, ⟨12⟩] offerStuck = .error .processingError ∧
      findOrphanedDataBlocks sampleReading ⟨100⟩ 1 offerStuck = [⟨10⟩] ∧
      deleteOrphanedDataBlocks sampleReading [⟨10⟩] offerStuck = .error .processingError ∧
      ∃ t', deleteOrphanedDataBlocks sampleReading [⟨12⟩] offerStuck = .ok t' :=
  ⟨.of_foldlM projectionNext_sound (by decide +kernel), by decide +kernel, by decide +kernel,
    by decide +kernel, by decide +kernel, by decide +kernel, _, ok_get_toOption (by decide +kernel)⟩

/-- A block that belongs to nobody, and that nobody was offered. -/
def loneOrphan : NodeTables :=
  final projectionNext firstOwns [signedBy 1 (.drive (.insertFiles [sampleBlobOp 12 1] []))]

theorem lone_orphan_deleted : findOrphanedDataBlocks sampleReading ⟨100⟩ 50 loneOrphan = [⟨12⟩] ∧
    ∃ t', deleteOrphanedDataBlocks sampleReading
        (findOrphanedDataBlocks sampleReading ⟨100⟩ 50 loneOrphan) loneOrphan = .ok t' ∧
      t'.storage.dataBlocks = loneOrphan.storage.dataBlocks.filter fun row =>
        row.id ∉ findOrphanedDataBlocks sampleReading ⟨100⟩ 50 loneOrphan := by
  have hf : findOrphanedDataBlocks sampleReading ⟨100⟩ 50 loneOrphan = [⟨12⟩] := by decide +kernel
  have ha := cleanup_applies_iff sampleReading ⟨100⟩ 50 loneOrphan (by decide +kernel)
  refine ⟨hf, ha.1.2 fun b hl => ?_⟩
  rw [hf, mem_singleton] at hl
  subst hl
  exact ⟨by decide +kernel, by decide +kernel, by decide +kernel⟩

end HopNet
