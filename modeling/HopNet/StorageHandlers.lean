import HopNet.Db
import HopNet.StorageEvents

/-!
The storage transactions as the handlers apply them, and a block of them as a sequence of
entries. -/

namespace HopNet

open Fallible Runs List

inductive StorageTx where
  /-- The storage half of a blob-creating transaction. -/
  | insertBlob (op : BlobInsertOp)
  | declarePlacementTarget (targets : List PlacementTarget)
  | confirmPlacement (confirmations : List PlacementConfirmation)
  | updatePlacementHeights (updates : List (BlobId × Nat))
  | attestFragments (report : FragmentAttestation)
  | selfCheckFragments (report : SelfCheckFragments)
  | deleteOrphanedDataBlocks (dataBlockIds : List BlobId)

/-- What a handler sees besides the tables: this node's disk, the takeout gate and the reference
providers. -/
structure StorageEnv where
  fragmentExists : Blake3Hash → Bool
  hasActiveTakeout : Bool
  references : BlobId → Bool

/-- The gates of the collection, then the deletes. An unknown id is skipped. -/
def deleteOrphanedDataBlocksConsensus (env : StorageEnv) (dataBlockIds : List BlobId)
    (t : StorageTables) : DbResult (StorageTables × List Blake3Hash) :=
  if dataBlockIds = [] then .ok (t, [])
  else do
    require (env.hasActiveTakeout = false) .conflictError
    require (∀ id ∈ dataBlockIds, (∃ row ∈ t.dataBlocks, row.id = id) → env.references id = false)
      .processingError
    return applyDeleteOrphaned dataBlockIds t

variable (P : Primitives)

/-- A node reports its fragments for itself only; a placement height is written for whoever asks. -/
def StorageTx.process (env : StorageEnv) (submitter : Int) (height : Nat) (t : StorageTables) :
    StorageTx → DbResult StorageTables
  | .insertBlob op =>
    (applyBlobInsert env.fragmentExists height op t).mapError fun _ => .insertError
  | .declarePlacementTarget targets => .ok (applyDeclare height targets t)
  | .confirmPlacement confirmations => .ok (applyConfirm P height confirmations t)
  | .updatePlacementHeights updates => .ok (applyPlacementCommit updates t)
  | .attestFragments report => do
      require (report.nodeId = submitter) .authorizationError
      return applyAttestation height report t
  | .selfCheckFragments report => do
      require (report.nodeId = submitter) .authorizationError
      return applySelfCheck report t
  | .deleteOrphanedDataBlocks ids => do
      let deleted ← deleteOrphanedDataBlocksConsensus env ids t
      return deleted.1

/-- The entries of a transaction, in the order they are applied. -/
def StorageTx.events (env : StorageEnv) : StorageTx → List StorageEvent
  | .insertBlob op => [.insert env.fragmentExists op]
  | .declarePlacementTarget targets => targets.map .declare
  | .confirmPlacement confirmations => confirmations.map .confirm
  | .updatePlacementHeights updates => updates.map fun u => .commitPlacement u.1 u.2
  | .attestFragments report => [.attest report]
  | .selfCheckFragments report => [.selfCheck report]
  | .deleteOrphanedDataBlocks ids => [.delete ids]

structure StorageCall where
  env : StorageEnv
  submitter : Int
  tx : StorageTx

structure StorageBlock where
  height : Nat
  calls : List StorageCall
  view : ViewSnapshot

/-- The transactions, stopping at the first error, then the view memo. -/
def applyStorageBlock (block : StorageBlock) (t : StorageTables) : DbResult StorageTables := do
  let t ← block.calls.foldlM
    (fun t call => call.tx.process P call.env call.submitter block.height t) t
  return recordTransition block.height block.view t

def StorageBlock.events (block : StorageBlock) : List StorageEvent :=
  block.calls.flatMap (fun call => call.tx.events call.env) ++ [.transition block.view]

/-- Decided blocks have rising heights. -/
structure StorageBlockStep (s : StorageState) (block : StorageBlock) (s' : StorageState) :
    Prop where
  rises : s.last < block.height
  fits : block.height < 2 ^ 64
  applied : applyStorageBlock P block s.tables = .ok s'.tables
  last : s'.last = block.height

variable {P} {t t' : StorageTables} {height : Nat}

/-- Entries one after another at one height. -/
def runEvents (P : Primitives) (height : Nat) (events : List StorageEvent) (t : StorageTables) :
    Except StorageFailure StorageTables :=
  events.foldlM (fun t event => event.apply P height t) t

lemma runEvents_append {before after} : runEvents P height (before ++ after) t = .ok t' ↔
    ∃ middle, runEvents P height before t = .ok middle ∧
      runEvents P height after middle = .ok t' := by
  unfold runEvents
  rw [foldlM_append, bind_eq_ok]

lemma runEvents_map {α : Type} {entry : α → StorageEvent} {one : StorageTables → α → StorageTables}
    (ha : ∀ t a, (entry a).apply P height t = .ok (one t a)) (batch : List α) :
    runEvents P height (batch.map entry) t = .ok (batch.foldl one t) := by
  induction batch generalizing t with
  | nil => rfl
  | cons a rest ih =>
    have hl := ih (t := one t a)
    simp only [runEvents, map_cons, foldlM_cons, foldl_cons, bind_eq_ok] at *
    exact ⟨one t a, ha t a, hl⟩

lemma applyDeleteOrphaned_nil : (applyDeleteOrphaned [] t).1 = t := by
  simp [applyDeleteOrphaned]

lemma StorageTx.process_events {env submitter} {tx : StorageTx}
    (ran : tx.process P env submitter height t = .ok t') :
    runEvents P height (tx.events env) t = .ok t' := by
  have hs : ∀ event : StorageEvent, event.apply P height t = .ok t' →
      runEvents P height [event] t = .ok t' := by
    intro event ha
    simp [runEvents, ha]
  cases tx with
  | insertBlob op => exact hs _ (by simpa [process, StorageEvent.apply] using ran)
  | declarePlacementTarget batch | confirmPlacement batch | updatePlacementHeights batch =>
    rw [← Except.ok.inj ran]
    exact runEvents_map (fun _ _ => rfl) batch
  | attestFragments | selfCheckFragments =>
    simp only [process, require_bind, pure_eq_ok] at ran
    exact hs _ (congrArg Except.ok ran.2)
  | deleteOrphanedDataBlocks ids =>
    refine hs _ ?_
    simp only [process, deleteOrphanedDataBlocksConsensus, bind_eq_ok, pure_eq_ok] at ran
    obtain ⟨deleted, hg, rfl⟩ := ran
    split_ifs at hg with hn
    · cases hg
      simp [StorageEvent.apply, hn, applyDeleteOrphaned_nil]
    · simp only [require_bind, pure_eq_ok] at hg
      rw [← hg.2.2]
      rfl

lemma processAll_events {calls : List StorageCall}
    (ran : calls.foldlM (fun t call => call.tx.process P call.env call.submitter height t) t =
      .ok t') :
    runEvents P height (calls.flatMap fun call => call.tx.events call.env) t = .ok t' := by
  induction calls generalizing t with
  | nil => simpa [runEvents] using ran
  | cons call rest ih =>
    simp only [foldlM_cons, bind_eq_ok] at ran
    obtain ⟨next, hf, ho⟩ := ran
    exact runEvents_append.2 ⟨next, StorageTx.process_events hf, ih ho⟩

lemma applyStorageBlock_events {block : StorageBlock} (ran : applyStorageBlock P block t = .ok t') :
    runEvents P block.height block.events t = .ok t' := by
  simp only [applyStorageBlock, bind_eq_ok, pure_eq_ok] at ran
  obtain ⟨middle, hc, rfl⟩ := ran
  exact runEvents_append.2 ⟨middle, processAll_events hc, rfl⟩

end HopNet
