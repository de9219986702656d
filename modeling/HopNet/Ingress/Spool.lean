import HopNet.Ingress.Changes

/-! The spool and the tasks that write it. The pool of `state.db` has one connection, so every
statement and every transaction is a step of its own, and so is every call on the file system;
between two of them any other task may run. The daemon loop applies events and cleans up, the
publish pass evicts when it ends, and any number of photo tasks finalize resources. -/

namespace HopNet.Ingress

structure FinalizeCall where
  library : LibraryId
  photoId : PhotoId
  resourceType : ResourceType
  content : StoredContent
deriving DecidableEq

/-- A call of `execute_transition`, with what it read of the photo. -/
structure Transition where
  plan : ChangePlan
  desc : AssetDescriptor
  src : LibraryId
  dst : LibraryId
  written : List StoredContent
deriving DecidableEq

/-- What a task does next. -/
inductive SpoolTask where
  | done
  | lookup (w : FinalizeCall)
  | place (w : FinalizeCall) (ext : String) (evicted : Bool)
  | clear (w : FinalizeCall)
  | commit (w : FinalizeCall)
  | evict (candidates : List BlobRecord)
  | check (hash : ContentHash) (ext : String) (next : SpoolTask)
  | unlink (hash : ContentHash) (ext : String) (next : SpoolTask)
  | restore (plan : ChangePlan) (desc : AssetDescriptor)
  | readWritten (plan : ChangePlan) (desc : AssetDescriptor) (src dst : LibraryId)
  | readSource (t : Transition) (todo inherited : List ContentHash)
  | readTarget (t : Transition) (hash : ContentHash) (todo inherited : List ContentHash)
  | transfer (t : Transition) (inherited : List ContentHash)
  | inheritStamps (t : Transition) (todo : List ContentHash)
  | resources (plan : ChangePlan) (desc : AssetDescriptor)
  | finish (plan : ChangePlan) (desc : AssetDescriptor)
deriving DecidableEq

/-- `spool` is the file at `blob_path(hash, ext)`, known by its bytes' hash. `tasks` has the daemon
loop, the publish pass, then the photo tasks; `inflight` are the photos one of these holds. -/
structure Daemon where
  store : StateStore
  spool : ContentHash × String → Option ContentHash
  inflight : List PhotoId
  tasks : List SpoolTask

inductive DaemonEvent where
  | descriptor (desc : AssetDescriptor) (minted : PhotoId) (now : Nat)
  | tombstone (photoId : PhotoId) (now : Nat)
  | claim (photoId : PhotoId)
  | release (photoId : PhotoId)
  | finalize (w : FinalizeCall)
  | published (photoId : PhotoId)
  | editPublished (photoId : PhotoId) (rt : ResourceType)
  | removalPublished (photoId : PhotoId) (rt : ResourceType)
  | tombstonePublished (photoId : PhotoId) (deleted : Bool)
  | hardDelete (photoId : PhotoId) (cutoff : Nat)
  | evict (thread : Nat) (limit : Nat)
  | run (thread : Nat)
  | fail (thread : Nat)

namespace SpoolTask

/-- Liveness checks and unlinks of the files to reap, then the task goes on. -/
def reaping (reap : List (ContentHash × String)) (next : SpoolTask) : SpoolTask :=
  reap.foldr (fun file rest => check file.1 file.2 rest) next

/-- The photo that a task finalizes a resource of. -/
def writes : SpoolTask → Option PhotoId
  | lookup w | place w _ _ | clear w | commit w => some w.photoId
  | _ => none

/-- The lock that a finalizing task holds. -/
def lock : SpoolTask → Option (LibraryId × ContentHash)
  | lookup w | place w _ _ | clear w | commit w => some (w.library, w.content.hash)
  | _ => none

end SpoolTask

namespace Daemon

def start (libraries : List LibraryConfig) : Daemon where
  store := ⟨libraries, [], []⟩
  spool := fun _ => none
  inflight := []
  tasks := [.done, .done]

variable (d : Daemon) (thread : Nat)

def goTo (task : SpoolTask) : Daemon := { d with tasks := d.tasks.set thread task }

def setStore (store : StateStore) : Daemon := { d with store := store }

def runTask : SpoolTask → Option Daemon
  | .done => none
  | .lookup w =>
    match d.store.blob w.library w.content.hash with
    | some b => if b.evicted then some (d.goTo thread (.place w b.ext true))
        else some (d.goTo thread (.commit w))
    | none => some (d.goTo thread (.place w w.content.ext false))
  | .place w ext evicted =>
    let placed :=
      { d with spool := Function.update d.spool (w.content.hash, ext) (some w.content.hash) }
    some (placed.goTo thread (if evicted then .clear w else .commit w))
  | .clear w => some ((d.setStore (d.store.clearBlobEviction w.library w.content.hash)).goTo thread
      (.commit w))
  | .commit w =>
    match d.store.markResourceWritten w.photoId w.resourceType w.content with
    | .error _ => some (d.goTo thread .done)
    | .ok (store, commit) =>
        some ((d.setStore store).goTo thread (.reaping commit.reapSuperseded.toList .done))
  | .evict [] => some (d.goTo thread .done)
  | .evict (b :: rest) =>
    some ((d.setStore (d.store.stampBlobEvicted b.libraryId b.contentHash)).goTo thread
      (.check b.contentHash b.ext (.evict rest)))
  | .check hash ext next =>
      some (d.goTo thread (if d.store.hashIsLive hash then next else .unlink hash ext next))
  | .unlink hash ext next =>
    some ({ d with spool := Function.update d.spool (hash, ext) none }.goTo thread next)
  | .restore plan desc =>
    let restored := if plan.restore then d.setStore (d.store.restorePhoto plan.photoId) else d
    match plan.transition with
    | some (src, dst) => some (restored.goTo thread (.readWritten plan desc src dst))
    | none => some (restored.goTo thread (.resources plan desc))
  | .readWritten plan desc src dst =>
    match d.store.requireLibraries src dst with
    | .error _ => some (d.goTo thread .done)
    | .ok _ =>
      let written := ((d.store.photo plan.photoId).map PhotoRecord.writtenContents).getD []
      some (d.goTo thread
        (.readSource ⟨plan, desc, src, dst, written⟩ (written.map StoredContent.hash) []))
  | .readSource t [] inherited => some (d.goTo thread (.transfer t inherited))
  | .readSource t (hash :: todo) inherited =>
    if (d.store.blob t.src hash).any (·.evicted) then some (d.goTo thread
    (.readTarget t hash todo inherited)) else some (d.goTo thread (.readSource t todo inherited))
  | .readTarget t hash todo inherited =>
    if d.store.blob t.dst hash =
      none then some (d.goTo thread (.readSource t todo (inherited ++ [hash])))
    else some (d.goTo thread (.readSource t todo inherited))
  | .transfer t inherited =>
    match d.store.transitionTx t.plan.photoId t.src t.dst t.written with
    | .error _ => some (d.goTo thread .done)
    | .ok store => some ((d.setStore store).goTo thread (.inheritStamps t inherited))
  | .inheritStamps t [] => some (d.goTo thread (.resources t.plan t.desc))
  | .inheritStamps t (hash :: todo) =>
    some ((d.setStore (d.store.stampBlobEvicted t.dst hash)).goTo thread (.inheritStamps t todo))
  | .resources plan desc =>
    if plan.ChangesResources then
      match d.store.applyResources plan (d.store.effectiveLibrary plan) with
      | .error _ => some (d.goTo thread .done)
      | .ok (store, reap) =>
          some ((d.setStore store).goTo thread (.reaping reap (.finish plan desc)))
    else some (d.goTo thread (.finish plan desc))
  | .finish plan desc => some ((d.setStore (d.store.finishChange plan desc)).goTo thread .done)

/-- A call that fails ends its task; only a failed unlink is passed over. -/
def failTask : SpoolTask → Option Daemon
  | .done => none
  | .unlink _ _ next => some (d.goTo thread next)
  | _ => some (d.goTo thread .done)

variable (desc : AssetDescriptor)

/-- The loop applies a descriptor: a seed at once, a plan step by step. -/
def applyDescriptor (minted : PhotoId) (now : Nat) : Daemon :=
  match d.store.classify minted now desc with
  | .error _ => d
  | .ok (store, .known plan) => (d.setStore store).goTo 0 (.restore plan desc)
  | .ok (store, .noOp photoId) => d.setStore (store.healMissingDescriptor photoId)
  | .ok (store, .seeded _) => d.setStore store

/-- A tombstone whose retention is over and that the mesh knows of. -/
def Expired (p : PhotoRecord) (cutoff : Nat) : Prop :=
  p.deletedAt.any (fun at_ => at_ < cutoff) ∧ (p.published = false ∨ p.tombstonePublished)
deriving Decidable

/-- The row is pending, and no other task finalizes these bytes in the library. -/
def MayFinalize (w : FinalizeCall) : Prop :=
  w.photoId ∈ d.inflight ∧
    (d.store.photo w.photoId).any (fun p => p.libraryId = some w.library ∧
      (p.resource w.resourceType).any fun r => !r.written && !r.removed) ∧
    ∀ task ∈ d.tasks, task.lock ≠ some (w.library, w.content.hash)
deriving Decidable

/-- The loop is between two events. -/
def Idle : Prop := d.tasks[0]? = some .done
deriving Decidable

def next : DaemonEvent → Option Daemon
  | .descriptor desc minted now =>
    if d.Idle ∧ (∀ p ∈ d.store.resolveEventPhoto desc, p.photoId ∉ d.inflight) ∧
        d.store.photo minted = none ∧ minted ∉ d.inflight then
      some (d.applyDescriptor desc minted now)
    else none
  | .tombstone photoId now => some (d.setStore (d.store.tombstonePhoto photoId now))
  | .claim photoId =>
    if d.Idle ∧ photoId ∉ d.inflight then some { d with inflight := photoId :: d.inflight }
      else none
  | .release photoId =>
    if ∀ task ∈ d.tasks, task.writes ≠ some photoId then
      some { d with inflight := d.inflight.filter fun other => other ≠ photoId }
    else none
  | .finalize w => if d.MayFinalize w then some { d with tasks := d.tasks ++ [.lookup w] } else none
  | .published photoId =>
    if photoId ∈ d.inflight then
      some (d.setStore (d.store.updatePhoto photoId PhotoRecord.markPublished)) else none
  | .editPublished photoId rt =>
    if photoId ∈ d.inflight then
      some (d.setStore (d.store.updatePhoto photoId fun p => p.markWrittenPublished rt))
    else none
  | .removalPublished photoId rt =>
    if photoId ∈ d.inflight then
      some (d.setStore (d.store.updatePhoto photoId fun p => p.finishResourceRemoval rt))
    else none
  | .tombstonePublished photoId deleted =>
    if photoId ∈ d.inflight then
      some (d.setStore (d.store.updatePhoto photoId
        (bif deleted then .markTombstonePublished else .clearTombstonePublished)))
    else none
  | .hardDelete photoId cutoff =>
    match d.store.photo photoId with
    | some p =>
      if d.Idle ∧ Expired p cutoff then
        match d.store.hardDelete p with
        | .error _ => some d
        | .ok (store, reap) => some ((d.setStore store).goTo 0 (.reaping reap .done))
      else none
    | none => none
  | .evict thread limit =>
    if thread < 2 ∧ d.tasks[thread]? =
    some .done then some (d.goTo thread (.evict (d.store.evictableBlobs limit))) else none
  | .run thread => d.tasks[thread]?.bind (d.runTask thread)
  | .fail thread => d.tasks[thread]?.bind (d.failTask thread)

def Step (event : DaemonEvent) (d' : Daemon) : Prop := d.next event = some d'

end Daemon

end HopNet.Ingress
