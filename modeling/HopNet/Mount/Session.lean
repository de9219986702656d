import HopNet.Types

/-! One write session of the mount: a file handle, its staging pair, and the tasks that run on it. A
task runs from one await point to the next; a disk write, an answer of the node and the resumption
of the task that waits for it are steps of their own. -/

namespace HopNet

variable (file : Bytes)

/-- `write_all_at`: a hole before the data reads as zeros. -/
def writeAt (offset : Nat) (data : Bytes) : Bytes :=
  if data = [] then file
  else file.take offset ++ List.replicate (offset - file.length) 0 ++ data ++ file.drop
    (offset + data.length)

/-- `set_len`: the file is cut, or grows by zeros. -/
def setLen (size : Nat) : Bytes :=
  file.take size ++ List.replicate (size - file.length) 0

/-- A call that changes the content. -/
inductive Mutation where
  | write (offset : Nat) (data : Bytes)
  | truncate (size : Nat)
deriving DecidableEq

def Mutation.apply : Mutation → Bytes
  | .write offset data => writeAt file offset data
  | .truncate size => setLen file size

/-- What a call did: all of it or, where the disk failed, its first bytes. -/
structure Applied where
  call : Mutation
  torn : Option Nat
deriving DecidableEq

def Applied.apply (file : Bytes) (applied : Applied) : Bytes :=
  match applied.torn, applied.call with
  | none, call => call.apply file
  | some k, .write offset data => writeAt file offset (data.take k)
  | some _, .truncate _ => file

/-- Copy-up stages nothing if the call cuts the file to zero. -/
def Mutation.skipsCopy : Mutation → Bool
  | .write _ _ => false
  | .truncate size => size = 0

/-- The bytes that one step of a copy-up reads. -/
def copyChunk : Nat := 4 * 1024 * 1024

/-- The bytes that one step of an upload reads. -/
def uploadChunk : Nat := 1048576

/-- An upload reading the staging file, each read dated by the calls that the file had seen. -/
structure Upload where
  size : Nat
  startedAt : Nat
  chunks : List (Nat × Bytes)
deriving DecidableEq

def Upload.content (u : Upload) : Bytes := u.chunks.flatMap (·.2)

/-- All of the upload was read after the call with this number. -/
def Upload.Contains (u : Upload) (i : Nat) : Prop := i < u.startedAt ∧ ∀ read ∈ u.chunks, i < read.1
deriving Decidable

/-- An fsync, or a release's background task with its earlier attempts. -/
inductive Uploader where
  | fsync
  | release (attempt : Nat)
deriving DecidableEq

/-- Where a task waits. -/
inductive Task where
  /-- A write or truncate that waits for the handle's lock. -/
  | locking (call : Mutation)
  /-- It holds the lock, and its copy-up has come so far. -/
  | copying (call : Mutation) (copied : Bytes)
  /-- It holds the lock, and the disk has its call. -/
  | mutating (call : Mutation)
  /-- The disk is done with the call of this number. -/
  | mutated (index : Nat)
  | syncing
  /-- The background task of a release, with whether the session was dirty. -/
  | releasing (dirty : Bool)
  /-- An upload that waits for the inode's lock. -/
  | queued (who : Uploader)
  /-- It holds the lock and asks the node for the item. -/
  | checking (who : Uploader)
  | sending (who : Uploader) (upload : Upload)
  /-- All is sent, and the node has answered. -/
  | answered (who : Uploader) (upload : Upload) (ok : Bool)
  | sleeping (attempt : Nat)
  | done
deriving DecidableEq

/-- What a pair began with, what it holds, and whether it is still in the directory. -/
structure StagedFile where
  start : Bytes
  content : Bytes
  linked : Bool
deriving DecidableEq

/-- An open file with its tasks. `base` is the blob captured at open; a lock holds the number of its
task. -/
structure Session where
  base : Bytes
  /-- The open had `O_TRUNC`. -/
  truncated : Bool
  isOpen : Bool
  staged : Option StagedFile
  dirty : Bool
  writeLock : Option Nat
  uploadLock : Option Nat
  tasks : List Task
  /-- What the calls did to the staged file, oldest first. -/
  log : List Applied
  /-- The calls that returned `Ok`, by their number in the log. -/
  acked : List Nat
  /-- The uploads that the node accepted. -/
  accepted : List Upload
  /-- Pairs that a copy-up which failed left in the directory. -/
  strays : List Bytes
deriving DecidableEq

/-- What the outside decides at a step. -/
inductive Outcome where
  | ok
  /-- The cache, the disk or the node fails. -/
  | failed
  /-- The disk fails a write after this many bytes. -/
  | torn (written : Nat)
  /-- The node accepts, and the answer is lost. -/
  | unheard
deriving DecidableEq

inductive SessionEvent where
  /-- A call of `write` or `truncate`. -/
  | mutate (call : Mutation)
  | fsync
  | release
  /-- The task with this number goes on. -/
  | run (task : Nat) (outcome : Outcome)

namespace Session

variable (s : Session)

/-- `open_rw`: an `O_TRUNC` stages an empty file at once. -/
def opened (base : Bytes) (truncate : Bool) : Session :=
  ⟨base, truncate, true, if truncate then some ⟨[], [], true⟩ else none, false, none, none, [],
    [], [], [], []⟩

def spawn (task : Task) : Session := { s with tasks := s.tasks ++ [task] }

variable (i : Nat)

def goTo (task : Task) : Session := { s with tasks := s.tasks.set i task }

/-- The task has the handle's lock. -/
def hold : Session := { s with writeLock := some i }

/-- A file that is staged is in the handle, and in the directory. -/
def stage (start : Bytes) : Session := { s with staged := some ⟨start, start, true⟩ }

def mutateFile (applied : Applied) : Session :=
  { s with
    staged := s.staged.map fun file => { file with content := applied.apply file.content }
    log := s.log ++ [applied] }

/-- `finish`. -/
def unlink : Session := { s with staged := s.staged.map fun file => { file with linked := false } }

/-- An upload ended: an fsync clears the flag or fails, a release finishes or tries again. -/
def settle (who : Uploader) (ok : Bool) : Session :=
  let s := { s with uploadLock := none }
  match who, ok with
  | .fsync, true => { s.goTo i .done with dirty := false }
  | .fsync, false => s.goTo i .done
  | .release _, true => s.unlink.goTo i .done
  | .release attempt, false => s.goTo i (.sleeping attempt)

/-- `byte_source`: the next chunk, or `none` at the end of the file. -/
def readChunk (file : StagedFile) (u : Upload) : Option Upload :=
  let offset := u.content.length
  if file.content.length ≤ offset then none
  else some { u with chunks :=
    u.chunks ++ [(s.log.length, (file.content.drop offset).take uploadChunk)] }

/-- A waiting task takes the handle's lock; only a mutation keeps it over an await. -/
def takeLock : Task → Option Session
  | .locking call =>
    if s.writeLock ≠ none then none
    else
      match s.staged with
      | some _ => some ((s.hold i).goTo i (.mutating call))
      | none =>
        if call.skipsCopy ∨ s.base = [] then some (((s.hold i).stage []).goTo i (.mutating call))
        else some ((s.hold i).goTo i (.copying call []))
  | .syncing =>
    if s.writeLock ≠ none then none
    else some (s.goTo i (if s.staged.isSome then .queued .fsync else .done))
  | .releasing dirty =>
    if s.writeLock ≠ none then none
    else if dirty then some (s.goTo i (if s.staged.isSome then .queued (.release 0) else .done))
    else some (s.unlink.goTo i .done)
  | _ => none

def runTask (task : Task) (outcome : Outcome) : Option Session :=
  match task, outcome with
  | .locking call, .ok => s.takeLock i (.locking call)
  | .locking _, .failed =>
    -- The pair could not be begun.
    if s.writeLock = none ∧ s.staged = none then some (s.goTo i .done) else none
  | .copying call copied, .ok =>
    let copied := copied ++ (s.base.drop copied.length).take copyChunk
    if s.base.length ≤ copied.length then some ((s.stage copied).goTo i (.mutating call))
    else some (s.goTo i (.copying call copied))
  | .copying _ copied, .failed =>
    some { s.goTo i .done with writeLock := none, strays := s.strays ++ [copied] }
  | .copying _ copied, .torn k =>
    some { s.goTo i .done with
      writeLock := none
      strays := s.strays ++ [copied ++ ((s.base.drop copied.length).take copyChunk).take k] }
  | .mutating call, .ok => some ((s.mutateFile ⟨call, none⟩).goTo i (.mutated s.log.length))
  | .mutating call,
      .torn k => some { (s.mutateFile ⟨call, some k⟩).goTo i .done with writeLock := none }
  | .mutated index, .ok =>
    some { s.goTo i .done with dirty := true, writeLock := none, acked := s.acked ++ [index] }
  | .syncing, .ok => s.takeLock i .syncing
  | .releasing dirty, .ok => s.takeLock i (.releasing dirty)
  | .queued who, .ok =>
    if s.uploadLock = none then some { s.goTo i (.checking who) with uploadLock := some i }
      else none
  | .checking who, .ok =>
    s.staged.map fun file => s.goTo i (.sending who ⟨file.content.length, s.log.length, []⟩)
  | .checking who, .failed => some (s.settle i who false)
  | .sending who u, .ok =>
    s.staged.map fun file =>
      match s.readChunk file u with
      | some u => s.goTo i (.sending who u)
      | none => { s.goTo i (.answered who u true) with accepted := s.accepted ++ [u] }
  | .sending who u, .unheard =>
    s.staged.bind fun file =>
      match s.readChunk file u with
      | some _ => none
      | none => some { s.goTo i (.answered who u false) with accepted := s.accepted ++ [u] }
  | .sending who u, .failed => some (s.goTo i (.answered who u false))
  | .answered who _ ok, .ok => some (s.settle i who ok)
  | .sleeping attempt, .ok =>
    some (s.goTo i (if attempt + 1 < 3 then .queued (.release (attempt + 1)) else .done))
  | _, _ => none

/-- One step. A call on a handle that is gone returns an error. -/
def next : SessionEvent → Option Session
  | .mutate call => some (if s.isOpen then s.spawn (.locking call) else s)
  | .fsync => some (if s.isOpen ∧ s.dirty then s.spawn .syncing else s)
  | .release => some (if s.isOpen then { s.spawn (.releasing s.dirty) with isOpen := false } else s)
  | .run i outcome =>
    match s.tasks[i]? with
    | none => none
    | some task => s.runTask i task outcome

/-- Every acknowledged call is in an accepted upload, or in a pair still in the directory. -/
def NothingLost : Prop :=
  ∀ i ∈ s.acked, (∃ u ∈ s.accepted, u.Contains i) ∨
    ∃ file ∈ s.staged, file.linked ∧ file.content = s.log.foldl Applied.apply file.start

end Session

def SessionStep (s : Session) (event : SessionEvent) (s' : Session) : Prop := s.next event = some s'

end HopNet
