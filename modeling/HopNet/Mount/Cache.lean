import HopNet.Mount.Session
import Mathlib.Data.List.Sort

/-! The sparse content cache of the mount. The calls of `CacheManager` run at the same time on
several threads; a step is what a thread does under one of the locks, one transfer of bytes, or one
answer of the node. When a fetch makes room, `evict_coldest` runs as a call of its own, which may
happen at any moment. -/

namespace HopNet

open Function

structure CacheConfig where
  segmentSize : Nat
  maxOpenFiles : Nat
  maxBlobs : Nat
  segmentSize_pos : 0 < segmentSize

inductive CacheError where
  | transport (why : String)
  | io (why : String)

/-- `BlobState` with its `SegState`. The number stands for the `Arc`, `inflight` has the fetch's
channel, and `file` is the master handle, unless closed. -/
structure BlobState (Blob : Type) where
  blob : Blob
  file : Option Nat
  size : Nat
  present : List Bool
  inflight : List (Nat × Nat)
  pins : Nat
  lastTouch : Nat

structure ReadCall (Blob : Type) where
  blob : Blob
  offset : Nat
  len : Nat

/-- A call in one of its attempts, with the state it resolved. -/
structure CacheReader (Blob : Type) where
  call : ReadCall Blob
  attempt : Nat
  state : Nat

/-- Where a thread is in its call. -/
inductive CacheTask (Blob : Type) where
  /-- `read`, at the head of its loop. -/
  | resolving (call : ReadCall Blob) (attempt : Nat)
  /-- `ensure_segment`, about to choose its role. -/
  | ensuring (reader : CacheReader Blob) (seg tries : Nat)
  | waiting (reader : CacheReader Blob) (seg tries channel : Nat)
  /-- `fetch_segment_inner`, with the node. -/
  | fetching (reader : CacheReader Blob) (seg channel : Nat)
  /-- It has the bytes, and opens the cache file. -/
  | storing (reader : CacheReader Blob) (seg channel : Nat)
  | writing (reader : CacheReader Blob) (seg channel file written : Nat)
  /-- `fetch_segment`, with the result of its inner part. -/
  | fetched (reader : CacheReader Blob) (seg channel : Nat) (result : Except CacheError Unit)
  | opening (reader : CacheReader Blob)
  | reading (reader : CacheReader Blob) (file : Nat) (buf : Bytes)
  /-- The buffer is full, and the presence of its segments is checked again. -/
  | checking (reader : CacheReader Blob) (buf : Bytes)
  | touching (call : ReadCall Blob) (buf : Bytes)
  | returned (call : ReadCall Blob) (result : Except CacheError Bytes)
  /-- `evict_coldest`. -/
  | evicting
  | picking (pinned : List Blob)
  | finding (blob : Blob) (seg : Nat)
  | punching (blob : Blob) (seg state : Nat)
  | dropping (blob : Blob) (seg : Nat)
  /-- `prune_blob_states`, which holds the lock of the map. -/
  | pruning (victims : List Nat)
  | unlinking (victim : Nat) (victims : List Nat)
  /-- `enforce_fd_cap`. -/
  | closing (masters : List Nat) (excess : Nat)
  /-- `backing`, with the state it has cloned. -/
  | backing (state : Nat)
  | finished

/-- A `Backing` and whether it is alive. -/
structure Backing where
  state : Nat
  file : Nat
  alive : Bool

/-- The manager with its directory: `files` by their inode, `paths` the names. -/
structure CacheManager (Blob : Type) where
  states : List (BlobState Blob)
  blobs : Blob → Option Nat
  /-- Some thread holds the lock of `blobs` over several steps. -/
  blobsLocked : Bool
  paths : Blob → Option Nat
  files : List Bytes
  cached : List ((Blob × Nat) × Nat)
  accessClock : Nat
  channels : List (Option Bool)
  tasks : List (CacheTask Blob)
  backings : List Backing

/-- What the outside decides at a step. -/
inductive CacheOutcome (Blob : Type) where
  | ok
  | failed (why : CacheError)
  /-- The file could be opened, and what comes after that fails. -/
  | half (why : CacheError)
  /-- A transfer of at most so many bytes. -/
  | bytes (count : Nat)
  /-- Of the equally cold entries, the one that the scan meets first. -/
  | victim (blob : Blob) (seg : Nat)

inductive CacheEvent (Blob : Type) where
  | read (blob : Blob) (offset len : Nat)
  | evictColdest
  | pruneBlobStates (keep : Blob)
  | enforceFdCap
  | backing (blob : Blob)
  /-- The guard of a backing is dropped. -/
  | dropPin (backing : Nat)
  | run (task : Nat) (outcome : CacheOutcome Blob)

/-- `fallocate` with `PUNCH_HOLE | KEEP_SIZE`. -/
def punchHole (file : Bytes) (offset len : Nat) : Bytes :=
  file.mapIdx fun i byte => if offset ≤ i ∧ i < offset + len then 0 else byte

namespace CacheConfig

variable (config : CacheConfig)

def segStart (seg : Nat) : Nat := seg * config.segmentSize

def segLen (size seg : Nat) : Nat := min (size - config.segStart seg) config.segmentSize

def segCount (size : Nat) : Nat := max ((size + config.segmentSize - 1) / config.segmentSize) 1

/-- The segment of an offset: a `u32`. -/
def segOf (offset : Nat) : Nat := offset / config.segmentSize % 2 ^ 32

end CacheConfig

namespace ReadCall

variable {Blob : Type} (call : ReadCall Blob) (content : Blob → Bytes) (config : CacheConfig)

/-- The bytes to return: fewer than asked for only at the end. -/
def count : Nat := min call.len ((content call.blob).length - call.offset)

def firstSeg : Nat := config.segOf call.offset

def lastSeg : Nat := config.segOf (call.offset + call.count content - 1)

def segs : List Nat :=
  List.range' (call.firstSeg config) (call.lastSeg content config + 1 - call.firstSeg config)

end ReadCall

namespace BlobState

variable {Blob : Type} (b : BlobState Blob) (seg : Nat)

def isPresent : Bool := b.present.getD seg false

def setPresent (value : Bool) : BlobState Blob := { b with present := b.present.set seg value }

def isInflight : Bool := b.inflight.any (·.1 = seg)

def startFetch (channel : Nat) : BlobState Blob :=
  { b with inflight := (seg, channel) :: b.inflight }

def endFetch : BlobState Blob := { b with inflight := b.inflight.filter (·.1 ≠ seg) }

def close : BlobState Blob := { b with file := none }

def reopen (file : Nat) : BlobState Blob := { b with file := some file }

def clear : BlobState Blob := { b with file := none, present := b.present.map fun _ => false }

end BlobState

namespace CacheManager

variable {Blob : Type} [DecidableEq Blob]

def empty : CacheManager Blob := ⟨[], fun _ => none, false, fun _ => none, [], [], 0, [], [], []⟩

variable (s : CacheManager Blob)

def spawn (task : CacheTask Blob) : CacheManager Blob := { s with tasks := s.tasks ++ [task] }

def goTo (p : Nat) (task : CacheTask Blob) : CacheManager Blob :=
  { s with tasks := s.tasks.set p task }

variable (i : Nat) (b : BlobState Blob)

def setState : CacheManager Blob := { s with states := s.states.set i b }

def setFile (n : Nat) (data : Bytes) : CacheManager Blob := { s with files := s.files.set n data }

def withIndex (cached : List ((Blob × Nat) × Nat)) : CacheManager Blob :=
  { s with cached := cached }

def tick : CacheManager Blob := { s with accessClock := s.accessClock + 1 }

def setLocked (locked : Bool) : CacheManager Blob := { s with blobsLocked := locked }

def stamp : CacheManager Blob :=
  (s.setState i { b with lastTouch := s.accessClock }).tick

/-- The states that the map leads to. -/
def live : List Nat :=
  (List.range s.states.length).filter fun i => s.states[i]?.any fun b => s.blobs b.blob = some i

def lastTouch (i : Nat) : Nat := s.states[i]?.elim 0 (·.lastTouch)

def coldestFirst (states : List Nat) : List Nat :=
  states.insertionSort fun i j => s.lastTouch i ≤ s.lastTouch j

/-- The cache file of a blob, which is created if there is none. -/
def openPath (blob : Blob) : CacheManager Blob × Nat :=
  match s.paths blob with
  | some n => (s, n)
  | none =>
    ({ s with files := s.files ++ [[]], paths := update s.paths blob (some s.files.length) },
      s.files.length)

variable (config : CacheConfig)

/-- A new state over the file `n`, and its entry in the map. -/
def addState (blob : Blob) (size n : Nat) : CacheManager Blob :=
  { s with
    states := s.states ++
      [⟨blob, some n, size, List.replicate (config.segCount size) false, [], 0, s.accessClock⟩]
    blobs := update s.blobs blob (some s.states.length)
    accessClock := s.accessClock + 1 }

def notFound : CacheError := .io "open cache file: No such file or directory (os error 2)"

/-- The master, which is opened again by its path if it was closed. -/
def openMaster : Option (CacheManager Blob × Nat) :=
  match b.file with
  | some n => some (s, n)
  | none => (s.paths b.blob).map fun n => (s.setState i (b.reopen n), n)

/-- `blob_file_inner`. On `half` the open master cannot be cloned. -/
def blobFileInner : CacheOutcome Blob → Option (CacheManager Blob × Except CacheError Nat)
  | .ok =>
    match s.openMaster i b with
    | some (s, n) => some (s, .ok n)
    | none => some (s, .error notFound)
  | .failed why => some (s, .error why)
  | .half why => (s.openMaster i b).map fun opened => (opened.1, .error why)
  | _ => none

def blobFile (outcome : CacheOutcome Blob) : Option (CacheManager Blob × Except CacheError Nat) :=
  (s.stamp i b).blobFileInner i { b with lastTouch := s.accessClock } outcome

variable (content : Blob → Bytes)

/-- After a segment the next one is ensured, and then the file is read. -/
def afterSegment (reader : CacheReader Blob) (seg : Nat) : CacheTask Blob :=
  if seg < reader.call.lastSeg content config then .ensuring reader (seg + 1) 0 else .opening reader

/-- The first segment of an attempt. -/
def beginAttempt (reader : CacheReader Blob) : CacheTask Blob :=
  if reader.call.firstSeg config ≤ reader.call.lastSeg content config then
    .ensuring reader (reader.call.firstSeg config) 0
  else .opening reader

variable (p : Nat)

/-- `blob_state` in an attempt of a read. -/
def resolve (call : ReadCall Blob) (attempt : Nat) : CacheOutcome Blob → Option (CacheManager Blob)
  | .ok =>
    match s.blobs call.blob with
    | some i =>
      s.states[i]?.map fun b => (s.stamp i b).goTo p
        (beginAttempt config content ⟨call, attempt, i⟩)
    | none =>
      let (opened, n) := s.openPath call.blob
      let size := (content call.blob).length
      let sized := opened.setFile n (setLen (opened.files.getD n []) size)
      some ((sized.addState config call.blob size n).goTo p
        (beginAttempt config content ⟨call, attempt, s.states.length⟩))
  | .failed why => if s.blobs call.blob = none then some (s.goTo p (.returned call (.error why)))
      else none
  | .half why =>
    -- `set_len` failed; the file stays, and no state was made.
    if s.blobs call.blob =
      none then some ((s.openPath call.blob).1.goTo p (.returned call (.error why))) else none
  | _ => none

variable (reader : CacheReader Blob)

/-- `ensure_segment`: the role is chosen under the segments' lock. -/
def ensure (seg tries : Nat) (b : BlobState Blob) : CacheManager Blob :=
  if b.isPresent seg then s.goTo p (afterSegment config content reader seg)
  else
    match b.inflight.find? (·.1 = seg) with
    | some (_, channel) => s.goTo p (.waiting reader seg tries channel)
    | none =>
      let channel := s.channels.length
      { (s.setState reader.state (b.startFetch seg channel)).goTo p
        (.fetching reader seg channel) with channels := s.channels ++ [none] }

/-- `fetch_segment` after its inner part. -/
def completeFetch (seg channel : Nat) (b : BlobState Blob) :
    Except CacheError Unit → CacheManager Blob
  | .ok () =>
    let key := (reader.call.blob, seg)
    { (((s.goTo p (afterSegment config content reader seg)).setState reader.state
          ((b.endFetch seg).setPresent seg true)).withIndex
        ((key, s.accessClock) :: s.cached.filter (·.1 ≠ key))).tick with
      channels := s.channels.set channel (some true) }
  | .error why =>
    { (s.goTo p (.returned reader.call (.error why))).setState reader.state (b.endFetch seg) with
      channels := s.channels.set channel (some false) }

/-- The presence re-check after the read. -/
def recheck (buf : Bytes) (b : BlobState Blob) : CacheManager Blob :=
  s.goTo p
    (if ∀ seg ∈ reader.call.segs content config, b.isPresent seg then .touching reader.call buf
    else if reader.attempt + 1 < 3 then .resolving reader.call (reader.attempt + 1)
    else .returned reader.call (.error (.io "segment evicted repeatedly under read")))

def touch (call : ReadCall Blob) : CacheManager Blob :=
  (s.withIndex (s.cached.map fun entry =>
    if entry.1.1 = call.blob ∧ entry.1.2 ∈ call.segs content config then (entry.1, s.accessClock)
      else entry)).tick

variable (task : CacheTask Blob) (outcome : CacheOutcome Blob)

/-- One step of a `read`. -/
def runRead : Option (CacheManager Blob) :=
  match task, outcome with
  | .resolving call attempt, outcome =>
    if s.blobsLocked then none else s.resolve config content p call attempt outcome
  | .ensuring reader seg tries,
      .ok => s.states[reader.state]?.map (s.ensure config content p reader seg tries)
  | .waiting reader seg tries channel, .ok =>
    match s.channels[channel]? with
    | some (some true) => some (s.goTo p (afterSegment config content reader seg))
    | some (some false) =>
      some (s.goTo p
        (if tries + 1 < 2 then .ensuring reader seg (tries + 1)
        else .returned reader.call (.error (.io "segment fetch failed after retry"))))
    | _ => none
  | .fetching reader seg channel, .ok => some (s.goTo p (.storing reader seg channel))
  | .fetching reader seg channel,
      .failed why => some (s.goTo p (.fetched reader seg channel (.error why)))
  | .storing reader seg channel, outcome =>
    s.states[reader.state]?.bind fun b =>
      (s.blobFile reader.state b outcome).map fun opened =>
        opened.1.goTo p
          (match opened.2 with
          | .ok n => .writing reader seg channel n 0
          | .error why => .fetched reader seg channel (.error why))
  | .writing reader seg channel n written, .bytes k =>
    let whole := (content reader.call.blob).length
    let rest := (((content reader.call.blob).drop (config.segStart seg)).take
      (config.segLen whole seg)).drop written
    if k = 0 then none
    else
      s.files[n]?.map fun data =>
        (s.setFile n (writeAt data (config.segStart seg + written) (rest.take k))).goTo p
          (.writing reader seg channel n (written + (rest.take k).length))
  | .writing reader seg channel _ written, .ok =>
    if config.segLen (content reader.call.blob).length seg ≤ written then
      some (s.goTo p (.fetched reader seg channel (.ok ())))
    else none
  | .writing reader seg channel _ _,
      .failed why => some (s.goTo p (.fetched reader seg channel (.error why)))
  | .fetched reader seg channel result, .ok =>
    s.states[reader.state]?.map fun b =>
      s.completeFetch config content p reader seg channel b result
  | .opening reader, outcome =>
    s.states[reader.state]?.bind fun b =>
      (s.blobFile reader.state b outcome).map fun opened =>
        opened.1.goTo p
          (match opened.2 with
          | .ok n => .reading reader n []
          | .error why => .returned reader.call (.error why))
  | .reading reader n buf, .bytes k =>
    s.files[n]?.map fun data =>
      let chunk := (data.drop (reader.call.offset + buf.length)).take
        (min k (reader.call.count content - buf.length))
      s.goTo p (.reading reader n (buf ++ chunk))
  | .reading reader _ buf, .ok =>
    if buf.length = reader.call.count content then some (s.goTo p (.checking reader buf)) else none
  | .reading reader _ _, .failed why => some (s.goTo p (.returned reader.call (.error why)))
  | .checking reader buf, .ok => s.states[reader.state]?.map (s.recheck config content p reader buf)
  | .touching call buf,
      .ok => some ((s.touch config content call).goTo p (.returned call (.ok buf)))
  | _, _ => none

/-- The entry leaves the index, and the call ends. -/
def dropEntry (blob : Blob) (seg : Nat) : CacheManager Blob :=
  (s.withIndex (s.cached.filter (·.1 ≠ (blob, seg)))).goTo p .finished

/-- The part of `evict_coldest` under the lock of the segments. -/
def punch (blob : Blob) (seg i : Nat) (b : BlobState Blob)
    (outcome : CacheOutcome Blob) : Option (CacheManager Blob) :=
  if 0 < b.pins then some (s.goTo p .finished)
  else if b.isInflight seg then some (s.dropEntry p blob seg)
  else
    let b := b.setPresent seg false
    ((s.setState i b).blobFileInner i b outcome).bind fun opened =>
      match opened.2 with
      | .ok n =>
        opened.1.files[n]?.map fun data =>
          (opened.1.setFile n
            (punchHole data (config.segStart seg) (config.segLen b.size seg))).goTo p
            (.dropping blob seg)
      | .error _ => some (opened.1.goTo p (.dropping blob seg))

/-- One step of `evict_coldest`. -/
def runEvict : Option (CacheManager Blob) :=
  match task, outcome with
  | .evicting, .ok =>
    if s.blobsLocked then none
    else
      some (s.goTo p (.picking (s.live.filterMap fun i =>
        s.states[i]?.bind fun b => if 0 < b.pins then some b.blob else none)))
  | .picking pinned, .victim blob seg =>
    let unpinned := s.cached.filter (·.1.1 ∉ pinned)
    if ∃ entry ∈ unpinned, entry.1 = (blob, seg) ∧ ∀ other ∈ unpinned, entry.2 ≤ other.2 then
      some (s.goTo p (.finding blob seg))
    else none
  | .picking pinned, .ok => if s.cached.all (·.1.1 ∈ pinned) then some (s.goTo p .finished)
      else none
  | .finding blob seg, .ok =>
    if s.blobsLocked then none
    else
      match s.blobs blob with
      | some i => some (s.goTo p (.punching blob seg i))
      | none => some (s.dropEntry p blob seg)
  | .punching blob seg i, outcome => s.states[i]?.bind fun b =>
      s.punch config p blob seg i b outcome
  | .dropping blob seg, .ok => some (s.dropEntry p blob seg)
  | _, _ => none

/-- The loop of `prune_blob_states`: one victim, up to the end of its lock. -/
def pruneNext : List Nat → Option (CacheManager Blob)
  | [] => some ((s.setLocked false).goTo p .finished)
  | victim :: victims =>
    if s.live.length ≤ config.maxBlobs then some ((s.setLocked false).goTo p .finished)
    else
      s.states[victim]?.map fun b =>
        if 0 < b.pins ∨ b.inflight ≠ [] then s.goTo p (.pruning victims)
        else
          ((s.setState victim b.clear).withIndex
            (s.cached.filter fun entry => ¬ (entry.1.1 = b.blob ∧
              entry.1.2 < b.present.length))).goTo p
              (.unlinking victim victims)

/-- The victim's file is unlinked, and its entry leaves the map. -/
def unlink (blob : Blob) (removed : Bool) : CacheManager Blob :=
  { s with
    paths := if removed then update s.paths blob none else s.paths
    blobs := update s.blobs blob none }

def runPrune : Option (CacheManager Blob) :=
  match task, outcome with
  | .pruning victims, .ok => s.pruneNext config p victims
  | .unlinking victim victims, .ok =>
    s.states[victim]?.map fun b => (s.unlink b.blob true).goTo p (.pruning victims)
  | .unlinking victim victims, .failed _ =>
    s.states[victim]?.map fun b => (s.unlink b.blob false).goTo p (.pruning victims)
  | _, _ => none

/-- The loop of `enforce_fd_cap`. -/
def runClose : List Nat → Nat → Option (CacheManager Blob)
  | i :: masters, excess + 1 =>
    s.states[i]?.map fun b =>
      if 0 < b.pins then s.goTo p (.closing masters (excess + 1))
      else (s.setState i b.close).goTo p (.closing masters excess)
  | _, _ => some (s.goTo p .finished)

/-- A pin is taken, and the backing goes out. -/
def pin (n : Nat) : CacheManager Blob :=
  { s with
    states := s.states.modify i fun b => { b with pins := b.pins + 1 }
    backings := s.backings ++ [⟨i, n, true⟩] }

/-- The guard of a backing is dropped. -/
def unpin (k : Nat) (backing : Backing) : CacheManager Blob :=
  { s with
    states := s.states.modify backing.state fun b => { b with pins := b.pins - 1 }
    backings := s.backings.set k { backing with alive := false } }

/-- `backing` under the lock of the segments. -/
def runBacking (i : Nat) (b : BlobState Blob) (outcome : CacheOutcome Blob) :
    Option (CacheManager Blob) :=
  if b.inflight ≠ [] ∨ ¬ b.present.all id then some (s.goTo p .finished)
  else
    (s.blobFile i b outcome).map fun opened =>
      match opened.2 with
      | .ok n => (opened.1.pin i n).goTo p .finished
      | .error _ => opened.1.goTo p .finished

def runTask : Option (CacheManager Blob) :=
  match task with
  | .evicting | .picking _ | .finding _ _ | .punching _ _ _ | .dropping _ _ =>
      s.runEvict config p task outcome
  | .pruning _ | .unlinking _ _ => s.runPrune config p task outcome
  | .closing masters excess => s.runClose p masters excess
  | .backing i => s.states[i]?.bind fun b => s.runBacking p i b outcome
  | _ => s.runRead config content p task outcome

def next : CacheEvent Blob → Option (CacheManager Blob)
  | .read blob offset len =>
    let size := (content blob).length
    let call : ReadCall Blob := ⟨blob, offset, len⟩
    some (s.spawn (if size ≤ offset ∨ len = 0 ∨ size = 0 then .returned call (.ok [])
      else .resolving call 0))
  | .evictColdest => some (s.spawn .evicting)
  | .pruneBlobStates keep =>
    if s.blobsLocked then none
    else
      let victims := s.live.filter fun i => s.states[i]?.any fun b => b.blob ≠ keep ∧ b.pins = 0
      some ((s.setLocked true).spawn (.pruning (s.coldestFirst victims)))
  | .enforceFdCap =>
    if s.blobsLocked then none
    else
      let masters := s.live.filter fun i => s.states[i]?.any (·.file.isSome)
      some (s.spawn (.closing (s.coldestFirst masters) (masters.length - config.maxOpenFiles)))
  | .backing blob =>
    if s.blobsLocked then none
    else some ((s.blobs blob).elim s fun i => s.spawn (.backing i))
  | .dropPin k => s.backings[k]?.bind fun backing => if backing.alive then some (s.unpin k backing)
      else none
  | .run p outcome => s.tasks[p]?.bind fun task => s.runTask config content p task outcome

/-- A read that returned has the blob's bytes from its offset on. -/
def ReadsExact : Prop :=
  ∀ call buf, .returned call (.ok buf) ∈ s.tasks →
    buf = ((content call.blob).drop call.offset).take call.len

/-- The file of a backing that is alive has the blob's bytes. -/
def BackingsExact : Prop :=
  ∀ backing ∈ s.backings, backing.alive → ∃ b, s.states[backing.state]? = some b ∧
    s.files[backing.file]? = some (content b.blob)

end CacheManager

def CacheStep {Blob : Type} [DecidableEq Blob] (config : CacheConfig) (content : Blob → Bytes)
    (s : CacheManager Blob) (event : CacheEvent Blob) (s' : CacheManager Blob) : Prop :=
  s.next config content event = some s'

end HopNet
