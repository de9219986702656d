import HopNet.BlobPut
import HopNet.Lib.Assoc

/-!
The read of a blob: per chunk, discovery where too few fragments are here, the originals or a
Reed-Solomon reconstruction, decryption, and the padding and range cut off. -/

namespace HopNet

open Fallible

structure FragmentEntry where
  fragmentHash : Blake3Hash
  fragmentId : CustomUUID
  isLocal : Bool

/-- The fragments of a chunk by local index, in the order of a hash map. -/
structure ChunkFragmentMaps where
  originals : List (Nat × FragmentEntry)
  recovery : List (Nat × FragmentEntry)

structure BlobManifest where
  integrityHash : Blake3Hash
  addedBytes : Nat
  chunks : List (Nat × ChunkFragmentMaps)

variable (maps : ChunkFragmentMaps)

def ChunkFragmentMaps.localCount : Nat :=
  maps.originals.countP (·.2.isLocal) + maps.recovery.countP (·.2.isLocal)

/-- What a stream yields, and how it ends. -/
structure ByteStream where
  items : List Bytes
  ended : Except StorageFailure Unit

section

variable (pk : BlobPackages) (dir : Fragstore)

def fetchAndVerifyFragment (hash : Blake3Hash) : Except StorageFailure Bytes :=
  match dir.readFragment hash with
  | none => .error .io
  | some data => if pk.blake3 data = hash then .ok data else .error .hashMismatch

/-- The files of the entries that are flagged as being here. -/
def availableShards (entries : List (Nat × FragmentEntry)) :
    Except StorageFailure (List (Nat × Bytes)) :=
  (entries.filter (·.2.isLocal)).mapM fun entry => do
    let data ← fetchAndVerifyFragment pk dir entry.2.fragmentHash
    return (entry.1, data)

variable (perBlobKey : Option (FixedBytes 32))

/-- Without a key the ciphertext is passed on. -/
def decryptWith (encrypted : Bytes) (fragmentId : CustomUUID) : Except StorageFailure Bytes :=
  match perBlobKey with
  | some key => decryptChunk pk encrypted key fragmentId
  | none => .ok encrypted

variable (originals : List (Nat × FragmentEntry))

/-- The fast path: the ten originals in order. -/
def concatOriginals : Except StorageFailure Bytes := do
  let pieces ← (List.range originalFragmentsPerChunk).mapM fun i => do
    let entry ← (originals.lookup i).elim (.error .rs) .ok
    let data ← fetchAndVerifyFragment pk dir entry.fragmentHash
    decryptWith pk perBlobKey data entry.fragmentId
  return pieces.flatten

/-- The fragment at an index, from the files or from the decoder. -/
def restoredFragment (available restored : List (Nat × Bytes)) (i : Nat) :
    Except StorageFailure Bytes := do
  let encrypted ← ((available.lookup i).or (restored.reverse.lookup i)).elim (.error .rs) .ok
  match perBlobKey with
  | some key => do
      let entry ← (originals.lookup i).elim (.error .rs) .ok
      decryptChunk pk encrypted key entry.fragmentId
  | none => .ok encrypted

/-- The slow path. Recovery fragments have the local indices from 10 on. -/
def reconstructFromShards (maps : ChunkFragmentMaps) : Except StorageFailure Bytes := do
  let availableOriginal ← availableShards pk dir maps.originals
  let availableRecovery ← availableShards pk dir maps.recovery
  require (originalFragmentsPerChunk ≤ availableOriginal.length + availableRecovery.length) .rs
  let first ← (availableOriginal.head?.or availableRecovery.head?).elim (.error .rs) .ok
  let restored ← (pk.rsDecode first.2.length availableOriginal
    (availableRecovery.map fun shard => (shard.1 - originalFragmentsPerChunk, shard.2))).elim
      (.error .rs) .ok
  let pieces ← (List.range originalFragmentsPerChunk).mapM
    (restoredFragment pk perBlobKey maps.originals availableOriginal restored)
  return pieces.flatten

def reconstructSingleChunk (maps : ChunkFragmentMaps) : Except StorageFailure Bytes :=
  if (∀ entry ∈ maps.originals, entry.2.isLocal = true) ∧
      maps.originals.length = originalFragmentsPerChunk then
    concatOriginals pk dir perBlobKey maps.originals
  else reconstructFromShards pk dir perBlobKey maps

end

/-- Discovery of what a chunk misses; the network is a parameter. -/
def discoverChunk (search : BlobManifest → Nat → Except StorageFailure BlobManifest)
    (manifest : BlobManifest) (chunkNumber : Nat) : Except StorageFailure BlobManifest := do
  let maps ← (manifest.chunks.lookup chunkNumber).elim (.error .rs) .ok
  if originalFragmentsPerChunk - maps.localCount = 0 then return manifest
  else search manifest chunkNumber

/-- Without a network the manifest is as it is. -/
def discover (net : Option (BlobManifest → Nat → Except StorageFailure BlobManifest))
    (manifest : BlobManifest) (chunkNumber : Nat) : Except StorageFailure BlobManifest :=
  match net with
  | some search => discoverChunk search manifest chunkNumber
  | none => .ok manifest

/-- The padding is taken off the last chunk. -/
def stripPadding (numChunks addedBytes chunkNumber : Nat) (bytes : Bytes) : Bytes :=
  if chunkNumber = numChunks - 1 ∧ 0 < addedBytes then bytes.take (bytes.length - addedBytes)
  else bytes

variable (pk : BlobPackages)
  (net : Option (BlobManifest → Nat → Except StorageFailure BlobManifest))
  (dir : Fragstore) (perBlobKey : Option (FixedBytes 32))

def chunkBytes (numChunks : Nat) (manifest : BlobManifest) (chunkNumber : Nat) :
    Except StorageFailure (BlobManifest × Bytes) := do
  let manifest ← discover net manifest chunkNumber
  let maps ← (manifest.chunks.lookup chunkNumber).elim (.error .rs) .ok
  require (originalFragmentsPerChunk ≤ maps.localCount) .rs
  let bytes ← reconstructSingleChunk pk dir perBlobKey maps
  return (manifest, stripPadding numChunks manifest.addedBytes chunkNumber bytes)

/-- The part of a chunk that an inclusive range asks for. -/
def rangeSlice (startChunk endChunk rangeStart rangeEnd chunkNumber : Nat) (bytes : Bytes) :
    List Bytes :=
  let chunkStart := chunkNumber * chunkSize
  let sliceStart := if chunkNumber = startChunk then rangeStart - chunkStart else 0
  let sliceEnd :=
    if chunkNumber = endChunk then min (rangeEnd - chunkStart + 1) bytes.length else bytes.length
  if sliceStart < bytes.length ∧ sliceStart < sliceEnd then
    [(bytes.take sliceEnd).drop sliceStart]
  else []

/-- The chunks of a full read. The keyed hash is compared after the last. -/
def getAll (numChunks : Nat) : List Nat → BlobManifest → Bytes → ByteStream
  | [], manifest, hashed =>
    match perBlobKey with
    | some key =>
      ⟨[], if integrityHash pk key hashed = manifest.integrityHash then .ok ()
        else .error .hashMismatch⟩
    | none => ⟨[], .ok ()⟩
  | chunkNumber :: rest, manifest, hashed =>
    match chunkBytes pk net dir perBlobKey numChunks manifest chunkNumber with
    | .error e => ⟨[], .error e⟩
    | .ok (manifest, bytes) =>
      let later := getAll numChunks rest manifest (hashed ++ bytes)
      ⟨bytes :: later.items, later.ended⟩

def getRange (numChunks startChunk endChunk rangeStart rangeEnd : Nat) :
    List Nat → BlobManifest → ByteStream
  | [], _ => ⟨[], .ok ()⟩
  | chunkNumber :: rest, manifest =>
    match chunkBytes pk net dir perBlobKey numChunks manifest chunkNumber with
    | .error e => ⟨[], .error e⟩
    | .ok (manifest, bytes) =>
      let later := getRange numChunks startChunk endChunk rangeStart rangeEnd rest manifest
      ⟨rangeSlice startChunk endChunk rangeStart rangeEnd chunkNumber bytes ++ later.items,
        later.ended⟩

/-- The stream of a blob, all of it or an inclusive range. -/
def Blob.get (manifest : BlobManifest) (range : Option (Nat × Nat)) : ByteStream :=
  if manifest.chunks = [] then ⟨[], .ok ()⟩
  else
    let numChunks := manifest.chunks.length
    match range with
    | none => getAll pk net dir perBlobKey numChunks (List.range numChunks) manifest []
    | some (start, end_) =>
      let startChunk := start / chunkSize
      let endChunk := min (end_ / chunkSize) (numChunks - 1)
      getRange pk net dir perBlobKey numChunks startChunk endChunk start end_
        (List.range' startChunk (endChunk + 1 - startChunk)) manifest

end HopNet
