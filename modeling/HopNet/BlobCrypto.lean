import HopNet.Lib.Segmented
import HopNet.StorageDb

namespace HopNet

open List

/-- What a put and a get call: the hash with its keyed and key-deriving modes, one segment of
STREAM, and the Reed-Solomon code of 10 originals and 20 recovery shards, with nothing assumed. -/
structure BlobPackages where
  blake3 : Bytes → Blake3Hash
  blake3Keyed : FixedBytes 32 → Bytes → Blake3Hash
  /-- A context string and material, filled to a length. -/
  deriveKey : String → Bytes → (n : Nat) → FixedBytes n
  /-- Key, nonce, position of the segment, whether it is the last. -/
  encryptSegment : FixedBytes 32 → FixedBytes 7 → Nat → Bool → Bytes → Option Bytes
  decryptSegment : FixedBytes 32 → FixedBytes 7 → Nat → Bool → Bytes → Option Bytes
  /-- The recovery shards of originals of one size. -/
  rsEncode : Nat → List Bytes → Option (List Bytes)
  /-- The missing originals with their indices, from indexed shards of both kinds. -/
  rsDecode : Nat → List (Nat × Bytes) → List (Nat × Bytes) → Option (List (Nat × Bytes))

section

variable (pk : BlobPackages) (perFileKey : FixedBytes 32) (fragmentId : CustomUUID)

def deriveChunkKey : FixedBytes 32 :=
  pk.deriveKey "hopnet chunk_key" (perFileKey.bytes ++ fragmentId.asBytes) 32

def deriveChunkNonce : FixedBytes 7 :=
  pk.deriveKey "hopnet chunk_nonce" fragmentId.asBytes 7

def bufferSize : Nat := 4096

def tagSize : Nat := 16

/-- The stream of one fragment. -/
def fragmentScheme : Segmented.Scheme UInt8 StorageFailure where
  size := bufferSize
  overhead := tagSize
  sealOne position last segment :=
    (pk.encryptSegment (deriveChunkKey pk perFileKey fragmentId) (deriveChunkNonce pk fragmentId)
      position last segment).elim (.error .encryption) .ok
  openOne position last segment :=
    (pk.decryptSegment (deriveChunkKey pk perFileKey fragmentId) (deriveChunkNonce pk fragmentId)
      position last segment).elim (.error .encryption) .ok

def encryptChunk (chunk : Bytes) (perFileKey : FixedBytes 32) (fragmentId : CustomUUID) :
    Except StorageFailure Bytes :=
  (fragmentScheme pk perFileKey fragmentId).sealFrom 0 chunk

def decryptChunk (encrypted : Bytes) (perFileKey : FixedBytes 32) (fragmentId : CustomUUID) :
    Except StorageFailure Bytes :=
  (fragmentScheme pk perFileKey fragmentId).openFrom 0 encrypted

def calculateEncryptedChunkLength (length : Nat) : Nat :=
  length + (length + bufferSize - 1) / bufferSize * tagSize

variable (perBlobKey : FixedBytes 32)

def integrityKey : FixedBytes 32 :=
  pk.deriveKey "hopnet-storage integrity v1" perBlobKey.bytes 32

/-- The streaming hasher is its input so far. -/
def integrityHash (plaintext : Bytes) : Blake3Hash :=
  pk.blake3Keyed (integrityKey pk perBlobKey) plaintext

/-- STREAM: a segment decrypts to what was encrypted at its position under its key, the tag adds 16
bytes, and the 32-bit position does not run out. -/
def StreamLaws : Prop :=
  ∀ key nonce position last segment, position < 2 ^ 32 - 1 → segment.length ≤ bufferSize →
    ∃ sealed, pk.encryptSegment key nonce position last segment = some sealed ∧
      sealed.length = segment.length + tagSize ∧
      pk.decryptSegment key nonce position last sealed = some segment

variable {pk}

lemma StreamLaws.lawful (laws : StreamLaws pk) (key : FixedBytes 32) (id : CustomUUID) :
    (fragmentScheme pk key id).Lawful (2 ^ 32 - 1) where
  positive := (by decide : 0 < bufferSize)
  one position last segment hl short := by
    obtain ⟨sealed, he, hle, hd⟩ := laws _ _ position last segment hl short
    refine ⟨sealed, ?_, hle, ?_⟩
    · simp only [fragmentScheme]
      rw [he]
      rfl
    · simp only [fragmentScheme]
      rw [hd]
      rfl

lemma StreamLaws.decrypt_encrypt (hl : StreamLaws pk) (key : FixedBytes 32) (id : CustomUUID)
    {chunk} (hs : chunk ≠ []) (hsm : chunk.length ≤ 4 * 1024 * 1024) :
    ∃ encrypted, encryptChunk pk chunk key id = .ok encrypted ∧
      encrypted.length = calculateEncryptedChunkLength chunk.length ∧
      decryptChunk pk encrypted key id = .ok chunk := by
  refine (hl.lawful key id).open_seal chunk 0 hs ?_
  show 0 + (chunk.length - 1) / 4096 < 2 ^ 32 - 1
  omega

end

def maxFragmentSize : Nat := 4 * 1024 * 1024

/-- 40 MiB: ten fragments of the greatest size. -/
def chunkSize : Nat := maxFragmentSize * originalFragmentsPerChunk

/-- Padding to a multiple of the count whose share is even. -/
def calculateChunkPadding (fileSize numChunks : Nat) : Nat :=
  if numChunks = 0 then 0
  else
    let remainder := if fileSize = 0 then 0 else (numChunks - fileSize % numChunks) % numChunks
    let share := if fileSize + remainder = 0 then 0 else (fileSize + remainder) / numChunks
    if share % 2 ≠ 0 then remainder + numChunks else remainder

/-- Shares split off the end, last one first. -/
def splitOff (share : Nat) (file : Bytes) : List Bytes :=
  if 0 < share ∧ 0 < file.length then
    file.drop (file.length - share) :: splitOff share (file.take (file.length - share))
  else []
termination_by file.length
decreasing_by
  simp only [length_take]
  omega

/-- Pads with zeros and splits into equal shares. -/
def calculatePaddingAndChunks (file : Bytes) (numChunks : Nat) : List Bytes × Nat :=
  let remainder := calculateChunkPadding file.length numChunks
  let padded := file ++ List.replicate remainder 0
  let chunks :=
    if padded = [] then List.replicate numChunks []
    else (splitOff (padded.length / numChunks) padded).reverse
  (chunks, remainder % 256)

lemma calculateChunkPadding_ten {length} (hs : 0 < length) :
    (length + calculateChunkPadding length 10) % 20 = 0 ∧ calculateChunkPadding length 10 < 20 := by
  have hn : ¬ length = 0 := by omega
  have hp : ¬ length + (10 - length % 10) % 10 = 0 := by omega
  simp only [calculateChunkPadding, hn, hp, if_false, Nat.reduceEqDiff]
  split_ifs <;> omega

lemma calculateChunkPadding_of_mod {length} (hs : 0 < length) (he : length % 20 = 0) :
    calculateChunkPadding length 10 = 0 := by
  have hp := calculateChunkPadding_ten hs
  omega

/-- Equal shares of a list: in order, and nothing lost. -/
lemma splitOff_reverse {share} (hp : 0 < share) (count : Nat) :
    ∀ file : Bytes, file.length = count * share →
    (splitOff share file).reverse.flatten = file ∧ (splitOff share file).length = count ∧
    ∀ piece ∈ splitOff share file, piece.length = share := by
  induction count with
  | zero =>
    intro file hl
    have he : file = [] := eq_nil_of_length_eq_zero (by omega)
    subst he
    rw [splitOff, if_neg (by simp)]
    simp
  | succ count ih =>
    intro file hl
    rw [Nat.succ_mul] at hl
    have hf : file.length - share = count * share := by omega
    obtain ⟨flat, hc, hps⟩ := ih (file.take (file.length - share)) (by
      rw [length_take, hf]
      omega)
    rw [splitOff, if_pos ⟨hp, by omega⟩]
    refine ⟨?_, by rw [length_cons, hc], ?_⟩
    · rw [reverse_cons, flatten_append, flat, flatten_singleton,
        take_append_drop]
    · refine forall_mem_cons.2 ⟨?_, hps⟩
      rw [length_drop]
      omega

lemma calculatePaddingAndChunks_ten {file} (hs : 0 < file.length) (he : file.length % 20 = 0) :
    (calculatePaddingAndChunks file 10).1.flatten = file ∧
      (calculatePaddingAndChunks file 10).1.length = 10 ∧
      ∀ piece ∈ (calculatePaddingAndChunks file 10).1, piece.length = file.length / 10 := by
  have hu : file ++ List.replicate (calculateChunkPadding file.length 10) 0 = file := by
    rw [calculateChunkPadding_of_mod hs he]
    simp
  have hn : file ≠ [] := ne_nil_of_length_pos hs
  simp only [calculatePaddingAndChunks, hu, if_neg hn]
  obtain ⟨hf, hc, hpi⟩ :=
    splitOff_reverse (by omega : 0 < file.length / 10) 10 file (by omega)
  refine ⟨hf, by rw [length_reverse, hc], ?_⟩
  intro piece hp
  exact hpi piece (mem_reverse.1 hp)

/-- What the code takes: ten shards of one size, even and not zero. -/
structure RsShards (size : Nat) (originals : List Bytes) : Prop where
  count : originals.length = originalFragmentsPerChunk
  positive : 0 < size
  even : size % 2 = 0
  sizes : ∀ shard ∈ originals, shard.length = size

/-- Some of the shards, each with its index, none twice. -/
structure Indexed (shards : List Bytes) (listed : List (Nat × Bytes)) : Prop where
  keys : (listed.map (·.1)).Nodup
  values : ∀ entry ∈ listed, shards[entry.1]? = some entry.2

/-- Shards of the right shape encode to twenty of their size, and any ten of the thirty restore the
missing originals. -/
structure RsLaws (pk : BlobPackages) : Prop where
  encodes : ∀ size originals, RsShards size originals → ∃ recovery,
    pk.rsEncode size originals = some recovery ∧
      recovery.length = recoveryFragmentsPerChunk ∧ ∀ shard ∈ recovery, shard.length = size
  restores : ∀ size originals recovery, RsShards size originals →
    pk.rsEncode size originals = some recovery →
    ∀ fromOriginals fromRecovery, Indexed originals fromOriginals → Indexed recovery fromRecovery →
    originalFragmentsPerChunk ≤ fromOriginals.length + fromRecovery.length →
    ∃ restored, pk.rsDecode size fromOriginals fromRecovery = some restored ∧
      (∀ entry ∈ restored, originals[entry.1]? = some entry.2) ∧
      ∀ i < originalFragmentsPerChunk, i ∉ fromOriginals.map (·.1) → i ∈ restored.map (·.1)

end HopNet
