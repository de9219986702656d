import HopNet.BlobCrypto
import HopNet.Fragstore
import HopNet.Lib.Blocks

/-!
The ingest of a blob: the reads are gathered into 40 MiB chunks, and each chunk is padded, split,
encrypted per fragment, given its recovery shards and stored under the hashes of the contents. -/

namespace HopNet

open Fallible List Blocks

structure PutFragment where
  chunkNumber : Nat
  localIndex : Nat
  fragmentId : CustomUUID
  fragmentHash : Blake3Hash
  recovery : Bool

structure PutOutcome where
  integrityHash : Blake3Hash
  fragments : List PutFragment
  /-- Padding of the last chunk. -/
  addedBytes : Nat

/-- What a put takes from outside: fresh ids, random padding, admission, and the hook that sees a
batch's hashes before its files are written. -/
structure PutEnv where
  fragmentId : Nat → Nat → CustomUUID
  randomBytes : Nat → (n : Nat) → FixedBytes n
  reserveIngest : Nat → Except StorageFailure Unit
  beforeStore : List Blake3Hash → Except StorageFailure Unit

/-- The content of a fragment file, with the id of the fragment. -/
structure Shard where
  fragmentId : CustomUUID
  data : Bytes

section

variable (pk : BlobPackages) (env : PutEnv) (key : FixedBytes 32) (chunkNumber : Nat) (data : Bytes)

def paddedChunk : Bytes :=
  data ++ (env.randomBytes chunkNumber
    (calculateChunkPadding data.length originalFragmentsPerChunk)).bytes

def encryptOriginals : Except StorageFailure (List Shard) :=
  (calculatePaddingAndChunks (paddedChunk env chunkNumber data)
      originalFragmentsPerChunk).1.zipIdx.mapM fun piece => do
    let encrypted ← encryptChunk pk piece.1 key (env.fragmentId chunkNumber piece.2)
    return ⟨env.fragmentId chunkNumber piece.2, encrypted⟩

/-- The shard size is that of the first original. -/
def recoveryShards (originals : List Shard) : Except StorageFailure (List Shard) := do
  let size := (originals.head?.map (·.data.length)).getD 0
  let recovery ← (pk.rsEncode size (originals.map (·.data))).elim (.error .rs) .ok
  return recovery.zipIdx.map fun shard =>
    ⟨env.fragmentId chunkNumber (originalFragmentsPerChunk + shard.2), shard.1⟩

def storeShards (dir : Fragstore) (shards : List Shard) : Fragstore :=
  shards.foldl (fun dir shard => dir.storeFragment (pk.blake3 shard.data) shard.data) dir

def putFragments (first : Nat) (recovery : Bool) (shards : List Shard) : List PutFragment :=
  shards.zipIdx.map fun shard =>
    ⟨chunkNumber, first + shard.2, shard.1.fragmentId, pk.blake3 shard.1.data, recovery⟩

/-- One logical chunk: the directory, its thirty fragments and the padding. -/
def processLogicalChunk (dir : Fragstore) :
    Except StorageFailure (Fragstore × List PutFragment × Nat) := do
  let originals ← encryptOriginals pk env key chunkNumber data
  env.beforeStore (originals.map fun shard => pk.blake3 shard.data)
  let recovery ← recoveryShards pk env chunkNumber originals
  env.beforeStore (recovery.map fun shard => pk.blake3 shard.data)
  return (storeShards pk (storeShards pk dir originals) recovery,
    putFragments pk chunkNumber 0 false originals ++
      putFragments pk chunkNumber originalFragmentsPerChunk true recovery,
    calculateChunkPadding data.length originalFragmentsPerChunk)

end

section

variable (pk : BlobPackages) (env : PutEnv) (key : FixedBytes 32)

structure PutState where
  dir : Fragstore
  fragments : List PutFragment
  currentChunkNumber : Nat
  lastChunkPadding : Nat

def PutState.process (s : PutState) (data : Bytes) : Except StorageFailure PutState := do
  let done ← processLogicalChunk pk env key s.currentChunkNumber data s.dir
  return ⟨done.1, s.fragments ++ done.2.1, s.currentChunkNumber + 1, done.2.2⟩

/-- While a full chunk is buffered, it is processed. -/
def drainFull (buffer : Bytes) (s : PutState) : Except StorageFailure (Bytes × PutState) :=
  if 0 < chunkSize ∧ chunkSize ≤ buffer.length then do
    let s ← s.process pk env key (buffer.take chunkSize)
    drainFull (buffer.drop chunkSize) s
  else .ok (buffer, s)
termination_by buffer.length
decreasing_by
  simp only [length_drop]
  omega

/-- The reads until an empty one; the hasher is its input so far. -/
def readLoop : List Bytes → Bytes → Bytes → PutState →
    Except StorageFailure (Bytes × Bytes × PutState)
  | [], buffer, hashed, s => .ok (buffer, hashed, s)
  | read :: reads, buffer, hashed, s =>
    if read = [] then .ok (buffer, hashed, s)
    else do
      let drained ← drainFull pk env key (buffer ++ read) s
      readLoop reads drained.1 (hashed ++ read) drained.2

/-- The final partial chunk, if bytes remain. -/
def finishPartial (buffer : Bytes) (s : PutState) : Except StorageFailure PutState :=
  if buffer = [] then .ok s else s.process pk env key buffer

def putWith (reads : List Bytes) (fileSize : Nat) (dir : Fragstore) :
    Except StorageFailure (PutOutcome × Fragstore) := do
  require (fileSize ≠ 0) .rs
  env.reserveIngest fileSize
  let done ← readLoop pk env key reads [] [] ⟨dir, [], 0, 0⟩
  let s ← finishPartial pk env key done.1 done.2.2
  return (⟨integrityHash pk key done.2.1, s.fragments, s.lastChunkPadding % 256⟩, s.dir)

/-- `put` has no hook. -/
def Blob.put (reads : List Bytes) (fileSize : Nat) (dir : Fragstore) :
    Except StorageFailure (PutOutcome × Fragstore) :=
  putWith pk { env with beforeStore := fun _ => .ok () } key reads fileSize dir

end

variable {pk : BlobPackages} {env : PutEnv} {key : FixedBytes 32}

def shardSize (padded : Bytes) : Nat := calculateEncryptedChunkLength (padded.length / 10)

/-- The shards of a padded chunk decrypt in order to its pieces; the recovery shards are the
code's. -/
structure Encodes (pk : BlobPackages) (key : FixedBytes 32) (padded : Bytes)
    (originals recovery : List Shard) : Prop where
  plain : ∃ pieces, pieces.flatten = padded ∧ Forall₂ (fun piece shard =>
    decryptChunk pk shard.data key shard.fragmentId = .ok piece) pieces originals
  shape : RsShards (shardSize padded) (originals.map (·.data))
  coded : pk.rsEncode (shardSize padded) (originals.map (·.data)) = some (recovery.map (·.data))
  recoverySizes : ∀ shard ∈ recovery, shard.data.length = shardSize padded
  recoveryCount : recovery.length = recoveryFragmentsPerChunk

lemma paddedChunk_length (env : PutEnv) (chunkNumber : Nat) {data} (hs : 0 < data.length)
    (hsm : data.length ≤ chunkSize) :
    (paddedChunk env chunkNumber data).length % 20 = 0 ∧
      0 < (paddedChunk env chunkNumber data).length ∧
      (paddedChunk env chunkNumber data).length ≤ chunkSize := by
  have hp := calculateChunkPadding_ten hs
  have hb := (env.randomBytes chunkNumber (calculateChunkPadding data.length 10)).size
  have size : chunkSize = 41943040 := rfl
  simp only [paddedChunk, originalFragmentsPerChunk, length_append, hb]
  omega

lemma encryptOriginals_ok (hst : StreamLaws pk) (chunkNumber : Nat) {data}
    (hso : 0 < data.length) (hsm : data.length ≤ chunkSize) :
    ∃ originals, encryptOriginals pk env key chunkNumber data = .ok originals ∧
      (∃ pieces, pieces.flatten = paddedChunk env chunkNumber data ∧
        Forall₂ (fun piece shard =>
          decryptChunk pk shard.data key shard.fragmentId = .ok piece) pieces originals) ∧
      RsShards (shardSize (paddedChunk env chunkNumber data)) (originals.map (·.data)) := by
  obtain ⟨he, hpo, hb⟩ := paddedChunk_length env chunkNumber hso hsm
  obtain ⟨flat, hc, hsi⟩ := calculatePaddingAndChunks_ten hpo he
  unfold encryptOriginals
  generalize paddedChunk env chunkNumber data = padded at *
  have hbo : chunkSize = 41943040 := rfl
  -- One piece: it encrypts, its length determines the length, and it decrypts.
  have each : ∀ piece ∈ (calculatePaddingAndChunks padded 10).1.zipIdx, ∃ shard : Shard,
      (do
        let encrypted ← encryptChunk pk piece.1 key (env.fragmentId chunkNumber piece.2)
        return (⟨env.fragmentId chunkNumber piece.2, encrypted⟩ : Shard)) = Except.ok shard ∧
      (decryptChunk pk shard.data key shard.fragmentId = .ok piece.1 ∧
        shard.data.length = calculateEncryptedChunkLength (padded.length / 10)) := by
    intro piece hp
    have size := hsi piece.1 (fst_mem_of_mem_zipIdx hp)
    obtain ⟨encrypted, ran, hl, hd⟩ :=
      hst.decrypt_encrypt key (env.fragmentId chunkNumber piece.2)
        (ne_nil_of_length_pos (by omega) : piece.1 ≠ []) (by omega)
    exact ⟨⟨_, encrypted⟩, by rw [ran]; rfl, hd, by rw [← size]; exact hl⟩
  obtain ⟨originals, ran, hr⟩ := mapM_forall₂ each
  have ho : Forall₂ (fun piece shard =>
      decryptChunk pk shard.data key shard.fragmentId = .ok piece ∧
        shard.data.length = calculateEncryptedChunkLength (padded.length / 10))
      (calculatePaddingAndChunks padded 10).1 originals := by
    have hf := zipIdx_map_fst 0 (calculatePaddingAndChunks padded 10).1
    rw [← hf, forall₂_map_left_iff]
    exact hr
  refine ⟨originals, ran, ⟨_, flat, ho.imp fun _ _ both => both.1⟩, ?_⟩
  unfold shardSize
  refine ⟨?_, ?_, ?_, ?_⟩
  · rw [length_map, ← ho.length_eq, hc]
    rfl
  · unfold calculateEncryptedChunkLength
    omega
  · unfold calculateEncryptedChunkLength tagSize
    omega
  · intro bytes hs
    obtain ⟨shard, hor, rfl⟩ := mem_map.1 hs
    obtain ⟨piece, _, both⟩ := forall₂_of_mem ho hor
    exact both.2

lemma recoveryShards_ok (rs : RsLaws pk) (chunkNumber : Nat) {originals size}
    (hs : RsShards size (originals.map (·.data))) :
    ∃ recovery, recoveryShards pk env chunkNumber originals = .ok recovery ∧
      pk.rsEncode size (originals.map (·.data)) = some (recovery.map (·.data)) ∧
      recovery.length = recoveryFragmentsPerChunk ∧
      ∀ shard ∈ recovery, shard.data.length = size := by
  obtain ⟨contents, he, hc, hsi⟩ := rs.encodes size _ hs
  have hf : (originals.head?.map (·.data.length)).getD 0 = size := by
    cases originals with
    | nil => cases hs.count
    | cons shard others => exact hs.sizes _ mem_cons_self
  have hd : (contents.zipIdx.map fun shard =>
      (⟨env.fragmentId chunkNumber (originalFragmentsPerChunk + shard.2), shard.1⟩ : Shard)).map
        (·.data) = contents := by
    rw [map_map]
    exact zipIdx_map_fst 0 contents
  refine ⟨_, ?_, by rw [hd]; exact he, by rw [length_map, length_zipIdx, hc], ?_⟩
  · unfold recoveryShards
    rw [hf]
    dsimp only
    rw [he]
    rfl
  · intro shard hsh
    exact hsi _ (hd ▸ mem_map_of_mem hsh)

lemma encodes_chunk (hst : StreamLaws pk) (rs : RsLaws pk) (chunkNumber : Nat) {data}
    (hso : 0 < data.length) (hsm : data.length ≤ chunkSize) :
    ∃ originals recovery, encryptOriginals pk env key chunkNumber data = .ok originals ∧
      recoveryShards pk env chunkNumber originals = .ok recovery ∧
      Encodes pk key (paddedChunk env chunkNumber data) originals recovery := by
  obtain ⟨originals, he, hp, hs⟩ :=
    @encryptOriginals_ok pk env key hst chunkNumber data hso hsm
  obtain ⟨recovery, hco, hen, hc, hsi⟩ := recoveryShards_ok rs chunkNumber hs
  exact ⟨originals, recovery, he, hco, hp, hs, hen, hsi, hc⟩

variable {reads : List Bytes}

/-- The shards that a chunk's files hold. -/
structure EncodedChunk where
  originals : List Shard
  recovery : List Shard

def EncodedChunk.shards (chunk : EncodedChunk) : List Shard := chunk.originals ++ chunk.recovery

def EncodedChunk.fragments (pk : BlobPackages) (chunk : EncodedChunk) (chunkNumber : Nat) :
    List PutFragment :=
  putFragments pk chunkNumber 0 false chunk.originals ++
    putFragments pk chunkNumber originalFragmentsPerChunk true chunk.recovery

/-- What becomes of the chunk with this number and data. -/
def encodeChunk (pk : BlobPackages) (env : PutEnv) (key : FixedBytes 32) (numbered : Bytes × Nat) :
    Except StorageFailure EncodedChunk := do
  let originals ← encryptOriginals pk env key numbered.2 numbered.1
  let recovery ← recoveryShards pk env numbered.2 originals
  return ⟨originals, recovery⟩

lemma storeShards_append (dir : Fragstore) (first second : List Shard) :
    storeShards pk dir (first ++ second) = storeShards pk (storeShards pk dir first) second :=
  foldl_append

lemma PutState.process_eq (ho : ∀ hashes, env.beforeStore hashes = .ok ()) {s : PutState}
    {data chunk} (he : encodeChunk pk env key (data, s.currentChunkNumber) = .ok chunk) :
    s.process pk env key data = .ok
      { dir := storeShards pk s.dir chunk.shards
        fragments := s.fragments ++ chunk.fragments pk s.currentChunkNumber
        currentChunkNumber := s.currentChunkNumber + 1
        lastChunkPadding := calculateChunkPadding data.length originalFragmentsPerChunk } := by
  simp only [encodeChunk, bind_eq_ok, pure_eq_ok] at he
  obtain ⟨originals, hen, recovery, hc, rfl⟩ := he
  simp only [process, processLogicalChunk, bind_eq_ok, pure_eq_ok]
  refine ⟨_, ⟨originals, hen, (), ho _, recovery, hc, (), ho _, rfl⟩, ?_⟩
  simp only [EncodedChunk.shards, EncodedChunk.fragments, storeShards_append]

def lastPadding (before : Nat) (chunks : List Bytes) : Nat :=
  chunks.foldl (fun _ data => calculateChunkPadding data.length originalFragmentsPerChunk) before

lemma process_chunks (ho : ∀ hashes, env.beforeStore hashes = .ok ()) {chunks : List Bytes}
    {encodings} {s : PutState}
    (he : Forall₂ (fun numbered chunk => encodeChunk pk env key numbered = .ok chunk)
      (chunks.zipIdx s.currentChunkNumber) encodings) :
    chunks.foldlM (fun s data => s.process pk env key data) s = .ok
      { dir := storeShards pk s.dir (encodings.flatMap (·.shards))
        fragments := s.fragments ++ (encodings.zipIdx s.currentChunkNumber).flatMap fun chunk =>
          chunk.1.fragments pk chunk.2
        currentChunkNumber := s.currentChunkNumber + chunks.length
        lastChunkPadding := lastPadding s.lastChunkPadding chunks } := by
  induction chunks generalizing s encodings with
  | nil =>
    rw [zipIdx_nil, forall₂_nil_left_iff] at he
    subst he
    simp [storeShards, lastPadding, pure, Except.pure]
  | cons data rest ih =>
    rw [zipIdx_cons, forall₂_cons_left_iff] at he
    obtain ⟨chunk, others, hf, hl, rfl⟩ := he
    rw [foldlM_cons, PutState.process_eq ho hf]
    show foldlM _ _ rest = _
    rw [ih hl]
    simp [flatMap_cons, storeShards_append, lastPadding, Nat.add_assoc, Nat.add_comm 1]

lemma chunkSize_pos : 0 < chunkSize := by decide

lemma drainFull_eq (buffer : Bytes) (s : PutState) : drainFull pk env key buffer s = do
    let s ← (full chunkSize buffer).foldlM (fun s data => s.process pk env key data) s
    return (rest chunkSize buffer, s) := by
  induction buffer using full.induct chunkSize generalizing s with
  | case1 buffer he ih =>
    rw [drainFull, if_pos he, full_of_le he.1 he.2, rest_of_le he.1 he.2, foldlM_cons, bind_assoc]
    congr 1
    funext s'
    exact ih s'
  | case2 buffer he =>
    have hs : buffer.length < chunkSize := Nat.lt_of_not_le fun hl => he ⟨chunkSize_pos, hl⟩
    rw [drainFull, if_neg he, full_of_lt hs, rest_of_lt hs]
    rfl

/-- However the bytes are split into reads, all their blocks are processed. -/
lemma readLoop_eq (hm : ∀ read ∈ reads, read ≠ []) {buffer}
    (hs : buffer.length < chunkSize) (hashed : Bytes) (s : PutState) :
    readLoop pk env key reads buffer hashed s = do
      let s ← (full chunkSize (buffer ++ reads.flatten)).foldlM (fun s data =>
        s.process pk env key data) s
      return (rest chunkSize (buffer ++ reads.flatten), hashed ++ reads.flatten, s) := by
  induction reads generalizing buffer hashed s with
  | nil =>
    rw [flatten_nil, append_nil, append_nil, full_of_lt hs, rest_of_lt hs]
    rfl
  | cons read reads ih =>
    rw [readLoop, if_neg (hm read mem_cons_self), drainFull_eq, bind_assoc,
      flatten_cons, ← append_assoc, ← append_assoc,
      full_append chunkSize_pos (buffer ++ read) reads.flatten,
      rest_append chunkSize_pos (buffer ++ read) reads.flatten, foldlM_append,
      bind_assoc]
    congr 1
    funext s'
    exact ih (fun read hr => hm read (mem_cons_of_mem _ hr))
      (length_rest_lt chunkSize_pos _) (hashed ++ read) s'

/-- A put whose chunks encode: the input's keyed hash, the fragments of every chunk, and their
files. -/
lemma put_eq {input : Bytes} (hm : ∀ read ∈ reads, read ≠ [])
    (hw : reads.flatten = input) (hso : input ≠ [])
    (ha : env.reserveIngest input.length = .ok ()) {encodings}
    (he : Forall₂ (fun numbered chunk => encodeChunk pk env key numbered = .ok chunk)
      (cut chunkSize input).zipIdx encodings) (dir : Fragstore) :
    Blob.put pk env key reads input.length dir = .ok
      (⟨integrityHash pk key input,
        encodings.zipIdx.flatMap fun chunk => chunk.1.fragments pk chunk.2,
        lastPadding 0 (cut chunkSize input) % 256⟩,
        storeShards pk dir (encodings.flatMap (·.shards))) := by
  let open_ : PutEnv := { env with beforeStore := fun _ => .ok () }
  let start : PutState := ⟨dir, [], 0, 0⟩
  have loop := @readLoop_eq pk open_ key reads hm [] chunkSize_pos [] start
  rw [nil_append, hw] at loop
  have hs : input.length ≠ 0 := fun hn => hso (eq_nil_of_length_eq_zero hn)
  obtain ⟨final, hf, ran⟩ : ∃ final, final = _ ∧ (cut chunkSize input).foldlM
      (fun s data => s.process pk open_ key data) start = .ok final :=
    ⟨_, rfl, @process_chunks pk open_ key (fun _ => rfl) (cut chunkSize input) encodings start he⟩
  -- The blocks are the ones the loop drained and the rest, which is processed at the end.
  rw [cut_eq chunkSize_pos, foldlM_append, bind_eq_ok] at ran
  obtain ⟨s, hd, hl⟩ := ran
  have hen : finishPartial pk open_ key (rest chunkSize input) s = .ok final := by
    unfold finishPartial
    split_ifs at hl ⊢
    · exact hl
    · rw [foldlM_cons, bind_eq_ok] at hl
      obtain ⟨_, hp, done⟩ := hl
      rw [hp]
      exact done
  simp only [Blob.put, putWith, bind_eq_ok, require_eq_ok, pure_eq_ok]
  refine ⟨(), hs, (), ha, (rest chunkSize input, input, s), ?_, final, hen, ?_⟩
  · rw [loop, hd]
    rfl
  · rw [hf]
    rfl

end HopNet
