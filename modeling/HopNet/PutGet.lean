import HopNet.BlobStreams
import HopNet.Manifest
import HopNet.ReedSolomon

/-!
What is put can be got: the fragments that a put stores, any ten of each chunk's, give back the
bytes, whole or by range. -/

namespace HopNet

open Fallible List Option Blocks Blob Nat

variable {pk : BlobPackages} {env : PutEnv} {key : FixedBytes 32}

/-- The contents of the files that a put of `input` writes. -/
def blobContents (pk : BlobPackages) (env : PutEnv) (key : FixedBytes 32) (input : Bytes) :
    List Bytes :=
  (cut chunkSize input).zipIdx.flatMap fun numbered =>
    match encodeChunk pk env key numbered with
    | .ok chunk => chunk.shards.map (·.data)
    | .error _ => []

variable {dir : Fragstore}

def Separated (pk : BlobPackages) (contents : List Bytes) : Prop :=
  ∀ a ∈ contents, ∀ b ∈ contents, pk.blake3 a = pk.blake3 b → a = b

lemma readFragment_storeShards {shards} (hse : Separated pk (shards.map (·.data))) {shard}
    (hs : shard ∈ shards) :
    (storeShards pk dir shards).readFragment (pk.blake3 shard.data) = some shard.data := by
  induction shards using reverseRecOn with
  | nil => cases hs
  | append_singleton before last ih =>
    have hst : storeShards pk dir (before ++ [last]) =
        (storeShards pk dir before).storeFragment (pk.blake3 last.data) last.data := by
      rw [storeShards_append]
      rfl
    have hla : last.data ∈ (before ++ [last]).map (·.data) := by simp
    rw [hst]
    by_cases same : pk.blake3 shard.data = pk.blake3 last.data
    · rw [hse _ (mem_map_of_mem hs) _ hla same,
        Fragstore.readFragment_store_self]
    · rw [Fragstore.readFragment_store_of_ne same]
      refine ih (fun a inA b inB => hse a ?_ b ?_) ?_
      · rw [map_append]
        exact mem_append_left _ inA
      · rw [map_append]
        exact mem_append_left _ inB
      · rcases mem_append.1 hs with hb | hl
        · exact hb
        · rw [mem_singleton.1 hl] at same
          exact absurd rfl same

variable {manifest : BlobManifest} {c : Nat}

section

variable {numChunks : Nat}

/-- With ten fragments here the chunk is reconstructed without the network. -/
lemma chunkBytes_eq {net maps padded} (hf : manifest.chunks.lookup c = some maps)
    (he : originalFragmentsPerChunk ≤ maps.localCount)
    (hr : reconstructSingleChunk pk dir (some key) maps = .ok padded) :
    chunkBytes pk net dir (some key) numChunks manifest c =
      .ok (manifest, stripPadding numChunks manifest.addedBytes c padded) := by
  have hh : discover net manifest c = .ok manifest := by
    cases net with
    | none => rfl
    | some search =>
      rw [discover, discoverChunk, hf]
      show (if _ then _ else _) = _
      rw [if_pos (by omega)]
      rfl
  simp only [chunkBytes, bind_eq_ok, require_eq_ok, pure_eq_ok]
  exact ⟨manifest, hh, maps, by rw [hf]; rfl, (), he, padded, hr, rfl⟩

lemma lastPadding_of_last {chunks data} (before : Nat)
    (hl : chunks[c]? = some data) (last : chunks.length = c + 1) :
    lastPadding before chunks = calculateChunkPadding data.length originalFragmentsPerChunk := by
  have hs : chunks = chunks.take c ++ [data] := by
    have ht := take_append_drop c chunks
    rw [drop_eq_getElem?_toList_append, hl, drop_eq_nil_of_le (by omega)] at ht
    simpa using ht.symm
  rw [hs, lastPadding, foldl_append]
  rfl

/-- Only the last chunk has padding, and the outcome says how much. -/
lemma strip_padding {input data} (hc : (cut chunkSize input)[c]? = some data)
    (hco : numChunks = (cut chunkSize input).length) {added}
    (ha : added = lastPadding 0 (cut chunkSize input) % 256) :
    stripPadding numChunks added c (paddedChunk env c data) = data := by
  unfold stripPadding
  have hi := (List.getElem?_eq_some_iff.1 hc).1
  have hs := (length_of_mem_cut chunkSize_pos (mem_of_getElem? hc)).1
  have hby := (env.randomBytes c (calculateChunkPadding data.length 10)).size
  have hsm := (calculateChunkPadding_ten hs).2
  by_cases hl : c = numChunks - 1
  · have hp : added = calculateChunkPadding data.length 10 := by
      rw [ha, lastPadding_of_last 0 hc (by omega)]
      exact mod_eq_of_lt (by rw [originalFragmentsPerChunk]; omega)
    rw [hp]
    split_ifs with hpo
    · rw [paddedChunk, length_append, originalFragmentsPerChunk, hby, Nat.add_sub_cancel,
        take_left]
    · have he : (env.randomBytes c (calculateChunkPadding data.length 10)).bytes = [] :=
        eq_nil_of_length_eq_zero (by omega)
      rw [paddedChunk, originalFragmentsPerChunk, he, append_nil]
  · have hf : data.length = chunkSize := by
      have next : (c + 1) * chunkSize < input.length := by
        by_contra hb
        have hn : (cut chunkSize input)[c + 1]? = none := by
          rw [getElem?_cut chunkSize_pos, if_neg hb]
        rw [getElem?_eq_none_iff] at hn
        omega
      rw [succ_mul] at next
      have hh : c * chunkSize < input.length := lt_of_le_of_lt (le_add_right _ _) next
      rw [getElem?_cut chunkSize_pos, if_pos hh] at hc
      rw [← some.inj hc, length_take, length_drop]
      exact min_eq_left (Nat.le_sub_of_add_le' (le_of_lt next))
    have hn : calculateChunkPadding data.length 10 = 0 :=
      calculateChunkPadding_of_mod hs (by rw [hf]; rfl)
    have he : (env.randomBytes c (calculateChunkPadding data.length 10)).bytes = [] :=
      eq_nil_of_length_eq_zero (by omega)
    rw [if_neg (by omega), paddedChunk, originalFragmentsPerChunk, he, append_nil]

end

section

variable {encodings : List EncodedChunk} {outcome : PutOutcome} {isLocal : PutFragment → Bool}
  {stored : Fragstore} {chunk : EncodedChunk} {data : Bytes}

lemma HoldsEnough.reads (hh : HoldsEnough outcome isLocal stored dir)
    {fragment} (ho : fragment ∈ outcome.fragments)
    (hfl : isLocal fragment = true)
    (hw : stored.readFragment fragment.fragmentHash = some data) :
    dir.readFragment fragment.fragmentHash = some data := by
  obtain ⟨found, hf⟩ := isSome_iff_exists.1 (hh.flagged fragment ho hfl)
  have hs := hh.part _ _ hf
  rw [hw] at hs
  rw [hf, ← hs]

lemma localCount_eq (hp : Produced pk encodings outcome) (hc : encodings[c]? = some chunk)
    {maps : ChunkFragmentMaps}
    (ho : maps.originals.Perm ((putFragments pk c 0 false chunk.originals).map (entryOf isLocal)))
    (hr : maps.recovery.Perm
      ((putFragments pk c originalFragmentsPerChunk true chunk.recovery).map (entryOf isLocal))) :
    maps.localCount = outcome.fragments.countP fun other =>
      other.chunkNumber = c ∧ isLocal other = true := by
  have hch : (outcome.fragments.countP fun other => other.chunkNumber = c ∧ isLocal other = true) =
      (outcome.fragments.filter (·.chunkNumber = c)).countP isLocal := by
    rw [countP_filter]
    simp [and_comm]
  rw [hch, hp.fragments, filter_fragments, if_pos (zero_le c), Nat.sub_zero, hc,
    map_some, getD_some, EncodedChunk.fragments, countP_append,
    ChunkFragmentMaps.localCount, ho.countP_eq, hr.countP_eq, countP_map,
    countP_map]
  rfl

lemma chunkBytes_ok (rs : RsLaws pk) (hp : Produced pk encodings outcome)
    (hd : Describes outcome isLocal manifest) (hh : HoldsEnough outcome isLocal stored dir)
    (hst : ∀ shard ∈ encodings.flatMap (·.shards),
      stored.readFragment (pk.blake3 shard.data) = some shard.data)
    (net : Option (BlobManifest → Nat → Except StorageFailure BlobManifest))
    (hc : encodings[c]? = some chunk) {padded : Bytes}
    (hes : Encodes pk key padded chunk.originals chunk.recovery) (numChunks : Nat) :
    chunkBytes pk net dir (some key) numChunks manifest c =
      .ok (manifest, stripPadding numChunks manifest.addedBytes c padded) := by
  obtain ⟨maps, hfo, originals, recovery⟩ := hd.lookup hp hc
  have he := mem_of_getElem? hc
  have ho : ∀ fragment ∈ chunk.fragments pk c, fragment ∈ outcome.fragments := by
    intro fragment hch
    rw [hp.fragments]
    exact mem_flatMap.2 ⟨(chunk, c), mem_zipIdx_iff_getElem?.2 hc, hch⟩
  have hs : ∀ shard ∈ chunk.shards,
      stored.readFragment (pk.blake3 shard.data) = some shard.data := fun shard hch =>
    hst shard (mem_flatMap.2 ⟨chunk, he, hch⟩)
  have hl : Listed pk dir 0 chunk.originals maps.originals := by
    refine listed_of_perm originals fun fragment hf hfl shard hsh hna => ?_
    refine hh.reads (ho fragment (mem_append_left _ hf)) hfl ?_
    rw [hna]
    exact hs shard (mem_append_left _ hsh)
  have hlr : Listed pk dir originalFragmentsPerChunk chunk.recovery maps.recovery := by
    refine listed_of_perm recovery fun fragment hf hfl shard hsh hna => ?_
    refine hh.reads (ho fragment (mem_append_right _ hf)) hfl ?_
    rw [hna]
    exact hs shard (mem_append_right _ hsh)
  have hen : originalFragmentsPerChunk ≤ maps.localCount := by
    rw [localCount_eq hp hc originals recovery]
    have hn : c ∈ outcome.fragments.map (·.chunkNumber) :=
      hp.mem_chunkNumbers.2 (List.getElem?_eq_some_iff.1 hc).1
    obtain ⟨fragment, hf, rfl⟩ := mem_map.1 hn
    exact hh.enough fragment hf
  exact chunkBytes_eq hfo hen (reconstructSingleChunk_ok rs hes hl hlr hen)

lemma encodings_exist (hs : StreamLaws pk) (rs : RsLaws pk) (env : PutEnv)
    (key : FixedBytes 32) (input : Bytes) :
    ∃ encodings, List.Forall₂ (fun numbered chunk => encodeChunk pk env key numbered = .ok chunk ∧
      Encodes pk key (paddedChunk env numbered.2 numbered.1) chunk.originals chunk.recovery)
      (cut chunkSize input).zipIdx encodings := by
  have each : ∀ numbered ∈ (cut chunkSize input).zipIdx, ∃ chunk : EncodedChunk,
      encodeChunk pk env key numbered = .ok chunk ∧ (encodeChunk pk env key numbered = .ok chunk ∧
        Encodes pk key (paddedChunk env numbered.2 numbered.1) chunk.originals chunk.recovery) := by
    intro numbered hc
    have hsi := length_of_mem_cut chunkSize_pos (fst_mem_of_mem_zipIdx hc)
    obtain ⟨originals, recovery, hen, hco, hes⟩ :=
      @encodes_chunk pk env key hs rs numbered.2 numbered.1 hsi.1 hsi.2
    have he : encodeChunk pk env key numbered = .ok ⟨originals, recovery⟩ := by
      simp only [encodeChunk, bind_eq_ok, pure_eq_ok]
      exact ⟨originals, hen, recovery, hco, rfl⟩
    exact ⟨⟨originals, recovery⟩, he, he, hes⟩
  obtain ⟨encodings, _, hr⟩ := mapM_forall₂ each
  exact ⟨encodings, hr⟩

lemma flatMap_contents {numbered}
    (he : List.Forall₂ (fun numbered chunk => encodeChunk pk env key numbered = .ok chunk)
      numbered encodings) :
    (numbered.flatMap fun numbered =>
      match encodeChunk pk env key numbered with
      | .ok chunk => chunk.shards.map (·.data)
      | .error _ => []) = (encodings.flatMap (·.shards)).map (·.data) := by
  induction he with
  | nil => rfl
  | cons hf ho ih =>
    rw [flatMap_cons, flatMap_cons, map_append, ih, hf]

/-- What a put leaves: the encodings of the blocks listed, and all their shards in the directory. -/
structure PutDone (pk : BlobPackages) (env : PutEnv) (key : FixedBytes 32) (input : Bytes)
    (encodings : List EncodedChunk) (outcome : PutOutcome) (stored : Fragstore) : Prop where
  integrity : outcome.integrityHash = integrityHash pk key input
  added : outcome.addedBytes = lastPadding 0 (cut chunkSize input) % 256
  encodes : List.Forall₂ (fun numbered chunk => Encodes pk key
    (paddedChunk env numbered.2 numbered.1) chunk.originals chunk.recovery)
    (cut chunkSize input).zipIdx encodings
  produced : Produced pk encodings outcome
  shards : ∀ shard ∈ encodings.flatMap (·.shards),
    stored.readFragment (pk.blake3 shard.data) = some shard.data

lemma PutDone.count {input} (hd : PutDone pk env key input encodings outcome stored) :
    encodings.length = (cut chunkSize input).length := by
  rw [← hd.encodes.length_eq, length_zipIdx]

lemma put_done (hst : StreamLaws pk) (rs : RsLaws pk) {reads input}
    (hso : input ≠ []) (hm : ∀ read ∈ reads, read ≠ []) (hw : reads.flatten = input)
    (ha : env.reserveIngest input.length = .ok ())
    (hs : Separated pk (blobContents pk env key input)) (before : Fragstore) :
    ∃ encodings outcome stored, put pk env key reads input.length before = .ok (outcome, stored) ∧
      PutDone pk env key input encodings outcome stored := by
  obtain ⟨encodings, hr⟩ := encodings_exist hst rs env key input
  have hen := hr.imp fun _ _ hb => hb.1
  refine ⟨encodings, _, _, put_eq hm hw hso ha hen before, rfl, rfl, hr.imp fun _ _ hb => hb.2,
    ⟨rfl, ?_⟩, ?_⟩
  · intro chunk he hem
    obtain ⟨_, _, hb⟩ := forall₂_of_mem hr he
    have ten := hb.2.shape.count
    rw [hem] at ten
    cases ten
  · rw [blobContents, flatMap_contents hen] at hs
    exact fun shard hsh => readFragment_storeShards hs hsh

/-- From files with ten fragments of each chunk, each is read as the block it was. -/
lemma PutDone.chunkBytes_eq {input} (rs : RsLaws pk)
    (done : PutDone pk env key input encodings outcome stored)
    (hd : Describes outcome isLocal manifest) (hh : HoldsEnough outcome isLocal stored dir)
    (net : Option (BlobManifest → Nat → Except StorageFailure BlobManifest))
    (hnc : manifest.chunks.length = (cut chunkSize input).length)
    (hc : (cut chunkSize input)[c]? = some data) :
    chunkBytes pk net dir (some key) manifest.chunks.length manifest c = .ok (manifest, data) := by
  have hi : c < encodings.length := by
    rw [done.count]
    exact (List.getElem?_eq_some_iff.1 hc).1
  obtain ⟨numbered, hn, he⟩ :=
    forall₂_getElem? done.encodes (getElem?_eq_getElem hi)
  rw [getElem?_zipIdx, hc, map_some, zero_add] at hn
  rw [← some.inj hn] at he
  rw [chunkBytes_ok rs done.produced hd hh done.shards net
    (getElem?_eq_getElem hi) he manifest.chunks.length,
    strip_padding hc hnc (hd.added.trans done.added)]

/-- Any bytes that are put, in any reads, with any ids and padding, are stored; and from any part of
the files with ten fragments of each chunk, under any listing of the manifest, a full read gives
the bytes and passes its check, and a range read gives the range. -/
theorem put_get (pk : BlobPackages) (stream : StreamLaws pk) (rs : RsLaws pk) (env : PutEnv)
    (key : FixedBytes 32) {reads : List Bytes} {input : Bytes} (some_ : input ≠ [])
    (more : ∀ read ∈ reads, read ≠ []) (whole : reads.flatten = input)
    (admits : env.reserveIngest input.length = .ok ())
    (separated : Separated pk (blobContents pk env key input)) (before : Fragstore) :
    ∃ outcome stored, put pk env key reads input.length before = .ok (outcome, stored) ∧
      ∀ isLocal manifest dir net, Describes outcome isLocal manifest →
        HoldsEnough outcome isLocal stored dir →
        (get pk net dir (some key) manifest none).ended = .ok () ∧
        (get pk net dir (some key) manifest none).items.flatten = input ∧
        ∀ a b, a ≤ b → b < input.length →
          (get pk net dir (some key) manifest (some (a, b))).ended = .ok () ∧
          (get pk net dir (some key) manifest (some (a, b))).items.flatten =
            (input.drop a).take (b - a + 1) := by
  obtain ⟨encodings, outcome, stored, ran, done⟩ :=
    @put_done pk env key stream rs reads input some_ more whole admits separated before
  refine ⟨outcome, stored, ran, fun isLocal manifest dir net hd hh => ?_⟩
  have hn : manifest.chunks.length = (cut chunkSize input).length := by
    have length := (hd.keys done.produced).length_eq
    rwa [length_map, length_range, done.count] at length
  have he : ∀ c data, (cut chunkSize input)[c]? = some data →
      chunkBytes pk net dir (some key) manifest.chunks.length manifest c = .ok (manifest, data) :=
    fun c data hc => done.chunkBytes_eq rs hd hh net hn hc
  refine ⟨?_, ?_, fun a b ho hi => get_range_blocks hn he ho hi⟩
  · rw [get_blocks hn he some_, if_pos (hd.integrity.trans done.integrity).symm]
  · rw [get_blocks hn he some_]
    exact flatten_cut chunkSize_pos input

/-- Every file of a blob has the size of its chunk's shards. -/
lemma length_of_mem_blobContents (hst : StreamLaws pk) (rs : RsLaws pk) {input data}
    (hc : data ∈ blobContents pk env key input) :
    ∃ numbered ∈ (cut chunkSize input).zipIdx,
      data.length = shardSize (paddedChunk env numbered.2 numbered.1) := by
  obtain ⟨encodings, hr⟩ := encodings_exist hst rs env key input
  rw [blobContents, flatMap_contents (hr.imp fun _ _ both => both.1)] at hc
  obtain ⟨shard, hs, rfl⟩ := mem_map.1 hc
  obtain ⟨chunk, he, hch⟩ := mem_flatMap.1 hs
  obtain ⟨numbered, hb, _, hen⟩ := forall₂_of_mem hr he
  refine ⟨numbered, hb, ?_⟩
  rcases mem_append.1 hch with ho | hre
  · exact hen.shape.sizes _ (mem_map_of_mem ho)
  · exact hen.recoverySizes shard hre

lemma PutDone.holdsEnough_recovery {input}
    (hd : PutDone pk env key input encodings outcome stored) :
    HoldsEnough outcome (·.recovery) stored stored := by
  refine ⟨fun _ _ hf => hf, ?_, ?_⟩
  · intro fragment ho _
    rw [hd.produced.fragments] at ho
    obtain ⟨numbered, he, hc⟩ := mem_flatMap.1 ho
    have hh : ∀ shard ∈ numbered.1.shards, stored.Holds (pk.blake3 shard.data) := by
      intro shard hs
      have hf := hd.shards shard (mem_flatMap.2 ⟨numbered.1, fst_mem_of_mem_zipIdx he, hs⟩)
      exact isSome_iff_exists.2 ⟨_, hf⟩
    rcases mem_append.1 hc with hor | hr
    · obtain ⟨_, shard, hi, rfl⟩ := of_mem_putFragments hor
      exact hh shard (mem_append_left _ (mem_of_getElem? hi))
    · obtain ⟨_, shard, hi, rfl⟩ := of_mem_putFragments hr
      exact hh shard (mem_append_right _ (mem_of_getElem? hi))
  · intro fragment ho
    have hin := hd.produced.mem_chunkNumbers.1 (mem_map_of_mem ho)
    obtain ⟨_, _, hen⟩ := forall₂_getElem? hd.encodes (getElem?_eq_getElem hin)
    rw [countP_eq_length_filter, hd.produced.fragments,
      filter_fragments_kind (getElem?_eq_getElem hin) true, if_pos rfl, putFragments,
      length_map, length_zipIdx, hen.recoveryCount]
    decide

end

/-- The first bytes, filled up with zeros. -/
def firstBytes (n : Nat) (data : Bytes) : FixedBytes n :=
  ⟨(data ++ replicate n 0).take n, by simp⟩

/-- Packages that meet the laws: zero tags, the code by interpolation, and the first 32 bytes as
hash. -/
noncomputable def plainPackages : BlobPackages where
  blake3 := firstBytes 32
  blake3Keyed _ := firstBytes 32
  deriveKey _ material n := firstBytes n material
  encryptSegment _ _ _ _ segment := some (segment ++ replicate tagSize 0)
  decryptSegment _ _ _ _ sealed := some (sealed.take (sealed.length - tagSize))
  rsEncode size originals := some (interpolationEncode size originals)
  rsDecode := interpolationDecode

lemma plain_stream : StreamLaws plainPackages := by
  intro _ _ _ _ segment _ _
  exact ⟨_, rfl, by simp, by simp [plainPackages]⟩

lemma plain_rs : RsLaws plainPackages := interpolation_laws (fun _ _ => rfl) fun _ _ _ => rfl

def zeroEnv : PutEnv where
  fragmentId _ _ := ⟨0⟩
  randomBytes _ n := FixedBytes.replicate n 0
  reserveIngest _ := .ok ()
  beforeStore _ := .ok ()

/-- The shards of a three-byte chunk have 18 each, which the hash tells apart. -/
lemma plain_separated : Separated plainPackages
    (blobContents plainPackages zeroEnv (FixedBytes.replicate 32 1) [7, 8, 9]) := by
  have one : cut chunkSize ([7, 8, 9] : Bytes) = [[7, 8, 9]] := by
    rw [cut_of_pos chunkSize_pos (by decide), take_of_length_le (by decide),
      drop_of_length_le (by decide), cut_nil]
  have hs : ∀ data ∈ blobContents plainPackages zeroEnv (FixedBytes.replicate 32 1) [7, 8, 9],
      data.length = 18 := by
    intro data hc
    obtain ⟨numbered, hb, hl⟩ := length_of_mem_blobContents plain_stream plain_rs hc
    rw [one] at hb
    rw [mem_singleton.1 hb] at hl
    exact hl
  intro a inA b inB same
  have hby := congrArg FixedBytes.bytes same
  have atA : (a ++ replicate 32 0).take 32 = a ++ replicate 14 0 := by
    rw [take_append, hs a inA, take_of_length_le (by rw [hs a inA]; decide)]
    rfl
  have atB : (b ++ replicate 32 0).take 32 = b ++ replicate 14 0 := by
    rw [take_append, hs b inB, take_of_length_le (by rw [hs b inB]; decide)]
    rfl
  exact append_cancel_right (atA.symm.trans (hby.trans atB))

/-- Three bytes put in two reads come back from the recovery files alone. -/
theorem recovery_gives_back : ∃ outcome stored manifest,
    put plainPackages zeroEnv (FixedBytes.replicate 32 1) [[7], [8, 9]] 3 ⟨[]⟩ = .ok
    (outcome, stored) ∧
    Describes outcome (·.recovery) manifest ∧ HoldsEnough outcome (·.recovery) stored stored ∧
    (get plainPackages none stored (some (FixedBytes.replicate 32 1)) manifest none).ended =
      .ok () ∧
    (get plainPackages none stored (some (FixedBytes.replicate 32 1)) manifest none).items.flatten =
      [7, 8, 9] ∧
    (get plainPackages none stored (some (FixedBytes.replicate 32 1)) manifest
      (some (1, 1))).items.flatten = [8] := by
  have hre : ∀ read ∈ ([[7], [8, 9]] : List Bytes), read ≠ [] := by decide
  obtain ⟨outcome, stored, ran, hb⟩ :=
    put_get plainPackages plain_stream plain_rs zeroEnv (FixedBytes.replicate 32 1)
      (by decide) hre rfl rfl plain_separated ⟨[]⟩
  obtain ⟨encodings, outcome', stored', hr, done⟩ :=
    @put_done plainPackages zeroEnv (FixedBytes.replicate 32 1) plain_stream plain_rs
      [[7], [8, 9]] _ (by decide) hre rfl rfl plain_separated ⟨[]⟩
  have hs := Prod.mk.inj (Except.ok.inj (hr.symm.trans ran))
  rw [hs.1, hs.2] at done
  have hd := @describes_of_rows outcome (·.recovery) ⟨0⟩ _ _ done.produced _ (List.Perm.refl _)
  obtain ⟨he, all, hra⟩ := hb _ _ stored none hd done.holdsEnough_recovery
  exact ⟨outcome, stored, _, ran, hd, done.holdsEnough_recovery, he, all,
    (hra 1 1 (by decide) (by decide)).2⟩

end HopNet
