import Mathlib.Data.List.Dedup
import Mathlib.Data.List.Perm.Lattice
import HopNet.Reconstruct

namespace HopNet

open List

variable {pk : BlobPackages} {first : Nat} {recovery : Bool}

def entryOf (isLocal : PutFragment → Bool) (fragment : PutFragment) : Nat × FragmentEntry :=
  (fragment.localIndex, ⟨fragment.fragmentHash, fragment.fragmentId, isLocal fragment⟩)

/-- A manifest of the blob: chunks and fragments in any order, with these flags. -/
structure Describes (outcome : PutOutcome) (isLocal : PutFragment → Bool)
    (manifest : BlobManifest) : Prop where
  integrity : manifest.integrityHash = outcome.integrityHash
  added : manifest.addedBytes = outcome.addedBytes
  chunks : (manifest.chunks.map (·.1)).Perm (outcome.fragments.map (·.chunkNumber)).dedup
  maps : ∀ c maps, (c, maps) ∈ manifest.chunks → ∀ recovery : Bool,
    (if recovery then maps.recovery else maps.originals).Perm
      ((outcome.fragments.filter fun fragment =>
        fragment.chunkNumber = c ∧ fragment.recovery = recovery).map (entryOf isLocal))

/-- What is flagged is there, and that is ten fragments of every chunk. -/
structure HoldsEnough (outcome : PutOutcome) (isLocal : PutFragment → Bool)
    (stored dir : Fragstore) : Prop where
  part : ∀ hash data, dir.readFragment hash = some data → stored.readFragment hash = some data
  flagged : ∀ fragment ∈ outcome.fragments, isLocal fragment = true →
    dir.Holds fragment.fragmentHash
  enough : ∀ fragment ∈ outcome.fragments, originalFragmentsPerChunk ≤
    outcome.fragments.countP fun other =>
      other.chunkNumber = fragment.chunkNumber ∧ isLocal other = true

section

variable {shards : List Shard} {encodings : List EncodedChunk}

lemma of_mem_putFragments {chunkNumber fragment}
    (hf : fragment ∈ putFragments pk chunkNumber first recovery shards) :
    ∃ i shard, shards[i]? = some shard ∧
      fragment = ⟨chunkNumber, first + i, shard.fragmentId, pk.blake3 shard.data, recovery⟩ := by
  obtain ⟨indexed, hs, rfl⟩ := mem_map.1 hf
  exact ⟨indexed.2, indexed.1, mem_zipIdx_iff_getElem?.1 hs, rfl⟩

lemma putFragments_localIndex (chunkNumber first : Nat) (recovery : Bool) :
    (putFragments pk chunkNumber first recovery shards).map (·.localIndex) =
      range' first shards.length := by
  have hs : (putFragments pk chunkNumber first recovery shards).map (·.localIndex) =
      ((shards.zipIdx).map (·.2)).map (first + ·) := by
    rw [putFragments, map_map, map_map]
    rfl
  rw [hs, zipIdx_map_snd, map_add_range', Nat.add_zero]

lemma filter_fragments (encodings : List EncodedChunk) (k c : Nat) :
    ((encodings.zipIdx k).flatMap fun chunk => chunk.1.fragments pk chunk.2).filter
        (·.chunkNumber = c) =
      if k ≤ c then ((encodings[c - k]?).map fun chunk => chunk.fragments pk c).getD []
        else [] := by
  have hn : ∀ (chunk : EncodedChunk) n, ∀ fragment ∈ chunk.fragments pk n,
      fragment.chunkNumber = n := by
    intro chunk n fragment hc
    rcases mem_append.1 hc with ho | hr
    · obtain ⟨_, _, _, rfl⟩ := of_mem_putFragments ho
      rfl
    · obtain ⟨_, _, _, rfl⟩ := of_mem_putFragments hr
      rfl
  induction encodings generalizing k with
  | nil => simp
  | cons chunk rest ih =>
    rw [zipIdx_cons, flatMap_cons, filter_append, ih (k + 1)]
    by_cases hh : c = k
    · subst hh
      have all : (chunk.fragments pk c).filter (·.chunkNumber = c) =
          chunk.fragments pk c := by
        rw [filter_eq_self]
        intro fragment hc
        simpa using hn chunk c fragment hc
      rw [all, if_neg (by omega), if_pos (le_refl c)]
      simp
    · have hno : (chunk.fragments pk k).filter (·.chunkNumber = c) = [] := by
        rw [filter_eq_nil_iff]
        intro fragment hc
        have isK := hn chunk k fragment hc
        simp only [decide_eq_true_eq]
        omega
      rw [hno, nil_append]
      by_cases hl : k ≤ c
      · rw [if_pos (by omega), if_pos hl]
        have hs : c - k = (c - (k + 1)) + 1 := by omega
        rw [hs, getElem?_cons_succ]
      · rw [if_neg (by omega), if_neg hl]

lemma filter_fragments_kind {c : Nat} {chunk} (hc : encodings[c]? = some chunk) (recovery : Bool) :
    ((encodings.zipIdx).flatMap fun chunk => chunk.1.fragments pk chunk.2).filter
        (fun fragment => fragment.chunkNumber = c ∧ fragment.recovery = recovery) =
      if recovery then putFragments pk c originalFragmentsPerChunk true chunk.recovery
      else putFragments pk c 0 false chunk.originals := by
  have hs : ∀ fragments : List PutFragment,
      fragments.filter (fun fragment => fragment.chunkNumber = c ∧ fragment.recovery = recovery) =
        (fragments.filter (·.chunkNumber = c)).filter
          fun fragment => fragment.recovery = recovery := by
    simp [Bool.and_comm]
  have hk : ∀ first flag (shards : List Shard),
      (putFragments pk c first flag shards).filter (·.recovery = recovery) =
        if flag = recovery then putFragments pk c first flag shards else [] := by
    intro first flag shards
    split_ifs with same
    · rw [filter_eq_self]
      intro fragment hf
      obtain ⟨_, _, _, rfl⟩ := of_mem_putFragments hf
      simpa using same
    · rw [filter_eq_nil_iff]
      intro fragment hf
      obtain ⟨_, _, _, rfl⟩ := of_mem_putFragments hf
      simpa using same
  rw [hs, filter_fragments, if_pos (Nat.zero_le c), Nat.sub_zero, hc, Option.map_some,
    Option.getD_some, EncodedChunk.fragments, filter_append, hk, hk]
  cases recovery <;> simp

end

variable {encodings : List EncodedChunk} {outcome : PutOutcome} {isLocal : PutFragment → Bool}
  {manifest : BlobManifest} {c : Nat} {chunk : EncodedChunk}

/-- The outcome lists the fragments of these chunks, none empty. -/
structure Produced (pk : BlobPackages) (encodings : List EncodedChunk) (outcome : PutOutcome) :
    Prop where
  fragments : outcome.fragments = encodings.zipIdx.flatMap fun chunk => chunk.1.fragments pk chunk.2
  nonempty : ∀ chunk ∈ encodings, chunk.originals ≠ []

lemma Produced.mem_chunkNumbers (hp : Produced pk encodings outcome) :
    c ∈ outcome.fragments.map (·.chunkNumber) ↔ c < encodings.length := by
  have hf : c ∈ outcome.fragments.map (·.chunkNumber) ↔
      outcome.fragments.filter (·.chunkNumber = c) ≠ [] := by
    simp
  rw [hf, hp.fragments, filter_fragments, if_pos (Nat.zero_le c), Nat.sub_zero]
  by_cases hi : c < encodings.length
  · rw [getElem?_eq_getElem hi, Option.map_some, Option.getD_some]
    refine iff_of_true ?_ hi
    have hs := hp.nonempty _ (getElem_mem hi)
    intro hn
    have hb := append_eq_nil_iff.1 hn
    have length := congrArg length hb.1
    rw [putFragments, length_map, length_zipIdx] at length
    exact hs (eq_nil_of_length_eq_zero length)
  · simp [hi]

lemma Describes.keys (hd : Describes outcome isLocal manifest)
    (hp : Produced pk encodings outcome) :
    (manifest.chunks.map (·.1)).Perm (range encodings.length) := by
  refine hd.chunks.trans ?_
  rw [perm_ext_iff_of_nodup (nodup_dedup _) nodup_range]
  intro c
  rw [mem_dedup, hp.mem_chunkNumbers, mem_range]

lemma Describes.lookup (hd : Describes outcome isLocal manifest)
    (hp : Produced pk encodings outcome) (hc : encodings[c]? = some chunk) :
    ∃ maps, manifest.chunks.lookup c = some maps ∧
      maps.originals.Perm ((putFragments pk c 0 false chunk.originals).map (entryOf isLocal)) ∧
      maps.recovery.Perm ((putFragments pk c originalFragmentsPerChunk true chunk.recovery).map
        (entryOf isLocal)) := by
  have hi := (List.getElem?_eq_some_iff.1 hc).1
  obtain ⟨maps, hf⟩ := Assoc.lookup_of_mem_keys ((hd.keys hp).mem_iff.2 (mem_range.2 hi))
  have hpe := hd.maps c maps (Assoc.mem_of_lookup hf)
  rw [hp.fragments] at hpe
  have ho := hpe false
  have hr := hpe true
  rw [filter_fragments_kind hc] at ho hr
  exact ⟨maps, hf, ho, hr⟩

lemma listed_of_perm {dir shards entries}
    (hp : entries.Perm ((putFragments pk c first recovery shards).map (entryOf isLocal)))
    (hr : ∀ fragment ∈ putFragments pk c first recovery shards, isLocal fragment = true →
      ∀ shard ∈ shards, fragment.fragmentHash = pk.blake3 shard.data →
        dir.readFragment fragment.fragmentHash = some shard.data) :
    Listed pk dir first shards entries := by
  have hk : ((putFragments pk c first recovery shards).map (entryOf isLocal)).map (·.1) =
      range' first shards.length := by
    rw [map_map]
    exact putFragments_localIndex c first recovery
  refine ⟨?_, ?_, ?_⟩
  · rw [(hp.map _).nodup_iff, hk]
    exact nodup_range'
  · intro entry he
    obtain ⟨fragment, hf, rfl⟩ := mem_map.1 (hp.mem_iff.1 he)
    obtain ⟨i, shard, hi, rfl⟩ := of_mem_putFragments hf
    exact ⟨i, shard, hi, rfl, rfl, rfl, fun hfl =>
      hr _ hf hfl shard (mem_of_getElem? hi) rfl⟩
  · intro i shard hi
    have hin := (List.getElem?_eq_some_iff.1 hi).1
    rw [(hp.map _).mem_iff, hk, mem_range'_1]
    omega

end HopNet
