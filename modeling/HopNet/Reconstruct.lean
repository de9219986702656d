import HopNet.BlobGet

/-!
A chunk is reconstructed from any ten of its thirty fragments, whatever the order in which the
manifest lists them. -/

namespace HopNet

open Fallible List Assoc

variable {pk : BlobPackages} {dir : Fragstore} {key : FixedBytes 32} {first : Nat}
  {shards : List Shard} {entries : List (Nat × FragmentEntry)} {shard : Shard} {i : Nat}

/-- The entries name the shards from index `first` on, each once; what is flagged is here. -/
structure Listed (pk : BlobPackages) (dir : Fragstore) (first : Nat) (shards : List Shard)
    (entries : List (Nat × FragmentEntry)) : Prop where
  keys : (entries.map (·.1)).Nodup
  sound : ∀ entry ∈ entries, ∃ i shard, shards[i]? = some shard ∧ entry.1 = first + i ∧
    entry.2.fragmentHash = pk.blake3 shard.data ∧ entry.2.fragmentId = shard.fragmentId ∧
    (entry.2.isLocal = true → dir.readFragment entry.2.fragmentHash = some shard.data)
  complete : ∀ i shard, shards[i]? = some shard → first + i ∈ entries.map (·.1)

lemma Listed.lookup (hl : Listed pk dir first shards entries) (hi : shards[i]? = some shard) :
    ∃ entry, entries.lookup (first + i) = some entry ∧ (first + i, entry) ∈ entries ∧
      entry.fragmentHash = pk.blake3 shard.data ∧ entry.fragmentId = shard.fragmentId ∧
      (entry.isLocal = true → dir.readFragment entry.fragmentHash = some shard.data) := by
  obtain ⟨entry, hf⟩ := lookup_of_mem_keys (hl.complete i shard hi)
  have he := mem_of_lookup hf
  obtain ⟨j, other, ho, hin, hr⟩ := hl.sound _ he
  have hs : j = i := by
    omega
  rw [hs, hi] at ho
  rw [← Option.some.inj ho] at hr
  exact ⟨entry, hf, he, hr⟩

lemma fetch_of_read {hash} (hn : hash = pk.blake3 shard.data)
    (hh : dir.readFragment hash = some shard.data) :
    fetchAndVerifyFragment pk dir hash = .ok shard.data := by
  rw [fetchAndVerifyFragment, hh]
  exact if_pos hn.symm

/-- The flagged files are read, each with the content of its shard. -/
lemma Listed.available (hl : Listed pk dir first shards entries) :
    ∃ got, availableShards pk dir entries = .ok got ∧ (got.map (·.1)).Nodup ∧
      got.length = entries.countP (·.2.isLocal) ∧
      ∀ shard ∈ got, ∃ i original, shards[i]? = some original ∧
        shard = (first + i, original.data) := by
  have each : ∀ entry ∈ entries.filter (·.2.isLocal), ∃ shard : Nat × Bytes,
      (do
        let data ← fetchAndVerifyFragment pk dir entry.2.fragmentHash
        return (entry.1, data)) = Except.ok shard ∧
      (shard.1 = entry.1 ∧
        ∃ i original, shards[i]? = some original ∧ shard = (first + i, original.data)) := by
    intro entry hlo
    obtain ⟨he, hf⟩ := mem_filter.1 hlo
    obtain ⟨i, shard, hi, hin, hn, _, hh⟩ := hl.sound entry he
    refine ⟨(entry.1, shard.data), ?_, rfl, i, shard, hi, by rw [hin]⟩
    rw [fetch_of_read hn (hh hf)]
    rfl
  obtain ⟨got, ran, hr⟩ := mapM_forall₂ each
  have hk : got.map (·.1) = (entries.filter (·.2.isLocal)).map (·.1) := by
    have hp : List.Forall₂ Eq ((entries.filter (·.2.isLocal)).map (·.1)) (got.map (·.1)) := by
      rw [forall₂_map_left_iff, forall₂_map_right_iff]
      exact hr.imp fun _ _ hb => hb.1.symm
    rw [forall₂_eq_eq_eq] at hp
    exact hp.symm
  refine ⟨got, ran, ?_, ?_, ?_⟩
  · rw [hk]
    exact hl.keys.sublist (filter_sublist.map _)
  · rw [← hr.length_eq, countP_eq_length_filter]
  · intro shard hg
    obtain ⟨_, _, hb⟩ := forall₂_of_mem hr hg
    exact hb.2

lemma getElem?_data (hi : shards[i]? = some shard) :
    (shards.map (·.data))[i]? = some shard.data := by
  rw [getElem?_map, hi]
  rfl

lemma indexed_of_available {got : List (Nat × Bytes)} (hk : (got.map (·.1)).Nodup)
    (hv : ∀ shard ∈ got, ∃ i original, shards[i]? = some original ∧
      shard = (first + i, original.data)) :
    Indexed (shards.map (·.data)) (got.map fun shard => (shard.1 - first, shard.2)) := by
  constructor
  · rw [map_map]
    refine List.Nodup.map_on ?_ (List.Nodup.of_map _ hk)
    intro a inA b inB hs
    obtain ⟨i, original, hi, rfl⟩ := hv a inA
    obtain ⟨j, other, ho, rfl⟩ := hv b inB
    have hin : i = j := by simpa using hs
    subst hin
    rw [hi] at ho
    rw [Option.some.inj ho]
  · intro entry hm
    obtain ⟨shard, hg, rfl⟩ := mem_map.1 hm
    obtain ⟨i, original, hi, rfl⟩ := hv shard hg
    simp only [Nat.add_sub_cancel_left]
    exact getElem?_data hi

variable {originals recovery : List Shard} {padded : Bytes} {maps : ChunkFragmentMaps}

/-- The fast path gives the plaintext of the originals. -/
lemma concatOriginals_ok (hen : Encodes pk key padded originals recovery)
    (hl : Listed pk dir 0 originals maps.originals)
    (here : ∀ entry ∈ maps.originals, entry.2.isLocal = true) :
    concatOriginals pk dir (some key) maps.originals = .ok padded := by
  obtain ⟨pieces, flat, hd⟩ := hen.plain
  have hc : pieces.length = originalFragmentsPerChunk := by
    rw [hd.length_eq, ← hen.shape.count, length_map]
  rw [concatOriginals, mapM_range_eq hc]
  · exact congrArg Except.ok flat
  · intro i piece hp
    obtain ⟨shard, hs, hde⟩ := forall₂_getElem? hd.flip hp
    obtain ⟨entry, hf, he, hn, id, hh⟩ := hl.lookup hs
    rw [Nat.zero_add] at hf he
    rw [hf]
    show (do
      let data ← fetchAndVerifyFragment pk dir entry.fragmentHash
      decryptWith pk (some key) data entry.fragmentId) = _
    rw [fetch_of_read hn (hh (here _ he))]
    show decryptChunk pk shard.data key entry.fragmentId = _
    rw [id, hde]

lemma restoredFragment_ok (hl : Listed pk dir 0 originals maps.originals) {available restored}
    (read : ∀ entry ∈ available, (originals.map (·.data))[entry.1]? = some entry.2)
    (hre : ∀ entry ∈ restored, (originals.map (·.data))[entry.1]? = some entry.2)
    (hc : i ∉ available.map (·.1) → i ∈ restored.map (·.1))
    (hs : originals[i]? = some shard) {piece}
    (hd : decryptChunk pk shard.data key shard.fragmentId = .ok piece) :
    restoredFragment pk (some key) maps.originals available restored i = .ok piece := by
  have ho : ((available.lookup i).or (restored.reverse.lookup i)) = some shard.data := by
    cases hfo : available.lookup i with
    | some data =>
      have same := read _ (mem_of_lookup hfo)
      rw [getElem?_data hs] at same
      rw [Option.some_or, same]
    | none =>
      have ha : i ∉ available.map (·.1) := by
        intro hk
        obtain ⟨data, hf⟩ := lookup_of_mem_keys hk
        rw [hf] at hfo
        cases hfo
      have hr : i ∈ restored.reverse.map (·.1) := by
        rw [map_reverse, mem_reverse]
        exact hc ha
      obtain ⟨data, hf⟩ := lookup_of_mem_keys hr
      have same := hre _ (mem_reverse.1 (mem_of_lookup hf))
      rw [getElem?_data hs] at same
      rw [hf, Option.none_or, same]
  obtain ⟨entry, hfo, _, _, id, _⟩ := hl.lookup hs
  rw [Nat.zero_add] at hfo
  simp only [restoredFragment, ho, hfo, Option.elim, bind_eq_ok]
  exact ⟨shard.data, rfl, entry, rfl, by rw [id, hd]⟩

variable (rs : RsLaws pk) (he : Encodes pk key padded originals recovery)
  (hl : Listed pk dir 0 originals maps.originals)
  (hlr : Listed pk dir originalFragmentsPerChunk recovery maps.recovery)
  (hen : originalFragmentsPerChunk ≤ maps.localCount)
include rs he hl hlr hen

lemma reconstructFromShards_ok : reconstructFromShards pk dir (some key) maps = .ok padded := by
  obtain ⟨pieces, flat, hd⟩ := he.plain
  have hct : pieces.length = originalFragmentsPerChunk := by
    rw [hd.length_eq, ← he.shape.count, length_map]
  obtain ⟨fromOriginals, hr, hk, hcO, hvo⟩ := hl.available
  obtain ⟨fromRecovery, hrr, hkr, hcr, hv⟩ := hlr.available
  have ht : originalFragmentsPerChunk ≤ fromOriginals.length + fromRecovery.length := by
    rw [hcO, hcr]
    exact hen
  have hi : Indexed (originals.map (·.data)) fromOriginals := by
    have hsh := indexed_of_available hk hvo
    simpa using hsh
  have hir := indexed_of_available hkr hv
  obtain ⟨restored, hdd, hco, hc⟩ :=
    rs.restores _ _ _ he.shape he.coded fromOriginals _ hi hir (by
      rw [length_map]
      exact ht)
  -- Whichever shard comes first, its size is the code's.
  obtain ⟨shard, hf, hsi⟩ : ∃ shard : Nat × Bytes,
      fromOriginals.head?.or fromRecovery.head? = some shard ∧
      shard.2.length = shardSize padded := by
    cases fromOriginals with
    | cons shard others =>
      refine ⟨shard, rfl, he.shape.sizes _ (mem_of_getElem? (hi.values shard ?_))⟩
      exact mem_cons_self
    | nil =>
      cases fromRecovery with
      | cons shard others =>
        obtain ⟨i, original, hin, rfl⟩ := hv shard mem_cons_self
        exact ⟨_, rfl, he.recoverySizes _ (mem_of_getElem? hin)⟩
      | nil => cases ht
  have hra : (range originalFragmentsPerChunk).mapM
      (restoredFragment pk (some key) maps.originals fromOriginals restored) = .ok pieces := by
    refine mapM_range_eq hct fun i piece hp => ?_
    obtain ⟨shard, hs, hde⟩ := forall₂_getElem? hd.flip hp
    have hre : i < originalFragmentsPerChunk := by
      rw [← hct]
      exact (List.getElem?_eq_some_iff.1 hp).1
    exact restoredFragment_ok hl hi.values hco (hc i hre) hs hde
  simp only [reconstructFromShards, bind_eq_ok, require_eq_ok, pure_eq_ok]
  refine ⟨fromOriginals, hr, fromRecovery, hrr, (), ht, shard, ?_, restored, ?_, pieces, hra, flat⟩
  · rw [hf]
    rfl
  · rw [hsi, hdd]
    rfl

/-- Any ten fragments of a chunk give its padded plaintext. -/
lemma reconstructSingleChunk_ok : reconstructSingleChunk pk dir (some key) maps = .ok padded := by
  unfold reconstructSingleChunk
  split_ifs with hf
  · exact concatOriginals_ok he hl hf.1
  · exact reconstructFromShards_ok rs he hl hlr hen

end HopNet
