import HopNet.PutListing

namespace HopNet

open List Assoc

def FragmentRow.entry (row : FragmentRow) : Nat × FragmentEntry :=
  (row.fragment.localIndex, ⟨row.fragment.fragmentHash, row.fragment.fragmentId, row.storedLocally⟩)

/-- The row goes into the map of its kind. -/
def ChunkFragmentMaps.insert (maps : ChunkFragmentMaps) (row : FragmentRow) : ChunkFragmentMaps :=
  if row.fragment.recovery then
    { maps with
      recovery := upsert row.entry.1 (fun _ => row.entry.2) maps.recovery }
  else
    { maps with
      originals := upsert row.entry.1 (fun _ => row.entry.2) maps.originals }

def insertManifestRow (chunks : List (Nat × ChunkFragmentMaps)) (row : FragmentRow) :
    List (Nat × ChunkFragmentMaps) :=
  upsert row.fragment.chunkNumber (fun maps => (maps.getD ⟨[], []⟩).insert row) chunks

variable (rows : List FragmentRow)

def manifestChunks : List (Nat × ChunkFragmentMaps) :=
  rows.foldl insertManifestRow []

/-- The blob's row with its fragments' rows; no fragment, no manifest. -/
def blobManifest (t : StorageTables) (blobId : BlobId) : Option BlobManifest :=
  (t.block blobId).bind fun block =>
    let rows := t.fragmentHashes.filter (·.fragment.blobId = blobId)
    if rows = [] then none else some ⟨block.fileHash, block.addedBytes, manifestChunks rows⟩

section

/-- The rows of one kind of one chunk. -/
def rowsOf (c : Nat) (recovery : Bool) : List FragmentRow :=
  rows.filter fun row => row.fragment.chunkNumber = c ∧ row.fragment.recovery = recovery

/-- No local index twice in a kind of a chunk. -/
def DistinctIndices : Prop :=
  ∀ c recovery, ((rowsOf rows c recovery).map (·.entry.1)).Nodup

variable {rows : List FragmentRow} {row : FragmentRow}

lemma rowsOf_append (c : Nat) (recovery : Bool) :
    rowsOf (rows ++ [row]) c recovery = rowsOf rows c recovery ++
    if row.fragment.chunkNumber = c ∧ row.fragment.recovery = recovery then [row] else [] := by
  by_cases hk : row.fragment.chunkNumber = c ∧
    row.fragment.recovery = recovery <;> simp [rowsOf, hk]

lemma DistinctIndices.of_append (hd : DistinctIndices (rows ++ [row])) : DistinctIndices rows ∧
    row.entry.1 ∉ (rowsOf rows row.fragment.chunkNumber row.fragment.recovery).map (·.entry.1) := by
  constructor
  · intro c recovery
    have both := hd c recovery
    rw [rowsOf_append, map_append] at both
    exact both.of_append_left
  · have both := hd row.fragment.chunkNumber row.fragment.recovery
    rw [rowsOf_append, if_pos ⟨rfl, rfl⟩, map_append] at both
    intro hb
    exact (nodup_append'.1 both).2.2 hb (by simp)

def mapsOf (rows : List FragmentRow) (c : Nat) : ChunkFragmentMaps :=
  ⟨(rowsOf rows c false).map (·.entry), (rowsOf rows c true).map (·.entry)⟩

/-- A row with a new index adds its entry to the map of its kind. -/
lemma mapsOf_append (hd : DistinctIndices (rows ++ [row])) :
    mapsOf (rows ++ [row]) row.fragment.chunkNumber =
      (mapsOf rows row.fragment.chunkNumber).insert row := by
  have hn : row.entry.1 ∉
      ((rowsOf rows row.fragment.chunkNumber row.fragment.recovery).map (·.entry)).map (·.1) := by
    rw [map_map]
    exact hd.of_append.2
  rw [mapsOf, rowsOf_append, rowsOf_append, ChunkFragmentMaps.insert]
  cases hk : row.fragment.recovery <;> simp [mapsOf, upsert_of_new (hk ▸ hn)]

lemma mapsOf_append_of_ne {c : Nat} (ha : row.fragment.chunkNumber ≠ c) :
    mapsOf (rows ++ [row]) c = mapsOf rows c := by
  simp [mapsOf, rowsOf_append, ha]

lemma mapsOf_of_notMem {c : Nat} (hn : c ∉ rows.map (·.fragment.chunkNumber)) :
    mapsOf rows c = ⟨[], []⟩ := by
  have he : ∀ recovery, rowsOf rows c recovery = [] := by
    intro recovery
    rw [rowsOf, filter_eq_nil_iff]
    intro row hr hk
    exact hn (mem_map.2 ⟨row, hr, (of_decide_eq_true hk).1⟩)
  simp [mapsOf, he]

lemma manifestChunks_spec (hd : DistinctIndices rows) : ((manifestChunks rows).map (·.1)).Nodup ∧
    (∀ c, c ∈ (manifestChunks rows).map (·.1) ↔ c ∈ rows.map (·.fragment.chunkNumber)) ∧
    ∀ c, (manifestChunks rows).lookup c =
      if c ∈ rows.map (·.fragment.chunkNumber) then some (mapsOf rows c) else none := by
  induction rows using List.reverseRecOn with
  | nil => simp [manifestChunks]
  | append_singleton before row ih =>
    obtain ⟨hn, hk, hf⟩ := ih hd.of_append.1
    have step : manifestChunks (before ++ [row]) =
        insertManifestRow (manifestChunks before) row := by
      rw [manifestChunks, foldl_append]
      rfl
    rw [step, insertManifestRow, keys_upsert]
    refine ⟨?_, ?_, ?_⟩
    · split_ifs with old
      · exact hn
      · exact nodup_append'.2 ⟨hn, nodup_singleton _, by simpa using old⟩
    · intro c
      split_ifs with old
      · rw [hk, map_append, mem_append]
        refine ⟨Or.inl, fun he => he.elim id fun hl => ?_⟩
        rw [mem_singleton.1 hl]
        exact (hk _).1 old
      · rw [mem_append, hk, map_append, mem_append]
        rfl
    · intro c
      rw [lookup_upsert, hf, hf]
      by_cases hs : c = row.fragment.chunkNumber
      · have hl : row.fragment.chunkNumber ∈ (before ++ [row]).map (·.fragment.chunkNumber) := by
          simp
        rw [if_pos hs, hs, if_pos hl, mapsOf_append hd]
        split_ifs with old
        · rfl
        · rw [mapsOf_of_notMem old]
          rfl
      · have ha : row.fragment.chunkNumber ≠ c := fun isC => hs isC.symm
        rw [if_neg hs, mapsOf_append_of_ne ha]
        simp [hs]

end

variable {outcome : PutOutcome} {isLocal : PutFragment → Bool} {blobId : BlobId}

def rowOf (blobId : BlobId) (isLocal : PutFragment → Bool) (fragment : PutFragment) : FragmentRow :=
  ⟨⟨blobId, fragment.chunkNumber, fragment.localIndex, fragment.fragmentId, fragment.fragmentHash,
    fragment.recovery⟩, isLocal fragment⟩

lemma rowsOf_map_rowOf (fragments : List PutFragment) (c : Nat) (recovery : Bool) :
    (rowsOf (fragments.map (rowOf blobId isLocal)) c recovery).map (·.entry) =
      (fragments.filter fun fragment =>
        fragment.chunkNumber = c ∧ fragment.recovery = recovery).map (entryOf isLocal) := by
  rw [rowsOf, filter_map, map_map]
  rfl

/-- A put never gives two fragments of a kind the same index in a chunk. -/
lemma Produced.localIndex_nodup {pk encodings} (hp : Produced pk encodings outcome) (c : Nat)
    (recovery : Bool) :
    ((outcome.fragments.filter fun fragment =>
      fragment.chunkNumber = c ∧ fragment.recovery = recovery).map (·.localIndex)).Nodup := by
  by_cases hi : c < encodings.length
  · rw [hp.fragments, filter_fragments_kind (getElem?_eq_getElem hi)]
    cases recovery
    · exact putFragments_localIndex c 0 false ▸ nodup_range'
    · exact putFragments_localIndex c originalFragmentsPerChunk true ▸ nodup_range'
  · have hn : (outcome.fragments.filter fun fragment =>
        fragment.chunkNumber = c ∧ fragment.recovery = recovery) = [] := by
      rw [filter_eq_nil_iff]
      intro fragment ho hk
      refine hi (hp.mem_chunkNumbers.1 (mem_map.2 ⟨fragment, ho, ?_⟩))
      exact (of_decide_eq_true hk).1
    rw [hn]
    exact nodup_nil

lemma describes_of_rows {pk encodings} (hp : Produced pk encodings outcome) {rows}
    (hl : rows.Perm (outcome.fragments.map (rowOf blobId isLocal))) :
    Describes outcome isLocal ⟨outcome.integrityHash, outcome.addedBytes, manifestChunks rows⟩ := by
  have hk : ∀ c recovery, ((rowsOf rows c recovery).map (·.entry)).Perm
      ((outcome.fragments.filter fun fragment =>
        fragment.chunkNumber = c ∧ fragment.recovery = recovery).map (entryOf isLocal)) := by
    intro c recovery
    rw [← rowsOf_map_rowOf]
    exact (hl.filter _).map _
  have hch : (rows.map (·.fragment.chunkNumber)).Perm (outcome.fragments.map (·.chunkNumber)) := by
    have hma := hl.map (·.fragment.chunkNumber)
    rwa [map_map] at hma
  have hd : DistinctIndices rows := by
    intro c recovery
    have hi := (hk c recovery).map (·.1)
    rw [map_map, map_map] at hi
    exact hi.nodup_iff.2 (hp.localIndex_nodup c recovery)
  obtain ⟨hn, keys, hlo⟩ := manifestChunks_spec hd
  refine ⟨rfl, rfl, ?_, ?_⟩
  · rw [perm_ext_iff_of_nodup hn (nodup_dedup _)]
    intro c
    rw [keys, mem_dedup, hch.mem_iff]
  · intro c maps hc recovery
    have hm := lookup_of_mem hn hc
    rw [hlo] at hm
    split_ifs at hm
    rw [← Option.some.inj hm]
    cases recovery
    · exact hk c false
    · exact hk c true

end HopNet
