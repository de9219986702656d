import HopNet.BlobGet

namespace HopNet

open List Blocks Nat

variable {pk : BlobPackages} {key : FixedBytes 32}
  {net : Option (BlobManifest → Nat → Except StorageFailure BlobManifest)} {dir : Fragstore}
  {manifest : BlobManifest} {numChunks : Nat} {chunk : Nat → Bytes} {numbers : List Nat}

lemma getAll_eq (he : ∀ c ∈ numbers,
      chunkBytes pk net dir (some key) numChunks manifest c = .ok (manifest, chunk c))
    (hashed : Bytes) :
    getAll pk net dir (some key) numChunks numbers manifest hashed =
      ⟨numbers.map chunk,
        if integrityHash pk key (hashed ++ (numbers.map chunk).flatten) =
          manifest.integrityHash then .ok () else .error .hashMismatch⟩ := by
  induction numbers generalizing hashed with
  | nil => simp [getAll]
  | cons c rest ih =>
    have hl := ih (fun c hr => he c (mem_cons_of_mem _ hr)) (hashed ++ chunk c)
    simp only [getAll, he c mem_cons_self, hl, map_cons, flatten_cons, append_assoc]

lemma getRange_eq (startChunk endChunk a b : Nat) (he : ∀ c ∈ numbers,
      chunkBytes pk net dir (some key) numChunks manifest c = .ok (manifest, chunk c)) :
    getRange pk net dir (some key) numChunks startChunk endChunk a b numbers manifest =
      ⟨numbers.flatMap fun c => rangeSlice startChunk endChunk a b c (chunk c), .ok ()⟩ := by
  induction numbers with
  | nil => rfl
  | cons c rest ih =>
    have hl := ih fun c hr => he c (mem_cons_of_mem _ hr)
    simp only [getRange, he c mem_cons_self, hl, flatMap_cons]

variable {input : Bytes} {a b c : Nat}

lemma lt_next {n : Nat} (hn : 0 < n) : a < (a / n + 1) * n := by
  rw [succ_mul]
  exact lt_div_mul_add hn

def slicesOf (input : Bytes) (a b c : Nat) : List Bytes :=
  rangeSlice (a / chunkSize) (b / chunkSize) a b c ((input.drop (c * chunkSize)).take chunkSize)

/-- What a chunk contributes to a range: from the start of either to the end of either. -/
lemma rangeSlice_flatten (hi : b < input.length) (ho : a ≤ b)
    (ha : a / chunkSize ≤ c) (hb : c ≤ b / chunkSize) :
    (slicesOf input a b c).flatten =
      (input.take (min (b + 1) ((c + 1) * chunkSize))).drop (max a (c * chunkSize)) := by
  have hp := chunkSize_pos
  unfold slicesOf rangeSlice
  generalize chunkSize = size at *
  have hs : a < (a / size + 1) * size := lt_next hp
  have hel : b / size * size ≤ b := div_mul_le_self b size
  have hcl : c * size ≤ b := (mul_le_mul_right size hb).trans hel
  have hc : a < (c + 1) * size :=
    hs.trans_le (mul_le_mul_right size (succ_le_succ ha))
  have hn : (c + 1) * size = c * size + size := succ_mul c size
  have hl : ((input.drop (c * size)).take size).length = min size (input.length - c * size) := by
    rw [length_take, length_drop]
  -- The two ends of the slice, as offsets into the chunk.
  have hst : (if c = a / size then a - c * size else 0) = max a (c * size) - c * size := by
    split_ifs with hf
    · omega
    · have hla : (a / size + 1) * size ≤ c * size :=
        mul_le_mul_right size (by omega)
      omega
  have stop : (if c = b / size then min (b - c * size + 1)
      ((input.drop (c * size)).take size).length else ((input.drop (c * size)).take size).length) =
        min (b + 1) ((c + 1) * size) - c * size := by
    split_ifs with last
    · omega
    · have hla : (c + 1) * size ≤ b / size * size := mul_le_mul_right size (by omega)
      omega
  dsimp only
  rw [hst, stop, if_pos (by omega), flatten_singleton, take_take,
    min_eq_left (by omega), take_drop, drop_drop]
  congr 2 <;> omega

lemma rangeSlices_flatten (ho : a ≤ b) (hi : b < input.length) :
    ((range' (a / chunkSize) (b / chunkSize + 1 - a / chunkSize)).flatMap
      (slicesOf input a b)).flatten =
      (input.drop a).take (b - a + 1) := by
  have hp := chunkSize_pos
  have hr : b < (b / chunkSize + 1) * chunkSize := lt_next hp
  -- From each chunk on, the bytes of the range that are not before it.
  have ht : ∀ count c, a / chunkSize ≤ c → c + count = b / chunkSize →
      ((range' c (count + 1)).flatMap (slicesOf input a b)).flatten =
        (input.take (b + 1)).drop (max a (c * chunkSize)) := by
    intro count
    induction count with
    | zero =>
      intro c ha last
      have hl : c = b / chunkSize := last
      rw [range'_one, flatMap_singleton, rangeSlice_flatten hi ho ha (by omega),
        min_eq_left (by rw [hl]; omega)]
    | succ count ih =>
      intro c ha last
      have hn : (c + 1) * chunkSize ≤ b :=
        (mul_le_mul_right chunkSize (by omega : c + 1 ≤ b / chunkSize)).trans
          (div_mul_le_self b chunkSize)
      have hw : a < (c + 1) * chunkSize :=
        (lt_next hp).trans_le (mul_le_mul_right chunkSize (by omega))
      have low : c * chunkSize ≤ (c + 1) * chunkSize := mul_le_mul_right _ (le_succ c)
      rw [range'_succ, flatMap_cons, flatten_append,
        rangeSlice_flatten hi ho ha (by omega), ih (c + 1) (by omega) (by omega)]
      generalize (c + 1) * chunkSize = stop at *
      generalize c * chunkSize = start at *
      rw [min_eq_right (by omega), max_eq_right (le_of_lt hw)]
      have hs := take_append_drop stop (input.take (b + 1))
      rw [take_take, min_eq_left (by omega)] at hs
      have hsh : max a start ≤ (input.take stop).length := by
        rw [length_take]
        omega
      rw [← drop_append_of_le_length hsh, hs]
  have all := ht (b / chunkSize - a / chunkSize) (a / chunkSize) (le_refl _)
    (by have := Nat.div_le_div_right (c := chunkSize) ho; omega)
  have count : b / chunkSize + 1 - a / chunkSize = b / chunkSize - a / chunkSize + 1 := by
    have := Nat.div_le_div_right (c := chunkSize) ho
    omega
  rw [count, all, max_eq_left (div_mul_le_self a chunkSize), drop_take]
  congr 1
  omega

variable (hc : manifest.chunks.length = (cut chunkSize input).length)
include hc

lemma chunks_ne_nil (hs : input ≠ []) : manifest.chunks ≠ [] := by
  have hp := length_pos_of_ne_nil hs
  intro hn
  rw [hn, cut_of_pos chunkSize_pos hp] at hc
  cases hc

variable (he : ∀ c data, (cut chunkSize input)[c]? = some data →
  chunkBytes pk net dir (some key) manifest.chunks.length manifest c = .ok (manifest, data))
include he

lemma get_blocks (hs : input ≠ []) :
    Blob.get pk net dir (some key) manifest none =
      ⟨cut chunkSize input,
        if integrityHash pk key input = manifest.integrityHash then .ok ()
        else .error .hashMismatch⟩ := by
  have hb : (range manifest.chunks.length).map
      (fun c => ((cut chunkSize input)[c]?).getD []) = cut chunkSize input := by
    rw [hc]
    refine ext_getElem (by simp) fun i hi hcu => ?_
    rw [getElem_map, getElem_range, getElem?_eq_getElem hcu, Option.getD_some]
  rw [Blob.get, if_neg (chunks_ne_nil hc hs)]
  dsimp only
  rw [getAll_eq (fun c hr => he c _ ?_), hb, nil_append, flatten_cut chunkSize_pos]
  have hi : c < (cut chunkSize input).length := by
    rw [← hc]
    exact mem_range.1 hr
  rw [getElem?_eq_getElem hi, Option.getD_some]

lemma get_range_blocks {a b : Nat} (ho : a ≤ b) (hi : b < input.length) :
    (Blob.get pk net dir (some key) manifest (some (a, b))).ended = .ok () ∧
      (Blob.get pk net dir (some key) manifest (some (a, b))).items.flatten =
        (input.drop a).take (b - a + 1) := by
  have hso : input ≠ [] := ne_nil_of_length_pos (zero_lt_of_lt hi)
  have hbl : ∀ c, c ≤ b / chunkSize →
      (cut chunkSize input)[c]? = some ((input.drop (c * chunkSize)).take chunkSize) := by
    intro c hb
    have low : c * chunkSize ≤ b :=
      (mul_le_mul_right chunkSize hb).trans (div_mul_le_self b chunkSize)
    rw [getElem?_cut chunkSize_pos, if_pos (lt_of_le_of_lt low hi)]
  have hl : min (b / chunkSize) (manifest.chunks.length - 1) = b / chunkSize := by
    have hw := (List.getElem?_eq_some_iff.1 (hbl _ (le_refl _))).1
    omega
  have hs : Blob.get pk net dir (some key) manifest (some (a, b)) =
      ⟨(range' (a / chunkSize) (b / chunkSize + 1 - a / chunkSize)).flatMap (slicesOf input a b),
        .ok ()⟩ := by
    unfold slicesOf
    rw [Blob.get, if_neg (chunks_ne_nil hc hso)]
    dsimp only
    rw [hl, getRange_eq]
    intro c hr
    have hbo := mem_range'_1.1 hr
    exact he c _ (hbl c (by omega))
  rw [hs]
  exact ⟨rfl, rangeSlices_flatten ho hi⟩

end HopNet
