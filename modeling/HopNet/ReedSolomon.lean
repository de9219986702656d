import Mathlib.FieldTheory.Finite.GaloisField
import HopNet.BlobCrypto
import HopNet.Lib.Interpolation

namespace HopNet

open Interpolation List UInt8

lemma card_symbols : Nat.card (GaloisField 2 8) = 256 := by
  rw [GaloisField.card 2 8 (by decide)]
  decide

instance finite_symbols : Finite (GaloisField 2 8) :=
  Nat.finite_of_card_ne_zero (by rw [card_symbols]; decide)

/-- Bytes as field elements. -/
noncomputable def symbol : UInt8 ≃ GaloisField 2 8 :=
  Equiv.trans ⟨toFin, ofFin, fun _ => rfl, fun _ => rfl⟩
    (Finite.equivFinOfCardEq card_symbols).symm

noncomputable def point (i : ℕ) : GaloisField 2 8 := symbol (ofNat i)

lemma point_injOn : Set.InjOn point (Finset.range 30) := by
  intro i inI j inJ hs
  rw [Finset.mem_coe, Finset.mem_range] at inI inJ
  have hb := congrArg toNat (symbol.injective hs)
  rw [toNat_ofNat', toNat_ofNat'] at hb
  omega

/-- The bytes of the originals at one position. -/
noncomputable def column (originals : List Bytes) (position i : ℕ) : GaloisField 2 8 :=
  symbol (((originals[i]?).getD [])[position]?.getD 0)

variable (size : ℕ) (originals : List Bytes)

/-- The shard at an index, original or recovery. -/
noncomputable def shardAt (i : ℕ) : Bytes :=
  (range size).map fun position =>
    symbol.symm (codeword point originalFragmentsPerChunk (column originals position) i)

noncomputable def interpolationEncode : List Bytes :=
  (range recoveryFragmentsPerChunk).map fun j =>
    shardAt size originals (originalFragmentsPerChunk + j)

variable (fromOriginals fromRecovery : List (ℕ × Bytes))

def Explains (originals : List Bytes) : Prop :=
  RsShards size originals ∧ Indexed originals fromOriginals ∧
    Indexed (interpolationEncode size originals) fromRecovery

open Classical in
noncomputable def interpolationDecode :
    Option (List (ℕ × Bytes)) :=
  if explained : ∃ originals, Explains size fromOriginals fromRecovery originals then
    some (explained.choose.zipIdx.map fun shard => (shard.2, shard.1))
  else none

variable {originals : List Bytes}

lemma shardAt_original {size i : ℕ} (hsh : RsShards size originals)
    {shard} (hi : originals[i]? = some shard) : shardAt size originals i = shard := by
  have hin : i < originalFragmentsPerChunk := by
    rw [← hsh.count]
    exact (List.getElem?_eq_some_iff.1 hi).1
  have hl := hsh.sizes shard (mem_of_getElem? hi)
  refine ext_getElem (by simp [shardAt, hl]) fun position hs ho => ?_
  simp only [shardAt, getElem_map, getElem_range]
  rw [codeword_of_lt point_injOn (by decide) hin, column, symbol.symm_apply_apply, hi,
    Option.getD_some, getElem?_eq_getElem ho, Option.getD_some]

lemma codeword_of_shardAt {size position i : ℕ} {originals others}
    (hi : position < size) (hs : shardAt size originals i = shardAt size others i) :
    codeword point originalFragmentsPerChunk (column originals position) i =
      codeword point originalFragmentsPerChunk (column others position) i := by
  have hp := congrArg (fun shard => shard[position]?) hs
  simp only [shardAt, getElem?_map, getElem?_range hi, Option.map_some, Option.some.injEq] at hp
  exact symbol.symm.injective hp

/-- The indices of what is given, among the thirty. -/
def positions : List ℕ :=
  fromOriginals.map (·.1) ++ fromRecovery.map fun shard => originalFragmentsPerChunk + shard.1

section

variable {size : ℕ} {fromOriginals fromRecovery : List (ℕ × Bytes)} {originals others : List Bytes}
  {entry : ℕ × Bytes} (he : Explains size fromOriginals fromRecovery originals)
include he

lemma Explains.original_lt (ho : entry ∈ fromOriginals) : entry.1 < originalFragmentsPerChunk := by
  rw [← he.1.count]
  exact (List.getElem?_eq_some_iff.1 (he.2.1.values entry ho)).1

lemma Explains.recovery_at (hr : entry ∈ fromRecovery) : entry.1 < recoveryFragmentsPerChunk ∧
    shardAt size originals (originalFragmentsPerChunk + entry.1) = entry.2 := by
  obtain ⟨hi, hv⟩ := List.getElem?_eq_some_iff.1 (he.2.2.values entry hr)
  simp only [interpolationEncode, getElem_map, getElem_range] at hv
  exact ⟨hi, hv⟩

lemma Explains.positions_nodup : (positions fromOriginals fromRecovery).Nodup := by
  refine List.Nodup.append he.2.1.keys ?_ ?_
  · have hs := he.2.2.keys.map (f := (originalFragmentsPerChunk + ·)) fun a b same => by
      simpa using same
    rwa [map_map] at hs
  · intro i ho hr
    obtain ⟨original, hl, rfl⟩ := mem_map.1 ho
    obtain ⟨recovered, _, same⟩ := mem_map.1 hr
    have low := he.original_lt hl
    omega

lemma Explains.positions_lt {i : ℕ} (hg : i ∈ positions fromOriginals fromRecovery) : i < 30 := by
  rcases mem_append.1 hg with ho | hr
  · obtain ⟨entry, hl, rfl⟩ := mem_map.1 ho
    exact (he.original_lt hl).trans (by decide)
  · obtain ⟨entry, hl, rfl⟩ := mem_map.1 hr
    have low := (he.recovery_at hl).1
    simp only [originalFragmentsPerChunk, recoveryFragmentsPerChunk] at low ⊢
    omega

lemma Explains.agree (het : Explains size fromOriginals fromRecovery others) {i : ℕ}
    (hg : i ∈ positions fromOriginals fromRecovery) :
    shardAt size originals i = shardAt size others i := by
  rcases mem_append.1 hg with ho | hr
  · obtain ⟨entry, hl, rfl⟩ := mem_map.1 ho
    rw [shardAt_original he.1 (he.2.1.values entry hl),
      shardAt_original het.1 (het.2.1.values entry hl)]
  · obtain ⟨entry, hl, rfl⟩ := mem_map.1 hr
    rw [(he.recovery_at hl).2, (het.recovery_at hl).2]

/-- Originals with ten shards in common are the same. -/
lemma Explains.unique (het : Explains size fromOriginals fromRecovery others)
    (hen : originalFragmentsPerChunk ≤ fromOriginals.length + fromRecovery.length) :
    originals = others := by
  have hco : (positions fromOriginals fromRecovery).toFinset.card =
      fromOriginals.length + fromRecovery.length := by
    rw [toFinset_card_of_nodup he.positions_nodup, positions, length_append, length_map, length_map]
  have hc : ∀ position < size, ∀ i < originalFragmentsPerChunk,
      column originals position i = column others position i := by
    intro position hi
    have hp : (positions fromOriginals fromRecovery).toFinset ⊆ Finset.range 30 :=
      fun i hg => Finset.mem_range.2 (he.positions_lt (mem_toFinset.1 hg))
    refine data_eq_of_agree point_injOn (by decide) hp (hco ▸ hen) fun i hg => ?_
    exact codeword_of_shardAt hi (he.agree het (mem_toFinset.1 hg))
  have hl : originals.length = others.length := by
    rw [he.1.count, het.1.count]
  refine ext_getElem hl fun i hi hit => ?_
  have low : i < originalFragmentsPerChunk := he.1.count ▸ hi
  rw [← shardAt_original he.1 (getElem?_eq_getElem hi),
    ← shardAt_original het.1 (getElem?_eq_getElem hit)]
  refine map_congr_left fun position hr => ?_
  rw [codeword_of_lt point_injOn (by decide) low, codeword_of_lt point_injOn (by decide) low,
    hc position (mem_range.1 hr) i low]

end

lemma interpolationDecode_eq {size fromOriginals fromRecovery}
    (hex : Explains size fromOriginals fromRecovery originals)
    (hen : originalFragmentsPerChunk ≤ fromOriginals.length + fromRecovery.length) :
    interpolationDecode size fromOriginals fromRecovery =
      some (originals.zipIdx.map fun shard => (shard.2, shard.1)) := by
  have he : ∃ originals, Explains size fromOriginals fromRecovery originals :=
    ⟨originals, hex⟩
  rw [interpolationDecode, dif_pos he, he.choose_spec.unique hex hen]

lemma interpolation_laws {pk} (encodes : ∀ size originals,
      pk.rsEncode size originals = some (interpolationEncode size originals))
    (decodes : ∀ size fromOriginals fromRecovery,
      pk.rsDecode size fromOriginals fromRecovery =
        interpolationDecode size fromOriginals fromRecovery) : RsLaws pk where
  encodes size originals _ := by
    refine ⟨_, encodes size originals, by simp [interpolationEncode], ?_⟩
    intro shard inRecovery
    obtain ⟨j, _, rfl⟩ := mem_map.1 inRecovery
    simp [shardAt]
  restores size originals recovery shape coded fromOriginals fromRecovery ofOriginals ofRecovery
      enough := by
    rw [encodes] at coded
    rw [← Option.some.inj coded] at ofRecovery
    refine ⟨_, (decodes _ _ _).trans
      (interpolationDecode_eq ⟨shape, ofOriginals, ofRecovery⟩ enough), ?_, ?_⟩
    · intro entry inRestored
      obtain ⟨shard, inShards, rfl⟩ := mem_map.1 inRestored
      exact mem_zipIdx_iff_getElem?.1 inShards
    · intro i inside _
      rw [← shape.count] at inside
      exact mem_map.2 ⟨(i, originals[i]), mem_map.2 ⟨(originals[i], i),
        mem_zipIdx_iff_getElem?.2 (getElem?_eq_getElem inside), rfl⟩, rfl⟩

end HopNet
