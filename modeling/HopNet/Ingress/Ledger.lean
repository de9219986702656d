import HopNet.Ingress.Changes
import Mathlib.Algebra.Order.BigOperators.Group.List

/-! The reference counts of `blobs` cover the resource rows, a row keeps the `ext` of every resource
that refers to it, and bytes that the mesh still needs are not stamped evicted; each transaction
keeps this. -/

namespace HopNet.Ingress

open List Option Table PhotoRecord

namespace PhotoRecord

/-- The mesh still needs the content: written, not removed, and not held there. -/
def Needs (p : PhotoRecord) (r : ResourceRecord) (c : StoredContent) : Prop :=
  r.written ∧ r.removed = false ∧ (p.published = false ∨ r.publishedContentHash ≠ some c.hash)
deriving Decidable

/-- How many of the photo's rows refer to the content. -/
abbrev uses (p : PhotoRecord) (hash : ContentHash) : Nat :=
  p.resources.countP fun r => r.contentHash = some hash

def holds (library : LibraryId) (hash : ContentHash) (p : PhotoRecord) : Nat :=
  if p.libraryId = some library then p.resources.countP fun r => r.contentHash = some hash else 0

end PhotoRecord

namespace StateStore

variable {s s' s'' : StateStore} {library other : LibraryId} {hash hash' : ContentHash}
  {id : PhotoId}
  {p : PhotoRecord} {b : BlobRecord} {ext : String} {size : Int} {value : Bool}
  {reaped : Option String}

def refs (s : StateStore) (library : LibraryId) (hash : ContentHash) : Nat :=
  (s.photos.map (holds library hash)).sum

/-- The count of a blob; a missing row counts nothing. -/
def ledger (s : StateStore) (library : LibraryId) (hash : ContentHash) : Int :=
  ((s.blob library hash).map BlobRecord.refCount).getD 0

/-- No row came, and those that stayed have their `ext` and their stamp. -/
def FewerRows (s s' : StateStore) : Prop :=
  ∀ library hash b', s'.blob library hash = some b' →
    ∃ b, s.blob library hash = some b ∧ b'.ext = b.ext ∧ b'.evicted = b.evicted

lemma FewerRows.refl (s : StateStore) : FewerRows s s := fun _ _ b hf => ⟨b, hf, rfl, rfl⟩

lemma FewerRows.trans (hfi : FewerRows s s') (hs : FewerRows s' s'') : FewerRows s s'' := by
  intro library hash b hfo
  obtain ⟨middle, hf, ext, he⟩ := hs library hash b hfo
  obtain ⟨b₀, hf0, hex0, he0⟩ := hfi library hash middle hf
  exact ⟨b₀, hf0, ext.trans hex0, he.trans he0⟩

/-- Only rows of `blobs` changed. -/
structure OnlyBlobs (s s' : StateStore) : Prop where
  photos : s'.photos = s.photos
  libraries : s'.libraries = s.libraries

lemma OnlyBlobs.refl (s : StateStore) : OnlyBlobs s s := ⟨rfl, rfl⟩

lemma OnlyBlobs.trans (hf : OnlyBlobs s s') (hs : OnlyBlobs s' s'') : OnlyBlobs s s'' :=
  ⟨hs.photos.trans hf.photos, hs.libraries.trans hf.libraries⟩

@[simp] lemma ledger_updatePhoto {change} :
    (s.updatePhoto id change).ledger library hash = s.ledger library hash := rfl

lemma photo_updatePhoto {change} (hk : ∀ p, p.photoId = id → (change p).photoId = id)
    (wanted : PhotoId) :
    (s.updatePhoto id change).photo wanted = if wanted = id then
    (s.photo id).map change else s.photo wanted :=
  lookup_modify hk

lemma blob_updateBlob {change : BlobRecord → BlobRecord} (kept : ∀ b, (change b).key = b.key) :
    (s.updateBlob library hash change).blob other hash' =
      if other = library ∧
      hash' = hash then (s.blob library hash).map change else s.blob other hash' := by
  have hf : lookup BlobRecord.key (other, hash') (s.updateBlob library hash change).blobs = _ :=
    lookup_modify fun b hk => (kept b).trans hk
  rw [blob, hf]
  simp only [Prod.mk.injEq]
  rfl

lemma blob_setEvicted
    (hf : (s.updateBlob library hash fun b => { b with evicted := value }).blob other hash' =
      some b) :
    ∃ b₀, s.blob other hash' = some b₀ ∧ b.ext = b₀.ext ∧
      b.evicted = if other = library ∧ hash' = hash then value else b₀.evicted := by
  rw [blob_updateBlob (by intro _; rfl)] at hf
  split_ifs at hf with hh
  · obtain ⟨rfl, rfl⟩ := hh
    obtain ⟨b₀, hf0, rfl⟩ := map_eq_some_iff.1 hf
    exact ⟨b₀, hf0, rfl, (if_pos ⟨rfl, rfl⟩).symm⟩
  · exact ⟨b, hf, rfl, (if_neg hh).symm⟩

lemma ledger_setEvicted :
    (s.updateBlob library hash fun b => { b with evicted := value }).ledger other hash' =
      s.ledger other hash' := by
  rw [ledger, blob_updateBlob (by intro _; rfl)]
  split_ifs with hh
  · obtain ⟨rfl, rfl⟩ := hh
    rw [Option.map_map]
    rfl
  · rfl

lemma blob_upsertIncrement : (s.upsertIncrement library hash ext size).blob other hash' =
    if other = library ∧ hash' = hash then
      some (((s.blob library hash).map fun b => { b with refCount := b.refCount + 1 }).getD
        ⟨library, hash, ext, size, 1, false⟩)
    else s.blob other hash' := by
  unfold upsertIncrement
  cases hp : s.blob library hash with
  | some b =>
    rw [isSome_some, if_pos rfl, blob_updateBlob (by intro _; rfl), hp]
    rfl
  | none =>
    have ha : (⟨s.libraries, s.photos,
      s.blobs ++ [⟨library, hash, ext, size, 1, false⟩]⟩ : StateStore).blob other
        hash' = (s.blob other hash').or (if (library, hash) = (other, hash') then _ else none) :=
      lookup_append_singleton
    rw [isSome_none, if_neg (by simp), ha]
    by_cases hs : other = library ∧ hash' = hash
    · obtain ⟨rfl, rfl⟩ := hs
      rw [hp, if_pos rfl, if_pos ⟨rfl, rfl⟩]
      rfl
    · rw [if_neg hs, if_neg fun hb => hs ⟨(Prod.mk.inj hb).1.symm, (Prod.mk.inj hb).2.symm⟩,
        or_none]

lemma onlyBlobs_upsertIncrement : OnlyBlobs s (s.upsertIncrement library hash ext size) := by
  unfold upsertIncrement
  split_ifs <;> exact ⟨rfl, rfl⟩

lemma ledger_upsertIncrement : (s.upsertIncrement library hash ext size).ledger other hash' =
    s.ledger other hash' + if other = library ∧ hash' = hash then 1 else 0 := by
  rw [ledger, blob_upsertIncrement]
  split_ifs with hs
  · obtain ⟨rfl, rfl⟩ := hs
    cases hp : s.blob other hash' with
    | none | some => simp [ledger, hp]
  · simp [ledger]

/-- A row that an increment leaves was there, or is the new one. -/
lemma blob_upsertIncrement_cases
    (hf : (s.upsertIncrement library hash ext size).blob other hash' = some b) :
    (∃ b₀, s.blob other hash' = some b₀ ∧ b.ext = b₀.ext ∧ b.evicted = b₀.evicted) ∨
      (other = library ∧ hash' = hash ∧ s.blob other hash' = none ∧ b.ext = ext ∧
        b.evicted = false) := by
  rw [blob_upsertIncrement] at hf
  split_ifs at hf with hs
  · obtain ⟨rfl, rfl⟩ := hs
    cases hp : s.blob other hash' with
    | none =>
      rw [hp] at hf
      cases hf
      exact .inr ⟨rfl, rfl, rfl, rfl, rfl⟩
    | some b₀ =>
      rw [hp] at hf
      cases hf
      exact .inl ⟨b₀, rfl, rfl, rfl⟩
  · exact .inl ⟨b, hf, rfl, rfl⟩

lemma blob_decrementAndReap (ran : s.decrementAndReap library hash = .ok (s', reaped)) :
    ∃ b, s.blob library hash = some b ∧ OnlyBlobs s s' ∧ ∀ other hash', s'.blob other hash' =
      if other = library ∧ hash' = hash then
        if b.refCount - 1 = 0 then none else some { b with refCount := b.refCount - 1 }
      else s.blob other hash' := by
  unfold decrementAndReap at ran
  split at ran
  · cases ran
  rename_i b hp
  split_ifs at ran with hl
  · cases ran
    refine ⟨b, hp, ⟨rfl, rfl⟩, fun other hash' => ?_⟩
    have hg : (⟨s.libraries, s.photos,
      delete BlobRecord.key (library, hash) s.blobs⟩ : StateStore).blob other hash' =
        if (other, hash') = (library, hash) then none else s.blob other hash' := lookup_delete
    rw [hg, if_pos hl]
    simp only [Prod.mk.injEq]
  · cases ran
    refine ⟨b, hp, ⟨rfl, rfl⟩, fun other hash' => ?_⟩
    rw [blob_updateBlob (by intro _; rfl), hp, if_neg hl]
    rfl

lemma decrementAndReap_ok (ran : s.decrementAndReap library hash = .ok (s', reaped)) :
    OnlyBlobs s s' ∧ FewerRows s s' ∧
      (∀ other hash', s'.ledger other hash' =
        s.ledger other hash' - if other = library ∧ hash' = hash then 1 else 0) ∧
      ∀ other hash', other ≠ library → s'.blob other hash' = s.blob other hash' := by
  obtain ⟨b, hp, only, rows⟩ := blob_decrementAndReap ran
  refine ⟨only, fun other hash' b' hf => ?_, fun other hash' => ?_, fun other hash' ha => ?_⟩
  · rw [rows] at hf
    split_ifs at hf with hs hl
    · obtain ⟨rfl, rfl⟩ := hs
      cases hf
      exact ⟨b, hp, rfl, rfl⟩
    · exact ⟨b', hf, rfl, rfl⟩
  · rw [ledger, ledger, rows]
    by_cases hs : other = library ∧ hash' = hash
    · obtain ⟨rfl, rfl⟩ := hs
      simp only [and_self, ↓reduceIte, hp]
      split_ifs
      · simp
        omega
      · simp
    · simp [hs]
  · rw [rows, if_neg fun hs => ha hs.1]

/-- The rows that stay keep their `ext` and their stamp. -/
def KeepsRows (s s' : StateStore) : Prop :=
  ∀ library hash b b', s.blob library hash = some b → s'.blob library hash = some b' →
    b'.ext = b.ext ∧ b'.evicted = b.evicted

lemma FewerRows.keepsRows (hfe : FewerRows s s') : KeepsRows s s' := by
  intro library hash b b' hf hf'
  obtain ⟨b₀, hf0, hs⟩ := hfe library hash b' hf'
  cases hf.symm.trans hf0
  exact hs

structure Sound (s : StateStore) : Prop where
  distinct : (s.photos.map photoId).Nodup
  types : ∀ p ∈ s.photos, p.TypesDistinct
  unmapped : ∀ p ∈ s.photos, p.libraryId = none → ∀ r ∈ p.resources, r.content = none
  counted : ∀ library hash, (s.refs library hash : Int) ≤ s.ledger library hash
  rows : ∀ p ∈ s.photos, ∀ library, p.libraryId = some library → ∀ r ∈ p.resources, ∀ c, r.content =
    some c → ∀ b, s.blob library c.hash = some b → b.ext = c.ext ∧ (p.Needs r c → b.evicted = false)

lemma mem_of_photo (hf : s.photo id = some p) : p ∈ s.photos ∧ p.photoId = id :=
  ⟨mem_of_lookup hf, key_of_lookup hf⟩

namespace Sound

lemma photo_of_mem (hs : s.Sound) (hp : p ∈ s.photos) : s.photo p.photoId = some p :=
  find?_of_mem hs.distinct hp rfl

variable {r : ResourceRecord}

lemma exists_row (hs : s.Sound) (hp : p ∈ s.photos) (hm : p.libraryId = some library)
    (hr : r ∈ p.resources) (hh : r.contentHash = some hash) :
    ∃ b, s.blob library hash = some b := by
  have held : 1 ≤ p.holds library hash := by
    rw [holds, if_pos hm]
    exact countP_pos_iff.2 ⟨r, hr, by simpa using hh⟩
  have hco : p.holds library hash ≤ s.refs library hash :=
    le_sum_of_mem (mem_map_of_mem hp)
  have hc := hs.counted library hash
  cases hf : s.blob library hash with
  | some b => exact ⟨b, rfl⟩
  | none =>
    rw [ledger, hf, map_none, getD_none] at hc
    omega

lemma no_resource (hs : s.Sound) (hm : s.blob library hash = none) (hp : p ∈ s.photos)
    (hma : p.libraryId = some library) (hr : r ∈ p.resources) :
    r.contentHash ≠ some hash := by
  intro hh
  obtain ⟨b, hf⟩ := hs.exists_row hp hma hr hh
  cases hm.symm.trans hf

lemma others (hs : s.Sound) (hk : KeepsRows s s') (hp : p ∈ s.photos)
    (hm : p.libraryId = some library) (hr : r ∈ p.resources) {c} (hc : r.content = some c)
    (hf : s'.blob library c.hash = some b) : b.ext = c.ext ∧ (p.Needs r c → b.evicted = false) := by
  obtain ⟨b₀, hf0⟩ := hs.exists_row hp hm hr (by rw [ResourceRecord.contentHash, hc]; rfl)
  obtain ⟨ext, he⟩ := hk library c.hash b₀ b hf0 hf
  rw [ext, he]
  exact hs.rows p hp library hm r hr c hc b₀ hf0

lemma replace (hso : s.Sound) (hfo : s.photo id = some p) {p'} (hs : p'.photoId = id)
    (ht : p'.TypesDistinct)
    (hu : p'.libraryId = none → ∀ r ∈ p'.resources, r.content = none)
    (photos : s'.photos = (s.updatePhoto id fun _ => p').photos)
    (hcs : ∀ library hash,
      s.ledger library hash + p'.holds library hash ≤ s'.ledger library hash + p.holds library hash)
    (hk : KeepsRows s s')
    (own : ∀ library, p'.libraryId = some library → ∀ r ∈ p'.resources, ∀ c, r.content = some c →
      ∀ b, s'.blob library c.hash = some b → b.ext = c.ext ∧
        (p'.Needs r c → b.evicted = false)) : s'.Sound := by
  have hm : ∀ q ∈ s'.photos, q = p' ∨ q ∈ s.photos := by
    intro q hp
    rw [photos] at hp
    obtain ⟨q₀, hp0, rfl⟩ := mem_map.1 hp
    by_cases hh : q₀.photoId = id
    · exact .inl (if_pos hh)
    · exact .inr (by rw [if_neg hh]; exact hp0)
  refine ⟨?_, fun q hp => ?_, fun q hp => ?_, fun library hash => ?_, fun q hp => ?_⟩
  · rw [photos, updatePhoto, map_key_modify fun _ _ => hs]
    exact hso.distinct
  · rcases hm q hp with rfl | hb
    · exact ht
    · exact hso.types q hb
  · rcases hm q hp with rfl | hb
    · exact hu
    · exact hso.unmapped q hb
  · have sums : ((s.updatePhoto id fun _ => p').photos.map (holds library hash)).sum +
        p.holds library hash = (s.photos.map (holds library hash)).sum + p'.holds library hash :=
      sum_modify hso.distinct hfo (holds library hash)
    have hc := hso.counted library hash
    have hcd := hcs library hash
    rw [refs] at hc ⊢
    rw [photos]
    omega
  · rcases hm q hp with rfl | hb
    · exact own
    · intro library hma r hr c hco b hf
      exact hso.others hk hb hma hr hco hf

/-- A transaction that only touches `blobs`, and counts no less. -/
lemma blobs (hso : s.Sound) (hp : s'.photos = s.photos)
    (hcs : ∀ library hash, s.ledger library hash ≤ s'.ledger library hash)
    (rows : ∀ library hash b', s'.blob library hash = some b' → ∃ b, s.blob library hash = some b ∧
      b'.ext = b.ext ∧
      (b.evicted = false → s.Blocked library hash → b'.evicted = false)) : s'.Sound := by
  refine ⟨hp ▸ hso.distinct, hp ▸ hso.types, hp ▸ hso.unmapped, fun library hash => ?_, ?_⟩
  · have hco := hso.counted library hash
    rw [refs, hp]
    exact hco.trans (hcs library hash)
  · rw [hp]
    intro p hph library hm r hr c hc b' hf'
    obtain ⟨b, hf, ext, hs⟩ := rows library c.hash b' hf'
    obtain ⟨he0, hl⟩ := hso.rows p hph library hm r hr c hc b hf
    refine ⟨ext.trans he0, fun hn => hs (hl hn) ⟨p, hph, hm, r, hr, ?_, hn.2.2⟩⟩
    rw [ResourceRecord.contentHash, hc]
    rfl

end Sound

end StateStore

end HopNet.Ingress
