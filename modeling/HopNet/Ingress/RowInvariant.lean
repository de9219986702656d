import HopNet.Ingress.Stamps

namespace HopNet.Ingress

open List Option StateStore

structure PhotoRecord.SameClaim (p q : PhotoRecord) : Prop where
  libraryId : q.libraryId = p.libraryId
  published : q.published = p.published
  materialized : q.materialized = p.materialized
  consensusPhotoId : q.consensusPhotoId = p.consensusPhotoId

/-- `Row` is of every row, `Fits` of a claim and its photo's row. Of the store only the libraries
matter, and a photo added on the mesh under another id is no concern of a row. -/
structure RowInvariant where
  Row : StateStore → Mesh → PhotoRecord → Prop
  Fits : StateStore → Claim → PhotoRecord → Prop
  types : ∀ {s mesh p}, Row s mesh p → p.TypesDistinct
  congr : ∀ {s s' mesh mesh' p}, s'.libraries = s.libraries → mesh'.photos = mesh.photos →
    Row s mesh p → Row s' mesh' p
  fits : ∀ {s s' c p q}, s'.libraries = s.libraries → p.SameClaim q → Fits s c p → Fits s' c q
  apart : ∀ {s mesh p id} (photo : MeshPhoto), mesh.photos id = none → p.photoId ≠ id →
    Row s mesh p → Row s (mesh.setPhoto id photo) p

lemma RowInvariant.refits (inv : RowInvariant) {s s' c p}
    (hl : s'.libraries = s.libraries) (hf : inv.Fits s c p) : inv.Fits s' c p :=
  inv.fits hl ⟨rfl, rfl, rfl, rfl⟩ hf

namespace Device

structure Holds (inv : RowInvariant) (d : Device) : Prop where
  distinct : (d.store.photos.map PhotoRecord.photoId).Nodup
  photos : ∀ id p, d.store.photo id = some p → inv.Row d.store d.mesh p
  claims : ∀ c ∈ d.claims, c.photo.photoId ∈ d.held ∧ ∃ p, d.store.photo c.photo.photoId = some p ∧
    inv.Fits d.store c p

end Device

/-- Kept by every step whose events are allowed. But for the pass, a rule is about the one row the
event changes. -/
structure RowInvariant.Rules (inv : RowInvariant) (allowed : Device → DeviceEvent → Prop) :
    Prop where
  minted : ∀ {s mesh minted} now desc library, mesh.photos minted = none →
    inv.Row s mesh (newPhoto minted now desc library)
  renewed : ∀ {d desc minted now reached p p'}, allowed d (.descriptor desc minted now reached) →
    p ∈ d.store.resolveEventPhoto desc → p.Renewed d.store desc p' → inv.Row d.store d.mesh p →
      inv.Row d.store d.mesh p'
  tombstoned : ∀ {d id now p}, allowed d (.tombstone id now) → d.store.photo id = some p →
    inv.Row d.store d.mesh p →
    inv.Row d.store d.mesh { p with deletedAt := p.deletedAt.or (some now) }
  written : ∀ {d id rt content p}, allowed d (.write id rt content) → d.store.photo id = some p →
    inv.Row d.store d.mesh p → inv.Row d.store d.mesh (p.writeResource rt content).stampMaterialized
  described : ∀ {s mesh p}, inv.Row s mesh p → inv.Row s mesh { p with hasDescriptor := true }
  bound : ∀ {s mesh p} cloudId localId, inv.Row s mesh p →
    inv.Row s mesh (p.bindLate cloudId localId)
  claimed : ∀ {s mesh c}, s.Claimable c → inv.Row s mesh c.photo → inv.Fits s c c.photo
  adopted : ∀ {d : Device} {photo remote m}, d.Holds inv → Claim.publish photo ∈ d.claims →
    allowed d (.adopt photo remote) → d.mesh.photos remote = some m →
    m.library = d.store.scopeOf photo → (d.adopt photo remote).Holds inv
  submitted : ∀ {d d' : Device} {claim reply}, d.Holds inv → claim ∈ d.claims →
    allowed d (.submit claim reply) → d.submit claim reply = some d' → d'.Holds inv

namespace Device

variable {inv : RowInvariant} {d d' : Device} {id : PhotoId} {p q : PhotoRecord}
  {store : StateStore} {mesh : Mesh}

lemma holds_start (inv : RowInvariant) (user : Int) (libraries : List LibraryConfig) (mesh : Mesh) :
    (start user libraries mesh).Holds inv where
  distinct := nodup_nil
  photos := by rintro id p ⟨⟩
  claims := by rintro c ⟨⟩

variable (hh : d.Holds inv)
include hh

lemma Holds.onMesh (hr : ∀ id p, d.store.photo id = some p → inv.Row d.store d.mesh p →
    inv.Row d.store mesh p) :
    (d.setMesh mesh).Holds inv :=
  ⟨hh.distinct, fun id p hf => hr id p hf (hh.photos id p hf), hh.claims⟩

/-- A step that replaces one row, and on the mesh nothing of the others. -/
lemma Holds.replace (hf : d.store.photo id = some p) (hr : StateStore.Replaces id q d.store store)
    (he : ∀ other p', other ≠ id → d.store.photo other = some p' → inv.Row d.store d.mesh p' →
      inv.Row d.store mesh p')
    (row : inv.Row d.store mesh q)
    (fits : ∀ c ∈ d.claims, c.photo.photoId = id → inv.Fits d.store c p → inv.Fits d.store c q) :
    ((d.setMesh mesh).setStore store).Holds inv := by
  refine ⟨hr.ids ▸ hh.distinct, fun wanted p' hf' => ?_, fun c hc => ?_⟩
  · have hf' : store.photo wanted = some p' := hf'
    rw [hr.photo] at hf'
    split_ifs at hf' with here
    · cases hf'
      exact inv.congr hr.libraries rfl row
    · exact inv.congr hr.libraries rfl (he wanted p' here hf' (hh.photos wanted p' hf'))
  · obtain ⟨held, p', hf', fits'⟩ := hh.claims c hc
    refine ⟨held, ?_⟩
    show ∃ p, store.photo c.photo.photoId = some p ∧ inv.Fits store c p
    rw [hr.photo]
    split_ifs with here
    · rw [here] at hf'
      cases hf.symm.trans hf'
      exact ⟨q, rfl, inv.refits hr.libraries (fits c hc here fits')⟩
    · exact ⟨p', hf', inv.refits hr.libraries fits'⟩

/-- `UPDATE photos … WHERE photo_id = ?`, of columns that no claim is about. -/
lemma Holds.mark {change : PhotoRecord → PhotoRecord}
    (hk : ∀ p, p.photoId = id → (change p).photoId = id)
    (hs : ∀ p : PhotoRecord, p.SameClaim (change p))
    (row : ∀ p, d.store.photo id = some p → inv.Row d.store d.mesh p →
      inv.Row d.store d.mesh (change p)) :
    (d.mark id change).Holds inv := by
  cases hf : d.store.photo id with
  | none =>
    rw [Device.mark, updatePhoto_of_none hf]
    exact hh
  | some p =>
    exact hh.replace hf (.update change hf hk rfl rfl) (fun _ _ _ _ row => row)
      (row p hf (hh.photos id p hf)) fun _ _ _ => inv.fits rfl (hs p)

lemma Holds.of_photos (hp : store.photos = d.store.photos)
    (hl : store.libraries = d.store.libraries) : (d.setStore store).Holds inv := by
  have hs : store.photo = d.store.photo := by
    funext wanted
    rw [photo, hp]
    rfl
  refine ⟨hp ▸ hh.distinct, fun wanted p hf => ?_, fun c hc => ?_⟩
  · exact inv.congr hl rfl (hh.photos wanted p (hs ▸ hf))
  · obtain ⟨held, p, hf, fits⟩ := hh.claims c hc
    exact ⟨held, p, hs ▸ hf, inv.refits hl fits⟩

lemma Holds.fewerClaims (claim : Claim) : (d.finishClaim claim).Holds inv :=
  ⟨hh.distinct, hh.photos, fun c hc => hh.claims c (mem_of_mem_erase hc)⟩

lemma Holds.merge {allowed desc library hash survivor} (hr : inv.Rules allowed) (free : id ∉ d.held)
    (ran : d.store.lateBindingMerge library hash desc id = .ok (store, survivor)) :
    (d.setStore store).Holds inv := by
  rcases lateBindingMerge_cases hh.distinct ran with rfl | ⟨old, cloudId, hm⟩
  · exact hh
  · have hf : d.store.photo old.photoId = some old :=
      photo_eq_of_mem hh.distinct (mem_of_find?_eq_some hm.survivor)
    refine ⟨hm.distinct, fun wanted p hfo => ?_, fun c hc => ?_⟩
    · have hfo : store.photo wanted = some p := hfo
      rw [hm.photo] at hfo
      split_ifs at hfo with ho
      · cases hfo
        exact inv.congr hm.libraries rfl (hr.bound _ _ (hh.photos _ _ hf))
      · exact inv.congr hm.libraries rfl (hh.photos wanted p hfo)
    · obtain ⟨held, p, hfo, fits⟩ := hh.claims c hc
      refine ⟨held, ?_⟩
      show ∃ p, store.photo c.photo.photoId = some p ∧ inv.Fits store c p
      rw [hm.photo, if_neg fun here : c.photo.photoId = id => free (here ▸ held)]
      split_ifs with ho
      · rw [ho] at hfo
        cases hf.symm.trans hfo
        have hs : old.SameClaim (old.bindLate cloudId desc.localId) := ⟨rfl, rfl, rfl, rfl⟩
        exact ⟨_, rfl, inv.fits hm.libraries hs fits⟩
      · exact ⟨p, hfo, inv.refits hm.libraries fits⟩

/-- The event's photo is not held, so the claims' rows are as they were. -/
lemma Holds.descriptor {allowed desc minted now reached} (hru : inv.Rules allowed)
    (ha : allowed d (.descriptor desc minted now reached))
    (free : ∀ p ∈ d.store.resolveEventPhoto desc, p.photoId ∉ d.held)
    (hfr : d.store.photo minted = none) (hfm : d.mesh.photos minted = none) :
    (d.setStore (d.store.applyChange minted now desc reached).1).Holds inv := by
  have ht : ∀ p ∈ d.store.photos, p.TypesDistinct := fun p hp =>
    inv.types (hh.photos _ p (photo_eq_of_mem hh.distinct hp))
  obtain ⟨hl, hd, rows⟩ : StateStore.Applies minted now desc d.store
      (d.store.applyChange minted now desc reached).1 :=
    applies_applyChange reached hfr hh.distinct ht
  refine ⟨hd, fun wanted p' hf' => ?_, fun c hc => ?_⟩
  · rcases rows wanted with ⟨p, p₁, hfo, hf, hr⟩ | ⟨_, hm⟩ | ⟨_, library, hf, _⟩
    · cases hf.symm.trans hf'
      have row := hh.photos wanted p hfo
      rcases hr.named with rfl | he
      · exact inv.congr hl rfl row
      · exact inv.congr hl rfl (hru.renewed ha he.resolved hr row)
    · cases hm.symm.trans hf'
    · cases hf.symm.trans hf'
      exact hru.minted now desc library hfm
  · obtain ⟨held, p, hfo, fits⟩ := hh.claims c hc
    refine ⟨held, ?_⟩
    rcases rows c.photo.photoId with ⟨p₀, p₁, hf0, hf, hr⟩ | ⟨hm, _⟩ | ⟨hmi, _⟩
    · cases hfo.symm.trans hf0
      rcases hr.named with rfl | he
      · exact ⟨p₁, hf, inv.refits hl fits⟩
      · have hn : p.photoId = c.photo.photoId := (mem_of_photo hfo).2
        exact absurd (hn ▸ held) (free p he.resolved)
    · cases hfo.symm.trans hm
    · rw [hmi] at hfo
      cases hfo.symm.trans hfr

lemma Holds.step {allowed event} (hru : inv.Rules allowed) (ha : allowed d event)
    (step : d.Step event d') : d'.Holds inv := by
  unfold Step next at step
  cases event with
  | descriptor desc minted now reached =>
    simp only at step
    split_ifs at step with hg
    cases step
    exact hh.descriptor hru ha hg.1 hg.2.1 (isNone_iff_eq_none.1 hg.2.2)
  | tombstone id now =>
    cases step
    exact hh.mark (fun _ hi => hi) (fun _ => ⟨rfl, rfl, rfl, rfl⟩) fun p hfo =>
      hru.tombstoned ha hfo
  | write id rt content =>
    simp only at step
    split_ifs at step with hg
    split at step
    · cases step
    · next ran =>
        cases step
        obtain ⟨p, hfo, hr⟩ := markResourceWritten_replaces ran
        refine hh.replace hfo hr (fun _ _ _ _ row => row)
          (hru.written ha hfo (hh.photos id p hfo)) ?_
        exact fun c hc here => absurd (here ▸ (hh.claims c hc).1) hg.1
  | describe id =>
    simp only at step
    split_ifs at step
    cases step
    exact hh.mark (fun _ hi => hi) (fun _ => ⟨rfl, rfl, rfl, rfl⟩) fun _ _ => hru.described
  | merge id hash desc =>
    simp only at step
    split at step
    · split_ifs at step with hg
      split at step
      · next ran =>
          cases step
          obtain ⟨library, _, ran⟩ := map_eq_some_iff.1 ran
          exact hh.merge hru hg.1 ran
      · cases step
    · cases step
  | evict limit =>
    cases step
    exact hh.of_photos (d.store.evictBlobs_photos limit).1 (d.store.evictBlobs_photos limit).2
  | beginPass claims =>
    simp only at step
    split_ifs at step with hg
    cases step
    refine ⟨hh.distinct, hh.photos, fun c hc => ⟨mem_map.2 ⟨c, hc, rfl⟩, c.photo, ?_⟩⟩
    have hcl := hg.2.2.2 c hc
    have hfo : d.store.photo c.photo.photoId = some c.photo := by
      cases c <;> exact hcl.1
    exact ⟨hfo, hru.claimed hcl (hh.photos _ _ hfo)⟩
  | adopt photo remote =>
    simp only at step
    split_ifs at step with hg
    cases step
    obtain ⟨hc, _, m, ho, hs⟩ := hg
    exact (hru.adopted hh hc ha ho hs).fewerClaims _
  | submit claim reply =>
    simp only at step
    split_ifs at step with hc
    obtain ⟨sent, ran, rfl⟩ := map_eq_some_iff.1 step
    exact (hru.submitted hh hc ha ran).fewerClaims claim
  | skip claim =>
    simp only at step
    split_ifs at step
    cases step
    exact hh.fewerClaims claim
  | endPass =>
    split_ifs at step with hf
    cases step
    exact ⟨hh.distinct, hh.photos, fun c hcl => absurd (hf ▸ hcl) not_mem_nil⟩
  | roster library members invites =>
    cases step
    exact hh.onMesh fun _ _ _ => inv.congr rfl rfl
  | foreign id photo =>
    simp only at step
    split_ifs at step with hg
    cases step
    refine hh.onMesh fun wanted p hfo => inv.apart photo (isNone_iff_eq_none.1 hg.1) ?_
    rintro rfl
    rw [(mem_of_photo hfo).2] at hg
    cases hfo.symm.trans hg.2

end Device

end HopNet.Ingress
