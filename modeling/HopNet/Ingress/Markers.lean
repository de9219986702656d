import HopNet.Ingress.Residency
import HopNet.Ingress.RowInvariant

namespace HopNet.Ingress

open Option Mesh ResourceRecord PhotoRecord StateStore

open Runs (Reaches)

namespace Device

/-- A published photo in no queue, with nothing left to write, is on the mesh with its tombstone
state and, unless deleted, the bytes of every live resource. -/
def Converged (d : Device) : Prop :=
  ∀ p ∈ d.store.photos, p.published → ¬ d.store.Publishable p → ¬ p.TombstonePropagatable →
    ¬ d.store.Editable p → (∀ r ∈ p.resources, r.written) →
    ∃ m ∈ d.mesh.photos p.photoId, m.tombstoned = p.deletedAt.isSome ∧
      (p.deletedAt = none → ∀ r ∈ p.liveResources, ∃ hash ∈ r.contentHash,
        m.resources r.resourceType = some hash)
deriving Decidable

/-- A photo stays in its scope's library, and none is adopted from another device. -/
def Settled (d : Device) : DeviceEvent → Prop
  | .descriptor desc .. => ∀ p ∈ d.store.resolveEventPhoto desc, p.libraryId ≠ none →
      d.store.resolveScope desc.scope = none ∨ d.store.resolveScope desc.scope = p.libraryId
  | .adopt photo remote => remote = photo.photoId
  | _ => True

/-- The condition on the next event. A local delete or restore that brings the row back to its
marker happens only if the mesh has the photo so; a write that brings a resource back to its marker,
or changes a photo whose publish is not confirmed, only if the mesh has these bytes; a lost delete
or restore was of the row as it still is; and a published photo's thumbnails that the mesh was not
told of stay enumerated. -/
def Calm (d : Device) : DeviceEvent → Prop
  | .descriptor desc .. => ∀ p ∈ d.store.resolveEventPhoto desc,
      (p.published → p.KeepsThumbnails desc) ∧ ∀ m ∈ d.mesh.photos p.photoId,
        p.deletedAt.isSome → p.tombstonePublished = false → m.tombstoned = false
  | .tombstone photoId _ => ∀ p ∈ d.store.photo photoId, ∀ m ∈ d.mesh.photos photoId,
      p.deletedAt = none → p.tombstonePublished → m.tombstoned
  | .write photoId rt content => ∀ p ∈ d.store.photo photoId, ∀ r ∈ p.resource rt,
      ∀ m ∈ d.mesh.photos photoId,
      p.published = false ∨ r.publishedContentHash = some content.hash →
      m.resources rt = some content.hash
  | .submit (.tombstone photo) .lost => ∀ p ∈ d.store.photo photo.photoId,
      p.deletedAt.isSome = photo.deletedAt.isSome
  | _ => True

instance (d : Device) (event : DeviceEvent) : Decidable (d.Settled event) := by
  cases event <;> unfold Settled <;> infer_instance

instance (d : Device) (event : DeviceEvent) : Decidable (d.Calm event) := by
  unfold Calm
  split <;> infer_instance

end Device

/-- What the mesh has of a photo agrees with it where its markers say so. -/
structure PhotoRecord.Told (p : PhotoRecord) (m : MeshPhoto) : Prop where
  tombstone : p.tombstonePublished = p.deletedAt.isSome → m.tombstoned = p.deletedAt.isSome
  bytes : ∀ r ∈ p.resources, r.removed = false → r.written →
    p.published = false ∨ r.publishedContentHash = r.contentHash →
    m.resources r.resourceType = r.contentHash

structure PhotoRecord.Sound (s : StateStore) (mesh : Mesh) (p : PhotoRecord) : Prop where
  types : p.TypesDistinct
  own : p.consensusPhotoId = none
  hashed : ∀ r ∈ p.resources, r.removed = false → r.written → r.contentHash ≠ none
  untold : p.published = false → p.tombstonePublished = false
  onMesh : p.published = true → ∃ m, mesh.photos p.photoId = some m
  completes : p.published = true → p.Completes
  publishes : p.published = true → (s.publishLibrary p).isSome
  told : ∀ m, mesh.photos p.photoId = some m → p.Told m

/-- A claimed photo's row is still one its submission is for. -/
def Claim.Fits (s : StateStore) : Claim → PhotoRecord → Prop
  | .publish _, p => p.materialized ∧ (s.publishLibrary p).isSome
  | .tombstone photo, p => p.published ∧ photo.consensusPhotoId = none
  | .edit photo, p => p.published ∧ photo.consensusPhotoId = none ∧ p.materialized

variable {s : StateStore} {mesh mesh' : Mesh} {p p' : PhotoRecord}

section

variable {s' : StateStore}

lemma StateStore.library_congr (hl : s'.libraries = s.libraries) : s'.library = s.library := by
  funext id
  rw [StateStore.library, hl]
  rfl

lemma StateStore.publishLibrary_congr (hl : s'.libraries = s.libraries)
    (library : p'.libraryId = p.libraryId) : s'.publishLibrary p' = s.publishLibrary p := by
  rw [publishLibrary, library, library_congr hl]
  rfl

lemma PhotoRecord.Sound.congr (row : p.Sound s mesh) (hl : s'.libraries = s.libraries)
    (hs : mesh'.photos p.photoId = mesh.photos p.photoId) : p.Sound s' mesh' :=
  { row with
    onMesh := fun hp => hs ▸ row.onMesh hp
    publishes := fun hp => publishLibrary_congr hl rfl ▸ row.publishes hp
    told := hs ▸ row.told }

/-- A photo that the mesh has now, as its markers say. -/
lemma PhotoRecord.Sound.onto {m} (row : p.Sound s mesh) (here : mesh'.photos p.photoId = some m)
    (told : p.Told m) : p.Sound s mesh' :=
  { row with
    onMesh := fun _ => ⟨m, here⟩
    told := fun m' ho => by
      cases here.symm.trans ho
      exact told }

lemma Claim.Fits.congr {c : Claim} (hl : s'.libraries = s.libraries) (hs : p.SameClaim p')
    (hf : c.Fits s p) : c.Fits s' p' := by
  have hp := hs.published
  have hm := hs.materialized
  cases c with
  | publish photo => exact ⟨hm.trans hf.1, publishLibrary_congr hl hs.libraryId ▸ hf.2⟩
  | tombstone photo => exact ⟨hp.trans hf.1, hf.2⟩
  | edit photo => exact ⟨hp.trans hf.1, hf.2.1, hm.trans hf.2.2⟩

end

def soundRows : RowInvariant where
  Row := PhotoRecord.Sound
  Fits := Claim.Fits
  types := fun row => row.types
  congr := fun hl same row => row.congr hl (by rw [same])
  fits := Claim.Fits.congr
  apart := fun _ _ hd row => row.congr rfl (setPhoto_of_ne _ _ hd)

variable {d d' : Device} {id : PhotoId}

namespace Device

variable {content : StoredContent}

lemma Holds.converged (hho : d.Holds soundRows) : d.Converged := by
  intro p hph hp _ ht he all
  have hf := photo_eq_of_mem hho.distinct hph
  have row : p.Sound d.store d.mesh := hho.photos p.photoId p hf
  obtain ⟨m, ho⟩ := row.onMesh hp
  have told := row.told m ho
  have hm : p.tombstonePublished = p.deletedAt.isSome := by
    by_contra hd
    refine ht ⟨hp, ?_⟩
    cases hde : p.deletedAt with
    | none =>
      rw [hde] at hd
      exact .inr ⟨rfl, by simpa using hd⟩
    | some at_ =>
      rw [hde] at hd
      exact .inl ⟨rfl, by simpa using hd⟩
  refine ⟨m, ho, told.tombstone hm, fun ha r hl => ?_⟩
  obtain ⟨hr, hk⟩ := mem_liveResources.1 hl
  have hw := all r hr
  have hc : r.publishedContentHash = r.contentHash := by
    by_contra hd
    exact he ⟨row.publishes hp, hp, row.completes hp all, ha, .inr ⟨r, hr, .inr ⟨hk, hw, hd⟩⟩⟩
  obtain ⟨hash, hh⟩ := ne_none_iff_exists'.1 (row.hashed r hr hk hw)
  exact ⟨hash, hh, (told.bytes r hr hk hw (.inr hc)).trans hh⟩

lemma elsewhere_sound (hs : ∀ other ≠ id, mesh.photos other = d.mesh.photos other) (other : PhotoId)
    (p : PhotoRecord) (hd : other ≠ id) (hf : d.store.photo other = some p)
    (row : p.Sound d.store d.mesh) : p.Sound d.store mesh := by
  refine row.congr rfl (hs _ ?_)
  rw [(mem_of_photo hf).2]
  exact hd

lemma tombstoned_sound {now} (hc : d.Calm (.tombstone id now)) (hf : d.store.photo id = some p)
    (row : p.Sound d.store d.mesh) :
    ({ p with deletedAt := p.deletedAt.or (some now) } : PhotoRecord).Sound d.store d.mesh := by
  refine { row with told := fun m ho => ?_ }
  have ht := row.told m ho
  refine ⟨fun hm => ?_, ht.bytes⟩
  cases hd : p.deletedAt with
  | some at_ =>
    have hb := ht.tombstone
    rw [hd] at hm hb
    exact (hb hm).trans (by simp)
  | none =>
    rw [hd] at hm
    have ho : d.mesh.photos id = some m := (mem_of_photo hf).2 ▸ ho
    rw [hc p hf m ho hd hm]
    simp

/-- After a write: the type's row, and the others as they were. -/
lemma mem_writeResource {rt r'}
    (hr : r' ∈ (p.writeResource rt content).stampMaterialized.resources) :
    (r' ∈ p.resources ∧ r'.resourceType ≠ rt) ∨
      ∃ r ∈ p.resources, r.resourceType = rt ∧
        r' = { r with content := some content, written := true } := by
  rw [stampMaterialized_resources] at hr
  obtain ⟨r, hb, rfl⟩ := List.mem_map.1 hr
  by_cases hh : r.resourceType = rt
  · exact .inr ⟨r, hb, hh, if_pos hh⟩
  · rw [if_neg hh]
    exact .inl ⟨hb, hh⟩

lemma written_sound {rt} (hc : d.Calm (.write id rt content))
    (hf : d.store.photo id = some p) (row : p.Sound d.store d.mesh) :
    (p.writeResource rt content).stampMaterialized.Sound d.store d.mesh := by
  have hn : p.photoId = id := (mem_of_photo hf).2
  have hh := p.writeResource_eq rt content
  have hp : (p.writeResource rt content).stampMaterialized.published = p.published := by rw [hh]
  refine ⟨types_written rt content row.types, ?_, fun r' hr hk hw => ?_, ?_, ?_,
    fun _ => completes_stampMaterialized _, ?_, fun m ho => ?_⟩
  · rw [hh]
    exact row.own
  · rcases mem_writeResource hr with ⟨hb, _⟩ | ⟨r, hb, _, rfl⟩
    · exact row.hashed r' hb hk hw
    · simp [contentHash]
  · rw [hh]
    exact row.untold
  · rw [hh]
    exact row.onMesh
  · rw [hp]
    intro published
    have hs := publishLibrary_congr (s := d.store) rfl
      (show (p.writeResource rt content).stampMaterialized.libraryId = p.libraryId by rw [hh])
    rw [hs]
    exact row.publishes published
  · have ho : d.mesh.photos p.photoId = some m := by
      rw [hh] at ho
      exact ho
    have told := row.told m ho
    refine ⟨?_, fun r' hr hk hw ht' => ?_⟩
    · rw [hh]
      exact told.tombstone
    · rw [hp] at ht'
      rcases mem_writeResource hr with ⟨hb, _⟩ | ⟨r, hb, ht, rfl⟩
      · exact told.bytes r' hb hk hw ht'
      · have hro : p.resource rt = some r := ht ▸ resource_of_mem row.types hb
        rw [ht]
        exact hc p hf r hro m (hn ▸ ho) ht'

lemma renewed_sound {desc p'} (row : p.Sound d.store d.mesh) (hre : p.Renewed d.store desc p')
    (hst : p.libraryId ≠ none → d.store.resolveScope desc.scope = none ∨
      d.store.resolveScope desc.scope = p.libraryId)
    (hk : p.published → p.KeepsThumbnails desc)
    (hc : ∀ m ∈ d.mesh.photos p.photoId, p.deletedAt.isSome → p.tombstonePublished = false →
      m.tombstoned = false) :
    p'.Sound d.store d.mesh := by
  have hd := hre.described
  have hn : p'.photoId = p.photoId := by rw [hd.same]
  have own : p'.consensusPhotoId = p.consensusPhotoId := by rw [hd.same]
  have hp : p'.published = p.published := by rw [hd.same]
  have hma : p'.tombstonePublished = p.tombstonePublished := by rw [hd.same]
  refine ⟨hd.types row.types, own.trans row.own, fun r hr kept hw => ?_, ?_, ?_, ?_, ?_, ?_⟩
  · exact row.hashed r (hd.rows r hr kept hw) kept hw
  · rw [hp, hma]
    exact row.untold
  · rw [hp, hn]
    exact row.onMesh
  · rw [hp]
    exact fun published => hre.completes (hk published) (row.completes published)
  · rw [hp]
    intro published
    have ht := row.publishes published
    have hb : p.libraryId ≠ none := fun hu => by
      rw [publishLibrary, hu] at ht
      cases ht
    have hl : p'.libraryId = p.libraryId := by
      rcases hd.library with same | ⟨hs, hmd⟩
      · exact same
      · rcases hst hb with hu | same
        · exact absurd (hs.trans hu) hmd
        · exact hs.trans same
    rw [publishLibrary_congr rfl hl]
    exact ht
  · rw [hn]
    intro m ho
    have told := row.told m ho
    refine ⟨fun hm => ?_, fun r hr kept hw => ?_⟩
    · rw [hma] at hm
      rcases hd.deleted with same | hrd
      · rw [same] at hm ⊢
        exact told.tombstone hm
      · rw [hrd] at hm ⊢
        cases hde : p.deletedAt with
        | none =>
          rw [told.tombstone (by rw [hde]; exact hm), hde]
        | some at_ => exact hc m ho (by rw [hde]; rfl) hm
    · rw [hp]
      exact told.bytes r (hd.rows r hr kept hw) kept hw

lemma newPhoto_sound (s : StateStore) {minted} (now : Nat) (desc : AssetDescriptor)
    (library : Option LibraryId) (hf : mesh.photos minted = none) :
    (newPhoto minted now desc library).Sound s mesh := by
  obtain ⟨hd, hpe⟩ := newPhoto_resources minted now desc library
  have hu : (newPhoto minted now desc library).published ≠ true := Bool.false_ne_true
  refine ⟨hd, rfl, fun r hr _ hw => ?_, fun _ => rfl, fun hp => absurd hp hu,
    fun hp => absurd hp hu, fun hp => absurd hp hu, fun m ho => ?_⟩
  · cases (hpe r hr).2.symm.trans hw
  · cases hf.symm.trans ho

lemma Holds.submitTombstone {photo reply} (hh : d.Holds soundRows)
    (hc : Claim.tombstone photo ∈ d.claims) (calm : d.Calm (.submit (.tombstone photo) reply)) :
    (d.submitTombstone photo reply).Holds soundRows := by
  obtain ⟨_, p, hf, hp, own⟩ := hh.claims _ hc
  have hn : p.photoId = photo.photoId := (mem_of_photo hf).2
  have row : p.Sound d.store d.mesh := hh.photos _ p hf
  obtain ⟨m, ho⟩ := row.onMesh hp
  have ht : d.mesh.setTombstone photo.consensusId photo.deletedAt.isSome =
      d.mesh.setPhoto p.photoId { m with tombstoned := photo.deletedAt.isSome } := by
    rw [consensusId, own, getD_none, setTombstone, ← hn, ho]
  have he : ∀ other ≠ photo.photoId, _ := fun _ ha =>
    setPhoto_of_ne d.mesh { m with tombstoned := photo.deletedAt.isSome } (hn ▸ ha)
  have here := setPhoto_self d.mesh p.photoId { m with tombstoned := photo.deletedAt.isSome }
  have hot := row.told m ho
  unfold Device.submitTombstone
  rw [ht]
  cases reply with
  | refused => exact hh
  | lost =>
    exact hh.replace hf (.refl hf) (elsewhere_sound he)
      (row.onto here ⟨fun _ => (calm p hf).symm, hot.bytes⟩) fun _ _ _ fits => fits
  | ok =>
    have hm : (if photo.deletedAt.isSome then markTombstonePublished
        else clearTombstonePublished) =
          fun p : PhotoRecord => { p with tombstonePublished := photo.deletedAt.isSome } := by
      cases photo.deletedAt.isSome <;> rfl
    simp only [hm]
    refine hh.replace hf
      (.update (fun p => { p with tombstonePublished := photo.deletedAt.isSome }) hf
        (fun _ hi => hi) rfl rfl)
      (elsewhere_sound he) ?_ fun _ _ _ => soundRows.fits rfl ⟨rfl, rfl, rfl, rfl⟩
    refine { row with untold := fun hu => ?_, onMesh := fun _ => ⟨_, here⟩, told :=
      fun m' ho' => ?_ }
    · cases hp.symm.trans hu
    · cases here.symm.trans ho'
      exact ⟨fun hs => hs, hot.bytes⟩

end Device

section

variable {r : ResourceRecord}

lemma PhotoRecord.Sound.restamped {m} (row : p.Sound s mesh) (hs : p.Restamped p')
    (hp : p'.published = true)
    (hc : p.materialized) (hta : (s.publishLibrary p).isSome) (ho : mesh'.photos p.photoId = some m)
    (ht : p.tombstonePublished = p.deletedAt.isSome → m.tombstoned = p.deletedAt.isSome)
    (hby : ∀ r ∈ p.resources, r.removed = false → r.written →
      m.resources r.resourceType = r.contentHash) :
    p'.Sound s mesh' := by
  have hn : p'.photoId = p.photoId := by rw [hs.same]
  have hl : p'.libraryId = p.libraryId := by rw [hs.same]
  refine ⟨hs.types row.types, ?_, fun r' hr hk hw => ?_, fun hu => ?_, fun _ => ?_,
    fun _ _ => ?_, fun _ => ?_, fun m' ho' => ?_⟩
  · rw [hs.same]
    exact row.own
  · obtain ⟨r, hb, same⟩ := hs.rows r' hr
    rw [same] at hk hw ⊢
    exact row.hashed r hb hk hw
  · cases hp.symm.trans hu
  · exact ⟨m, hn.symm ▸ ho⟩
  · rw [hs.same]
    exact hc
  · exact publishLibrary_congr rfl hl ▸ hta
  · cases (hn ▸ ho).symm.trans ho'
    refine ⟨?_, fun r' hr hk hw _ => ?_⟩
    · rw [hs.same]
      exact ht
    · obtain ⟨r, hb, same⟩ := hs.rows r' hr
      rw [same] at hk hw ⊢
      exact hby r hb hk hw

lemma PhotoRecord.Sound.markPublished {m} (row : p.Sound s mesh) (hc : p.materialized)
    (ht : (s.publishLibrary p).isSome) (ho : mesh.photos p.photoId = some m) :
    p.markPublished.Sound s mesh := by
  cases hp : p.published with
  | true =>
    rw [markPublished_of_published hp]
    exact row
  | false =>
    have told := row.told m ho
    exact row.restamped (restamped_markPublished hp) p.published_markPublished hc ht ho
      told.tombstone fun r hr hk hw => told.bytes r hr hk hw (.inl hp)

lemma PhotoRecord.Sound.stored (row : p.Sound s mesh) (hr : r ∈ p.resources)
    (hk : r.removed = false) (hw : r.written) : ∃ content, r.content = some content := by
  have hh := row.hashed r hr hk hw
  cases hs : r.content with
  | none =>
    rw [contentHash, hs] at hh
    exact absurd rfl hh
  | some content => exact ⟨content, rfl⟩

lemma sentHash_assembleItem {photo item} (row : p.Sound s mesh)
    (hf : s.photo photo.photoId = some p) (ran : s.assembleItem photo = .ok item)
    (hr : r ∈ p.resources) (hk : r.removed = false) (hw : r.written) :
    sentHash item.resources r.resourceType = r.contentHash := by
  obtain ⟨_, _, sent⟩ := assembleItem_sent hf ran
  obtain ⟨content, hs⟩ := row.stored hr hk hw
  rw [contentHash, hs]
  refine sentHash_eq_some ⟨⟨r.resourceType, content⟩, (sent _).2 ⟨r, hr, hk, hw, rfl, hs⟩, rfl⟩
    fun e hse ht => ?_
  obtain ⟨r', hr', _, _, ht', hs'⟩ := (sent e).1 hse
  cases eq_of_type row.types hr hr' (ht.symm.trans ht'.symm)
  cases hs.symm.trans hs'
  rfl

/-- The bytes after an edit: a live written row's where its marker was behind, else the old ones. -/
lemma editedResources_assembleEditItem {photo item}
    (row : p.Sound s mesh) (hf : s.photo photo.photoId = some p)
    (ran : s.assembleEditItem photo = .ok item)
    (hr : r ∈ p.resources) (hk : r.removed = false) (hw : r.written)
    (resources : ResourceType → Option ContentHash) :
    editedResources resources item.resources item.removals r.resourceType =
      if r.publishedContentHash = r.contentHash then resources r.resourceType
        else r.contentHash := by
  obtain ⟨_, _, removals, sent⟩ := assembleEditItem_sent hf ran
  have hst : r.resourceType ∉ item.removals := by
    rw [removals]
    intro ho
    obtain ⟨r', hr', ht, hre⟩ := mem_pendingRemovals ho
    cases eq_of_type row.types hr hr' ht.symm
    cases hk.symm.trans hre
  have hro : ∀ e ∈ item.resources, e.resourceType = r.resourceType →
      r.publishedContentHash ≠ r.contentHash ∧ r.content = some e.content := by
    intro e hse ht
    obtain ⟨r', hr', _, _, hb, ht', hs⟩ := (sent e).1 hse
    cases eq_of_type row.types hr hr' (ht.symm.trans ht'.symm)
    exact ⟨hb, hs⟩
  rw [editedResources, if_neg hst]
  split_ifs with hc
  · rw [sentHash_eq_none fun e hse ht => (hro e hse ht).1 hc]
    rfl
  · obtain ⟨content, hs⟩ := row.stored hr hk hw
    have hp : (⟨r.resourceType, content⟩ : SentResource) ∈ item.resources :=
      (sent _).2 ⟨r, hr, hk, hw, hc, rfl, hs⟩
    have hh : sentHash item.resources r.resourceType = some content.hash :=
      sentHash_eq_some ⟨_, hp, rfl⟩ fun e hse ht => by
        cases hs.symm.trans (hro e hse ht).2
        rfl
    rw [hh, contentHash, hs]
    rfl

end

namespace Device

variable {photo : PhotoRecord} {reply : Reply} {c : Claim} {event : DeviceEvent}

/-- A publish's stamp leaves the row what the other claims are for. -/
lemma fits_restamped {q s} (hf : c.Fits s p) (hs : p.Restamped q)
    (hp : q.published = true) : c.Fits s q := by
  have hl : q.libraryId = p.libraryId := by rw [hs.same]
  have materialized : q.materialized = p.materialized := by rw [hs.same]
  cases c with
  | publish photo => exact ⟨materialized.trans hf.1, publishLibrary_congr rfl hl ▸ hf.2⟩
  | tombstone photo => exact ⟨hp, hf.2⟩
  | edit photo => exact ⟨hp, hf.2.1, materialized.trans hf.2.2⟩

lemma fits_markPublished {s} (hf : c.Fits s p) : c.Fits s p.markPublished := by
  cases hp : p.published with
  | true =>
    rw [markPublished_of_published hp]
    exact hf
  | false => exact fits_restamped hf (restamped_markPublished hp) p.published_markPublished

lemma Holds.markPublished {m} (hh : d.Holds soundRows)
    (hcl : Claim.publish photo ∈ d.claims) (ho : d.mesh.photos photo.photoId = some m) :
    (d.mark photo.photoId PhotoRecord.markPublished).Holds soundRows := by
  obtain ⟨_, p, hf, hc, ht⟩ := hh.claims _ hcl
  have hn : p.photoId = photo.photoId := (mem_of_photo hf).2
  refine hh.replace hf
    (.update PhotoRecord.markPublished hf (fun p hi => p.milder_markPublished.photoId.trans hi)
    rfl rfl) (fun _ _ _ _ row => row) ?_ fun c _ _ fits => fits_markPublished fits
  exact PhotoRecord.Sound.markPublished (hh.photos _ p hf) hc ht (hn ▸ ho)

lemma Holds.submitPublish (hh : d.Holds soundRows)
    (hc : Claim.publish photo ∈ d.claims) (ran : d.submitPublish photo reply = some d') :
    d'.Holds soundRows := by
  obtain ⟨_, p, hf, hco, ht⟩ := hh.claims _ hc
  have hn : p.photoId = photo.photoId := (mem_of_photo hf).2
  have row : p.Sound d.store d.mesh := hh.photos _ p hf
  unfold Device.submitPublish at ran
  split at ran
  · cases ran
  rename_i item ha
  split_ifs at ran with ho
  · cases ran
    obtain ⟨m, ho⟩ := isSome_iff_exists.1 ho
    exact hh.markPublished hc ho
  have hp := (assembleItem_sent hf ha).1
  have he : ∀ other, other ≠ photo.photoId →
      (d.mesh.photoAdd item).photos other = d.mesh.photos other := fun _ hap =>
    setPhoto_of_ne _ _ (hp.symm ▸ hap)
  have here : (d.mesh.photoAdd item).photos p.photoId =
      some ⟨item.library.meshLibraryId, false, sentHash item.resources⟩ := by
    rw [hn, photoAdd, hp]
    exact setPhoto_self ..
  have hu : p.published = false := by
    by_contra hpu
    obtain ⟨m, hth⟩ := row.onMesh (by simpa using hpu)
    exact ho (by rw [← hn, hth]; rfl)
  have had : p.Sound d.store (d.mesh.photoAdd item) :=
    row.onto here ⟨fun hm => (row.untold hu).symm.trans hm,
      fun r hre hk hw _ => sentHash_assembleItem row hf ha hre hk hw⟩
  split at ran
  · cases ran
  · cases ran
    exact hh.replace hf
      (.update PhotoRecord.markPublished hf
        (fun p hi => p.milder_markPublished.photoId.trans hi) rfl rfl)
      (elsewhere_sound he) (had.markPublished hco ht here) fun c _ _ fits => fits_markPublished fits
  · cases ran
    exact hh.replace hf (.refl hf) (elsewhere_sound he) had fun _ _ _ fits => fits
  · cases ran
    exact hh

lemma Holds.submitEdit (hh : d.Holds soundRows)
    (hcl : Claim.edit photo ∈ d.claims) (ran : d.submitEdit photo reply = some d') :
    d'.Holds soundRows := by
  obtain ⟨_, p, hf, hpu, own, hco⟩ := hh.claims _ hcl
  have hf : d.store.photo photo.photoId = some p := hf
  have hn : p.photoId = photo.photoId := (mem_of_photo hf).2
  have row : p.Sound d.store d.mesh := hh.photos _ p hf
  unfold Device.submitEdit at ran
  split at ran
  · cases ran
  rename_i item ha
  cases hp : d.mesh.publishEdit d.user item with
  | error refusal =>
    simp only [hp] at ran
    cases ran
  | ok edit =>
    simp only [hp] at ran
    obtain ⟨users, _, rfl⟩ := publishEdit_ok hp
    have hph : item.consensusPhotoId = photo.photoId := by
      rw [(assembleEditItem_sent hf ha).1, consensusId, own]
      rfl
    -- what an applied edit does to the mesh
    have hap : ∀ mesh', d.mesh.photoEdit ⟨item.consensusPhotoId, item.resources,
        item.removals, users, if item.metadataChanged then some users else none⟩ = some mesh' →
        ∃ m, d.mesh.photos p.photoId = some m ∧
          (∀ other ≠ photo.photoId, mesh'.photos other = d.mesh.photos other) ∧
          mesh'.photos p.photoId =
            some { m with resources :=
              editedResources m.resources item.resources item.removals } := by
      intro mesh' he
      obtain ⟨m, ho, rfl⟩ := photoEdit_eq_some he
      simp only [hph] at ho ⊢
      rw [hn]
      exact ⟨m, ho, fun _ hat => setPhoto_of_ne _ _ hat, setPhoto_self ..⟩
    cases reply with
    | refused =>
      cases ran
      exact hh
    | lost =>
      obtain ⟨mesh', he, rfl⟩ := map_eq_some_iff.1 ran
      obtain ⟨m, ho, hel, here⟩ := hap mesh' he
      refine hh.replace hf (.refl hf) (elsewhere_sound hel)
        (row.onto here ⟨(row.told m ho).tombstone, fun r hr hk hw ht => ?_⟩) fun _ _ _ fits => fits
      rcases ht with hu | hc
      · cases hpu.symm.trans hu
      · show editedResources .. = _
        rw [editedResources_assembleEditItem row hf ha hr hk hw, if_pos hc]
        exact (row.told m ho).bytes r hr hk hw (.inr hc)
    | ok =>
      obtain ⟨mesh', he, rfl⟩ := map_eq_some_iff.1 ran
      obtain ⟨m, ho, hel, here⟩ := hap mesh' he
      obtain ⟨hst, hm⟩ := restamped_markEditPublished p item
      have hs := hm.trans hpu
      refine hh.replace hf
        (.update (fun p => p.markEditPublished item) hf (fun p hi => ?_) rfl rfl)
          (elsewhere_sound hel)
        (row.restamped hst hs hco (row.publishes hpu) here
        (row.told m ho).tombstone fun r hr hk hw => ?_) fun c _ _ fits => fits_restamped fits hst hs
      · rw [(restamped_markEditPublished p item).1.same]
        exact hi
      · show editedResources .. = _
        rw [editedResources_assembleEditItem row hf ha hr hk hw]
        split_ifs with hc
        · exact (row.told m ho).bytes r hr hk hw (.inr hc)
        · rfl

lemma soundRows_rules : soundRows.Rules fun d event => d.Settled event ∧ d.Calm event where
  minted := fun now desc library hf => newPhoto_sound _ now desc library hf
  renewed := fun ha he hr row => renewed_sound row hr (ha.1 _ he) (ha.2 _ he).1 (ha.2 _ he).2
  tombstoned := fun ha => tombstoned_sound ha.2
  written := fun ha => written_sound ha.2
  described := fun row => { row with told := fun m ho => { row.told m ho with } }
  bound := fun _ _ row => { row with told := fun m ho => { row.told m ho with } }
  claimed := by
    intro s mesh c ha row
    cases c with
    | publish photo => exact ⟨ha.2.2.2.1, ha.2.1⟩
    | tombstone photo => exact ⟨ha.2.1, row.own⟩
    | edit photo => exact ⟨ha.2.2.1, row.own, ha.2.2.2.1⟩
  adopted := by
    intro d photo remote m hh hc ha ho _
    have how : remote = photo.photoId := ha.1
    have hst : d.adopt photo remote = d.mark photo.photoId PhotoRecord.markPublished := by
      rw [Device.adopt]
      simp only [if_pos how]
    rw [hst]
    exact hh.markPublished hc (how ▸ ho)
  submitted := by
    intro d d' claim reply hh hc ha ran
    cases claim with
    | publish photo => exact hh.submitPublish hc ran
    | tombstone photo =>
      cases ran
      exact hh.submitTombstone hc ha.2
    | edit photo => exact hh.submitEdit hc ran

/-- On every run whose steps all meet their condition, a photo in no queue is on the mesh as it is
here. -/
theorem converged_of_calm {user : Int} {libraries : List LibraryConfig} {mesh : Mesh}
    {past : List DeviceEvent} {d : Device}
    (run : Reaches (fun (d : Device) event d' => d.Step event d' ∧ d.Settled event ∧ d.Calm event)
      (start user libraries mesh) past d) : d.Converged := by
  have hh : d.Holds soundRows := run.invariant_state (Device.Holds soundRows)
    (holds_start soundRows user libraries mesh) fun _ _ _ inv ht =>
      inv.step soundRows_rules ht.2 ht.1
  exact hh.converged

end Device

def emptyMesh : Mesh := ⟨fun _ => none, fun _ => [], fun _ => []⟩

/-- The row of `plainAsset`, its original written and its capsule there, published or not. -/
def plainPhoto (published : Bool) (deletedAt : Option Nat) (tombstonePublished : Bool) :
    PhotoRecord :=
  ⟨⟨1⟩, some "personal", some "A", some "a", 0, none, true, true, published, none, deletedAt,
    tombstonePublished, none,
    [⟨.original, some (sameBytes "heic"), true, if published then some (sameBytes "heic").hash
      else none, false⟩]⟩

/-- The asset is seen and published, and deleted in Photos. -/
def publishedThenDeleted : List DeviceEvent :=
  [.descriptor (plainAsset "a" "A") ⟨1⟩ 0 .finished, .write ⟨1⟩ .original (sameBytes "heic"),
    .describe ⟨1⟩,
    .beginPass [.publish (plainPhoto false none false)],
    .submit (.publish (plainPhoto false none false)) .ok, .endPass,
    .tombstone ⟨1⟩ 5, .beginPass [.tombstone (plainPhoto true (some 5) false)]]

/-- The delete is applied though it returned an error; the asset is restored before the next
pass. -/
def lostDeleteThenRestore : List DeviceEvent :=
  publishedThenDeleted ++ [.submit (.tombstone (plainPhoto true (some 5) false)) .lost, .endPass,
    .descriptor (plainAsset "a" "A") ⟨2⟩ 9 .finished]

/-- The same with the delete acknowledged; the restore is propagated. -/
def deleteThenRestore : List DeviceEvent :=
  publishedThenDeleted ++ [.submit (.tombstone (plainPhoto true (some 5) false)) .ok, .endPass,
    .descriptor (plainAsset "a" "A") ⟨2⟩ 9 .finished,
    .beginPass [.tombstone (plainPhoto true none true)],
    .submit (.tombstone (plainPhoto true none true)) .ok, .endPass]

/-- A restored photo is in no queue, and stays deleted on the mesh. -/
theorem restored_photo_deleted_on_mesh : ∃ d : Device,
    Reaches (fun (d : Device) event d' => d.Step event d' ∧ d.Settled event)
    (.start 1 [personalLibrary] emptyMesh)
      lostDeleteThenRestore d ∧ ¬ d.Converged := by
  exact Reaches.exists_of_guarded id (by decide +kernel)

theorem propagated_restore_converged : ∃ d : Device,
    Reaches (fun (d : Device) event d' => d.Step event d' ∧ d.Settled event ∧ d.Calm event)
      (.start 1 [personalLibrary] emptyMesh) deleteThenRestore d ∧
    d.Converged ∧ plainPhoto true none false ∈ d.store.photos := by
  refine Exists.imp (fun d h => ⟨h.1, Device.converged_of_calm h.1, h.2⟩)
    (Reaches.exists_of_guarded id ?_)
  decide +kernel

end HopNet.Ingress
