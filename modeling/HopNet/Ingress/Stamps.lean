import HopNet.Ingress.Applied
import HopNet.Ingress.Device

namespace HopNet.Ingress

open List Fallible Table ResourceRecord

namespace Mesh

lemma setPhoto_self (m : Mesh) (id : PhotoId) (photo : MeshPhoto) :
    (m.setPhoto id photo).photos id = some photo :=
  Function.update_self ..

lemma setPhoto_of_ne (m : Mesh) {id other} (photo : MeshPhoto) (ha : other ≠ id) :
    (m.setPhoto id photo).photos other = m.photos other :=
  Function.update_of_ne ha ..

lemma sentHash_eq_none {sent rt} (ha : ∀ e ∈ sent, e.resourceType ≠ rt) :
    sentHash sent rt = none := by
  rw [sentHash, Option.map_eq_none_iff, lookup_eq_none]
  rintro ⟨e, hs, ht⟩
  exact ha e hs ht

lemma sentHash_eq_some {sent rt hash} (hp : ∃ e ∈ sent, e.resourceType = rt)
    (ho : ∀ e ∈ sent, e.resourceType = rt → e.content.hash = hash) :
    sentHash sent rt = some hash := by
  cases hf : lookup SentResource.resourceType rt sent with
  | none => exact absurd hp (lookup_eq_none.1 hf)
  | some e =>
    rw [sentHash, hf, Option.map_some, ho e (mem_of_lookup hf) (key_of_lookup hf)]

variable {mesh mesh' : Mesh} {user : Int}

lemma publishEdit_ok {item edit} (ran : mesh.publishEdit user item = .ok edit) :
    ∃ users, mesh.readLibraryMembership user item.library.meshLibraryId = .ok users ∧
      edit = ⟨item.consensusPhotoId, item.resources, item.removals, users,
        if item.metadataChanged then some users else none⟩ := by
  simp only [publishEdit, bind_eq_ok, pure_eq_ok, require_eq_ok] at ran
  obtain ⟨_, _, users, hr, _, _, _, _, rfl⟩ := ran
  exact ⟨users, hr, rfl⟩

lemma photoEdit_eq_some {edit} (ran : mesh.photoEdit edit = some mesh') :
    ∃ photo, mesh.photos edit.photoId = some photo ∧ mesh' = mesh.setPhoto edit.photoId
      { photo with resources := editedResources photo.resources edit.resources edit.removals } := by
  unfold photoEdit at ran
  split at ran
  · next photo hf =>
      split_ifs at ran
      cases ran
      exact ⟨photo, hf, rfl⟩
  · cases ran

end Mesh

namespace StateStore

variable {s : StateStore} {p photo : PhotoRecord}

lemma mem_sentResources {rows sent} (ran : sentResources rows = .ok sent) (e : SentResource) :
    e ∈ sent ↔ ∃ r ∈ rows, r.resourceType = e.resourceType ∧ r.content = some e.content := by
  induction rows generalizing sent with
  | nil =>
    cases ran
    simp
  | cons r rest ih =>
    simp only [sentResources, mapM_cons, bind_eq_ok, pure_eq_ok] at ran
    obtain ⟨first, hs, others, hso, rfl⟩ := ran
    rw [mem_cons, ih hso, exists_mem_cons_iff]
    refine or_congr_left ?_
    cases content : r.content with
    | none =>
      simp only [content] at hs
      cases hs
    | some c =>
      simp only [content] at hs
      cases hs
      constructor
      · rintro rfl
        exact ⟨rfl, rfl⟩
      · rintro ⟨ht, same⟩
        cases e
        cases ht
        cases same
        rfl

lemma evictBlobs_photos (s : StateStore) (limit : Nat) :
    (s.evictBlobs limit).photos = s.photos ∧ (s.evictBlobs limit).libraries = s.libraries := by
  unfold evictBlobs
  generalize s.evictableBlobs limit = blobs
  induction blobs generalizing s with
  | nil => exact ⟨rfl, rfl⟩
  | cons b rest ih => exact ih _

lemma IsEventPhoto.resolved {desc} (he : s.IsEventPhoto desc p) : p ∈ s.resolveEventPhoto desc := by
  obtain ⟨cloudId, hc, hf⟩ := he
  rw [resolveEventPhoto, hc]
  exact hf

lemma currentRows_of_found (hf : s.photo photo.photoId = some p) :
    s.currentRows photo.photoId = p.liveResources := by
  rw [currentRows, hf]
  rfl

/-- A publish carries every live written row of the photo. -/
lemma assembleItem_sent {item} (hf : s.photo photo.photoId = some p)
    (ran : s.assembleItem photo = .ok item) :
    item.photo = photo ∧ s.assembleLibrary photo = .ok item.library ∧ ∀ e, e ∈ item.resources ↔
      ∃ r ∈ p.resources, r.removed = false ∧ r.written ∧ r.resourceType = e.resourceType ∧
        r.content = some e.content := by
  simp only [assembleItem, bind_eq_ok, pure_eq_ok, require_eq_ok] at ran
  obtain ⟨library, ha, resources, hs, _, _, rfl⟩ := ran
  refine ⟨rfl, ha, fun e => ?_⟩
  rw [mem_sentResources hs, currentRows_of_found hf]
  simp only [mem_filter, PhotoRecord.mem_liveResources, and_assoc]

/-- An edit carries every live written row that is not its marker's, and the removals. -/
lemma assembleEditItem_sent {item} (hf : s.photo photo.photoId = some p)
    (ran : s.assembleEditItem photo = .ok item) :
    item.consensusPhotoId = photo.consensusId ∧ s.assembleLibrary photo = .ok item.library ∧
      item.removals = p.pendingRemovals ∧ ∀ e, e ∈ item.resources ↔
        ∃ r ∈ p.resources, r.removed = false ∧ r.written ∧
        r.publishedContentHash ≠ r.contentHash ∧ r.resourceType = e.resourceType ∧
        r.content = some e.content := by
  simp only [assembleEditItem, bind_eq_ok, pure_eq_ok, require_eq_ok] at ran
  obtain ⟨library, ha, resources, hs, _, _, rfl⟩ := ran
  refine ⟨rfl, ha, ?_, fun e => ?_⟩
  · rw [hf]
    rfl
  · rw [mem_sentResources hs, currentRows_of_found hf]
    simp only [mem_filter, PhotoRecord.mem_liveResources, decide_eq_true_eq, and_assoc]

end StateStore

namespace PhotoRecord

variable {p : PhotoRecord} {r r' : ResourceRecord}

lemma mem_pendingRemovals {rt} (ho : rt ∈ p.pendingRemovals) :
    ∃ r ∈ p.resources, r.resourceType = rt ∧ r.removed := by
  obtain ⟨r, hr, hc⟩ := any_eq_true.1 (mem_filter.1 ho).2
  rw [decide_eq_true_eq] at hc
  exact ⟨r, hr, hc.1, hc.2.1⟩

lemma eq_of_type (hd : p.TypesDistinct) (hr : r ∈ p.resources)
    (hr' : r' ∈ p.resources) (hs : r.resourceType = r'.resourceType) : r = r' :=
  inj_on_of_nodup_map hd hr hr' hs

/-- Only markers of the photo changed, and rows were dropped. -/
structure Restamped (p p' : PhotoRecord) : Prop where
  same : p' =
    { p with
      published := p'.published
      publishedAssetModifiedAt := p'.publishedAssetModifiedAt
      resources := p'.resources }
  rows : ∀ r' ∈ p'.resources, ∃ r ∈ p.resources,
    r' = { r with publishedContentHash := r'.publishedContentHash }
  types : p.TypesDistinct → p'.TypesDistinct

lemma markPublished_of_published (hp : p.published = true) : p.markPublished = p := by
  rw [markPublished, hp]
  rfl

lemma published_markPublished (p : PhotoRecord) : p.markPublished.published = true := by
  unfold markPublished
  split_ifs with hp
  · exact hp
  · rfl

lemma restamped_stampResourceBaseline (p : PhotoRecord) : p.Restamped p.stampResourceBaseline := by
  have hs : ∀ r : ResourceRecord, (if r.removed = false ∧ r.written then
        { r with publishedContentHash := r.contentHash } else r) =
      { r with publishedContentHash :=
          (if r.removed = false ∧ r.written then { r with publishedContentHash := r.contentHash }
            else r).publishedContentHash } := fun r => by
    split_ifs <;> rfl
  refine ⟨rfl, fun r' hr => ?_, fun hd => ?_⟩
  · obtain ⟨r, hb, rfl⟩ := mem_map.1 hr
    exact ⟨r, hb, hs r⟩
  · rw [TypesDistinct, stampResourceBaseline, map_map]
    have ht := map_congr_left (l := p.resources) fun r _ => congrArg resourceType (hs r)
    exact ht ▸ hd

lemma restamped_markPublished (hu : p.published = false) : p.Restamped p.markPublished := by
  have hs : p.markPublished =
      ({ p with published := true, publishedAssetModifiedAt := p.assetModifiedAt } :
        PhotoRecord).stampResourceBaseline := by
    rw [markPublished, hu]
    rfl
  have hb := restamped_stampResourceBaseline
    ({ p with published := true, publishedAssetModifiedAt := p.assetModifiedAt } : PhotoRecord)
  rw [hs]
  exact { hb with }

lemma stamping (sent : List SentResource) (p : PhotoRecord) :
    ∃ stamp : ResourceRecord → ResourceRecord,
    (∀ r, stamp r = { r with publishedContentHash := (stamp r).publishedContentHash }) ∧
      sent.foldl (fun p e => p.markResourceEditPublished e.resourceType e.content.hash) p =
        { p with resources := p.resources.map stamp } := by
  induction sent generalizing p with
  | nil =>
    refine ⟨id, fun r => rfl, ?_⟩
    rw [map_id]
    rfl
  | cons e rest ih =>
    obtain ⟨stamp, hs, same⟩ := ih (p.markResourceEditPublished e.resourceType e.content.hash)
    refine ⟨fun r => stamp
      (if r.resourceType = e.resourceType then
      { r with publishedContentHash := some e.content.hash } else r), fun r => ?_, ?_⟩
    · by_cases hh : r.resourceType = e.resourceType
      · simp only [if_pos hh]
        exact hs _
      · simp only [if_neg hh]
        exact hs r
    · rw [foldl_cons, same]
      show ({ p with resources := (modify _ _ _ p.resources).map stamp } : PhotoRecord) = _
      rw [Table.modify, map_map]
      rfl

lemma finishing (removals : List ResourceType) (p : PhotoRecord) : ∃ keep : ResourceRecord → Bool,
    removals.foldl finishResourceRemoval p = { p with resources := p.resources.filter keep } := by
  induction removals generalizing p with
  | nil => exact ⟨fun _ => true, by rw [filter_true]; rfl⟩
  | cons rt rest ih =>
    obtain ⟨keep, hs⟩ := ih (p.finishResourceRemoval rt)
    refine ⟨fun r => keep r && decide (¬ (r.resourceType = rt ∧ r.removed)), ?_⟩
    rw [foldl_cons, hs, ← filter_filter]
    rfl

lemma restamped_markEditPublished (p : PhotoRecord) (item : EditItem) :
    p.Restamped (p.markEditPublished item) ∧
    (p.markEditPublished item).published = p.published := by
  obtain ⟨stamp, stamped, stamping⟩ := stamping item.resources p
  obtain ⟨keep, finishing⟩ := finishing item.removals { p with resources := p.resources.map stamp }
  have marked : p.markEditPublished item =
      { p with
        publishedAssetModifiedAt :=
          if item.metadataChanged then p.assetModifiedAt else p.publishedAssetModifiedAt
        resources := (p.resources.map stamp).filter keep } := by
    show (if item.metadataChanged then markMetadataPublished
      (item.removals.foldl finishResourceRemoval
      (item.resources.foldl (fun p e => p.markResourceEditPublished e.resourceType e.content.hash)
        p)) else _) = _
    rw [stamping, finishing]
    split_ifs <;> rfl
  rw [marked]
  refine ⟨⟨rfl, fun r' inResources => ?_, fun distinct => ?_⟩, rfl⟩
  · obtain ⟨r, before, rfl⟩ := mem_map.1 (mem_of_mem_filter inResources)
    exact ⟨r, before, stamped r⟩
  · have types : (p.resources.map stamp).map resourceType =
    p.resources.map resourceType := by
      refine map_key_map fun r _ => ?_
      rw [stamped r]
    rw [TypesDistinct, ← types] at distinct
    exact distinct.sublist (filter_sublist.map _)

end PhotoRecord

end HopNet.Ingress
