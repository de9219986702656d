import HopNet.Ingress.Seeding

namespace HopNet.Ingress

open List Fallible Table PhotoRecord

variable {s s' s'' : StateStore} {p q : PhotoRecord} {id : PhotoId}

namespace StateStore

/-- One row was replaced, and nothing else of the photos or the libraries. -/
structure Replaces (id : PhotoId) (p : PhotoRecord) (s s' : StateStore) : Prop where
  libraries : s'.libraries = s.libraries
  ids : s'.photos.map photoId = s.photos.map photoId
  photo : ∀ wanted, s'.photo wanted = if wanted = id then some p else s.photo wanted

lemma Replaces.refl (hf : s.photo id = some p) : Replaces id p s s := by
  refine ⟨rfl, rfl, fun wanted => ?_⟩
  split_ifs with hh
  · rw [hh, hf]
  · rfl

lemma Replaces.trans (hf : Replaces id p s s') (hs : Replaces id q s' s'') :
    Replaces id q s s'' := by
  refine ⟨hs.libraries.trans hf.libraries, hs.ids.trans hf.ids, fun wanted => ?_⟩
  rw [hs.photo, hf.photo]
  split_ifs <;> rfl

lemma Replaces.found (hr : Replaces id p s s') : s'.photo id = some p := by
  rw [hr.photo, if_pos rfl]

/-- `UPDATE photos … WHERE photo_id = ?` of a row that is there. -/
lemma Replaces.update (change : PhotoRecord → PhotoRecord) (hf : s.photo id = some p)
    (hk : ∀ p, p.photoId = id → (change p).photoId = id) (hl : s'.libraries = s.libraries)
    (hp : s'.photos = (s.updatePhoto id change).photos) : Replaces id (change p) s s' := by
  refine ⟨hl, ?_, fun wanted => ?_⟩
  · rw [hp]
    exact map_key_modify hk
  · have hu : s'.photo wanted = (s.updatePhoto id change).photo wanted := by
      rw [StateStore.photo, hp]
      rfl
    rw [hu, photo_updatePhoto hk, hf]
    rfl

end StateStore

lemma PhotoRecord.stampMaterialized_eq (p : PhotoRecord) :
    p.stampMaterialized = { p with materialized := p.stampMaterialized.materialized } := by
  unfold stampMaterialized
  split_ifs <;> rfl

lemma PhotoRecord.writeResource_eq (p : PhotoRecord) (rt : ResourceType) (content : StoredContent) :
    (p.writeResource rt content).stampMaterialized =
      { p with
        materialized := (p.writeResource rt content).stampMaterialized.materialized
        resources := (p.writeResource rt content).stampMaterialized.resources } := by
  rw [stampMaterialized_eq]
  rfl

lemma PhotoRecord.types_written {p : PhotoRecord} (rt : ResourceType) (content : StoredContent)
    (hd : p.TypesDistinct) : (p.writeResource rt content).stampMaterialized.TypesDistinct := by
  rw [TypesDistinct, stampMaterialized_resources, writeResource,
    types_updateResource (by intro _; rfl)]
  exact hd

variable {plan : ChangePlan}

namespace StateStore

lemma markResourceWritten_replaces {rt content commit}
    (ran : s.markResourceWritten id rt content = .ok (s', commit)) :
    ∃ p, s.photo id = some p ∧ Replaces id (p.writeResource rt content).stampMaterialized s s' := by
  obtain ⟨p, library, hf, _, hp, _⟩ := markResourceWritten_ok ran
  refine ⟨p, hf, .update (fun _ => (p.writeResource rt content).stampMaterialized) hf
    (fun _ _ => ?_) hp.libraries hp.photos⟩
  rw [writeResource_eq]
  exact (mem_of_photo hf).2

lemma onlyBlobs_inheritStamps (dst : LibraryId) (hashes : List ContentHash) (s : StateStore) :
    OnlyBlobs s (hashes.foldl (fun s hash => s.stampBlobEvicted dst hash) s) := by
  induction hashes generalizing s with
  | nil => exact .refl s
  | cons hash rest ih =>
    have hs : OnlyBlobs s (s.stampBlobEvicted dst hash) := ⟨rfl, rfl⟩
    exact hs.trans (ih _)

lemma executeTransition_replaces {src dst} (ha : src ≠ dst) (hf : s.photo id = some p)
    (ran : s.executeTransition id src dst = .ok s') : Replaces id (p.setLibrary dst) s s' := by
  simp only [executeTransition, transitionTx, bind_eq_ok, pure_eq_ok] at ran
  obtain ⟨_, _, moved, ⟨transferred, ht, rfl⟩, rfl⟩ := ran
  obtain ⟨hp, hl⟩ :=
    onlyBlobs_inheritStamps dst _ (transferred.updatePhoto id fun p => p.setLibrary dst)
  have ht := (transferBlobs_ok ha ht).1
  refine .update (fun p => p.setLibrary dst) hf (fun _ hi => hi) (hl.trans ht.libraries) ?_
  rw [hp, updatePhoto, updatePhoto, ht.photos]

end StateStore

structure PhotoRecord.Described (scope : Option LibraryId) (p p' : PhotoRecord) : Prop where
  same : p' =
    { p with
      localId := p'.localId
      libraryId := p'.libraryId
      deletedAt := p'.deletedAt
      assetModifiedAt := p'.assetModifiedAt
      hasDescriptor := p'.hasDescriptor
      materialized := p'.materialized
      resources := p'.resources }
  library : p'.libraryId = p.libraryId ∨ p'.libraryId = scope ∧ p'.libraryId ≠ none
  deleted : p'.deletedAt = p.deletedAt ∨ p'.deletedAt = none
  rows : ∀ r ∈ p'.resources, r.removed = false → r.written → r ∈ p.resources
  types : p.TypesDistinct → p'.TypesDistinct

/-- The row restored and moved, its resources reworked, its capsule and date written. -/
lemma PhotoRecord.Described.of_stages {scope library deletedAt assetModifiedAt}
    {hasDescriptor : Bool} (hh : library = p.libraryId ∨ library = scope ∧ library ≠ none)
    (hde : deletedAt = p.deletedAt ∨ deletedAt = none)
    (hr : ({ p with libraryId := library, deletedAt := deletedAt } : PhotoRecord).Reworked q) :
    p.Described scope { q with hasDescriptor := hasDescriptor, assetModifiedAt :=
  assetModifiedAt } := by
  have hl : q.libraryId = library := by rw [hr.same]
  have hd : q.deletedAt = deletedAt := by rw [hr.same]
  refine ⟨?_, ?_, ?_, hr.rows, hr.types⟩
  · rw [hr.same]
  · exact hl ▸ hh
  · exact hd ▸ hde

namespace StateStore

lemma restored_replaces (hf : s.photo plan.photoId = some p) :
    ∃ deletedAt, Replaces plan.photoId { p with deletedAt := deletedAt } s
        (if plan.restore then s.restorePhoto plan.photoId else s) ∧
      (deletedAt = p.deletedAt ∨ deletedAt = none) := by
  split_ifs
  · exact ⟨none, .update (fun p => { p with deletedAt := none }) hf (fun _ hi => hi) rfl rfl,
      .inr rfl⟩
  · exact ⟨p.deletedAt, .refl hf, .inl rfl⟩

lemma finishChange_replaces (desc : AssetDescriptor) (hf : s.photo plan.photoId = some p) :
    ∃ hasDescriptor assetModifiedAt,
    Replaces plan.photoId { p with hasDescriptor := hasDescriptor, assetModifiedAt :=
  assetModifiedAt } s
      (s.finishChange plan desc) :=
  ⟨_, _, .update
    (fun p =>
      { p with
        hasDescriptor :=
          p.hasDescriptor || (p.materialized && (decide plan.ChangesState || p.libraryId.isSome))
        assetModifiedAt := if plan.metadataRefresh then desc.assetModifiedAt.or p.assetModifiedAt
          else p.assetModifiedAt })
    hf (fun _ hi => hi) rfl rfl⟩

lemma movePlanned_replaces {scope} (hf : s.photo plan.photoId = some p)
    (hm : ∀ src dst, plan.transition = some (src, dst) → scope = some dst)
    (ran : s.movePlanned plan = .ok s') :
    ∃ library, Replaces plan.photoId { p with libraryId := library } s s' ∧
      (library = p.libraryId ∨ library = scope ∧ library ≠ none) := by
  unfold movePlanned at ran
  split at ran
  · rename_i src dst hp
    exact ⟨some dst, executeTransition_replaces (plan.leaves src dst hp) hf ran,
      .inr ⟨(hm src dst hp).symm, by simp⟩⟩
  cases ran
  exact ⟨p.libraryId, .refl hf, .inl rfl⟩

lemma changePlanned_replaces (hf : s.photo plan.photoId = some p)
    (hd : p.TypesDistinct) (ran : s.changePlanned plan = .ok s') :
    ∃ p', Replaces plan.photoId p' s s' ∧ p.Reworked p' ∧
      (LeavesPending plan p → p.Completes → p'.Completes) := by
  unfold changePlanned at ran
  by_cases hch : plan.ChangesResources
  · rw [if_pos hch] at ran
    simp only [bind_eq_ok, pure_eq_ok] at ran
    obtain ⟨⟨changed, reap⟩, ha, rfl⟩ := ran
    obtain ⟨p', hco, hr, hc⟩ := applyResources_ok hf hd ha
    have hn : p'.photoId = plan.photoId := hr.photoId.trans (mem_of_photo hf).2
    exact ⟨p', .update (fun _ => p') hf (fun _ _ => hn) hco.only.libraries hco.only.photos, hr, hc⟩
  · rw [if_neg hch] at ran
    cases ran
    exact ⟨p, .refl hf, .refl p, fun _ hc => hc⟩

lemma applyPlan_replaces {scope} (desc : AssetDescriptor) (reached : Reached)
    (hfo : s.photo plan.photoId = some p) (hdi : p.TypesDistinct)
    (hms : ∀ src dst, plan.transition = some (src, dst) → scope = some dst) :
    ∃ p', Replaces plan.photoId p' s (s.applyPlan plan desc reached).1 ∧ p.Described scope p' ∧
      (LeavesPending plan p → p.Completes → p'.Completes) := by
  obtain ⟨deletedAt, hre, hd⟩ := restored_replaces hfo
  unfold applyPlan
  by_cases hcl : reached = .classified
  · rw [if_pos hcl]
    exact ⟨p, .refl hfo, .of_stages (.inl rfl) (.inl rfl) (.refl p), fun _ hc => hc⟩
  rw [if_neg hcl]
  by_cases hres : reached = .restored
  · simp only [if_pos hres]
    exact ⟨_, hre, .of_stages (.inl rfl) hd (.refl _), fun _ hc => hc⟩
  simp only [if_neg hres]
  cases hm : (if plan.restore then s.restorePhoto plan.photoId else s).movePlanned plan with
  | error e =>
    exact ⟨_, hre, .of_stages (.inl rfl) hd (.refl _), fun _ hc => hc⟩
  | ok movedStore =>
    obtain ⟨library, hmo, hh⟩ := movePlanned_replaces hre.found hms hm
    have hh : library = p.libraryId ∨ library = scope ∧ library ≠ none := hh
    have hr := hre.trans hmo
    by_cases hs : reached = .moved
    · simp only [if_pos hs]
      exact ⟨_, hr, .of_stages hh hd (.refl _), fun _ hc => hc⟩
    simp only [if_neg hs]
    cases hcg : movedStore.changePlanned plan with
    | error e =>
      exact ⟨_, hr, .of_stages hh hd (.refl _), fun _ hc => hc⟩
    | ok changedStore =>
      obtain ⟨q, hch, hrd, hc⟩ := changePlanned_replaces hmo.found hdi hcg
      have hr := hr.trans hch
      by_cases hs : reached = .changed
      · simp only [if_pos hs]
        exact ⟨q, hr, .of_stages hh hd hrd, hc⟩
      simp only [if_neg hs]
      obtain ⟨_, _, hf⟩ := finishChange_replaces desc hch.found
      exact ⟨_, hr.trans hf, .of_stages hh hd hrd, hc⟩

end StateStore

variable {desc : AssetDescriptor}

namespace PhotoRecord

variable {p₁ p' : PhotoRecord}

/-- Every written thumbnail that the mesh was never told of is enumerated. -/
def KeepsThumbnails (desc : AssetDescriptor) (p : PhotoRecord) : Prop :=
  ∀ r ∈ p.resources, r.removed = false → r.resourceType.isThumbnail → r.written →
    r.publishedContentHash = none → r.resourceType ∈ desc.resourceTypes
deriving Decidable

lemma Rebound.deletedAt (hr : p.Rebound s desc p₁) : p₁.deletedAt = p.deletedAt := by rw [hr.same]

lemma Rebound.completes (hr : p.Rebound s desc p₁) (hc : p.Completes) : p₁.Completes := by
  have materialized : p₁.materialized = p.materialized := by rw [hr.same]
  intro all
  rw [hr.resources] at all
  exact materialized.trans (hc all)

lemma Rebound.described (hr : p.Rebound s desc p₁)
    (hd : p₁.Described (s.resolveScope desc.scope) p') :
    p.Described (s.resolveScope desc.scope) p' where
  same := by
    rw [hd.same, hr.same]
  library := by
    rcases hd.library with same | hs
    · rcases hr.library with hs' | ⟨_, hs, hb⟩
      · exact .inl (same.trans hs')
      · exact .inr ⟨same.trans hs, same ▸ hb⟩
    · exact .inr hs
  deleted := hr.deletedAt ▸ hd.deleted
  rows := hr.resources ▸ hd.rows
  types := by
    rw [TypesDistinct, ← hr.resources]
    exact hd.types

lemma described_refl (scope : Option LibraryId) (p : PhotoRecord) : p.Described scope p :=
  .of_stages (.inl rfl) (.inl rfl) (.refl p)

lemma leavesPending_planChanges (desc : AssetDescriptor) (metadataChanged : Bool)
    (scopeLibrary : Option LibraryId) (hk : p.KeepsThumbnails desc) :
    StateStore.LeavesPending
    (planChanges p p.liveResources desc metadataChanged scopeLibrary) p := by
  constructor
  · intro rt ha hrs
    have had := (mem_filter.1 ha).2
    have hr := (mem_filter.1 (mem_of_mem_filter hrs)).2
    simp only [decide_eq_true_eq] at had hr
    exact had.2 hr.1
  · have hr2 : ∀ rt, rt ∈ (p.liveResources.filter fun r => r.resourceType ∈ desc.resourceTypes ∧
          r.resourceType ∈ ResourceType.editMutable ∧ r.written ∧
          desc.resized r).map ResourceRecord.resourceType →
        ∃ r ∈ p.resources, r.resourceType = rt ∧
          (rt ∈ (planChanges p p.liveResources desc metadataChanged scopeLibrary).removeResources →
            r.publishedContentHash ≠ none) := by
      intro rt hrd
      obtain ⟨r, hl, rfl⟩ := mem_map.1 hrd
      obtain ⟨live, hc⟩ := mem_filter.1 hl
      rw [decide_eq_true_eq] at hc
      refine ⟨r, (mem_liveResources.1 live).1, rfl, fun hrs => ?_⟩
      have hr := (mem_filter.1 (mem_of_mem_filter hrs)).2
      rw [decide_eq_true_eq] at hr
      exact absurd hc.1 hr.2
    intro rt hre
    have hre : rt ∈ (if _ then _ else _ : List ResourceType) := hre
    split_ifs at hre
    · rcases mem_append.1 hre with hrd | ht
      · exact hr2 rt hrd
      · obtain ⟨r, hl, rfl⟩ := mem_map.1 ht
        obtain ⟨live, hc⟩ := mem_filter.1 hl
        rw [decide_eq_true_eq] at hc
        obtain ⟨hh, kept⟩ := mem_liveResources.1 live
        refine ⟨r, hh, rfl, fun hrs hu => ?_⟩
        have hr := (mem_filter.1 (mem_of_mem_filter hrs)).2
        rw [decide_eq_true_eq] at hr
        exact hr.2 (hk r hh kept hc.1 hc.2 hu)
    · exact hr2 rt hre

/-- Applying a descriptor leaves a photo's row, unless its cloud id names the photo. -/
structure Renewed (s : StateStore) (desc : AssetDescriptor) (p p' : PhotoRecord) : Prop where
  described : p.Described (s.resolveScope desc.scope) p'
  named : p' = p ∨ s.IsEventPhoto desc p
  completes : p.KeepsThumbnails desc → p.Completes → p'.Completes

lemma Rebound.renewed (hr : p.Rebound s desc p₁) : p.Renewed s desc p₁ :=
  ⟨hr.described (described_refl _ p₁), hr.named, fun _ => hr.completes⟩

end PhotoRecord

namespace StateStore

variable {minted : PhotoId} {now : Nat}

structure Applies (minted : PhotoId) (now : Nat) (desc : AssetDescriptor) (s s' : StateStore) :
    Prop where
  libraries : s'.libraries = s.libraries
  distinct : (s'.photos.map photoId).Nodup
  photo : ∀ id,
    (∃ p p', s.photo id = some p ∧ s'.photo id = some p' ∧ p.Renewed s desc p') ∨
      (s.photo id = none ∧ s'.photo id = none) ∨
      id = minted ∧ ∃ library, s'.photo id = some (newPhoto minted now desc library) ∧
        ∀ p ∈ s.photos, desc.cloudId ≠ none → p.cloudId ≠ desc.cloudId

lemma Refresh.applies (hr : Refresh minted now desc s s') (hfr : s.photo minted = none)
    (hd : (s.photos.map photoId).Nodup) : Applies minted now desc s s' := by
  refine ⟨hr.libraries, hr.distinct hfr hd, fun id => ?_⟩
  rcases hr.photo_cases id with ⟨p, p', hf, hf', hre⟩ | ho
  · exact .inl ⟨p, p', hf, hf', hre.renewed⟩
  · exact .inr ho

lemma Applies.replaces {id} (ha : Applies minted now desc s s')
    (hr : Replaces id q s' s'') (hf : s.photo id = some p)
    (hre : p.Renewed s desc q) : Applies minted now desc s s'' := by
  refine ⟨hr.libraries.trans ha.libraries, hr.ids ▸ ha.distinct, fun wanted => ?_⟩
  by_cases hh : wanted = id
  · refine .inl ⟨p, q, hh ▸ hf, ?_, hre⟩
    rw [hr.photo, if_pos hh]
  · rw [hr.photo, if_neg hh]
    exact ha.photo wanted

lemma Refresh.eventPhoto {existing} (hr : Refresh minted now desc s s')
    (hd : (s.photos.map photoId).Nodup) (he : s.IsEventPhoto desc existing) :
    s.photo existing.photoId = some existing ∧ ∃ p', s'.photo existing.photoId = some p' ∧
      existing.Rebound s desc p' := by
  have hfo := photo_eq_of_mem hd he.mem.1
  refine ⟨hfo, ?_⟩
  rcases hr.photo_cases existing.photoId with ⟨p, p', hf', hf, hre⟩ | ⟨hm, _⟩ | ⟨_, _, _, hu⟩
  · cases hfo.symm.trans hf'
    exact ⟨p', hf, hre⟩
  · cases hfo.symm.trans hm
  · exact absurd he.mem.2.2 (hu existing he.mem.1 he.mem.2.1)

lemma applies_applyChange (reached : Reached) (hfr : s.photo minted = none)
    (hd : (s.photos.map photoId).Nodup)
    (ht : ∀ p ∈ s.photos, p.TypesDistinct) :
    Applies minted now desc s (s.applyChange minted now desc reached).1 := by
  unfold applyChange
  cases hre : s.classify minted now desc with
  | error e => exact (Refresh.refl minted now desc s).applies hfr hd
  | ok classified =>
    obtain ⟨store, classification⟩ := classified
    have ha : Applies minted now desc s store := (classify_refresh hd hre).applies hfr hd
    obtain ⟨_, hp, hn⟩ := classify_cases hre
    cases classification with
    | seeded outcome => exact ha
    | noOp id =>
      obtain ⟨existing, he, rfl⟩ := hn id rfl
      obtain ⟨hfo, p', hf', hr⟩ := (classify_refresh hd hre).eventPhoto hd he
      split_ifs
      · exact ha
      · exact ha.replaces (.update
          (fun p =>
            { p with hasDescriptor := p.hasDescriptor || (p.materialized && p.libraryId.isSome) })
          hf' (fun _ hi => hi) rfl rfl) hfo
          ⟨hr.described (.of_stages (.inl rfl) (.inl rfl) (.refl p')), .inr he,
            fun _ => hr.completes⟩
    | known plan =>
      obtain ⟨existing, p', metadataChanged, scopeLibrary, he, _, hf', rfl, hs⟩ := hp plan rfl
      obtain ⟨hfo, p₁, hf1, hr⟩ := (classify_refresh hd hre).eventPhoto hd he
      cases hf'.symm.trans hf1
      have hna : p'.photoId = existing.photoId := hr.photoId
      have hdt : p'.TypesDistinct := by
        rw [PhotoRecord.TypesDistinct, hr.resources]
        exact ht existing he.mem.1
      have hfh : store.photo p'.photoId = some p' := hna ▸ hf'
      have hf : s.photo p'.photoId = some existing := hna ▸ hfo
      have hmo : ∀ src dst,
        (planChanges p' p'.liveResources desc metadataChanged scopeLibrary).transition =
          some (src, dst) → s.resolveScope desc.scope = some dst := by
        intro src dst hmo
        obtain ⟨hm, har, hap⟩ := scopeTransition_eq_some hmo
        rcases hs with same | hs
        · exact absurd (Option.some.inj (hm.symm.trans (same.symm.trans har))) hap
        · exact hs.symm.trans har
      obtain ⟨q, hrs, hde, hc⟩ := applyPlan_replaces desc reached hfh hdt hmo
      refine ha.replaces hrs hf ⟨hr.described hde, .inr he, ?_⟩
      intro hk hco
      refine hc (leavesPending_planChanges desc _ _ ?_) (hr.completes hco)
      rw [PhotoRecord.KeepsThumbnails, hr.resources]
      exact hk

/-- After a late-binding merge the provisional row is gone, and the other has its identifiers. -/
structure Merges (library : LibraryId) (hash : ContentHash) (desc : AssetDescriptor)
    (provisional : PhotoId) (old : PhotoRecord) (cloudId : String) (s s' : StateStore) : Prop where
  survivor : s.photoByOriginalHash library hash = some old
  libraries : s'.libraries = s.libraries
  distinct : (s'.photos.map photoId).Nodup
  photo : ∀ wanted, s'.photo wanted =
    if wanted = provisional then none
    else if wanted = old.photoId then some (old.bindLate cloudId desc.localId) else s.photo wanted

lemma lateBindingMerge_cases {library hash provisional survivor} (hd : (s.photos.map photoId).Nodup)
    (ran : s.lateBindingMerge library hash desc provisional = .ok (s', survivor)) :
    s' = s ∨ ∃ old cloudId, Merges library hash desc provisional old cloudId s s' := by
  unfold lateBindingMerge at ran
  split at ran
  · next cloudId old _ hfo =>
      simp only at ran
      split_ifs at ran with hk
      · cases ran
        exact .inl rfl
      · cases ran
        push Not at hk
        have kept : ∀ p : PhotoRecord, p.photoId = old.photoId →
            (p.bindLate cloudId desc.localId).photoId = old.photoId := fun _ hi => hi
        refine .inr ⟨old, cloudId, hfo, rfl, ?_, fun wanted => ?_⟩
        · show ((modify _ _ _ (delete _ _ _)).map _).Nodup
          rw [map_key_modify kept]
          exact hd.sublist (filter_sublist.map _)
        · have hf := photo_eq_of_mem hd (mem_of_find?_eq_some hfo)
          have hde : ∀ id, (⟨s.libraries, delete photoId provisional s.photos, s.blobs⟩ :
              StateStore).photo id = if id = provisional then none else s.photo id :=
                fun id => lookup_delete
          rw [photo_updatePhoto kept, hde, hde, hf, if_neg hk.1]
          by_cases hp : wanted = provisional
          · rw [if_pos hp, if_pos hp, if_neg fun hh => hk.1 (hh.symm.trans hp)]
          · rw [if_neg hp, if_neg hp]
            rfl
  · cases ran
    exact .inl rfl

end StateStore

end HopNet.Ingress
