import HopNet.Ingress.LedgerMoves

namespace HopNet.Ingress

open List Fallible Table PhotoRecord

variable {s : StateStore} {desc : AssetDescriptor}

namespace StateStore

/-- The photo that a descriptor's cloud id names. -/
def IsEventPhoto (s : StateStore) (desc : AssetDescriptor) (p : PhotoRecord) : Prop :=
  ∃ cloudId, desc.cloudId = some cloudId ∧ s.photoByCloudId cloudId = some p

lemma IsEventPhoto.mem {p} (he : s.IsEventPhoto desc p) :
    p ∈ s.photos ∧ desc.cloudId ≠ none ∧ p.cloudId = desc.cloudId := by
  obtain ⟨cloudId, hc, hf⟩ := he
  refine ⟨mem_of_find?_eq_some hf, by rw [hc]; simp, ?_⟩
  have hn : p.cloudId = some cloudId := by simpa using find?_some hf
  rw [hn, hc]

end StateStore

/-- The photo that the descriptor's cloud id names gets the local id, and the scope's library if it
had none. -/
structure PhotoRecord.Rebound (s : StateStore) (desc : AssetDescriptor) (p p' : PhotoRecord) :
    Prop where
  same : p' = { p with localId := p'.localId, libraryId := p'.libraryId }
  named : p' = p ∨ s.IsEventPhoto desc p
  library : p'.libraryId = p.libraryId ∨ p.libraryId = none ∧
    p'.libraryId = s.resolveScope desc.scope ∧ p'.libraryId ≠ none

lemma PhotoRecord.Rebound.refl (s : StateStore) (desc : AssetDescriptor) (p : PhotoRecord) :
    p.Rebound s desc p :=
  ⟨rfl, .inl rfl, .inl rfl⟩

namespace PhotoRecord.Rebound

variable {p p' : PhotoRecord} (hr : p.Rebound s desc p')
include hr

lemma photoId : p'.photoId = p.photoId := by
  rw [hr.same]

lemma resources : p'.resources = p.resources := by
  rw [hr.same]

/-- Only a photo without content changes its library. -/
lemma holds (hu : p.libraryId = none → ∀ r ∈ p.resources, r.content = none) (library : LibraryId)
    (hash : ContentHash) : p'.holds library hash = p.holds library hash := by
  rcases hr.library with hs | ⟨hn, _⟩
  · rw [PhotoRecord.holds, PhotoRecord.holds, hr.resources, hs]
  · rw [holds_of_empty (hu hn), holds_of_empty (hr.resources ▸ hu hn)]

end PhotoRecord.Rebound

namespace StateStore

variable {s' : StateStore} {minted : PhotoId} {now : Nat} {classification : Classification}
  {library : Option LibraryId} {resolution : Resolution}

structure Seeding (minted : PhotoId) (s s' : StateStore) : Prop where
  blobs : s'.blobs = s.blobs
  photo : ∀ id p', s'.photo id = some p' → id = minted ∨ ∃ p, s.photo id = some p ∧
    p'.resources = p.resources ∧
    p'.published = p.published ∧ ∀ library, p.libraryId = some library → p'.libraryId = some library

/-- After a classification: the rows, each perhaps rebound, and that of a new asset. -/
structure Refresh (minted : PhotoId) (now : Nat) (desc : AssetDescriptor) (s s' : StateStore) :
    Prop where
  libraries : s'.libraries = s.libraries
  blobs : s'.blobs = s.blobs
  rows : ∃ rebind : PhotoRecord → PhotoRecord,
    (∀ p ∈ s.photos, p.Rebound s desc (rebind p)) ∧
    (s'.photos = s.photos.map rebind ∨
      ∃ library, s'.photos = s.photos.map rebind ++ [newPhoto minted now desc library] ∧
      ∀ p ∈ s.photos, desc.cloudId ≠ none → p.cloudId ≠ desc.cloudId)

lemma Refresh.refl (minted : PhotoId) (now : Nat) (desc : AssetDescriptor) (s : StateStore) :
    Refresh minted now desc s s :=
  ⟨rfl, rfl, id, fun p _ => .refl s desc p, .inl (map_id _).symm⟩

namespace Refresh

variable (hr : Refresh minted now desc s s')
include hr

lemma photo_cases (id : PhotoId) :
    (∃ p p', s.photo id = some p ∧ s'.photo id = some p' ∧ p.Rebound s desc p') ∨
      (s.photo id = none ∧ s'.photo id = none) ∨
      id = minted ∧ ∃ library, s'.photo id = some (newPhoto minted now desc library) ∧
        ∀ p ∈ s.photos, desc.cloudId ≠ none → p.cloudId ≠ desc.cloudId := by
  obtain ⟨rebind, hre, rows⟩ := hr.rows
  have hm : lookup photoId id (s.photos.map rebind) = (s.photo id).map rebind :=
    lookup_map fun p hp => (hre p hp).photoId
  cases hf : s.photo id with
  | some p =>
    refine .inl ⟨p, rebind p, rfl, ?_, hre p (mem_of_photo hf).1⟩
    rw [hf] at hm
    rcases rows with hs | ⟨library, ha, _⟩
    · rw [photo, hs, hm]
      rfl
    · rw [photo, ha, lookup_append_singleton, hm]
      rfl
  | none =>
    rw [hf] at hm
    rcases rows with hs | ⟨library, ha, hu⟩
    · refine .inr (.inl ⟨rfl, ?_⟩)
      rw [photo, hs, hm]
      rfl
    · by_cases hmi : minted = id
      · refine .inr (.inr ⟨hmi.symm, library, ?_, hu⟩)
        rw [photo, ha, lookup_append_singleton, hm]
        exact if_pos hmi
      · refine .inr (.inl ⟨rfl, ?_⟩)
        rw [photo, ha, lookup_append_singleton, hm]
        exact if_neg hmi

/-- The ids stay apart, as that of a photo seen for the first time is new. -/
lemma distinct (hf : s.photo minted = none)
    (hd : (s.photos.map photoId).Nodup) : (s'.photos.map photoId).Nodup := by
  obtain ⟨rebind, hre, rows⟩ := hr.rows
  have ids : (s.photos.map rebind).map photoId = s.photos.map photoId := by
    exact map_key_map fun p hp => (hre p hp).photoId
  rcases rows with hs | ⟨library, ha, _⟩
  · rw [hs, ids]
    exact hd
  · rw [ha, nodup_map_append_singleton, ids, forall_mem_map]
    exact ⟨hd, fun p hp hna => lookup_eq_none.1 hf ⟨p, hp, (hre p hp).photoId.symm.trans hna⟩⟩

lemma mem {p'} (hp' : p' ∈ s'.photos) :
    (∃ p ∈ s.photos, p.Rebound s desc p') ∨ p'.TypesDistinct ∧
      ∀ r ∈ p'.resources, r.content = none := by
  obtain ⟨rebind, hre, rows⟩ := hr.rows
  have hm : p' ∈ s.photos.map rebind → ∃ p ∈ s.photos, p.Rebound s desc p' := by
    intro hm
    obtain ⟨p, hp, rfl⟩ := mem_map.1 hm
    exact ⟨p, hp, hre p hp⟩
  rcases rows with hs | ⟨library, ha, _⟩
  · exact .inl (hm (hs ▸ hp'))
  · rw [ha] at hp'
    refine (mem_append.1 hp').imp hm fun new => ?_
    rw [mem_singleton.1 new]
    have hn := newPhoto_resources minted now desc library
    exact ⟨hn.1, fun r hre => (hn.2 r hre).1⟩

lemma refs (hu : ∀ p ∈ s.photos, p.libraryId = none → ∀ r ∈ p.resources, r.content = none)
    (library : LibraryId) (hash : ContentHash) : s'.refs library hash = s.refs library hash := by
  obtain ⟨rebind, hre, rows⟩ := hr.rows
  have hh : (s.photos.map rebind).map (PhotoRecord.holds library hash) =
      s.photos.map (PhotoRecord.holds library hash) := by
    rw [map_map]
    exact map_congr_left fun p hp => (hre p hp).holds (hu p hp) library hash
  rw [StateStore.refs, StateStore.refs]
  rcases rows with hs | ⟨bound, ha, _⟩
  · rw [hs, hh]
  · have hn := fun r hm => ((newPhoto_resources minted now desc bound).2 r hm).1
    rw [ha, map_append, map_singleton, sum_append, sum_singleton, hh, holds_of_empty hn,
      Nat.add_zero]

lemma seeding : Seeding minted s s' := by
  refine ⟨hr.blobs, fun id p' hf' => ?_⟩
  rcases hr.photo_cases id with ⟨p, q, hfo, hf, hb⟩ | ⟨_, hmg⟩ | ⟨hmi, _⟩
  · cases hf'.symm.trans hf
    refine .inr ⟨p, hfo, by rw [hb.same], by rw [hb.same], fun library hm => ?_⟩
    rcases hb.library with hs | ⟨hu, _⟩
    · exact hs.trans hm
    · cases hu.symm.trans hm
  · cases hmg.symm.trans hf'
  · exact .inl hmi

end Refresh

/-- A classification touches no content, so it keeps the ledger. -/
lemma Sound.refresh (hs : s.Sound) (hf : s.photo minted = none)
    (hr : Refresh minted now desc s s') : s'.Sound := by
  refine ⟨hr.distinct hf hs.distinct, fun p' hp' => ?_, fun p' hp' hm => ?_, fun library hash => ?_,
    fun p' hp' library hm => ?_⟩
  · rcases hr.mem hp' with ⟨p, hp, hre⟩ | ⟨hd, _⟩
    · rw [PhotoRecord.TypesDistinct, hre.resources]
      exact hs.types p hp
    · exact hd
  · rcases hr.mem hp' with ⟨p, hp, hre⟩ | ⟨_, he⟩
    · rw [hre.resources]
      rcases hre.library with same | ⟨_, _, hb⟩
      · exact hs.unmapped p hp (same.symm.trans hm)
      · exact absurd hm hb
    · exact he
  · rw [hr.refs hs.unmapped, ledger, blob, hr.blobs]
    exact hs.counted library hash
  · intro r hrr c hc b hfo
    rcases hr.mem hp' with ⟨p, hp, hre⟩ | ⟨_, he⟩
    · rw [hre.resources] at hrr
      rw [blob, hr.blobs] at hfo
      rw [PhotoRecord.Needs, show p'.published = p.published by rw [hre.same]]
      rcases hre.library with same | ⟨hu, _⟩
      · exact hs.rows p hp library (same.symm.trans hm) r hrr c hc b hfo
      · cases (hs.unmapped p hp hu r hrr).symm.trans hc
    · cases (he r hrr).symm.trans hc

/-- The store in which the photo of an event has the descriptor's local id. -/
def seen (s : StateStore) (desc : AssetDescriptor) (existing : PhotoRecord) : StateStore :=
  s.updatePhoto existing.photoId fun p => { p with localId := some desc.localId }

/-- What `resolve_descriptor` can come to. -/
inductive Resolves (minted : PhotoId) (now : Nat) (desc : AssetDescriptor) (s : StateStore) :
    StateStore → Resolution → Prop
  | known (existing : PhotoRecord) (scopeChanged : Bool) : s.IsEventPhoto desc existing →
      (scopeChanged = false → ∀ stored current, existing.libraryId = some stored →
        s.resolveScope desc.scope = some current → stored = current) →
      Resolves minted now desc s (s.seen desc existing)
        (.knownByCloudId existing.photoId (metadataChanged existing desc) scopeChanged)
  | adopted (existing : PhotoRecord) (library : LibraryId) : s.IsEventPhoto desc existing →
      existing.libraryId = none → s.resolveScope desc.scope = some library →
      Resolves minted now desc s
      ((s.seen desc existing).updatePhoto existing.photoId fun p => p.adoptLibrary library)
        (.adopted existing.photoId)
  | unmapped (s' : StateStore) : s.mintPhoto minted now desc none = .ok s' →
      Resolves minted now desc s s' (.unmappedScope minted)
  | unseen : Resolves minted now desc s s .needsContentHash

lemma resolves (ran : s.resolveDescriptor minted now desc = .ok (s', resolution)) :
    Resolves minted now desc s s' resolution := by
  unfold resolveDescriptor at ran
  cases hk : desc.cloudId.bind s.photoByCloudId with
  | some existing =>
    have he : s.IsEventPhoto desc existing := Option.bind_eq_some_iff.1 hk
    simp only [hk] at ran
    split at ran
    · next library hun hb =>
        cases ran
        exact .adopted existing library he hun hb
    · next stored current hma hb =>
        cases ran
        refine .known existing _ he fun hu stored' current' hm' hb' => ?_
        cases hma.symm.trans hm'
        cases hb.symm.trans hb'
        simpa using hu
    · next hud =>
        cases ran
        refine .known existing _ he fun _ stored' current' _ hb' => ?_
        cases hud.symm.trans hb'
  | none =>
    simp only [hk] at ran
    split at ran
    · simp only [bind_eq_ok, pure_eq_ok] at ran
      obtain ⟨discovered, hm, hs⟩ := ran
      cases hs
      exact .unmapped _ hm
    · cases ran
      exact .unseen

lemma mintPhoto_eq (ran : s.mintPhoto minted now desc library = .ok s') :
    s' = ⟨s.libraries, s.photos ++ [newPhoto minted now desc library], s.blobs⟩ ∧
      ∀ p ∈ s.photos, desc.cloudId ≠ none → p.cloudId ≠ desc.cloudId := by
  unfold mintPhoto at ran
  split at ran
  · rename_i cloudId hc
    split_ifs at ran with ht
    cases ran
    refine ⟨rfl, fun p hp _ hs => ht ?_⟩
    exact find?_isSome.2 ⟨p, hp, decide_eq_true (hs.trans hc)⟩
  · rename_i hc
    cases ran
    exact ⟨rfl, fun _ _ hn => absurd hc hn⟩

lemma Refresh.mint (ran : s.mintPhoto minted now desc library = .ok s') :
    Refresh minted now desc s s' := by
  obtain ⟨rfl, hu⟩ := mintPhoto_eq ran
  exact ⟨rfl, rfl, id, fun p _ => .refl s desc p, .inr ⟨library, by rw [map_id], hu⟩⟩

section

variable (hd : (s.photos.map photoId).Nodup)
include hd

lemma eq_of_photoId {p q} (hp : p ∈ s.photos) (hp' : q ∈ s.photos) (hs : p.photoId = q.photoId) :
    p = q :=
  inj_on_of_nodup_map hd hp hp' hs

lemma photo_eq_of_mem {p} (hp : p ∈ s.photos) : s.photo p.photoId = some p :=
  find?_of_mem hd hp rfl

lemma Refresh.update {change existing} (he : s.IsEventPhoto desc existing)
    (hr : existing.Rebound s desc (change existing)) :
    Refresh minted now desc s (s.updatePhoto existing.photoId change) := by
  have hp := he.mem.1
  refine ⟨rfl, rfl, fun p => if p.photoId = existing.photoId then change p
    else p, fun p hp' => ?_, .inl rfl⟩
  show p.Rebound s desc (if _ then _ else _)
  split_ifs with hh
  · cases eq_of_photoId hd hp' hp hh
    exact hr
  · exact .refl s desc p

lemma Resolves.refresh (hr : Resolves minted now desc s s' resolution) :
    Refresh minted now desc s s' := by
  cases hr with
  | known existing scopeChanged he _ => exact .update hd he ⟨rfl, .inr he, .inl rfl⟩
  | adopted existing library he unmapped hbo =>
    have both : (s.seen desc existing).updatePhoto existing.photoId
      (fun p => p.adoptLibrary library) =
        s.updatePhoto existing.photoId fun p =>
          ({ p with localId := some desc.localId } : PhotoRecord).adoptLibrary library := by
      unfold seen updatePhoto
      congr 1
      rw [Table.modify, Table.modify, Table.modify, map_map]
      refine map_congr_left fun p _ => ?_
      by_cases hh : p.photoId = existing.photoId <;> simp [hh]
    rw [both]
    have hb : (({ existing with localId := some desc.localId } : PhotoRecord).adoptLibrary
        library).libraryId = some library := by
      rw [adoptLibrary, unmapped]
      rfl
    exact .update hd he ⟨rfl, .inr he, .inr ⟨unmapped, hb.trans hbo.symm, by rw [hb]; simp⟩⟩
  | unmapped _ hm => exact .mint hm
  | unseen => exact .refl minted now desc s

end

lemma seedDescriptor_cases {outcome} (ran : s.seedDescriptor minted now desc = .ok (s', outcome)) :
    (∃ resolution, Resolves minted now desc s s' resolution) ∨
      ∃ library, s.mintPhoto minted now desc (some library) = .ok s' := by
  simp only [seedDescriptor, bind_eq_ok] at ran
  obtain ⟨⟨resolved, resolution⟩, hre, ran⟩ := ran
  have hr := resolves hre
  cases resolution with
  | needsContentHash =>
    cases hr
    simp only at ran
    split at ran
    · cases ran
      exact .inl ⟨_, .unseen⟩
    · split at ran
      · cases ran
      · next library _ =>
          simp only [bind_eq_ok, pure_eq_ok] at ran
          obtain ⟨discovered, hm, hs⟩ := ran
          cases hs
          exact .inr ⟨library, hm⟩
  | knownByCloudId | adopted | unmappedScope =>
    cases ran
    exact .inl ⟨_, hr⟩

/-- The plan that a descriptor makes for the photo it names. -/
def IsPlan (s s' : StateStore) (desc : AssetDescriptor) (plan : ChangePlan) : Prop :=
  ∃ existing p metadataChanged scopeLibrary, s.IsEventPhoto desc existing ∧
    s' = s.seen desc existing ∧
    s'.photo existing.photoId = some p ∧ plan = planChanges p p.liveResources desc metadataChanged
    scopeLibrary ∧ (scopeLibrary = p.libraryId ∨ scopeLibrary = s.resolveScope desc.scope)

lemma resolveScope_updatePhoto {change id} (scope : LibraryScope) :
    (s.updatePhoto id change).resolveScope scope = s.resolveScope scope := by
  cases scope <;> rfl

lemma classify_cases (ran : s.classify minted now desc = .ok (s', classification)) :
    ((∃ resolution, Resolves minted now desc s s' resolution) ∨
      ∃ library, s.mintPhoto minted now desc (some library) = .ok s') ∧
    (∀ plan, classification = .known plan → s.IsPlan s' desc plan) ∧
    ∀ id, classification = .noOp id → ∃ existing, s.IsEventPhoto desc existing ∧
      existing.photoId = id := by
  simp only [classify, bind_eq_ok] at ran
  obtain ⟨⟨resolved, resolution⟩, hre, ran⟩ := ran
  have hr := resolves hre
  cases resolution with
  | knownByCloudId id metadataChanged scopeChanged =>
    simp only at ran
    split at ran
    · cases ran
    rename_i p hf
    cases ran
    refine ⟨.inl ⟨_, hr⟩, fun plan hp => ?_, fun id hn => ?_⟩
    · cases hr with
      | known existing _ he hu =>
        split_ifs at hp with ha
        all_goals
          cases hp
          refine ⟨existing, p, _, _, he, rfl, hf, rfl, ?_⟩
        · exact .inr (resolveScope_updatePhoto _)
        · exact .inl rfl
    · cases hr with
      | known existing _ he hu =>
        split_ifs at hn
        all_goals
          cases hn
          exact ⟨existing, he, rfl⟩
  | adopted | unmappedScope =>
    cases ran
    exact ⟨.inl ⟨_, hr⟩, by rintro _ ⟨⟩, by rintro _ ⟨⟩⟩
  | needsContentHash =>
    cases hr
    simp only [bind_eq_ok, pure_eq_ok] at ran
    obtain ⟨⟨seeded, outcome⟩, hs, same⟩ := ran
    cases same
    exact ⟨seedDescriptor_cases hs, by rintro _ ⟨⟩, by rintro _ ⟨⟩⟩

lemma classify_refresh (hd : (s.photos.map photoId).Nodup)
    (ran : s.classify minted now desc = .ok (s', classification)) :
    Refresh minted now desc s s' := by
  rcases (classify_cases ran).1 with ⟨_, hr⟩ | ⟨_, hm⟩
  · exact hr.refresh hd
  · exact .mint hm

/-- A plan is for the photo that the cloud id names, and its transition leaves that photo's
library. -/
lemma classify_ok (hs : s.Sound) (hfr : s.photo minted = none)
    (ran : s.classify minted now desc = .ok (s', classification)) :
    s'.Sound ∧ Seeding minted s s' ∧ ∀ plan, classification = .known plan →
      (∃ cloudId p, desc.cloudId = some cloudId ∧ s.photoByCloudId cloudId = some p ∧
        p.photoId = plan.photoId) ∧
      ∃ p, s'.photo plan.photoId = some p ∧
        ∀ src dst, plan.transition = some (src, dst) → p.libraryId = some src := by
  have hr := classify_refresh hs.distinct ran
  refine ⟨hs.refresh hfr hr, hr.seeding, fun plan hpl => ?_⟩
  obtain ⟨existing, p, _, _, ⟨cloudId, hc, hb⟩, _, hfo, rfl, _⟩ := (classify_cases ran).2.1 plan hpl
  have hn : p.photoId = existing.photoId := (mem_of_photo hfo).2
  have hf : s'.photo p.photoId = some p := hn ▸ hfo
  exact ⟨⟨cloudId, existing, hc, hb, hn.symm⟩, p, hf, fun src dst hmo =>
    (scopeTransition_eq_some hmo).1⟩

end StateStore

end HopNet.Ingress
