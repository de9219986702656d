import HopNet.Ingress.Ledger

namespace HopNet.Ingress

open List Fallible Table PhotoRecord ResourceRecord

namespace PhotoRecord

variable {p p' p'' : PhotoRecord} {rt : ResourceType}

/-- The photo refers to no more content, and needs no more of it. -/
structure Milder (p p' : PhotoRecord) : Prop where
  photoId : p'.photoId = p.photoId
  libraryId : p'.libraryId = p.libraryId
  types : p.TypesDistinct → p'.TypesDistinct
  fewer : ∀ hash, p'.uses hash ≤ p.uses hash
  origin : ∀ r' ∈ p'.resources, ∀ c, r'.content = some c →
    ∃ r ∈ p.resources, r.content = some c ∧ (p'.Needs r' c → p.Needs r c)

lemma Milder.trans (hf : p.Milder p') (hs : p'.Milder p'') : p.Milder p'' where
  photoId := hs.photoId.trans hf.photoId
  libraryId := hs.libraryId.trans hf.libraryId
  types := hs.types ∘ hf.types
  fewer hash := (hs.fewer hash).trans (hf.fewer hash)
  origin r'' hr c content := by
    obtain ⟨r', hr', hc', hn'⟩ := hs.origin r'' hr c content
    obtain ⟨r, hr0, hc0, hn0⟩ := hf.origin r' hr' c hc'
    exact ⟨r, hr0, hc0, hn0 ∘ hn'⟩

lemma Milder.refl (p : PhotoRecord) : p.Milder p :=
  ⟨rfl, rfl, fun hd => hd, fun _ => le_rfl, fun r' hr _ hc => ⟨r', hr, hc, id⟩⟩

lemma Milder.holds_le (hm : p.Milder p') (library : LibraryId) (hash : ContentHash) :
    p'.holds library hash ≤ p.holds library hash := by
  unfold holds
  rw [hm.libraryId]
  split_ifs
  · exact hm.fewer hash
  · exact le_rfl

lemma Milder.of_map {g : ResourceRecord → ResourceRecord} (photoId : p'.photoId = p.photoId)
    (libraryId : p'.libraryId = p.libraryId) (hr : p'.resources = p.resources.map g)
    (ht : ∀ r, (g r).resourceType = r.resourceType) (hc : ∀ r, (g r).content = r.content)
    (hn : ∀ r ∈ p.resources, ∀ c, r.content = some c → p'.Needs (g r) c → p.Needs r c) :
    p.Milder p' where
  photoId := photoId
  libraryId := libraryId
  types distinct := by
    rw [TypesDistinct, hr, map_map]
    exact (map_congr_left fun r _ => ht r) ▸ distinct
  fewer hash := by
    rw [uses, hr, countP_map]
    refine le_of_eq (countP_congr fun r _ => ?_)
    rw [Function.comp_apply, contentHash, hc r]
    rfl
  origin r' hre c found := by
    rw [hr] at hre
    obtain ⟨r, hr0, rfl⟩ := mem_map.1 hre
    rw [hc] at found
    exact ⟨r, hr0, found, hn r hr0 c found⟩

lemma Milder.of_same (hpi : p'.photoId = p.photoId) (hl : p'.libraryId = p.libraryId)
    (hr : p'.resources = p.resources) (hp : p'.published = p.published) : p.Milder p' :=
  .of_map hpi hl (hr.trans (map_id _).symm) (fun _ => rfl) (fun _ => rfl) fun r _ c _ hn => by
    rw [Needs, hp] at hn
    exact hn

lemma Milder.of_filter {keep : ResourceRecord → Bool} (photoId : p'.photoId = p.photoId)
    (libraryId : p'.libraryId = p.libraryId) (hr : p'.resources = p.resources.filter keep)
    (hp : p'.published = p.published) : p.Milder p' where
  photoId := photoId
  libraryId := libraryId
  types distinct := by
    rw [TypesDistinct, hr]
    exact distinct.sublist (filter_sublist.map _)
  fewer hash := by
    rw [uses, hr]
    exact filter_sublist.countP_le
  origin r' hre c content := by
    rw [hr] at hre
    refine ⟨r', mem_of_mem_filter hre, content, fun hn => ?_⟩
    rw [Needs, hp] at hn
    exact hn

lemma types_updateResource {change} (ht : ∀ r, (change r).resourceType = r.resourceType) :
    (p.updateResource rt change).resources.map resourceType =
      p.resources.map resourceType :=
  map_key_modify fun r hs => (ht r).trans hs

lemma milder_updateResource {change}
    (ht : ∀ r, (change r).resourceType = r.resourceType) (hc : ∀ r, (change r).content = r.content)
    (hne : ∀ r ∈ p.resources, r.resourceType = rt → ∀ c, r.content = some c → p.Needs (change r) c →
      p.Needs r c) :
    p.Milder (p.updateResource rt change) := by
  refine .of_map rfl rfl rfl (fun r => ?_) (fun r => ?_) fun r hr c hf hn => ?_
  · split_ifs
    · exact ht r
    · rfl
  · split_ifs
    · exact hc r
    · rfl
  · split_ifs at hn with hh
    · exact hne r hr hh c hf hn
    · exact hn

lemma milder_reopenResource (p : PhotoRecord) (rt : ResourceType) :
    p.Milder (p.reopenResource rt) :=
  milder_updateResource (fun _ => rfl) (fun _ => rfl) fun _ _ _ _ _ hn => by cases hn.1

lemma milder_insertPendingResource (ran : p.insertPendingResource rt = .ok p') : p.Milder p' := by
  unfold insertPendingResource at ran
  split_ifs at ran with hp
  cases ran
  refine ⟨rfl, rfl, fun hd => ?_, fun hash => ?_, fun r' hr c hc => ?_⟩
  · exact nodup_map_append_singleton.2
      ⟨hd, fun r hr hs => hp (find?_isSome.2 ⟨r, hr, decide_eq_true hs⟩)⟩
  · exact le_of_eq (by simp [uses, contentHash])
  · rcases mem_append.1 hr with hb | new
    · exact ⟨r', hb, hc, id⟩
    · cases mem_singleton.1 new
      cases hc

@[simp] lemma stampMaterialized_resources (p : PhotoRecord) :
    p.stampMaterialized.resources = p.resources := by
  unfold stampMaterialized
  split_ifs <;> rfl

lemma uses_stampMaterialized (p : PhotoRecord)
    (hash : ContentHash) : p.stampMaterialized.uses hash = p.uses hash := by
  rw [uses, stampMaterialized_resources]

@[simp] lemma stampMaterialized_libraryId (p : PhotoRecord) :
    p.stampMaterialized.libraryId = p.libraryId := by
  unfold stampMaterialized
  split_ifs <;> rfl

@[simp] lemma stampMaterialized_photoId (p : PhotoRecord) :
    p.stampMaterialized.photoId = p.photoId := by
  unfold stampMaterialized
  split_ifs <;> rfl

@[simp] lemma stampMaterialized_published (p : PhotoRecord) :
    p.stampMaterialized.published = p.published := by
  unfold stampMaterialized
  split_ifs <;> rfl

lemma milder_markPublished (p : PhotoRecord) : p.Milder p.markPublished := by
  unfold markPublished
  split_ifs
  · exact .of_same rfl rfl rfl rfl
  · refine .of_map rfl rfl rfl (fun r => ?_) (fun r => ?_) fun r _ c hc hn => ?_
    · split_ifs <;> rfl
    · split_ifs <;> rfl
    · split_ifs at hn with hb
      · -- the baseline is the content itself
        rcases hn.2.2 with hu | hd
        · cases hu
        · exact absurd (by simp [contentHash, hc]) hd
      · exact absurd ⟨hn.2.1, hn.1⟩ hb

lemma milder_markWrittenPublished (hd : p.TypesDistinct)
    (rt : ResourceType) : p.Milder (p.markWrittenPublished rt) := by
  unfold markWrittenPublished
  split
  · next r hf =>
      split
      · next hash hh =>
          refine milder_updateResource (fun _ => rfl) (fun _ => rfl) fun r' hr hs c hc hn => ?_
          have row : p.resource rt = some r := (Option.filter_eq_some_iff.1 hf).1
          have row' : p.resource rt = some r' := find?_of_mem hd hr hs
          cases row.symm.trans row'
          rw [contentHash, hc] at hh
          exact ⟨hn.1, hn.2.1, hn.2.2.imp id fun hdi => absurd hh.symm hdi⟩
      · exact .of_same rfl rfl rfl rfl
  · exact .of_same rfl rfl rfl rfl

lemma photoId_markWrittenPublished (rt : ResourceType) (p : PhotoRecord) :
    (p.markWrittenPublished rt).photoId = p.photoId := by
  unfold markWrittenPublished
  split
  · split <;> rfl
  · rfl

lemma libraryId_markWrittenPublished (rt : ResourceType) (p : PhotoRecord) :
    (p.markWrittenPublished rt).libraryId = p.libraryId := by
  unfold markWrittenPublished
  split
  · split <;> rfl
  · rfl

lemma milder_finishResourceRemoval (p : PhotoRecord) (rt : ResourceType) :
    p.Milder (p.finishResourceRemoval rt) :=
  .of_filter rfl rfl rfl rfl

lemma holds_of_library {library} (hash : ContentHash) (hm : p.libraryId = some library) :
    p.holds library hash = p.uses hash := if_pos hm

lemma holds_of_other {library other} (hash : ContentHash) (hm : p.libraryId = some library)
    (ha : other ≠ library) : p.holds other hash = 0 :=
  if_neg fun hs => ha (Option.some.inj (hs.symm.trans hm))

lemma holds_of_empty (he : ∀ r ∈ p.resources, r.content = none) (library : LibraryId)
    (hash : ContentHash) : p.holds library hash = 0 := by
  have hn : (p.resources.countP fun r => r.contentHash = some hash) = 0 := by
    rw [countP_eq_zero]
    intro r hr
    simp [contentHash, he r hr]
  rw [holds, hn, ite_self]

/-- A write takes at most one reference, and gives up the one it replaces. -/
lemma count_writeResource (hd : p.TypesDistinct) (rt : ResourceType)
    (content : StoredContent) (hash : ContentHash) :
    (p.writeResource rt content).uses hash + (decide (p.superseded rt = some hash)).toNat ≤
      p.uses hash + (decide (content.hash = hash)).toNat := by
  cases hf : p.resource rt with
  | none =>
    have ha : rt ∉ p.resources.map resourceType := fun ht => by
      obtain ⟨r, hr, hs⟩ := mem_map.1 ht
      exact lookup_eq_none.1 hf ⟨r, hr, hs⟩
    rw [writeResource, updateResource, modify_of_absent ha, superseded, hf]
    simp
  | some r =>
    have hc : (p.writeResource rt content).uses hash + (decide (r.contentHash = some hash)).toNat =
        p.uses hash + (decide (some content.hash = some hash)).toNat := countP_modify hd hf _
    have hfe : (decide (p.superseded rt = some hash)).toNat ≤
        (decide (r.contentHash = some hash)).toNat := by
      rw [superseded, hf]
      cases hu : r.written <;> simp [hu, Option.filter]
    simp only [Option.some.injEq] at hc
    omega

end PhotoRecord

namespace StateStore

variable {s s' : StateStore} {id : PhotoId} {p p' : PhotoRecord} {content : StoredContent}
  {commit : WriteCommit}

lemma updatePhoto_of_none {change} (hm : s.photo id = none) : s.updatePhoto id change = s := by
  have ha : id ∉ s.photos.map photoId := fun hi => by
    obtain ⟨p, hp, hs⟩ := mem_map.1 hi
    exact lookup_eq_none.1 hm ⟨p, hp, hs⟩
  rw [updatePhoto, modify_of_absent ha]

namespace Sound

lemma updatePhoto_eq {change} (hs : s.Sound) (hf : s.photo id = some p) :
    s.updatePhoto id change = s.updatePhoto id fun _ => change p := by
  unfold updatePhoto
  congr 1
  refine map_congr_left fun q hp => ?_
  split_ifs with hh
  · have same : s.photo q.photoId = some q := hs.photo_of_mem hp
    rw [hh, hf] at same
    rw [Option.some.inj same]
  · rfl

lemma replaceMilder (hs : s.Sound) (hfo : s.photo id = some p) (mild : p.Milder p')
    (hph : s'.photos = (s.updatePhoto id fun _ => p').photos)
    (hco : ∀ library hash,
      s.ledger library hash + p'.holds library hash ≤ s'.ledger library hash + p.holds library hash)
    (hfe : FewerRows s s') : s'.Sound := by
  obtain ⟨hp, hna⟩ := mem_of_photo hfo
  refine hs.replace hfo (mild.photoId.trans hna)
    (mild.types (hs.types p hp)) ?_ hph hco hfe.keepsRows ?_
  · intro hu r hr
    by_contra hc
    obtain ⟨c, hc⟩ := Option.ne_none_iff_exists'.1 hc
    obtain ⟨r₀, hr0, hc0, _⟩ := mild.origin r hr c hc
    have hno := hs.unmapped p hp (mild.libraryId ▸ hu) r₀ hr0
    cases hno.symm.trans hc0
  · intro library hm r hr c hc b hf
    obtain ⟨r₀, hr0, hc0, hn⟩ := mild.origin r hr c hc
    obtain ⟨ext, hl⟩ :=
      hs.others hfe.keepsRows hp (mild.libraryId ▸ hm) hr0 hc0 hf
    exact ⟨ext, hl ∘ hn⟩

lemma updateMilder {change} (hs : s.Sound)
    (mild : ∀ p : PhotoRecord, p.TypesDistinct → p.Milder (change p)) :
    (s.updatePhoto id change).Sound := by
  cases hf : s.photo id with
  | none =>
    rw [updatePhoto_of_none hf]
    exact hs
  | some p =>
    rw [hs.updatePhoto_eq hf]
    have hm := mild p (hs.types p (mem_of_photo hf).1)
    refine hs.replaceMilder hf hm rfl (fun library hash => ?_) (FewerRows.refl s)
    have hfe := hm.holds_le library hash
    rw [ledger_updatePhoto]
    omega

end Sound

/-- A commit: the photo's row, a reference more, perhaps one less, and at most one new row in
`blobs`. -/
lemma markResourceWritten_ok {rt} (ran : s.markResourceWritten id rt content = .ok (s', commit)) :
    ∃ p library, s.photo id = some p ∧ p.libraryId = some library ∧
      OnlyBlobs (s.updatePhoto id fun _ => (p.writeResource rt content).stampMaterialized) s' ∧
      (∀ other hash, s'.ledger other hash = s.ledger other hash +
        (if other = library ∧ hash = content.hash then 1 else 0) -
        (if other = library ∧ p.superseded rt = some hash then 1 else 0)) ∧
      ∀ other hash b, s'.blob other hash = some b →
        (∃ b₀, s.blob other hash = some b₀ ∧ b.ext = b₀.ext ∧ b.evicted = b₀.evicted) ∨
          (other = library ∧ hash = content.hash ∧ s.blob other hash = none ∧ b.ext = content.ext ∧
            b.evicted = false) := by
  unfold markResourceWritten at ran
  split at ran
  · cases ran
  rename_i p hfo
  split at ran
  · cases ran
  rename_i library hm
  refine ⟨p, library, hfo, hm, ?_⟩
  split at ran
  · rename_i hr
    cases ran
    refine ⟨onlyBlobs_upsertIncrement, fun other hash => ?_, fun other hash b hf => ?_⟩
    · rw [ledger_upsertIncrement]
      simp [hr]
    · have hk := blob_upsertIncrement_cases hf
      exact hk
  rename_i old hr
  simp only [bind_eq_ok, pure_eq_ok] at ran
  obtain ⟨⟨swapped, reaped⟩, ran, hs⟩ := ran
  cases hs
  obtain ⟨hp, hfe, hc, _⟩ := decrementAndReap_ok ran
  refine ⟨onlyBlobs_upsertIncrement.trans hp, fun other hash => ?_, fun other hash b hf => ?_⟩
  · rw [hc, ledger_upsertIncrement]
    simp only [ledger_updatePhoto, hr, Option.some.injEq, eq_comm]
  · obtain ⟨b₁, hf1, ext, he⟩ := hfe other hash b hf
    rw [ext, he]
    have hk := blob_upsertIncrement_cases hf1
    exact hk

namespace Sound

/-- A commit keeps the ledger, if its blob's row has its `ext` and is not evicted. -/
lemma markResourceWritten (hs : s.Sound) {rt}
    (ran : s.markResourceWritten id rt content = .ok (s', commit))
    (ha : ∀ p library b, s.photo id = some p → p.libraryId = some library →
      s.blob library content.hash = some b →
      b.ext = content.ext ∧ b.evicted = false) : s'.Sound := by
  obtain ⟨p, library, hfo, hm, hph, hc, rows⟩ := markResourceWritten_ok ran
  obtain ⟨hp, hn⟩ := mem_of_photo hfo
  have hd := hs.types p hp
  have hk : KeepsRows s s' := by
    intro other hash b b' hb haf
    rcases rows other hash b' haf with ⟨b₀, hf0, same⟩ | ⟨_, _, hmi, _⟩
    · cases hb.symm.trans hf0
      exact same
    · cases hb.symm.trans hmi
  refine hs.replace hfo ?_ ?_ ?_ hph.photos (fun other hash => ?_) hk ?_
  · rw [stampMaterialized_photoId]
    exact hn
  · rw [PhotoRecord.TypesDistinct, stampMaterialized_resources, writeResource,
      types_updateResource (by simp)]
    exact hd
  · rw [stampMaterialized_libraryId]
    exact fun hu =>
      absurd hu (by rw [show (p.writeResource rt content).libraryId = some library from hm]; simp)
  · rw [hc]
    have hco := count_writeResource hd rt content hash
    by_cases same : other = library
    · subst same
      rw [holds_of_library hash hm, holds_of_library hash
        (by rw [stampMaterialized_libraryId]; exact hm), uses_stampMaterialized]
      by_cases new : content.hash = hash <;> by_cases old : p.superseded rt = some hash <;>
        simp [new, old] at hco ⊢ <;> omega
    · rw [holds_of_other hash hm same, holds_of_other hash
        (by rw [stampMaterialized_libraryId]; exact hm) same]
      simp [same]
  · intro other hm' r hr c hf b hfr
    rw [stampMaterialized_libraryId] at hm'
    cases hm.symm.trans hm'
    rw [stampMaterialized_resources] at hr
    obtain ⟨r₀, hr0, rfl⟩ := mem_map.1 hr
    by_cases hh : r₀.resourceType = rt
    · rw [if_pos hh] at hf
      cases hf
      rcases rows library content.hash b hfr with ⟨b₀, hf0, ext, he⟩ | ⟨_, _, _, ext, he⟩
      · obtain ⟨he0, hl⟩ := ha p library b₀ hfo hm hf0
        exact ⟨ext.trans he0, fun _ => he.trans hl⟩
      · exact ⟨ext, fun _ => he⟩
    · rw [if_neg hh] at hf ⊢
      rw [PhotoRecord.Needs, stampMaterialized_published]
      exact hs.others hk hp hm hr0 hf hfr

end Sound

end StateStore

end HopNet.Ingress
