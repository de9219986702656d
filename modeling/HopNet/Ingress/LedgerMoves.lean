import HopNet.Ingress.Rework

/-!
The transactions that give references up or move them, and the seeding of photos, keep the
ledger. -/

namespace HopNet.Ingress

open List Fallible Table PhotoRecord ResourceRecord

variable {s s' : StateStore} {id : PhotoId} {p : PhotoRecord}

namespace StateStore

variable {library : Option LibraryId} {reap reap' : List (ContentHash × String)}
  {src dst : LibraryId}

lemma dropReferences_ok {rows : List ResourceRecord}
    (ran : rows.foldlM (dropReference library) (s, reap) = .ok (s', reap')) :
    OnlyBlobs s s' ∧ FewerRows s s' ∧ ∀ other hash, s'.ledger other hash =
      s.ledger other hash - if library = some other then
      (rows.countP fun r => r.contentHash = some hash : Nat) else 0 := by
  induction rows generalizing s reap with
  | nil =>
    cases ran
    exact ⟨.refl _, .refl _, fun other hash => by simp⟩
  | cons row rest ih =>
    simp only [foldlM_cons, bind_eq_ok] at ran
    obtain ⟨⟨middle, reap₁⟩, hf, ho⟩ := ran
    obtain ⟨hp1, hf1, hc1⟩ := dropReference_ok hf
    obtain ⟨hp2, hf2, hc2⟩ := ih ho
    refine ⟨hp1.trans hp2, hf1.trans hf2, fun other hash => ?_⟩
    rw [hc2, hc1, countP_cons]
    by_cases here : library = some other
    · by_cases hh : row.contentHash = some hash
      · simp [here, hh]
        omega
      · simp [here, hh]
    · simp [here]

namespace Sound

lemma delete (hs : s.Sound) (hfo : s.photo id = some p)
    (photos : s'.photos = delete photoId id s.photos)
    (hcs : ∀ library hash, s.ledger library hash ≤ s'.ledger library hash + p.holds library hash)
    (hk : KeepsRows s s') : s'.Sound := by
  have hm : ∀ q ∈ s'.photos, q ∈ s.photos := fun q hp =>
    mem_of_mem_filter (photos ▸ hp)
  refine ⟨?_, fun q hp => hs.types q (hm q hp),
    fun q hp => hs.unmapped q (hm q hp), fun library hash => ?_, ?_⟩
  · rw [photos]
    exact hs.distinct.sublist (filter_sublist.map _)
  · have sums : ((Table.delete photoId id s.photos).map (holds library hash)).sum +
        p.holds library hash = (s.photos.map (holds library hash)).sum :=
      sum_delete hs.distinct hfo _
    have hc := hs.counted library hash
    have hcd := hcs library hash
    rw [refs] at hc ⊢
    rw [photos]
    omega
  · intro q hp library hma r hr c hco b hf
    exact hs.others hk (hm q hp) hma hr hco hf

lemma hardDelete (hs : s.Sound) (hfo : s.photo id = some p)
    (ran : s.hardDelete p = .ok (s', reap)) : s'.Sound ∧ FewerRows s s' := by
  simp only [StateStore.hardDelete, bind_eq_ok, pure_eq_ok] at ran
  obtain ⟨⟨counted, reap'⟩, hd, same⟩ := ran
  cases same
  obtain ⟨hp, hfe, hc⟩ := dropReferences_ok hd
  refine ⟨hs.delete hfo ?_ (fun other hash => ?_) hfe.keepsRows, hfe⟩
  · rw [(mem_of_photo hfo).2, hp.photos]
  · have hl : s.ledger other hash - _ = counted.ledger other hash := (hc other hash).symm
    have hf := p.countP_liveResources_le fun r => r.contentHash = some hash
    show s.ledger other hash ≤ counted.ledger other hash + _
    rw [← hl, holds]
    split_ifs <;> omega

end Sound

lemma Sound.applyResources {plan} (hs : s.Sound) (hfo : s.photo plan.photoId = some p)
    (ran : s.applyResources plan p.libraryId = .ok (s', reap)) :
    s'.Sound ∧ FewerRows s s' ∧ ∃ p', p.Milder p' ∧
      s'.photos = (s.updatePhoto plan.photoId fun _ => p').photos := by
  obtain ⟨p', hc, hr, _⟩ := applyResources_ok hfo (hs.types p (mem_of_photo hfo).1) ran
  refine ⟨hs.replaceMilder hfo hr.toMilder hc.only.photos (fun library hash => ?_) hc.fewer,
    hc.fewer, p', hr.toMilder, hc.only.photos⟩
  have hle := hc.counts library hash
  rw [holds, holds, hr.libraryId]
  exact hle.le

/-- Only the target has new rows, of contents that moved. -/
def RowsFrom (dst : LibraryId) (written : List StoredContent) (s s' : StateStore) : Prop :=
  ∀ library hash b, s'.blob library hash = some b →
    (∃ b₀, s.blob library hash = some b₀ ∧ b.ext = b₀.ext ∧ b.evicted = b₀.evicted) ∨
      (library = dst ∧ s.blob library hash = none ∧ b.evicted = false ∧
        ∃ c ∈ written, c.hash = hash ∧ b.ext = c.ext)

/-- One reference moved: the target's row is there. -/
lemma transferBlob_ok {c} (ha : src ≠ dst) (ran : transferBlob src dst s c = .ok s') :
    OnlyBlobs s s' ∧
    (∀ library hash, s'.ledger library hash = s.ledger library hash +
      (if library = dst ∧ hash = c.hash then 1 else 0) - if library = src ∧
      hash = c.hash then 1 else 0) ∧
    (∀ hash, s'.blob dst hash = none → s.blob dst hash = none) ∧ RowsFrom dst [c] s s' := by
  simp only [transferBlob, bind_eq_ok, pure_eq_ok] at ran
  obtain ⟨⟨moved, reaped⟩, ran, rfl⟩ := ran
  obtain ⟨hp, hfe, hc, ho⟩ := decrementAndReap_ok ran
  refine ⟨onlyBlobs_upsertIncrement.trans hp, fun library hash => ?_, fun hash hm => ?_,
    fun library hash b hf => ?_⟩
  · rw [hc, ledger_upsertIncrement]
  · rw [ho dst hash ha.symm, blob_upsertIncrement] at hm
    split_ifs at hm
    exact hm
  · obtain ⟨b₁, hf1, ext, he⟩ := hfe library hash b hf
    rw [ext, he]
    rcases blob_upsertIncrement_cases hf1 with old | ⟨hd, hh, hm, he, hl⟩
    · exact .inl old
    · exact .inr ⟨hd, hm, hl, c, mem_cons_self, hh.symm, he⟩

lemma transferBlobs_ok {written : List StoredContent} (ha : src ≠ dst)
    (ran : written.foldlM (transferBlob src dst) s = .ok s') :
    OnlyBlobs s s' ∧
      (∀ library hash, s'.ledger library hash = s.ledger library hash +
        (if library = dst then (written.countP fun c => c.hash = hash : Nat) else 0) -
        if library = src then (written.countP fun c => c.hash = hash : Nat) else 0) ∧
      RowsFrom dst written s s' := by
  induction written generalizing s with
  | nil =>
    cases ran
    exact ⟨.refl _, fun library hash => by simp, fun _ _ b hf => .inl ⟨b, hf, rfl, rfl⟩⟩
  | cons c rest ih =>
    simp only [foldlM_cons, bind_eq_ok] at ran
    obtain ⟨middle, hfi, ho⟩ := ran
    obtain ⟨hp1, hc1, hs1, hr1⟩ := transferBlob_ok ha hfi
    obtain ⟨hp2, hc2, hr2⟩ := ih ho
    refine ⟨hp1.trans hp2, fun library hash => ?_, fun library hash b hf => ?_⟩
    · rw [hc2, hc1, countP_cons]
      by_cases hs : c.hash = hash
      · simp only [hs, and_true, decide_true, ↓reduceIte]
        split_ifs <;> omega
      · simp [hs, Ne.symm hs]
    · rcases hr2 library hash b hf with ⟨b₁, hf1, ext, he⟩ | ⟨rfl, hm, hl, c', hr, hh, ext⟩
      · rcases hr1 library hash b₁ hf1 with ⟨b₀, hf0, hex0, he0⟩ | ⟨rfl, hm, hl0, c', hc, hh, hex0⟩
        · exact .inl ⟨b₀, hf0, ext.trans hex0, he.trans he0⟩
        · cases mem_singleton.1 hc
          exact .inr ⟨rfl, hm, he.trans hl0, c, mem_cons_self, hh, ext.trans hex0⟩
      · exact .inr ⟨rfl, hs1 hash hm, hl, c', mem_cons_of_mem _ hr, hh, ext⟩

end StateStore

namespace PhotoRecord

/-- No resource row points to content that a pending write is to replace. -/
def Settled (p : PhotoRecord) : Prop :=
  ∀ r ∈ p.resources, r.content ≠ none → r.written ∧ r.removed = false
deriving Decidable

/-- A settled photo gives all of its references to a transition. -/
lemma countP_writtenContents (hs : p.Settled) (hash : ContentHash) :
    (p.writtenContents.countP (·.hash = hash)) = p.uses hash := by
  have hl : ((p.resources.filter fun r => !r.removed).insertionSort fun a b =>
      a.resourceType.value ≤ b.resourceType.value).countP _ = _ :=
        (perm_insertionSort _ _).countP_eq
    fun r => decide (r.contentHash = some hash) && r.written
  rw [writtenContents, countP_filterMap, countP_filter, ← countP_congr, liveResources, hl,
    countP_filter]
  · refine countP_congr fun r hr => ?_
    cases hc : r.content with
    | none => simp [contentHash, hc]
    | some c =>
      obtain ⟨hw, hk⟩ := hs r hr (by rw [hc]; simp)
      simp [contentHash, hc, hw, hk]
  · intro r _
    cases hc : r.content <;> simp [contentHash, hc]

lemma exists_of_mem_writtenContents {c} (ht : c ∈ p.writtenContents) :
    ∃ r ∈ p.resources, r.content = some c := by
  obtain ⟨r, hl, hc⟩ := mem_filterMap.1 ht
  exact ⟨r, (mem_liveResources.1 (mem_of_mem_filter hl)).1, hc⟩

end PhotoRecord

namespace StateStore

/-- A transition of a settled photo keeps the ledger, if the target's rows have the `ext` of what
moves and the bytes of what the mesh needs. -/
lemma Sound.transitionTx {src dst : LibraryId} (hso : s.Sound) (hfo : s.photo id = some p)
    (hm : p.libraryId = some src) (hap : src ≠ dst) (hs : p.Settled)
    (ha : ∀ r ∈ p.resources, ∀ c, r.content = some c → ∀ b, s.blob dst c.hash = some b →
      b.ext = c.ext ∧ (p.Needs r c → b.evicted = false))
    (ran : s.transitionTx id src dst p.writtenContents = .ok s') :
    s'.Sound ∧ s'.photos = (s.updatePhoto id fun _ => p.setLibrary dst).photos ∧
      RowsFrom dst p.writtenContents s s' := by
  obtain ⟨hp, hn⟩ := mem_of_photo hfo
  simp only [StateStore.transitionTx, bind_eq_ok, pure_eq_ok] at ran
  obtain ⟨moved, ht, rfl⟩ := ran
  obtain ⟨photos, hco, rows⟩ := transferBlobs_ok hap ht
  have hre : (moved.updatePhoto id fun p => p.setLibrary dst).photos =
      (s.updatePhoto id fun _ => p.setLibrary dst).photos := by
    have same : (s.updatePhoto id fun p => p.setLibrary dst) = s.updatePhoto id fun _ =>
        p.setLibrary dst :=
          hso.updatePhoto_eq hfo
    rw [← same, updatePhoto, updatePhoto, photos.photos]
  have hk : KeepsRows s moved := by
    intro library hash b b' hb haf
    rcases rows library hash b' haf with ⟨b₀, hf0, same⟩ | ⟨_, hmi, _⟩
    · cases hb.symm.trans hf0
      exact same
    · cases hb.symm.trans hmi
  have hsi : (p.setLibrary dst).photoId = id := hn
  refine ⟨hso.replace hfo hsi (hso.types p hp) (fun hu => by cases hu) hre
    (fun library hash => ?_) hk ?_, hre, rows⟩
  · rw [ledger_updatePhoto, hco, countP_writtenContents hs]
    unfold holds setLibrary
    rw [hm]
    by_cases hsr : library = src
    · subst hsr
      simp [hap, hap.symm]
    · by_cases hd : library = dst
      · subst hd
        simp [hap, hap.symm]
      · simp [hsr, hd, Ne.symm hsr, Ne.symm hd]
  · intro library hm' r hr c hc b hf
    cases hm'
    rcases rows dst c.hash b hf with ⟨b₀, hf0, ext, he⟩ | ⟨_, _, live, c', hl, hh, ext⟩
    · rw [ext, he]
      exact ha r hr c hc b₀ hf0
    · -- two resources with these bytes have the `ext` of the source's row
      obtain ⟨r', hr', hc'⟩ := exists_of_mem_writtenContents hl
      obtain ⟨b₁, hf1⟩ := hso.exists_row hp hm hr (by rw [contentHash, hc]; rfl)
      have he1 := (hso.rows p hp src hm r hr c hc b₁ hf1).1
      have he2 := (hso.rows p hp src hm r' hr' c' hc' b₁ (by rw [hh]; exact hf1)).1
      exact ⟨ext.trans (he2.symm.trans he1), fun _ => live⟩

lemma newPhoto_resources (minted : PhotoId) (now : Nat) (desc : AssetDescriptor)
    (library : Option LibraryId) :
    (newPhoto minted now desc library).TypesDistinct ∧
      ∀ r ∈ (newPhoto minted now desc library).resources, r.content = none ∧ r.written = false := by
  unfold newPhoto PhotoRecord.TypesDistinct
  generalize desc.resourceTypes = rts
  induction rts using List.reverseRecOn with
  | nil => simp
  | append_singleton rest rt ih =>
    obtain ⟨hd, hp⟩ := ih
    simp only [foldl_append, foldl_cons, foldl_nil]
    rw [insertOrIgnore]
    split_ifs with hpr
    · exact ⟨hd, hp⟩
    · constructor
      · exact nodup_map_append_singleton.2 ⟨hd, fun r hr hs => hpr ⟨r, hr, hs⟩⟩
      · exact forall_mem_append.2 ⟨hp, forall_mem_singleton.2 ⟨rfl, rfl⟩⟩

end StateStore

end HopNet.Ingress
