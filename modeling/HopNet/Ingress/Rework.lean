import HopNet.Ingress.LedgerSteps

namespace HopNet.Ingress

open List Fallible Table PhotoRecord ResourceRecord StateStore Option

namespace PhotoRecord

variable {p p' p'' : PhotoRecord} {rt : ResourceType} {r : ResourceRecord}

lemma mem_liveResources : r ∈ p.liveResources ↔ r ∈ p.resources ∧ r.removed = false := by
  rw [liveResources, mem_insertionSort, mem_filter]
  simp

lemma countP_liveResources_le (test : ResourceRecord → Bool) :
    p.liveResources.countP test ≤ p.resources.countP test :=
  ((perm_insertionSort _ _).countP_eq test).trans_le filter_sublist.countP_le

lemma resource_of_mem (hd : p.TypesDistinct) (hr : r ∈ p.resources) :
    p.resource r.resourceType = some r :=
  find?_of_mem hd hr rfl

/-- A removal gives up the reference of its row. -/
lemma uses_removeResource (hd : p.TypesDistinct) (hf : p.resource rt = some r)
    (hash : ContentHash) :
    (p.removeResource rt).uses hash + (decide (r.contentHash = some hash)).toNat = p.uses hash := by
  unfold removeResource
  rw [hf]
  by_cases hp : r.publishedContentHash.isSome
  · have hc : (p.updateResource rt fun r => { r with removed := true, content := none }).uses hash +
        (decide (r.contentHash = some hash)).toNat =
        p.uses hash + (decide ((none : Option ContentHash) = some hash)).toNat :=
          countP_modify hd hf _
    simpa [hp] using hc
  · have hc : (p.deleteResourceRow rt).uses hash + (decide (r.contentHash = some hash)).toNat =
        p.uses hash :=
          countP_delete hd hf _
    simpa [hp] using hc

lemma resource_removeResource {other} (ha : other ≠ rt) :
    (p.removeResource rt).resource other = p.resource other := by
  unfold removeResource
  split
  · split_ifs
    · have hl : lookup resourceType other (p.updateResource rt fun r =>
          { r with removed := true, content := none }).resources = _ := lookup_modify fun _ hs => hs
      rw [resource, hl, if_neg ha]
      rfl
    · have hl : lookup resourceType other (p.deleteResourceRow rt).resources = _ :=
        lookup_delete
      rw [resource, hl, if_neg ha]
      rfl
  · rfl

/-- A change of resource rows by which nothing becomes written. -/
structure Reworked (p p' : PhotoRecord) : Prop extends Milder p p' where
  same : p' = { p with materialized := p'.materialized, resources := p'.resources }
  rows : ∀ r ∈ p'.resources, r.removed = false → r.written → r ∈ p.resources

lemma Reworked.refl (p : PhotoRecord) : p.Reworked p := ⟨.refl p, rfl, fun _ hr _ _ => hr⟩

lemma Reworked.trans (hf : p.Reworked p') (hs : p'.Reworked p'') : p.Reworked p'' where
  toMilder := hf.toMilder.trans hs.toMilder
  same := by
    rw [hs.same, hf.same]
  rows := fun r hr hl hw => hf.rows r (hs.rows r hr hl hw) hl hw

lemma reworked_reopenResource (p : PhotoRecord) (rt : ResourceType) :
    p.Reworked (p.reopenResource rt) := by
  refine ⟨p.milder_reopenResource rt, rfl, fun r hr _ hw => ?_⟩
  obtain ⟨r₀, hr0, rfl⟩ := mem_map.1 hr
  by_cases hh : r₀.resourceType = rt
  · rw [if_pos hh] at hw
    cases hw
  · rw [if_neg hh]
    exact hr0

lemma reworked_removeResource (hd : p.TypesDistinct) (rt : ResourceType) :
    p.Reworked (p.removeResource rt) := by
  cases hf : p.resource rt with
  | none =>
    rw [removeResource, hf]
    exact .refl p
  | some r =>
    have hc := uses_removeResource hd hf
    by_cases hp : r.publishedContentHash.isSome
    · have hr : p.removeResource rt = p.updateResource rt fun r =>
          { r with removed := true, content := none } := by
        rw [removeResource, hf]
        exact if_pos hp
      rw [hr] at hc ⊢
      refine ⟨⟨rfl, rfl, fun _ => ?_, fun hash => ?_, fun r' hre c content => ?_⟩, rfl,
        fun r' hre hl _ => ?_⟩
      · rw [TypesDistinct, types_updateResource (by simp)]
        exact hd
      · have := hc hash
        omega
      · obtain ⟨r₀, hr0, rfl⟩ := mem_map.1 hre
        by_cases hh : r₀.resourceType = rt
        · rw [if_pos hh] at content
          cases content
        · rw [if_neg hh] at content ⊢
          exact ⟨r₀, hr0, content, id⟩
      · obtain ⟨r₀, hr0, rfl⟩ := mem_map.1 hre
        by_cases hh : r₀.resourceType = rt
        · rw [if_pos hh] at hl
          cases hl
        · rw [if_neg hh]
          exact hr0
    · have hg : p.removeResource rt = p.deleteResourceRow rt := by
        rw [removeResource, hf]
        exact if_neg hp
      rw [hg]
      exact ⟨.of_filter rfl rfl rfl rfl, rfl, fun _ hr _ _ => mem_of_mem_filter hr⟩

lemma reworked_settleMaterialized (plan : ChangePlan) (p : PhotoRecord) :
    p.Reworked (settleMaterialized plan p) := by
  unfold settleMaterialized
  split_ifs
  · exact ⟨.of_same rfl rfl rfl rfl, rfl, fun _ hr _ _ => hr⟩
  · unfold stampMaterialized
    split_ifs
    · exact ⟨.of_same rfl rfl rfl rfl, rfl, fun _ hr _ _ => hr⟩
    · exact .refl p
  · exact .refl p

lemma uses_settleMaterialized (plan : ChangePlan) (p : PhotoRecord) (hash : ContentHash) :
    (settleMaterialized plan p).uses hash = p.uses hash := by
  unfold settleMaterialized
  split_ifs
  · rfl
  · exact p.uses_stampMaterialized hash
  · rfl

/-- The photo has a row of the type, as much written and as much published. -/
def Keeps (p : PhotoRecord) (r : ResourceRecord) : Prop :=
  ∃ r' ∈ p.resources, r'.resourceType = r.resourceType ∧ r'.written = r.written ∧
    r'.publishedContentHash = r.publishedContentHash

lemma keeps_of_mem (hr : r ∈ p.resources) : p.Keeps r := ⟨r, hr, rfl, rfl, rfl⟩

lemma keeps_removeResource (hd : p.TypesDistinct) (hr : r ∈ p.resources)
    (ht : r.resourceType = rt → r.publishedContentHash ≠ none) : (p.removeResource rt).Keeps r := by
  by_cases hh : r.resourceType = rt
  · have hf : p.resource rt = some r := hh ▸ resource_of_mem hd hr
    have hm : r.publishedContentHash.isSome := isSome_iff_ne_none.2 (ht hh)
    have hre : p.removeResource rt = p.updateResource rt fun r =>
        { r with removed := true, content := none } := by
      rw [removeResource, hf]
      exact if_pos hm
    rw [hre]
    exact ⟨_, mem_map.2 ⟨r, hr, if_pos hh⟩, rfl, rfl, rfl⟩
  · unfold removeResource
    split
    · split_ifs
      · exact keeps_of_mem (mem_map.2 ⟨r, hr, if_neg hh⟩)
      · exact keeps_of_mem (mem_filter.2 ⟨hr, decide_eq_true hh⟩)
    · exact keeps_of_mem hr

/-- Once every row is written the photo is complete. -/
def Completes (p : PhotoRecord) : Prop := (∀ r ∈ p.resources, r.written) → p.materialized

lemma completes_of_pending (hr : r ∈ p.resources) (hp : r.written = false) :
    p.Completes := fun all => by
  have hw := all r hr
  rw [hp] at hw
  cases hw

lemma completes_stampMaterialized (p : PhotoRecord) : p.stampMaterialized.Completes := by
  intro all
  unfold stampMaterialized at all ⊢
  split_ifs at all ⊢ with hi
  · rfl
  · cases hm : p.materialized with
    | true => rfl
    | false => exact absurd ⟨hm, all⟩ hi

end PhotoRecord

namespace StateStore

variable {s s' : StateStore} {p q q' : PhotoRecord} {library : Option LibraryId} {plan : ChangePlan}
  {reap reap' : List (ContentHash × String)} {rt : ResourceType} {rows : List ResourceRecord}
  {rts : List ResourceType}

lemma dropReference_ok {row} (ran : dropReference library (s, reap) row = .ok (s', reap')) :
    OnlyBlobs s s' ∧ FewerRows s s' ∧ ∀ other hash, s'.ledger other hash =
      s.ledger other hash - if library = some other ∧ row.contentHash = some hash then 1
        else 0 := by
  unfold dropReference at ran
  cases hc : row.content with
  | none =>
    simp only [hc] at ran
    cases ran
    refine ⟨.refl s, .refl s, fun other hash => ?_⟩
    simp [contentHash, hc]
  | some c =>
    cases library with
    | none =>
      simp only [hc] at ran
      cases ran
      refine ⟨.refl s, .refl s, fun other hash => ?_⟩
      simp
    | some library =>
      simp only [hc, bind_eq_ok, pure_eq_ok] at ran
      obtain ⟨⟨counted, reaped⟩, ran, hs⟩ := ran
      cases hs
      obtain ⟨hp, hf, hco, _⟩ := decrementAndReap_ok ran
      refine ⟨hp, hf, fun other hash => ?_⟩
      rw [hco]
      simp only [contentHash, hc, map_some, some.injEq, eq_comm]

/-- What a transaction counting in `library` did when the row went from `p` to `p'`: each reference
given up is one less. -/
structure Recounts (library : Option LibraryId) (p p' : PhotoRecord) (s s' : StateStore) :
    Prop where
  only : OnlyBlobs s s'
  fewer : FewerRows s s'
  counts : ∀ other hash, s.ledger other hash + (if library = some other then p'.uses hash
    else 0 : Nat) = s'.ledger other hash + (if library = some other then p.uses hash else 0 : Nat)

lemma Recounts.refl (library : Option LibraryId) (p : PhotoRecord) (s : StateStore) :
    Recounts library p p s s :=
  ⟨.refl s, .refl s, fun _ _ => rfl⟩

lemma removeOne_ok (hd : q.TypesDistinct)
    (hro : ∀ row ∈ rows, row.resourceType = rt → q.resource rt = some row)
    (ran : removeOne library rows (s, q, reap) rt = .ok (s', q', reap')) :
    Recounts library q q' s s' ∧ q.Reworked q' ∧
      (∀ r ∈ q.resources, (r.resourceType = rt → r.publishedContentHash ≠ none) → q'.Keeps r) ∧
      ∀ other ≠ rt, q'.resource other = q.resource other := by
  unfold removeOne at ran
  split at ran
  · cases ran
    exact ⟨.refl .., .refl q, fun r hr _ => keeps_of_mem hr, fun _ _ => rfl⟩
  rename_i row hl
  simp only [bind_eq_ok, pure_eq_ok] at ran
  obtain ⟨⟨counted, reap₁⟩, hdr, hs'⟩ := ran
  cases hs'
  obtain ⟨hp, hfe, hc⟩ := dropReference_ok hdr
  have hf := hro row (mem_of_find?_eq_some hl) (by simpa using find?_some hl)
  refine ⟨⟨hp, hfe, fun other hash => ?_⟩, reworked_removeResource hd rt,
    fun r hr ht => keeps_removeResource hd hr ht, fun other ha => resource_removeResource ha⟩
  have hco := uses_removeResource hd hf hash
  rw [hc]
  by_cases here : library = some other
  · by_cases hh : row.contentHash = some hash
    · simp [here, hh] at hco ⊢
      omega
    · simp [here, hh] at hco ⊢
      omega
  · simp [here]

lemma removeAll_ok (once : rts.Nodup) (hd : q.TypesDistinct)
    (hro : ∀ rt ∈ rts, ∀ row ∈ rows, row.resourceType = rt → q.resource rt = some row)
    (ran : rts.foldlM (removeOne library rows) (s, q, reap) = .ok (s', q', reap')) :
    Recounts library q q' s s' ∧ q.Reworked q' ∧
      ∀ r ∈ q.resources, (r.resourceType ∈ rts → r.publishedContentHash ≠ none) → q'.Keeps r := by
  induction rts generalizing s q reap with
  | nil =>
    cases ran
    exact ⟨.refl .., .refl _, fun r hr _ => keeps_of_mem hr⟩
  | cons rt rest ih =>
    simp only [foldlM_cons, bind_eq_ok] at ran
    obtain ⟨⟨middle, q₁, reap₁⟩, hf, ho⟩ := ran
    rw [nodup_cons] at once
    obtain ⟨hc1, hr1, hk1, hu⟩ := removeOne_ok hd (hro rt mem_cons_self) hf
    obtain ⟨hc2, hr2, hk2⟩ := ih once.2 (hr1.types hd) (fun other hr row hrow hty => by
      rw [hu other fun hb => once.1 (hb ▸ hr)]
      exact hro other (mem_cons_of_mem _ hr) row hrow hty) ho
    refine ⟨⟨hc1.only.trans hc2.only, hc1.fewer.trans hc2.fewer, fun other hash => ?_⟩,
      hr1.trans hr2, fun r hr ht => ?_⟩
    · have one := hc1.counts other hash
      have hm := hc2.counts other hash
      omega
    · obtain ⟨r₁, hre1, ht1, hw1, hto1⟩ := hk1 r hr fun hh => ht (hh ▸ mem_cons_self)
      obtain ⟨r₂, hre2, ht2, hw2, hto2⟩ := hk2 r₁ hre1 fun hre => by
        rw [hto1]
        exact ht (mem_cons_of_mem _ (ht1 ▸ hre))
      exact ⟨r₂, hre2, ht2.trans ht1, hw2.trans hw1, hto2.trans hto1⟩

lemma adding_ok (ran : rts.foldlM insertPendingResource p = .ok q) :
    p.Reworked q ∧ (∀ hash, q.uses hash = p.uses hash) ∧ (∀ r ∈ p.resources, r ∈ q.resources) ∧
      ∀ rt ∈ rts, (⟨rt, none, false, none, false⟩ : ResourceRecord) ∈ q.resources := by
  induction rts generalizing p with
  | nil =>
    cases ran
    exact ⟨.refl _, fun _ => rfl, fun _ hr => hr, fun _ hn => by cases hn⟩
  | cons rt rest ih =>
    simp only [foldlM_cons, bind_eq_ok] at ran
    obtain ⟨first, ha, ho⟩ := ran
    obtain ⟨hre, hus, hk, had⟩ := ih ho
    have hm := milder_insertPendingResource ha
    unfold insertPendingResource at ha
    split_ifs at ha
    cases ha
    refine ⟨.trans ⟨hm, rfl, fun r hr _ hw => ?_⟩ hre, fun hash => ?_,
      fun r hr => hk r (mem_append_left _ hr), ?_⟩
    · rcases mem_append.1 hr with hb | new
      · exact hb
      · cases mem_singleton.1 new
        cases hw
    · rw [hus]
      simp [uses, contentHash]
    · rintro other (_ | ⟨_, hrt⟩)
      · exact hk _ (mem_append_right _ mem_cons_self)
      · exact had other hrt

lemma reopening_ok (rts : List ResourceType) (p : PhotoRecord) :
    p.Reworked (rts.foldl reopenResource p) ∧
    (∀ hash, (rts.foldl reopenResource p).uses hash = p.uses hash) ∧
    ∀ r ∈ p.resources, ∃ r' ∈ (rts.foldl reopenResource p).resources,
      r'.resourceType = r.resourceType ∧ r'.publishedContentHash = r.publishedContentHash ∧
      (r.resourceType ∈ rts ∨ r.written = false → r'.written = false) := by
  induction rts generalizing p with
  | nil => exact ⟨.refl p, fun _ => rfl, fun r hr => ⟨r, hr, rfl, rfl, fun hp => by simpa using hp⟩⟩
  | cons rt rest ih =>
    obtain ⟨hre, hus, hk⟩ := ih (p.reopenResource rt)
    refine ⟨(p.reworked_reopenResource rt).trans hre, fun hash => (hus hash).trans ?_,
      fun r hr => ?_⟩
    · rw [uses, reopenResource, updateResource, Table.modify, countP_map]
      refine countP_congr fun r _ => ?_
      rw [Function.comp_apply]
      split_ifs <;> rfl
    obtain ⟨r₁, hr1, ht1, hto1, hp1⟩ : ∃ r₁ ∈ (p.reopenResource rt).resources,
        r₁.resourceType = r.resourceType ∧ r₁.publishedContentHash = r.publishedContentHash ∧
        (r.resourceType = rt ∨ r.written = false → r₁.written = false) := by
      refine ⟨_, mem_map.2 ⟨r, hr, rfl⟩, ?_⟩
      by_cases hh : r.resourceType = rt
      · rw [if_pos hh]
        exact ⟨rfl, rfl, fun _ => rfl⟩
      · rw [if_neg hh]
        exact ⟨rfl, rfl, fun hp => hp.resolve_left hh⟩
    obtain ⟨r₂, hr2, hty2, ht2, hp2⟩ := hk r₁ hr1
    refine ⟨r₂, hr2, hty2.trans ht1, ht2.trans hto1, fun hp => hp2 ?_⟩
    rcases hp with hrs | hp
    · rcases mem_cons.1 hrs with hh | hrt
      · exact .inr (hp1 (.inl hh))
      · exact .inl (ht1 ▸ hrt)
    · exact .inr (hp1 (.inr hp))

/-- Something stays pending: what the plan adds it does not remove, and what it reopens it removes
only with a marker. -/
def LeavesPending (plan : ChangePlan) (p : PhotoRecord) : Prop :=
  (∀ rt ∈ plan.addResources, rt ∉ plan.removeResources) ∧
    ∀ rt ∈ plan.reopenResources, ∃ r ∈ p.resources, r.resourceType = rt ∧
      (rt ∈ plan.removeResources → r.publishedContentHash ≠ none)

lemma applyResources_ok (hf : s.photo plan.photoId = some p) (hd : p.TypesDistinct)
    (ran : s.applyResources plan library = .ok (s', reap)) :
    ∃ p', Recounts library p p' (s.updatePhoto plan.photoId fun _ => p') s' ∧ p.Reworked p' ∧
      (LeavesPending plan p → p.Completes → p'.Completes) := by
  unfold applyResources at ran
  simp only [hf, bind_eq_ok, pure_eq_ok] at ran
  obtain ⟨added, ha, ⟨counted, changed, reap'⟩, hrg, same⟩ := ran
  cases same
  obtain ⟨hra, hua, hka, hpa⟩ := adding_ok ha
  obtain ⟨hrr, hur, hkr⟩ := reopening_ok plan.reopenResources added
  have hd' := hrr.types (hra.types hd)
  obtain ⟨hco, hrew, hk⟩ := removeAll_ok plan.removesOnce hd' (fun rt _ row hr ht =>
    ht ▸ resource_of_mem hd' (mem_liveResources.1 hr).1) hrg
  refine ⟨settleMaterialized plan changed,
    ⟨⟨?_, hco.only.libraries⟩, hco.fewer, fun other hash => ?_⟩,
    ((hra.trans hrr).trans hrew).trans (reworked_settleMaterialized plan changed), fun hle hc => ?_⟩
  · rw [updatePhoto, updatePhoto, hco.only.photos]
  · have hcs := hco.counts other hash
    rw [hur, hua] at hcs
    rw [uses_settleMaterialized]
    exact hcs
  · have hs : ∀ r ∈ added.resources, r.resourceType ∈ plan.reopenResources ∨ r.written = false →
        (r.resourceType ∈ plan.removeResources → r.publishedContentHash ≠ none) →
        ∃ r' ∈ changed.resources, r'.written = false := by
      intro r hr hp ht
      obtain ⟨r₁, hr1, ht1, hto1, hp1⟩ := hkr r hr
      obtain ⟨r₂, hr2, _, hw2, _⟩ := hk r₁ hr1 fun hre => by
        rw [hto1]
        exact ht (ht1 ▸ hre)
      exact ⟨r₂, hr2, hw2.trans (hp1 hp)⟩
    unfold settleMaterialized
    split_ifs with adds hh
    · obtain ⟨r, hr, hp⟩ : ∃ r ∈ changed.resources, r.written = false := by
        rcases adds with adds | hreo
        · obtain ⟨rt, rest, isAdd⟩ := exists_cons_of_ne_nil adds
          have had : rt ∈ plan.addResources := isAdd ▸ mem_cons_self
          exact hs _ (hpa rt had) (.inr rfl) fun hre => absurd hre (hle.1 rt had)
        · obtain ⟨rt, rest, hrn⟩ := exists_cons_of_ne_nil hreo
          have hrs : rt ∈ plan.reopenResources := hrn ▸ mem_cons_self
          obtain ⟨r, hr, type, ht⟩ := hle.2 rt hrs
          exact hs r (hka r hr) (.inl (type.symm ▸ hrs)) fun hre => ht (type ▸ hre)
      exact completes_of_pending (p := changed.clearMaterialized) hr hp
    · exact changed.completes_stampMaterialized
    · -- the plan touches no row
      push Not at adds hh
      rw [adds.1] at ha
      rw [adds.2, hh] at hrg
      cases ha
      cases hrg
      exact hc

end StateStore

end HopNet.Ingress
