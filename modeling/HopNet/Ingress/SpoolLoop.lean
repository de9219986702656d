import HopNet.Ingress.SpoolTasks

namespace HopNet.Ingress

open Option SpoolTask StateStore

namespace Daemon

variable {d d' : Daemon} {thread : Nat} {task : SpoolTask} {desc : AssetDescriptor}
  {plan : ChangePlan} {t : Transition} {todo inherited : List ContentHash}

lemma not_inheriting (hr : d.tasks[0]? = some task)
    (hp : ∀ library hash, ¬ task.inherits library hash)
    (library : LibraryId) (hash : ContentHash) : ¬ d.Inheriting library hash := by
  rintro ⟨other, hf, hi⟩
  cases hr.symm.trans hf
  exact hp library hash hi

/-- While the loop acts, no other task changes a photo. -/
lemma unchanging (hi : task.changes ≠ none → thread = 0) (ha : some 0 ≠ some thread) :
    task.changes = none := by
  by_contra hc
  exact ha (congrArg some (hi hc).symm)

variable (hso : d.Sound)
include hso

lemma Sound.runRestore (hru : d.tasks[thread]? = some (.restore plan desc))
    (ran : d.runTask thread (.restore plan desc) = some d') : d'.Sound := by
  have hr : (if plan.restore then d.setStore (d.store.restorePhoto plan.photoId) else d).Sound := by
    split_ifs
    · exact SoundBut.updatePhoto hso (fun _ _ => .of_same rfl rfl rfl rfl) (fun _ => rfl)
        (fun _ => rfl) (.inr fun _ => rfl)
    · exact hso
  have hs : (if plan.restore then d.setStore (d.store.restorePhoto plan.photoId) else d).tasks =
      d.tasks := by
    split_ifs <;> rfl
  simp only [runTask] at ran
  rw [← hs] at hru
  obtain ⟨⟨free, p, hf, hl⟩, hin⟩ := hr.tasks thread _ (by simp) hru
  split at ran
  · rename_i src dst hm
    cases ran
    exact (hr.but _).goToSame hru (by simp) (by simp)
      ⟨hm, free, p, hf, hl src dst hm⟩ fun _ => hin (by simp [changes])
  rename_i hm
  cases ran
  refine (hr.but _).goToSame hru (by simp) (by simp)
    ⟨free, p, hf, fun src dst hi => ?_⟩ fun _ => hin (by simp [changes])
  cases hm.symm.trans hi

lemma Sound.runReadWritten {src dst} (hr : d.tasks[thread]? = some (.readWritten plan desc src dst))
    (ran : d.runTask thread (.readWritten plan desc src dst) = some d') : d'.Sound := by
  obtain ⟨⟨hmo, free, p, hf, hm⟩, hi⟩ := hso.tasks thread _ (by simp) hr
  simp only [runTask] at ran
  split at ran
  · cases ran
    exact hso.goPlain hr (by simp) trivial
  rename_i _ hre
  simp only [hf, map_some, getD_some] at ran
  cases ran
  exact (hso.but _).goToSame hr (by simp) (by simp)
    ⟨hmo, free, p, hf, hm, rfl⟩ fun _ => hi (by simp [changes])

lemma Sound.goMoving {next} (hr : d.tasks[thread]? = some task)
    (ho : ∀ library hash, ¬ task.inherits library hash)
    (hn : ∀ library hash, ¬ next.inherits library hash)
    (hc : task.changes ≠ none) (hm : d.TaskSound next) : (d.goTo thread next).Sound :=
  (hso.but _).goToSame hr ho hn hm fun _ => (hso.tasks thread _ (by simp) hr).2 hc

lemma Sound.runReadSource (hr : d.tasks[thread]? = some (.readSource t todo inherited))
    (ran : d.runTask thread (.readSource t todo inherited) = some d') : d'.Sound := by
  have hm : d.Moving t := (hso.tasks thread _ (by simp) hr).1
  have go : ∀ next : SpoolTask, (∀ library hash, ¬ next.inherits library hash) → d.TaskSound next →
      (d.goTo thread next).Sound := fun next hnp hn =>
    hso.goMoving hr (by simp) hnp (by simp [changes]) hn
  cases todo with
  | nil =>
    cases ran
    exact go _ (by simp) hm
  | cons hash todo =>
    simp only [runTask] at ran
    split_ifs at ran <;> cases ran <;> exact go _ (by simp) hm

lemma Sound.runReadTarget {hash} (hr : d.tasks[thread]? = some (.readTarget t hash todo inherited))
    (ran : d.runTask thread (.readTarget t hash todo inherited) = some d') : d'.Sound := by
  have hm : d.Moving t := (hso.tasks thread _ (by simp) hr).1
  simp only [runTask] at ran
  split_ifs at ran <;> cases ran <;>
    exact hso.goMoving hr (by simp) (by simp) (by simp [changes]) hm

lemma Sound.runTransfer {inherited}
    (hru : d.tasks[thread]? = some (.transfer t inherited)) (may : MayTransfer d.store t inherited)
    (ran : d.runTask thread (.transfer t inherited) = some d') : d'.Sound := by
  obtain ⟨⟨hmo, free, p, hfo, hm, hco⟩, hix⟩ := hso.tasks thread _ (by simp) hru
  cases hix (by simp [changes])
  simp only [runTask] at ran
  split at ran
  · cases ran
    exact hso.goPlain hru (by simp) trivial
  rename_i store hre
  cases ran
  obtain ⟨fits, har, ha⟩ := may
  obtain ⟨hse, hag⟩ := fits p hfo
  obtain ⟨hp, hna⟩ := mem_of_photo hfo
  rw [← hco] at hre ha
  obtain ⟨hs, photos, rows⟩ := hso.store.transitionTx hfo hm (t.plan.leaves _ _ hmo) hse
    (fun r hr c hc b hf => hag r hr c hc b hf) hre
  have idle := not_inheriting hru fun _ _ => Bool.noConfusion
  have hmd : (d.setStore store).SoundBut (some 0) fun library hash => t.dst = library ∧
      hash ∈ inherited := by
    refine (hso.but _).step rfl hs (fun library hash b hf live => ?_) ?_
      fun i task hap _ _ hix => .of_replaced hfo ?_ photos (fun hin => absurd hin free)
        (fun hch => by rw [unchanging hix hap] at hch; cases hch) ?_
    · rcases rows library hash b hf with ⟨b₀, hf0, ext, he⟩ | ⟨rfl, hmi, _, c, hli, rfl, ext⟩
      · rw [ext]
        exact .inl ((hso.files library hash b₀ hf0 (he.symm.trans live)).resolve_right (idle _ _))
      · obtain ⟨r, hr, hc⟩ := PhotoRecord.exists_of_mem_writtenContents hli
        obtain ⟨b₁, hf1⟩ :=
          hso.store.exists_row hp hm hr (by rw [ResourceRecord.contentHash, hc]; rfl)
        cases he : b₁.evicted with
        | true => exact .inr ⟨rfl, ha c hli ⟨by rw [hf1]; exact he, hmi⟩⟩
        | false =>
          have he1 := (hso.store.rows p hp t.src hm r hr c hc b₁ hf1).1
          rw [ext, ← he1]
          exact .inl ((hso.files t.src c.hash b₁ hf1 he).resolve_right (idle _ _))
    · rintro library hash ⟨rfl, hi⟩ q hp' hm' r hr c hc rfl hn
      obtain ⟨hw, hmi⟩ := har c.hash hi
      have hu : q ∈ (d.store.updatePhoto t.plan.photoId fun _ => p.setLibrary t.dst).photos :=
        photos ▸ hp'
      obtain ⟨q₀, hp0, rfl⟩ := List.mem_map.1 hu
      have hh : r.contentHash = some c.hash := by
        rw [ResourceRecord.contentHash, hc]
        rfl
      split_ifs at hm' hr hn with here
      · obtain ⟨b₁, hf1⟩ := hso.store.exists_row hp hm hr hh
        have live := (hso.store.rows p hp t.src hm r hr c hc b₁ hf1).2 hn
        rw [hf1, any_some, live] at hw
        cases hw
      · exact hso.store.no_resource hmi hp0 hm' hr hh
    · exact hna
    · intro w b' _ hf he
      rcases rows _ _ b' hf with ⟨b₀, hf0, ext, hss⟩ | ⟨_, _, live, _⟩
      · exact ⟨b₀, hf0, hss.symm.trans he, ext⟩
      · cases he.symm.trans live
  refine hmd.goTo hru (fun library hash => ?_) ⟨hmo, free, p.setLibrary t.dst, ?_, rfl⟩ fun _ => rfl
  · simp [Inheriting, goTo, setStore, Slots.set_here hru]
  · have hl := photo_updatePhoto (s := d.store)
      (fun q (_ : q.photoId = t.plan.photoId) =>
      (show (p.setLibrary t.dst).photoId = t.plan.photoId from hna)) t.plan.photoId
    rw [if_pos rfl, hfo] at hl
    show store.photo t.plan.photoId = _
    rw [photo, photos]
    exact hl

lemma Sound.runInheritStamps {todo} (hr : d.tasks[thread]? = some (.inheritStamps t todo))
    (may : d.TaskCalm (.inheritStamps t todo))
    (ran : d.runTask thread (.inheritStamps t todo) = some d') : d'.Sound := by
  obtain ⟨⟨hmo, free, p, hf, hm⟩, hi⟩ := hso.tasks thread _ (by simp) hr
  cases hi (by simp [changes])
  cases todo with
  | nil =>
    cases ran
    refine (hso.but _).goToSame hr (fun _ _ => ?_) (by simp)
      ⟨free, p, hf, fun src dst hm' => ?_⟩ fun _ => rfl
    · simp
    · cases hmo.symm.trans hm'
      exact hm
  | cons hash todo =>
    cases ran
    have hp : ∀ library hash', d.Inheriting library hash' ↔ t.dst = library ∧
        hash' ∈ hash :: todo := by
      simp [Inheriting, hr]
    have hs : (d.setStore (d.store.stampBlobEvicted t.dst hash)).SoundBut (some 0)
        fun library hash' => t.dst = library ∧ hash' ∈ todo := by
      refine (hso.but _).stamp may (fun library hash' rest =>
        (hp _ _).2 ⟨rest.1, List.mem_cons_of_mem _ rest.2⟩) fun library hash' hpe => ?_
      obtain ⟨rfl, hl⟩ := (hp _ _).1 hpe
      rcases List.mem_cons.1 hl with rfl | hla
      · exact .inl ⟨rfl, rfl⟩
      · exact .inr ⟨rfl, hla⟩
    refine hs.goTo hr (fun library hash' => ?_) ⟨hmo, free, p, hf, hm⟩ fun _ => rfl
    simp [Inheriting, goTo, setStore, Slots.set_here hr]

lemma Sound.runResources (hr : d.tasks[thread]? = some (.resources plan desc))
    (ran : d.runTask thread (.resources plan desc) = some d') : d'.Sound := by
  obtain ⟨⟨free, p, hfo, hm⟩, hin⟩ := hso.tasks thread _ (by simp) hr
  cases hin (by simp [changes])
  have hco : d.store.effectiveLibrary plan = p.libraryId := by
    unfold effectiveLibrary
    cases hmo : plan.transition with
    | none =>
      rw [hfo]
      rfl
    | some pair => exact (hm pair.1 pair.2 hmo).symm
  simp only [runTask] at ran
  split_ifs at ran with ht
  · cases hre : d.store.applyResources plan (d.store.effectiveLibrary plan) with
    | error e =>
      simp only [hre] at ran
      cases ran
      exact hso.goPlain hr (by simp) trivial
    | ok applied =>
      obtain ⟨store, reap⟩ := applied
      simp only [hre] at ran
      cases ran
      rw [hco] at hre
      obtain ⟨hss, hfe, p', mild, hp⟩ := hso.store.applyResources hfo hre
      have idle := not_inheriting hr fun _ _ => Bool.noConfusion
      have rows : ∀ library hash b', store.blob library hash = some b' → b'.evicted = true →
          ∃ b, d.store.blob library hash = some b ∧ b.evicted = true ∧ b'.ext = b.ext := by
        intro library hash b' hf he
        obtain ⟨b, hf0, ext, hs⟩ := hfe library hash b' hf
        exact ⟨b, hf0, hs.symm.trans he, ext⟩
      have applied : (d.setStore store).SoundBut (some 0) d.Inheriting := by
        refine (hso.but _).step rfl hss (fun library hash b' hf hl => ?_)
          (fun library hash hi => absurd hi (idle library hash)) fun i task ha _ _ hin => ?_
        · obtain ⟨b, hf0, ext, hs⟩ := hfe library hash b' hf
          rw [ext]
          exact hso.files library hash b hf0 (hs.symm.trans hl)
        · exact .of_replaced hfo (mild.photoId.trans (mem_of_photo hfo).2) hp
            (fun _ => mild.libraryId) (fun hc => by rw [unchanging hin ha] at hc; cases hc)
            fun w b' _ hf he => rows _ _ b' hf he
      exact applied.goPlain hr (by simp) (plain_reaping _ trivial)
  · cases ran
    exact hso.goPlain hr (by simp) trivial

lemma Sound.runFinish (hr : d.tasks[thread]? = some (.finish plan desc))
    (ran : d.runTask thread (.finish plan desc) = some d') : d'.Sound := by
  cases ran
  have hf : (d.setStore (d.store.finishChange plan desc)).Sound :=
    SoundBut.updatePhoto hso (fun _ _ => .of_same rfl rfl rfl rfl) (fun _ => rfl) (fun _ => rfl)
      (.inr fun _ => rfl)
  exact hf.goPlain hr (by simp) trivial

lemma Sound.runTask (hr : d.tasks[thread]? = some task) (hc : d.TaskCalm task)
    (ran : d.runTask thread task = some d') : d'.Sound := by
  cases task with
  | done => cases ran
  | lookup w => exact hso.runLookup hr hc ran
  | place w ext evicted => exact hso.runPlace hr ran
  | clear w => exact hso.runClear hr ran
  | commit w => exact hso.runCommit hr hc ran
  | evict candidates =>
    cases candidates with
    | nil =>
      cases ran
      exact hso.goPlain hr (by simp) trivial
    | cons b rest => exact hso.runEvict hr hc ran
  | check hash ext next =>
    have hp : next.Plain := (hso.tasks thread _ (by simp) hr).1
    cases ran
    split_ifs <;> exact hso.goPlain hr (by simp) hp
  | unlink hash ext next => exact hso.runUnlink hr hc ran
  | restore plan desc => exact hso.runRestore hr ran
  | readWritten plan desc src dst => exact hso.runReadWritten hr ran
  | readSource t todo inherited => exact hso.runReadSource hr ran
  | readTarget t hash todo inherited => exact hso.runReadTarget hr ran
  | transfer t inherited => exact hso.runTransfer hr hc ran
  | inheritStamps t todo => exact hso.runInheritStamps hr hc ran
  | resources plan desc => exact hso.runResources hr ran
  | finish plan desc => exact hso.runFinish hr ran

lemma Sound.failTask (hr : d.tasks[thread]? = some task) (hc : task.stamps = [])
    (ran : d.failTask thread task = some d') : d'.Sound := by
  have ho : ∀ library hash, ¬ task.inherits library hash := by
    intro library hash hi
    cases task with
    | inheritStamps t todo =>
      cases hc
      simp at hi
    | _ => cases hi
  have hst : (d.goTo thread .done).Sound := hso.goPlain hr ho trivial
  cases task with
  | done => cases ran
  | unlink hash ext next =>
    cases ran
    exact hso.goPlain hr ho (hso.tasks thread _ (by simp) hr).1
  | _ =>
    cases ran
    exact hst

end Daemon

end HopNet.Ingress
