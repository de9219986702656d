import HopNet.Ingress.SpoolSound

/-! The steps by which a photo task finalizes a resource and a cleanup evicts and reaps, under the
conditions that keep the spool sound. -/

namespace HopNet.Ingress

open List Option StateStore Function PhotoRecord

namespace Daemon

variable (d : Daemon)

/-- A call's row has its extension and is not about to be stamped. -/
def RowFits (w : FinalizeCall) : Prop :=
  (∀ b ∈ d.store.blob w.library w.content.hash, b.ext = w.content.ext) ∧
    ¬ d.Inheriting w.library w.content.hash
deriving Decidable

/-- No resource keeps the blob, and no task has looked it up. -/
def MayStamp (library : LibraryId) (hash : ContentHash) : Prop :=
  ¬ d.store.Blocked library hash ∧
    ∀ task ∈ d.tasks, ∀ w ∈ task.finalizing, ¬ (w.library = library ∧ w.content.hash = hash)
deriving Decidable

/-- No row expects the bytes, and no task has looked them up. -/
def MayUnlink (hash : ContentHash) : Prop :=
  d.store.hashIsLive hash = false ∧ ∀ task ∈ d.tasks, ∀ w ∈ task.finalizing, w.content.hash ≠ hash
deriving Decidable

/-- No superseded rows, target rows that fit what moves, and the stamps to inherit as read. -/
def MayTransfer (s : StateStore) (t : Transition) (inherited : List ContentHash) : Prop :=
  (∀ p ∈ s.photo t.plan.photoId, p.Settled ∧ ∀ r ∈ p.resources, ∀ c ∈ r.content,
      ∀ b ∈ s.blob t.dst c.hash, b.ext = c.ext ∧ (p.Needs r c → b.evicted = false)) ∧
    (∀ hash ∈ inherited, s.inheritsEviction t.src t.dst hash) ∧
    ∀ c ∈ t.written, s.inheritsEviction t.src t.dst c.hash → c.hash ∈ inherited
deriving Decidable

def TaskCalm : SpoolTask → Prop
  | .lookup w | .commit w => d.RowFits w
  | .evict (b :: _) => d.MayStamp b.libraryId b.contentHash
  | .inheritStamps t (hash :: _) => d.MayStamp t.dst hash
  | .unlink hash _ _ => d.MayUnlink hash
  | .transfer t inherited => MayTransfer d.store t inherited
  | _ => True

instance (d : Daemon) (task : SpoolTask) : Decidable (d.TaskCalm task) := by
  unfold TaskCalm
  split <;> infer_instance

variable {d d' : Daemon} {thread : Nat} {w : FinalizeCall} {hash : ContentHash}
  {library : LibraryId} {ext : String}

lemma Sound.runLookup (hs : d.Sound) (hr : d.tasks[thread]? = some (.lookup w))
    (fits : d.RowFits w) (ran : d.runTask thread (.lookup w) = some d') : d'.Sound := by
  have hh : d.Held w := (hs.tasks thread _ (by simp) hr).1
  have go : ∀ next : SpoolTask, (∀ library hash, ¬ next.inherits library hash) →
      next.changes = none → d.TaskSound next → (d.goTo thread next).Sound := fun next hp hu hn =>
    (hs.but (some thread)).goToSame hr (by simp) hp hn fun hc => absurd hu hc
  simp only [runTask] at ran
  cases hf : d.store.blob w.library w.content.hash with
  | none =>
    simp only [hf] at ran
    cases ran
    refine go _ (by simp) rfl ⟨hh, rfl, fun b hf' => ?_, fun _ b hf' => ?_⟩ <;>
      cases hf.symm.trans hf'
  | some b =>
    have ext : b.ext = w.content.ext := fits.1 b hf
    simp only [hf] at ran
    by_cases he : b.evicted
    · rw [if_pos he, some.injEq] at ran
      rw [← ran]
      refine go _ (by simp) rfl ⟨hh, ext, fun b' hf' _ => ?_, fun hi => ?_⟩
      · cases hf.symm.trans hf'
        exact ext
      · cases hi
    · have hl : b.evicted = false := Bool.not_eq_true _ ▸ he
      rw [if_neg he, some.injEq] at ran
      rw [← ran]
      refine go _ (by simp) rfl ⟨hh, ?_, fun b' hf' => ?_⟩
      · rcases hs.files w.library w.content.hash b hf hl with ho | hin
        · rw [Placed, ← ext]
          exact ho
        · exact absurd hin fits.2
      · cases hf.symm.trans hf'
        exact hl

lemma Sound.runPlace {evicted : Bool} (hs : d.Sound)
    (hr : d.tasks[thread]? = some (.place w ext evicted))
    (ran : d.runTask thread (.place w ext evicted) = some d') : d'.Sound := by
  obtain ⟨held, rfl, ha, hl⟩ := (hs.tasks thread _ (by simp) hr).1
  cases ran
  have hk : ∀ path hash, d.spool path = some hash → path.1 = hash →
      update d.spool (w.content.hash, w.content.ext) (some w.content.hash) path = some hash := by
    intro path hash ho hn
    rw [update_apply]
    split_ifs with hh
    · rw [hh] at hn
      rw [← hn]
    · exact ho
  have hp :
    ({ d with spool := update d.spool (w.content.hash, w.content.ext) (some w.content.hash) } :
      Daemon).SoundBut (some thread) d.Inheriting := (hs.but (some thread)).step rfl
    hs.store (fun library hash b hf hal => (hs.files library hash b hf hal).imp
      (fun ho => hk _ _ ho rfl) id) hs.unneeded
    fun i task _ _ _ _ => .of_rows rfl rfl (fun w' _ ho => hk _ _ ho rfl)
      (.refl _)
  have hh : update d.spool (w.content.hash, w.content.ext) (some w.content.hash)
      (w.content.hash, w.content.ext) = some w.content.hash := update_self ..
  cases evicted with
  | true =>
    exact hp.goToSame hr (by simp) (by simp) ⟨held, hh, ha⟩ fun hc => absurd rfl hc
  | false =>
    exact hp.goToSame hr (by simp) (by simp) ⟨held, hh, hl rfl⟩ fun hc => absurd rfl hc

lemma Sound.runClear (hso : d.Sound) (hr : d.tasks[thread]? = some (.clear w))
    (ran : d.runTask thread (.clear w) = some d') : d'.Sound := by
  obtain ⟨held, hp, ha⟩ := (hso.tasks thread _ (by simp) hr).1
  cases ran
  have hst : (d.store.clearBlobEviction w.library w.content.hash).Sound := by
    refine hso.store.blobs rfl (fun _ _ => le_of_eq ledger_setEvicted.symm) fun library
      hash b' hf => ?_
    obtain ⟨b, hf0, ext, hs⟩ := blob_setEvicted hf
    refine ⟨b, hf0, ext, fun hl _ => ?_⟩
    rw [hs, hl, ite_self]
  have hc : (d.setStore (d.store.clearBlobEviction w.library w.content.hash)).SoundBut (some thread)
      d.Inheriting := by
    refine (hso.but _).step rfl hst (fun library hash b' hf hl => ?_) hso.unneeded
      fun i task _ _ _ _ => .of_rows rfl rfl (fun _ _ ho => ho) fun w' b' _ hf he => ?_
    · obtain ⟨b, hf0, ext, hs⟩ := blob_setEvicted hf
      cases was : b.evicted with
      | false =>
        rw [ext]
        exact hso.files library hash b hf0 was
      | true =>
        by_cases hh : library = w.library ∧ hash = w.content.hash
        · obtain ⟨rfl, rfl⟩ := hh
          rw [ext, ha b hf0 was]
          exact .inl hp
        · rw [if_neg hh, was, hl] at hs
          cases hs
    · obtain ⟨b, hf0, ext, hs⟩ := blob_setEvicted hf
      refine ⟨b, hf0, ?_, ext⟩
      rw [he] at hs
      split_ifs at hs
      exact hs.symm
  refine hc.goToSame hr (by simp) (by simp) ⟨held, hp, fun b' hf => ?_⟩ fun hch => absurd rfl hch
  obtain ⟨b, _, _, hs⟩ := blob_setEvicted hf
  rw [hs, if_pos ⟨rfl, rfl⟩]

/-- A blob that nothing needs is stamped; from then on it is not pending. -/
lemma SoundBut.stamp {acting pending} (hso : d.SoundBut acting pending)
    (may : d.MayStamp library hash) {pending' : LibraryId → ContentHash → Prop}
    (hfe : ∀ other hash', pending' other hash' → pending other hash')
    (rest : ∀ other hash', pending other hash' → (other = library ∧ hash' = hash) ∨
      pending' other hash') :
    (d.setStore (d.store.stampBlobEvicted library hash)).SoundBut acting pending' := by
  have hst : (d.store.stampBlobEvicted library hash).Sound := by
    refine hso.store.blobs rfl (fun _ _ => le_of_eq ledger_setEvicted.symm) fun other hash'
      b' hfo => ?_
    obtain ⟨b, hf0, ext, hs⟩ := blob_setEvicted hfo
    refine ⟨b, hf0, ext, fun hl hb => ?_⟩
    rw [hs, hl]
    split_ifs with hh
    · obtain ⟨rfl, rfl⟩ := hh
      exact absurd hb may.1
    · rfl
  refine hso.step rfl hst (fun other hash' b' hfo hl => ?_)
    (fun other hash' hp => hso.unneeded other hash' (hfe other hash' hp))
    fun i task _ hr _ _ => .of_rows rfl rfl (fun _ _ ho => ho) fun w b' hf hfo he => ?_
  · obtain ⟨b, hf0, ext, hs⟩ := blob_setEvicted hfo
    rw [hl] at hs
    split_ifs at hs with hh
    rw [ext]
    rcases hso.files other hash' b hf0 hs.symm with ho | hp
    · exact .inl ho
    · exact .inr ((rest other hash' hp).resolve_left hh)
  · obtain ⟨b, hf0, ext, hs⟩ := blob_setEvicted hfo
    have ha := may.2 task (mem_of_getElem? hr) w hf
    rw [if_neg ha, he] at hs
    exact ⟨b, hf0, hs.symm, ext⟩

lemma Sound.runEvict {b rest} (hso : d.Sound)
    (hr : d.tasks[thread]? = some (.evict (b :: rest))) (may : d.MayStamp b.libraryId b.contentHash)
    (ran : d.runTask thread (.evict (b :: rest)) = some d') : d'.Sound := by
  cases ran
  have hs : (d.setStore (d.store.stampBlobEvicted b.libraryId b.contentHash)).SoundBut (some thread)
      d.Inheriting := (hso.but _).stamp may (fun _ _ hp => hp) fun _ _ hp => .inr hp
  exact hs.goToSame hr (by simp) (by simp) trivial fun hc => absurd rfl hc

lemma hashIsLive_of_row {b} {s : StateStore}
    (hf : s.blob library hash = some b) (hl : b.evicted = false) : s.hashIsLive hash = true := by
  have hn : b.key = (library, hash) := Table.key_of_lookup hf
  refine any_eq_true.2 ⟨b, Table.mem_of_lookup hf, ?_⟩
  rw [BlobRecord.key, Prod.mk.injEq] at hn
  simp [hn.2, hl]

lemma Sound.runUnlink {next : SpoolTask} (hs : d.Sound)
    (hr : d.tasks[thread]? = some (.unlink hash ext next)) (may : d.MayUnlink hash)
    (ran : d.runTask thread (.unlink hash ext next) = some d') : d'.Sound := by
  have hp : next.Plain := (hs.tasks thread _ (by simp) hr).1
  cases ran
  have hk : ∀ path, path.1 ≠ hash → update d.spool (hash, ext) none path = d.spool path := by
    intro path ha
    exact update_of_ne (fun same => ha (congrArg Prod.fst same)) ..
  have hu : ({ d with spool := update d.spool (hash, ext) none } : Daemon).SoundBut (some thread)
      d.Inheriting := by
    refine (hs.but _).step rfl hs.store (fun library hash' b hfo live => ?_) hs.unneeded
      fun i task _ hr _ _ => .of_rows rfl rfl (fun w hf ho => ?_) (.refl _)
    · have ha : hash' ≠ hash := by
        rintro rfl
        have hl := hashIsLive_of_row hfo live
        rw [may.1] at hl
        cases hl
      refine (hs.files library hash' b hfo live).imp (fun ho => ?_) id
      exact (hk (hash', b.ext) ha).trans ho
    · have ha := may.2 task (mem_of_getElem? hr) w hf
      exact (hk (w.content.hash, w.content.ext) ha).trans ho
  exact hu.goPlain hr (by simp) hp

lemma Sound.runCommit (hso : d.Sound) (hru : d.tasks[thread]? = some (.commit w))
    (fits : d.RowFits w) (ran : d.runTask thread (.commit w) = some d') : d'.Sound := by
  obtain ⟨hh, hpl, hl⟩ := (hso.tasks thread _ (by simp) hru).1
  simp only [runTask] at ran
  split at ran
  · cases ran
    exact hso.goPlain hru (by simp) trivial
  rename_i store commit hre
  cases ran
  obtain ⟨p, library, hfo, hm, ⟨photos, _⟩, _, rows⟩ := markResourceWritten_ok hre
  cases hm.symm.trans (hh.2 p hfo)
  obtain ⟨hp, hna⟩ := mem_of_photo hfo
  have hs : store.Sound := hso.store.markResourceWritten hre fun p' library b hf' hm' hf => by
    cases hm'.symm.trans (hh.2 p' hf')
    exact ⟨fits.1 b hf, hl b hf⟩
  have committed : (d.setStore store).SoundBut (some thread) d.Inheriting := by
    refine (hso.but _).step rfl hs (fun library hash b hf ha => ?_) ?_
      fun i task _ _ _ _ => .of_replaced hfo ?_ photos (fun _ => ?_) (fun _ => hh.1) ?_
    · rcases rows library hash b hf with ⟨b₀, hf0, ext, he⟩ | ⟨rfl, rfl, _, ext, _⟩
      · rw [ext]
        exact hso.files library hash b₀ hf0 (he.symm.trans ha)
      · rw [ext]
        exact .inl hpl
    · intro library hash hi q hp' hm' r hr c hc same hn
      have hu : q ∈ (d.store.updatePhoto w.photoId fun _ =>
        (p.writeResource w.resourceType w.content).stampMaterialized).photos := photos ▸ hp'
      obtain ⟨q₀, hp0, rfl⟩ := mem_map.1 hu
      split_ifs at hm' hr hn with here
      · rw [stampMaterialized_libraryId] at hm'
        cases hm.symm.trans hm'
        rw [stampMaterialized_resources] at hr
        obtain ⟨r₀, hr0, rfl⟩ := mem_map.1 hr
        by_cases hw : r₀.resourceType = w.resourceType
        · rw [if_pos hw] at hc
          cases hc
          exact fits.2 (same ▸ hi)
        · rw [if_neg hw] at hc hn
          rw [PhotoRecord.Needs, stampMaterialized_published] at hn
          exact hso.unneeded w.library hash hi p hp hm r₀ hr0 c hc same hn
      · exact hso.unneeded library hash hi q₀ hp0 hm' r hr c hc same hn
    · rw [stampMaterialized_photoId]
      exact hna
    · rw [stampMaterialized_libraryId]
      rfl
    · intro w' b' _ hf he
      rcases rows _ _ b' hf with ⟨b₀, hf0, ext, hss⟩ | ⟨_, _, _, _, ha⟩
      · exact ⟨b₀, hf0, hss.symm.trans he, ext⟩
      · cases he.symm.trans ha
  exact committed.goPlain hru (by simp) (SpoolTask.plain_reaping _ trivial)

end Daemon

end HopNet.Ingress
