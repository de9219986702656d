import HopNet.Ingress.SpoolLoop
import HopNet.Lib.Runs

/-! The bytes that the mesh still needs are in the spool, on every run in which a finalized resource
has the extension of its blob's row, a blob is stamped and a file unlinked only while nothing has
come to need it, and a transition finds the rows as it read them. -/

namespace HopNet.Ingress

open List Option StateStore PhotoRecord

namespace Daemon

/-- What the mesh still needs has its row, not evicted, and its file where the pass looks. -/
def Resident (d : Daemon) : Prop :=
  ∀ p ∈ d.store.photos, ∀ library ∈ p.libraryId, ∀ r ∈ p.resources, ∀ c ∈ r.content, p.Needs r c →
    (∃ b ∈ d.store.blob library c.hash, b.evicted = false) ∧ d.spool (c.hash, c.ext) = some c.hash
deriving Decidable

/-- The condition on the next event; a transition does not fail between its transaction and its
stamps. -/
def Calm (d : Daemon) : DaemonEvent → Prop
  | .run thread => ∀ task ∈ d.tasks[thread]?, d.TaskCalm task
  | .fail thread => ∀ task ∈ d.tasks[thread]?, task.stamps = []
  | _ => True

instance (d : Daemon) (event : DaemonEvent) : Decidable (d.Calm event) := by
  cases event <;> unfold Calm <;> infer_instance

variable {d d' : Daemon}

lemma Sound.resident (hs : d.Sound) : d.Resident := by
  intro p hp library hm r hr c hc hn
  obtain ⟨b, hf⟩ :=
    hs.store.exists_row hp hm hr (by rw [ResourceRecord.contentHash, hc]; rfl)
  obtain ⟨ext, hl⟩ := hs.store.rows p hp library hm r hr c hc b hf
  refine ⟨⟨b, hf, hl hn⟩, ?_⟩
  rcases hs.files library c.hash b hf (hl hn) with ho | hi
  · rw [← ext]
    exact ho
  · exact absurd hn (hs.unneeded library c.hash hi p hp hm r hr c hc rfl)

lemma sound_start (libraries : List LibraryConfig) : (start libraries).Sound := by
  have ht : ∀ (i : Nat) task, (start libraries).tasks[i]? = some task → task = SpoolTask.done := by
    intro i task hf
    have hm := mem_of_getElem? hf
    simpa [start] using hm
  refine ⟨⟨nodup_nil, ?_, ?_, ?_, ?_⟩, ?_, ?_, ?_⟩
  · intro p hp
    cases hp
  · intro p hp
    cases hp
  · intro library hash
    exact le_refl 0
  · intro p hp
    cases hp
  · intro library hash b hf
    cases hf
  · intro library hash _ p hp
    cases hp
  · intro i task _ hf
    cases ht i task hf
    exact ⟨trivial, fun hc => absurd rfl hc⟩

lemma sound_of_same {e} (hs : d.Sound) (hst : e.store = d.store) (hsp : e.spool = d.spool)
    (ht : e.tasks = d.tasks)
    (hf : ∀ (i : Nat) task, d.tasks[i]? = some task → d.TaskSound task →
      (task.changes ≠ none → i = 0) → Frame task d e) :
    e.Sound := by
  have hi : e.Inheriting = d.Inheriting := by
    unfold Inheriting
    rw [ht]
  have same : e.SoundBut none d.Inheriting := by
    refine SoundBut.step hs ht (hst ▸ hs.store) ?_ ?_ fun i task _ => hf i task
    · rw [hst, hsp]
      exact hs.files
    · rw [hst]
      exact hs.unneeded
  rw [Sound, hi]
  exact same

lemma Sound.applyDescriptor {desc minted} (hso : d.Sound) (idle : d.Idle)
    (free : ∀ p ∈ d.store.resolveEventPhoto desc, p.photoId ∉ d.inflight)
    (hfr : d.store.photo minted = none)
    (hu : minted ∉ d.inflight) (now : Nat) : (d.applyDescriptor desc minted now).Sound := by
  unfold Daemon.applyDescriptor
  cases hre : d.store.classify minted now desc with
  | error e => exact hso
  | ok classified =>
    obtain ⟨store, classification⟩ := classified
    obtain ⟨hss, hs, hp⟩ := classify_ok hso.store hfr hre
    have hn := not_inheriting idle fun _ _ => Bool.noConfusion
    have blob : ∀ library hash, store.blob library hash = d.store.blob library hash :=
      fun library hash => by
      rw [blob, hs.blobs]
      rfl
    have seeded : (d.setStore store).Sound := by
      refine SoundBut.step hso rfl hss (fun library hash b hf => ?_)
        (fun library hash hi => absurd hi (hn library hash)) fun i task _ hr _ hix => ?_
      · exact hso.files library hash b (blob library hash ▸ hf)
      · refine .of_photos rfl rfl blob ⟨fun id p' _ hin hf => ?_, fun id p hc => ?_⟩
        · rcases hs.photo id p' hf with rfl | ⟨p, hf0, _, _, library⟩
          · exact absurd hin hu
          · exact ⟨p, hf0, library⟩
        · cases hix (by rw [hc]; simp)
          cases idle.symm.trans hr
          cases hc
    cases classification with
    | seeded outcome => exact seeded
    | noOp id =>
      exact SoundBut.updatePhoto seeded (fun _ _ => .of_same rfl rfl rfl rfl) (fun _ => rfl)
        (fun _ => rfl) (.inr fun _ => rfl)
    | known plan =>
      obtain ⟨⟨cloudId, existing, hcl, hb, hna⟩, p, hf, hl⟩ := hp plan rfl
      refine (seeded.but _).goToSame idle (by simp) (by simp) ⟨?_, p, hf, hl⟩ fun _ => rfl
      rw [← hna]
      refine free existing ?_
      rw [StateStore.resolveEventPhoto, hcl]
      exact hb

lemma Sound.finalize {w} (hs : d.Sound) (may : d.MayFinalize w) :
    ({ d with tasks := d.tasks ++ [.lookup w] } : Daemon).Sound := by
  have hin : ∀ library hash, ({ d with tasks := d.tasks ++ [.lookup w] } : Daemon).Inheriting
      library hash → d.Inheriting library hash := by
    rintro library hash ⟨task, hf, hi⟩
    rcases Slots.append_cases hf with hb | ⟨_, rfl⟩
    · exact ⟨task, hb, hi⟩
    · cases hi
  have hst : ∀ library hash, d.Inheriting library hash →
      ({ d with tasks := d.tasks ++ [.lookup w] } : Daemon).Inheriting library hash := by
    rintro library hash ⟨task, hf, hi⟩
    refine ⟨task, ?_, hi⟩
    have hie : 0 < d.tasks.length := Slots.lt_length hf
    exact (getElem?_append_left hie).trans hf
  refine ⟨hs.store, fun library hash b hf hl => (hs.files library hash b hf hl).imp id
    (hst library hash), fun library hash hp => hs.unneeded library hash (hin library hash hp),
    fun i task _ hf => ?_⟩
  rcases Slots.append_cases hf with hb | ⟨_, rfl⟩
  · obtain ⟨ht, hix⟩ := hs.tasks i task (by simp) hb
    have hfr : Frame task d { d with tasks := d.tasks ++ [.lookup w] } :=
      .of_rows rfl rfl (fun _ _ ho => ho) (.refl _)
    exact ⟨hfr.taskSound ht, hix⟩
  · refine ⟨⟨may.1, fun p hf => ?_⟩, fun hc => absurd rfl hc⟩
    have ha := may.2.1
    have hf' : d.store.photo w.photoId = some p := hf
    rw [hf', any_some, decide_eq_true_eq] at ha
    exact ha.1

lemma Sound.hardDelete {id p store reap} (hso : d.Sound) (idle : d.Idle)
    (hfo : d.store.photo id = some p) (hr : d.store.hardDelete p = .ok (store, reap)) :
    ((d.setStore store).goTo 0 (.reaping reap .done)).Sound := by
  obtain ⟨hss, hfe⟩ := hso.store.hardDelete hfo hr
  have hn := not_inheriting idle fun _ _ => Bool.noConfusion
  have photos : store.photos = Table.delete photoId p.photoId d.store.photos := by
    simp only [StateStore.hardDelete, Fallible.bind_eq_ok, Fallible.pure_eq_ok] at hr
    obtain ⟨⟨counted, reap'⟩, hd, same⟩ := hr
    cases same
    rw [(dropReferences_ok hd).1.photos]
  have hde : (d.setStore store).SoundBut (some 0) d.Inheriting := by
    refine (hso.but _).step rfl hss (fun library hash b' hf live => ?_)
      (fun library hash hi => absurd hi (hn library hash)) fun i task ha _ _ hin => ?_
    · obtain ⟨b, hf0, ext, hs⟩ := hfe library hash b' hf
      rw [ext]
      exact hso.files library hash b hf0 (hs.symm.trans live)
    · refine ⟨fun _ _ hh => hh, fun _ _ free => free,
        ⟨fun wanted q _ _ hf' => ?_, fun wanted q hc => ?_⟩,
        fun _ _ ho => ho, fun w b' _ hf he => ?_⟩
      · have hl : store.photo wanted = some q := hf'
        rw [photo, photos, Table.lookup_delete] at hl
        split_ifs at hl
        exact ⟨q, hl, fun _ hm => hm⟩
      · rw [unchanging hin ha] at hc
        cases hc
      · obtain ⟨b, hf0, ext, hs⟩ := hfe _ _ b' hf
        exact ⟨b, hf0, hs.symm.trans he, ext⟩
  exact hde.goPlain idle (by simp) (SpoolTask.plain_reaping _ trivial)

lemma Sound.step {event} (hs : d.Sound) (calm : d.Calm event) (step : d.Step event d') :
    d'.Sound := by
  unfold Step next at step
  cases event with
  | descriptor desc minted now =>
    simp only at step
    split_ifs at step with hg
    cases step
    obtain ⟨idle, free, hfr, hu⟩ := hg
    exact hs.applyDescriptor idle free hfr hu now
  | tombstone id now =>
    cases step
    exact SoundBut.updatePhoto hs (fun _ _ => .of_same rfl rfl rfl rfl) (fun _ => rfl)
      (fun _ => rfl) (.inr fun _ => rfl)
  | claim id =>
    simp only at step
    split_ifs at step with hg
    cases step
    refine sound_of_same hs rfl rfl rfl fun i task hr _ hin => ?_
    refine ⟨fun _ _ hh => mem_cons_of_mem _ hh, fun wanted hc => ?_, .of_eq rfl,
      fun _ _ ho => ho, .refl _⟩
    -- the loop is idle, so no task changes a photo
    cases hin (by rw [hc]; simp)
    cases hg.1.symm.trans hr
    cases hc
  | release id =>
    simp only at step
    split_ifs at step with hg
    cases step
    refine sound_of_same hs rfl rfl rfl fun i task hr _ _ => ?_
    refine ⟨fun wanted hw hh => ?_, fun _ _ free hh => free (mem_of_mem_filter hh), .of_eq rfl,
      fun _ _ ho => ho, .refl _⟩
    refine mem_filter.2 ⟨hh, decide_eq_true ?_⟩
    rintro rfl
    exact hg task (mem_of_getElem? hr) hw
  | finalize w =>
    simp only at step
    split_ifs at step with hg
    cases step
    exact hs.finalize hg
  | published id =>
    simp only at step
    split_ifs at step with hi
    cases step
    exact SoundBut.updatePhoto hs (fun p _ => p.milder_markPublished)
      (·.milder_markPublished.photoId) (·.milder_markPublished.libraryId) (.inl hi)
  | editPublished id rt =>
    simp only at step
    split_ifs at step with hi
    cases step
    exact SoundBut.updatePhoto hs (fun p hd => milder_markWrittenPublished hd rt)
      (photoId_markWrittenPublished rt) (libraryId_markWrittenPublished rt) (.inl hi)
  | removalPublished id rt =>
    simp only at step
    split_ifs at step with hi
    cases step
    exact SoundBut.updatePhoto hs (fun p _ => p.milder_finishResourceRemoval rt) (fun _ => rfl)
      (fun _ => rfl) (.inl hi)
  | tombstonePublished id deleted =>
    simp only at step
    split_ifs at step with hi
    cases step
    cases deleted <;>
      exact SoundBut.updatePhoto hs (fun _ _ => .of_same rfl rfl rfl rfl) (fun _ => rfl)
        (fun _ => rfl) (.inl hi)
  | hardDelete id cutoff =>
    simp only at step
    split at step
    · next p hf =>
        split_ifs at step with hg
        split at step
        · cases step
          exact hs
        · next deleted hre =>
            cases step
            exact hs.hardDelete hg.1 hf hre
    · cases step
  | evict thread limit =>
    simp only at step
    split_ifs at step with hg
    cases step
    exact hs.goPlain hg.2 (by simp) trivial
  | run thread =>
    obtain ⟨task, hr, ran⟩ := bind_eq_some_iff.1 step
    exact hs.runTask hr (calm task hr) ran
  | fail thread =>
    obtain ⟨task, hr, ran⟩ := bind_eq_some_iff.1 step
    exact hs.failTask hr (calm task hr) ran

end Daemon

open Runs (Reaches)

/-- The personal library, and an asset that has only its original. -/
def personalLibrary : LibraryConfig := ⟨"personal", none, none⟩

def plainAsset (localId cloudId : String) : AssetDescriptor :=
  ⟨localId, some cloudId, .personal, none, [⟨1, none⟩]⟩

def sameBytes (ext : String) : StoredContent := ⟨.replicate 32 7, ext, 3⟩

def finalizesOriginal (photoId : PhotoId) (ext : String) : FinalizeCall :=
  ⟨"personal", photoId, .original, sameBytes ext⟩

/-- Two assets are seen, and the original of the first is finalized. -/
def firstFinalized : List DaemonEvent :=
  [.descriptor (plainAsset "a" "A") ⟨1⟩ 0, .descriptor (plainAsset "b" "B") ⟨2⟩ 0, .claim ⟨1⟩,
    .claim ⟨2⟩, .finalize (finalizesOriginal ⟨1⟩ "heic"), .run 2, .run 2, .run 2]

/-- The second asset has the same bytes under another extension. -/
def otherExtension : List DaemonEvent :=
  firstFinalized ++ [.finalize (finalizesOriginal ⟨2⟩ "jpg"), .run 3, .run 3]

/-- The first photo is published and its blob stamped; between liveness check and unlink, the second
places the same bytes. -/
def evictedUnderWriter : List DaemonEvent :=
  firstFinalized ++ [.published ⟨1⟩, .evict 1 500, .run 1, .run 1,
    .finalize (finalizesOriginal ⟨2⟩ "heic"), .run 3, .run 3, .run 3, .run 3, .run 1]

/-- The same, with the unlink before the second photo is finalized. -/
def evictedBeforeWriter : List DaemonEvent :=
  firstFinalized ++ [.published ⟨1⟩, .evict 1 500, .run 1, .run 1, .run 1,
    .finalize (finalizesOriginal ⟨2⟩ "heic"), .run 3, .run 3, .run 3, .run 3]

end HopNet.Ingress
