import HopNet.Ingress.Seeding
import HopNet.Ingress.Spool
import HopNet.Lib.Slots

namespace HopNet.Ingress

open Option StateStore

variable {next : SpoolTask}

namespace SpoolTask

/-- A task's call that has looked its blob up and not committed it. -/
def finalizing : SpoolTask → Option FinalizeCall
  | place w _ _ | clear w | commit w => some w
  | _ => none

def changes : SpoolTask → Option PhotoId
  | restore plan _ | readWritten plan _ _ _ | resources plan _ => some plan.photoId
  | readSource t _ _ | readTarget t _ _ _ | transfer t _ | inheritStamps t _ => some t.plan.photoId
  | _ => none

/-- The blob gets its eviction stamp after a transition. -/
@[simp] def inherits (library : LibraryId) (hash : ContentHash) : SpoolTask → Bool
  | inheritStamps t todo => decide (t.dst = library ∧ hash ∈ todo)
  | _ => false

/-- The stamps that a transition still owes. -/
def stamps : SpoolTask → List ContentHash
  | inheritStamps _ todo => todo
  | _ => []

/-- The task knows nothing of the store: it evicts, reaps or ends. -/
def Plain : SpoolTask → Prop
  | done | evict _ | finish _ _ => True
  | check _ _ next | unlink _ _ next => next.Plain
  | _ => False

lemma plain_reaping (reap : List (ContentHash × String)) (hp : next.Plain) :
    (reaping reap next).Plain := by
  induction reap with
  | nil => exact hp
  | cons file rest ih => exact ih

variable {task : SpoolTask}

lemma Plain.changes (hp : task.Plain) : task.changes = none := by
  cases task <;> first | rfl | exact hp.elim

lemma Plain.not_inherits (hp : task.Plain) (library : LibraryId) (hash : ContentHash) :
    ¬ task.inherits library hash := by
  cases task <;> first | exact Bool.noConfusion | exact hp.elim

end SpoolTask

namespace Daemon

variable (d : Daemon)

/-- The loop has yet to stamp a blob that a transition moved. -/
def Inheriting (library : LibraryId) (hash : ContentHash) : Prop :=
  ∃ task ∈ d.tasks[0]?, task.inherits library hash
deriving Decidable

variable (w : FinalizeCall)

/-- The photo is in flight, in the library that the call writes in. -/
def Held : Prop :=
  w.photoId ∈ d.inflight ∧ ∀ p, d.store.photo w.photoId = some p → p.libraryId = some w.library

/-- The bytes are on disk under the call's own extension. -/
def Placed : Prop :=
  d.spool (w.content.hash, w.content.ext) = some w.content.hash

def RowLive : Prop :=
  ∀ b, d.store.blob w.library w.content.hash = some b → b.evicted = false

def RowAgrees : Prop :=
  ∀ b, d.store.blob w.library w.content.hash = some b → b.evicted = true → b.ext = w.content.ext

def Owned (plan : ChangePlan) (holds : PhotoRecord → Prop) : Prop :=
  plan.photoId ∉ d.inflight ∧ ∃ p, d.store.photo plan.photoId = some p ∧ holds p

/-- A transition knows the photo's library and written contents. -/
def Moving (t : Transition) : Prop :=
  t.plan.transition = some (t.src, t.dst) ∧
    d.Owned t.plan fun p => p.libraryId = some t.src ∧ p.writtenContents = t.written

def TaskSound : SpoolTask → Prop
  | .lookup w => d.Held w
  | .place w ext evicted => d.Held w ∧ ext = w.content.ext ∧ d.RowAgrees w ∧
      (evicted = false → d.RowLive w)
  | .clear w => d.Held w ∧ d.Placed w ∧ d.RowAgrees w
  | .commit w => d.Held w ∧ d.Placed w ∧ d.RowLive w
  | .restore plan _ => d.Owned plan fun p => ∀ src dst, plan.transition = some (src, dst) →
      p.libraryId = some src
  | .readWritten plan _ src dst =>
    plan.transition = some (src, dst) ∧ d.Owned plan fun p => p.libraryId = some src
  | .readSource t _ _ | .readTarget t _ _ _ | .transfer t _ => d.Moving t
  | .inheritStamps t _ =>
    t.plan.transition = some (t.src, t.dst) ∧ d.Owned t.plan fun p => p.libraryId = some t.dst
  | .resources plan _ => d.Owned plan fun p => ∀ src dst, plan.transition = some (src, dst) →
      p.libraryId = some dst
  | .check _ _ next | .unlink _ _ next => next.Plain
  | .done | .evict _ | .finish _ _ => True

lemma taskSound_of_plain {d : Daemon} {task} (hp : task.Plain) : d.TaskSound task := by
  cases task <;> trivial

/-- The photos that a task holds or changes are as they were for it. -/
structure SamePhotos (task : SpoolTask) (d d' : Daemon) : Prop where
  writer : ∀ id p', task.writes = some id → id ∈ d.inflight → d'.store.photo id = some p' →
    ∃ p, d.store.photo id = some p ∧ ∀ library, p.libraryId = some library →
      p'.libraryId = some library
  owner : ∀ id p, task.changes = some id → id ∉ d.inflight → d.store.photo id = some p →
    ∃ p', d'.store.photo id = some p' ∧ p'.libraryId = p.libraryId ∧ p'.resources = p.resources

/-- An evicted row of a task's call was so before, with the same extension. -/
def SameRows (task : SpoolTask) (s s' : StateStore) : Prop :=
  ∀ w b', task.finalizing = some w → s'.blob w.library w.content.hash = some b' → b'.evicted =
    true → ∃ b, s.blob w.library w.content.hash = some b ∧ b.evicted = true ∧ b'.ext = b.ext

/-- As it was for a task: the photos it holds or changes, its file and its row. -/
structure Frame (task : SpoolTask) (d d' : Daemon) : Prop where
  held : ∀ id, task.writes = some id → id ∈ d.inflight → id ∈ d'.inflight
  free : ∀ id, task.changes = some id → id ∉ d.inflight → id ∉ d'.inflight
  photos : SamePhotos task d d'
  placed : ∀ w, task.finalizing = some w → d.Placed w → d'.Placed w
  rows : SameRows task d.store d'.store

variable {d d' : Daemon} {task : SpoolTask}

namespace Frame

variable {w : FinalizeCall}

lemma held_call (hf : Frame task d d') (hw : task.writes = some w.photoId) (hh : d.Held w) :
    d'.Held w := by
  refine ⟨hf.held _ hw hh.1, fun p' hfo => ?_⟩
  obtain ⟨p, hf0, hl⟩ := hf.photos.writer _ p' hw hh.1 hfo
  exact hl _ (hh.2 p hf0)

lemma rowLive (hfr : Frame task d d') (hf : task.finalizing = some w)
    (hl : d.RowLive w) : d'.RowLive w := by
  intro b' hfo
  by_contra he
  obtain ⟨b, hf0, he0, _⟩ := hfr.rows w b' hf hfo (Bool.not_eq_false _ ▸ he)
  rw [hl b hf0] at he0
  cases he0

lemma rowAgrees (hfr : Frame task d d') (hf : task.finalizing = some w)
    (ha : d.RowAgrees w) : d'.RowAgrees w := by
  intro b' hfo he
  obtain ⟨b, hf0, he0, ext⟩ := hfr.rows w b' hf hfo he
  exact ext.trans (ha b hf0 he0)

lemma owned (hf : Frame task d d') {plan} (hc : task.changes = some plan.photoId)
    {holds : PhotoRecord → Prop} (hk : ∀ p p' : PhotoRecord, p'.libraryId = p.libraryId →
      p'.resources = p.resources →
      holds p → holds p') (ho : d.Owned plan holds) : d'.Owned plan holds := by
  obtain ⟨free, p, hfo, hh0⟩ := ho
  obtain ⟨p', hf', hl, hr⟩ := hf.photos.owner _ p hc free hfo
  exact ⟨hf.free _ hc free, p', hf', hk p p' hl hr hh0⟩

lemma taskSound (hf : Frame task d d') (hs : d.TaskSound task) : d'.TaskSound task := by
  have hc : ∀ p p' : PhotoRecord, p'.resources = p.resources →
      p'.writtenContents = p.writtenContents := by
    intro p p' resources
    rw [PhotoRecord.writtenContents, PhotoRecord.liveResources, resources]
    rfl
  have hm : ∀ t : Transition, task.changes = some t.plan.photoId → d.Moving t → d'.Moving t := by
    intro t hch hmo
    refine ⟨hmo.1, hf.owned hch (fun p p' hl resources => ?_) hmo.2⟩
    rw [hl, hc p p' resources]
    exact id
  cases task with
  | lookup w => exact hf.held_call rfl hs
  | place w ext evicted =>
    exact ⟨hf.held_call rfl hs.1, hs.2.1, hf.rowAgrees rfl hs.2.2.1,
      fun hfr => hf.rowLive rfl (hs.2.2.2 hfr)⟩
  | clear w => exact ⟨hf.held_call rfl hs.1, hf.placed w rfl hs.2.1, hf.rowAgrees rfl hs.2.2⟩
  | commit w => exact ⟨hf.held_call rfl hs.1, hf.placed w rfl hs.2.1, hf.rowLive rfl hs.2.2⟩
  | restore | resources =>
    refine hf.owned rfl (fun p p' hl _ => ?_) hs
    rw [hl]
    exact id
  | readWritten | inheritStamps =>
    refine ⟨hs.1, hf.owned rfl (fun p p' hl _ => ?_) hs.2⟩
    rw [hl]
    exact id
  | readSource t | readTarget t | transfer t => exact hm t rfl hs
  | check | unlink => exact hs
  | done | evict | finish => trivial

end Frame

/-- What holds of all tasks but the acting one; `pending` are the blobs the loop has yet to
stamp. -/
structure SoundBut (d : Daemon) (acting : Option Nat) (pending : LibraryId → ContentHash → Prop) :
    Prop where
  store : d.store.Sound
  files : ∀ library hash b, d.store.blob library hash = some b → b.evicted = false →
    d.spool (hash, b.ext) = some hash ∨ pending library hash
  unneeded : ∀ library hash, pending library hash → ∀ p ∈ d.store.photos, p.libraryId =
    some library → ∀ r ∈ p.resources, ∀ c, r.content = some c → c.hash = hash → ¬ p.Needs r c
  tasks : ∀ i task, acting ≠ some i → d.tasks[i]? = some task → d.TaskSound task ∧
    (task.changes ≠ none → i = 0)

def Sound (d : Daemon) : Prop := d.SoundBut none d.Inheriting

variable {acting : Option Nat} {thread : Nat} {pending pending' : LibraryId → ContentHash → Prop}
  {old new : SpoolTask} {id : PhotoId}

lemma Sound.but (hs : d.Sound) (acting : Option Nat) : d.SoundBut acting d.Inheriting :=
  ⟨hs.store, hs.files, hs.unneeded, fun i task _ hf => hs.tasks i task (by simp) hf⟩

/-- Only the loop's own steps change what it has yet to stamp. -/
lemma inheriting_goTo (hr : d.tasks[thread]? = some old)
    (ho : ∀ library hash, ¬ old.inherits library hash)
    (hn : ∀ library hash, ¬ new.inherits library hash) (library : LibraryId) (hash : ContentHash) :
    (d.goTo thread new).Inheriting library hash ↔ d.Inheriting library hash := by
  unfold Inheriting goTo
  by_cases hl : thread = 0
  · subst hl
    simp only [mem_def, Slots.set_here hr, hr, some.injEq, exists_eq_left']
    exact iff_of_false (hn library hash) (ho library hash)
  · simp only [List.getElem?_set_ne hl]

lemma SoundBut.goTo (hso : d.SoundBut (some thread) pending) (hr : d.tasks[thread]? = some old)
    (hs : ∀ library hash, pending library hash ↔ (d.goTo thread new).Inheriting library hash)
    (hn : d.TaskSound new) (hin : new.changes ≠ none → thread = 0) : (d.goTo thread new).Sound := by
  refine ⟨hso.store, fun library hash b hf hl => ?_, fun library hash hi => ?_,
    fun i task _ hf => ?_⟩
  · exact (hso.files library hash b hf hl).imp id (hs library hash).1
  · exact hso.unneeded library hash ((hs library hash).2 hi)
  · rcases Slots.set_cases hf with ⟨rfl, rfl⟩ | ⟨ha, hb⟩
    · exact ⟨hn, hin⟩
    · exact hso.tasks i task (fun same => ha (some.inj same).symm) hb

lemma SoundBut.goToSame (hs : d.SoundBut (some thread) d.Inheriting)
    (hr : d.tasks[thread]? = some old) (ho : ∀ library hash, ¬ old.inherits library hash)
    (hn : ∀ library hash, ¬ new.inherits library hash) (hns : d.TaskSound new)
    (hi : new.changes ≠ none → thread = 0) : (d.goTo thread new).Sound :=
  hs.goTo hr (fun library hash => (inheriting_goTo hr ho hn library hash).symm) hns hi

lemma SoundBut.step (hso : d.SoundBut acting pending) (hta : d'.tasks = d.tasks)
    (hs : d'.store.Sound)
    (hfi : ∀ library hash b, d'.store.blob library hash = some b → b.evicted = false →
      d'.spool (hash, b.ext) = some hash ∨ pending' library hash)
    (hu : ∀ library hash, pending' library hash →
      ∀ p ∈ d'.store.photos, p.libraryId = some library →
      ∀ r ∈ p.resources, ∀ c, r.content = some c → c.hash = hash → ¬ p.Needs r c)
    (hf : ∀ i task, acting ≠ some i → d.tasks[i]? = some task → d.TaskSound task →
      (task.changes ≠ none → i = 0) →
      Frame task d d') : d'.SoundBut acting pending' := by
  refine ⟨hs, hfi, hu, fun i task ha hfo => ?_⟩
  rw [hta] at hfo
  obtain ⟨ht, hi⟩ := hso.tasks i task ha hfo
  exact ⟨(hf i task ha hfo ht hi).taskSound ht, hi⟩

/-- The files and photos in flight stay, and the store keeps its rows. -/
lemma Frame.of_photos (hs : d'.spool = d.spool) (hi : d'.inflight = d.inflight)
    (hb : ∀ library hash, d'.store.blob library hash = d.store.blob library hash)
    (photos : SamePhotos task d d') : Frame task d d' where
  held _ _ held := hi ▸ held
  free _ _ free := hi ▸ free
  photos := photos
  placed w _ placed := by
    rw [Placed, hs]
    exact placed
  rows w b' _ hf evicted := ⟨b', hb _ _ ▸ hf, evicted, rfl⟩

lemma SamePhotos.of_eq (hp : d'.store.photos = d.store.photos) : SamePhotos task d d' := by
  have hph : ∀ id, d'.store.photo id = d.store.photo id := fun id => by
    rw [photo, hp]
    rfl
  refine ⟨fun id p' _ _ hf => ?_, fun id p _ _ hf => ?_⟩
  · exact ⟨p', hph id ▸ hf, fun _ hm => hm⟩
  · exact ⟨p, (hph id).trans hf, rfl, rfl⟩

lemma SameRows.refl (s : StateStore) : SameRows task s s := fun _ b' _ hf he => ⟨b', hf, he, rfl⟩

/-- The daemon keeps its photos, and perhaps not its rows and files. -/
lemma Frame.of_rows (hi : d'.inflight = d.inflight) (hp : d'.store.photos = d.store.photos)
    (hpl : ∀ w, task.finalizing = some w → d.Placed w → d'.Placed w)
    (hr : SameRows task d.store d'.store) : Frame task d d' :=
  ⟨fun _ _ hh => hi ▸ hh, fun _ _ free => hi ▸ free, .of_eq hp, hpl, hr⟩

/-- A transaction replaces the row of a photo that the acting task holds. -/
lemma Frame.of_replaced {s' p p'} (hf : d.store.photo id = some p)
    (hs : p'.photoId = id) (hp : s'.photos = (d.store.updatePhoto id fun _ => p').photos)
    (hw : id ∈ d.inflight → p'.libraryId = p.libraryId)
    (how : task.changes = some id → id ∈ d.inflight)
    (hr : SameRows task d.store s') : Frame task d (d.setStore s') := by
  have hph : ∀ wanted, s'.photo wanted = if wanted = id then some p' else d.store.photo wanted :=
    fun wanted => by
    have hl := photo_updatePhoto (s := d.store) (fun q (_ : q.photoId = id) => hs) wanted
    rw [hf] at hl
    rw [photo, hp]
    exact hl
  refine ⟨fun _ _ hh => hh, fun _ _ free => free,
    ⟨fun wanted q' _ hi hf' => ?_, fun wanted q hc free hf' => ?_⟩, fun _ _ ho => ho, hr⟩
  · have hl : s'.photo wanted = some q' := hf'
    rw [hph] at hl
    split_ifs at hl with here
    · subst here
      cases hl
      exact ⟨p, hf, fun _ hm => (hw hi).trans hm⟩
    · exact ⟨q', hl, fun _ hm => hm⟩
  · have ha : wanted ≠ id := by
      rintro rfl
      exact free (how hc)
    exact ⟨q, by rw [← hf']; exact (hph wanted).trans (if_neg ha), rfl, rfl⟩

lemma SoundBut.updatePhoto (hso : d.SoundBut acting pending) {change : PhotoRecord → PhotoRecord}
    (mild : ∀ p : PhotoRecord, p.TypesDistinct → p.Milder (change p))
    (hpi : ∀ p, (change p).photoId = p.photoId) (hl : ∀ p, (change p).libraryId = p.libraryId)
    (hs : id ∈ d.inflight ∨ ∀ p, (change p).resources = p.resources) :
    (d.setStore (d.store.updatePhoto id change)).SoundBut acting pending := by
  refine hso.step rfl (hso.store.updateMilder mild)
    (fun library hash b hf => hso.files library hash b hf)
    ?_ fun i task _ _ _ _ => .of_photos rfl rfl (fun _ _ => rfl) ⟨fun wanted p' _ _ hf => ?_,
      fun wanted p _ free hf => ?_⟩
  · intro library hash hp p hph hm r hr c hc same hn
    obtain ⟨p₀, hp0, rfl⟩ := List.mem_map.1 hph
    split_ifs at hm hr hn with hh
    · have hmi := mild p₀ (hso.store.types p₀ hp0)
      obtain ⟨r₀, hr0, hc0, hn0⟩ := hmi.origin r hr c hc
      exact hso.unneeded library hash hp p₀ hp0 (hmi.libraryId ▸ hm) r₀ hr0 c hc0 same (hn0 hn)
    · exact hso.unneeded library hash hp p₀ hp0 hm r hr c hc same hn
  · have hf' : (d.store.updatePhoto id change).photo wanted = some p' := hf
    rw [photo_updatePhoto fun p same => (hpi p).trans same] at hf'
    split_ifs at hf' with hh
    · subst hh
      obtain ⟨p, hf0, rfl⟩ := map_eq_some_iff.1 hf'
      exact ⟨p, hf0, fun _ hm => (hl p).trans hm⟩
    · exact ⟨p', hf', fun _ hm => hm⟩
  · show ∃ p', (d.store.updatePhoto id change).photo wanted = some p' ∧ _
    rw [photo_updatePhoto fun p same => (hpi p).trans same]
    split_ifs with hh
    · subst hh
      rcases hs with hi | hre
      · exact absurd hi free
      · exact ⟨change p, by rw [hf]; rfl, hl p, hre p⟩
    · exact ⟨p, hf, rfl, rfl⟩

/-- A thread goes on to a task that knows nothing. -/
lemma SoundBut.goPlain (hs : d.SoundBut (some thread) d.Inheriting)
    (hr : d.tasks[thread]? = some task)
    (ho : ∀ library hash, ¬ task.inherits library hash) (hp : next.Plain) :
    (d.goTo thread next).Sound :=
  hs.goToSame hr ho hp.not_inherits (taskSound_of_plain hp) fun hc => absurd hp.changes hc

lemma Sound.goPlain (hs : d.Sound) (hr : d.tasks[thread]? = some task)
    (ho : ∀ library hash, ¬ task.inherits library hash) (hp : next.Plain) :
    (d.goTo thread next).Sound :=
  (hs.but (some thread)).goPlain hr ho hp

end Daemon

end HopNet.Ingress
