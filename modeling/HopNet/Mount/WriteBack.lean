import HopNet.Lib.Runs
import HopNet.Mount.Locks

namespace HopNet

open Runs List Option

/-- The task is about a call that is not answered yet. -/
def Task.mutates : Task → Bool
  | .locking _ | .copying _ _ | .mutating _ | .mutated _ => true
  | _ => false

/-- The task has begun to read the staging file and has not settled. -/
def Task.uploads : Task → Bool
  | .sending _ _ | .answered _ _ _ => true
  | _ => false

/-- The next step of the task writes to the staging file. -/
def Task.writes : Task → Bool
  | .mutating _ => true
  | _ => false

variable (s : Session)

/-- No call reaches the staging file while it is uploaded, and the release comes when all calls are
answered. -/
def Session.Calm : SessionEvent → Prop
  | .run i _ => ∀ task ∈ s.tasks[i]?, task.writes = true → ∀ other ∈ s.tasks, other.uploads = false
  | .release => ∀ task ∈ s.tasks, task.mutates = false
  | _ => True

instance (s : Session) (event : SessionEvent) : Decidable (s.Calm event) := by
  apply SessionEvent.casesOn (motive := fun event => Decidable (s.Calm event)) event <;> intros <;>
    dsimp only [Session.Calm] <;> infer_instance

namespace Session

/-- The node accepted an upload with this call in it. -/
def Saved (i : Nat) : Prop := ∃ u ∈ s.accepted, u.Contains i

/-- What holds of the flag, the file and the calls. -/
structure Covered (s : Session) : Prop where
  content : ∀ file ∈ s.staged, file.content = s.log.foldl Applied.apply file.start
  unstaged : s.staged = none → s.log = []
  acked : ∀ i ∈ s.acked, i < s.log.length
  flagged : ∀ i ∈ s.acked, s.Saved i ∨ s.dirty = true
  kept : ∀ file ∈ s.staged, file.linked = false → s.isOpen = false ∧ ∀ i ∈ s.acked, s.Saved i

/-- An upload that saw all calls. -/
def Current (u : Upload) : Prop :=
  u.startedAt = s.log.length ∧ ∀ read ∈ u.chunks, u.startedAt ≤ read.1

/-- The background task of a release runs when the handle is gone. -/
def Uploader.Placed : Uploader → Prop
  | .fsync => True
  | .release _ => s.isOpen = false

def TaskSound : Task → Prop
  | .locking _ | .copying _ _ | .mutating _ => s.isOpen = true
  | .mutated index => s.isOpen = true ∧ index < s.log.length
  | .releasing dirty => s.isOpen = false ∧ (dirty = false → ∀ i ∈ s.acked, s.Saved i)
  | .queued who | .checking who => Uploader.Placed s who
  | .sending who u => Uploader.Placed s who ∧ s.Current u
  | .answered who u ok => Uploader.Placed s who ∧ s.Current u ∧ (ok = true → u ∈ s.accepted)
  | .sleeping _ => s.isOpen = false
  | .syncing | .done => True

structure Sound (s : Session) : Prop where
  covered : s.Covered
  tasks : ∀ task ∈ s.tasks, s.TaskSound task

variable {s s' : Session} {i : Nat} {task : Task} {who : Uploader} {u : Upload} {new : Task}

lemma Covered.nothingLost (hc : s.Covered) : s.NothingLost := by
  intro i ha
  cases hs : s.staged with
  | none =>
    have hlo := hc.acked i ha
    rw [hc.unstaged hs] at hlo
    exact absurd hlo (Nat.not_lt_zero i)
  | some file =>
    by_cases hl : file.linked = true
    · exact .inr ⟨file, rfl, hl, hc.content file hs⟩
    · exact .inl ((hc.kept file hs (Bool.eq_false_iff.2 hl)).2 i ha)

lemma Current.saves (hc : s.Current u) (ha : u ∈ s.accepted) (i : Nat)
    (hl : i < s.log.length) : s.Saved i := by
  refine ⟨u, ha, hc.1 ▸ hl, fun read hch => ?_⟩
  have hd := hc.2 read hch
  rw [hc.1] at hd
  omega

lemma Saved.mono (hm : s.accepted ⊆ s'.accepted) {i : Nat} (hs : s.Saved i) : s'.Saved i := by
  obtain ⟨u, ha, hc⟩ := hs
  exact ⟨u, hm ha, hc⟩

/-- What a step of another task may do to the session. -/
structure Spares (s s' : Session) (task : Task) : Prop where
  isOpen : s'.isOpen = s.isOpen
  acked : s.isOpen = false → s'.acked = s.acked
  grown : s.log.length ≤ s'.log.length
  log : task.uploads = true → s'.log.length = s.log.length
  accepted : s.accepted ⊆ s'.accepted

lemma Spares.of_eq (ho : s'.isOpen = s.isOpen := by rfl) (log : s'.log = s.log := by rfl)
    (had : s'.acked = s.acked := by rfl) (hac : s'.accepted = s.accepted := by rfl) :
    Spares s s' task :=
  ⟨ho, fun _ => had, by rw [log], fun _ => by rw [log], by rw [hac]; exact fun _ hh => hh⟩

lemma Current.congr (hc : s.Current u) (log : s'.log.length = s.log.length) : s'.Current u := by
  unfold Current at hc ⊢
  rw [log]
  exact hc

lemma Uploader.Placed.congr (hp : Uploader.Placed s who) (ho : s'.isOpen = s.isOpen) :
    Uploader.Placed s' who := by
  cases who with
  | fsync => trivial
  | release attempt => exact ho.trans hp

lemma TaskSound.keep (hso : s.TaskSound task) (hs : Spares s s' task) : s'.TaskSound task := by
  cases task with
  | locking | copying | mutating | sleeping => exact hs.isOpen.trans hso
  | mutated index => exact ⟨hs.isOpen.trans hso.1, lt_of_lt_of_le hso.2 hs.grown⟩
  | releasing dirty =>
    obtain ⟨ho, hcl⟩ := hso
    refine ⟨hs.isOpen.trans ho, fun hc i ha => ?_⟩
    rw [hs.acked ho] at ha
    exact (hcl hc i ha).mono hs.accepted
  | queued | checking => exact Uploader.Placed.congr hso hs.isOpen
  | sending who u => exact ⟨Uploader.Placed.congr hso.1 hs.isOpen, hso.2.congr (hs.log rfl)⟩
  | answered who u ok =>
    obtain ⟨hp, hcu, hac⟩ := hso
    exact ⟨Uploader.Placed.congr hp hs.isOpen, hcu.congr (hs.log rfl),
      fun isOk => hs.accepted (hac isOk)⟩
  | syncing | done => trivial

section

variable (hso : s.Sound)
include hso

lemma Sound.advance (hta : s'.tasks = s.tasks.set i new) (hc : s'.Covered)
    (hh : s'.TaskSound new) (hs : ∀ task ∈ s.tasks, Spares s s' task) : s'.Sound := by
  refine ⟨hc, fun task ht => ?_⟩
  rw [hta] at ht
  rcases mem_or_eq_of_mem_set ht with old | rfl
  · exact (hso.tasks task old).keep (hs task old)
  · exact hh

lemma Sound.quiet (ht : s'.tasks = s.tasks.set i new) (hh : s'.TaskSound new)
    (ho : s'.isOpen = s.isOpen := by rfl) (hs : s'.staged = s.staged := by rfl)
    (log : s'.log = s.log := by rfl) (had : s'.acked = s.acked := by rfl)
    (hac : s'.accepted = s.accepted := by rfl) (hd : s'.dirty = s.dirty := by rfl) : s'.Sound := by
  refine hso.advance ht ?_ hh fun task _ => ?_
  · obtain ⟨hc, hu, hl, hf, hk⟩ := hso.covered
    have hsa : ∀ i, s'.Saved i ↔ s.Saved i := by
      intro i
      rw [Saved, Saved, hac]
    refine ⟨?_, ?_, ?_, ?_, ?_⟩
    · rw [hs, log]
      exact hc
    · rw [hs, log]
      exact hu
    · rw [had, log]
      exact hl
    · intro i ha
      rw [hsa, hd]
      exact hf i (had ▸ ha)
    · intro file hfi hg
      obtain ⟨hcl, all⟩ := hk file (hs ▸ hfi) hg
      exact ⟨ho.trans hcl, fun i ha => (hsa i).2 (all i (had ▸ ha))⟩
  · exact .of_eq ho log had hac

lemma Sound.goTo (hh : s.TaskSound new) : (s.goTo i new).Sound :=
  hso.quiet rfl (hh.keep .of_eq)

omit hso in
/-- A copy-up that is done, or not needed, puts the file into the handle. -/
lemma Covered.stage (hc : s.Covered) (hu : s.staged = none) (start : Bytes) :
    (s.stage start).Covered := by
  have he := hc.unstaged hu
  refine ⟨?_, (nofun), hc.acked, hc.flagged, ?_⟩
  · rintro _ ⟨⟩
    rw [Session.stage, he]
    rfl
  · rintro _ ⟨⟩ hg
    cases hg

lemma Sound.stage (hu : s.staged = none) (ho : s.isOpen = true) (start : Bytes)
    (call : Mutation) : ((s.stage start).goTo i (.mutating call)).Sound := by
  have hc := hso.covered.stage hu start
  refine hso.advance rfl { hc with } ho fun task _ => ?_
  exact .of_eq

lemma Sound.hold : (s.hold i).Sound := by
  obtain ⟨hc, hu, hl, hf, hk⟩ := hso.covered
  refine ⟨⟨hc, hu, hl, hf, hk⟩, fun task ht => (hso.tasks task ht).keep ?_⟩
  exact .of_eq

omit hso in
/-- A release of a clean session unlinks the pair. -/
lemma Covered.unlink (hc : s.Covered) (hcl : s.isOpen = false) (hs : ∀ i ∈ s.acked, s.Saved i) :
    s.unlink.Covered := by
  refine ⟨?_, ?_, hc.acked, hc.flagged, fun _ _ _ => ⟨hcl, hs⟩⟩
  · intro file hf
    rw [Session.unlink, Option.mem_map] at hf
    obtain ⟨old, ho, rfl⟩ := hf
    exact hc.content old ho
  · intro ha
    exact hc.unstaged (Option.map_eq_none_iff.1 ha)

lemma Sound.unlink (hcl : s.isOpen = false) (hsa : ∀ i ∈ s.acked, s.Saved i) :
    (s.unlink.goTo i .done).Sound := by
  have hc := hso.covered.unlink hcl hsa
  refine hso.advance rfl { hc with } trivial fun task _ => ?_
  exact .of_eq

/-- A call reaches the file while no upload reads it. -/
lemma Sound.mutateFile {applied lock}
    (ho : s.isOpen = true) (hs : s.staged.isSome) (calm : ∀ other ∈ s.tasks, other.uploads = false)
    (hh : { (s.mutateFile applied).goTo i new with writeLock := lock }.TaskSound new) :
    { (s.mutateFile applied).goTo i new with writeLock := lock }.Sound := by
  obtain ⟨hco, hu, hlo, hfl, hk⟩ := hso.covered
  have hl : (s.log ++ [applied]).length = s.log.length + 1 := length_append
  refine hso.advance rfl ⟨?_, ?_, ?_, hfl, ?_⟩ hh fun task ht => ?_
  · intro file hf
    obtain ⟨old, hol, rfl⟩ := mem_map.1 hf
    show applied.apply old.content = (s.log ++ [applied]).foldl Applied.apply old.start
    rw [foldl_append, ← hco old hol]
    rfl
  · intro hab
    rw [map_eq_none_iff.1 hab] at hs
    cases hs
  · intro index ha
    show index < (s.log ++ [applied]).length
    have hb := hlo index ha
    omega
  · intro file hf hg
    obtain ⟨old, hol, rfl⟩ := mem_map.1 hf
    have hc := (hk old hol hg).1
    rw [ho] at hc
    cases hc
  · refine ⟨rfl, fun _ => rfl, ?_, fun hr => ?_, fun _ hh => hh⟩
    · show s.log.length ≤ (s.log ++ [applied]).length
      omega
    · rw [calm task ht] at hr
      cases hr

lemma Sound.acknowledge {index} (hh : s.TaskSound (.mutated index)) :
    { s.goTo i .done with dirty := true, writeLock := none, acked :=
  s.acked ++ [index] }.Sound := by
  obtain ⟨ho, hl⟩ := hh
  obtain ⟨hco, hu, acked, hfl, hk⟩ := hso.covered
  refine hso.advance rfl ⟨hco, hu, ?_, fun _ _ => .inr rfl, ?_⟩ trivial fun task _ => ?_
  · exact forall_mem_append.2 ⟨acked, forall_mem_singleton.2 hl⟩
  · intro file hf hg
    have hc := (hk file hf hg).1
    rw [ho] at hc
    cases hc
  · refine ⟨rfl, fun hc => ?_, le_refl _, fun _ => rfl, fun _ hh => hh⟩
    rw [ho] at hc
    cases hc

lemma Sound.clear (hc : s.Current u) (ha : u ∈ s.accepted) :
    { { s with uploadLock := none }.goTo i .done with dirty := false }.Sound := by
  obtain ⟨hco, hu, had, hf, hk⟩ := hso.covered
  refine hso.advance rfl ⟨hco, hu, had, ?_, hk⟩ trivial fun task _ => ?_
  · exact fun k hac => .inl (hc.saves ha k (had k hac))
  · exact .of_eq

/-- The inode's lock is of no account to the invariant. -/
lemma Sound.unlockUpload : { s with uploadLock := none }.Sound := by
  refine ⟨{ hso.covered with }, fun task ht => (hso.tasks task ht).keep ?_⟩
  exact .of_eq

lemma Sound.settleFailed (hp : Uploader.Placed s who) : (s.settle i who false).Sound := by
  cases who with
  | fsync => exact hso.unlockUpload.goTo trivial
  | release attempt => exact hso.unlockUpload.goTo hp

lemma Sound.settle {ok : Bool} (hh : s.TaskSound (.answered who u ok)) :
    (s.settle i who ok).Sound := by
  obtain ⟨hp, hc, ha⟩ := hh
  cases ok with
  | false => exact hso.settleFailed hp
  | true =>
    cases who with
    | fsync => exact hso.clear hc (ha rfl)
    | release attempt =>
      refine hso.unlockUpload.unlink hp fun k hac => ?_
      exact hc.saves (ha rfl) k (hso.covered.acked k hac)

lemma Sound.accept (ok : Bool) (hh : s.TaskSound (.sending who u)) :
    { s.goTo i (.answered who u ok) with accepted := s.accepted ++ [u] }.Sound := by
  obtain ⟨hp, hcu⟩ := hh
  obtain ⟨hco, hu, had, hf, hk⟩ := hso.covered
  have hm : s.accepted ⊆ s.accepted ++ [u] := subset_append_left _ _
  refine hso.advance rfl ⟨hco, hu, had, ?_, ?_⟩ ?_ fun task _ => ?_
  · intro k hac
    rcases hf k hac with ⟨v, ha, hc⟩ | hd
    · exact .inl ⟨v, hm ha, hc⟩
    · exact .inr hd
  · intro file hfi hg
    obtain ⟨hcl, hsa⟩ := hk file hfi hg
    refine ⟨hcl, fun k hac => ?_⟩
    obtain ⟨v, ha, hc⟩ := hsa k hac
    exact ⟨v, hm ha, hc⟩
  · refine ⟨Uploader.Placed.congr hp rfl, hcu.congr rfl, fun _ => ?_⟩
    exact mem_append_right _ (mem_singleton.2 rfl)
  · exact ⟨rfl, fun _ => rfl, le_refl _, fun _ => rfl, hm⟩

omit hso in
lemma Current.readChunk {u u' file} (hc : s.Current u)
    (hr : s.readChunk file u = some u') : s.Current u' := by
  unfold Session.readChunk at hr
  dsimp only at hr
  split_ifs at hr
  cases hr
  exact ⟨hc.1, forall_mem_append.2 ⟨hc.2, forall_mem_singleton.2 hc.1.le⟩⟩

lemma Sound.runTask {outcome} (hl : s.Locked) (ht : s.tasks[i]? = some task)
    (calm : task.writes = true → ∀ other ∈ s.tasks, other.uploads = false)
    (step : TaskStep s i task outcome s') : s'.Sound := by
  have hh := hso.tasks task (mem_of_getElem? ht)
  have lock := hl i task ht
  cases step with
  | lock | beginCopy => exact hso.hold.goTo hh
  | stageEmpty _ hu => exact hso.hold.stage hu hh [] _
  | notBegun => exact hso.goTo trivial
  | stage => exact hso.stage lock.2 hh _ _
  | copy => exact hso.goTo hh
  | stray => exact hso.quiet rfl trivial
  | @write call =>
    have hf : s.log.length < (s.log ++ [(⟨call, none⟩ : Applied)]).length := by simp
    exact hso.mutateFile hh lock.2 (calm rfl) ⟨hh, hf⟩
  | tear => exact hso.mutateFile hh lock.2 (calm rfl) trivial
  | acknowledge => exact hso.acknowledge hh
  | sync new => rcases new with rfl | rfl <;> exact hso.goTo trivial
  | release new =>
    rcases new with rfl | rfl
    · exact hso.goTo hh.1
    · exact hso.goTo trivial
  | finish => exact hso.unlink hh.1 (hh.2 rfl)
  | queue => exact hso.quiet rfl (Uploader.Placed.congr hh rfl)
  | send => exact hso.goTo ⟨hh, rfl, forall_mem_nil _⟩
  | read hr => exact hso.goTo ⟨hh.1, hh.2.readChunk hr⟩
  | accept => exact hso.accept _ hh
  | refuse => exact hso.goTo ⟨hh.1, hh.2, Bool.noConfusion⟩
  | notSent => exact hso.settleFailed hh
  | settle => exact hso.settle hh
  | wake new =>
    rcases new with ⟨_, rfl⟩ | rfl
    · exact hso.goTo hh
    · exact hso.goTo trivial

omit hso in
lemma Sound.of_spawn (isOpen : Bool) (hh : { s.spawn new with isOpen := isOpen }.TaskSound new)
    (hc : { s.spawn new with isOpen := isOpen }.Covered)
    (hs : ∀ task ∈ s.tasks, { s.spawn new with isOpen := isOpen }.TaskSound task) :
    { s.spawn new with isOpen := isOpen }.Sound := by
  exact ⟨hc, forall_mem_append.2 ⟨hs, forall_mem_singleton.2 hh⟩⟩

lemma Sound.spawn (hh : s.TaskSound new) : (s.spawn new).Sound := by
  have hs : ∀ {task}, Spares s (s.spawn new) task :=
    .of_eq
  obtain ⟨hc, hu, ha, hf, hk⟩ := hso.covered
  exact .of_spawn s.isOpen (hh.keep hs) ⟨hc, hu, ha, hf, hk⟩ fun task ht =>
    (hso.tasks task ht).keep hs

/-- No call is under way, and a clean session has all its calls in an accepted upload. -/
lemma Sound.release (calm : ∀ task ∈ s.tasks, task.mutates = false) :
    { s.spawn (.releasing s.dirty) with isOpen := false }.Sound := by
  obtain ⟨hc, hu, hac, hf, hk⟩ := hso.covered
  refine .of_spawn false ⟨rfl, fun hcl k ha => ?_⟩
    ⟨hc, hu, hac, hf, fun file hfi hg => ⟨rfl, (hk file hfi hg).2⟩⟩ fun task ht => ?_
  · rcases hf k ha with hsa | dirty
    · exact hsa
    · rw [hcl] at dirty
      cases dirty
  · have hh := hso.tasks task ht
    have hq := calm task ht
    cases task with
    | locking | copying | mutating | mutated => cases hq
    | releasing dirty => exact ⟨rfl, hh.2⟩
    | queued who | checking who =>
      cases who with
      | fsync => trivial
      | release attempt => exact rfl
    | sending who | answered who =>
      cases who with
      | fsync => exact ⟨trivial, hh.2⟩
      | release attempt => exact ⟨rfl, hh.2⟩
    | sleeping attempt => exact rfl
    | syncing | done => trivial

lemma Sound.step (hl : s.Locked) {event} (step : SessionStep s event s')
    (hc : s.Calm event) : s'.Sound := by
  cases event with
  | mutate call =>
    cases step
    split_ifs with ho
    · exact hso.spawn ho
    · exact hso
  | fsync =>
    cases step
    split_ifs
    · exact hso.spawn trivial
    · exact hso
  | release =>
    cases step
    split_ifs
    · exact hso.release hc
    · exact hso
  | run i outcome =>
    obtain ⟨task, ht, step⟩ := taskStep_of_run step
    exact hso.runTask hl ht (hc task ht) step

end

lemma Sound.opened (base : Bytes) (truncate : Bool) : (opened base truncate).Sound := by
  refine ⟨⟨?_, fun _ => rfl, ?_, ?_, ?_⟩, nofun⟩
  · intro file hf
    cases truncate with
    | false => cases hf
    | true =>
      cases hf
      rfl
  · exact forall_mem_nil _
  · exact forall_mem_nil _
  · intro file hf hg
    cases truncate with
    | false => cases hf
    | true =>
      cases hf
      cases hg

end Session

/-- In every run in which no call is written to the staging file while an upload reads it, and whose
release comes when all calls are answered, no acknowledged call is lost. -/
theorem acknowledged_calls_kept (base : Bytes) (truncate : Bool) (past : List SessionEvent)
    (s : Session)
    (run : Reaches (fun s event s' => SessionStep s event s' ∧ s.Calm event)
      (.opened base truncate) past s) :
    s.NothingLost := by
  have hb : s.Sound ∧ s.Locked := by
    refine run.invariant_state (fun s => s.Sound ∧ s.Locked)
      ⟨.opened base truncate, .opened base truncate⟩ ?_
    rintro _ _ _ ⟨hs, hl⟩ ⟨ht, hc⟩
    exact ⟨hs.step hl ht hc, hl.step ht⟩
  exact hb.1.covered.nothingLost

/-- A write is staged and acknowledged by task `i`. -/
def writeBy (i : Nat) (offset : Nat) (data : Bytes) : List SessionEvent :=
  [.mutate (.write offset data), .run i .ok, .run i .ok, .run i .ok]

/-- An fsync by task `i` that reads one chunk, until the node has accepted. -/
def syncBy (i : Nat) : List SessionEvent :=
  [.fsync, .run i .ok, .run i .ok, .run i .ok, .run i .ok, .run i .ok]

/-- The second write comes after the read and before the flag is cleared; then the release. -/
def overwrittenFlag : List SessionEvent :=
  writeBy 0 0 [1] ++ syncBy 1 ++ writeBy 2 1 [2] ++ [.run 1 .ok, .release, .run 3 .ok]

def lostWrite : Session := final Session.next (.opened [] false) overwrittenFlag

/-- The second call was acknowledged; no upload has it, and its pair is gone. -/
theorem second_write_lost :
    Reaches SessionStep (.opened [] false) overwrittenFlag lostWrite ∧ lostWrite.acked = [0, 1] ∧
      lostWrite.accepted.map (·.content) = [[1]] ∧ lostWrite.staged = some ⟨[], [1, 2], false⟩ ∧
      lostWrite.tasks = [.done, .done, .done, .done] ∧ ¬ lostWrite.NothingLost := by
  refine ⟨.of_foldlM id (by decide +kernel), by decide +kernel, by decide +kernel,
    by decide +kernel, by decide +kernel, ?_⟩
  unfold Session.NothingLost
  decide +kernel

/-- The same calls, with the second write after the fsync. -/
def calmWrites : List SessionEvent :=
  writeBy 0 0 [1] ++ syncBy 1 ++ [.run 1 .ok] ++ writeBy 2 1 [2] ++ [.release]

def calmSession : Session := final Session.next (.opened [] false) calmWrites

theorem calm_writes_kept : calmSession.NothingLost ∧ calmSession.acked = [0, 1] :=
  ⟨acknowledged_calls_kept [] false calmWrites calmSession (.of_guarded id (by decide +kernel)),
    by decide +kernel⟩

end HopNet
