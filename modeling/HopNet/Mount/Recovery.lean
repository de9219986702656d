import HopNet.Lib.Runs
import HopNet.Mount.Locks

namespace HopNet

open Runs List Option Session

/-- The call, if the disk took all of it. -/
def Applied.whole (applied : Applied) : Option Mutation :=
  if applied.torn = none then some applied.call else none

def Task.onDisk : Task → Option Mutation
  | .mutating call => some call
  | _ => none

/-- The file of a copy-up that is under way. -/
def Task.copied : Task → Option Bytes
  | .copying _ copied => some copied
  | _ => none

namespace Session

variable (s : Session)

/-- The call of the task that has the handle's lock. -/
def onDisk : Option Mutation := s.writeLock.bind fun i => s.tasks[i]?.bind Task.onDisk

/-- The calls in their order, with the one on the disk. -/
def calls : List Mutation :=
  (if s.truncated then [.truncate 0] else []) ++ s.log.filterMap Applied.whole ++ s.onDisk.toList

/-- The content it was opened on, with the first of its calls applied. -/
def Whole (content : Bytes) : Prop :=
  ∃ calls, calls <+: s.calls ∧ content = calls.foldl Mutation.apply s.base

/-- The pairs of the session in the staging directory. -/
def pairs : List Bytes :=
  s.strays ++ s.tasks.filterMap Task.copied ++ ((s.staged.filter (·.linked)).map (·.content)).toList

end Session

/-- A pair that no open session has, with the session it is from. -/
structure LeftPair where
  inode : CustomUUID
  session : Session
  content : Bytes
deriving DecidableEq

/-- The daemon and its staging directory. `recover` runs before the mount serves. -/
structure MountDaemon where
  serving : Bool
  sessions : List (CustomUUID × Session)
  left : List LeftPair
  /-- What `recover` has uploaded. -/
  uploaded : List LeftPair
deriving DecidableEq

inductive DaemonEvent where
  /-- The daemon stops at this point and is started again. -/
  | crash
  /-- `recover` uploads a pair, and keeps it if the upload fails. -/
  | recover (pair : Nat) (failed : Bool)
  | serve
  | openRw (inode : CustomUUID) (base : Bytes) (truncate : Bool)
  | session (number : Nat) (event : SessionEvent)

namespace MountDaemon

variable (d : MountDaemon)

def leaves : List LeftPair :=
  d.sessions.flatMap fun (inode, s) => s.pairs.map fun content => ⟨inode, s, content⟩

def next : DaemonEvent → Option MountDaemon
  | .crash => some ⟨false, [], d.left ++ d.leaves, d.uploaded⟩
  | .recover pair failed =>
    if d.serving then none
    else d.left[pair]?.map fun p =>
      { d with left := if failed then d.left else d.left.eraseIdx pair, uploaded :=
        d.uploaded ++ [p] }
  | .serve => some { d with serving := true }
  | .openRw inode base truncate =>
    if d.serving then some { d with sessions := d.sessions ++ [(inode, .opened base truncate)] }
      else none
  | .session number event =>
    d.sessions[number]?.bind fun (inode, s) =>
      (s.next event).map fun s => { d with sessions := d.sessions.set number (inode, s) }

def started : MountDaemon := ⟨false, [], [], []⟩

end MountDaemon

def DaemonStep (d : MountDaemon) (event : DaemonEvent) (d' : MountDaemon) : Prop :=
  d.next event = some d'

/-- How much of a write the disk took before it failed. -/
def Outcome.written : Outcome → Option Nat
  | .torn k => some k
  | _ => none

/-- A failure after so many bytes leaves the file as without the call. -/
def Mutation.Unmade : Mutation → Nat → Prop
  | .write _ data, k => data.take k = []
  | .truncate size, _ => size ≠ 0

instance (call : Mutation) (k : Nat) : Decidable (call.Unmade k) := by
  cases call <;> unfold Mutation.Unmade <;> infer_instance

/-- A copy-up does not fail, a failed write has written nothing, and cutting to nothing does not
fail. -/
def Task.Durable (task : Task) (outcome : Outcome) : Prop :=
  (task.copied ≠ none → outcome = .ok) ∧ ∀ call ∈ task.onDisk, ∀ k ∈ outcome.written, call.Unmade k
deriving Decidable

def Session.Durable (s : Session) : SessionEvent → Prop
  | .run i outcome => ∀ task ∈ s.tasks[i]?, task.Durable outcome
  | _ => True

instance (s : Session) (event : SessionEvent) : Decidable (s.Durable event) := by
  cases event <;> unfold Session.Durable <;> infer_instance

/-- Sessions meet only such failures, and the daemon stops with no copy-up under way. -/
def MountDaemon.Durable (d : MountDaemon) : DaemonEvent → Prop
  | .session number event => ∀ session ∈ d.sessions[number]?, session.2.Durable event
  | .crash => ∀ session ∈ d.sessions, ∀ task ∈ session.2.tasks, task.copied = none
  | _ => True

instance (d : MountDaemon) (event : DaemonEvent) : Decidable (d.Durable event) := by
  cases event <;> unfold MountDaemon.Durable <;> infer_instance

namespace Session

/-- What the staged file of a session holds. -/
structure Intact (s : Session) : Prop where
  strays : s.strays = []
  unstaged : s.staged = none → s.log = [] ∧ s.truncated = false
  content : ∀ file ∈ s.staged,
    file.content = (s.log.filterMap Applied.whole).foldl Mutation.apply file.start
  /-- It began with the base, or with nothing if the first call cuts the file. -/
  start : ∀ file ∈ s.staged, if s.truncated then file.start = []
    else file.start = s.base ∨
      (file.start = [] ∧
        (s.log.filterMap Applied.whole ++ s.onDisk.toList).head? = some (.truncate 0))
  copying : ∀ task ∈ s.tasks, ∀ copied ∈ task.copied, copied <+: s.base

variable {s s' : Session} {i : Nat} {task : Task} {call : Mutation} {new : Task}

lemma truncate_zero_apply (file : Bytes) : (Mutation.truncate 0).apply file = [] := by
  simp [Mutation.apply, setLen]

section

variable (hi : s.Intact)
include hi

lemma Intact.whole {file} (hf : s.staged = some file) : s.Whole file.content := by
  have hs := hi.start file hf
  rw [hi.content file hf]
  cases ht : s.truncated with
  | true =>
    rw [ht, if_pos rfl] at hs
    refine ⟨[.truncate 0] ++ s.log.filterMap Applied.whole, ⟨s.onDisk.toList, ?_⟩, ?_⟩
    · rw [calls, ht, if_pos rfl]
    · rw [foldl_append, foldl_cons, foldl_nil, truncate_zero_apply, hs]
  | false =>
    have hc : s.calls = s.log.filterMap Applied.whole ++ s.onDisk.toList := by
      rw [calls, ht, if_neg Bool.false_ne_true, nil_append]
    rw [ht, if_neg Bool.false_ne_true] at hs
    rcases hs with hb | ⟨he, hfi⟩
    · exact ⟨s.log.filterMap Applied.whole, ⟨s.onDisk.toList, hc.symm⟩, by rw [hb]⟩
    · cases hw : s.log.filterMap Applied.whole with
      | nil =>
        obtain ⟨rest, hr⟩ := head?_eq_some_iff.1 hfi
        refine ⟨[.truncate 0], ⟨rest, by rw [hc, hr]; rfl⟩, ?_⟩
        rw [foldl_nil, foldl_cons, foldl_nil, truncate_zero_apply, he]
      | cons call rest =>
        rw [hw, cons_append, head?_cons, some.injEq] at hfi
        refine ⟨call :: rest, ⟨s.onDisk.toList, by rw [hc, hw]⟩, ?_⟩
        rw [hfi, foldl_cons, foldl_cons, truncate_zero_apply, truncate_zero_apply]

/-- When no copy-up is under way, all pairs of the session are whole. -/
lemma Intact.pairs_whole (hc : ∀ task ∈ s.tasks, task.copied = none) :
    ∀ content ∈ s.pairs, s.Whole content := by
  intro content hp
  have hn : s.tasks.filterMap Task.copied = [] := filterMap_eq_nil_iff.2 hc
  rw [pairs, hi.strays, hn, nil_append, nil_append, mem_toList, map_eq_some_iff] at hp
  obtain ⟨file, hf, rfl⟩ := hp
  rw [filter_eq_some_iff] at hf
  exact hi.whole hf.1

omit hi in
lemma onDisk_eq_some (hc : s.onDisk = some call) :
    ∃ h, s.writeLock = some h ∧ s.tasks[h]? = some (.mutating call) := by
  rw [onDisk, bind_eq_some_iff] at hc
  obtain ⟨h, held, hc⟩ := hc
  rw [bind_eq_some_iff] at hc
  obtain ⟨holder, hh, hc⟩ := hc
  cases holder with
  | mutating _ =>
    cases hc
    exact ⟨h, held, hh⟩
  | _ => cases hc

omit hi in
lemma onDisk_of_holder (hh : s.writeLock = some i) (ht : s.tasks[i]? = some (.mutating call)) :
    s.onDisk = some call := by
  rw [onDisk, hh, bind_some, ht]
  rfl

omit hi in
/-- A step of a task with no call on the disk leaves another's there. -/
lemma onDisk_keep (ht : s.tasks[i]? = some task) (hi : task.onDisk = none)
    (hta : s'.tasks = s.tasks.set i new)
    (hl : s'.writeLock = s.writeLock ∨ s.writeLock = none ∨ s.writeLock = some i)
    (hc : s.onDisk = some call) : s'.onDisk = some call := by
  obtain ⟨h, held, hh⟩ := onDisk_eq_some hc
  have ho : i ≠ h := by
    rintro rfl
    rw [ht, some.injEq] at hh
    rw [hh] at hi
    cases hi
  rcases hl with hs | hf | hm
  · refine onDisk_of_holder (hs.trans held) ?_
    rw [hta, getElem?_set_ne ho]
    exact hh
  · rw [hf] at held
    cases held
  · rw [hm, some.injEq] at held
    exact absurd held ho

omit hi in
lemma head_keep {calls before after} {first : Mutation}
    (hk : ∀ call, before = some call → after = some call)
    (hf : (calls ++ before.toList).head? = some first) :
    (calls ++ after.toList).head? = some first := by
  cases calls with
  | cons call rest => exact hf
  | nil =>
    cases hb : before with
    | none =>
      rw [hb] at hf
      cases hf
    | some call =>
      rw [hb] at hf
      rw [hk call hb]
      exact hf

lemma Intact.quiet (base : s'.base = s.base) (htr : s'.truncated = s.truncated)
    (hst : s'.strays = s.strays) (log : s'.log = s.log)
    (hs : ∀ file' ∈ s'.staged, ∃ file ∈ s.staged, file'.start = file.start ∧
      file'.content = file.content)
    (hu : s'.staged = none → s.staged = none)
    (ho : ∀ call, s.onDisk = some call → s'.onDisk = some call)
    (hc : ∀ task ∈ s'.tasks, ∀ copied ∈ task.copied, copied <+: s.base) : s'.Intact := by
  refine ⟨hst.trans hi.strays, fun ha => ?_, fun file' hf => ?_, fun file' hf => ?_, ?_⟩
  · rw [log, htr]
    exact hi.unstaged (hu ha)
  · obtain ⟨file, hol, start, hco⟩ := hs file' hf
    rw [start, hco, log]
    exact hi.content file hol
  · obtain ⟨file, hol, start, _⟩ := hs file' hf
    have hb := hi.start file hol
    rw [htr, start, log, base]
    split_ifs at hb ⊢
    · exact hb
    · exact hb.imp_right fun ⟨he, hfi⟩ => ⟨he, head_keep ho hfi⟩
  · rw [base]
    exact hc

lemma Intact.copying_set (hh : ∀ copied ∈ new.copied, copied <+: s.base) :
    ∀ task ∈ s.tasks.set i new, ∀ copied ∈ task.copied, copied <+: s.base := by
  intro task ht
  rcases mem_or_eq_of_mem_set ht with old | rfl
  · exact hi.copying task old
  · exact hh

/-- A task that has no call on the disk goes on beside the file. -/
lemma Intact.advance (hta : s.tasks[i]? = some task) (idle : task.onDisk = none)
    (hts : s'.tasks = s.tasks.set i new) (hh : ∀ copied ∈ new.copied, copied <+: s.base)
    (hl : s'.writeLock = s.writeLock ∨ s.writeLock = none ∨ s.writeLock = some i)
    (hb : s'.base = s.base := by rfl) (ht : s'.truncated = s.truncated := by rfl)
    (hst : s'.strays = s.strays := by rfl) (log : s'.log = s.log := by rfl)
    (hs : s'.staged = s.staged := by rfl) : s'.Intact :=
  hi.quiet hb ht hst log (fun file hf => ⟨file, hs ▸ hf, rfl, rfl⟩)
    (fun ha => hs ▸ ha) (fun _ => onDisk_keep hta idle hts hl) (hts ▸ hi.copying_set hh)

lemma Intact.goTo (ht : s.tasks[i]? = some task) (idle : task.onDisk = none)
    (hh : ∀ copied ∈ new.copied, copied <+: s.base) : (s.goTo i new).Intact :=
  hi.advance ht idle rfl hh (.inl rfl)

omit hi in
lemma not_copied {task : Task} {base}
    (hi : task.copied = none) : ∀ copied ∈ task.copied, copied <+: base := by
  intro copied hc
  rw [hi] at hc
  cases hc

lemma Intact.unlink (ht : s.tasks[i]? = some task) (idle : task.onDisk = none) :
    (s.unlink.goTo i .done).Intact := by
  refine hi.quiet rfl rfl rfl rfl (fun file' hf => ?_) (fun ha => map_eq_none_iff.1 ha)
    (fun _ => onDisk_keep ht idle rfl (.inl rfl)) (hi.copying_set (not_copied rfl))
  obtain ⟨file, ho, rfl⟩ := mem_map.1 hf
  exact ⟨file, ho, rfl, rfl⟩

lemma Intact.stage (hu : s.staged = none) {start : Bytes}
    (hta : s.tasks[i]? = some task) (hw : start = s.base ∨ (start = [] ∧ call = .truncate 0)) :
    (((s.hold i).stage start).goTo i (.mutating call)).Intact := by
  obtain ⟨log, ht⟩ := hi.unstaged hu
  have hm : (((s.hold i).stage start).goTo i (.mutating call)).tasks[i]? =
      some (.mutating call) := by
    show (s.tasks.set i _)[i]? = _
    rw [getElem?_set_self', hta]
    rfl
  refine ⟨hi.strays, (nofun), ?_, ?_, hi.copying_set (not_copied rfl)⟩
  · rintro _ ⟨⟩
    show start = (s.log.filterMap Applied.whole).foldl Mutation.apply start
    rw [log]
    rfl
  · rintro _ ⟨⟩
    show if s.truncated = true then start = [] else start = s.base ∨ (start = [] ∧
      (s.log.filterMap Applied.whole ++
        (((s.hold i).stage start).goTo i (.mutating call)).onDisk.toList).head? =
        some (.truncate 0))
    rw [ht, if_neg Bool.false_ne_true, log, onDisk_of_holder rfl hm]
    rcases hw with hb | ⟨he, rfl⟩
    · exact .inl hb
    · exact .inr ⟨he, rfl⟩

/-- The disk takes a call, or fails one that leaves nothing. -/
lemma Intact.mutateFile {torn : Option Nat} {lock}
    (hh : s.writeLock = some i) (hta : s.tasks[i]? = some (.mutating call)) (hs : s.staged.isSome)
    (hu : ∀ k ∈ torn, call.Unmade k) (idle : new.copied = none) :
    { (s.mutateFile ⟨call, torn⟩).goTo i new with writeLock := lock }.Intact := by
  have hc := onDisk_of_holder hh hta
  have hef : ∀ file, Applied.apply file ⟨call, torn⟩ =
    (Applied.whole ⟨call, torn⟩).toList.foldl Mutation.apply file := by
    intro file
    cases torn with
    | none => rfl
    | some k =>
      have hn := hu k rfl
      cases call with
      | write offset data =>
        show writeAt file offset (data.take k) = file
        rw [show data.take k = [] from hn]
        exact if_pos rfl
      | truncate size => rfl
  have hg : (s.log ++ [(⟨call, torn⟩ : Applied)]).filterMap Applied.whole =
      s.log.filterMap Applied.whole ++ (Applied.whole ⟨call, torn⟩).toList := by
    rw [filterMap_append]
    cases torn with
    | none => rfl
    | some k => rfl
  refine ⟨hi.strays, ?_, ?_, ?_, hi.copying_set (not_copied idle)⟩
  · intro ha
    rw [map_eq_none_iff.1 ha] at hs
    cases hs
  · intro file' hf
    obtain ⟨file, ho, rfl⟩ := mem_map.1 hf
    show Applied.apply file.content ⟨call, torn⟩ =
      ((s.log ++ [(⟨call, torn⟩ : Applied)]).filterMap Applied.whole).foldl Mutation.apply
        file.start
    rw [hef, hg, foldl_append, ← hi.content file ho]
  · intro file' hf
    obtain ⟨file, ho, rfl⟩ := mem_map.1 hf
    have hb := hi.start file ho
    rw [hc] at hb
    show if s.truncated = true then file.start = [] else file.start = s.base ∨ (file.start = [] ∧
      ((s.log ++ [(⟨call, torn⟩ : Applied)]).filterMap Applied.whole ++
        { (s.mutateFile ⟨call, torn⟩).goTo i new with writeLock := lock }.onDisk.toList).head? =
          some (.truncate 0))
    split_ifs at hb ⊢
    · exact hb
    rcases hb with hba | ⟨he, hfi⟩
    · exact .inl hba
    refine .inr ⟨he, ?_⟩
    rw [hg]
    cases hw : s.log.filterMap Applied.whole with
    | cons head rest =>
      rw [hw] at hfi
      exact hfi
    | nil =>
      rw [hw] at hfi
      cases hfi
      cases torn with
      | none => rfl
      | some k => exact absurd rfl (hu k rfl)

lemma Intact.settle (ht : s.tasks[i]? = some task) (idle : task.onDisk = none)
    {who : Uploader} {ok : Bool} : (s.settle i who ok).Intact := by
  cases who with
  | fsync =>
    cases ok with
    | true | false => exact hi.advance ht idle rfl (not_copied rfl) (.inl rfl)
  | release attempt =>
    cases ok with
    | true =>
      have hu : ({ s with uploadLock := none }.unlink.goTo i .done).Intact := by
        have hf : { s with uploadLock := none }.Intact :=
          { hi with }
        exact hf.unlink ht idle
      exact hu
    | false => exact hi.advance ht idle rfl (not_copied rfl) (.inl rfl)

lemma Intact.copied_prefix {copied} (ht : s.tasks[i]? = some (.copying call copied)) :
    copied ++ (s.base.drop copied.length).take copyChunk <+: s.base := by
  obtain ⟨rest, hr⟩ := hi.copying _ (mem_of_getElem? ht) copied rfl
  refine ⟨rest.drop copyChunk, ?_⟩
  rw [← hr, drop_left, append_assoc, take_append_drop]

lemma Intact.runTask (hl : s.Locked) {outcome : Outcome} (ht : s.tasks[i]? = some task)
    (hd : task.Durable outcome) (step : TaskStep s i task outcome s') : s'.Intact := by
  have hh := hl i task ht
  cases step with
  | lock hf => exact hi.advance ht rfl rfl (not_copied rfl) (.inr (.inl hf))
  | @stageEmpty call _ hu hs =>
    refine hi.stage hu ht ?_
    rcases hs with hc | he
    · cases call with
      | write offset data => cases hc
      | truncate size => exact .inr ⟨rfl, by rw [of_decide_eq_true hc]⟩
    · exact .inl he.symm
  | beginCopy hf =>
    refine hi.advance ht rfl rfl ?_ (.inr (.inl hf))
    rintro _ ⟨⟩
    exact nil_prefix
  | @stage call _ next hn hw =>
    have same : s.hold i = s := by rw [hold, ← hh.1]
    have hs : (((s.hold i).stage next).goTo i (.mutating call)).Intact := by
      refine hi.stage hh.2 ht (.inl ?_)
      rw [hn] at hw ⊢
      exact (hi.copied_prefix ht).eq_of_length_le hw
    rwa [same] at hs
  | copy hn =>
    refine hi.goTo ht rfl ?_
    rintro _ ⟨⟩
    rw [hn]
    exact hi.copied_prefix ht
  | stray ho => exact absurd (hd.1 (some_ne_none _)) ho
  | write =>
    refine hi.mutateFile hh.1 ht hh.2 ?_ rfl
    rintro _ ⟨⟩
  | @tear call k =>
    refine hi.mutateFile hh.1 ht hh.2 ?_ rfl
    rintro _ ⟨⟩
    exact hd.2 call rfl k rfl
  | acknowledge => exact hi.advance ht rfl rfl (not_copied rfl) (.inr (.inr hh))
  | sync new | release new => rcases new with rfl | rfl <;> exact hi.goTo ht rfl (not_copied rfl)
  | wake new => rcases new with ⟨_, rfl⟩ | rfl <;> exact hi.goTo ht rfl (not_copied rfl)
  | finish => exact hi.unlink ht rfl
  | queue | accept => exact hi.advance ht rfl rfl (not_copied rfl) (.inl rfl)
  | notSent | settle => exact hi.settle ht rfl
  | notBegun | send | read | refuse => exact hi.goTo ht rfl (not_copied rfl)

lemma Intact.spawn (isOpen : Bool) (idle : new.copied = none) :
    { s.spawn new with isOpen := isOpen }.Intact := by
  refine hi.quiet rfl rfl rfl rfl (fun file hf => ⟨file, hf, rfl, rfl⟩) (fun ha => ha)
    (fun call hc => ?_) (fun task ht => ?_)
  · obtain ⟨h, held, hh⟩ := onDisk_eq_some hc
    refine onDisk_of_holder held ?_
    show (s.tasks ++ [new])[h]? = _
    rw [List.getElem?_append_left (List.getElem?_eq_some_iff.1 hh).1]
    exact hh
  · rcases List.mem_append.1 ht with old | hn
    · exact hi.copying task old
    · rw [List.mem_singleton.1 hn]
      exact not_copied idle

lemma Intact.step (hl : s.Locked) {event} (hs : SessionStep s event s')
    (hd : s.Durable event) : s'.Intact := by
  cases event with
  | mutate | fsync =>
    cases hs
    split_ifs
    · exact hi.spawn s.isOpen rfl
    · exact hi
  | release =>
    cases hs
    split_ifs
    · exact hi.spawn false rfl
    · exact hi
  | run i outcome =>
    obtain ⟨task, ht, hs⟩ := taskStep_of_run hs
    exact hi.runTask hl ht (hd task ht) hs

end

lemma Intact.opened (base : Bytes) (truncate : Bool) : (opened base truncate).Intact := by
  refine ⟨rfl, fun ha => ⟨rfl, ?_⟩, fun file hf => ?_, fun file hf => ?_, nofun⟩
  · cases truncate with
    | false => rfl
    | true => cases ha
  · cases truncate with
    | false => cases hf
    | true =>
      cases hf
      rfl
  · cases truncate with
    | false => cases hf
    | true =>
      cases hf
      exact rfl

end Session

namespace MountDaemon

/-- Open sessions are intact; what others left or was uploaded is whole. -/
structure Sound (d : MountDaemon) : Prop where
  sessions : ∀ session ∈ d.sessions, session.2.Intact ∧ session.2.Locked
  left : ∀ pair ∈ d.left, pair.session.Whole pair.content
  uploaded : ∀ pair ∈ d.uploaded, pair.session.Whole pair.content

lemma Sound.step {d d' event} (hso : d.Sound) (step : DaemonStep d event d')
    (hd : d.Durable event) : d'.Sound := by
  cases event with
  | crash =>
    cases step
    refine ⟨(nofun), fun pair hp => ?_, hso.uploaded⟩
    rcases mem_append.1 hp with old | new
    · exact hso.left pair old
    · obtain ⟨session, hse, hpa⟩ := mem_flatMap.1 new
      obtain ⟨content, hc, rfl⟩ := mem_map.1 hpa
      exact (hso.sessions session hse).1.pairs_whole (hd session hse) content hc
  | recover pair failed =>
    rw [DaemonStep, MountDaemon.next] at step
    by_cases hsg : d.serving = true
    case pos =>
      rw [if_pos hsg] at step
      cases step
    rw [if_neg hsg, map_eq_some_iff] at step
    obtain ⟨p, hp, rfl⟩ := step
    refine ⟨hso.sessions, fun q hl => ?_, fun q hu => ?_⟩
    · refine hso.left q ?_
      cases failed with
      | true => exact hl
      | false => exact mem_of_mem_eraseIdx hl
    · rcases mem_append.1 hu with old | new
      · exact hso.uploaded q old
      · rw [mem_singleton.1 new]
        exact hso.left p (mem_of_getElem? hp)
  | serve =>
    cases step
    exact { hso with }
  | openRw inode base truncate =>
    simp only [DaemonStep, MountDaemon.next] at step
    split_ifs at step
    cases step
    refine ⟨fun session hs => ?_, hso.left, hso.uploaded⟩
    rcases mem_append.1 hs with old | new
    · exact hso.sessions session old
    · rw [mem_singleton.1 new]
      exact ⟨.opened base truncate, .opened base truncate⟩
  | session number event =>
    simp only [DaemonStep, MountDaemon.next, bind_eq_some_iff, map_eq_some_iff] at step
    obtain ⟨old, ho, after, ht, rfl⟩ := step
    obtain ⟨hi, hlo⟩ := hso.sessions old (mem_of_getElem? ho)
    refine ⟨fun session hs => ?_, hso.left, hso.uploaded⟩
    rcases mem_or_eq_of_mem_set hs with hk | rfl
    · exact hso.sessions session hk
    · exact ⟨hi.step hlo ht (hd old ho), hlo.step ht⟩

end MountDaemon

/-- A session on one byte; its first write has begun a pair when the daemon stops. -/
def cutCopy : List DaemonEvent :=
  [.serve, .openRw ⟨1⟩ [7] false, .session 0 (.mutate (.write 0 [8])),
    .session 0 (.run 0 .ok), .crash, .recover 0 false]

def cutDaemon : MountDaemon := final MountDaemon.next .started cutCopy

/-- The daemon stops after the write was acknowledged. -/
def lateStop : List DaemonEvent :=
  [.serve, .openRw ⟨1⟩ [7] false, .session 0 (.mutate (.write 0 [8])), .session 0 (.run 0 .ok),
    .session 0 (.run 0 .ok), .session 0 (.run 0 .ok), .session 0 (.run 0 .ok), .crash,
    .recover 0 false]

def lateDaemon : MountDaemon := final MountDaemon.next .started lateStop

end HopNet
