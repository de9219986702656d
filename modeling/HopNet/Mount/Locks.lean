import HopNet.Lib.Slots
import HopNet.Mount.Session

namespace HopNet

open Option

namespace Session

inductive TaskStep (s : Session) (i : Nat) : Task → Outcome → Session → Prop
  | lock {call file} : s.writeLock = none → s.staged = some file →
      TaskStep s i (.locking call) .ok ((s.hold i).goTo i (.mutating call))
  | stageEmpty {call} : s.writeLock = none → s.staged = none → call.skipsCopy ∨ s.base = [] →
      TaskStep s i (.locking call) .ok (((s.hold i).stage []).goTo i (.mutating call))
  | beginCopy {call} : s.writeLock = none → s.staged = none →
      TaskStep s i (.locking call) .ok ((s.hold i).goTo i (.copying call []))
  | notBegun {call} : TaskStep s i (.locking call) .failed (s.goTo i .done)
  | stage {call copied next} : next = copied ++ (s.base.drop copied.length).take copyChunk →
      s.base.length ≤ next.length →
      TaskStep s i (.copying call copied) .ok ((s.stage next).goTo i (.mutating call))
  | copy {call copied next} : next = copied ++ (s.base.drop copied.length).take copyChunk →
      TaskStep s i (.copying call copied) .ok (s.goTo i (.copying call next))
  | stray {call copied outcome left} : outcome ≠ .ok →
      TaskStep s i (.copying call copied) outcome
        { s.goTo i .done with writeLock := none, strays := s.strays ++ [left] }
  | write {call} :
      TaskStep s i (.mutating call) .ok ((s.mutateFile ⟨call, none⟩).goTo i (.mutated s.log.length))
  | tear {call k} :
      TaskStep s i (.mutating call) (.torn k)
      { (s.mutateFile ⟨call, some k⟩).goTo i .done with writeLock := none }
  | acknowledge {index} : TaskStep s i (.mutated index) .ok
        { s.goTo i .done with dirty := true, writeLock := none, acked := s.acked ++ [index] }
  | sync {new} : new = .queued .fsync ∨ new = .done → TaskStep s i .syncing .ok (s.goTo i new)
  | release {dirty new} :
      new = .queued (.release 0) ∨ new = .done → TaskStep s i (.releasing dirty) .ok (s.goTo i new)
  | finish : TaskStep s i (.releasing false) .ok (s.unlink.goTo i .done)
  | queue {who} :
      TaskStep s i (.queued who) .ok { s.goTo i (.checking who) with uploadLock := some i }
  | send {who size} :
      TaskStep s i (.checking who) .ok (s.goTo i (.sending who ⟨size, s.log.length, []⟩))
  | read {who u u' file} : s.readChunk file u = some u' →
      TaskStep s i (.sending who u) .ok (s.goTo i (.sending who u'))
  | accept {who u outcome ok} :
      TaskStep s i (.sending who u) outcome { s.goTo i (.answered who u ok) with accepted :=
        s.accepted ++ [u] }
  | refuse {who u} : TaskStep s i (.sending who u) .failed (s.goTo i (.answered who u false))
  | notSent {who} : TaskStep s i (.checking who) .failed (s.settle i who false)
  | settle {who u ok} : TaskStep s i (.answered who u ok) .ok (s.settle i who ok)
  | wake {attempt new} : (∃ later, new = .queued (.release later)) ∨ new = .done →
      TaskStep s i (.sleeping attempt) .ok (s.goTo i new)

/-- What the lock guarantees where a task waits. -/
def TaskLocked (s : Session) (i : Nat) : Task → Prop
  | .copying _ _ => s.writeLock = some i ∧ s.staged = none
  | .mutating _ => s.writeLock = some i ∧ s.staged.isSome
  | .mutated _ => s.writeLock = some i
  | _ => True

def Locked (s : Session) : Prop := ∀ i task, s.tasks[i]? = some task → s.TaskLocked i task

variable {s s' : Session} {i : Nat} {task : Task} {new : Task} {outcome : Outcome}

lemma taskStep_of_takeLock (ran : s.takeLock i task = some s') : TaskStep s i task .ok s' := by
  unfold Session.takeLock at ran
  split at ran
  · by_cases hf : s.writeLock = none
    · simp only [hf, ne_eq, not_true_eq_false, ↓reduceIte] at ran
      split at ran
      · cases ran
        exact .lock hf ‹_›
      · split_ifs at ran with hs
        · cases ran
          exact .stageEmpty hf ‹_› hs
        · cases ran
          exact .beginCopy hf ‹_›
    · simp [hf] at ran
  · split_ifs at ran <;> cases ran
    · exact .sync (.inl rfl)
    · exact .sync (.inr rfl)
  · rename_i dirty
    split_ifs at ran with hf hd hs
    · cases ran
      exact .release (.inl rfl)
    · cases ran
      exact .release (.inr rfl)
    · cases ran
      rw [Bool.eq_false_iff.2 hd]
      exact .finish
  · cases ran

lemma taskStep_of_runTask (ran : s.runTask i task outcome = some s') :
    TaskStep s i task outcome s' := by
  unfold Session.runTask at ran
  split at ran
  case h_1 | h_9 | h_10 => exact taskStep_of_takeLock ran
  case h_2 =>
    split_ifs at ran
    cases ran
    exact .notBegun
  case h_3 =>
    dsimp only at ran
    split_ifs at ran with hw
    · cases ran
      exact .stage rfl hw
    · cases ran
      exact .copy rfl
  case h_11 =>
    split_ifs at ran
    cases ran
    exact .queue
  case h_12 =>
    obtain ⟨file, _, rfl⟩ := map_eq_some_iff.1 ran
    exact .send
  case h_14 =>
    obtain ⟨file, _, rfl⟩ := map_eq_some_iff.1 ran
    split
    · exact .read ‹_›
    · exact .accept
  case h_15 =>
    obtain ⟨file, _, ran⟩ := bind_eq_some_iff.1 ran
    split at ran <;> cases ran
    exact .accept
  case h_18 =>
    cases ran
    split_ifs
    · exact .wake (.inl ⟨_, rfl⟩)
    · exact .wake (.inr rfl)
  all_goals cases ran
  · exact .stray nofun
  · exact .stray nofun
  · exact .write
  · exact .tear
  · exact .acknowledge
  · exact .notSent
  · exact .refuse
  · exact .settle

lemma taskStep_of_run (hs : SessionStep s (.run i outcome) s') :
    ∃ task, s.tasks[i]? = some task ∧ TaskStep s i task outcome s' := by
  unfold SessionStep Session.next at hs
  dsimp only at hs
  split at hs
  · cases hs
  · exact ⟨_, ‹_›, taskStep_of_runTask hs⟩

/-- Another task's step leaves the lock and what it protects. -/
lemma TaskLocked.keep (hl : s.TaskLocked i task)
    (hk : s.writeLock = some i → s'.writeLock = some i ∧ s'.staged.isSome = s.staged.isSome) :
    s'.TaskLocked i task := by
  cases task with
  | copying call copied =>
    obtain ⟨held, hu⟩ := hl
    obtain ⟨hh, hs⟩ := hk held
    rw [hu, isSome_none, isSome_eq_false_iff, isNone_iff_eq_none] at hs
    exact ⟨hh, hs⟩
  | mutating call => exact ⟨(hk hl.1).1, (hk hl.1).2.trans hl.2⟩
  | mutated index => exact (hk hl).1
  | _ => trivial

section

variable (hl : s.Locked)
include hl

lemma Locked.advance (hta : s'.tasks = s.tasks.set i new) (hh : s'.TaskLocked i new)
    (hk : ∀ j ≠ i, s.writeLock = some j → s'.writeLock = some j ∧
      s'.staged.isSome = s.staged.isSome) :
    s'.Locked := by
  intro j task ht
  rw [hta] at ht
  rcases Slots.set_cases ht with ⟨rfl, rfl⟩ | ⟨hot, ho⟩
  · exact hh
  · exact (hl j task ho).keep (hk j hot)

lemma Locked.goTo (here : s.TaskLocked i new) : (s.goTo i new).Locked :=
  hl.advance rfl (here.keep fun hh => ⟨hh, rfl⟩) fun _ _ hh => ⟨hh, rfl⟩

lemma Locked.take (hf : s.writeLock = none)
    (ht : s'.tasks = s.tasks.set i new) (here : s'.TaskLocked i new) : s'.Locked := by
  refine hl.advance ht here fun j _ hh => ?_
  rw [hf] at hh
  cases hh

lemma Locked.byHolder (hm : s.writeLock = some i)
    (ht : s'.tasks = s.tasks.set i new) (here : s'.TaskLocked i new) : s'.Locked := by
  refine hl.advance ht here fun j ho hh => ?_
  rw [hm] at hh
  cases hh
  exact absurd rfl ho

lemma Locked.unlink : (s.unlink.goTo i .done).Locked :=
  hl.advance rfl trivial fun _ _ hh => ⟨hh, isSome_map⟩

lemma Locked.settle {who} {ok : Bool} : (s.settle i who ok).Locked := by
  have hf : { s with uploadLock := none }.Locked := fun j task ht =>
    (hl j task ht).keep fun hh => ⟨hh, rfl⟩
  cases who with
  | fsync =>
    cases ok with
    | true => exact hl.advance rfl trivial fun _ _ hh => ⟨hh, rfl⟩
    | false => exact hf.goTo trivial
  | release attempt =>
    cases ok with
    | true => exact hf.unlink
    | false => exact hf.goTo trivial

lemma Locked.runTask (ht : s.tasks[i]? = some task) (hs : TaskStep s i task outcome s') :
    s'.Locked := by
  have here := hl i task ht
  cases hs with
  | lock hf hst => exact hl.take hf rfl ⟨rfl, isSome_of_eq_some hst⟩
  | stageEmpty hf => exact hl.take hf rfl ⟨rfl, rfl⟩
  | beginCopy hf hst => exact hl.take hf rfl ⟨rfl, hst⟩
  | stage => exact hl.byHolder here.1 rfl ⟨here.1, rfl⟩
  | copy => exact hl.goTo here
  | stray | tear => exact hl.byHolder here.1 rfl trivial
  | write => exact hl.byHolder here.1 rfl here.1
  | acknowledge => exact hl.byHolder here rfl trivial
  | sync new | release new => rcases new with rfl | rfl <;> exact hl.goTo trivial
  | wake new => rcases new with ⟨_, rfl⟩ | rfl <;> exact hl.goTo trivial
  | finish => exact hl.unlink
  | queue | accept => exact hl.advance rfl trivial fun _ _ hh => ⟨hh, rfl⟩
  | notSent | settle => exact hl.settle
  | notBegun | send | read | refuse => exact hl.goTo trivial

lemma Locked.spawn (hta : s'.tasks = s.tasks ++ [new])
    (lock : s'.writeLock = s.writeLock) (hs : s'.staged = s.staged)
    (here : s'.TaskLocked s.tasks.length new) : s'.Locked := by
  intro j task ht
  rw [hta] at ht
  rcases Slots.append_cases ht with old | ⟨rfl, rfl⟩
  · exact (hl j task old).keep fun hh => ⟨lock.trans hh, by rw [hs]⟩
  · exact here

lemma Locked.step {event} (hs : SessionStep s event s') : s'.Locked := by
  cases event with
  | mutate | fsync | release =>
    cases hs
    split_ifs
    · exact hl.spawn rfl rfl rfl trivial
    · exact hl
  | run i outcome =>
    obtain ⟨task, ht, hs⟩ := taskStep_of_run hs
    exact hl.runTask ht hs

end

lemma Locked.opened (base : Bytes) (truncate : Bool) : (opened base truncate).Locked :=
  nofun

end Session

end HopNet
