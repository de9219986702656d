import HopNet.Context
import HopNet.Lib.Runs

namespace HopNet

open Runs List Option

/-- Timers cancelled lazily, and the shell's delay queue, expiring in any order. -/
structure ShellTimers where
  armed : Timeout → Option Nat
  pending : List (Timeout × Nat)
  nextGen : Nat
  queued : List (Timeout × Nat)

inductive TimerEvent where
  | schedule (t : Timeout)
  | cancel (t : Timeout)
  | cancelAll
  | drain
  | expiry (t : Timeout) (gen : Nat) (delivered : Bool)

namespace TimerEvent

def isSchedule : TimerEvent → Bool
  | schedule _ => true
  | _ => false

/-- An earlier schedule of `t` no longer stands after it. -/
def Ends (t : Timeout) : TimerEvent → Prop
  | schedule t' | cancel t' | expiry t' _ true => t' = t
  | cancelAll => True
  | drain | expiry _ _ false => False

/-- Schedule number `gen` was of `t`, and `after` came after it. -/
def Scheduled (past : List TimerEvent) (t : Timeout) (gen : Nat) (after : List TimerEvent) : Prop :=
  ∃ before, past = before ++ schedule t :: after ∧ gen = before.countP isSchedule + 1

variable {gen : Nat}

lemma scheduled_snoc {past after e t} : Scheduled (past ++ [e]) t gen after ↔
    (after = [] ∧ e = schedule t ∧ gen = past.countP isSchedule + 1) ∨
      ∃ rest, after = rest ++ [e] ∧ Scheduled past t gen rest := by
  constructor
  · rintro ⟨before, he, hg⟩
    rcases eq_nil_or_concat' after with rfl | ⟨rest, last, rfl⟩
    · obtain ⟨rfl, hl⟩ := append_inj' he rfl
      exact .inl ⟨rfl, by simpa using hl, hg⟩
    · rw [← cons_append, ← append_assoc] at he
      obtain ⟨rfl, hl⟩ := append_inj' he rfl
      exact .inr ⟨rest, by rw [hl], before, rfl, hg⟩
  · rintro (⟨rfl, rfl, hg⟩ | ⟨rest, rfl, before, rfl, hg⟩)
    · exact ⟨past, rfl, hg⟩
    · exact ⟨before, by simp, hg⟩

end TimerEvent

open TimerEvent

namespace ShellTimers

def default : ShellTimers := ⟨fun _ => none, [], 0, []⟩

variable (s : ShellTimers) (t : Timeout)

def isCurrent (gen : Nat) : Bool := s.armed t = some gen

def disarm : ShellTimers := { s with armed := Function.update s.armed t none }

/-- An expiry reaches the core if its generation is the armed one. -/
def next : TimerEvent → Option ShellTimers
  | .schedule t => some
      { s with
        armed := Function.update s.armed t (some (s.nextGen + 1))
        pending := s.pending ++ [(t, s.nextGen + 1)]
        nextGen := s.nextGen + 1 }
  | .cancel t => some (s.disarm t)
  | .cancelAll => some { s with armed := fun _ => none }
  | .drain => some { s with pending := [], queued := s.queued ++ s.pending }
  | .expiry t gen delivered =>
    if (t, gen) ∈ s.queued ∧ delivered = s.isCurrent t gen then
      let s := { s with queued := s.queued.erase (t, gen) }
      some (if delivered then s.disarm t else s)
    else none

variable {s t} {e : TimerEvent} {past : List TimerEvent}

lemma next_spec {s'} (hn : s.next e = some s') :
    s'.nextGen = s.nextGen + [e].countP isSchedule ∧ ∀ t gen,
    (s'.armed t = some gen ↔ e = schedule t ∧ gen = s.nextGen + 1 ∨ ¬ e.Ends t ∧
      s.armed t = some gen) ∧
    ((t, gen) ∈ s'.pending ++ s'.queued →
      e = schedule t ∧ gen = s.nextGen + 1 ∨ (t, gen) ∈ s.pending ++ s.queued) := by
  cases e with
  | schedule t' =>
    cases hn
    refine ⟨rfl, fun t gen => ?_⟩
    rcases eq_or_ne t t' with rfl | ht
    · simp +contextual [Ends, eq_comm, or_imp]
    · simp +contextual [Ends, ht, ht.symm]
  | cancel t' =>
    cases hn
    refine ⟨rfl, fun t gen => ?_⟩
    rcases eq_or_ne t t' with rfl | ht
    · simp [Ends, disarm]
    · simp [Ends, disarm, ht, ht.symm]
  | cancelAll | drain =>
    cases hn
    exact ⟨rfl, fun t gen => by simp [Ends, or_comm]⟩
  | expiry t' g d =>
    simp only [next, ite_none_right_eq_some, some.injEq] at hn
    obtain ⟨_, rfl⟩ := hn
    refine ⟨by cases d <;> rfl, fun t gen => ?_⟩
    have he : (t, gen) ∈ s.queued.erase (t', g) → (t, gen) ∈ s.queued := mem_of_mem_erase
    cases d
    · simp +contextual [Ends, or_imp, he]
    · rcases eq_or_ne t t' with rfl | ht
      · simp +contextual [Ends, disarm, or_imp, he]
      · simp +contextual [Ends, disarm, ht, ht.symm]

/-- The armed generation is the number of the last schedule, if nothing ended it. -/
structure Tells (past : List TimerEvent) (s : ShellTimers) : Prop where
  gens : s.nextGen = past.countP isSchedule
  armed : ∀ t gen, s.armed t = some gen ↔ ∃ after, Scheduled past t gen after ∧
    ∀ e ∈ after, ¬ e.Ends t
  made : ∀ t gen, (t, gen) ∈ s.pending ++ s.queued → ∃ after, Scheduled past t gen after
  spent : ∀ t gen, .expiry t gen true ∈ past → gen ≤ s.nextGen ∧ s.armed t ≠ some gen

lemma Tells.next {s'} (h : Tells past s) (hn : s.next e = some s') : Tells (past ++ [e]) s' := by
  obtain ⟨hg, hs⟩ := next_spec hn
  constructor
  · rw [countP_append, ← h.gens, hg]
  · intro t gen
    simp only [(hs t gen).1, h.armed, h.gens, scheduled_snoc]
    constructor
    · rintro (⟨he, hgen⟩ | ⟨hne, after, hd, hends⟩)
      · exact ⟨[], .inl ⟨rfl, he, hgen⟩, by simp⟩
      · refine ⟨_, .inr ⟨after, rfl, hd⟩, ?_⟩
        simpa [or_imp, forall_and] using ⟨hends, hne⟩
    · rintro ⟨_, ⟨rfl, he, hgen⟩ | ⟨rest, rfl, hd⟩, hends⟩
      · exact .inl ⟨he, hgen⟩
      · exact .inr ⟨hends e (by simp), rest, hd, fun e' he => hends e' (mem_append_left _ he)⟩
  · intro t gen hm
    simp only [scheduled_snoc]
    rcases (hs t gen).2 hm with ⟨he, hgen⟩ | hold
    · exact ⟨[], .inl ⟨rfl, he, h.gens ▸ hgen⟩⟩
    · obtain ⟨after, hd⟩ := h.made t gen hold
      exact ⟨_, .inr ⟨after, rfl, hd⟩⟩
  · intro t gen hm
    rw [Ne, (hs t gen).1, hg]
    rcases mem_append.1 hm with hold | hnew
    · obtain ⟨hle, hne⟩ := h.spent t gen hold
      exact ⟨by omega, by rintro (⟨_, hgen⟩ | ⟨_, ha⟩); omega; exact hne ha⟩
    · obtain rfl := mem_singleton.1 hnew
      have ha : s.armed t = some gen := by
        simp only [ShellTimers.next, ite_none_right_eq_some] at hn
        exact of_decide_eq_true hn.1.2.symm
      obtain ⟨after, ⟨before, rfl, rfl⟩, _⟩ := (h.armed t gen).1 ha
      exact ⟨by simp [h.gens, isSchedule], by simp [Ends]⟩

/-- An expiry belongs to the schedule with its number. It reaches the core exactly if that was the
last schedule of its timeout and neither a cancel nor a delivery came after it; so no schedule is
delivered twice. -/
theorem expiry_delivered_iff (past : List TimerEvent) (s s' : ShellTimers) (t : Timeout) (gen : Nat)
    (delivered : Bool) (run : Reaches (fun s e s' => s.next e = some s') default past s)
    (hn : s.next (.expiry t gen delivered) = some s') :
    (∃ after, Scheduled past t gen after) ∧
    (delivered = true ↔ ∃ after, Scheduled past t gen after ∧ ∀ e ∈ after, ¬ e.Ends t) ∧
    (.expiry t gen true ∈ past → delivered = false) := by
  have h : Tells past s := by
    refine run.invariant Tells ⟨rfl, ?_, ?_, ?_⟩ fun _ _ _ _ _ inv ht => inv.next ht
    · simp [default, Scheduled]
    · simp [default]
    · simp
  simp only [ShellTimers.next, ite_none_right_eq_some] at hn
  obtain ⟨⟨hq, rfl⟩, -⟩ := hn
  unfold isCurrent
  refine ⟨h.made t gen (mem_append_right _ hq), ?_, fun hm => ?_⟩
  · rw [decide_eq_true_iff, h.armed]
  · exact decide_eq_false (h.spent t gen hm).2

/-- A timeout scheduled again before its first schedule expires. -/
def proposing : Timeout := ⟨.nil, .propose⟩
def rescheduled : List TimerEvent := [.schedule proposing, .drain, .schedule proposing, .drain]

theorem expiry_delivered_rescheduled :
    (¬ ∃ after, Scheduled rescheduled proposing 1 after ∧ ∀ e ∈ after, ¬ e.Ends proposing) ∧
    ∃ after, Scheduled (rescheduled ++ [.expiry proposing 1 false]) proposing 2 after ∧
      ∀ e ∈ after, ¬ e.Ends proposing := by
  have run : Reaches (fun s e s' => next s e = some s') default rescheduled
      (Runs.final next default rescheduled) :=
        .of_foldlM id rfl
  have stale := (expiry_delivered_iff _ _ _ proposing 1 false run rfl).2.1
  have run := run.snoc (l := .expiry proposing 1 false) rfl
  have current := (expiry_delivered_iff _ _ _ proposing 2 true run rfl).2.1
  exact ⟨mt stale.2 Bool.false_ne_true, current.1 rfl⟩

end ShellTimers

end HopNet
