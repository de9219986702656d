import HopNet.Lib.Runs
import HopNet.Mount.Session

namespace HopNet

open Runs List Option

/-- An open file between two calls. -/
structure OpenFile where
  base : Bytes
  staged : Option Bytes
  dirty : Bool
deriving DecidableEq

namespace OpenFile

variable (file : OpenFile)

/-- `open_rw` on this base. -/
def opened (base : Bytes) (truncate : Bool) : OpenFile :=
  ⟨base, if truncate then some [] else none, false⟩

/-- What a read through the handle sees. -/
def content : Bytes := file.staged.getD file.base

/-- `write` and `truncate`: the copy-up comes first. -/
def mutate (call : Mutation) : OpenFile :=
  { file with
    staged := some (call.apply (file.staged.getD (if call.skipsCopy then [] else file.base)))
    dirty := true }

end OpenFile

/-- The background upload of a session that was released. -/
structure PendingUpload where
  content : Bytes
  /-- The node accepted it, and its answer is on the way. -/
  accepted : Bool
deriving DecidableEq

/-- One file, as the node and the mount have it. An item stands for the content it names. -/
structure MountState where
  /-- The content on the node. -/
  node : Bytes
  /-- What the attribute cache names, while it is fresh. -/
  cached : Option Bytes
  /-- Answers of the node about the item that are on the way. -/
  answers : List Bytes
  file : Option OpenFile
  pending : List PendingUpload
deriving DecidableEq

inductive MountEvent where
  /-- The node answers a lookup, an item query or `/changes`. -/
  | ask
  /-- An answer reaches the cache. -/
  | arrive (answer : Nat)
  /-- The entry expires or is invalidated. -/
  | expire
  /-- `open_rw`; on a miss it waits for this answer. -/
  | openRw (truncate : Bool) (answer : Nat)
  | call (mutation : Mutation)
  | release
  /-- `setattr` with a size and without a handle. -/
  | truncatePath (size : Nat) (answer : Nat)
  /-- The node accepts an upload. -/
  | accept (upload : Nat)
  /-- Its answer is lost, and the task tries again. -/
  | retry (upload : Nat)
  /-- Its answer arrives, with the item or without. -/
  | finish (upload : Nat) (withItem : Bool)

namespace MountState

variable (s : MountState)

/-- What an open is based on. -/
def base (answer : Nat) : Option Bytes :=
  match s.cached with
  | some cached => some cached
  | none => s.answers[answer]?

def openRw (truncate : Bool) (answer : Nat) : Option MountState :=
  match s.file with
  | some _ => none
  | none => (s.base answer).map fun base =>
      { s with cached := some base, file := some (.opened base truncate) }

def callFile (call : Mutation) : Option MountState :=
  s.file.map fun file => { s with file := some (file.mutate call) }

/-- A dirty file goes to the background; a clean one's staging is discarded. -/
def release : Option MountState :=
  s.file.map fun file =>
    { s with
      file := none
      pending := if file.dirty then s.pending ++ [⟨file.content, false⟩] else s.pending }

variable (upload : Nat)

/-- One upload at a time has the inode's lock. -/
def accept : Option MountState :=
  if ∃ other ∈ s.pending, other.accepted = true then none
  else s.pending[upload]?.map fun p =>
    { s with node := p.content, pending := s.pending.set upload ⟨p.content, true⟩ }

def retry : Option MountState :=
  s.pending[upload]?.bind fun p =>
    if p.accepted then some { s with pending := s.pending.set upload ⟨p.content, false⟩ } else none

def finish (withItem : Bool) : Option MountState :=
  s.pending[upload]?.bind fun p =>
    if p.accepted then
      some { s with
        cached := if withItem then some p.content else s.cached
        pending := s.pending.eraseIdx upload }
    else none

def next : MountEvent → Option MountState
  | .ask => some { s with answers := s.answers ++ [s.node] }
  | .arrive answer => s.answers[answer]?.map fun content => { s with cached := some content }
  | .expire => some { s with cached := none }
  | .openRw truncate answer => s.openRw truncate answer
  | .call call => s.callFile call
  | .release => s.release
  | .truncatePath size answer => do
      let s ← s.openRw (size = 0) answer
      let s ← s.callFile (.truncate size)
      s.release
  | .accept upload => s.accept upload
  | .retry upload => s.retry upload
  | .finish upload withItem => s.finish upload withItem

/-- The file with this content on the node, and nothing in the mount. -/
def fresh (content : Bytes) : MountState := ⟨content, none, [], none, []⟩

end MountState

def MountStep (s : MountState) (event : MountEvent) (s' : MountState) : Prop :=
  s.next event = some s'

/-- The writes and truncations that an event acknowledges. -/
def MountEvent.calls : MountEvent → List Mutation
  | .openRw true _ => [.truncate 0]
  | .call mutation => [mutation]
  | .truncatePath size _ => [.truncate size]
  | _ => []

/-- An open comes when no earlier session is being uploaded; answers that reach the mount are of the
node's current state; an upload's answer brings the item or finds the cache empty; and a session
that began by cutting the file is not released without a call. -/
def MountState.Settled (s : MountState) : MountEvent → Prop
  | .arrive answer => ∀ content ∈ s.answers[answer]?, content = s.node
  | .openRw _ answer | .truncatePath _ answer =>
    s.pending = [] ∧ (s.cached = none → ∀ content ∈ s.answers[answer]?, content = s.node)
  | .release => ∀ file ∈ s.file, file.dirty = true ∨ file.staged = none ∨ file.base = []
  | .finish _ withItem => withItem = true ∨ s.cached = none
  | _ => True

instance (s : MountState) (event : MountEvent) : Decidable (s.Settled event) := by
  cases event <;> unfold MountState.Settled <;> infer_instance

/-- What the sessions made of the file is in the open handle, in the pending upload, or on the
node. -/
structure MountState.Holds (expected : Bytes) (s : MountState) : Prop where
  isOpen : ∀ file ∈ s.file, s.pending = [] ∧ file.base = s.node ∧ file.content = expected ∧
    (file.dirty = true → file.staged.isSome) ∧
    (file.dirty = false → file.staged = none ∨ file.staged = some [])
  closed : s.file = none → (s.pending = [] ∧ s.node = expected) ∨
    ∃ p, s.pending = [p] ∧ p.content = expected ∧ (p.accepted = true → s.node = expected)
  cached : ∀ content ∈ s.cached, s.pending = [] → content = s.node

namespace MountState

variable {s s' : MountState} {expected : Bytes} {upload : Nat}

lemma setLen_zero (file : Bytes) : setLen file 0 = [] := by simp [setLen]

section

variable (hh : s.Holds expected)
include hh

lemma Holds.openRw {truncate : Bool} {answer} (done : s.pending = [])
    (hcu : s.cached = none → ∀ content ∈ s.answers[answer]?, content = s.node)
    (ran : s.openRw truncate answer = some s') : s'.Holds (if truncate then [] else expected) := by
  unfold MountState.openRw at ran
  split at ran
  · cases ran
  rename_i ho
  simp only [map_eq_some_iff] at ran
  obtain ⟨base, hb, rfl⟩ := ran
  have hon : s.node = expected := by
    rcases hh.closed ho with ⟨_, hs⟩ | ⟨p, hp, _⟩
    · exact hs
    · rw [done] at hp
      cases hp
  have hf : base = s.node := by
    unfold MountState.base at hb
    split at hb
    · rename_i cached hc
      cases hb
      exact hh.cached base hc done
    rename_i hc
    exact hcu hc base hb
  refine ⟨?_, (nofun), ?_⟩
  · rintro _ ⟨⟩
    refine ⟨done, hf, ?_, (nofun), fun _ => ?_⟩
    · cases truncate with
      | true => rfl
      | false => exact hf.trans hon
    · cases truncate with
      | true => exact .inr rfl
      | false => exact .inl rfl
  · rintro _ ⟨⟩ _
    exact hf

/-- A call on the open file. Cutting an unstaged one to nothing needs no copy. -/
lemma Holds.callFile {call} (ran : s.callFile call = some s') : s'.Holds (call.apply expected) := by
  rw [MountState.callFile, map_eq_some_iff] at ran
  obtain ⟨file, ho, rfl⟩ := ran
  obtain ⟨hd, hon, hc, _, _⟩ := hh.isOpen file ho
  refine ⟨?_, (nofun), hh.cached⟩
  rintro _ ⟨⟩
  refine ⟨hd, hon, ?_, fun _ => rfl, (nofun)⟩
  show call.apply (file.staged.getD (if call.skipsCopy then [] else file.base)) =
    call.apply expected
  rw [← hc, OpenFile.content]
  cases file.staged with
  | some staged => rfl
  | none =>
    cases call with
    | write offset data => rfl
    | truncate size =>
      by_cases hz : size = 0
      · subst hz
        exact (setLen_zero _).trans (setLen_zero _).symm
      · simp [Mutation.skipsCopy, hz]

lemma Holds.release (hk : ∀ file ∈ s.file, file.dirty = true ∨ file.staged = none ∨ file.base = [])
    (ran : s.release = some s') : s'.Holds expected := by
  rw [MountState.release, map_eq_some_iff] at ran
  obtain ⟨file, hop, rfl⟩ := ran
  obtain ⟨done, ho, hc, hs, hcl⟩ := hh.isOpen file hop
  refine ⟨(nofun), fun _ => ?_, ?_⟩
  · cases hdi : file.dirty with
    | true => exact .inr ⟨⟨file.content, false⟩, by simp [done], hc, (nofun)⟩
    | false =>
      refine .inl ⟨by simpa using done, ?_⟩
      rw [← hc, OpenFile.content]
      rcases hk file hop with hd | hu | hem
      · rw [hdi] at hd
        cases hd
      · rw [hu]
        exact ho.symm
      · rcases hcl hdi with hu | he
        · rw [hu]
          exact ho.symm
        · rw [he]
          exact ho.symm.trans hem
  · intro cached hca hn
    refine hh.cached cached hca ?_
    exact done

lemma Holds.pending_one {p} (hp : s.pending[upload]? = some p) :
    s.file = none ∧ s.pending = [p] ∧ upload = 0 ∧ p.content = expected ∧
    (p.accepted = true → s.node = expected) := by
  have hs : s.pending ≠ [] := by
    intro he
    rw [he] at hp
    cases hp
  cases ho : s.file with
  | some file => exact absurd (hh.isOpen file ho).1 hs
  | none =>
    rcases hh.closed ho with ⟨he, _⟩ | ⟨q, hon, hc, ha⟩
    · exact absurd he hs
    · rw [hon, getElem?_singleton] at hp
      split_ifs at hp with hf
      cases hp
      exact ⟨rfl, hon, hf, hc, ha⟩

/-- The pending upload is accepted, or goes back to its task. -/
lemma Holds.answer {p node} {accepted : Bool} (hp : s.pending[upload]? = some p)
    (hn : accepted = true → node = p.content) :
    { s with node := node, pending := s.pending.set upload ⟨p.content, accepted⟩ }.Holds
      expected := by
  obtain ⟨hcl, hon, rfl, hc, _⟩ := hh.pending_one hp
  refine ⟨?_, fun _ => .inr ⟨⟨p.content, accepted⟩, ?_, hc, fun ha => (hn ha).trans hc⟩,
    fun cached _ he => ?_⟩
  · intro file ho
    rw [hcl] at ho
    cases ho
  · rw [hon]
    rfl
  · rw [hon] at he
    cases he

lemma Holds.accept (ran : s.accept upload = some s') : s'.Holds expected := by
  unfold MountState.accept at ran
  split_ifs at ran
  rw [map_eq_some_iff] at ran
  obtain ⟨p, hp, rfl⟩ := ran
  exact hh.answer hp fun _ => rfl

lemma Holds.retry (ran : s.retry upload = some s') : s'.Holds expected := by
  rw [MountState.retry, bind_eq_some_iff] at ran
  obtain ⟨p, hp, ran⟩ := ran
  split_ifs at ran
  cases ran
  exact hh.answer hp nofun

lemma Holds.finish {withItem : Bool}
    (hf : withItem = true ∨ s.cached = none) (ran : s.finish upload withItem = some s') :
    s'.Holds expected := by
  rw [MountState.finish, bind_eq_some_iff] at ran
  obtain ⟨p, hp, ran⟩ := ran
  by_cases ha : p.accepted = true
  case neg =>
    rw [if_neg ha] at ran
    cases ran
  rw [if_pos ha] at ran
  cases ran
  obtain ⟨hcl, hon, rfl, hco, ho⟩ := hh.pending_one hp
  have ho : s.node = expected := ho ha
  refine ⟨?_, fun _ => .inl ⟨?_, ho⟩, fun cached hc _ => ?_⟩
  · intro file hop
    rw [hcl] at hop
    cases hop
  · rw [hon]
    rfl
  · have hc : (if withItem then some p.content else s.cached) = some cached := hc
    rcases hf with hb | hn
    · rw [if_pos hb, some.injEq] at hc
      exact hc.symm.trans (hco.trans ho.symm)
    · split_ifs at hc
      · rw [some.injEq] at hc
        exact hc.symm.trans (hco.trans ho.symm)
      · rw [hn] at hc
        cases hc

lemma Holds.step {event} (step : MountStep s event s')
    (hs : s.Settled event) : s'.Holds (event.calls.foldl Mutation.apply expected) := by
  cases event with
  | ask =>
    cases step
    exact { hh with }
  | arrive answer =>
    rw [MountStep, MountState.next, map_eq_some_iff] at step
    obtain ⟨content, ha, rfl⟩ := step
    refine ⟨hh.isOpen, hh.closed, ?_⟩
    rintro _ ⟨⟩ _
    exact hs content ha
  | expire =>
    cases step
    exact ⟨hh.isOpen, hh.closed, (nofun)⟩
  | openRw truncate answer =>
    have opened := hh.openRw hs.1 hs.2 step
    cases truncate with
    | false => exact opened
    | true =>
      show s'.Holds (setLen expected 0)
      rw [setLen_zero]
      exact opened
  | call mutation => exact hh.callFile step
  | release => exact hh.release hs step
  | truncatePath size answer =>
    simp only [MountStep, MountState.next, bind_eq_bind, bind_eq_some_iff] at step
    obtain ⟨opened, ran, cut, hc, hr⟩ := step
    have hf := hh.openRw hs.1 hs.2 ran
    have hse := hf.callFile hc
    have same : (Mutation.truncate size).apply (if decide (size = 0) then [] else expected) =
        (Mutation.truncate size).apply expected := by
      by_cases hz : size = 0
      · subst hz
        exact (setLen_zero _).trans (setLen_zero _).symm
      · simp [hz]
    rw [same] at hse
    refine hse.release (fun file ho => .inl ?_) hr
    rw [MountState.callFile, map_eq_some_iff] at hc
    obtain ⟨_, _, rfl⟩ := hc
    cases ho
    rfl
  | accept upload => exact hh.accept step
  | retry upload => exact hh.retry step
  | finish upload withItem => exact hh.finish hs step

end

lemma Holds.fresh (content : Bytes) : (MountState.fresh content).Holds content :=
  ⟨(nofun), fun _ => .inl ⟨rfl, rfl⟩, (nofun)⟩

end MountState

/-- In every history whose events meet the condition, once no file is open and no upload is pending,
the node has the initial content with all acknowledged calls applied in their order. -/
theorem sessions_see_each_other (content : Bytes) (past : List MountEvent) (s : MountState)
    (run : Reaches (fun s event s' => MountStep s event s' ∧ s.Settled event)
      (.fresh content) past s)
    (closed : s.file = none) (done : s.pending = []) :
    s.node = (past.flatMap MountEvent.calls).foldl Mutation.apply content := by
  have hh : s.Holds ((past.flatMap MountEvent.calls).foldl Mutation.apply content) := by
    refine run.invariant (fun past s =>
      s.Holds ((past.flatMap MountEvent.calls).foldl Mutation.apply content)) (.fresh content) ?_
    intro past s event s' _ hh ht
    rw [flatMap_append, flatMap_singleton, foldl_append]
    exact hh.step ht.1 ht.2
  rcases hh.closed closed with ⟨_, ho⟩ | ⟨p, hp, _⟩
  · exact ho
  · rw [done] at hp
    cases hp

/-- Two sessions on two bytes; the second opens before the first is uploaded. -/
def hastySessions : List MountEvent :=
  [.ask, .openRw false 0, .call (.write 0 [1]), .release, .openRw false 0, .call (.write 1 [2]),
    .release, .accept 0, .finish 0 true, .accept 0, .finish 0 true]

def hasty : MountState := final MountState.next (.fresh [0, 0]) hastySessions

/-- All is uploaded, and the first session's write is gone. -/
theorem first_session_overwritten :
    Reaches MountStep (.fresh [0, 0]) hastySessions hasty ∧ hasty.file = none ∧ hasty.pending = [] ∧
      hasty.node = [0, 2] ∧ (hastySessions.flatMap MountEvent.calls).foldl Mutation.apply
      [0, 0] = [1, 2] :=
        ⟨.of_foldlM id (by decide +kernel), by decide +kernel⟩

/-- The same calls, the second session after the upload of the first. -/
def patientSessions : List MountEvent :=
  [.ask, .openRw false 0, .call (.write 0 [1]), .release, .accept 0, .finish 0 true,
    .openRw false 0, .call (.write 1 [2]), .release, .accept 0, .finish 0 true]

def patient : MountState := final MountState.next (.fresh [0, 0]) patientSessions

theorem patient_sessions_kept : patient.node = [1, 2] := by
  have hk := sessions_see_each_other [0, 0] patientSessions patient
    (.of_guarded id (by decide +kernel)) (by decide +kernel) (by decide +kernel)
  rw [hk]
  decide +kernel

end HopNet
