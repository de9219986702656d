import HopNet.HostFailures
import HopNet.HostLedger
import HopNet.WalTable

/-!
The log across crashes: no append ever meets a row of its key, and what is fetched for a height is
what was appended for it, in order, since it was last truncated or reset. -/

namespace HopNet

open Prog Runs SeqLog List Store HostCore

variable {E : Engine} {A : Application} {C : HostConfig} {height : Nat} {core : HostCore E A}

/-- Appends of a height, and decides of it or a later one. -/
def Effect.AtHeight (height : Nat) : Effect → Prop
  | .walAppend h _ => h = height
  | .decide cert => height ≤ cert.height
  | _ => True

def Input.heightIn (state : E.State) : Input → Nat
  | .startHeight height _ _ => height
  | _ => E.height state

/-- It appends for its current height only, decides none behind it, and leaves it only for one it
is told to start. -/
structure Engine.Current (E : Engine) : Prop where
  new : ∀ height valset thresholds, E.height (E.new height valset thresholds) = height
  process : ∀ input state, (E.process input state).All (Effect.AtHeight (input.heightIn state))
    fun out => E.height out.1 = input.heightIn state

/-- The table holds the log, and no append has met a row. -/
structure Logging (core : HostCore E A) : Prop where
  tabled : Tabled core.store
  clean : core.clashed = false

/-- The counter is the next number of a height, whose rows are whole. -/
structure Counting (height : Nat) (core : HostCore E A) : Prop extends Logging core where
  intact : ∀ row ∈ rowsAt core.store.wal height, row.torn = false
  seq : core.walSeq = (rowsAt core.store.wal height).length

/-- Inputs that start no height. -/
def Live (core : HostCore E A) : Prop := ∀ input ∈ core.pendingInputs, ¬ input.Starts

/-- What the log depends on: the counter is for the engine's height, or for the one whose start is
queued. A failed call leaves the table, whatever the counter is for. -/
def walUpkeep : Upkeep E A where
  Good _ := True
  Wire _ := True
  Fed core := Counting core.height core ∧ Live core ∨
    ∃ height valset isRestart, core.pendingInputs = [.startHeight height valset isRestart] ∧
      Counting height core
  Idle core := Counting core.height core ∧ core.pendingInputs = []
  Left := Logging

/-- The next append finds its key free. -/
lemma Counting.free (hc : Counting height core) : core.store.hasWal height core.walSeq = false := by
  rw [hasWal, any_eq_false]
  intro row hr hk
  have key := of_decide_eq_true hk
  have bound := (hc.tabled height).numbered.lt (mem_filter.2 ⟨hr, decide_eq_true key.1⟩)
  have seq := hc.seq
  omega

lemma Counting.appending (hc : Counting height core) :
    (core.appending height).clashed = false := by
  rw [HostCore.appending, hc.clean, hc.free]
  rfl

lemma Counting.logged (hc : Counting height core) {entry : WireWalEntry} {n store}
    (ran : walAppend height core.walSeq entry (core.store.counted n) = .ok ((), store)) :
    Counting height { core.appending height with store, walSeq := core.walSeq + 1 } := by
  unfold walAppend at ran
  split at ran
  · cases ran
  · cases ran
    refine ⟨⟨?_, hc.appending⟩, ?_, ?_⟩
    · exact @Tabled.append _ _ hc.tabled ⟨height, core.walSeq, entry, false⟩ hc.intact hc.seq rfl
    · intro row member
      rcases mem_append.1 (rowsAt_append_self rfl ▸ member) with old | new
      · exact hc.intact row old
      · rw [mem_singleton.1 new]
    · rw [rowsAt_append_self rfl, length_append, hc.seq]
      rfl

/-- A decide of the height or a later one leaves no row of it. -/
lemma Counting.decided (hc : Counting height core) {upTo : Nat} (reached : height ≤ upTo)
    {core' : HostCore E A} (seq : core'.walSeq = 0) (clean : core'.clashed = core.clashed)
    (wal : core'.store.wal = core.store.wal.filter fun row => upTo < row.height)
    (trail : core'.store.trail = core.store.trail ++ [.truncated upTo]) :
    Counting height core' := by
  have none : rowsAt core'.store.wal height = [] := by rw [wal, rowsAt_truncate, if_pos reached]
  refine ⟨⟨hc.tabled.truncate wal trail, clean.trans hc.clean⟩, ?_, ?_⟩
  · rw [none]
    simp
  · rw [none, seq]
    rfl

/-- What an input's effects keep: the counter, the queue and the engine's own state. -/
def Driving (input : Input) (height : Nat) (core : HostCore E A) : Prop :=
  Counting height core ∧ Live core ∧ input.heightIn core.state = height

lemma handleEffect_driving (onDemand : C.onDemand = true) {input : Input} {effect : Effect}
    (asked : effect.AtHeight height) :
    Keeps (Driving input height) HostError.Fatal (handleEffect C effect : Host E A Resume) := by
  refine .of_run (handleEffect_outcome C · effect) ?_ ?_
  · rintro core answer after ⟨counting, live, here⟩ outcome
    cases outcome with
    | quiet | replayed | refused => exact ⟨{ counting with }, live, here⟩
    | logged _ ran =>
      cases asked
      exact ⟨counting.logged ran, live, here⟩
    | decided _ ran none =>
      cases none onDemand
      obtain ⟨_, _, _, wal, trail⟩ := decideAtomically_ok ran
      exact ⟨counting.decided asked rfl rfl wal trail, by simpa [Live] using live, here⟩
    | synced =>
      refine ⟨{ counting with }, ?_, here⟩
      exact forall_mem_append.2 ⟨live, forall_mem_singleton.2 id⟩
  · rintro core e after ⟨counting, live, here⟩ outcome
    cases outcome with
    | unlogged =>
      cases asked
      exact ⟨trivial, { counting with clean := counting.appending }, live, here⟩
    | missing | undecided => exact ⟨trivial, { counting with }, live, here⟩
    | unvalidated fatal => exact ⟨fatal, { counting with }, live, here⟩

lemma withThresholds_driving {input : Input} {rest : List Input}
    (queue : core.pendingInputs = rest)
    (fed : walUpkeep.Fed { core with pendingInputs := input :: rest }) :
    ∃ height, Driving input height (withThresholds C input core) := by
  rcases fed with ⟨counting, live⟩ | ⟨height, valset, isRestart, only, counting⟩
  · refine ⟨core.height, ?_⟩
    obtain ⟨first, others⟩ := forall_mem_cons.1 live
    cases input with
    | startHeight => exact absurd trivial first
    | _ => exact ⟨{ counting with }, fun i member => others i (queue ▸ member), rfl⟩
  · obtain ⟨rfl, rfl⟩ := cons.inj only
    obtain ⟨state, lastValCount, same⟩ :=
      withThresholds_eq C (.startHeight height valset isRestart) core
    rw [same]
    exact ⟨height, { counting with }, by simp [Live, queue], rfl⟩

/-- One input, the start of a height or any other. -/
lemma walUpkeep_holds (onDemand : C.onDemand = true) (current : E.Current) :
    (walUpkeep : Upkeep E A).Holds C where
  queued core input live idle := by
    refine .inl ⟨{ idle.1 with }, ?_⟩
    show ∀ i ∈ core.pendingInputs ++ [input], _
    rw [idle.2]
    exact forall_mem_singleton.2 live
  drive input rest := by
    have driven : Meets (fun core => ∃ height, Driving input height (withThresholds C input core))
        (driveOnce C input : Host E A Unit) (fun _ => walUpkeep.Fed)
        fun e core => (e.Fatal ∨ ∃ cause, e = .engine cause) ∧ walUpkeep.Fed core := by
      apply Meets.of_some
      intro height
      refine driveOnce_meets (I := Driving input height) (Q := (E.height · = height))
        (fun _ driving => driving) (fun _ asked => handleEffect_driving onDemand asked)
        (fun core driving => driving.2.2 ▸ current.process input core.state) ?_
      rintro core state ⟨counting, live, _⟩ rfl
      exact .inl ⟨{ counting with }, live⟩
    exact driven.pre fun core pre => withThresholds_driving pre.1 pre.2
  rested core empty fed := by
    rcases fed with ⟨counting, _⟩ | ⟨_, _, _, only, _⟩
    · exact ⟨counting, empty⟩
    · rw [empty] at only
      cases only
  left core kept := by
    rcases kept with (⟨counting, _⟩ | ⟨_, _, _, _, counting⟩) | idle
    · exact counting.toLogging
    · exact counting.toLogging
    · exact idle.1.toLogging
  aside _ _ _ _ _ idle := ⟨{ idle.1 with }, idle.2⟩
  remember _ _ _ _ idle := ⟨{ idle.1 with }, idle.2⟩
  counted _ _ idle := ⟨{ idle.1 with }, idle.2⟩
  stashed _ _ _ _ := trivial
  stash _ _ _ idle := ⟨{ idle.1 with }, idle.2⟩

/-- Nothing is queued, and the height's rows are the entries. -/
structure Fetched (height : Nat) (entries : List WireWalEntry) (core : HostCore E A) : Prop
    extends Logging core where
  empty : core.pendingInputs = []
  intact : ∀ row ∈ rowsAt core.store.wal height, row.torn = false
  length : (rowsAt core.store.wal height).length = entries.length

lemma walEntries_fetches (height : Nat) (isRestart : Bool) :
    Meets (fun core => Logging core ∧ core.pendingInputs = [])
      (walEntries C height isRestart : Host E A _) (Fetched height) fun _ => Logging := by
  have failed : ∀ (core : HostCore E A) (n : Nat) (e : StorageError),
      Logging core ∧ core.pendingInputs = [] →
      Logging { core with store := core.store.counted n } :=
        fun _ _ _ pre => { pre.1 with }
  cases isRestart with
  | false =>
    refine durable_meets (fun core n entries store pre ran => ?_) failed
    obtain ⟨_, tabled, intact, length, _⟩ :=
      Tabled.fetch (s := core.store.counted n) pre.1.tabled ran
    exact ⟨⟨tabled, pre.1.clean⟩, pre.2, intact, length⟩
  | true =>
    refine .seq (durable_meets (fun core n _ store pre ran => ?_) failed)
      (.pure fun _ fetched => fetched)
    cases ran
    refine ⟨⟨fun k => ?_, pre.1.clean⟩, pre.2, by simp [rowsAt], rfl⟩
    rw [logOf_snoc]
    exact .nil

section

variable (onDemand : C.onDemand = true) (current : E.Current)
include onDemand current

lemma wal_policy : Policy C (walUpkeep : Upkeep E A) fun _ => True :=
  ⟨walUpkeep_holds onDemand current, fun _ _ => trivial, fun _ _ => trivial, fun _ _ _ _ => trivial⟩

lemma startHeight_counts (fuel height : Nat) (isRestart : Bool) :
    walUpkeep.Returns (fun core => Logging core ∧ core.pendingInputs = [])
      (startHeight C fuel height isRestart : Host E A Unit) := by
  apply Meets.get_bind
  intro core _
  apply Meets.bind (walEntries_fetches height isRestart)
  intro entries
  refine .seq (I := Fetched height entries) ?_
    (.seq (I := fun core => Counting height core ∧ core.pendingInputs = []) (.modify ?_)
      (((walUpkeep_holds onDemand current).feedStrict_returns fuel ?_).seq
        ((wal_policy onDemand current).replayed_returns fuel ?_)))
  · exact .when (fun _ => .modify fun _ fetched => { fetched with }) fun _ _ fetched => fetched
  · intro core fetched
    exact ⟨⟨{ fetched with }, fetched.intact, fetched.length.symm⟩, fetched.empty⟩
  · intro core pre
    exact .inr ⟨height, _, isRestart, congrArg (· ++ [_]) pre.2, { pre.1 with }⟩
  · intro entry _
    cases entry <;> trivial

/-- A core is fresh, or its counter belongs to its height. -/
lemma startOrDefer_counts (fuel height : Nat) :
    walUpkeep.Returns (fun core => (Logging core ∧ core.pendingInputs = []) ∧
        (core.height = height ∧ core.walSeq = 0 ∨ Counting core.height core))
      (startOrDefer C fuel height : Host E A Bool) := by
  unfold startOrDefer
  rw [if_neg (by simp [onDemand])]
  apply Meets.bind (Q := fun entries core => (Logging core ∧ core.pendingInputs = []) ∧
    (entries = [] → Counting core.height core))
  · refine durable_meets (fun core n entries store pre ran => ?_) fun _ _ _ pre => { pre.1.1 with }
    obtain ⟨log, tabled, intact, length, others⟩ :=
      Tabled.fetch (s := core.store.counted n) pre.1.1.tabled ran
    refine ⟨⟨⟨tabled, pre.1.1.clean⟩, pre.1.2⟩, ?_⟩
    rintro rfl
    rcases pre.2 with ⟨rfl, zero⟩ | counting
    · exact ⟨⟨tabled, pre.1.1.clean⟩, intact, zero.trans length.symm⟩
    · by_cases here : core.height = height
      · subst here
        have none := (counting.tabled core.height).map_entry counting.intact
        refine ⟨⟨tabled, counting.clean⟩, intact, ?_⟩
        have zero : core.walSeq = 0 := by
          rw [counting.seq, ← length_map, none]
          exact (congrArg List.length log).symm
        exact zero.trans length.symm
      · have same := others core.height here
        exact ⟨⟨tabled, counting.clean⟩, fun row member => counting.intact row (same ▸ member),
          counting.seq.trans (congrArg List.length same).symm⟩
  intro entries
  split
  · rename_i none
    exact .seq (.modify fun _ pre => ⟨{ pre.2 none with }, pre.1.2⟩) (.pure fun _ idle => idle)
  · exact ((startHeight_counts onDemand current fuel height false).pre fun _ pre => pre.1).seq
      (.pure fun _ idle => idle)

end

/-- What a live host may be called for. -/
inductive HostCall where
  | input (i : HostInput)
  | startOrDefer (height : Nat)
  | startHeight (height : Nat) (isRestart : Bool)

def HostCall.run (C : HostConfig) (fuel : Nat) : HostCall → Host E A Unit
  | .input i => shellStep C fuel i
  | .startOrDefer height => do
      let _ ← HopNet.startOrDefer C fuel height
  | .startHeight height isRestart => HopNet.startHeight C fuel height isRestart

inductive LifeEvent where
  | boot (faults : Nat → Option StorageError) (height : Nat)
  | call (faults : Nat → Option StorageError) (c : HostCall)
  | tear

/-- The row written last is no longer whole. -/
def Store.tear {σ : Type} (s : Store σ) : Option (Store σ) :=
  match s.wal.getLast? with
  | some row =>
    if row.torn then none
    else some { s with
      wal := s.wal.dropLast ++ [{ row with torn := true }]
      trail := s.trail ++ [.torn row.height] }
  | none => none

/-- The lives of a node over one database. Every call has its own storage faults: a process that
dies between two effects leaves what a call leaves whose later operations all fail. A boot may
follow at any time, and may find the row written last torn. -/
def Node.live (C : HostConfig) (fuel : Nat) (node : Node E A) : LifeEvent → Option (Node E A)
  | .boot faults height =>
    (startOrDefer { C with faults } fuel height (new C node.core.store height)).map fun out =>
      ⟨out.2, out.1.isOk⟩
  | .call faults c =>
    if node.running then
      (c.run { C with faults } fuel node.core).map fun out => ⟨out.2, out.1.isOk⟩
    else none
  | .tear => node.core.store.tear.map fun store => ⟨{ node.core with store }, false⟩

def LifeStep (C : HostConfig) (node : Node E A) (event : LifeEvent) (node' : Node E A) : Prop :=
  ∃ fuel, node.live C fuel event = some node'

lemma Tabled.torn {σ : Type} {s s' : Store σ} (ht : Tabled s) (ran : s.tear = some s') :
    Tabled s' := by
  unfold Store.tear at ran
  split at ran
  · rename_i row last
    split_ifs at ran with fine
    cases ran
    exact ht.tear (dropLast_append_getLast? row last).symm (Bool.eq_false_iff.2 fine)
  · cases ran

section

variable (onDemand : C.onDemand = true) (current : E.Current)
include onDemand current

lemma HostCall.run_counts (c : HostCall) (fuel : Nat) :
    walUpkeep.Returns walUpkeep.Idle (c.run C fuel : Host E A Unit) := by
  have idle : ∀ core : HostCore E A, walUpkeep.Idle core → Logging core ∧ core.pendingInputs = [] :=
    fun _ idle => ⟨idle.1.toLogging, idle.2⟩
  have started : ∀ height isRestart, walUpkeep.Returns walUpkeep.Idle
      (HopNet.startHeight C fuel height isRestart : Host E A Unit) :=
    fun height isRestart => (startHeight_counts onDemand current fuel height isRestart).pre idle
  cases c with
  | input i =>
    refine (wal_policy onDemand current).shellStep_returns (R := fun _ => walUpkeep.Idle)
      (fun _ idle => idle) (fun _ _ idle _ => ⟨{ idle.1 with }, idle.2⟩) (started · false) ?_
    cases i with
    | wire msg => cases msg <;> trivial
    | _ => trivial
  | startOrDefer height =>
    refine .seq (.pre (startOrDefer_counts onDemand current fuel height) ?_)
      (.pure fun _ idle => idle)
    exact fun core pre => ⟨idle core pre, .inr pre.1⟩
  | startHeight height isRestart => exact started height isRestart

/-- The table is in order whatever the process, and its counter while it is alive. -/
lemma LifeStep.counts {node node' : Node E A} {event : LifeEvent}
    (inv : Logging node.core ∧ (node.running → walUpkeep.Idle node.core))
    (taken : LifeStep C node event node') :
    Logging node'.core ∧ (node'.running → walUpkeep.Idle node'.core) := by
  have leaves : ∀ {α : Type} {x : Host E A α} {P : HostCore E A → Prop} {core core' result},
      walUpkeep.Returns P x → P core →
      x core = some (result, core') → Logging core' ∧ (result.isOk → walUpkeep.Idle core') := by
    intro α x P core core' result meets pre ran
    cases result with
    | ok a =>
      have idle := meets.ok pre ran
      exact ⟨idle.1.toLogging, fun _ => idle⟩
    | error e => exact ⟨meets.error pre ran, nofun⟩
  obtain ⟨fuel, ran⟩ := taken
  cases event with
  | boot faults height =>
    obtain ⟨out, ended, rfl⟩ := Option.map_eq_some_iff.1 ran
    refine leaves (startOrDefer_counts (C := { C with faults }) onDemand current fuel height)
      ?_ ended
    exact ⟨⟨⟨inv.1.tabled, rfl⟩, rfl⟩, .inl ⟨current.new .., rfl⟩⟩
  | call faults c =>
    simp only [Node.live] at ran
    split_ifs at ran with alive
    obtain ⟨out, ended, rfl⟩ := Option.map_eq_some_iff.1 ran
    exact leaves (c.run_counts (C := { C with faults }) onDemand current fuel) (inv.2 alive) ended
  | tear =>
    obtain ⟨store, torn, rfl⟩ := Option.map_eq_some_iff.1 ran
    exact ⟨⟨inv.1.tabled.torn torn, inv.1.clean⟩, nofun⟩

/-- On demand, with an engine that keeps to its height, over a table that began empty: whatever
boots, calls, decides, late appends, failures and crashes came, no append has met a row of its key,
and a fetch returns what was appended for its height since the last truncation or reset, but for
rows that were torn, in the order of the appends. -/
theorem wal_integrity {store : Store A.State} (empty : store.wal = [] ∧ store.trail = [])
    {past : List LifeEvent} {node : Node E A}
    (run : Reaches (LifeStep C) (Node.cold C store height) past node) :
    node.core.clashed = false ∧ ∀ height, ∃ left,
      walFetch height node.core.store = .ok (logOf node.core.store.trail height, left) := by
  have start : Logging (new C store height : HostCore E A) := by
    refine ⟨fun k => ?_, rfl⟩
    show HoldsLog (rowsAt store.wal k) (logOf store.trail k)
    rw [empty.1, empty.2]
    exact .nil
  have inv := run.invariant_state
    (fun node => Logging node.core ∧ (node.running → walUpkeep.Idle node.core)) ⟨start, nofun⟩
    fun _ _ _ inv taken => taken.counts onDemand current inv
  refine ⟨inv.1.clean, fun height => ?_⟩
  obtain ⟨wal, fetched, _⟩ := walFetch_holds (inv.1.tabled height)
  exact ⟨_, fetched⟩

end

lemma loggingEngine_current : loggingEngine.Current where
  new _ _ _ := rfl
  process input state := by
    cases input with
    | vote v => exact ⟨trivial, fun _ => ⟨rfl, fun _ => ⟨trivial, fun _ => rfl⟩⟩⟩
    | _ => exact rfl

/-- Node 0, which starts heights on demand. -/
def pausingHost : HostConfig := { sampleHost with onDemand := true }

/-- Two votes are logged at height 1, the process dies in the third and the second row is torn, and
the next process logs a vote. -/
def tornLife : List LifeEvent :=
  let vote := HostCall.input (.wire (.vote sampleVote.toWire))
  [.boot pausingHost.faults 1, .call pausingHost.faults vote, .call pausingHost.faults vote,
    .call failingHost.faults vote, .tear, .boot pausingHost.faults 1, .call pausingHost.faults vote]

def tornNode : Node loggingEngine sampleApplication :=
  (tornLife.foldlM (Node.live pausingHost 4) (.cold pausingHost sampleStore 1)).get
    (by decide +kernel)

/-- Of three logged votes a fetch returns two. -/
theorem torn_vote_dropped : tornNode.core.store.trail.length = 4 ∧
    (logOf tornNode.core.store.trail 1).length = 2 ∧ tornNode.core.clashed = false ∧
    ∃ left, walFetch 1 tornNode.core.store = .ok (logOf tornNode.core.store.trail 1, left) := by
  have run : Reaches (LifeStep pausingHost) (.cold pausingHost sampleStore 1) tornLife tornNode :=
    .of_foldlM (fun ran => ⟨4, ran⟩) (Option.some_get _).symm
  have integrity := wal_integrity rfl loggingEngine_current ⟨rfl, rfl⟩ run
  exact ⟨by decide +kernel, by decide +kernel, integrity.1, integrity.2 1⟩

end HopNet
