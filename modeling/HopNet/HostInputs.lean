import HopNet.HostCore

namespace HopNet

open Prog

variable {E : Engine} {A : Application} (C : HostConfig) (height : Nat)

/-- Thresholds are replaced when the size moves the effective profile. -/
def applyHeightThresholds (valset : HopNetValidatorSet) (core : HostCore E A) : HostCore E A :=
  let count := valset.count
  if C.profile.profileAt count = C.profile.profileAt core.lastValCount ∧ count ≠ core.lastValCount
  then { core with lastValCount := count }
  else if count = core.lastValCount then core
  else
    { core with
      state := E.installThresholds height valset (C.profile.thresholdsFor count) core.state
      lastValCount := count }

/-- Every height starts through here. -/
def installThresholds : Input → Host E A Unit
  | .startHeight height valset _ => modify (applyHeightThresholds C height valset)
  | _ => pure ()

def withThresholds : Input → HostCore E A → HostCore E A
  | .startHeight height valset _, core => applyHeightThresholds C height valset core
  | _, core => core

variable (input : Input) (core : HostCore E A)

lemma installThresholds_eq :
    (installThresholds C input : Host E A Unit) core =
      some (.ok (), withThresholds C input core) := by
  cases input <;> rfl

lemma withThresholds_eq :
    ∃ state lastValCount, withThresholds C input core = { core with state, lastValCount } := by
  cases input with
  | startHeight height valset isRestart =>
    unfold withThresholds applyHeightThresholds
    dsimp only
    split_ifs
    · exact ⟨_, _, rfl⟩
    · exact ⟨_, _, rfl⟩
    · exact ⟨_, _, rfl⟩
  | _ => exact ⟨_, _, rfl⟩

/-- One input through the engine. A failed effect is the step's error, whatever the engine made of
it. -/
def driveOnce : Host E A Unit := do
  installThresholds C input
  let core ← get
  let out ← Coroutine.drive (handleEffect C) .continue (E.process input core.state) none
  modify fun core => { core with state := out.1.1 }
  match out.2 with
  | some e => Prog.fail e
  | none => lift .engine out.1.2

/-- `while let Some(input) = pending_inputs.pop_front()`, one round. -/
def popInput (step : Input → Host E A Unit) : Host E A Bool := do
  let core ← get
  match core.pendingInputs with
  | [] => return false
  | input :: rest =>
    modify fun core => { core with pendingInputs := rest }
    step input
    return true

/-- Live inputs: an engine or codec error is dropped with its input. -/
def driveLive (input : Input) : Host E A Unit := do
  match ← attempt (driveOnce C input) with
  | .ok () | .error (.engine _) | .error (.codec _) => return ()
  | .error e => Prog.fail e

def feedNext : Host E A Bool := popInput (driveLive C)

/-- Replayed inputs: any error is returned. -/
def feedNextStrict : Host E A Bool := popInput (driveOnce C)

variable (fuel : Nat)

def feed (input : Input) : Host E A Unit := do
  queueInput input
  loop fuel (feedNext C)

def feedStrict (input : Input) : Host E A Unit := do
  queueInput input
  loop fuel (feedNextStrict C)

variable (w : WireProposedValue)

/-- A proposal at this height: validated, remembered and fed with its verdict. -/
def ingestProposal : Host E A Unit := do
  let verdict ← validate C .live w.height w.block
  let pv ← lift .codec (w.intoProposedValue verdict.toValidity)
  rememberBlock pv.height pv.value
  feed C fuel (.proposedValue pv .consensus)

/-- The batch of a height; an item can complete it and make the rest stale. -/
def ingestBatch (fuel : Nat) : List WireProposedValue → Host E A Unit
  | [] => pure ()
  | w :: rest => do
      let core ← get
      when (w.height = core.height) (ingestProposal C fuel w)
      ingestBatch fuel rest

def drainNext : Host E A Bool := do
  let core ← get
  modify fun core => { core with stashed := core.stashed.filter (core.height < ·.height) }
  match core.stashed.filter (·.height = core.height) with
  | [] => return false
  | batch =>
    ingestBatch C fuel batch
    return true

def drainStashedProposals : Host E A Unit := loop fuel (drainNext C fuel)

def proposalStashAhead : Nat := 4
def proposalStashMax : Nat := 16

/-- A proposal ahead is held, within the window and the bound. -/
def stashProposal (core : HostCore E A) : HostCore E A :=
  if w.height ≤ core.height + proposalStashAhead ∧ core.stashed.length < proposalStashMax
  then { core with stashed := core.stashed ++ [w] } else core

/-- A peer's undecodable certificate is dropped. -/
def feedDecoded {α : Type} (fuel : Nat) (input : α → Input) : Except CodecError α → Host E A Unit
  | .ok cert => feed C fuel (input cert)
  | .error _ => pure ()

def onWire : WireConsensusMsg → Host E A Unit
  | .vote w | .livenessVote w =>
    match w.toSigned with
    | .error _ => pure ()
    | .ok sv => do
        feed C fuel (.vote sv)
        drainStashedProposals C fuel
  | .proposedValue w => do
      let core ← get
      if core.height < w.height then modify (stashProposal w)
      else
        when (w.height = core.height) (ingestProposal C fuel w)
        drainStashedProposals C fuel
  | .livenessPolka w => do
      feedDecoded C fuel .polkaCertificate w.toCertificate
      drainStashedProposals C fuel
  | .livenessSkipRound w => do
      feedDecoded C fuel .roundCertificate w.toCertificate
      drainStashedProposals C fuel

/-- The value this node built, shipped once the engine has taken it. -/
def propose (fuel : Nat) (height : Nat) (round : Round) (block : Block) : Host E A Unit := do
  let pv : ProposedValue := ⟨height, round, .nil, C.myAddr, block, .valid⟩
  rememberBlock height block
  feed C fuel (.propose height round block)
  broadcast (.proposedValue pv.toWire)

def onTimeout (t : Timeout) : Host E A Unit := feed C fuel (.timeoutElapsed t)

/-- A decided value from a peer: stale and malformed ones are dropped. -/
def onSyncValue (peer : Int) (block : Block) (cert : WireCommitCertificate) : Host E A Unit := do
  let core ← get
  if cert.height < core.height then pure ()
  else if block.verify C.prims ≠ .ok () ∨ block.blockHash ≠ cert.valueId then pure ()
  else
    let certificate ← lift .codec cert.toCertificate
    let bytes ← lift .codec (C.encodeBlock block)
    feed C fuel (.syncValueResponse ⟨peer, bytes, certificate⟩)

/-- A logged entry as an ordinary input; its block, if any, enters the map. -/
def replayEntry : WalEntry → Host E A Unit
  | .vote v => feedStrict C fuel (.vote v)
  | .proposal p => do
      rememberBlock p.message.height p.message.value
      feedStrict C fuel (.proposal p)
  | .timeout t => feedStrict C fuel (.timeoutElapsed t)
  | .proposedValue pv => do
      rememberBlock pv.height pv.value
      feedStrict C fuel (.proposedValue pv .consensus)

def replay (fuel : Nat) : List WireWalEntry → Host E A Unit
  | [] => pure ()
  | wire :: rest => do
      let entry ← lift .codec wire.toEntry
      replayEntry C fuel entry
      replay fuel rest

/-- Ask again for a value whose request was suppressed during the replay. -/
def requestOwed : Host E A Unit := do
  let core ← get
  modify fun core => { core with phase := .running }
  match core.owedProposal C.myAddr with
  | some round => when (core.phase = .recovering) (emit (.needValue core.height round))
  | none => pure ()

def walEntries (height : Nat) (isRestart : Bool) : Host E A (List WireWalEntry) :=
  if isRestart then do
    durable C Store.walReset
    return []
  else durable C (Store.walFetch height)

def startHeight (fuel : Nat) (height : Nat) (isRestart : Bool) : Host E A Unit := do
  let core ← get
  let valset := A.validatorSet core.store.app height
  let entries ← walEntries C height isRestart
  when (entries ≠ []) (modify fun core => { core with phase := .recovering })
  modify fun core => { core with walSeq := entries.length }
  feedStrict C fuel (.startHeight height valset isRestart)
  replay C fuel entries
  requestOwed C
  drainStashedProposals C fuel

/-- Boot: on demand, a height whose log is empty waits for a wake signal. -/
def startOrDefer (height : Nat) : Host E A Bool :=
  if C.onDemand = false then do
    startHeight C fuel height false
    return true
  else do
    let entries ← durable C (Store.walFetch height)
    if entries = [] then
      modify fun core => { core with deferredStart := some height }
      return false
    else
      startHeight C fuel height false
      return true

def resumeHeight : Host E A Unit := do
  let core ← get
  match core.deferredStart with
  | none => pure ()
  | some height =>
    modify fun core => { core with deferredStart := none }
    startHeight C fuel height false

inductive HostInput where
  | wire (msg : WireConsensusMsg)
  | propose (height : Nat) (round : Round) (block : Block)
  | syncValue (peer : Int) (block : Block) (cert : WireCommitCertificate)
  | resume
  | timeout (t : Timeout)

/-- A message at or past a paused host's pending height resumes it first. -/
def wake (fuel height : Nat) : Host E A Unit := do
  let core ← get
  match core.deferredStart with
  | some pending => when (pending ≤ height) (resumeHeight C fuel)
  | none => pure ()

def shellStep (fuel : Nat) : HostInput → Host E A Unit
  | .wire msg => do
      wake C fuel msg.height
      onWire C fuel msg
  | .propose height round block => propose C fuel height round block
  | .syncValue peer block cert => do
      wake C fuel block.data.height
      onSyncValue C fuel peer block cert
  | .resume => resumeHeight C fuel
  | .timeout t => onTimeout C fuel t

/-- The core a process builds at its start, over the database it finds. -/
def HostCore.new (store : Store A.State) (height : Nat) : HostCore E A :=
  let valset := A.validatorSet store.app height
  { state := E.new height valset (C.profile.thresholdsFor valset.count)
    lastValCount := valset.count
    store
    sent := []
    timers := []
    phase := .running
    walSeq := 0
    blocks := fun _ _ => none
    pendingInputs := []
    outputs := []
    lastDecided := none
    deferredStart := none
    stashed := []
    handed := []
    clashed := false }

/-- A node: its core, and whether its shell is alive. -/
structure Node (E : Engine) (A : Application) where
  core : HostCore E A
  running : Bool

/-- A restart finds any database: the process may have died within a step. -/
inductive NodeEvent (A : Application) where
  | input (i : HostInput)
  | restart (store : Store A.State) (height : Nat)

/-- The shell stops at the first error; only a restart follows. -/
inductive NodeStep : Node E A → NodeEvent A → Node E A → Prop where
  | input {core core' i fuel result} (ran : shellStep C fuel i core = some (result, core')) :
      NodeStep ⟨core, true⟩ (.input i) ⟨core', result.isOk⟩
  | restart {node store height fuel core' result}
      (ran : startOrDefer C fuel height (HostCore.new C store height) = some (result, core')) :
      NodeStep node (.restart store height) ⟨core', result.isOk⟩

namespace Node

/-- A node whose process has not started. -/
def cold (store : Store A.State) (height : Nat) : Node E A :=
  ⟨HostCore.new C store height, false⟩

/-- The step of an event; `none` when the shell is down or the fuel short. -/
def after (fuel : Nat) (node : Node E A) (event : NodeEvent A) : Option (Node E A) :=
  match event with
  | .input i =>
    if node.running then
      (shellStep C fuel i node.core).map fun out => ⟨out.2, out.1.isOk⟩
    else none
  | .restart store height =>
    (startOrDefer C fuel height (HostCore.new C store height)).map fun out =>
      ⟨out.2, out.1.isOk⟩

lemma step_of_after {fuel} (node : Node E A) (event : NodeEvent A) (node' : Node E A)
    (ran : node.after C fuel event = some node') : NodeStep C node event node' := by
  cases event with
  | restart store height =>
    simp only [after, Option.map_eq_some_iff] at ran
    obtain ⟨out, hst, rfl⟩ := ran
    exact .restart hst
  | input i =>
    obtain ⟨core, running⟩ := node
    cases running with
    | false => simp [after] at ran
    | true =>
      simp only [after, if_true, Option.map_eq_some_iff] at ran
      obtain ⟨out, hs, rfl⟩ := ran
      exact .input hs

end Node

end HopNet
