import HopNet.Seams

/-!
The consensus host: it feeds inputs to the engine and routes every effect of the engine to the
application, the storage, the network and the clock. -/

namespace HopNet

open Prog

inductive Phase where
  | running
  | recovering
deriving DecidableEq

inductive HostOutput where
  | needValue (height : Nat) (round : Round)
  | roundStarted (height : Nat) (round : Round) (proposer : Int)
  | decided (height : Nat)
  | syncInvalid (peer : Int) (height : Nat)

inductive HostError (ε : Type) where
  | engine (e : ε)
  | storage (e : StorageError)
  | codec (e : CodecError)
  | missingBlock (height : Nat)
deriving DecidableEq

structure HostConfig where
  prims : Primitives
  chainId : Blake3Hash
  sign : Bytes → Signature
  myAddr : Int
  profile : QuorumProfile
  onDemand : Bool
  encodeBlock : Block → Except CodecError Bytes
  decodeBlock : Bytes → Except CodecError Block
  faults : Nat → Option StorageError

structure HostCore (E : Engine) (A : Application) where
  state : E.State
  lastValCount : Nat
  store : Store A.State
  sent : List WireConsensusMsg
  timers : List Timeout
  phase : Phase
  walSeq : Nat
  blocks : Nat → Blake3Hash → Option Block
  pendingInputs : List Input
  outputs : List HostOutput
  lastDecided : Option Nat
  deferredStart : Option Nat
  /-- Proposals for heights ahead, each under its height, in order of arrival. -/
  stashed : List WireProposedValue
  /-- What the decide transactions were given, for stating properties. -/
  handed : List (Block × WireCommitCertificate)
  /-- An append has met a row of its key, for stating properties. -/
  clashed : Bool

variable {E : Engine} {A : Application}

/-- A program of the host. -/
abbrev Host (E : Engine) (A : Application) (α : Type) : Type :=
  Prog (HostCore E A) (HostError E.Error) α

namespace HostCore

def height (core : HostCore E A) : Nat := E.height core.state

variable (core : HostCore E A)

/-- `blocks.insert`, replacing what was held under the same key. -/
def insertBlock (height : Nat) (block : Block) : HostCore E A :=
  { core with blocks := fun h id =>
      if h = height ∧ id = block.blockHash then some block else core.blocks h id }

/-- `blocks.retain`: forget what was held up to a decided height. -/
def forgetBlocks (decided : Nat) : HostCore E A :=
  { core with blocks := fun h id => if decided < h then core.blocks h id else none }

/-- An append at a height is about to be made. -/
def appending (height : Nat) : HostCore E A :=
  { core with clashed := core.clashed || core.store.hasWal height core.walSeq }

/-- The round this node still owes a proposal for. -/
def owedProposal (myAddr : Int) : Option Round :=
  let round := E.round core.state
  if round ≠ .nil ∧ E.getProposer core.state core.height round = myAddr
      ∧ E.stepIsPropose core.state = true
      ∧ E.hasFullProposal core.state core.height round myAddr = false
  then some round else none

end HostCore

def emit (output : HostOutput) : Host E A Unit :=
  modify fun core => { core with outputs := core.outputs ++ [output] }

def broadcast (msg : WireConsensusMsg) : Host E A Unit :=
  modify fun core => { core with sent := core.sent ++ [msg] }

def rememberBlock (height : Nat) (block : Block) : Host E A Unit :=
  modify fun core => core.insertBlock height block

def queueInput (input : Input) : Host E A Unit :=
  modify fun core => { core with pendingInputs := core.pendingInputs ++ [input] }

/-- An operation on the database, its error as it comes. -/
def onStore {α : Type} (op : Store A.State → Except StorageError α × Store A.State) :
    Host E A (Except StorageError α) := do
  let core ← get
  modify fun core => { core with store := (op core.store).2 }
  return (op core.store).1

variable (C : HostConfig)

/-- A durability operation under the retry budget. -/
def durable {α : Type} (op : Store A.State → Except StorageError (α × Store A.State)) :
    Host E A α := do
  let result ← onStore (retryTransient (Store.attempt C.faults op) storageTransientRetries)
  lift .storage result

/-- One dry run, rolled back; contention is no verdict. -/
def dryRunOnce (origin : ValidationOrigin) (height : Nat) (block : Block) :
    Host E A ValidationVerdict := do
  let result ← onStore (Store.attempt C.faults fun s =>
    .ok (A.validateBlock s.app s.ops height block origin, s))
  match result with
  | .ok verdict => return verdict
  | .error .transient => return .undetermined
  | .error .permanent => Prog.fail (.storage .permanent)

/-- The application's verdict, asked again on an immediate transaction when the first is
undetermined. -/
def validate (origin : ValidationOrigin) (height : Nat) (block : Block) :
    Host E A ValidationVerdict := do
  let verdict ← dryRunOnce C origin height block
  match verdict with
  | .undetermined => dryRunOnce C origin height block
  | verdict => return verdict

def ValidationVerdict.toValidity : ValidationVerdict → Validity
  | .valid => .valid
  | .invalid | .undetermined => .invalid

def thresholdsOf (valset : HopNetValidatorSet) : ThresholdParams :=
  C.profile.thresholdsFor valset.count

/-- `Effect::WalAppend`, suppressed while the log is replayed. -/
def appendWal (height : Nat) (entry : WalEntry) : Host E A Unit := do
  let core ← get
  when (core.phase = .running) do
    modify fun core => core.appending height
    durable C (Store.walAppend height core.walSeq entry.toWire)
    modify fun core => { core with walSeq := core.walSeq + 1 }

/-- After a decide: the epoch is over, or the next height is deferred or queued. -/
def advance (height : Nat) (block : Block) : Host E A Unit := do
  if A.sealedAfter height block then
    modify fun core => { core with deferredStart := none }
  else if C.onDemand then
    modify fun core => { core with deferredStart := some (height + 1) }
  else
    let core ← get
    queueInput (.startHeight (height + 1) (A.validatorSet core.store.app (height + 1)) false)

/-- `Effect::Decide`: the block is looked up by the certificate's value id. -/
def onDecide (cert : CommitCertificate) : Host E A Unit := do
  let core ← get
  match core.blocks cert.height cert.valueId with
  | none => Prog.fail (.missingBlock cert.height)
  | some block =>
    modify fun core => { core with handed := core.handed ++ [(block, cert.toWire)] }
    durable C (Store.decideAtomically C.faults A (fun b => (C.encodeBlock b).isOk) cert.height
      block cert.toWire)
    modify fun core => { core.forgetBlocks cert.height with lastDecided := some cert.height }
    emit (.decided cert.height)
    advance C cert.height block
    modify fun core => { core with walSeq := 0 }

/-- `Effect::ValidSyncValue`: decoded, checked against the certificate, validated and handed
back. -/
def validSyncValue (value : ValueResponse) (proposer : Int) : Host E A Unit := do
  let cert := value.certificate
  match C.decodeBlock value.valueBytes with
  | .error _ => emit (.syncInvalid value.peer cert.height)
  | .ok block =>
    if block.verify C.prims = .ok () ∧ block.blockHash = cert.valueId then
      let verdict ← validate C .sync cert.height block
      when (verdict ≠ .valid) (emit (.syncInvalid value.peer cert.height))
      rememberBlock cert.height block
      queueInput
        (.proposedValue ⟨cert.height, cert.round, .nil, proposer, block, verdict.toValidity⟩ .sync)
    else emit (.syncInvalid value.peer cert.height)

def handleEffect : Effect → Host E A Resume
  | .scheduleTimeout t => do
      modify fun core => { core with timers := core.timers ++ [t] }
      return .continue
  | .cancelTimeout t => do
      modify fun core => { core with timers := core.timers.filter (· ≠ t) }
      return .continue
  | .cancelAllTimeouts => do
      modify fun core => { core with timers := [] }
      return .continue
  | .startRound height round proposer => do
      emit (.roundStarted height round proposer)
      return .continue
  | .publishVote v => do
      broadcast (.vote v.toWire)
      return .continue
  | .publishProposal _ => return .continue
  | .publishLivenessMsg msg => do
      broadcast (match msg with
        | .vote v => .livenessVote v.toWire
        | .polkaCertificate cert => .livenessPolka cert.toWire
        | .skipRoundCertificate cert => .livenessSkipRound cert.toWire)
      return .continue
  | .republishVote v => do
      broadcast (.livenessVote v.toWire)
      return .continue
  | .republishRoundCertificate cert => do
      broadcast (.livenessSkipRound cert.toWire)
      return .continue
  | .restreamProposal height round validRound proposer valueId => do
      let core ← get
      match core.blocks height valueId with
      | none => return .continue
      | some block =>
        let pv : ProposedValue := ⟨height, round, validRound, proposer, block, .valid⟩
        broadcast (.proposedValue pv.toWire)
        return .continue
  | .getValue height round => do
      let core ← get
      when (core.phase = .running) (emit (.needValue height round))
      return .continue
  | .signVote v => return .signedVote ⟨v, C.sign (voteSignBytes C.chainId v)⟩
  | .signProposal p => return .signedProposal ⟨p, C.sign (proposalSignBytes C.chainId p)⟩
  | .verifySignature msg signature key =>
    return .signatureValidity (C.prims.verify key (msg.signBytes C.chainId) signature)
  -- Thresholds come from the effect's own set: a certificate is judged at its own height.
  | .verifyCommitCertificate cert valset =>
    return .certificateValidity
      (HopNet.verifyCommitCertificate C.prims C.chainId cert valset (thresholdsOf C valset))
  | .verifyPolkaCertificate cert valset =>
    return .certificateValidity
      (HopNet.verifyPolkaCertificate C.prims C.chainId cert valset (thresholdsOf C valset))
  | .verifyRoundCertificate cert valset =>
    return .certificateValidity
      (HopNet.verifyRoundCertificate C.prims C.chainId cert valset (thresholdsOf C valset))
  | .walAppend height entry => do
      appendWal C height entry
      return .continue
  | .decide cert => do
      onDecide C cert
      return .continue
  | .finalize _ => return .continue
  | .extendVote _ _ _ => return .voteExtension
  | .verifyVoteExtension _ _ _ => return .voteExtensionValid
  | .validSyncValue value proposer => do
      validSyncValue C value proposer
      return .continue
  | .invalidSyncValue peer height => do
      emit (.syncInvalid peer height)
      return .continue

end HopNet
