import HopNet.Validators

/-!
The transaction handlers of the consensus layer. A handler runs twice on a block: once while the
block is validated (`execute = false`) and once when it is applied (`execute = true`). -/

namespace HopNet

open Fallible

variable {R : Type}

/-- The registered function names whose handlers are modelled one by one. -/
inductive TxFunction where
  | insertGenesis
  | insertNode
  | nodeStagedVersion
  | validatorActivation
  | validatorLeave
  | validatorVoteOut
  | regenesisStart
  | regenesisAbort
  | regenesisCommit
  | cleanupNonces
  | other (name : String)
deriving DecidableEq

def TxFunction.ofName (name : String) : TxFunction :=
  if name = "insert_genesis" then .insertGenesis
  else if name = "insert_node" then .insertNode
  else if name = "node_staged_version" then .nodeStagedVersion
  else if name = "validator_activation" then .validatorActivation
  else if name = "validator_leave" then .validatorLeave
  else if name = "validator_vote_out" then .validatorVoteOut
  else if name = "regenesis_start" then .regenesisStart
  else if name = "regenesis_abort" then .regenesisAbort
  else if name = "regenesis_commit" then .regenesisCommit
  else if name = "system.cleanup_nonces" then .cleanupNonces
  else .other name

def TxFunction.isMembershipTx : TxFunction → Bool
  | .validatorActivation | .validatorLeave | .validatorVoteOut => true
  | _ => false

def TxFunction.requiresSoloBlock (f : TxFunction) : Bool :=
  f.isMembershipTx || decide (f = .regenesisCommit)

def Transaction.function (tx : Transaction) : TxFunction := .ofName tx.rpc.function

structure TxMeta where
  function : String
  payload : Bytes
  submitterNode : Int
  userId : Option Int

structure NewNode where
  name : String
  owner : Int
  pubkey : PubKey

structure NodeStagedVersion where
  nodeId : Int
  runningCode : Nat
  stagedCode : Option Nat
  attestedHeight : Nat

structure RegenesisCommit where
  snapshotHash : Blake3Hash
  sealHeight : Nat
  targetVersionCode : Nat

/-- What a handler outside this file may read of the modelled tables. -/
structure View where
  validators : List ValidatorRow
  nodes : List NodeRow
  lastDecided : Option Nat

/-- The packages, the payload decoders and the projections' handlers, none of which looks at
`execute`. Some of these read the wall clock, each time they run. -/
structure App (R : Type) where
  prims : Primitives
  decodeActivation : Bytes → Option (List Int)
  decodeLeave : Bytes → Option Int
  decodeVoteOut : Bytes → Option Int
  decodeNode : Bytes → Option NewNode
  decodeStagedVersion : Bytes → Option NodeStagedVersion
  decodeCutoff : Bytes → Option CustomUUID
  decodeStart : Bytes → Option Nat
  decodeAbort : Bytes → Option Unit
  decodeCommit : Bytes → Option RegenesisCommit
  decodeGenesis : Bytes → Option NewNode
  /-- The user row of a genesis payload. -/
  installUser : Bytes → R → DbResult R
  /-- The mesh key, grant and policy rows of a genesis payload. -/
  installMesh : Bytes → R → DbResult R
  userKey : R → Int → Option PubKey
  others : String → Option ((Nat → Int) → TxMeta → Nat → View → R → DbResult R)
  /-- The readings, one after the other, that the handler of a transaction gets. -/
  clock : Transaction → Nat → Int
  recordViewTransition : Nat → List NodeRow → R → DbResult R
  artifactHash : Db R → Blake3Hash
  /-- `SQLITE_MAX_VARIABLE_NUMBER`. -/
  maxVariables : Nat

/-- The same code at another time. -/
def App.clocked (A : App R) (clock : Transaction → Nat → Int) : App R := { A with clock }

/-- `Err(InvalidPayload)` when the payload does not decode. -/
def orInvalid {α : Type} : Option α → DbResult α
  | some a => .ok a
  | none => .error .invalidPayload

@[simp] lemma orInvalid_eq_ok {α : Type} {o} {a : α} : orInvalid o = .ok a ↔ o = some a := by
  cases o <;> simp [orInvalid]

def bMax : Nat := 5

def codeIsValid (code : Nat) : Prop :=
  (2000 ≤ code / 10000 ∧ code / 10000 ≤ 9999) ∧ 1 ≤ code / 100 % 100 ∧ code / 100 % 100 ≤ 12
deriving Decidable

/-- An application that computes: one byte per field, ids as they are, a cutoff above
its time stamp, and user 0 under the key `9…9`. -/
def App.sampleWith (others : String → Option ((Nat → Int) → TxMeta → Nat → View → R → DbResult R)) :
    App R where
  prims := .sample
  decodeActivation payload := some (payload.map fun b => (b.toNat : Int))
  decodeLeave payload := payload.head?.map fun b => (b.toNat : Int)
  decodeVoteOut payload := payload.head?.map fun b => (b.toNat : Int)
  decodeNode payload := payload.head?.map fun b => ⟨"node", 0, .replicate 32 b⟩
  decodeStagedVersion payload := payload.head?.map fun b => ⟨b.toNat, 20260801, none, 0⟩
  decodeCutoff payload := payload.head?.map fun b => ⟨BitVec.ofNat 128 (b.toNat <<< 76)⟩
  decodeStart payload := payload.head?.map fun b => 20260800 + b.toNat
  decodeAbort _ := some ()
  decodeCommit payload := payload.head?.map fun b => ⟨.replicate 32 0, b.toNat, 20260801⟩
  decodeGenesis payload := payload.head?.map fun b => ⟨"node", 0, .replicate 32 b⟩
  installUser _ rest := .ok rest
  installMesh _ rest := .ok rest
  userKey _ id := if id = 0 then some (.replicate 32 9) else none
  others
  clock _ _ := 0
  recordViewTransition _ _ rest := .ok rest
  artifactHash _ := .replicate 32 0
  maxVariables := 32766

def App.sample : App Unit :=
  .sampleWith fun name => if name = "submit_metrics" then some fun _ _ _ _ rest => .ok rest
    else none

variable (A : App R) (tx : TxMeta) (execute : Bool) (db : Db R)

def validatorActivation : DbResult (Db R) := do
  let members ← orInvalid (A.decodeActivation tx.payload)
  require (members ≠ [] ∧ members.length ≤ bMax ∧ members.IsChain (· < ·)) .invalidPayload
  let committedHeight := db.currentHeight
  if execute then
    members.foldlM (fun db m => activateValidator db m committedHeight) db
  else
    require (isNodeActive db tx.submitterNode committedHeight) .authorizationError
    members.forM fun m => do
      require (∃ n ∈ db.nodes, n.nodeId = m) .processingError
      require (¬ isNodeActive db m committedHeight) .processingError
    return db

def validatorLeave : DbResult (Db R) := do
  let nodeId ← orInvalid (A.decodeLeave tx.payload)
  require (nodeId = tx.submitterNode) .authorizationError
  let committedHeight := db.currentHeight
  if execute then
    deactivateValidator db nodeId committedHeight .voluntary
  else
    require (isNodeActive db nodeId committedHeight) .processingError
    require (2 ≤ countActiveValidators db committedHeight) .processingError
    return db

def validatorVoteOut : DbResult (Db R) := do
  let nodeId ← orInvalid (A.decodeVoteOut tx.payload)
  require (nodeId ≠ tx.submitterNode) .authorizationError
  let committedHeight := db.currentHeight
  if execute then
    deactivateValidator db nodeId committedHeight .votedOut
  else
    require (isNodeActive db nodeId committedHeight) .processingError
    require (isNodeActive db tx.submitterNode committedHeight) .authorizationError
    return db

/-- The submitter is an active validator. -/
abbrev Seated : Prop := isNodeActive db tx.submitterNode db.currentHeight = true

def requireSeated (submitterNode : Int) : DbResult Unit :=
  require (isNodeActive db submitterNode db.currentHeight) .authorizationError

/-- The running and staged codes a node attested. -/
def versionCodes (nodeId : Int) : Option Nat × Option Nat :=
  match db.nodes.find? fun n => n.nodeId = nodeId with
  | some n => (n.runningVersionCode, n.stagedVersionCode)
  | none => (none, none)

/-- Running the target counts as having staged it. -/
def Staged (nodeId : Int) (target : Nat) : Prop :=
  (versionCodes db nodeId).1 = some target ∨ (versionCodes db nodeId).2 = some target
deriving Decidable

def regenesisStart : DbResult (Db R) := do
  let target ← orInvalid (A.decodeStart tx.payload)
  requireSeated db tx.submitterNode
  require (codeIsValid target) .invalidPayload
  require (db.phase = .normal) .processingError
  require (∀ v ∈ getValidators db db.currentHeight, Staged db v.nodeId target) .processingError
  if execute then db.setMoratorium target else return db

def regenesisAbort : DbResult (Db R) := do
  let _ ← orInvalid (A.decodeAbort tx.payload)
  requireSeated db tx.submitterNode
  require (db.phase = .moratorium) .processingError
  if execute then db.clearToNormal else return db

def regenesisCommit : DbResult (Db R) := do
  let req ← orInvalid (A.decodeCommit tx.payload)
  requireSeated db tx.submitterNode
  require (db.phase = .moratorium) .processingError
  if execute then
    let db ← db.setSealed req.snapshotHash req.sealHeight
    let db := { db with sealedAt := some req.sealHeight }
    -- A replica that was outvoted marks itself for a rebuild; the commit applies all the same.
    if A.artifactHash db ≠ req.snapshotHash then
      return { db with dissentAt := some req.sealHeight }
    else return db
  else return db

def cleanupNonces : DbResult (Db R) := do
  let cutoff ← orInvalid (A.decodeCutoff tx.payload)
  if execute then return db.cleanupOldNonces cutoff else return db

/-- The next id of the sequence, under the unique columns and the foreign key. -/
def insertNodeTx (node : NewNode) (db : Db R) : DbResult (Int × Db R) :=
  match db.nodeSeq with
  | none => .error .recallError
  | some nextId => do
      require ((∀ n ∈ db.nodes, n.nodeId ≠ nextId ∧ n.pubkey ≠ node.pubkey) ∧
        (A.userKey db.rest node.owner).isSome) .insertError
      return (nextId, { db with
        nodes := db.nodes ++ [⟨nextId, node.name, node.owner, node.pubkey, none, none, none⟩]
        nodeSeq := some (nextId + 1) })

def insertNode : DbResult (Db R) := do
  let node ← orInvalid (A.decodeNode tx.payload)
  require (tx.userId = some node.owner) .authorizationError
  require (∀ n ∈ db.nodes, n.pubkey ≠ node.pubkey) .processingError
  let (_, db) ← insertNodeTx A node db
  return db

def nodeStagedVersion : DbResult (Db R) := do
  let report ← orInvalid (A.decodeStagedVersion tx.payload)
  require (report.nodeId = tx.submitterNode) .authorizationError
  require (codeIsValid report.runningCode) .invalidPayload
  require (∀ staged ∈ report.stagedCode, codeIsValid staged ∧
    staged ≠ report.runningCode) .invalidPayload
  require ((db.nodes.filter (·.nodeId = report.nodeId)).length = 1) .processingError
  return { db with nodes := db.nodes.map fun n =>
    if n.nodeId = report.nodeId then
      { n with
        runningVersionCode := some report.runningCode
        stagedVersionCode := report.stagedCode
        versionAttestedHeight := some report.attestedHeight }
    else n }

def insertGenesis : DbResult (Db R) := do
  let node ← orInvalid (A.decodeGenesis tx.payload)
  require (db.nodeSeq = none) .processingError
  let db := { db with nodeSeq := some 0 }
  let rest ← A.installUser tx.payload db.rest
  let (nodeId, db) ← insertNodeTx A node { db with rest }
  let db ← activateValidator db nodeId 0
  let rest ← A.installMesh tx.payload db.rest
  return { db with rest }

def Db.view : View := ⟨db.validators, db.nodes, db.lastDecided⟩

def otherHandler (readings : Nat → Int) (height : Nat) (db : Db R) : DbResult (Db R) :=
  match A.others tx.function with
  | none => .error .invalidPayload
  | some handler => do
      let rest ← handler readings tx height db.view db.rest
      return { db with rest }

def Transaction.txMeta (tx : Transaction) : TxMeta :=
  ⟨tx.rpc.function, tx.rpc.payload, tx.submitter.id, tx.user.map (·.id)⟩

/-- The dispatch table. -/
def processTransaction (tx : Transaction) (execute : Bool) (height : Nat) (db : Db R) :
    DbResult (Db R) :=
  match tx.function with
  | .insertGenesis => insertGenesis A tx.txMeta db
  | .insertNode => insertNode A tx.txMeta db
  | .nodeStagedVersion => nodeStagedVersion A tx.txMeta db
  | .validatorActivation => validatorActivation A tx.txMeta execute db
  | .validatorLeave => validatorLeave A tx.txMeta execute db
  | .validatorVoteOut => validatorVoteOut A tx.txMeta execute db
  | .regenesisStart => regenesisStart A tx.txMeta execute db
  | .regenesisAbort => regenesisAbort A tx.txMeta execute db
  | .regenesisCommit => regenesisCommit A tx.txMeta execute db
  | .cleanupNonces => cleanupNonces A tx.txMeta execute db
  | .other _ => otherHandler A tx.txMeta (A.clock tx) height db

end HopNet
