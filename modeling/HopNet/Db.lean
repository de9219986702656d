import HopNet.Lib.Fallible
import HopNet.Types

namespace HopNet

inductive DatabaseError where
  | insertError
  | recallError
  | processingError
  | invalidPayload
  | notFound
  | conflictError
  | notEmpty
  | authorizationError
  | validationError
deriving DecidableEq

abbrev DbResult := Except DatabaseError

inductive DepartureKind where
  | voluntary
  | votedOut
deriving DecidableEq

/-- A row of `validators`, keyed by `(effective_height, node_id)`. -/
structure ValidatorRow where
  effectiveHeight : Nat
  nodeId : Int
  isActive : Bool
  departureKind : Option DepartureKind

/-- A row of `nodes`, keyed by `node_id`; `pubkey` is unique. -/
structure NodeRow where
  nodeId : Int
  name : String
  owner : Int
  pubkey : PubKey
  runningVersionCode : Option Nat
  stagedVersionCode : Option Nat
  versionAttestedHeight : Option Nat

inductive RegenesisPhase where
  | normal
  | moratorium
  | sealed
deriving DecidableEq

/-- The `regenesis_state` singleton; normal is the absence of the row. -/
structure RegenesisRow where
  sealed : Bool
  targetVersionCode : Nat
  snapshotHash : Option Blake3Hash
  sealHeight : Option Nat

/-- The replicated database. `rest` is every table that only pass-independent handlers touch: users,
metrics, the projections. -/
structure Db (R : Type) where
  validators : List ValidatorRow
  nodes : List NodeRow
  /-- The `nodes` row of `sequences`; `none` before the genesis transaction. -/
  nodeSeq : Option Nat
  lastDecided : Option Nat
  /-- `block_hash` of the highest row of `decided_blocks`. -/
  decidedTip : Option Blake3Hash
  nonces : List CustomUUID
  regenesis : Option RegenesisRow
  sealedAt : Option Nat
  dissentAt : Option Nat
  rest : R

variable {R : Type}

namespace Db

variable (db : Db R)

def currentHeight : Nat := db.lastDecided.getD 0

def phase : RegenesisPhase :=
  match db.regenesis with
  | none => .normal
  | some row => if row.sealed then .sealed else .moratorium

def setMoratorium (target : Nat) : DbResult (Db R) :=
  match db.regenesis with
  | none => .ok { db with regenesis := some ⟨false, target, none, none⟩ }
  | some _ => .error .processingError

def setSealed (snapshotHash : Blake3Hash) (sealHeight : Nat) : DbResult (Db R) :=
  match db.regenesis with
  | some row =>
    if row.sealed then .error .processingError
    else .ok { db with regenesis := some ⟨true, row.targetVersionCode, some snapshotHash,
      some sealHeight⟩ }
  | none => .error .processingError

def clearToNormal : DbResult (Db R) :=
  match db.regenesis with
  | some _ => .ok { db with regenesis := none }
  | none => .error .processingError

/-- `INSERT … ON CONFLICT DO NOTHING` with a SQL variable per nonce, refused when the build allows
fewer. -/
def insertTxNonces (maxVariables : Nat) (db : Db R) (nonces : List CustomUUID) : DbResult (Db R) :=
  if nonces = [] then .ok db
  else if maxVariables < nonces.length then .error .insertError
  else .ok { db with nonces := db.nonces ++ nonces.filter (· ∉ db.nonces) }

def cleanupOldNonces (cutoff : CustomUUID) : Db R :=
  { db with nonces := db.nonces.filter fun n => ¬ n.value.toNat < cutoff.value.toNat }

end Db

end HopNet
