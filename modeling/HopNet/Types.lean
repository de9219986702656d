import Mathlib.Algebra.Order.Ring.Nat
import Mathlib.Data.List.Basic

namespace HopNet

abbrev Bytes := List UInt8

/-- A byte string of a known length: hashes, keys and signatures. -/
structure FixedBytes (n : Nat) where
  bytes : Bytes
  size : bytes.length = n
deriving DecidableEq

namespace FixedBytes

def replicate (n : Nat) (b : UInt8) : FixedBytes n :=
  ⟨List.replicate n b, List.length_replicate⟩

end FixedBytes

abbrev Blake3Hash := FixedBytes 32
abbrev PubKey := FixedBytes 32
abbrev Signature := FixedBytes 64

/-- A 128-bit UUID. The database stores its hyphenated text, whose order is the number's. -/
structure CustomUUID where
  value : BitVec 128
deriving DecidableEq

namespace CustomUUID

def versionNum (u : CustomUUID) : Nat := u.value.toNat / 2 ^ 76 % 16

/-- Creation time in nanoseconds; only a version 7 UUID carries one. -/
def extractTimestamp (u : CustomUUID) : Option Int :=
  if u.versionNum = 7 then some ((u.value.toNat / 2 ^ 80 : Nat) * 1000000) else none

end CustomUUID

structure RpcCall where
  function : String
  payload : Bytes
deriving DecidableEq

structure SignedIdentity where
  id : Int
  signature : Signature
deriving DecidableEq

structure Transaction where
  rpc : RpcCall
  submitter : SignedIdentity
  user : Option SignedIdentity
  nonce : CustomUUID
deriving DecidableEq

structure BlockData where
  height : Nat
  round : Nat
  parentHash : Option Blake3Hash
  transactions : List Transaction
deriving DecidableEq

structure Block where
  blockHash : Blake3Hash
  data : BlockData
deriving DecidableEq

inductive BlockError where
  | encodingError
  | hashMismatch
deriving DecidableEq

inductive TransactionError where
  | signingError
  | encodingError
  | invalidSignature
deriving DecidableEq

/-- The hash, the signature scheme and the serializer, with nothing assumed. -/
structure Primitives where
  blake3 : Bytes → Blake3Hash
  encodeBlockData : BlockData → Except BlockError Bytes
  encodeRpcCall : RpcCall → Except TransactionError Bytes
  verify : PubKey → Bytes → Signature → Bool
  verifyStrict : PubKey → Bytes → Signature → Bool

/-- Stand-ins that compute: the hash keeps 32 bytes and a signature repeats its key. -/
def Primitives.sample : Primitives where
  blake3 bytes := ⟨(bytes ++ List.replicate 32 0).take 32, by simp⟩
  encodeBlockData d := .ok (UInt8.ofNat d.height :: UInt8.ofNat d.round
    :: UInt8.ofNat d.transactions.length :: d.transactions.flatMap (·.rpc.payload))
  encodeRpcCall rpc := .ok rpc.payload
  verify key _ sig := decide (sig.bytes = key.bytes ++ key.bytes)
  verifyStrict key _ sig := decide (sig.bytes = key.bytes ++ key.bytes)

/-- The signature `Primitives.sample` accepts for `key`. -/
def Primitives.sampleSign (key : PubKey) : Signature :=
  ⟨key.bytes ++ key.bytes, by simp [key.size]⟩

variable (P : Primitives)

namespace BlockData

def computeHash (d : BlockData) : Except BlockError Blake3Hash := do
  let bytes ← P.encodeBlockData d
  return P.blake3 bytes

end BlockData

namespace Block

def new (d : BlockData) : Except BlockError Block := do
  let blockHash ← d.computeHash P
  return { blockHash, data := d }

def verify (b : Block) : Except BlockError Unit := do
  let hash ← b.data.computeHash P
  if hash ≠ b.blockHash then throw .hashMismatch
  return ()

/-- The name a block carries is the hash of its content. -/
def Named (b : Block) : Prop := b.data.computeHash P = .ok b.blockHash

lemma verify_ok_iff (b : Block) : b.verify P = .ok () ↔ b.Named P := by
  unfold verify Named
  cases hh : b.data.computeHash P with
  | error e => simp [bind, Except.bind]
  | ok hash =>
    by_cases hs : hash = b.blockHash
    · simp [bind, Except.bind, hs, pure, Except.pure]
    · simp [bind, Except.bind, hs, throw, throwThe, MonadExceptOf.throw]

instance (b : Block) : Decidable (b.Named P) :=
  match hashed : b.data.computeHash P with
  | .ok hash =>
    if same : hash = b.blockHash then isTrue (by rw [Named, hashed, same])
    else isFalse (by rw [Named, hashed]; simpa using same)
  | .error _ => isFalse (by rw [Named, hashed]; simp)

end Block

namespace Transaction

def verifySignature (tx : Transaction) (key : PubKey) : Except TransactionError Unit := do
  let message ← P.encodeRpcCall tx.rpc
  if P.verifyStrict key message tx.submitter.signature then return () else throw .invalidSignature

def verifyUserSignature (tx : Transaction) (key : PubKey) : Except TransactionError Unit := do
  match tx.user with
  | some user =>
    let message ← P.encodeRpcCall tx.rpc
    if P.verifyStrict key message user.signature then return () else throw .invalidSignature
  | none => throw .invalidSignature

end Transaction

end HopNet
