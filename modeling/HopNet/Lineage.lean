import HopNet.Codec
import HopNet.Handlers
import HopNet.Verify

namespace HopNet

open Fallible

/-- A seated validator as records carry it: the key's bytes, not yet a key. -/
structure Seat where
  nodeId : Int
  pubkey : FixedBytes 32
deriving DecidableEq

structure EpochGenesisRecord where
  formatVersion : Nat
  epoch : Nat
  requiredVersionCode : Nat
  prevChainId : Blake3Hash
  finalBlockHash : Blake3Hash
  sealHeight : Nat
  snapshotHash : Blake3Hash
  quorumProfile : String
  seated : List Seat
deriving DecidableEq

structure LineageRecord where
  record : EpochGenesisRecord
  finalBlock : Bytes
  finalCert : Bytes
deriving DecidableEq

inductive LineageError where
  | recordEncode
  | genesisBlock (e : BlockError)
  | finalBlockMalformed (e : BlockError)
  | finalBlockHash
  | finalBlockHeight (height sealHeight : Nat)
  | certificateUnbound
  | noCommit
  | manyCommits
  | commitPayload
  | snapshotHash
  | sealHeight (record committed : Nat)
  | requiredVersion (record committed : Nat)
  | certificateDecode (e : CodecError)
  | certificateInvalid (e : CertificateError)
  | seatedPubkey (nodeId : Int)
  /-- A failed assertion of the validator set. -/
  | seatedSet
  | emptyChain
  | gap (expected found : Nat)
  | linkage (epoch : Nat)
  | blockDecode (epoch : Nat) (e : CodecError)
  | certDecode (epoch : Nat) (e : CodecError)
  | unknownProfile (epoch : Nat)
  | hop (epoch : Nat) (e : LineageError)
  | unknownAnchorProfile (epoch : Nat)
  | overlap (epoch signers trusted bound : Nat)
  | fingerprint (epoch : Nat)
deriving DecidableEq

/-- The packages lineage verification calls besides the primitives. -/
structure LineageCodec where
  prims : Primitives
  canonicalBytes : EpochGenesisRecord → Except LineageError Bytes
  decodeBlock : Bytes → Except CodecError Block
  decodeCert : Bytes → Except CodecError WireCommitCertificate
  decodeCommit : Bytes → Option RegenesisCommit
  decodeKey : FixedBytes 32 → Option PubKey

variable (L : LineageCodec)

def epochGenesisFn : String := "epoch_genesis"

/-- The first 16 bytes of a hash, as a UUID. -/
def CustomUUID.ofHash (hash : Blake3Hash) : CustomUUID :=
  ⟨BitVec.ofNat 128 ((hash.bytes.take 16).foldl (fun n b => n * 256 + b.toNat) 0)⟩

variable (record : EpochGenesisRecord)

/-- The content of the genesis block: one unsigned transaction with the encoded record. -/
def genesisDataFor (payload : Bytes) : BlockData :=
  ⟨record.sealHeight, 0, some record.finalBlockHash,
    [{ rpc := ⟨epochGenesisFn, payload⟩
       submitter := ⟨-1, .replicate 64 0⟩
       user := none
       nonce := .ofHash (L.prims.blake3 payload) }]⟩

def genesisBlockFor : Except LineageError Block := do
  let payload ← L.canonicalBytes record
  (Block.new L.prims (genesisDataFor L record payload)).mapError .genesisBlock

variable (chainId : Blake3Hash) (cert : WireCommitCertificate)

def verifyWireCertificate
    (valset : HopNetValidatorSet) (profile : QuorumProfile) : Except LineageError Unit := do
  let decoded ← cert.toCertificate.mapError .certificateDecode
  (verifyCommitCertificate L.prims chainId decoded valset
    (profile.thresholdsFor valset.count)).mapError .certificateInvalid

/-- The loop of `count_trusted_signers`: a repeated, unknown or non-verifying signer is skipped. -/
def countSigners (P : Primitives) (chainId : Blake3Hash) (cert : CommitCertificate)
    (trusted : HopNetValidatorSet) : List CommitSignature → List Int → Nat → Nat
  | [], _, count => count
  | cs :: rest, seen, count =>
    if cs.address ∈ seen then countSigners P chainId cert trusted rest seen count
    else
      match trusted.getByAddress cs.address with
      | none => countSigners P chainId cert trusted rest (cs.address :: seen) count
      | some validator =>
        let vote := newVote .precommit cert.height cert.round (.val cert.valueId) cs.address
        let counted :=
          if verifyVote P chainId validator.publicKey vote cs.signature then count + 1 else count
        countSigners P chainId cert trusted rest (cs.address :: seen) counted

def countTrustedSigners
    (trusted : HopNetValidatorSet) : Nat :=
  match cert.toCertificate with
  | .error _ => 0
  | .ok decoded => countSigners L.prims chainId decoded trusted decoded.commitSignatures [] 0

def isCommitCall (tx : Transaction) : Bool := tx.rpc.function = "regenesis_commit"

def verifyCommitBindsRecord (finalBlock : Block) : Except LineageError Unit :=
  match finalBlock.data.transactions.filter isCommitCall with
  | [] => .error .noCommit
  | commit :: more => do
      require (more = []) .manyCommits
      match L.decodeCommit commit.rpc.payload with
      | none => throw .commitPayload
      | some payload =>
        require (payload.snapshotHash = record.snapshotHash) .snapshotHash
        require (payload.sealHeight = record.sealHeight)
          (.sealHeight record.sealHeight payload.sealHeight)
        require (payload.targetVersionCode = record.requiredVersionCode)
          (.requiredVersion record.requiredVersionCode payload.targetVersionCode)

def verifyLineage (finalBlock : Block) (cert : WireCommitCertificate)
    (valset : HopNetValidatorSet) (profile : QuorumProfile) : Except LineageError Unit := do
  (finalBlock.verify L.prims).mapError .finalBlockMalformed
  require (finalBlock.blockHash = record.finalBlockHash) .finalBlockHash
  require (finalBlock.data.height = record.sealHeight)
    (.finalBlockHeight finalBlock.data.height record.sealHeight)
  require (cert.valueId = finalBlock.blockHash ∧
    cert.height = finalBlock.data.height) .certificateUnbound
  verifyCommitBindsRecord L record finalBlock
  verifyWireCertificate L record.prevChainId cert valset profile

/-- The keys of a seated list, stopping at the first that is none. -/
def seatedValidators : List Seat → Except LineageError (List Validator)
  | [] => .ok []
  | seat :: rest =>
    match L.decodeKey seat.pubkey with
    | none => .error (.seatedPubkey seat.nodeId)
    | some key => do
        let others ← seatedValidators rest
        return .new seat.nodeId key :: others

def valsetOf (seated : List Seat) : Except LineageError HopNetValidatorSet := do
  let validators ← seatedValidators L seated
  match HopNetValidatorSet.new validators with
  | none => throw .seatedSet
  | some valset => return valset

inductive ChainTrust where
  | seated (trusted : List Seat)
  | fingerprint (chainId : Blake3Hash)
  | firstContact

structure ChainAnchor where
  epoch : Nat
  chainId : Blake3Hash
  trust : ChainTrust
  profile : String

/-- What the loop carries from hop to hop. -/
structure HopState where
  epoch : Nat
  chainId : Blake3Hash
  trusted : Option (List Seat)
  profile : String

variable (anchor : ChainAnchor)

def ChainAnchor.start : HopState where
  epoch := anchor.epoch
  chainId := anchor.chainId
  trusted := match anchor.trust with
    | .seated trusted => some trusted
    | .fingerprint _ | .firstContact => none
  profile := anchor.profile

variable (s : HopState)

/-- More of the trusted set have signed than its Byzantine bound. -/
def checkOverlap (record : EpochGenesisRecord) (cert : WireCommitCertificate) :
    Except LineageError Unit :=
  match s.trusted with
  | none => .ok ()
  | some trusted =>
    match QuorumProfile.parse s.profile with
    | none => .error (.unknownAnchorProfile record.epoch)
    | some profile => do
        let valset ← valsetOf L trusted
        let signers := countTrustedSigners L record.prevChainId cert valset
        require (profile.fEq trusted.length < signers)
          (.overlap record.epoch signers trusted.length (profile.fEq trusted.length))

/-- One round of the loop in `verify_lineage_chain`. -/
def verifyHop (lr : LineageRecord) : Except LineageError HopState := do
  let record := lr.record
  require (record.epoch = s.epoch + 1) (.gap (s.epoch + 1) record.epoch)
  require (record.prevChainId = s.chainId) (.linkage record.epoch)
  let finalBlock ← (L.decodeBlock lr.finalBlock).mapError (.blockDecode record.epoch)
  let cert ← (L.decodeCert lr.finalCert).mapError (.certDecode record.epoch)
  match QuorumProfile.parse record.quorumProfile with
  | none => throw (.unknownProfile record.epoch)
  | some profile =>
    let valset ← valsetOf L record.seated
    (verifyLineage L record finalBlock cert valset profile).mapError (.hop record.epoch)
    checkOverlap L s record cert
    let genesis ← genesisBlockFor L record
    return ⟨record.epoch, genesis.blockHash, some record.seated, record.quorumProfile⟩

/-- Re-trust by fingerprint is checked against where the chain arrives. -/
def checkFingerprint : Except LineageError Unit :=
  match anchor.trust with
  | .fingerprint expected => require (s.chainId = expected) (.fingerprint s.epoch)
  | .seated _ | .firstContact => .ok ()

def verifyLineageChain (records : List LineageRecord) (anchor : ChainAnchor) :
    Except LineageError LineageRecord :=
  match records.getLast? with
  | none => .error .emptyChain
  | some last => do
      let s ← records.foldlM (verifyHop L) anchor.start
      checkFingerprint anchor s
      return last

end HopNet
