import HopNet.Codec
import HopNet.Lib.Prog
import HopNet.Validate
import HopNet.Verify

namespace HopNet

open List

inductive ValueOrigin where
  | consensus
  | sync

/-- A value and the certificate it was decided with, from a peer. -/
structure ValueResponse where
  peer : Int
  valueBytes : Bytes
  certificate : CommitCertificate

inductive Input where
  | startHeight (height : Nat) (valset : HopNetValidatorSet) (isRestart : Bool)
  | vote (v : SignedVote)
  | proposal (p : SignedProposal)
  | propose (height : Nat) (round : Round) (value : Block)
  | timeoutElapsed (t : Timeout)
  | proposedValue (pv : ProposedValue) (origin : ValueOrigin)
  | polkaCertificate (cert : PolkaCertificate)
  | roundCertificate (cert : RoundCertificate)
  | syncValueResponse (value : ValueResponse)

inductive ConsensusMsg where
  | vote (v : ConsensusVote)
  | proposal (p : ConsensusProposal)
deriving DecidableEq

def ConsensusMsg.signBytes (chainId : Blake3Hash) : ConsensusMsg → Bytes
  | .vote v => voteSignBytes chainId v
  | .proposal p => proposalSignBytes chainId p

inductive LivenessMsg where
  | vote (v : SignedVote)
  | polkaCertificate (cert : PolkaCertificate)
  | skipRoundCertificate (cert : RoundCertificate)

inductive Effect where
  | scheduleTimeout (t : Timeout)
  | cancelTimeout (t : Timeout)
  | cancelAllTimeouts
  | startRound (height : Nat) (round : Round) (proposer : Int)
  | publishVote (v : SignedVote)
  | publishProposal (p : SignedProposal)
  | publishLivenessMsg (msg : LivenessMsg)
  | republishVote (v : SignedVote)
  | republishRoundCertificate (cert : RoundCertificate)
  | restreamProposal (height : Nat) (round validRound : Round) (proposer : Int)
      (valueId : Blake3Hash)
  | getValue (height : Nat) (round : Round)
  | signVote (v : ConsensusVote)
  | signProposal (p : ConsensusProposal)
  | verifySignature (msg : ConsensusMsg) (signature : Signature) (key : PubKey)
  | verifyCommitCertificate (cert : CommitCertificate) (valset : HopNetValidatorSet)
  | verifyPolkaCertificate (cert : PolkaCertificate) (valset : HopNetValidatorSet)
  | verifyRoundCertificate (cert : RoundCertificate) (valset : HopNetValidatorSet)
  | walAppend (height : Nat) (entry : WalEntry)
  | decide (cert : CommitCertificate)
  | finalize (cert : CommitCertificate)
  | extendVote (height : Nat) (round : Round) (valueId : Blake3Hash)
  | verifyVoteExtension (height : Nat) (round : Round) (valueId : Blake3Hash)
  | validSyncValue (value : ValueResponse) (proposer : Int)
  | invalidSyncValue (peer : Int) (height : Nat)

/-- What the engine is resumed with; `continue` also after a failed effect. -/
inductive Resume where
  | continue
  | signedVote (v : SignedVote)
  | signedProposal (p : SignedProposal)
  | signatureValidity (valid : Bool)
  | certificateValidity (result : Except CertificateError Unit)
  | voteExtension
  | voteExtensionValid

/-- An engine, fixed only in what the host reads and calls. Processing an input ends. -/
structure Engine where
  State : Type
  Error : Type
  new : Nat → HopNetValidatorSet → ThresholdParams → State
  height : State → Nat
  round : State → Round
  getProposer : State → Nat → Round → Int
  stepIsPropose : State → Bool
  hasFullProposal : State → Nat → Round → Int → Bool
  /-- Replace the driver and the threshold parameters before a height starts. -/
  installThresholds : Nat → HopNetValidatorSet → ThresholdParams → State → State
  process : Input → State → Coroutine Effect Resume (State × Except Error Unit)

inductive ValidationVerdict where
  | valid
  | invalid
  | undetermined
deriving DecidableEq

/-- Storage errors, as the host tells them apart. -/
inductive StorageError where
  | transient
  | permanent
deriving DecidableEq

/-- The application over its committed tables. A verdict may change with the clock and with
contention. -/
structure Application where
  State : Type
  validateBlock : State → Nat → Nat → Block → ValidationOrigin → ValidationVerdict
  applyBlock : State → Nat → Nat → Block → Except StorageError State
  validatorSet : State → Nat → HopNetValidatorSet
  sealedAfter : Nat → Block → Bool

structure WalRow where
  height : Nat
  seq : Nat
  entry : WireWalEntry
  /-- The bytes of the row no longer decode to the entry that was appended. -/
  torn : Bool

/-- What is done to the log. -/
inductive WalEvent where
  | appended (height : Nat) (entry : WireWalEntry)
  | truncated (upTo : Nat)
  | reset
  | torn (height : Nat)

/-- The application's tables and the consensus tables. `ops` counts the operations begun. -/
structure Store (σ : Type) where
  app : σ
  wal : List WalRow
  decided : List (Block × WireCommitCertificate)
  lastDecided : Option Nat
  ops : Nat
  /-- What was done to the log, for stating properties. -/
  trail : List WalEvent

namespace Store

variable {σ α : Type} (faults : Nat → Option StorageError)

/-- `faults` says which operations of a node's life fail. -/
def begin (s : Store σ) : Except StorageError Unit × Store σ :=
  let s' := { s with ops := s.ops + 1 }
  match faults s.ops with
  | none => (.ok (), s')
  | some e => (.error e, s')

/-- One attempt; of what it wrote, a failure leaves only the count. -/
def attempt (op : Store σ → Except StorageError (α × Store σ))
    (s : Store σ) : Except StorageError α × Store σ :=
  match s.begin faults with
  | (.error e, s') => (.error e, s')
  | (.ok (), s') =>
    match op s' with
    | .error e => (.error e, { s' with ops := s'.ops + 1 })
    | .ok (a, s'') => (.ok a, s'')

variable (height : Nat)

/-- The log has a row of this key. -/
def hasWal (seq : Nat) (s : Store σ) : Bool :=
  s.wal.any fun row => row.height = height ∧ row.seq = seq

def walAppend (seq : Nat) (entry : WireWalEntry) (s : Store σ) :
    Except StorageError (Unit × Store σ) :=
  if s.hasWal height seq then .error .permanent
  else .ok ((), { s with
    wal := s.wal ++ [⟨height, seq, entry, false⟩]
    trail := s.trail ++ [.appended height entry] })

variable (s : Store σ)

/-- The rows of a height by sequence number. -/
def walRows (height : Nat) : List WalRow :=
  (s.wal.filter (·.height = height)).insertionSort fun a b => a.seq ≤ b.seq

/-- `DELETE FROM consensus_wal WHERE height = ? AND seq = ?`. -/
def deleteWal (seq : Nat) (s : Store σ) : Store σ :=
  { s with wal := s.wal.filter fun row => ¬ (row.height = height ∧ row.seq = seq) }

/-- A torn final row is dropped and deleted; an earlier one is corruption. -/
def walFetch : Except StorageError (List WireWalEntry × Store σ) :=
  let rows := s.walRows height
  if rows.dropLast.any (·.torn) then .error .permanent
  else
    match rows.getLast? with
    | some last =>
      if last.torn then .ok (rows.dropLast.map (·.entry), s.deleteWal height last.seq)
      else .ok (rows.map (·.entry), s)
    | none => .ok ([], s)

/-- What a fetch returns stands in the height's rows; the table only loses rows. -/
lemma walFetch_ok {height} {s s' : Store σ} {entries} (hf : walFetch height s = .ok (entries, s')) :
    (∃ wal, s' = { s with wal } ∧ ∀ row ∈ wal, row ∈ s.wal) ∧
      ∀ entry ∈ entries, ∃ row ∈ s.wal, row.height = height ∧ row.entry = entry := by
  have hh : ∀ row ∈ s.walRows height, row ∈ s.wal ∧ row.height = height := by
    intro row hr
    have hwa := mem_filter.1 ((mem_insertionSort _).1 hr)
    exact ⟨hwa.1, of_decide_eq_true hwa.2⟩
  have ht : ∀ rows : List WalRow, (∀ row ∈ rows, row ∈ s.walRows height) →
      ∀ entry ∈ rows.map (·.entry), ∃ row ∈ s.wal, row.height = height ∧ row.entry = entry := by
    intro rows hw entry he
    obtain ⟨row, hr, rfl⟩ := mem_map.1 he
    have at_ := hh row (hw row hr)
    exact ⟨row, at_.1, at_.2, rfl⟩
  unfold walFetch at hf
  dsimp only at hf
  split at hf
  · cases hf
  split at hf
  · split at hf
    · cases hf
      exact ⟨⟨_, rfl, fun row hk => (mem_filter.1 hk).1⟩, ht _ fun row hr => dropLast_subset _ hr⟩
    · cases hf
      exact ⟨⟨s.wal, rfl, fun _ hwa => hwa⟩, ht _ fun _ hr => hr⟩
  · cases hf
    exact ⟨⟨s.wal, rfl, fun _ hwa => hwa⟩, by simp⟩

def walReset : Except StorageError (Unit × Store σ) :=
  .ok ((), { s with wal := [], trail := s.trail ++ [.reset] })

/-- `store_decided_tx`, under the unique columns of its two tables. -/
def storeDecided (block : Block) (cert : WireCommitCertificate) (s : Store σ) :
    Except StorageError (Store σ) :=
  if s.decided.any fun row => row.1.data.height = block.data.height ∨
  row.1.blockHash = block.blockHash then .error .permanent
  else .ok { s with decided := s.decided ++ [(block, cert)] }

def truncateWal (upTo : Nat) (s : Store σ) : Store σ :=
  { s with
    wal := s.wal.filter fun row => upTo < row.height
    trail := s.trail ++ [.truncated upTo] }

def setLastDecided : Store σ :=
  { s with lastDecided := some height }

/-- The decide transaction, whose commit can fail too. -/
def decideAtomically (A : Application)
    (encodable : Block → Bool) (height : Nat) (block : Block) (cert : WireCommitCertificate)
    (s : Store A.State) : Except StorageError (Unit × Store A.State) := do
  let app ← A.applyBlock s.app s.ops height block
  if encodable block = false then throw .permanent
  let s ← storeDecided block cert { s with app }
  let s := setLastDecided height (truncateWal height s)
  match s.begin faults with
  | (.error e, _) => throw e
  | (.ok (), s) => return ((), s)

end Store

def storageTransientRetries : Nat := 6

/-- `retry_transient`: retried while attempts are left. -/
def retryTransient {σ α : Type} (op : Store σ → Except StorageError α × Store σ) :
    Nat → Store σ → Except StorageError α × Store σ
  | 0, s => op s
  | attempts + 1, s =>
    match op s with
    | (.error .transient, s') => retryTransient op attempts s'
    | out => out

variable {σ α : Type} {s : Store σ}

/-- So many more operations have begun. -/
def Store.counted (n : Nat) (s : Store σ) : Store σ := { s with ops := s.ops + n }

lemma Store.counted_keeps {P : Store σ → Prop} (hc : ∀ s, P s → P { s with ops := s.ops + 1 })
    (hs : P s) (n : Nat) : P (s.counted n) := by
  induction n with
  | zero => exact hs
  | succ n ih => exact hc _ ih

variable (faults : Nat → Option StorageError) (op : Store σ → Except StorageError (α × Store σ))

lemma Store.attempt_cases (s : Store σ) : ∃ n,
    (∃ e, s.attempt faults op = (.error e, s.counted n)) ∨
      ∃ a s', op (s.counted n) = .ok (a, s') ∧ s.attempt faults op = (.ok a, s') := by
  unfold attempt begin
  cases faults s.ops with
  | some e => exact ⟨1, .inl ⟨e, rfl⟩⟩
  | none =>
    dsimp only
    cases ran : op { s with ops := s.ops + 1 } with
    | error e => exact ⟨2, .inl ⟨e, rfl⟩⟩
    | ok out => exact ⟨1, .inr ⟨out.1, out.2, ran, rfl⟩⟩

lemma retryTransient_cases (attempts : Nat) : ∀ s : Store σ, ∃ n,
    (∃ e, retryTransient (Store.attempt faults op) attempts s = (.error e, s.counted n)) ∨
      ∃ a s', op (s.counted n) = .ok (a, s') ∧
        retryTransient (Store.attempt faults op) attempts s = (.ok a, s') := by
  induction attempts with
  | zero => exact Store.attempt_cases faults op
  | succ attempts ih =>
    intro s
    obtain ⟨n, ⟨e, he⟩ | ⟨a, s', ho, ha⟩⟩ := Store.attempt_cases faults op s
    · rw [retryTransient, he]
      cases e with
      | transient =>
        obtain ⟨m, later⟩ := ih (s.counted n)
        refine ⟨n + m, ?_⟩
        rwa [show (s.counted n).counted m = s.counted
          (n + m) by simp [Store.counted, Nat.add_assoc]] at later
      | permanent => exact ⟨n, .inl ⟨_, rfl⟩⟩
    · rw [retryTransient, ha]
      exact ⟨n, .inr ⟨a, s', ho, rfl⟩⟩

end HopNet
