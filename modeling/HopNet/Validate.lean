import HopNet.Dispatch

namespace HopNet

open Fallible List

variable {R : Type} {txs : List Transaction}

inductive ValidationOrigin where
  | live
  | sync
deriving DecidableEq

inductive RejectReason where
  | blockHash (e : BlockError)
  | heightMismatch (block consensus : Nat)
  | soloMany
  | soloNotAlone
  | epochSealed
  | undecodableCommit
  | commitSealHeight (commit block : Nat)
  | commitTarget (commit : Nat) (committed : Option Nat)
  | poolNotDrained (staged inflight : Nat)
  | artifactPending
  | artifactMismatch (own proposed : Blake3Hash)
  | parentHash
  | unknownSubmitter (node : Int)
  | badNodeSignature (node : Int)
  | unknownUser (user : Int)
  | badUserSignature (user : Int)
  | staleTransaction (function : String)
  | committedNonce
  | membershipGuard (function : String) (reason : String)
  | handlerValidation (function : String) (e : DatabaseError)
  | viewTransition (e : DatabaseError)
deriving DecidableEq

/-- A verdict on the block, or a node-local condition that is no verdict. -/
inductive ValidateFailure where
  | transient (reason : RejectReason)
  | semantic (reason : RejectReason)
deriving DecidableEq

/-- What the check reads besides the database: the origin, the clock (its own reading and those of
the handlers), the pool, the seal artifact at this tip, and its evidence about membership. -/
structure ValidationEnv (R : Type) where
  origin : ValidationOrigin
  now : Int
  readings : Transaction → Nat → Int
  stagedLen : Nat
  inflightLen : Nat
  artifactAtTip : Option Blake3Hash
  membershipCheck : Db R → Transaction → Except String Unit

/-- 50 minutes, in nanoseconds. -/
def maxTransactionAge : Int := 50 * 60 * 1000000000

def checkSoloMembership (txs : List Transaction) : Except ValidateFailure Unit := do
  let n := (txs.filter (·.function.requiresSoloBlock)).length
  require (¬ 1 < n) (.semantic .soloMany)
  require (¬ (n = 1 ∧ 1 < txs.length)) (.semantic .soloNotAlone)

variable (A : App R) (env : ValidationEnv R)

def checkCommit (blockHeight : Nat) (db : Db R) (tx : Transaction) : Except ValidateFailure Unit :=
  if tx.function ≠ .regenesisCommit then .ok ()
  else
    match A.decodeCommit tx.rpc.payload with
    | none => .error (.semantic .undecodableCommit)
    | some commit => do
        require (commit.sealHeight = blockHeight)
          (.semantic (.commitSealHeight commit.sealHeight blockHeight))
        let committed := db.regenesis.map (·.targetVersionCode)
        require (committed = some commit.targetVersionCode)
          (.semantic (.commitTarget commit.targetVersionCode committed))
        if env.origin = .live then
          require (env.stagedLen = 0 ∧ env.inflightLen = 0)
            (.semantic (.poolNotDrained env.stagedLen env.inflightLen))
          match env.artifactAtTip with
          | none => throw (.transient .artifactPending)
          | some own =>
            require (own = commit.snapshotHash)
              (.semantic (.artifactMismatch own commit.snapshotHash))
        else return ()

variable (db : Db R)

def nodeKey (node : Int) : Option PubKey :=
  (db.nodes.find? (·.nodeId = node)).map (·.pubkey)

/-- Both signatures are over the encoded call alone. -/
def checkSignatures (tx : Transaction) : Except ValidateFailure Unit := do
  match nodeKey db tx.submitter.id with
  | none => throw (.semantic (.unknownSubmitter tx.submitter.id))
  | some key =>
    require (tx.verifySignature A.prims key = .ok ())
      (.semantic (.badNodeSignature tx.submitter.id))
  match tx.user with
  | none => return ()
  | some user =>
    match A.userKey db.rest user.id with
    | none => throw (.semantic (.unknownUser user.id))
    | some key =>
      require (tx.verifyUserSignature A.prims key = .ok ()) (.semantic (.badUserSignature user.id))

/-- The nonce is too old to be proposed at `now`. -/
def CustomUUID.Stale (now : Int) (nonce : CustomUUID) : Prop :=
  ∃ created ∈ nonce.extractTimestamp, maxTransactionAge < now - created

instance (now : Int) (nonce : CustomUUID) : Decidable (nonce.Stale now) :=
  match stamp : nonce.extractTimestamp with
  | none => isFalse (by simp [CustomUUID.Stale, stamp])
  | some created =>
    if old : maxTransactionAge < now - created then isTrue ⟨created, stamp, old⟩
    else isFalse (by simpa [CustomUUID.Stale, stamp] using old)

def checkNonce (now : Int) (db : Db R) (tx : Transaction) : Except ValidateFailure Unit := do
  require (¬ tx.nonce.Stale now) (.semantic (.staleTransaction tx.rpc.function))
  require (tx.nonce ∉ db.nonces) (.semantic .committedNonce)

def checkMembershipGuard (tx : Transaction) : Except ValidateFailure Unit :=
  if tx.function.isMembershipTx then
    (env.membershipCheck db tx).mapError fun reason =>
      .semantic (.membershipGuard tx.rpc.function reason)
  else .ok ()

def checkLive (txs : List Transaction) (db : Db R) : Except ValidateFailure Unit := do
  if env.origin = .live then
    txs.forM (checkNonce env.now db)
    txs.forM (checkMembershipGuard env db)
  else return ()

def dryRun (height : Nat) (txs : List Transaction) (db : Db R) : Except ValidateFailure (Db R) :=
  txs.foldlM (fun db tx => (processTransaction A tx false height db).mapError fun e =>
    .semantic (.handlerValidation tx.rpc.function e)) db

def validateInner (height : Nat) (block : Block) (db : Db R) : Except ValidateFailure Unit := do
  let txs := block.data.transactions
  (block.verify A.prims).mapError fun e => .semantic (.blockHash e)
  require (block.data.height = height) (.semantic (.heightMismatch block.data.height height))
  checkSoloMembership txs
  require (db.phase ≠ .sealed) (.semantic .epochSealed)
  txs.forM (checkCommit A env block.data.height db)
  require (block.data.parentHash = db.decidedTip) (.semantic .parentHash)
  txs.forM (checkSignatures A db)
  checkLive env txs db
  let dry ← dryRun (A.clocked env.readings) height txs db
  let _ ← (A.recordViewTransition height dry.nodes dry.rest).mapError fun e =>
    .transient (.viewTransition e)
  return ()

/-- The solo rule: no function that rides alone, or a single transaction. -/
def SoloShape (txs : List Transaction) : Prop :=
  (∀ tx ∈ txs, tx.function.requiresSoloBlock = false) ∨ ∃ tx, txs = [tx]

lemma checkSoloMembership_ok : checkSoloMembership txs = .ok () ↔ SoloShape txs := by
  unfold checkSoloMembership
  simp only [bind_eq_ok, require_eq_ok, exists_const]
  constructor
  · intro hp
    by_cases any : ∃ tx ∈ txs, tx.function.requiresSoloBlock = true
    · right
      obtain ⟨tx, hm, solo⟩ := any
      have hc : 0 < (txs.filter (·.function.requiresSoloBlock)).length :=
        length_pos_of_mem (mem_filter.2 ⟨hm, solo⟩)
      have hs : txs.length = 1 := by
        have hpo := length_pos_of_mem hm
        omega
      exact length_eq_one_iff.1 hs
    · left
      intro tx hm
      by_contra solo
      exact any ⟨tx, hm, by simpa using solo⟩
  · intro hsh
    rcases hsh with hn | ⟨tx, rfl⟩
    · have he : txs.filter (·.function.requiresSoloBlock) = [] :=
        filter_eq_nil_iff.2 fun tx hm => by simp [hn tx hm]
      rw [he]
      simp
    · have hb := length_filter_le (fun tx : Transaction => tx.function.requiresSoloBlock) [tx]
      simp only [length_singleton] at hb ⊢
      omega

lemma dryRun_ok {A height} {db db' : Db R} :
    dryRun A height txs db = .ok db' ↔ runHandlers A false height txs db = .ok db' := by
  unfold dryRun runHandlers
  induction txs generalizing db with
  | nil => simp
  | cons tx rest ih =>
    simp only [foldlM_cons, bind_eq_ok, mapError_eq_ok]
    exact exists_congr fun middle => and_congr_right fun _ => ih

structure Accepted (A : App R) (env : ValidationEnv R) (height : Nat) (block : Block) (db : Db R) :
    Prop where
  atHeight : block.data.height = height
  solo : SoloShape block.data.transactions
  commits : ∀ tx ∈ block.data.transactions, checkCommit A env block.data.height db tx = .ok ()
  fresh : env.origin = .live → ∀ tx ∈ block.data.transactions, ¬ tx.nonce.Stale env.now ∧
    tx.nonce ∉ db.nonces
  dry : ∃ dry rest, runHandlers (A.clocked env.readings) false height block.data.transactions db =
    .ok dry ∧ A.recordViewTransition height dry.nodes dry.rest = .ok rest

lemma checkLive_ok {env} {db : Db R} (hl : env.origin = .live)
    (ran : checkLive env txs db = .ok ()) :
    ∀ tx ∈ txs, ¬ tx.nonce.Stale env.now ∧ tx.nonce ∉ db.nonces := by
  simp only [checkLive, hl, if_true, bind_eq_ok] at ran
  obtain ⟨_, hc, _⟩ := ran
  intro tx hm
  simpa only [checkNonce, bind_eq_ok, require_eq_ok, exists_const] using forM_eq_ok.1 hc tx hm

lemma validateInner_ok {A env} {height : Nat} {block} {db : Db R}
    (ran : validateInner A env height block db = .ok ()) : Accepted A env height block db := by
  unfold validateInner at ran
  simp only [bind_eq_ok, mapError_eq_ok, require_eq_ok, exists_const, dryRun_ok, pure_eq_ok] at ran
  obtain ⟨_, _, atHeight, _, hs, _, _, commits, _, _, _, _, live, dry, hh, rest, hr, _⟩ := ran
  exact ⟨atHeight, checkSoloMembership_ok.1 hs, forM_eq_ok.1 commits,
    fun hl => checkLive_ok hl live, dry, rest, hh, hr⟩

end HopNet
