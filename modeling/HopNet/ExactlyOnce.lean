import HopNet.ValidatorHistory

namespace HopNet

open Fallible Runs List

variable {R : Type} {A : App R} {tx : Transaction} {db db' : Db R} {height : Nat}
  {nonce : CustomUUID}

lemma insertRow_nonces {row} (ran : insertRow db row = .ok db') : db'.nonces = db.nonces := by
  rw [(insertRow_ok.1 ran).2]

lemma activateValidator_nonces {n : Int} {effective}
    (ran : activateValidator db n effective = .ok db') : db'.nonces = db.nonces := by
  unfold activateValidator at ran
  split at ran
  · split at ran
    · cases ran
    · rw [← Except.ok.inj ran]
  · exact insertRow_nonces ran

lemma insertGenesis_nonces {meta_} (ran : insertGenesis A meta_ db = .ok db') :
    db'.nonces = db.nonces := by
  unfold insertGenesis at ran
  simp only [bind_eq_ok, exists_require, insertNodeTx_ok, pure_eq_ok] at ran
  obtain ⟨_, _, _, _, _, _, ⟨_, _, _, _, rfl⟩, seated, ha, _, _, rfl⟩ := ran
  have hu := activateValidator_nonces ha
  exact hu

lemma membership_nonces (hm : tx.function.isMembershipTx = true)
    (ran : processTransaction A tx true height db = .ok db') : db'.nonces = db.nonces := by
  unfold processTransaction at ran
  generalize hc : tx.function = function at ran hm
  cases function with
  | validatorActivation =>
    obtain ⟨members, _, _, ha⟩ := validatorActivation_exec.1 ran
    apply foldlM_invariant (·.nonces = db.nonces) members ?_ rfl ha
    intro m _ s s' same hs
    exact (activateValidator_nonces hs).trans same
  | validatorLeave =>
    exact insertRow_nonces (validatorLeave_exec.1 ran).2
  | validatorVoteOut =>
    obtain ⟨_, _, _, hw⟩ := validatorVoteOut_exec.1 ran
    exact insertRow_nonces hw
  | insertGenesis | insertNode | nodeStagedVersion | regenesisStart | regenesisAbort
  | regenesisCommit | cleanupNonces | other =>
    cases hm

/-- A cleanup transaction whose cutoff is above `nonce`. -/
def Transaction.Forgets (A : App R) (tx : Transaction) (nonce : CustomUUID) : Prop :=
  tx.function = .cleanupNonces ∧
    ∃ cutoff ∈ A.decodeCutoff tx.rpc.payload, nonce.value.toNat < cutoff.value.toNat

instance (A : App R) (tx : Transaction) (nonce : CustomUUID) : Decidable (tx.Forgets A nonce) :=
  match decoded : A.decodeCutoff tx.rpc.payload with
  | none => isFalse (by simp [Transaction.Forgets, decoded])
  | some cutoff =>
    if both : tx.function = .cleanupNonces ∧ nonce.value.toNat < cutoff.value.toNat then
      isTrue ⟨both.1, cutoff, decoded, both.2⟩
    else isFalse (by simpa [Transaction.Forgets, decoded] using both)

def Block.Forgets (A : App R) (block : Block) (nonce : CustomUUID) : Prop :=
  ∃ tx ∈ block.data.transactions, tx.Forgets A nonce

/-- Only a cleanup takes a nonce out of the table. -/
lemma processTransaction_keeps_nonce (ran : processTransaction A tx true height db = .ok db')
    (hc : nonce ∈ db.nonces) (hk : ¬ tx.Forgets A nonce) :
    nonce ∈ db'.nonces := by
  by_cases hm : tx.function.isMembershipTx = true
  · rw [membership_nonces hm ran]
    exact hc
  · unfold processTransaction at ran
    generalize hca : tx.function = function at ran hm
    cases function with
    | validatorActivation | validatorLeave | validatorVoteOut =>
      exact absurd rfl hm
    | insertGenesis =>
      rw [insertGenesis_nonces ran]
      exact hc
    | insertNode =>
      obtain ⟨_, _, _, _, _, _, _, rfl⟩ := insertNode_ok.1 ran
      exact hc
    | nodeStagedVersion =>
      obtain ⟨_, _, rfl⟩ := nodeStagedVersion_ok ran
      exact hc
    | regenesisStart =>
      obtain ⟨_, _, _, rfl⟩ := regenesisStart_ok.1 ran
      exact hc
    | regenesisAbort =>
      obtain ⟨_, _, _, rfl⟩ := regenesisAbort_ok.1 ran
      exact hc
    | regenesisCommit =>
      obtain ⟨_, _, _, _, _, _, rfl⟩ := regenesisCommit_exec.1 ran
      exact hc
    | cleanupNonces =>
      obtain ⟨cutoff, hd, rfl⟩ := cleanupNonces_ok.1 ran
      have ha : ¬ nonce.value.toNat < cutoff.value.toNat :=
        fun hb => hk ⟨hca, cutoff, hd, hb⟩
      simp only [if_true, Db.cleanupOldNonces, mem_filter, decide_eq_true_eq]
      exact ⟨hc, ha⟩
    | other =>
      obtain ⟨_, _, _, _, rfl⟩ := otherHandler_ok.1 ran
      exact hc

lemma decideBlock_keeps_nonce {block} (ran : decideBlock A height block db = .ok db')
    (hc : nonce ∈ db.nonces) (hk : ¬ block.Forgets A nonce) :
    nonce ∈ db'.nonces := by
  obtain ⟨applied, ha, rfl⟩ := decideBlock_ok.1 ran
  obtain ⟨handled, rest, hr, _, _, rfl⟩ := applyBlock_ok.1 ha
  have hs : nonce ∈ handled.nonces := by
    apply foldlM_invariant (fun s : Db R => nonce ∈ s.nonces) block.data.transactions ?_ hc hr
    intro tx hm s s' hb step
    exact processTransaction_keeps_nonce step hb fun hf => hk ⟨tx, hm, hf⟩
  exact mem_append_left _ hs

lemma decideBlock_commits_nonce {block} (ran : decideBlock A height block db = .ok db')
    (hb : nonce ∈ bornNonces block.data.transactions) :
    nonce ∈ db'.nonces := by
  obtain ⟨applied, ha, rfl⟩ := decideBlock_ok.1 ran
  obtain ⟨handled, rest, _, _, _, rfl⟩ := applyBlock_ok.1 ha
  by_cases hp : nonce ∈ handled.nonces
  · exact mem_append_left _ hp
  · apply mem_append_right
    simp only [mem_filter, decide_eq_true_eq]
    exact ⟨hb, hp⟩

/-- A proposed block with the validator's circumstances when it voted. -/
structure LiveBlock (R : Type) where
  env : ValidationEnv R
  block : Block

/-- The next block: it passes `validate_inner` as a live proposal and is applied. -/
structure LiveStep (A : App R) (db : Db R) (next : LiveBlock R) (db' : Db R) : Prop where
  live : next.env.origin = .live
  accepted : validateInner A next.env (db.currentHeight + 1) next.block db = .ok ()
  decided : ∃ clock, decideBlock (A.clocked clock) (db.currentHeight + 1) next.block db = .ok db'

/-- Where the next epoch starts: the exported tables, no boundary state, and the new genesis block
at the seal height. -/
def Db.nextEpoch (db : Db R) (genesisHash : Blake3Hash) : Db R :=
  { db with
    regenesis := none
    sealedAt := none
    dissentAt := none
    decidedTip := some genesisHash }

inductive ChainEvent (R : Type) where
  | block (next : LiveBlock R)
  | newEpoch (genesisHash : Blake3Hash)

def ChainEvent.transactions : ChainEvent R → List Transaction
  | .block next => next.block.data.transactions
  | .newEpoch _ => []

/-- A mesh goes on by a block, or crosses a boundary once sealed. -/
inductive MeshStep (A : App R) : Db R → ChainEvent R → Db R → Prop
  | block {db db' next} (step : LiveStep A db next db') : MeshStep A db (.block next) db'
  | newEpoch {db genesisHash} (sealed : db.phase = .sealed) :
      MeshStep A db (.newEpoch genesisHash) (db.nextEpoch genesisHash)

variable (past : List (ChainEvent R))

/-- The transactions whose handlers were executed, in order. -/
def executedTxs : List Transaction :=
  past.flatMap ChainEvent.transactions

/-- Their nonces, the regenesis commits apart. -/
def executedNonces : List CustomUUID :=
  bornNonces (executedTxs past)

/-- A step under what the code leaves to the proposer: the block repeats no nonce, and those a
cleanup has forgotten are past the age limit by this validator's clock. -/
structure GuardedStep (A : App R) (s : Db R × List CustomUUID) (event : ChainEvent R)
    (s' : Db R × List CustomUUID) : Prop where
  step : MeshStep A s.1 event s'.1
  distinct : (bornNonces event.transactions).Nodup
  aged : ∀ next, event = .block next → ∀ nonce ∈ s.2, nonce.Stale next.env.now
  forgotten : s'.2 = s.2 ++ s.1.nonces.filter fun nonce =>
    ∃ tx ∈ event.transactions, tx.Forgets A nonce

lemma bornNonces_append (a b : List Transaction) :
    bornNonces (a ++ b) = bornNonces a ++ bornNonces b := by
  simp [bornNonces]

lemma executedTxs_snoc (event : ChainEvent R) :
    executedTxs (past ++ [event]) = executedTxs past ++ event.transactions := by
  simp [executedTxs]

lemma executedNonces_snoc (event : ChainEvent R) :
    executedNonces (past ++ [event]) = executedNonces past ++ bornNonces event.transactions := by
  rw [executedNonces, executedTxs_snoc, bornNonces_append, executedNonces]

variable {event : ChainEvent R}

namespace MeshStep

lemma keeps_nonce (step : MeshStep A db event db') (hc : nonce ∈ db.nonces)
    (hk : ¬ ∃ tx ∈ event.transactions, tx.Forgets A nonce) : nonce ∈ db'.nonces := by
  cases step with
  | block step => exact step.decided.elim fun _ decided => decideBlock_keeps_nonce decided hc hk
  | newEpoch hs => exact hc

lemma commits_nonce (step : MeshStep A db event db')
    (hb : nonce ∈ bornNonces event.transactions) : nonce ∈ db'.nonces := by
  cases step with
  | block step => exact step.decided.elim fun _ decided => decideBlock_commits_nonce decided hb
  | newEpoch hs => cases hb

end MeshStep

/-- Every executed nonce is still committed, or was forgotten. -/
structure NonceInv (past : List (ChainEvent R)) (s : Db R × List CustomUUID) : Prop where
  once : (executedNonces past).Nodup
  accounted : ∀ nonce ∈ executedNonces past, nonce ∈ s.1.nonces ∨ nonce ∈ s.2

namespace GuardedStep

variable {s s' : Db R × List CustomUUID}

lemma fresh {past} (inv : NonceInv past s) (hg : GuardedStep A s event s')
    (born : nonce ∈ bornNonces event.transactions) : nonce ∉ executedNonces past := by
  intro hb
  obtain ⟨tx, hf, rfl⟩ := mem_map.1 born
  have hm := (mem_filter.1 hf).1
  cases event with
  | newEpoch => cases hm
  | block next =>
    cases hg.step with
    | block hs =>
      have ha := validateInner_ok hs.accepted
      obtain ⟨hy, hu⟩ := ha.fresh hs.live tx hm
      rcases inv.accounted tx.nonce hb with hc | gone
      · exact hu hc
      · exact hy (hg.aged next rfl tx.nonce gone)

lemma nonceInv {past} (inv : NonceInv past s) (hg : GuardedStep A s event s') :
    NonceInv (past ++ [event]) s' := by
  have ha : ∀ nonce ∈ executedNonces past, ∀ born ∈ bornNonces event.transactions,
      nonce ≠ born := by
    intro nonce hb born hbo hs
    exact hg.fresh inv hbo (hs ▸ hb)
  refine ⟨?_, ?_⟩
  · rw [executedNonces_snoc]
    exact nodup_append.2 ⟨inv.once, hg.distinct, ha⟩
  · intro nonce he
    rw [executedNonces_snoc] at he
    rw [hg.forgotten]
    rcases mem_append.1 he with hb | born
    · rcases inv.accounted nonce hb with hc | gone
      · by_cases hf : ∃ tx ∈ event.transactions, tx.Forgets A nonce
        · right
          apply mem_append_right
          simpa only [mem_filter, decide_eq_true_eq] using ⟨hc, hf⟩
        · exact .inl (hg.step.keeps_nonce hc hf)
      · exact .inr (mem_append_left _ gone)
    · exact .inl (hg.step.commits_nonce born)

end GuardedStep

lemma nonceInv_of_reaches {db₀ past s}
    (run : Reaches (GuardedStep A) (db₀, []) past s) : NonceInv past s := by
  apply run.invariant NonceInv ⟨nodup_nil, by simp [executedNonces, executedTxs, bornNonces]⟩
  intro past s event s' _ inv hg
  exact hg.nonceInv inv

/-- In every chain of live, applied blocks whose steps meet the conditions of `GuardedStep`, no
nonce is executed twice, across epochs too. -/
theorem executedNonces_nodup (A : App R) {db₀ db : Db R} {gone : List CustomUUID}
    {past : List (ChainEvent R)} (run : Reaches (GuardedStep A) (db₀, []) past (db, gone)) :
    (executedNonces past).Nodup :=
  (nonceInv_of_reaches run).once

/-- A call under a time-stamped nonce. Once that is too old to be proposed again it is cleaned up,
and the call is made under another one. -/
def stampedTx : Transaction := sampleTx "submit_metrics" [0] false (7 * 2 ^ 76)
def sweepTx : Transaction := sampleTx "system.cleanup_nonces" [8] false 2
def renewedTx : Transaction := sampleTx "submit_metrics" [0] false 3

def stampedBlock : Block := sampleBlock sampleGenesis [stampedTx]
def afterStamped : Db Unit := afterBlock .sample sampleGenesis stampedBlock
def sweepBlock : Block := sampleBlock afterStamped [sweepTx]
def afterSweep : Db Unit := afterBlock .sample afterStamped sweepBlock
def renewedBlock : Block := sampleBlock afterSweep [renewedTx]

def stampedChain : List (ChainEvent Unit) :=
  [.block ⟨sampleEnv 0, stampedBlock⟩, .block ⟨sampleEnv 0, sweepBlock⟩,
    .block ⟨sampleEnv (maxTransactionAge + 1), renewedBlock⟩]

lemma reaches_stampedChain : Reaches (GuardedStep .sample) (sampleGenesis, []) stampedChain
    (afterBlock .sample afterSweep renewedBlock, [stampedTx.nonce]) := by
  have stamped : GuardedStep .sample (sampleGenesis, []) (.block ⟨sampleEnv 0, stampedBlock⟩)
      (afterStamped, []) :=
        ⟨.block ⟨rfl, by decide, fun _ _ => 0, rfl⟩, by decide, by simp, rfl⟩
  have swept : GuardedStep .sample (afterStamped, []) (.block ⟨sampleEnv 0, sweepBlock⟩)
      (afterSweep, [stampedTx.nonce]) :=
    ⟨.block ⟨rfl, by decide, fun _ _ => 0, rfl⟩, by decide, by simp, by decide⟩
  have renewed : GuardedStep .sample (afterSweep, [stampedTx.nonce])
      (.block ⟨sampleEnv (maxTransactionAge + 1), renewedBlock⟩)
      (afterBlock .sample afterSweep renewedBlock, [stampedTx.nonce]) :=
    ⟨.block ⟨rfl, by decide, fun _ _ => 0, rfl⟩, by decide, fun | _, rfl => by decide, by decide⟩
  exact .snoc (.snoc (.snoc .refl stamped) swept) renewed

theorem executedNonces_nodup_stampedChain : (executedNonces stampedChain).Nodup :=
  executedNonces_nodup .sample reaches_stampedChain

/-- A block that holds one signed transaction twice. -/
def repeated : Block :=
  sampleBlock sampleGenesis [sampleTx "system.cleanup_nonces" [0] false 1,
    sampleTx "system.cleanup_nonces" [0] false 1]

/-- A transaction, a cleanup with a cutoff above its nonce, and the transaction again. -/
def onceBlock : Block := sampleBlock sampleGenesis [sampleTx "submit_metrics" [0] false 1]
def afterOnce : Db Unit := afterBlock .sample sampleGenesis onceBlock
def forgetBlock : Block := sampleBlock afterOnce [sampleTx "system.cleanup_nonces" [200] false 250]
def afterForget : Db Unit := afterBlock .sample afterOnce forgetBlock
def againBlock : Block := sampleBlock afterForget [sampleTx "submit_metrics" [0] false 1]

/-- The dedup check looks at the table only and the cleanup takes any cutoff: a block that repeats
a nonce passes and its handler runs twice, and a forgotten nonce comes back. -/
theorem executedNonces_repeated : (LiveStep .sample sampleGenesis ⟨sampleEnv 0, repeated⟩
        (afterBlock .sample sampleGenesis repeated) ∧
      ¬ (bornNonces repeated.data.transactions).Nodup) ∧
    LiveStep .sample sampleGenesis ⟨sampleEnv 0, onceBlock⟩ afterOnce ∧
    LiveStep .sample afterOnce ⟨sampleEnv 0, forgetBlock⟩ afterForget ∧
    LiveStep .sample afterForget ⟨sampleEnv 0, againBlock⟩
    (afterBlock .sample afterForget againBlock) ∧
    ¬ (executedNonces [.block ⟨sampleEnv 0, onceBlock⟩, .block ⟨sampleEnv 0, forgetBlock⟩,
      .block ⟨sampleEnv 0, againBlock⟩]).Nodup :=
  ⟨⟨⟨rfl, by decide, fun _ _ => 0, rfl⟩, by decide⟩, ⟨rfl, by decide, fun _ _ => 0, rfl⟩,
    ⟨rfl, by decide, fun _ _ => 0, rfl⟩, ⟨rfl, by decide, fun _ _ => 0, rfl⟩, by decide⟩

end HopNet
