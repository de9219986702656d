import HopNet.ExactlyOnce

namespace HopNet

open Fallible Runs List TxFunction

variable {R : Type} {A : App R} {db db' : Db R} {past : List (ChainEvent R)}
  {txs : List Transaction} {next : LiveBlock R}

/-- `tx` carries a valid signature of `key`, as its node or as its user. -/
def Transaction.CarriedBy (P : Primitives) (key : PubKey) (tx : Transaction) : Prop :=
  tx.verifySignature P key = .ok () ∨ tx.verifyUserSignature P key = .ok ()
deriving Decidable

/-- The calls of the regenesis commits, which keep no nonce. -/
def commitCalls (txs : List Transaction) : List RpcCall :=
  (txs.filter (·.function = .regenesisCommit)).map (·.rpc)

lemma mem_commitCalls {rpc} (hf : rpc ∈ commitCalls txs) :
    ∃ tx ∈ txs, tx.function = .regenesisCommit ∧ tx.rpc = rpc := by
  obtain ⟨tx, hk, rfl⟩ := mem_map.1 hf
  obtain ⟨hm, hc⟩ := mem_filter.1 hk
  exact ⟨tx, hm, of_decide_eq_true hc, rfl⟩

lemma commitCalls_append (a b : List Transaction) :
    commitCalls (a ++ b) = commitCalls a ++ commitCalls b := by
  simp [commitCalls]

/-- A commit rides alone, so no block holds two. -/
lemma commitCalls_nodup (solo : SoloShape txs) : (commitCalls txs).Nodup := by
  rcases solo with hp | ⟨tx, rfl⟩
  · have hn : commitCalls txs = [] := by
      apply eq_nil_iff_forall_not_mem.2
      intro rpc hf
      obtain ⟨tx, hm, hc, _⟩ := mem_commitCalls hf
      have ha := hp tx hm
      rw [hc] at ha
      cases ha
    rw [hn]
    exact nodup_nil
  · have hs : (commitCalls [tx]).length ≤ 1 := by
      rw [commitCalls, length_map]
      exact length_filter_le _ _
    match hca : commitCalls [tx], hs with
    | [], _ => exact nodup_nil
    | [rpc], _ => exact nodup_singleton rpc

lemma checkCommit_sealHeight {env height db tx} (hc : checkCommit A env height db tx = .ok ())
    (hca : tx.function = .regenesisCommit) :
    ∃ commit, A.decodeCommit tx.rpc.payload = some commit ∧ commit.sealHeight = height := by
  unfold checkCommit at hc
  rw [if_neg (by simp [hca])] at hc
  cases hd : A.decodeCommit tx.rpc.payload with
  | none => simp [hd] at hc
  | some commit =>
    simp only [hd, require_bind] at hc
    exact ⟨commit, rfl, hc.1⟩

lemma LiveStep.commit_atHeight (hs : LiveStep A db next db') {rpc}
    (hf : rpc ∈ commitCalls next.block.data.transactions) :
    ∃ commit, A.decodeCommit rpc.payload = some commit ∧
      commit.sealHeight = db.currentHeight + 1 := by
  obtain ⟨tx, hm, hc, rfl⟩ := mem_commitCalls hf
  have ha := validateInner_ok hs.accepted
  rw [← ha.atHeight]
  exact checkCommit_sealHeight (ha.commits tx hm) hc

lemma LiveStep.currentHeight (hs : LiveStep A db next db') :
    db'.currentHeight = db.currentHeight + 1 := by
  obtain ⟨_, decided⟩ := hs.decided
  obtain ⟨applied, _, rfl⟩ := decideBlock_ok.1 decided
  rfl

/-- No commit's call was executed twice, and each names a decided height. -/
structure CommitInv (A : App R) (past : List (ChainEvent R)) (db : Db R) : Prop where
  once : (commitCalls (executedTxs past)).Nodup
  behind : ∀ rpc ∈ commitCalls (executedTxs past),
    ∃ commit, A.decodeCommit rpc.payload = some commit ∧ commit.sealHeight ≤ db.currentHeight

lemma MeshStep.commitInv {event} (inv : CommitInv A past db) (hs : MeshStep A db event db') :
    CommitInv A (past ++ [event]) db' := by
  cases hs with
  | newEpoch =>
    constructor
    · rw [executedTxs_snoc, ChainEvent.transactions, append_nil]
      exact inv.once
    · rw [executedTxs_snoc, ChainEvent.transactions, append_nil]
      exact inv.behind
  | block hs =>
    have ha := validateInner_ok hs.accepted
    constructor
    · rw [executedTxs_snoc, commitCalls_append]
      refine nodup_append.2 ⟨inv.once, commitCalls_nodup ha.solo, ?_⟩
      -- An earlier commit names a decided height, this block's commit the next one.
      rintro rpc hb _ hf rfl
      obtain ⟨commit, hd, hde⟩ := inv.behind rpc hb
      obtain ⟨commit', hd', hh⟩ := hs.commit_atHeight hf
      have same : commit = commit' := Option.some.inj (hd.symm.trans hd')
      rw [same] at hde
      omega
    · intro rpc he
      rw [executedTxs_snoc, commitCalls_append] at he
      have had := hs.currentHeight
      rcases mem_append.1 he with hb | hf
      · obtain ⟨commit, hd, hde⟩ := inv.behind rpc hb
        exact ⟨commit, hd, by omega⟩
      · obtain ⟨commit, hd, hh⟩ := hs.commit_atHeight hf
        exact ⟨commit, hd, by omega⟩

lemma commitInv_of_reaches {db₀ s} (run : Reaches (GuardedStep A) (db₀, []) past s) :
    CommitInv A past s.1 := by
  apply run.invariant fun past s => CommitInv A past s.1
  · refine ⟨nodup_nil, ?_⟩
    intro rpc he
    cases he
  · intro past s event s' _ inv hg
    exact hg.step.commitInv inv

section

variable (txs : List Transaction) (P : Transaction → Prop) [DecidablePred P] (rpc : RpcCall)

lemma filter_sublist_calls {Q : RpcCall → Prop} [DecidablePred Q] (hq : Q rpc) :
    (txs.filter fun tx => P tx ∧ tx.rpc = rpc).Sublist (txs.filter fun tx => Q tx.rpc) := by
  apply monotone_filter_right
  intro tx hk
  apply decide_eq_true
  rw [(of_decide_eq_true hk).2]
  exact hq

end

/-- Let the signer have created the transactions `created`, and let every transaction executed
under its signature keep the call and the nonce of one of them. Then each call is executed under
that signature no more often than the signer created it. -/
theorem signature_authorises_once (A : App R) {db₀ db : Db R} {gone : List CustomUUID}
    {past : List (ChainEvent R)} (run : Reaches (GuardedStep A) (db₀, []) past (db, gone))
    (key : PubKey) (created : List Transaction)
    (own : ∀ tx ∈ executedTxs past, tx.CarriedBy A.prims key →
      ∃ made ∈ created, made.rpc = tx.rpc ∧ made.nonce = tx.nonce) (rpc : RpcCall) :
    ((executedTxs past).filter fun tx => tx.CarriedBy A.prims key ∧ tx.rpc = rpc).length ≤
      (created.filter (·.rpc = rpc)).length := by
  set executed := (executedTxs past).filter fun tx => tx.CarriedBy A.prims key ∧
    tx.rpc = rpc with he
  have made : ∀ tx ∈ executed, tx.rpc = rpc ∧
      ∃ made ∈ created.filter (·.rpc = rpc), made.nonce = tx.nonce := by
    intro tx hm
    obtain ⟨ran, hca, same⟩ : tx ∈ executedTxs past ∧ tx.CarriedBy A.prims key ∧
        tx.rpc = rpc := by
      simpa [he] using hm
    obtain ⟨made, hc, hsc, hs⟩ := own tx ran hca
    refine ⟨same, made, mem_filter.2 ⟨hc, ?_⟩, hs⟩
    exact decide_eq_true (hsc.trans same)
  by_cases hco : ofName rpc.function = .regenesisCommit
  · -- A commit's call is executed at most once, whoever submits it.
    have ho := (commitInv_of_reaches run).once.sublist
      ((filter_sublist_calls (Q := (ofName ·.function = .regenesisCommit)) _
        (·.CarriedBy A.prims key) rpc hco).map _)
    rw [← he, map_congr_left fun tx hm => (made tx hm).1, map_const', nodup_replicate] at ho
    cases hf : executed with
    | nil => exact Nat.zero_le _
    | cons tx rest =>
      obtain ⟨_, first, hc, _⟩ := made tx (by rw [hf]; exact mem_cons_self)
      rw [← hf]
      exact ho.trans (length_pos_of_mem hc)
  · have ho := (nonceInv_of_reaches run).once.sublist
      ((filter_sublist_calls (Q := (ofName ·.function ≠ .regenesisCommit)) _
        (·.CarriedBy A.prims key) rpc hco).map _)
    rw [← he] at ho
    have hw : executed.map (·.nonce) ⊆ (created.filter (·.rpc = rpc)).map (·.nonce) := by
      intro nonce hf
      obtain ⟨tx, hm, rfl⟩ := mem_map.1 hf
      obtain ⟨_, first, hc, hs⟩ := made tx hm
      exact mem_map.2 ⟨first, hc, hs⟩
    simpa using (subperm_of_subset ho hw).length_le

/-- Node 0's transaction for this call, and a copy under another nonce. -/
def ownTx : Transaction := sampleTx "system.cleanup_nonces" [0] false 1
def copiedTx : Transaction := { ownTx with nonce := ⟨2⟩ }

def ownBlock : Block := sampleBlock sampleGenesis [ownTx]
def afterOwn : Db Unit := afterBlock .sample sampleGenesis ownBlock
def copyBlock : Block := sampleBlock afterOwn [copiedTx]

theorem signature_authorises_once_stampedChain : ((executedTxs stampedChain).filter fun tx =>
      tx.CarriedBy .sample (.replicate 32 1) ∧ tx.rpc = stampedTx.rpc).length ≤
    ([stampedTx, sweepTx, renewedTx].filter (·.rpc = stampedTx.rpc)).length :=
  signature_authorises_once .sample reaches_stampedChain
    (.replicate 32 1) [stampedTx, sweepTx, renewedTx] (by decide) stampedTx.rpc

/-- A proposer puts the copy into the next block: the signature still verifies, the nonce is
fresh, and the call is executed a second time for the one transaction its signer created. -/
theorem copiedTx_executed : LiveStep .sample sampleGenesis ⟨sampleEnv 0, ownBlock⟩ afterOwn ∧
    LiveStep .sample afterOwn ⟨sampleEnv 0, copyBlock⟩ (afterBlock .sample afterOwn copyBlock) ∧
    copiedTx.submitter.signature = ownTx.submitter.signature ∧
    ([ownTx].filter (·.rpc = ownTx.rpc)).length <
      ((executedTxs [.block ⟨sampleEnv 0, ownBlock⟩, .block ⟨sampleEnv 0, copyBlock⟩]).filter
        fun tx => tx.CarriedBy .sample (.replicate 32 1) ∧ tx.rpc = ownTx.rpc).length :=
  ⟨⟨rfl, by decide, fun _ _ => 0, rfl⟩, ⟨rfl, by decide, fun _ _ => 0, rfl⟩, rfl, by decide⟩

end HopNet
