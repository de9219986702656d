import HopNet.HandlerSpecs

namespace HopNet

open Fallible List

variable {R : Type} (A : App R)

/-- The handlers over a list of transactions, stopping at the first error. -/
def runHandlers (execute : Bool) (height : Nat) (txs : List Transaction) (db : Db R) :
    DbResult (Db R) :=
  txs.foldlM (fun db tx => processTransaction A tx execute height db) db

/-- The regenesis commit is exempt: its nonce would change the snapshot. -/
def Transaction.BearsNonce (tx : Transaction) : Prop := tx.function ≠ .regenesisCommit
deriving Decidable

def bornNonces (txs : List Transaction) : List CustomUUID :=
  (txs.filter (·.BearsNonce)).map (·.nonce)

variable (height : Nat)

/-- `process_transactions` with `execute = true`. -/
def processTransactions (txs : List Transaction) (db : Db R) : DbResult (Db R) := do
  let db ← runHandlers A true height txs db
  db.insertTxNonces A.maxVariables (bornNonces txs)

def applyBlock (block : Block) (db : Db R) : DbResult (Db R) := do
  let db ← processTransactions A height block.data.transactions db
  let rest ← A.recordViewTransition height db.nodes db.rest
  return { db with rest }

/-- Apply the block, store it and advance the decided height. -/
def decideBlock (block : Block) (db : Db R) : DbResult (Db R) := do
  let db ← applyBlock A height block db
  return { db with lastDecided := some height, decidedTip := some block.blockHash }

variable (nodes : List NodeRow)

/-- A registered node keeps its identity row. -/
def EntriesKept (nodes' : List NodeRow) : Prop :=
  ∀ id, (∃ n ∈ nodes, n.nodeId = id) →
    (nodes'.filter (·.nodeId = id)).map NodeRow.entry =
      (nodes.filter (·.nodeId = id)).map NodeRow.entry

namespace EntriesKept

lemma refl : EntriesKept nodes nodes := fun _ _ => rfl

lemma registered {nodes nodes'} (kept : EntriesKept nodes nodes') {id : Int}
    (hk : ∃ n ∈ nodes, n.nodeId = id) : ∃ n ∈ nodes', n.nodeId = id := by
  obtain ⟨n, hm, rfl⟩ := hk
  have hs := kept n.nodeId ⟨n, hm, rfl⟩
  have hp : n.entry ∈ (nodes'.filter (·.nodeId = n.nodeId)).map NodeRow.entry := by
    rw [hs]
    exact mem_map_of_mem (by simp [mem_filter, hm])
  obtain ⟨m, hf, _⟩ := mem_map.1 hp
  simp only [mem_filter, decide_eq_true_eq] at hf
  exact ⟨m, hf⟩

lemma trans {a b c} (hf : EntriesKept a b) (hs : EntriesKept b c) : EntriesKept a c :=
  fun id hk => (hs id (hf.registered hk)).trans (hf id hk)

variable {nodes : List NodeRow}

lemma append {node} (hf : ∀ n ∈ nodes, n.nodeId ≠ node.nodeId) :
    EntriesKept nodes (nodes ++ [node]) := by
  rintro id ⟨n, hm, rfl⟩
  have ho : node.nodeId ≠ n.nodeId := fun hs => hf n hm hs.symm
  simp [ho]

lemma map {f : NodeRow → NodeRow} (same : ∀ n, (f n).entry = n.entry) :
    EntriesKept nodes (nodes.map f) := by
  intro id _
  have hs : ∀ n, (f n).nodeId = n.nodeId := fun n => congrArg ValidatorEntry.nodeId (same n)
  have hf : (nodes.map f).filter (fun n => decide (n.nodeId = id)) =
      (nodes.filter fun n => decide (n.nodeId = id)).map f := by
    rw [filter_map]
    refine congrArg (List.map f) (filter_congr fun n _ => ?_)
    rw [Function.comp_apply, hs n]
  rw [hf, map_map]
  exact map_congr_left fun n _ => same n

end EntriesKept

/-- What every transaction other than a membership transition leaves alone. -/
structure Frame (db db' : Db R) : Prop where
  validators : db'.validators = db.validators
  lastDecided : db'.lastDecided = db.lastDecided
  decidedTip : db'.decidedTip = db.decidedTip
  initialized : db.nodeSeq.isSome → db'.nodeSeq.isSome
  nodes : EntriesKept db.nodes db'.nodes

namespace Frame

lemma refl (db : Db R) : Frame db db := ⟨rfl, rfl, rfl, id, .refl _⟩

lemma trans {a b c : Db R} (hf : Frame a b) (hs : Frame b c) : Frame a c :=
  ⟨hs.validators.trans hf.validators, hs.lastDecided.trans hf.lastDecided,
    hs.decidedTip.trans hf.decidedTip, hs.initialized ∘ hf.initialized,
    hf.nodes.trans hs.nodes⟩

end Frame

variable {A : App R} {tx : Transaction} {execute : Bool} {height : Nat} {db db' : Db R}
  {meta_ : TxMeta} {block : Block}

lemma insertGenesis_uninitialized (ran : insertGenesis A meta_ db = .ok db') :
    db.nodeSeq = none := by
  unfold insertGenesis at ran
  simp only [bind_eq_ok, exists_require] at ran
  obtain ⟨_, _, he, _⟩ := ran
  exact he

lemma nodeStagedVersion_ok (ran : nodeStagedVersion A meta_ db = .ok db') :
    ∃ f : NodeRow → NodeRow, (∀ n, (f n).entry = n.entry) ∧
      db' = { db with nodes := db.nodes.map f } := by
  unfold nodeStagedVersion at ran
  simp only [bind_eq_ok, exists_require, pure_eq_ok] at ran
  obtain ⟨report, _, _, _, _, _, rfl⟩ := ran
  refine ⟨_, fun n => ?_, rfl⟩
  split <;> rfl

/-- The transactions that ride alone do not read the clock. -/
lemma processTransaction_clocked (solo : tx.function.requiresSoloBlock = true)
    (clock : Transaction → Nat → Int) :
    processTransaction (A.clocked clock) tx execute height db =
      processTransaction A tx execute height db := by
  unfold processTransaction
  cases hc : tx.function with
  | validatorActivation | validatorLeave | validatorVoteOut | regenesisCommit => rfl
  | insertGenesis | insertNode | nodeStagedVersion | regenesisStart | regenesisAbort |
      cleanupNonces | other =>
    rw [hc] at solo
    cases solo

lemma processTransaction_frame (ran : processTransaction A tx execute height db = .ok db')
    (hp : tx.function.isMembershipTx = false) (hi : db.nodeSeq.isSome) :
    Frame db db' := by
  unfold processTransaction at ran
  generalize hc : tx.function = function at ran hp
  cases function with
  | insertGenesis =>
    rw [insertGenesis_uninitialized ran] at hi
    cases hi
  | insertNode =>
    obtain ⟨node, nextId, _, _, _, hf, _, rfl⟩ := insertNode_ok.1 ran
    exact ⟨rfl, rfl, rfl, fun _ => rfl, .append fun n hm => (hf n hm).1⟩
  | nodeStagedVersion =>
    obtain ⟨f, hs, rfl⟩ := nodeStagedVersion_ok ran
    exact ⟨rfl, rfl, rfl, id, .map hs⟩
  | validatorActivation | validatorLeave | validatorVoteOut =>
    cases hp
  | regenesisStart =>
    obtain ⟨target, _, _, rfl⟩ := regenesisStart_ok.1 ran
    cases execute <;> exact ⟨rfl, rfl, rfl, id, .refl _⟩
  | regenesisAbort =>
    obtain ⟨_, _, _, rfl⟩ := regenesisAbort_ok.1 ran
    cases execute <;> exact ⟨rfl, rfl, rfl, id, .refl _⟩
  | regenesisCommit =>
    cases execute with
    | true =>
      obtain ⟨req, row, _, _, _, _, rfl⟩ := regenesisCommit_exec.1 ran
      exact ⟨rfl, rfl, rfl, id, .refl _⟩
    | false =>
      obtain ⟨rfl, _⟩ := regenesisCommit_dry ran
      exact .refl _
  | cleanupNonces =>
    obtain ⟨cutoff, _, rfl⟩ := cleanupNonces_ok.1 ran
    cases execute <;> exact ⟨rfl, rfl, rfl, id, .refl _⟩
  | other name =>
    obtain ⟨handler, rest, _, _, rfl⟩ := otherHandler_ok.1 ran
    exact ⟨rfl, rfl, rfl, id, .refl _⟩

lemma runHandlers_frame {txs : List Transaction}
    (ran : runHandlers A execute height txs db = .ok db')
    (hp : ∀ tx ∈ txs, tx.function.isMembershipTx = false) (hi : db.nodeSeq.isSome) :
    Frame db db' := by
  have hk : Frame db db' ∧ db'.nodeSeq.isSome := by
    refine foldlM_invariant (fun s => Frame db s ∧ s.nodeSeq.isSome) txs ?_ ⟨.refl db, hi⟩ ran
    intro tx hm s s' hh hs
    have one := processTransaction_frame hs (hp tx hm) hh.2
    exact ⟨hh.1.trans one, one.initialized hh.2⟩
  exact hk.1

lemma insertTxNonces_ok {maxVariables nonces} : db.insertTxNonces maxVariables nonces = .ok db' ↔
    nonces.length ≤ maxVariables ∧
      db' = { db with nonces := db.nonces ++ nonces.filter (· ∉ db.nonces) } := by
  unfold Db.insertTxNonces
  split
  · rename_i he
    subst he
    simpa using eq_comm
  · split
    · exact iff_of_false (by simp) fun hb => absurd hb.1 (by omega)
    · rw [Except.ok.injEq]
      exact ⟨fun hs => ⟨by omega, hs.symm⟩, fun hb => hb.2.symm⟩

/-- The handlers, then the nonce insert, then the storage view memo. -/
lemma applyBlock_ok : applyBlock A height block db = .ok db' ↔
    ∃ ran rest, runHandlers A true height block.data.transactions db = .ok ran ∧
      (bornNonces block.data.transactions).length ≤ A.maxVariables ∧
      A.recordViewTransition height ran.nodes ran.rest = .ok rest ∧
      db' = { ran with
        nonces := ran.nonces ++ (bornNonces block.data.transactions).filter (· ∉ ran.nonces)
        rest := rest } := by
  unfold applyBlock processTransactions
  simp only [bind_eq_ok, insertTxNonces_ok, pure_eq_ok]
  constructor
  · rintro ⟨_, ⟨ran, hh, few, rfl⟩, rest, hr, rfl⟩
    exact ⟨ran, rest, hh, few, hr, rfl⟩
  · rintro ⟨ran, rest, hh, few, hr, rfl⟩
    exact ⟨_, ⟨ran, hh, few, rfl⟩, rest, hr, rfl⟩

lemma decideBlock_ok : decideBlock A height block db = .ok db' ↔
    ∃ applied, applyBlock A height block db = .ok applied ∧
      db' = { applied with lastDecided := some height, decidedTip := some block.blockHash } := by
  unfold decideBlock
  simp only [bind_eq_ok, pure_eq_ok]
  exact exists_congr fun applied => and_congr_right fun _ => eq_comm

end HopNet
