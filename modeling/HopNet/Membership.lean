import HopNet.Lib.Runs
import HopNet.Validate

namespace HopNet

open Fallible Runs List

variable {R : Type} {A : App R} {db db' : Db R} {height : Nat} {n : Int}

/-- What a genesis transaction leaves: one validator, seated at height 0. -/
structure IsGenesis (db : Db R) : Prop where
  seat : ∃ g, db.validators = [⟨0, g, true, none⟩] ∧ ∃ n ∈ db.nodes, n.nodeId = g
  decided : db.lastDecided = some 0
  initialized : db.nodeSeq.isSome

/-- The next block: of solo shape, its membership transactions pass the `execute = false` checks
before it, and it is decided. -/
structure BlockStep (A : App R) (db : Db R) (block : Block) (db' : Db R) : Prop where
  solo : checkSoloMembership block.data.transactions = .ok ()
  dry : ∀ tx ∈ block.data.transactions, tx.function.isMembershipTx = true →
    ∃ same, processTransaction A tx false (db.currentHeight + 1) db = .ok same
  decided : ∃ clock, decideBlock (A.clocked clock) (db.currentHeight + 1) block db = .ok db'

/-- The rows of every reachable state. Only at height 0 is there a row at the decided height: the
genesis seat. -/
structure SeatInv (db : Db R) : Prop where
  keyed : RowsKeyed db.validators
  behind : (∃ g, db.validators = [⟨0, g, true, none⟩] ∧ db.currentHeight = 0) ∨
    ∀ r ∈ db.validators, r.effectiveHeight < db.currentHeight
  floor : ∃ n, isNodeActive db n db.currentHeight = true
  registered : ∀ r ∈ db.validators, ∃ n ∈ db.nodes, n.nodeId = r.nodeId
  initialized : db.nodeSeq.isSome

namespace SeatInv

lemma le (inv : SeatInv db) : ∀ r ∈ db.validators, r.effectiveHeight ≤ db.currentHeight := by
  intro r hm
  rcases inv.behind with ⟨g, hr, _⟩ | hb
  · rw [hr] at hm
    obtain rfl := mem_singleton.1 hm
    exact Nat.zero_le _
  · exact Nat.le_of_lt (hb r hm)

lemma free (inv : SeatInv db) (hm : isNodeActive db n db.currentHeight = false ∨
      ∃ other ≠ n, isNodeActive db other db.currentHeight = true) :
    ∀ r ∈ db.validators, ¬ (r.nodeId = n ∧ r.effectiveHeight = db.currentHeight) := by
  intro r hme ht
  rcases inv.behind with ⟨g, hr, hz⟩ | hb
  · unfold isNodeActive at hm
    rw [hr] at hme hm
    obtain rfl := mem_singleton.1 hme
    have hs : ∀ m, rowActive [⟨0, g, true, none⟩] m db.currentHeight = decide (g = m) := by
      intro m
      by_cases hse : g = m <;> simp [rowActive, Timeline.latest, hse]
    rw [hs] at hm
    rcases hm with hi | ⟨other, hap, ha⟩
    · exact of_decide_eq_false hi ht.1
    · rw [hs] at ha
      exact hap ((of_decide_eq_true ha).symm.trans ht.1)
  · have hbe := hb r hme
    omega

end SeatInv

lemma IsGenesis.seatInv (hg : IsGenesis db) : SeatInv db := by
  obtain ⟨g, hr, hk⟩ := hg.seat
  have hh : db.currentHeight = 0 := by rw [Db.currentHeight, hg.decided]; rfl
  refine ⟨?_, .inl ⟨g, hr, hh⟩, ⟨g, ?_⟩, ?_, hg.initialized⟩
  · rw [hr]
    exact pairwise_singleton _ _
  · rw [isNodeActive, hr]
    simp [rowActive, Timeline.latest]
  · intro r hm
    rw [hr] at hm
    obtain rfl := mem_singleton.1 hm
    exact hk

/-- An activation batch inserts one row per member and moves none. -/
lemma activate_all (members : List Int) (hd : members.Nodup) : ∀ {db : Db R},
    db.currentHeight = height → (∀ r ∈ db.validators, r.effectiveHeight ≤ height) →
    (∀ m ∈ members, ∀ r ∈ db.validators, ¬ (r.nodeId = m ∧ r.effectiveHeight = height)) →
    members.foldlM (fun db m => activateValidator db m height) db = .ok { db with
      validators := db.validators ++ members.map fun m => ⟨height, m, true, none⟩ } := by
  induction members with
  | nil =>
    simp [pure, Except.pure]
  | cons m rest ih =>
    intro db hh hb free
    obtain ⟨hf, hd'⟩ := nodup_cons.1 hd
    have hi : activateValidator db m height =
        .ok { db with validators := db.validators ++ [⟨height, m, true, none⟩] } := by
      rw [activateValidator_eq_insertRow (hh ▸ hb)]
      exact insertRow_ok.2 ⟨free m mem_cons_self, rfl⟩
    have ho := ih hd'
      (show Db.currentHeight { db with
        validators := db.validators ++ [⟨height, m, true, none⟩] } = height from hh)
    rw [foldlM_cons, hi]
    change rest.foldlM _ _ = _
    rw [ho]
    · simp [append_assoc]
    · exact forall_mem_append.2 ⟨hb, forall_mem_singleton.2 (Nat.le_refl _)⟩
    · intro m' hr r hm ht
      rcases mem_append.1 hm with old | new
      · exact free m' (mem_cons_of_mem m hr) r old ht
      · obtain rfl := mem_singleton.1 new
        have hs : m = m' := ht.1
        exact hf (hs ▸ hr)

/-- Rows are appended at the decided height, each turns its node's seat over, and a seated node is
left alone. -/
structure Transition (db db' : Db R) (new : List ValidatorRow) : Prop where
  appended : db' = { db with validators := db.validators ++ new }
  some_row : new ≠ []
  atHeight : ∀ r ∈ new, r.effectiveHeight = db.currentHeight
  keyed : RowsKeyed (db.validators ++ new)
  registered : ∀ r ∈ new, ∃ n ∈ db.nodes, n.nodeId = r.nodeId
  turned : ∀ r ∈ new, isNodeActive db r.nodeId db.currentHeight = !r.isActive
  survivor : ∃ n, isNodeActive db n db.currentHeight = true ∧ ∀ r ∈ new, r.nodeId ≠ n

lemma SeatInv.registered_of_active (inv : SeatInv db)
    (hac : isNodeActive db n height = true) : ∃ node ∈ db.nodes, node.nodeId = n := by
  obtain ⟨r, ha, rfl⟩ := (rowActive_iff inv.keyed n height).1 hac
  exact inv.registered r (mem_filter.1 ha).1

/-- Leave and vote-out write one row; another seated node makes it safe. -/
lemma deactivate_transition (inv : SeatInv db) {other} (kind : DepartureKind)
    (ha : isNodeActive db n db.currentHeight = true) (hap : other ≠ n)
    (hs : isNodeActive db other db.currentHeight = true) :
    ∃ db', deactivateValidator db n db.currentHeight kind = .ok db' ∧
      Transition db db' [⟨db.currentHeight, n, false, some kind⟩] := by
  have hf := inv.free (.inr ⟨other, hap, hs⟩)
  refine ⟨_, insertRow_ok.2 ⟨hf, rfl⟩, rfl, by simp, by simp,
    keyed_append_singleton inv.keyed hf, ?_, ?_, other, hs, ?_⟩
  · intro r hm
    obtain rfl := mem_singleton.1 hm
    exact inv.registered_of_active ha
  · intro r hm
    obtain rfl := mem_singleton.1 hm
    exact ha
  · intro r hm
    obtain rfl := mem_singleton.1 hm
    exact hap.symm

lemma activation_transition (inv : SeatInv db) {members} (hn : members ≠ [])
    (hin : members.IsChain (· < ·)) {submitter}
    (hse : isNodeActive db submitter db.currentHeight = true)
    (he : ∀ m ∈ members, (∃ n ∈ db.nodes, n.nodeId = m) ∧
      isNodeActive db m db.currentHeight = false) :
    ∃ db', members.foldlM (fun db' m => activateValidator db' m db.currentHeight) db = .ok db' ∧
      Transition db db' (members.map fun m => ⟨db.currentHeight, m, true, none⟩) := by
  have hd : members.Nodup := (isChain_iff_pairwise.1 hin).imp ne_of_lt
  have hf : ∀ m ∈ members, ∀ r ∈ db.validators,
      ¬ (r.nodeId = m ∧ r.effectiveHeight = db.currentHeight) :=
    fun m hm => inv.free (.inl (he m hm).2)
  refine ⟨_, activate_all members hd rfl inv.le hf, rfl, by simpa using hn,
    by simp, ?_, ?_, ?_, submitter, hse, ?_⟩
  · refine pairwise_append.2 ⟨inv.keyed, ?_, ?_⟩
    · rw [pairwise_map]
      exact hd.imp fun ha same => ha same.1
    · intro a hr b hne
      obtain ⟨m, hm, rfl⟩ := mem_map.1 hne
      exact hf m hm a hr
  · intro r hne
    obtain ⟨m, hm, rfl⟩ := mem_map.1 hne
    exact (he m hm).1
  · intro r hne
    obtain ⟨m, hm, rfl⟩ := mem_map.1 hne
    simpa using (he m hm).2
  · intro r hne same
    obtain ⟨m, hm, rfl⟩ := mem_map.1 hne
    have hs : m = submitter := same
    have hi := (he m hm).2
    rw [hs, hse] at hi
    cases hi

/-- The `execute = true` pass of a membership transaction that passed succeeds. -/
lemma membership_execute (inv : SeatInv db) {tx} (hm : tx.function.isMembershipTx = true)
    (dry : ∃ same, processTransaction A tx false height db = .ok same) :
    ∃ db' new, processTransaction A tx true height db = .ok db' ∧ Transition db db' new := by
  obtain ⟨same, dry⟩ := dry
  unfold processTransaction at dry ⊢
  generalize hc : tx.function = function at dry hm ⊢
  cases function with
  | validatorActivation =>
    obtain ⟨_, members, hd, hsh, hs, he⟩ := validatorActivation_dry dry
    obtain ⟨db', ran, ht⟩ := activation_transition inv hsh.1 hsh.2.2 hs he
    exact ⟨db', _, validatorActivation_exec.2 ⟨members, hd, hsh, ran⟩, ht⟩
  | validatorLeave =>
    obtain ⟨_, hd, hs, two⟩ := validatorLeave_dry dry
    obtain ⟨other, ha, hsu⟩ := exists_other_active inv.keyed two tx.txMeta.submitterNode
    obtain ⟨db', ran, ht⟩ := deactivate_transition inv .voluntary hs ha hsu
    exact ⟨db', _, validatorLeave_exec.2 ⟨hd, ran⟩, ht⟩
  | validatorVoteOut =>
    obtain ⟨_, n, hd, ha, hta, hs⟩ := validatorVoteOut_dry dry
    obtain ⟨db', ran, ht⟩ :=
      deactivate_transition inv .votedOut hta ha.symm hs
    exact ⟨db', _, validatorVoteOut_exec.2 ⟨n, hd, ha, ran⟩, ht⟩
  | insertGenesis | insertNode | nodeStagedVersion | regenesisStart | regenesisAbort
  | regenesisCommit | cleanupNonces | other =>
    cases hm

def Block.HasMembership (block : Block) : Prop :=
  ∃ tx ∈ block.data.transactions, tx.function.isMembershipTx = true
deriving Decidable

lemma solo_of_membership {block : Block}
    (solo : checkSoloMembership block.data.transactions = .ok ()) (has : block.HasMembership) :
    ∃ tx, block.data.transactions = [tx] ∧ tx.function.isMembershipTx = true := by
  obtain ⟨tx, hme, hm⟩ := has
  rcases checkSoloMembership_ok.1 solo with hn | ⟨only, hs⟩
  · have hr : tx.function.requiresSoloBlock = true := by
      simp [TxFunction.requiresSoloBlock, hm]
    rw [hn tx hme] at hr
    cases hr
  · rw [hs] at hme
    obtain rfl := mem_singleton.1 hme
    exact ⟨tx, hs, hm⟩

/-- What one block does to the rows and to the registered nodes. -/
inductive RowsAfter (db : Db R) (block : Block) (db' : Db R) : Prop
  | transition (ran : Db R) (new : List ValidatorRow) (has : block.HasMembership)
      (transition : Transition db ran new) (rows : db'.validators = db.validators ++ new)
      (nodes : db'.nodes = db.nodes) (seq : db'.nodeSeq = db.nodeSeq)
  | plain (none : ¬ block.HasMembership) (rows : db'.validators = db.validators)
      (nodes : EntriesKept db.nodes db'.nodes) (seq : db'.nodeSeq.isSome)

namespace BlockStep

variable {block : Block}

lemma lastDecided (hs : BlockStep A db block db') :
    db'.lastDecided = some (db.currentHeight + 1) := by
  obtain ⟨_, decided⟩ := hs.decided
  obtain ⟨applied, _, rfl⟩ := decideBlock_ok.1 decided
  rfl

lemma currentHeight (hs : BlockStep A db block db') : db'.currentHeight = db.currentHeight + 1 := by
  rw [Db.currentHeight, hs.lastDecided, Option.getD_some]

lemma rowsAfter (inv : SeatInv db) (step : BlockStep A db block db') : RowsAfter db block db' := by
  obtain ⟨_, decided⟩ := step.decided
  obtain ⟨applied, ha, rfl⟩ := decideBlock_ok.1 decided
  obtain ⟨ran, rest, hh, _, _, rfl⟩ := applyBlock_ok.1 ha
  by_cases has : block.HasMembership
  · obtain ⟨tx, hs, hm⟩ := solo_of_membership step.solo has
    have dry := step.dry tx (by simp [hs]) hm
    obtain ⟨wrote, new, he, ht⟩ := membership_execute inv hm dry
    have same : ran = wrote := by
      rw [hs, runHandlers, foldlM_cons,
        processTransaction_clocked (by simp [TxFunction.requiresSoloBlock, hm]), he] at hh
      exact (Except.ok.inj hh).symm
    subst same
    have hw := ht.appended
    exact .transition ran new has ht (by rw [hw]) (by rw [hw]) (by rw [hw])
  · have hp : ∀ tx ∈ block.data.transactions, tx.function.isMembershipTx = false := by
      intro tx hme
      by_contra hm
      exact has ⟨tx, hme, by simpa using hm⟩
    have hf := runHandlers_frame hh hp inv.initialized
    exact .plain has hf.validators hf.nodes (hf.initialized inv.initialized)

lemma seatInv (inv : SeatInv db) (step : BlockStep A db block db') : SeatInv db' := by
  have hh := step.currentHeight
  have hb : ∀ r ∈ db.validators, r.effectiveHeight < db'.currentHeight := by
    intro r hm
    have hbo := inv.le r hm
    omega
  have hl : ∀ n, rowActive db.validators n db'.currentHeight =
      rowActive db.validators n db.currentHeight :=
    fun n => rowActive_eq_of_le (fun r hm => Nat.le_of_lt (hb r hm)) inv.le
  cases step.rowsAfter inv with
  | transition ran new has transition hr hno seq =>
    obtain ⟨n, hs, hu⟩ := transition.survivor
    refine ⟨hr ▸ transition.keyed, .inr ?_, ⟨n, ?_⟩, ?_, seq ▸ inv.initialized⟩
    · intro r hm
      rw [hr] at hm
      rcases mem_append.1 hm with old | hn
      · exact hb r old
      · have ha := transition.atHeight r hn
        omega
    · rw [isNodeActive, hr, rowActive_append_of_ne hu, hl n]
      exact hs
    · intro r hm
      rw [hr] at hm
      rw [hno]
      rcases mem_append.1 hm with old | hn
      · exact inv.registered r old
      · exact transition.registered r hn
  | plain none hr hno seq =>
    obtain ⟨n, hs⟩ := inv.floor
    refine ⟨hr ▸ inv.keyed, .inr (hr ▸ hb), ⟨n, ?_⟩, ?_, seq⟩
    · rw [isNodeActive, hr, hl n]
      exact hs
    · intro r hm
      rw [hr] at hm
      exact hno.registered (inv.registered r hm)

end BlockStep

lemma seatInv_of_reaches {past db₀} (hg : IsGenesis db₀)
    (run : Reaches (BlockStep A) db₀ past db) : SeatInv db :=
  run.invariant_state SeatInv hg.seatInv fun _ _ _ inv hs => hs.seatInv inv

/-- Over every run from genesis: rows are never ahead of the decided height, the set is never
empty at the pending height, and the next block's membership transaction, if it passes the
checks, is written without a collision and without moving a row. -/
theorem membership_run_safe (A : App R) {db₀ : Db R} (genesis : IsGenesis db₀) {past : List Block}
    (run : Reaches (BlockStep A) db₀ past db) :
    (∀ r ∈ db.validators, r.effectiveHeight ≤ db.currentHeight) ∧
    1 ≤ countActiveValidators db (db.currentHeight + 1) ∧
    ∀ block : Block, checkSoloMembership block.data.transactions = .ok () →
      (∀ tx ∈ block.data.transactions, tx.function.isMembershipTx = true →
        ∃ same, processTransaction A tx false (db.currentHeight + 1) db = .ok same) →
      ∀ tx ∈ block.data.transactions, tx.function.isMembershipTx = true →
        ∃ db' new, runHandlers A true (db.currentHeight + 1) block.data.transactions db = .ok db' ∧
          db'.validators = db.validators ++ new := by
  have inv := seatInv_of_reaches genesis run
  refine ⟨inv.le, ?_, ?_⟩
  · obtain ⟨n, hse⟩ := inv.floor
    have hp : rowActive db.validators n (db.currentHeight + 1) = true := by
      rw [rowActive_eq_of_le (fun r hme => Nat.le_succ_of_le (inv.le r hme)) inv.le]
      exact hse
    exact count_pos_of_active inv.keyed hp
  · intro block solo dry tx hme hm
    obtain ⟨only, hs, _⟩ := solo_of_membership solo ⟨tx, hme, hm⟩
    rw [hs] at hme
    obtain rfl := mem_singleton.1 hme
    obtain ⟨db', new, he, ht⟩ :=
      membership_execute inv hm (dry tx (by simp [hs]) hm)
    refine ⟨db', new, ?_, by rw [ht.appended]⟩
    rw [hs, runHandlers, foldlM_cons, he]
    rfl

/-- The state a decided block leaves, for running the model. -/
def afterBlock (A : App R) (db : Db R) (block : Block) : Db R :=
  match decideBlock A (db.currentHeight + 1) block db with
  | .ok db' => db'
  | .error _ => db

/-- Node 0 seated by genesis under the key `1…1`. -/
def sampleGenesis : Db Unit where
  validators := [⟨0, 0, true, none⟩]
  nodes := [⟨0, "node", 0, .replicate 32 1, some 20260801, none, some 0⟩]
  nodeSeq := some 1
  lastDecided := some 0
  decidedTip := none
  nonces := []
  regenesis := none
  sealedAt := none
  dissentAt := none
  rest := ()

lemma sampleGenesis_isGenesis : IsGenesis sampleGenesis :=
  ⟨⟨0, rfl, _, mem_cons_self, rfl⟩, rfl, rfl⟩

/-- A transaction of node 0, with user 0's signature where one is given. -/
def sampleTx (function : String) (payload : Bytes) (byUser : Bool) (nonce : Nat) : Transaction where
  rpc := ⟨function, payload⟩
  submitter := ⟨0, Primitives.sampleSign (.replicate 32 1)⟩
  user := if byUser then some ⟨0, Primitives.sampleSign (.replicate 32 9)⟩ else none
  nonce := ⟨BitVec.ofNat 128 nonce⟩

/-- The next block over `db`, under its own hash. -/
def sampleBlock (db : Db R) (txs : List Transaction) : Block :=
  let data : BlockData := ⟨db.currentHeight + 1, 0, db.decidedTip, txs⟩
  ⟨match data.computeHash .sample with | .ok hash => hash | .error _ => .replicate 32 0, data⟩

/-- Block 1 registers node 1 and block 2 seats it. -/
def registerNode : Block := sampleBlock sampleGenesis [sampleTx "insert_node" [2] true 1]
def registered : Db Unit := afterBlock .sample sampleGenesis registerNode
def seatNode : Block := sampleBlock registered [sampleTx "validator_activation" [1] false 2]
def seatedTwo : Db Unit := afterBlock .sample registered seatNode

lemma registerNode_step : BlockStep .sample sampleGenesis registerNode registered := by
  refine ⟨by decide, ?_, fun _ _ => 0, rfl⟩
  intro tx hme hm
  obtain rfl := mem_singleton.1 hme
  exact absurd hm (by decide)

lemma seatNode_step : BlockStep .sample registered seatNode seatedTwo := by
  refine ⟨by decide, ?_, fun _ _ => 0, rfl⟩
  intro tx hm _
  obtain rfl := mem_singleton.1 hm
  exact ⟨registered, rfl⟩

theorem membership_run_safe_seatedTwo :
    1 ≤ countActiveValidators seatedTwo 3 ∧ countActiveValidators seatedTwo 3 = 2 :=
  ⟨(membership_run_safe .sample sampleGenesis_isGenesis
    (.snoc (.snoc .refl registerNode_step) seatNode_step)).2.1, by decide⟩

end HopNet
