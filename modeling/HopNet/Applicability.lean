import HopNet.ExactlyOnce
import HopNet.Node.Jobs

namespace HopNet

open Fallible Runs List

variable {R : Type} {A : App R} {height : Nat} {tx : Transaction} {clock : Transaction → Nat → Int}

/-- Time only lifts what the projections' handlers refuse a transaction for: what passes at some
readings of the clock passes at later ones, to the same effect. -/
def App.Lapses (A : App R) : Prop :=
  ∀ name, ∀ handler ∈ A.others name, ∀ earlier later : Nat → Int, (∀ n, earlier n ≤ later n) →
    ∀ tx height view rest rest', handler earlier tx height view rest = .ok rest' →
      handler later tx height view rest = .ok rest'

/-- The functions whose phase rule the block's own writes can break. -/
def Transaction.MovesBoundary (tx : Transaction) : Prop :=
  tx.function = .regenesisStart ∨ tx.function = .regenesisAbort
deriving Decidable

def boundaryTxs (txs : List Transaction) : List Transaction :=
  txs.filter (·.MovesBoundary)

/-- The two passes side by side, the first at `clock`, the second at `A.clock`: `t` is `s` up to the
nonces a cleanup removes and the boundary row, which differs only after a boundary transaction. -/
structure Tracks (spent : Bool) (s t : Db R) : Prop where
  same : t = { s with nonces := t.nonces, regenesis := t.regenesis }
  phase : if spent then t.regenesis.isSome = !s.regenesis.isSome else t.regenesis = s.regenesis

lemma Tracks.refl (db : Db R) : Tracks false db db := ⟨rfl, rfl⟩

section

variable {spent : Bool} {tx : Transaction} {s s' t t' : Db R}

lemma nodeStagedVersion_tracks {meta_} (ran : nodeStagedVersion (A.clocked clock) meta_ s = .ok s')
    (nonces : List CustomUUID) (row : Option RegenesisRow) :
    nodeStagedVersion A meta_ { s with nonces, regenesis := row } =
      .ok { s' with nonces, regenesis := row } := by
  unfold nodeStagedVersion at ran ⊢
  simp only [bind_eq_ok, exists_require, pure_eq_ok] at ran ⊢
  obtain ⟨report, hd, own, hr, hs, one, rfl⟩ := ran
  exact ⟨report, hd, own, hr, hs, one, rfl⟩

/-- A transaction that may share its block and does not move the boundary fares alike in both. -/
lemma plain_tracks (lapses : A.Lapses) (later : ∀ n, clock tx n ≤ A.clock tx n)
    (ht : Tracks spent s t)
    (hi : s.nodeSeq.isSome) (hs : tx.function.requiresSoloBlock = false) (hst : ¬ tx.MovesBoundary)
    (dry : processTransaction (A.clocked clock) tx false height s = .ok s') :
    ∃ t', processTransaction A tx true height t = .ok t' ∧ Tracks spent s' t' := by
  obtain ⟨nonces, row, rfl⟩ : ∃ nonces row, t = { s with nonces, regenesis := row } :=
    ⟨_, _, ht.same⟩
  have hp := ht.phase
  unfold processTransaction at dry ⊢
  generalize hc : tx.function = function at dry hs ⊢
  cases function with
  | insertGenesis =>
    rw [insertGenesis_uninitialized dry] at hi
    cases hi
  | insertNode =>
    obtain ⟨node, nextId, hd, how, seq, free, ho, rfl⟩ := insertNode_ok.1 dry
    exact ⟨_, insertNode_ok.2 ⟨node, nextId, hd, how, seq, free, ho, rfl⟩, rfl, hp⟩
  | nodeStagedVersion =>
    have ran := nodeStagedVersion_tracks dry nonces row
    obtain ⟨f, _, rfl⟩ := nodeStagedVersion_ok dry
    exact ⟨_, ran, rfl, hp⟩
  | validatorActivation | validatorLeave | validatorVoteOut | regenesisCommit =>
    cases hs
  | regenesisStart => exact absurd (.inl hc) hst
  | regenesisAbort => exact absurd (.inr hc) hst
  | cleanupNonces =>
    obtain ⟨cutoff, hd, rfl⟩ := cleanupNonces_ok.1 dry
    exact ⟨_, cleanupNonces_ok.2 ⟨cutoff, hd, rfl⟩, rfl, hp⟩
  | other name =>
    obtain ⟨handler, rest, hf, ran, rfl⟩ := otherHandler_ok.1 dry
    exact ⟨_, otherHandler_ok.2 ⟨handler, rest, hf, lapses _ _ hf _ _ later _ _ _ _ _ ran, rfl⟩,
      rfl, hp⟩

lemma boundary_dry (hm : tx.MovesBoundary)
    (dry : processTransaction (A.clocked clock) tx false height s = .ok s') : s' = s := by
  unfold processTransaction at dry
  rcases hm with hc | hc
  · rw [hc] at dry
    obtain ⟨_, _, _, hs⟩ := regenesisStart_ok.1 dry
    exact hs
  · rw [hc] at dry
    obtain ⟨_, _, _, hs⟩ := regenesisAbort_ok.1 dry
    exact hs

lemma boundary_first (ht : Tracks false s t) (hm : tx.MovesBoundary)
    (dry : processTransaction (A.clocked clock) tx false height s = .ok s') :
    ∃ t', processTransaction A tx true height t = .ok t' ∧ Tracks true s' t' := by
  obtain rfl := boundary_dry hm dry
  have hp : t.regenesis = s'.regenesis := ht.phase
  obtain ⟨nonces, row, rfl⟩ : ∃ nonces row, t = { s' with nonces, regenesis := row } :=
    ⟨_, _, ht.same⟩
  unfold processTransaction at dry ⊢
  rcases hm with hc | hc
  · rw [hc] at dry ⊢
    obtain ⟨target, ha, hn, _⟩ := regenesisStart_ok.1 dry
    refine ⟨_, regenesisStart_ok.2 ⟨target, ?_, hp.trans hn, rfl⟩, rfl, ?_⟩
    · exact { ha with }
    · simp [hn]
  · rw [hc] at dry ⊢
    obtain ⟨hd, hs, ⟨present, hh, hu⟩, _⟩ := regenesisAbort_ok.1 dry
    refine ⟨_, regenesisAbort_ok.2 ⟨hd, hs, ⟨present, ?_, hu⟩, rfl⟩, rfl, ?_⟩
    · exact hp.trans hh
    · simp [hh]

/-- A second one meets the row turned over, and fails. -/
lemma boundary_again (ht : Tracks true s t) (hm : tx.MovesBoundary)
    (dry : processTransaction (A.clocked clock) tx false height s = .ok s') :
    processTransaction A tx true height t ≠ .ok t' := by
  intro ran
  have hp : t.regenesis.isSome = !s.regenesis.isSome := ht.phase
  unfold processTransaction at dry ran
  rcases hm with hc | hc
  · rw [hc] at dry ran
    obtain ⟨_, _, hn, _⟩ := regenesisStart_ok.1 dry
    obtain ⟨_, _, hn', _⟩ := regenesisStart_ok.1 ran
    simp [hn, hn'] at hp
  · rw [hc] at dry ran
    obtain ⟨_, _, ⟨_, hh, _⟩, _⟩ := regenesisAbort_ok.1 dry
    obtain ⟨_, _, ⟨_, hh', _⟩, _⟩ := regenesisAbort_ok.1 ran
    simp [hh, hh'] at hp

end

lemma boundaryTxs_cons_of {rest} (hm : tx.MovesBoundary) :
    boundaryTxs (tx :: rest) = tx :: boundaryTxs rest :=
  filter_cons_of_pos (decide_eq_true hm)

lemma boundaryTxs_cons_of_not {rest} (hs : ¬ tx.MovesBoundary) :
    boundaryTxs (tx :: rest) = boundaryTxs rest :=
  filter_cons_of_neg (by simpa using hs)

/-- Transactions that may share a block and pass the dry run apply, no earlier, exactly when they
move the boundary once at most. -/
lemma runHandlers_tracks (lapses : A.Lapses) (txs : List Transaction)
    (later : ∀ tx ∈ txs, ∀ n, clock tx n ≤ A.clock tx n)
    (hsh : ∀ tx ∈ txs, tx.function.requiresSoloBlock = false) :
    ∀ {spent : Bool} {s s' t : Db R}, Tracks spent s t → s.nodeSeq.isSome →
    runHandlers (A.clocked clock) false height txs s = .ok s' →
    ((∃ t', runHandlers A true height txs t = .ok t') ↔
      (boundaryTxs txs).length + spent.toNat ≤ 1) ∧
    ∀ t', runHandlers A true height txs t = .ok t' → ∃ spent', Tracks spent' s' t' := by
  unfold runHandlers
  -- On the transactions, with both states and whether the boundary has moved left general.
  induction txs with
  | nil =>
    intro spent s s' t ht _ dry
    obtain rfl := pure_eq_ok.1 dry
    refine ⟨iff_of_true ⟨t, rfl⟩ ?_, ?_⟩
    · cases spent <;> decide
    · intro t' ran
      obtain rfl := pure_eq_ok.1 ran
      exact ⟨spent, ht⟩
  | cons tx rest ih =>
    intro spent s s' t ht hi dry
    rw [foldlM_cons, bind_eq_ok] at dry
    obtain ⟨s₁, hf, ho⟩ := dry
    have ha := hsh tx mem_cons_self
    have hp : tx.function.isMembershipTx = false := by
      simp only [TxFunction.requiresSoloBlock, Bool.or_eq_false_iff] at ha
      exact ha.1
    have hi1 := (processTransaction_frame hf hp hi).initialized hi
    have ih' := fun {spent t} (ht1 : Tracks spent s₁ t) =>
      ih (fun tx hm => later tx (mem_cons_of_mem _ hm))
        (fun tx hm => hsh tx (mem_cons_of_mem _ hm)) ht1 hi1 ho
    by_cases hmo : tx.MovesBoundary
    · rw [boundaryTxs_cons_of hmo]
      cases spent with
      | true =>
        have hst : ∀ t', List.foldlM (fun db tx => processTransaction A tx true height db) t
            (tx :: rest) ≠ .ok t' := by
          intro t' ran
          rw [foldlM_cons, bind_eq_ok] at ran
          obtain ⟨t₁, hag, _⟩ := ran
          exact boundary_again ht hmo hf hag
        have hn : ¬ ∃ t', runHandlers A true height (tx :: rest) t = .ok t' := by
          intro he
          obtain ⟨t', ran⟩ := he
          exact hst t' ran
        exact ⟨iff_of_false hn (by simp), fun t' ran => absurd ran (hst t')⟩
      | false =>
        obtain ⟨t₁, hs, ht1⟩ := boundary_first ht hmo hf
        rw [foldlM_cons, hs]
        simpa using ih' ht1
    · rw [boundaryTxs_cons_of_not hmo]
      obtain ⟨t₁, hs, ht1⟩ := plain_tracks lapses (later tx mem_cons_self) ht hi ha hmo hf
      rw [foldlM_cons, hs]
      exact ih' ht1

/-- The next step of a mesh: its block was accepted live or by sync. -/
inductive CommittedStep (A : App R) : Db R → ChainEvent R → Db R → Prop
  | block {db db' next}
      (accepted : validateInner A next.env (db.currentHeight + 1) next.block db = .ok ())
      (clock)
      (decided : decideBlock (A.clocked clock) (db.currentHeight + 1) next.block db = .ok db') :
      CommittedStep A db (.block next) db'
  | newEpoch {db genesisHash} (sealed : db.phase = .sealed) :
      CommittedStep A db (.newEpoch genesisHash) (db.nextEpoch genesisHash)

section

variable {block : Block} {db db' : Db R}

lemma runHandlers_single {execute : Bool} :
    runHandlers A execute height [tx] db = .ok db' ↔
    processTransaction A tx execute height db = .ok db' := by
  unfold runHandlers
  rw [foldlM_cons, bind_eq_ok]
  constructor
  · intro hb
    obtain ⟨ran, hf, hl⟩ := hb
    rw [hf]
    exact hl
  · intro ran
    exact ⟨db', ran, rfl⟩

lemma Accepted.blockStep {env} (ha : Accepted A env (db.currentHeight + 1) block db)
    (hd : decideBlock (A.clocked clock) (db.currentHeight + 1) block db = .ok db') :
    BlockStep A db block db' := by
  have solo := checkSoloMembership_ok.2 ha.solo
  refine ⟨solo, ?_, clock, hd⟩
  intro tx hm hme
  obtain ⟨only, hs, _⟩ := solo_of_membership solo ⟨tx, hm, hme⟩
  obtain ⟨dry, _, hh, _⟩ := ha.dry
  rw [hs] at hm hh
  obtain rfl := mem_singleton.1 hm
  rw [runHandlers_single, processTransaction_clocked (by simp [TxFunction.requiresSoloBlock, hme])]
    at hh
  exact ⟨dry, hh⟩

lemma SeatInv.nextEpoch (inv : SeatInv db) (genesisHash : Blake3Hash) :
    SeatInv (db.nextEpoch genesisHash) :=
  { inv with }

lemma seatInv_of_committed {past db₀} (hg : IsGenesis db₀)
    (run : Reaches (CommittedStep A) db₀ past db) : SeatInv db := by
  apply run.invariant_state SeatInv hg.seatInv
  intro db event db' inv hs
  cases hs with
  | block ha clock hd => exact ((validateInner_ok ha).blockStep hd).seatInv inv
  | newEpoch => exact inv.nextEpoch _

/-- A transaction that rides alone and passes its dry run is executed; neither pass touches nodes or
projections. -/
lemma solo_executes (inv : SeatInv db) (hr : tx.function.requiresSoloBlock = true) {dry}
    (hh : processTransaction A tx false height db = .ok dry) :
    dry = db ∧ ∃ ran, processTransaction A tx true height db = .ok ran ∧
      ran.nodes = db.nodes ∧ ran.rest = db.rest := by
  by_cases hm : tx.function.isMembershipTx = true
  · obtain ⟨ran, new, he, ht⟩ := membership_execute inv hm ⟨dry, hh⟩
    refine ⟨?_, ran, he, by rw [ht.appended], by rw [ht.appended]⟩
    unfold processTransaction at hh
    generalize hc : tx.function = function at hh hm
    cases function with
    | validatorActivation =>
      exact (validatorActivation_dry hh).1
    | validatorLeave =>
      exact (validatorLeave_dry hh).1
    | validatorVoteOut =>
      exact (validatorVoteOut_dry hh).1
    | insertGenesis | insertNode | nodeStagedVersion | regenesisStart | regenesisAbort
    | regenesisCommit | cleanupNonces | other =>
      cases hm
  · have hc : tx.function = .regenesisCommit := by
      simpa [TxFunction.requiresSoloBlock, hm] using hr
    unfold processTransaction at hh ⊢
    rw [hc] at hh ⊢
    obtain ⟨same, req, hd, hs, row, hp, hu⟩ := regenesisCommit_dry hh
    refine ⟨same, db.afterCommit A row req, ?_, rfl, rfl⟩
    exact regenesisCommit_exec.2 ⟨req, row, hd, hs, hp, hu, rfl⟩

lemma boundaryTxs_solo (hr : tx.function.requiresSoloBlock = true) : boundaryTxs [tx] = [] := by
  apply boundaryTxs_cons_of_not
  intro hm
  rcases hm with hc | hc
  · rw [hc] at hr
    cases hr
  · rw [hc] at hr
    cases hr

/-- An accepted block's handlers succeed exactly when it moves the boundary at most once, and leave
the storage view what the dry run did. -/
lemma Accepted.runs {env} (lapses : A.Lapses)
    (later : ∀ tx ∈ block.data.transactions, ∀ n, env.readings tx n ≤ A.clock tx n)
    (inv : SeatInv db) (ha : Accepted A env height block db) {dry}
    (hh : runHandlers (A.clocked env.readings) false height block.data.transactions db = .ok dry) :
    ((∃ ran, runHandlers A true height block.data.transactions db = .ok ran) ↔
      (boundaryTxs block.data.transactions).length ≤ 1) ∧
    ∀ ran, runHandlers A true height block.data.transactions db = .ok ran →
      ran.nodes = dry.nodes ∧ ran.rest = dry.rest := by
  by_cases hs : ∀ tx ∈ block.data.transactions, tx.function.requiresSoloBlock = false
  · have hb := runHandlers_tracks lapses _ later hs (Tracks.refl db) inv.initialized hh
    refine ⟨hb.1, ?_⟩
    intro ran ok
    obtain ⟨_, ht⟩ := hb.2 ran ok
    rw [ht.same]
    exact ⟨rfl, rfl⟩
  · obtain ⟨tx, hsi⟩ := ha.solo.resolve_left hs
    have hri : tx.function.requiresSoloBlock = true := by
      simpa [hsi] using hs
    rw [hsi, runHandlers_single, processTransaction_clocked hri] at hh
    obtain ⟨rfl, executed, ok, hn, rest⟩ := solo_executes inv hri hh
    rw [hsi, boundaryTxs_solo hri]
    refine ⟨iff_of_true ⟨executed, runHandlers_single.2 ok⟩ (Nat.zero_le 1), ?_⟩
    intro ran hr
    have same : ran = executed := Except.ok.inj ((runHandlers_single.1 hr).symm.trans ok)
    rw [same]
    exact ⟨hn, rest⟩

end

/-- On every committed state, a block that passes `validate_inner` is applied, at readings of the
clock no earlier than those of the validation, exactly when it holds at most one boundary
transaction and no more nonces than one insert statement can bind. -/
theorem accepted_applies_iff (A : App R) (lapses : A.Lapses) {db₀ db : Db R}
    (genesis : IsGenesis db₀)
    {past : List (ChainEvent R)} (run : Reaches (CommittedStep A) db₀ past db)
    {env : ValidationEnv R} {height : Nat} {block : Block}
    (accepted : validateInner A env height block db = .ok ()) {clock : Transaction → Nat → Int}
    (later : ∀ tx ∈ block.data.transactions, ∀ n, env.readings tx n ≤ clock tx n) :
    (∃ db', applyBlock (A.clocked clock) height block db = .ok db') ↔
      (boundaryTxs block.data.transactions).length ≤ 1 ∧
      (bornNonces block.data.transactions).length ≤ A.maxVariables := by
  have hp : Accepted (A.clocked clock) env height block db := validateInner_ok accepted
  obtain ⟨dry, rest, hh, hr⟩ := hp.dry
  have runs := hp.runs (A := A.clocked clock) lapses later (seatInv_of_committed genesis run) hh
  rw [← runs.1]
  constructor
  · intro ha
    obtain ⟨db', hap⟩ := ha
    obtain ⟨ran, _, ok, few, _⟩ := applyBlock_ok.1 hap
    exact ⟨⟨ran, ok⟩, few⟩
  · intro hc
    obtain ⟨⟨ran, ok⟩, few⟩ := hc
    obtain ⟨hn, hs⟩ := runs.2 ran ok
    refine ⟨_, applyBlock_ok.2 ⟨ran, rest, ok, few, ?_, rfl⟩⟩
    rw [hn, hs]
    exact hr

/-- The handlers that read the clock, with what its readings are. -/
def App.clockReaders (reading : Int → ClockReading) (decodeTakeout : Bytes → Option TakeoutRow)
    (decodeIds : Bytes → Option (List BlobId)) : App NodeTables :=
  .sampleWith fun name =>
    if name = "create_takeout" then
      some fun readings tx _ _ t => do
        let row ← orInvalid (decodeTakeout tx.payload)
        let created ← (JobTx.createTakeout row).process ⟨tx.submitterNode, tx.userId⟩
          ⟨(reading (readings 0)).now, some 0, false⟩ t
        return created.1
    else if name = "delete_orphaned_data_blocks" then
      some fun readings tx _ _ t => do
        let ids ← orInvalid (decodeIds tx.payload)
        deleteOrphanedDataBlocks (reading (readings 0)) ids t
    else none

/-- A later reading has no earlier text and no earlier cutoff. -/
def ClockAdvances (reading : Int → ClockReading) : Prop :=
  ∀ m n, m ≤ n → ¬ textBefore (reading n).now (reading m).now ∧
    (reading m).cutoff.value ≤ (reading n).cutoff.value

section

variable {reading : Int → ClockReading} {m n : Int} {t t' : NodeTables}

lemma HasActiveTakeout.earlier (advances : ClockAdvances reading) (le : m ≤ n) {userId}
    (active : HasActiveTakeout (reading n).now userId t) :
    HasActiveTakeout (reading m).now userId t := by
  obtain ⟨row, hm, hu, before, status⟩ := active
  exact ⟨row, hm, hu, lt_of_le_of_lt (not_lt.1 (advances m n le).1) before, status⟩

lemma deleteOrphaned_later (advances : ClockAdvances reading) (le : m ≤ n) {ids}
    (ran : deleteOrphanedDataBlocks (reading m) ids t = .ok t') :
    deleteOrphanedDataBlocks (reading n) ids t = .ok t' := by
  unfold deleteOrphanedDataBlocks deleteOrphanedDataBlocksConsensus at ran ⊢
  split_ifs at ran ⊢ with none
  · exact ran
  · simp only [bind_eq_ok, exists_require, pure_eq_ok] at ran ⊢
    obtain ⟨deleted, ⟨idle, free, rfl⟩, rest⟩ := ran
    refine ⟨_, ⟨decide_eq_false fun active => ?_, fun b hm hb => decide_eq_false fun held => ?_,
      rfl⟩, rest⟩
    · exact of_decide_eq_false idle (active.earlier advances le)
    · refine of_decide_eq_false (free b hm hb) (held.imp_right (Or.imp_right ?_))
      rintro ⟨op, ho, names, young⟩
      exact ⟨op, ho, names, Nat.lt_of_le_of_lt (advances m n le).2 young⟩

/-- The gates on running takeouts and on recent edits open with time. -/
lemma clockReaders_lapses (advances : ClockAdvances reading)
    (decodeTakeout : Bytes → Option TakeoutRow) (decodeIds : Bytes → Option (List BlobId)) :
    (App.clockReaders reading decodeTakeout decodeIds).Lapses := by
  intro name handler hf earlier later le tx height view t t' ran
  simp only [App.clockReaders, App.sampleWith, Option.mem_def] at hf
  split_ifs at hf
  · cases hf
    simp only [JobTx.process, bind_eq_ok, orInvalid_eq_ok, exists_require, pure_eq_ok] at ran ⊢
    obtain ⟨row, hd, created, ⟨user, owner, known, idle, new, rfl⟩, rfl⟩ := ran
    exact ⟨row, hd, _, ⟨user, owner, known, fun active => idle (active.earlier advances (le 0)),
      new, rfl⟩, rfl⟩
  · cases hf
    simp only [bind_eq_ok, orInvalid_eq_ok] at ran ⊢
    obtain ⟨ids, hd, ran⟩ := ran
    exact ⟨ids, hd, deleteOrphaned_later advances (le 0) ran⟩

end

/-- The first of December until time 5, and then the fifth. -/
def twoDays (time : Int) : ClockReading :=
  if time < 5 then ⟨"2026-12-01", ⟨0⟩, 0⟩ else ⟨"2026-12-05", ⟨0⟩, 0⟩

lemma twoDays_advances : ClockAdvances twoDays := by
  intro m n le
  unfold twoDays
  split_ifs <;> first | decide +kernel | omega

/-- User 0's takeouts expire on the third. -/
def App.takeoutSample : App NodeTables :=
  .clockReaders twoDays (fun payload => payload.head?.map fun b =>
    ⟨⟨BitVec.ofNat 128 b.toNat⟩, 0, 0, .pending, "2026-12-03", 0⟩) fun _ => none

def takeoutGenesis : Db NodeTables :=
  { sampleGenesis with rest := { NodeTables.empty with users := [.sample 0] } }

def takeoutBlock : Block := sampleBlock takeoutGenesis [sampleTx "create_takeout" [1] true 1]
def takenOut : Db NodeTables := afterBlock .takeoutSample takeoutGenesis takeoutBlock
def takeoutAgain : Block :=
  sampleBlock takenOut [sampleTx "create_takeout" [2] true 2,
    sampleTx "regenesis_start" [1] false 3]

def takeoutEnv (now : Int) : ValidationEnv NodeTables :=
  { sampleEnv now with membershipCheck := fun _ _ => .ok () }

theorem takeoutAgain_applied :
    ∃ db', applyBlock (App.takeoutSample.clocked fun _ _ => 7) 2 takeoutAgain takenOut =
      .ok db' := by
  have run : Reaches (CommittedStep .takeoutSample) takeoutGenesis
      [.block ⟨takeoutEnv 0, takeoutBlock⟩] takenOut :=
        .snoc .refl (.block (by decide +kernel) (fun _ _ => 0) rfl)
  have accepted : validateInner .takeoutSample (takeoutEnv 6) 2 takeoutAgain takenOut = .ok () := by
    decide +kernel
  exact (accepted_applies_iff _ (clockReaders_lapses twoDays_advances _ _)
    ⟨⟨0, rfl, _, mem_cons_self, rfl⟩, rfl, rfl⟩
    run accepted fun _ _ _ => show (6 : Int) ≤ 7 by decide).2 (by decide)

def startTwice : Block :=
  sampleBlock sampleGenesis [sampleTx "regenesis_start" [1] false 1,
    sampleTx "regenesis_start" [1] false 2]

/-- Node 0 has started one, and aborts it twice in one block. -/
def started : Db Unit :=
  afterBlock .sample sampleGenesis
    (sampleBlock sampleGenesis [sampleTx "regenesis_start" [1] false 1])

def abortTwice : Block :=
  sampleBlock started [sampleTx "regenesis_abort" [] false 2, sampleTx "regenesis_abort" [] false 3]

/-- Both blocks pass validation, where no handler has written yet, and fail to apply. A block that
is validated when a takeout has expired fails where the clock is behind. -/
theorem boundaryTwice_not_applied :
    (validateInner .sample (sampleEnv 0) 1 startTwice sampleGenesis = .ok () ∧
      applyBlock .sample 1 startTwice sampleGenesis = .error .processingError) ∧
    (validateInner .sample (sampleEnv 0) 2 abortTwice started = .ok () ∧
      applyBlock .sample 2 abortTwice started = .error .processingError) ∧
    validateInner .takeoutSample (takeoutEnv 6) 2 takeoutAgain takenOut = .ok () ∧
      applyBlock (App.takeoutSample.clocked fun _ _ => 4) 2 takeoutAgain takenOut =
        .error .conflictError :=
          ⟨⟨by decide, rfl⟩, ⟨by decide, rfl⟩, by decide +kernel, rfl⟩

end HopNet
