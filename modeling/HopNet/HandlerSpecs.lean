import HopNet.Handlers

namespace HopNet

open Fallible Db Option

variable {R : Type} {A : App R} {tx : TxMeta} {db db' : Db R} {execute : Bool}

/-- The shape of an activation batch, checked in both passes. -/
def ActivationShape (members : List Int) : Prop :=
  members ≠ [] ∧ members.length ≤ bMax ∧ members.IsChain (· < ·)

lemma validatorActivation_dry (ran : validatorActivation A tx false db = .ok db') :
    db' = db ∧ ∃ members, A.decodeActivation tx.payload = some members ∧
      ActivationShape members ∧ Seated tx db ∧
      ∀ m ∈ members, (∃ n ∈ db.nodes, n.nodeId = m) ∧
        isNodeActive db m db.currentHeight = false := by
  unfold validatorActivation at ran
  simp only [bind_eq_ok, orInvalid_eq_ok, exists_require, Bool.false_eq_true,
    if_false, pure_eq_ok, Bool.not_eq_true] at ran
  obtain ⟨members, hd, hsh, hs, _, hc, rfl⟩ := ran
  have he := forM_eq_ok.1 hc
  simp only [bind_eq_ok, require_eq_ok, exists_const] at he
  exact ⟨rfl, members, hd, hsh, hs, he⟩

lemma validatorActivation_exec : validatorActivation A tx true db = .ok db' ↔
    ∃ members, A.decodeActivation tx.payload = some members ∧ ActivationShape members ∧
      members.foldlM (fun db' m => activateValidator db' m db.currentHeight) db = .ok db' := by
  unfold validatorActivation
  simp only [bind_eq_ok, orInvalid_eq_ok, exists_require, if_true, ActivationShape]

lemma validatorLeave_dry (ran : validatorLeave A tx false db = .ok db') :
    db' = db ∧ A.decodeLeave tx.payload = some tx.submitterNode ∧
      Seated tx db ∧ 2 ≤ countActiveValidators db db.currentHeight := by
  unfold validatorLeave at ran
  simp only [bind_eq_ok, orInvalid_eq_ok, exists_require, Bool.false_eq_true,
    if_false, pure_eq_ok] at ran
  obtain ⟨nodeId, hd, rfl, hs, hf, rfl⟩ := ran
  exact ⟨rfl, hd, hs, hf⟩

lemma validatorLeave_exec : validatorLeave A tx true db = .ok db' ↔
    A.decodeLeave tx.payload = some tx.submitterNode ∧
      deactivateValidator db tx.submitterNode db.currentHeight .voluntary = .ok db' := by
  unfold validatorLeave
  simp only [bind_eq_ok, orInvalid_eq_ok, exists_require, if_true]
  constructor
  · rintro ⟨nodeId, hd, rfl, hw⟩
    exact ⟨hd, hw⟩
  · rintro ⟨hd, hw⟩
    exact ⟨tx.submitterNode, hd, rfl, hw⟩

lemma validatorVoteOut_dry (ran : validatorVoteOut A tx false db = .ok db') :
    db' = db ∧ ∃ nodeId, A.decodeVoteOut tx.payload = some nodeId ∧ nodeId ≠ tx.submitterNode ∧
      isNodeActive db nodeId db.currentHeight = true ∧ Seated tx db := by
  unfold validatorVoteOut at ran
  simp only [bind_eq_ok, orInvalid_eq_ok, exists_require, Bool.false_eq_true,
    if_false, pure_eq_ok] at ran
  obtain ⟨nodeId, hd, ha, ht, hs, rfl⟩ := ran
  exact ⟨rfl, nodeId, hd, ha, ht, hs⟩

lemma validatorVoteOut_exec : validatorVoteOut A tx true db = .ok db' ↔
    ∃ nodeId, A.decodeVoteOut tx.payload = some nodeId ∧ nodeId ≠ tx.submitterNode ∧
      deactivateValidator db nodeId db.currentHeight .votedOut = .ok db' := by
  unfold validatorVoteOut
  simp only [bind_eq_ok, orInvalid_eq_ok, exists_require, if_true]

/-- What `regenesis_start` checks in both passes, the phase apart. -/
structure StartAllowed (A : App R) (tx : TxMeta) (db : Db R) (target : Nat) : Prop where
  decoded : A.decodeStart tx.payload = some target
  seated : Seated tx db
  valid : codeIsValid target
  staged : ∀ v ∈ getValidators db db.currentHeight, Staged db v.nodeId target

lemma regenesisStart_ok : regenesisStart A tx execute db = .ok db' ↔
    ∃ target, StartAllowed A tx db target ∧ db.regenesis = none ∧
      db' = if execute then { db with regenesis := some ⟨false, target, none, none⟩ } else db := by
  unfold regenesisStart requireSeated
  simp only [bind_eq_ok, orInvalid_eq_ok, exists_require]
  have hn : db.phase = .normal ↔ db.regenesis = none := by
    unfold phase
    cases db.regenesis with
    | none => simp
    | some row => cases hse : row.sealed <;> simp [hse]
  constructor
  · rintro ⟨target, hd, hs, hv, hp, hst, hw⟩
    refine ⟨target, ⟨hd, hs, hv, hst⟩, hn.1 hp, ?_⟩
    cases execute with
    | true =>
      simp only [if_true, setMoratorium, hn.1 hp, Except.ok.injEq] at hw
      exact hw.symm
    | false =>
      simp only [Bool.false_eq_true, if_false, pure_eq_ok] at hw
      exact hw.symm
  · rintro ⟨target, ha, hab, rfl⟩
    refine ⟨target, ha.decoded, ha.seated, ha.valid, hn.2 hab, ha.staged, ?_⟩
    cases execute with
    | true => simp [setMoratorium, hab]
    | false => simp

lemma phase_eq_moratorium_iff :
    db.phase = .moratorium ↔ ∃ row, db.regenesis = some row ∧ row.sealed = false := by
  unfold phase
  cases db.regenesis with
  | none => simp
  | some row => cases hs : row.sealed <;> simp [hs]

lemma regenesisAbort_ok : regenesisAbort A tx execute db = .ok db' ↔
    (A.decodeAbort tx.payload).isSome ∧
      Seated tx db ∧
      (∃ row, db.regenesis = some row ∧ row.sealed = false) ∧
      db' = if execute then { db with regenesis := none } else db := by
  unfold regenesisAbort requireSeated
  simp only [bind_eq_ok, orInvalid_eq_ok, exists_require, phase_eq_moratorium_iff]
  constructor
  · rintro ⟨_, hd, hs, ⟨row, hp, ho⟩, hw⟩
    refine ⟨by simp [hd], hs, ⟨row, hp, ho⟩, ?_⟩
    cases execute with
    | true =>
      simp only [if_true, clearToNormal, hp, Except.ok.injEq] at hw
      exact hw.symm
    | false =>
      simp only [Bool.false_eq_true, if_false, pure_eq_ok] at hw
      exact hw.symm
  · rintro ⟨hd, hs, ⟨row, hp, ho⟩, rfl⟩
    refine ⟨(), eq_some_of_isSome hd, hs, ⟨row, hp, ho⟩, ?_⟩
    cases execute with
    | true => simp [clearToNormal, hp]
    | false => simp

lemma regenesisCommit_dry (ran : regenesisCommit A tx false db = .ok db') :
    db' = db ∧ ∃ req, A.decodeCommit tx.payload = some req ∧
      Seated tx db ∧ ∃ row, db.regenesis = some row ∧ row.sealed = false := by
  unfold regenesisCommit requireSeated at ran
  simp only [bind_eq_ok, orInvalid_eq_ok, exists_require, phase_eq_moratorium_iff,
    Bool.false_eq_true, if_false, pure_eq_ok] at ran
  obtain ⟨req, hd, hs, ho, rfl⟩ := ran
  exact ⟨rfl, req, hd, hs, ho⟩

/-- The epoch sealed and the two markers written, nothing else. -/
def Db.afterCommit (A : App R) (db : Db R) (row : RegenesisRow) (req : RegenesisCommit) : Db R :=
  let marked := { db with
    regenesis := some ⟨true, row.targetVersionCode, some req.snapshotHash, some req.sealHeight⟩
    sealedAt := some req.sealHeight }
  { marked with dissentAt :=
    if A.artifactHash marked ≠ req.snapshotHash then some req.sealHeight else db.dissentAt }

lemma regenesisCommit_exec : regenesisCommit A tx true db = .ok db' ↔
    ∃ req row, A.decodeCommit tx.payload = some req ∧
      Seated tx db ∧
      db.regenesis = some row ∧ row.sealed = false ∧ db' = db.afterCommit A row req := by
  unfold regenesisCommit requireSeated afterCommit
  simp only [bind_eq_ok, orInvalid_eq_ok, exists_require, phase_eq_moratorium_iff, if_true]
  constructor
  · rintro ⟨req, hd, hs, ⟨row, hp, ho⟩, db₁, hse, hw⟩
    simp only [setSealed, hp, ho, Bool.false_eq_true, if_false, Except.ok.injEq] at hse
    subst hse
    refine ⟨req, row, hd, hs, hp, ho, ?_⟩
    split at hw
    · rename_i hdi
      rw [if_pos hdi]
      exact (pure_eq_ok.1 hw).symm
    · rename_i same
      rw [if_neg same]
      exact (pure_eq_ok.1 hw).symm
  · rintro ⟨req, row, hd, hs, hp, ho, rfl⟩
    refine ⟨req, hd, hs, ⟨row, hp, ho⟩,
      { db with
        regenesis := some ⟨true, row.targetVersionCode, some req.snapshotHash,
          some req.sealHeight⟩ }, ?_, ?_⟩
    · simp [setSealed, hp, ho]
    · split <;> rfl

lemma cleanupNonces_ok : cleanupNonces A tx execute db = .ok db' ↔
    ∃ cutoff, A.decodeCutoff tx.payload = some cutoff ∧
      db' = if execute then db.cleanupOldNonces cutoff else db := by
  unfold cleanupNonces
  simp only [bind_eq_ok, orInvalid_eq_ok]
  refine exists_congr fun cutoff => and_congr_right fun _ => ?_
  cases execute with
  | true | false => simpa using eq_comm

lemma insertNodeTx_ok {node result} : insertNodeTx A node db = .ok result ↔
    ∃ nextId, db.nodeSeq = some nextId ∧
      (∀ n ∈ db.nodes, n.nodeId ≠ nextId ∧ n.pubkey ≠ node.pubkey) ∧
      (A.userKey db.rest node.owner).isSome ∧
      result = ((nextId : Int), { db with
        nodes := db.nodes ++ [⟨nextId, node.name, node.owner, node.pubkey, none, none, none⟩]
        nodeSeq := some (nextId + 1) }) := by
  unfold insertNodeTx
  cases db.nodeSeq with
  | none => simp
  | some nextId =>
    simp only [require_bind, pure_eq_ok, some.injEq, exists_eq_left', and_assoc]
    exact ⟨fun ran => ⟨ran.1, ran.2.1, ran.2.2.symm⟩, fun ran => ⟨ran.1, ran.2.1, ran.2.2.symm⟩⟩

lemma insertNode_ok : insertNode A tx db = .ok db' ↔
    ∃ node nextId, A.decodeNode tx.payload = some node ∧ tx.userId = some node.owner ∧
      db.nodeSeq = some nextId ∧
      (∀ n ∈ db.nodes, n.nodeId ≠ nextId ∧ n.pubkey ≠ node.pubkey) ∧
      (A.userKey db.rest node.owner).isSome ∧
      db' = { db with
        nodes := db.nodes ++ [⟨nextId, node.name, node.owner, node.pubkey, none, none, none⟩]
        nodeSeq := some (nextId + 1) } := by
  unfold insertNode
  simp only [bind_eq_ok, orInvalid_eq_ok, exists_require, insertNodeTx_ok, pure_eq_ok]
  constructor
  · rintro ⟨node, hd, ho, _, _, ⟨nextId, seq, hf, how, rfl⟩, rfl⟩
    exact ⟨node, nextId, hd, ho, seq, hf, how, rfl⟩
  · rintro ⟨node, nextId, hd, ho, seq, hf, how, rfl⟩
    exact ⟨node, hd, ho, fun n hm => (hf n hm).2, _, ⟨nextId, seq, hf, how, rfl⟩, rfl⟩

lemma otherHandler_ok {readings height} : otherHandler A tx readings height db = .ok db' ↔
    ∃ handler rest, A.others tx.function = some handler ∧
      handler readings tx height db.view db.rest = .ok rest ∧ db' = { db with rest } := by
  unfold otherHandler
  cases A.others tx.function with
  | none => simp
  | some handler =>
    simp only [bind_eq_ok, pure_eq_ok, some.injEq]
    constructor
    · rintro ⟨rest, ran, rfl⟩
      exact ⟨handler, rest, rfl, ran, rfl⟩
    · rintro ⟨_, rest, rfl, ran, rfl⟩
      exact ⟨rest, ran, rfl⟩

end HopNet
