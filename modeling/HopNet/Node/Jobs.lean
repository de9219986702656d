import HopNet.Node.Cleanup

namespace HopNet

open Fallible Runs List

/-- `TxMeta`, as far as it is read: the submitting node, and the signing user. -/
structure JobMeta where
  submitterNode : Int
  userId : Option Int

/-- What a handler sees: `CURRENT_TIMESTAMP`, the node's id, and whether the block is applied. -/
structure JobCtx where
  now : String
  nodeId : Option Int
  execute : Bool

/-- A creation's payload is the row that it inserts. -/
inductive JobTx where
  | createTakeout (row : TakeoutRow)
  | updateTakeoutStatus (takeoutId : CustomUUID) (newStatus : TakeoutStatus)
  | createImport (row : ImportRow)
  | updateImportStatus (importId : CustomUUID) (newStatus : ImportStatus)

/-- `ctx.work.schedule`. -/
inductive JobWork where
  | materialize (takeoutId : CustomUUID)
  | cleanup (takeoutId : CustomUUID)
deriving DecidableEq

def TakeoutStatus.Ended (status : TakeoutStatus) : Prop := status = .expired ∨ status = .cancelled
deriving Decidable

def ImportStatus.Ended (status : ImportStatus) : Prop := status = .completed ∨ status = .failed

/-- `UPDATE takeouts SET status = ? WHERE id = ?`. -/
def TakeoutRow.update (id : CustomUUID) (status : TakeoutStatus) (row : TakeoutRow) : TakeoutRow :=
  if row.id = id then { row with status } else row

def ImportRow.update (id : CustomUUID) (status : ImportStatus) (row : ImportRow) : ImportRow :=
  if row.id = id then { row with status } else row

def ImportEligible (t : NodeTables) (userId : Int) : Prop :=
  (∀ row ∈ t.imports, row.userId = userId → row.status = .failed) ∧
    ∀ inode ∈ t.drive.inodes, inode.ownerId ≠ userId
deriving Decidable

variable (tx : JobMeta)

def JobTx.process (ctx : JobCtx) (t : NodeTables) : JobTx →
  DbResult (NodeTables × List JobWork)
  | .createTakeout row => do
    require (tx.userId = some row.userId) .authorizationError
    require (row.ownerNodeId = tx.submitterNode) .authorizationError
    require ctx.nodeId.isSome .processingError
    require (¬ HasActiveTakeout ctx.now (some row.userId) t) .conflictError
    require (row.id ∉ t.takeouts.map TakeoutRow.id ∧ UserExists t.users row.userId) .insertError
    return ({ t with takeouts := t.takeouts ++ [row] },
      if ctx.execute ∧ ctx.nodeId = some row.ownerNodeId then [.materialize row.id] else [])
  | .updateTakeoutStatus id status => do
    require (id ∈ t.takeouts.map TakeoutRow.id) .recallError
    -- the owner is read back from the row, and its own node cleans up
    return ({ t with takeouts := t.takeouts.map (·.update id status) },
      if ctx.execute ∧ status.Ended ∧ ∃ row ∈ t.takeouts, row.id = id ∧
        ctx.nodeId = some row.ownerNodeId then [.cleanup id]
      else [])
  | .createImport row => do
    require (tx.userId = some row.userId) .authorizationError
    require (row.ownerNodeId = tx.submitterNode) .authorizationError
    require (ImportEligible t row.userId) .conflictError
    require (row.id ∉ t.imports.map ImportRow.id ∧ UserExists t.users row.userId) .insertError
    return ({ t with imports := t.imports ++ [row] }, [])
  | .updateImportStatus id status => do
    require (id ∈ t.imports.map ImportRow.id) .recallError
    return ({ t with imports := t.imports.map (·.update id status) }, [])

/-- A transaction of the two tables is accepted, or another leaves both. -/
inductive JobStep : NodeTables → Option (JobMeta × JobCtx × JobTx) → NodeTables → Prop
  | job {t t' work tx ctx job} :
      JobTx.process tx ctx t job = .ok (t', work) → JobStep t (some (tx, ctx, job)) t'
  | other {t t'} : t'.takeouts = t.takeouts → t'.imports = t.imports → JobStep t none t'

def JobMeta.Owns (ownerNodeId userId : Int) : Prop :=
  tx.submitterNode = ownerNodeId ∨ tx.userId = some userId
deriving Decidable

def StatusKept {α σ : Type} (id : α → CustomUUID) (status : α → σ) (May : α → Prop)
    (rows rows' : List α) : Prop :=
  ∀ row ∈ rows, ∀ row' ∈ rows', id row' = id row → status row' = status row ∨ May row

def JobMeta.MayMoveTakeout (row : TakeoutRow) : Prop :=
  tx.Owns row.ownerNodeId row.userId ∧ ¬ row.status.Ended
deriving Decidable

def JobMeta.MayMoveImport (row : ImportRow) : Prop := tx.Owns row.ownerNodeId row.userId ∧
  ¬ row.status.Ended

/-- A status changes for its owner only and never from an end; only the owner starts a cleanup. -/
def Orderly (t t' : NodeTables) (work : List JobWork) : Prop :=
  StatusKept TakeoutRow.id TakeoutRow.status tx.MayMoveTakeout t.takeouts t'.takeouts ∧
  StatusKept ImportRow.id ImportRow.status tx.MayMoveImport t.imports t'.imports ∧
  ∀ row ∈ t.takeouts, JobWork.cleanup row.id ∈ work → tx.Owns row.ownerNodeId row.userId

/-- An update of a status is the owner's and not from an end, or changes nothing; one that starts a
cleanup is the owner's. -/
def JobTx.Own (ctx : JobCtx) (t : NodeTables) : JobTx → Prop
  | .updateTakeoutStatus id status => ∀ row ∈ t.takeouts, row.id = id →
      (status = row.status ∨ tx.MayMoveTakeout row) ∧
        (ctx.execute → status.Ended → ctx.nodeId = some row.ownerNodeId →
          tx.Owns row.ownerNodeId row.userId)
  | .updateImportStatus id status => ∀ row ∈ t.imports, row.id = id → status = row.status ∨
      tx.MayMoveImport row
  | .createTakeout _ | .createImport _ => True

section

variable {α σ : Type} {id : α → CustomUUID} {status : α → σ} {May : α → Prop} {rows : List α}

lemma statusKept_map {change : α → α} (hd : (rows.map id).Nodup)
    (hk : ∀ row, id (change row) = id row) :
    StatusKept id status May rows (rows.map change) ↔
    ∀ row ∈ rows, status (change row) = status row ∨ May row := by
  constructor
  · intro h row hr
    exact h row hr (change row) (mem_map_of_mem hr) (hk row)
  · intro h row hr row' hr' hs
    obtain ⟨old, ho, rfl⟩ := mem_map.1 hr'
    rw [hk] at hs
    rw [inj_on_of_nodup_map hd ho hr hs]
    exact h row hr

lemma StatusKept.refl (hd : (rows.map id).Nodup) : StatusKept id status May rows rows := by
  intro row hr row' hr' hs
  rw [inj_on_of_nodup_map hd hr' hr hs]
  exact .inl rfl

lemma StatusKept.insert {new} (hd : (rows.map id).Nodup) (hn : id new ∉ rows.map id) :
    StatusKept id status May rows (rows ++ [new]) := by
  intro row hr row' hr' hs
  rcases mem_append.1 hr' with old | ha
  · exact StatusKept.refl hd row hr row' old hs
  · rw [mem_singleton.1 ha] at hs
    exact absurd (hs ▸ mem_map_of_mem hr) hn

end

variable {tx : JobMeta} {ctx : JobCtx} {job : JobTx} {t t' : NodeTables} {work : List JobWork}

@[simp] lemma TakeoutRow.id_update (id : CustomUUID) (status : TakeoutStatus) (row : TakeoutRow) :
    (row.update id status).id = row.id := by
  unfold TakeoutRow.update
  split_ifs <;> rfl

@[simp] lemma ImportRow.id_update (id : CustomUUID) (status : ImportStatus) (row : ImportRow) :
    (row.update id status).id = row.id := by
  unfold ImportRow.update
  split_ifs <;> rfl

/-- Both tables keep their keys apart. -/
structure JobKeys (t : NodeTables) : Prop where
  takeouts : (t.takeouts.map TakeoutRow.id).Nodup
  imports : (t.imports.map ImportRow.id).Nodup

lemma JobKeys.process (hk : JobKeys t) (ran : job.process tx ctx t = .ok (t', work)) :
    JobKeys t' ∧ (Orderly tx t t' work ↔ job.Own tx ctx t) := by
  obtain ⟨ht, hi⟩ := hk
  cases job <;> simp only [JobTx.process, require_bind, pure_eq_ok, Prod.mk.injEq] at ran
  case createTakeout row =>
    obtain ⟨_, _, _, _, hf, rfl, rfl⟩ := ran
    refine ⟨⟨by simpa [nodup_append, ht] using hf.1, hi⟩,
      iff_of_true ⟨.insert ht hf.1, .refl hi, ?_⟩ trivial⟩
    intro row _ hc
    split_ifs at hc <;> simp at hc
  case updateTakeoutStatus id status =>
    obtain ⟨_, rfl, rfl⟩ := ran
    refine ⟨⟨by simpa [Function.comp_def] using ht, hi⟩, ?_⟩
    rw [Orderly, statusKept_map ht (TakeoutRow.id_update id status),
      and_iff_right (StatusKept.refl hi), ← forall₂_and]
    refine forall₂_congr fun row hr => ?_
    by_cases hh : row.id = id
    · have how : (∃ old ∈ t.takeouts, old.id = id ∧ ctx.nodeId = some old.ownerNodeId) ↔
          ctx.nodeId = some row.ownerNodeId := by
        constructor
        · rintro ⟨old, ho, hs, h⟩
          rwa [inj_on_of_nodup_map ht ho hr (hs.trans hh.symm)] at h
        · intro h
          exact ⟨row, hr, hh, h⟩
      simp [TakeoutRow.update, hh, how]
    · simp [TakeoutRow.update, hh]
  case createImport row =>
    obtain ⟨_, _, _, hf, rfl, rfl⟩ := ran
    exact ⟨⟨ht, by simpa [nodup_append, hi] using hf.1⟩,
      iff_of_true ⟨.refl ht, .insert hi hf.1, by simp⟩ trivial⟩
  case updateImportStatus id status =>
    obtain ⟨_, rfl, rfl⟩ := ran
    refine ⟨⟨ht, by simpa [Function.comp_def] using hi⟩, ?_⟩
    rw [Orderly, and_iff_right (StatusKept.refl ht),
      statusKept_map hi (ImportRow.id_update id status), and_iff_left (by simp)]
    refine forall₂_congr fun row _ => ?_
    by_cases hh : row.id = id <;> simp [ImportRow.update, hh]

lemma jobKeys_of_reaches {past} (run : Reaches JobStep .empty past t) : JobKeys t := by
  have hs : JobKeys .empty := ⟨nodup_nil, nodup_nil⟩
  refine run.invariant_state JobKeys hs fun t event t' hk step => ?_
  cases step with
  | job ran => exact (hk.process ran).1
  | other ht hi => exact ⟨ht ▸ hk.takeouts, hi ▸ hk.imports⟩

/-- In every reachable state, an accepted transaction moves takeouts and imports only for their
owners and never from an end, and starts the owner's cleanup only for the owner, if and only if it
is such an update itself. -/
theorem status_moved_by_owner_iff (past : List (Option (JobMeta × JobCtx × JobTx)))
    (t t' : NodeTables) (tx : JobMeta)
    (ctx : JobCtx) (job : JobTx) (work : List JobWork) (run : Reaches JobStep .empty past t)
    (ha : job.process tx ctx t = .ok (t', work)) : Orderly tx t t' work ↔ job.Own tx ctx t :=
  ((jobKeys_of_reaches run).process ha).2

/-- A takeout of user 1 that is ready on node 1. -/
def readyTakeout : TakeoutRow := ⟨⟨5⟩, 1, 1, .ready, "2026-12-01", 3⟩

def readyTables : NodeTables :=
  { NodeTables.empty with users := [.sample 1], takeouts := [readyTakeout] }

lemma reaches_readyTables : Reaches JobStep .empty
    [none, some (⟨1, some 1⟩, ⟨"2026-11-01", some 1, true⟩, .createTakeout readyTakeout)]
      readyTables := by
  have ha : JobStep .empty none { NodeTables.empty with users := [.sample 1] } := .other rfl rfl
  have hc : JobTx.process ⟨1, some 1⟩ ⟨"2026-11-01", some 1, true⟩
      { NodeTables.empty with users := [.sample 1] } (.createTakeout readyTakeout) =
        .ok (readyTables, [.materialize ⟨5⟩]) := by decide +kernel
  exact .snoc (.snoc .refl ha) (.job hc)

/-- Another node, for no user at all, cancels the takeout, and the owner's node cleans it up. -/
theorem stranger_cancels_takeout : ∃ past t, Reaches JobStep .empty past t ∧
    ∃ t', (JobTx.updateTakeoutStatus ⟨5⟩ .cancelled).process ⟨2, none⟩ ⟨"2026-11-02", some 1, true⟩
      t = .ok (t', [.cleanup ⟨5⟩]) ∧ ¬ Orderly ⟨2, none⟩ t t' [.cleanup ⟨5⟩] := by
  refine ⟨_, readyTables, reaches_readyTables,
    { readyTables with takeouts := [{ readyTakeout with status := .cancelled }] }, ?_, ?_⟩
  · decide +kernel
  · intro ho
    have own := ho.2.2 readyTakeout mem_cons_self mem_cons_self
    revert own
    decide

theorem owner_cancels_takeout : ∃ t', (JobTx.updateTakeoutStatus ⟨5⟩ .cancelled).process ⟨1, none⟩
    ⟨"2026-11-02", some 1, true⟩ readyTables = .ok (t', [.cleanup ⟨5⟩]) ∧
      Orderly ⟨1, none⟩ readyTables t' [.cleanup ⟨5⟩] := by
  have ha : (JobTx.updateTakeoutStatus ⟨5⟩ .cancelled).process ⟨1, none⟩
    ⟨"2026-11-02", some 1, true⟩ readyTables =
      .ok ({ readyTables with takeouts := [{ readyTakeout with status := .cancelled }] },
        [.cleanup ⟨5⟩]) := by
    decide +kernel
  refine ⟨_, ha, (status_moved_by_owner_iff _ _ _ _ _ _ _ reaches_readyTables ha).2 ?_⟩
  intro row hr _
  rw [mem_singleton.1 hr]
  decide

end HopNet
