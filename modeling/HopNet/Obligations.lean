import HopNet.ProtectionCover
import HopNet.StorageHandlers

namespace HopNet

open Fallible Runs Option DataBlockRow Except StorageTables

/-- When a block at `height` moves a placement to `placed`: it is the declared goal, its view is on
record, and every fragment's responsible node under it was seen to hold it in the last 8192
heights. -/
structure Evidenced (P : Primitives) (t : StorageTables) (height : Nat) (b : BlobId)
    (placed : Int) : Prop where
  goal : ∃ row, t.block b = some row ∧ row.desiredPlacementHeight = placed
  attested : ∃ view, snapshotAt t (heightFromDb placed) = some view ∧
    ∀ fragment ∈ t.fragmentsOf b, ∃ node ∈ (view.assignment P b)[fragment.localIndex]?,
      ∃ row ∈ t.fragmentInventory, row.Attests fragment.fragmentHash node
        ((height : Int) - attestationRecencyHeights)

/-- Every placement moved from `t` to `t'` is evidenced in `t`. -/
def LapsesOnEvidence (P : Primitives) (height : Nat) (t t' : StorageTables) : Prop :=
  ∀ b row row', t.block b = some row → t'.block b = some row' →
    row.placementHeight ≠ row'.placementHeight →
      ∃ placed, row'.placementHeight = some placed ∧ Evidenced P t height b placed

/-- An entry of `update_placement_heights` that would move a placement has a confirmation's
evidence. -/
def Backed (P : Primitives) (height : Nat) (t : StorageTables) : StorageEvent → Prop
  | .commitPlacement b placed => ∀ row, t.block b = some row →
      row.placementHeight ≠ some (heightToDb placed) → Evidenced P t height b (heightToDb placed)
  | .insert _ _ | .declare _ | .confirm _ | .selfCheck _ | .attest _ | .delete _ | .transition _ =>
    True

/-- An entry of a block of some run, with the tables before and after it. -/
structure StoragePoint (P : Primitives) (height : Nat) (t : StorageTables) (event : StorageEvent)
    (t' : StorageTables) : Prop where
  inRun : ∃ past s block s' before after, Reaches (StorageBlockStep P) .genesis past s ∧
    StorageBlockStep P s block s' ∧ block.height = height ∧
    block.events = before ++ event :: after ∧ runEvents P height before s.tables = .ok t
  applied : event.apply P height t = .ok t'

variable {P : Primitives} {t t' : StorageTables} {height : Nat} {block : StorageBlock}

/-- Where no row changes its placement there is nothing to show. -/
lemma LapsesOnEvidence.of_unchanged
    (hs : ∀ b row row', t.block b = some row → t'.block b = some row' →
    row.placementHeight = row'.placementHeight) : LapsesOnEvidence P height t t' :=
  fun b row row' hf hf' hm => absurd (hs b row row' hf hf') hm

lemma LapsesOnEvidence.of_sameBlocks (hs : t'.dataBlocks = t.dataBlocks) :
    LapsesOnEvidence P height t t' := by
  refine .of_unchanged fun b row row' hf hf' => ?_
  rw [block, hs] at hf'
  rw [some.inj (hf.symm.trans hf')]

/-- Below 2^63 the column orders heights as they are ordered. -/
lemma EvidenceComplete.attested (low : height < 2 ^ 63) {b assigned}
    (he : EvidenceComplete t b assigned height) :
    ∀ fragment ∈ t.fragmentsOf b, ∃ node ∈ assigned[fragment.localIndex]?,
      ∃ row ∈ t.fragmentInventory, row.Attests fragment.fragmentHash node
        ((height : Int) - attestationRecencyHeights) := by
  intro fragment hb
  obtain ⟨node, hr, row, hi, hh, hn, hc, verified, hk, hre⟩ :=
    he.2 fragment hb
  rw [heightToDb_of_lt (by omega)] at hre
  exact ⟨node, hr, row, hi, hh, hn, hc, verified, hk, by omega⟩

lemma confirmOne_lapses (low : height < 2 ^ 63) (c : PlacementConfirmation) :
    LapsesOnEvidence P height t (confirmOne P height t c) := by
  rcases confirmOne_cases P t height c with hs | ⟨old, view, hc, hw⟩
  · rw [hs]
    exact .of_sameBlocks rfl
  · rw [hw]
    intro b row row' hf hf' hm
    rw [block_updateBlock_of_some (settle_id c) hf] at hf'
    have hr := some.inj hf'
    split_ifs at hr with hh
    · have same := block_eq_of_id hf hh hc.found
      subst same
      have hgo : b = c.blobId := (block_id hf).symm.trans hh
      subst hgo
      unfold settle at hr
      split_ifs at hr with goal
      · rw [← hr]
        have hg : heightFromDb (heightToDb c.height) = c.height := by
          rw [← goal, hc.goal]
        refine ⟨_, rfl, ⟨old, hf, goal⟩, view, ?_, hc.evidence.attested low⟩
        rw [hg, hc.onRecord]
      · rw [← hr] at hm
        exact absurd rfl hm
    · rw [← hr] at hm
      exact absurd rfl hm

lemma declareOne_lapses (target : PlacementTarget) :
    LapsesOnEvidence P height t (declareOne height t target) := by
  rcases declareOne_cases t height target with hs | ⟨_, _, hw⟩
  · rw [hs]
    exact .of_sameBlocks rfl
  · rw [hw]
    refine .of_unchanged fun b row row' hf hf' => ?_
    rw [block_updateBlock_of_some (retarget_id target) hf] at hf'
    rw [← some.inj hf']
    unfold retarget
    split_ifs <;> rfl

lemma deleteOrphaned_lapses (blobIds : List BlobId) :
    LapsesOnEvidence P height t (applyDeleteOrphaned blobIds t).1 := by
  refine .of_unchanged fun b row row' hf hf' => ?_
  have hk : (applyDeleteOrphaned blobIds t).1.block b = t.block b ∨
      (applyDeleteOrphaned blobIds t).1.block b = none := by
    by_cases hd : b ∈ blobIds
    · right
      simp only [block, applyDeleteOrphaned, List.find?_eq_none, List.mem_filter]
      intro row hb
      have away : row.id ∉ blobIds := by simpa using hb.2
      have ha : row.id ≠ b := fun hs => away (hs ▸ hd)
      simpa using ha
    · left
      simp only [block, applyDeleteOrphaned, List.find?_filter]
      congr 1
      funext row
      by_cases hs : row.id = b
      · simp [hs, hd]
      · simp [hs]
  cases hk with
  | inl hs => rw [some.inj (hf.symm.trans (hs.symm.trans hf'))]
  | inr hg => rw [hg] at hf'; cases hf'

lemma insert_lapses {op} (hi : Inserted t height op t') : LapsesOnEvidence P height t t' := by
  refine .of_unchanged fun b row row' hf hf' => ?_
  rw [hi.block_of_some hf] at hf'
  rw [some.inj hf']

lemma commitPlacement_lapses_iff (b : BlobId) (placed : Nat) :
    LapsesOnEvidence P height t (commitPlacement t (b, placed)) ↔
      Backed P height t (.commitPlacement b placed) := by
  have hw : ∀ {b' row}, t.block b' = some row → (commitPlacement t (b, placed)).block b' =
      some (if row.id = b then { row with placementHeight := some (heightToDb placed) } else row) :=
    fun hf => block_updateBlock_of_some (fun _ => rfl) hf
  constructor
  · intro hl row hf hm
    have hh : row.id = b := block_id hf
    have hf' := hw hf
    rw [if_pos hh] at hf'
    obtain ⟨placed', hp, he⟩ := hl b row _ hf hf' hm
    cases hp
    exact he
  · intro hb b' row row' hf hf' hm
    rw [hw hf] at hf'
    have hr := some.inj hf'
    split_ifs at hr with hh
    · rw [← hr] at hm ⊢
      have hs : b' = b := (block_id hf).symm.trans hh
      subst hs
      exact ⟨_, rfl, hb row hf hm⟩
    · rw [← hr] at hm
      exact absurd rfl hm

/-- At every entry of every run below height 2^63 obligations lapse on evidence, except where
`update_placement_heights` moves a placement without it. -/
theorem placement_lapses_iff (P : Primitives) {height : Nat} {t t' : StorageTables}
    {event : StorageEvent} (point : StoragePoint P height t event t') (low : height < 2 ^ 63) :
    LapsesOnEvidence P height t t' ↔ Backed P height t event := by
  have ha := point.applied
  cases event with
  | commitPlacement b placed =>
    rw [← ok.inj ha]
    exact commitPlacement_lapses_iff b placed
  | insert probe op => exact iff_of_true (insert_lapses (applyBlobInsert_ok ha)) trivial
  | declare target =>
    rw [← ok.inj ha]
    exact iff_of_true (declareOne_lapses target) trivial
  | confirm c =>
    rw [← ok.inj ha]
    exact iff_of_true (confirmOne_lapses low c) trivial
  | selfCheck report | attest report =>
    rw [← ok.inj ha]
    exact iff_of_true (.of_sameBlocks rfl) trivial
  | delete blobIds =>
    rw [← ok.inj ha]
    exact iff_of_true (deleteOrphaned_lapses blobIds) trivial
  | transition snapshot =>
    rw [← ok.inj ha]
    exact iff_of_true (.of_sameBlocks (recordTransition_dataBlocks height snapshot t)) trivial

/-! ### Runs on one blob -/

/-- The block step as a function, for running samples. -/
def StorageState.afterBlock (P : Primitives) (s : StorageState) (block : StorageBlock) :
    Option StorageState :=
  if s.last < block.height ∧ block.height < 2 ^ 64 then
    (applyStorageBlock P block s.tables).toOption.map fun t => ⟨t, block.height⟩
  else none

lemma StorageBlockStep.of_after {s s'}
    (haf : s.afterBlock P block = some s') : StorageBlockStep P s block s' := by
  unfold StorageState.afterBlock at haf
  split_ifs at haf with hh
  cases ha : applyStorageBlock P block s.tables with
  | error e => rw [ha] at haf; cases haf
  | ok t =>
    rw [ha] at haf
    cases haf
    exact ⟨hh.1, hh.2, ha, rfl⟩

/-- A transaction of node 1, every fragment on disk and nothing referring to a blob. -/
def sampleCall (tx : StorageTx) : StorageCall where
  env := ⟨fun _ => true, false, fun _ => false⟩
  submitter := 1
  tx := tx

/-- Node 1 stores the blob, then checks and attests every fragment of it. -/
def storedBlocks : List StorageBlock :=
  [⟨1, [sampleCall (.insertBlob sampleInsert)], soloView 1⟩,
    ⟨2, [sampleCall (.selfCheckFragments ⟨1, 1, sampleHashes, []⟩),
      sampleCall (.attestFragments ⟨1, 2, sampleHashes, []⟩)], soloView 1⟩]

def storedState : StorageState :=
  (storedBlocks.foldlM (StorageState.afterBlock .sample) .genesis).get (by decide +kernel)

lemma storedState_reached : Reaches (StorageBlockStep .sample) .genesis storedBlocks storedState :=
  .of_foldlM StorageBlockStep.of_after (some_get _).symm

/-- A block's entries are steps at its height. -/
lemma reaches_of_runEvents {events} {last : Nat} (hl : last ≤ height) (fits : height < 2 ^ 64)
    (ran : runEvents P height events t = .ok t') (hn : events ≠ []) :
    Reaches (StorageStep P) ⟨t, last⟩ (events.map fun event => (height, event)) ⟨t', height⟩ := by
  induction events generalizing t last with
  | nil => exact absurd rfl hn
  | cons event rest ih =>
    simp only [runEvents, List.foldlM_cons, bind_eq_ok] at ran
    obtain ⟨middle, hf, ho⟩ := ran
    have one : Reaches (StorageStep P) ⟨t, last⟩ [(height, event)] ⟨middle, height⟩ :=
      .snoc .refl ⟨hl, fits, hf, rfl⟩
    by_cases hr : rest = []
    · subst hr
      cases ho
      exact one
    · exact one.trans (ih le_rfl ho hr)

/-- The tables after a run of blocks are those after the run of their entries, each at its block's
height. -/
theorem blocks_run_as_entries {past s} (run : Reaches (StorageBlockStep P) .genesis past s) :
    Reaches (StorageStep P) .genesis
      (past.flatMap fun block => block.events.map fun event => (block.height, event)) s := by
  induction run with
  | refl => exact .refl
  | @snoc past s s' block _ step ih =>
    rw [List.flatMap_append, List.flatMap_singleton]
    have hs : s' = ⟨s'.tables, block.height⟩ := by rw [← step.last]
    have hn : block.events ≠ [] := by simp [StorageBlock.events]
    rw [hs]
    exact ih.trans
      (reaches_of_runEvents step.rises.le step.fits (applyStorageBlock_events step.applied) hn)

theorem stored_runs_as_entries : Reaches (StorageStep .sample) .genesis
    (storedBlocks.flatMap fun block => block.events.map fun event => (block.height, event))
      storedState :=
        blocks_run_as_entries storedState_reached

/-- The first entry of a block that follows the stored run. -/
lemma StoragePoint.after_stored {event rest t'}
    (hr : (storedState.afterBlock .sample block).isSome) (hf : block.events = event :: rest)
    (ha : event.apply .sample block.height storedState.tables = .ok t') :
    StoragePoint .sample block.height storedState.tables event t' :=
  ⟨⟨storedBlocks, storedState, block, _, [], rest, storedState_reached,
    .of_after (some_get hr).symm, rfl, hf, rfl⟩, ha⟩

def confirmBlock : StorageBlock :=
  ⟨3, [sampleCall (.confirmPlacement [⟨sampleBlob, 1⟩])], soloView 1⟩

/-- The first confirmation of the blob moves its placement, on node 1's attestations. -/
theorem confirm_lapses_on_evidence : placementPair storedState.tables sampleBlob = some (none, 1) ∧
    placementPair (confirmOne .sample 3 storedState.tables ⟨sampleBlob, 1⟩) sampleBlob =
    some (some 1, 1) ∧ LapsesOnEvidence .sample 3 storedState.tables
      (confirmOne .sample 3 storedState.tables ⟨sampleBlob, 1⟩) := by
  refine ⟨by decide +kernel, by decide +kernel, ?_⟩
  have stored : (storedState.afterBlock .sample confirmBlock).isSome := by decide +kernel
  have hp := StoragePoint.after_stored stored rfl rfl
  exact (placement_lapses_iff .sample hp (by decide)).2 trivial

/-- Node 1 writes a height that nobody declared. -/
def overwriteBlock : StorageBlock :=
  ⟨3, [sampleCall (.updatePlacementHeights [(sampleBlob, 77)])], soloView 1⟩

/-- The write is accepted: the placement is at a height that is no goal and has no view. -/
theorem overwrite_lapses_unevidenced : StoragePoint .sample 3 storedState.tables
      (.commitPlacement sampleBlob 77) (commitPlacement storedState.tables (sampleBlob, 77)) ∧
    placementPair storedState.tables sampleBlob = some (none, 1) ∧
    placementPair (commitPlacement storedState.tables (sampleBlob, 77)) sampleBlob =
    some (some 77, 1) ∧ ¬ LapsesOnEvidence .sample 3 storedState.tables
      (commitPlacement storedState.tables (sampleBlob, 77)) := by
  refine ⟨?_, by decide +kernel, by decide +kernel, ?_⟩
  · exact StoragePoint.after_stored (show (storedState.afterBlock .sample overwriteBlock).isSome by
      decide +kernel) rfl rfl
  · rw [commitPlacement_lapses_iff]
    intro hb
    have hc : (storedState.tables.block sampleBlob).map
        (fun row => (row.placementHeight, row.desiredPlacementHeight)) = some (none, 1) := by
      decide +kernel
    obtain ⟨row, hf, pair⟩ := map_eq_some_iff.1 hc
    obtain ⟨hp, hd⟩ := Prod.mk.inj pair
    have hu : row.placementHeight ≠ some (heightToDb 77) := by
      rw [hp]
      exact nofun
    obtain ⟨row', hf', hg⟩ := (hb row hf hu).goal
    have hs : row' = row := some.inj (hf'.symm.trans hf)
    rw [hs, hd] at hg
    exact absurd hg (by decide)

end HopNet
