import HopNet.StorageEvents
import HopNet.TransitionRecord

namespace HopNet

open Fallible Runs Option Except DataBlockRow

section

variable {P : Primitives} {s s' : StorageState} {label : Nat × StorageEvent} {row : DataBlockRow}
  {b : BlobId} {last : Nat}

/-- `placement_pairs` for one blob. -/
def placementPair (t : StorageTables) (blobId : BlobId) : Option (Option Nat × Nat) :=
  (t.block blobId).map fun row =>
    (row.placementHeight.map heightFromDb, heightFromDb row.desiredPlacementHeight)

/-- A goal decided by `last`, confirmed at most up to itself, in the order of the heights and of the
column. -/
structure PairInv (last : Nat) (row : DataBlockRow) : Prop where
  goal : ∃ d, row.desiredPlacementHeight = heightToDb d ∧ d ≤ last ∧ d < 2 ^ 64 ∧
    ∀ p, row.placementHeight = some p → ∃ c, p = heightToDb c ∧ c ≤ d ∧ heightToDb c ≤ heightToDb d

/-- The goal has not gone back. -/
structure Advances (row row' : DataBlockRow) : Prop where
  column : row.desiredPlacementHeight ≤ row'.desiredPlacementHeight
  height : heightFromDb row.desiredPlacementHeight ≤ heightFromDb row'.desiredPlacementHeight

lemma Advances.refl (row : DataBlockRow) : Advances row row := ⟨le_refl _, le_refl _⟩

lemma Advances.trans {a b c} (hf : Advances a b) (hs : Advances b c) : Advances a c :=
  ⟨hf.column.trans hs.column, hf.height.trans hs.height⟩

/-- The lifecycle's entries, the reports whose rows a confirmation reads, and the view memo. -/
def StorageEvent.IsLifecycle : StorageEvent → Prop
  | .insert _ _ | .declare _ | .confirm _ | .selfCheck _ | .attest _ | .transition _ => True
  | .commitPlacement _ _ | .delete _ => False

structure LifecycleStep (P : Primitives) (s : StorageState) (label : Nat × StorageEvent)
    (s' : StorageState) : Prop extends StorageStep P s label s' where
  lifecycle : label.2.IsLifecycle

structure LifecycleInv (s : StorageState) : Prop where
  keyed : RecordKeyed s.tables
  pairs : ∀ b row, s.tables.block b = some row → PairInv s.last row

lemma PairInv.mono {last'} (inv : PairInv last row) (hr : last ≤ last') : PairInv last' row := by
  obtain ⟨d, hg, low, hf, hp⟩ := inv.goal
  exact ⟨d, hg, by omega, hf, hp⟩

/-- A goal that moves rises in the column too: a transition lies between. -/
lemma Declared.retarget {t height target} (hd : Declared t height target row)
    (fits : height < 2 ^ 64) (inv : PairInv last row) :
    Advances row (row.retarget target) ∧ PairInv (max last height) (row.retarget target) := by
  obtain ⟨d, hg, low, hs, hp⟩ := inv.goal
  have hf := hd.goal
  rw [hg, heightFromDb_toDb hs] at hf
  obtain ⟨between, _, ha, upTo⟩ := hd.needed
  have hr := hd.rises
  have hde := hd.decided
  have hm : row.retarget target =
      { row with desiredPlacementHeight := heightToDb target.toHeight } := by
    rw [DataBlockRow.retarget, if_pos (by rw [hg, hf])]
  have hco : heightToDb d ≤ heightToDb target.toHeight := by rw [hf]; omega
  rw [hm]
  refine ⟨⟨by rw [hg]; exact hco, ?_⟩, target.toHeight, rfl, by omega, by omega, ?_⟩
  · rw [hg, heightFromDb_toDb hs, heightFromDb_toDb (by omega)]
    omega
  · intro p hc
    obtain ⟨c, at_, hu, hcn⟩ := hp p hc
    exact ⟨c, at_, by omega, hcn.trans hco⟩

lemma PairInv.settle {c}
    (inv : PairInv last row) (hg : heightFromDb row.desiredPlacementHeight = c.height) :
    Advances row (row.settle c) ∧ PairInv last (row.settle c) := by
  obtain ⟨d, hd, low, hs, hp⟩ := inv.goal
  rw [hd, heightFromDb_toDb hs] at hg
  have hm : row.settle c = { row with placementHeight := some (heightToDb c.height) } := by
    rw [DataBlockRow.settle, if_pos (by rw [hd, hg])]
  rw [hm]
  refine ⟨⟨le_refl _, le_refl _⟩, d, hd, low, hs, ?_⟩
  intro p hc
  cases hc
  exact ⟨c.height, rfl, by omega, by rw [hg]⟩

lemma LifecycleStep.block (ht : LifecycleStep P s label s') (inv : LifecycleInv s)
    (hf : s.tables.block b = some row) :
    ∃ row', s'.tables.block b = some row' ∧ Advances row row' ∧ PairInv s'.last row' := by
  obtain ⟨height, event⟩ := label
  have hri : s.last ≤ s'.last := by rw [ht.last]; exact ht.rises
  have hk := (inv.pairs b row hf).mono hri
  have ha := ht.applied
  cases event with
  | insert probe op =>
    exact ⟨row, (applyBlobInsert_ok ha).block_of_some hf, .refl row, hk⟩
  | transition snapshot =>
    refine ⟨row, ?_, .refl row, hk⟩
    have same : s'.tables.dataBlocks = s.tables.dataBlocks := by
      rw [← ok.inj ha]
      exact recordTransition_dataBlocks height snapshot s.tables
    rwa [StorageTables.block, same]
  | declare target =>
    have hr := ok.inj ha
    rcases declareOne_cases s.tables height target with hs | ⟨old, hd, hw⟩
    · rw [hs] at hr
      exact ⟨row, by rw [← hr]; exact hf, .refl row, hk⟩
    · rw [hw] at hr
      rw [← hr, block_updateBlock_of_some (retarget_id target) hf]
      refine ⟨_, rfl, ?_⟩
      split_ifs with hth
      · have same := block_eq_of_id hf hth hd.found
        subst same
        have hm := hd.retarget ht.fits (inv.pairs b old hf)
        rw [ht.last] at *
        exact ⟨hm.1, hm.2.mono (by omega)⟩
      · exact ⟨.refl row, hk⟩
  | confirm c =>
    have hr := ok.inj ha
    rcases confirmOne_cases P s.tables height c with hs | ⟨old, view, hc, hw⟩
    · rw [hs] at hr
      exact ⟨row, by rw [← hr]; exact hf, .refl row, hk⟩
    · rw [hw] at hr
      rw [← hr, block_updateBlock_of_some (settle_id c) hf]
      refine ⟨_, rfl, ?_⟩
      split_ifs with hth
      · have same := block_eq_of_id hf hth hc.found
        subst same
        exact hk.settle hc.goal
      · exact ⟨.refl row, hk⟩
  | commitPlacement | delete => exact absurd ht.lifecycle id
  | selfCheck report | attest report =>
    exact ⟨row, by rw [← ok.inj ha]; exact hf, .refl row, hk⟩

/-- A blob that a step creates is in flight to its block's height. -/
lemma LifecycleStep.newborn (ht : LifecycleStep P s label s') (ha : s.tables.block b = none)
    (hf : s'.tables.block b = some row) : PairInv s'.last row := by
  obtain ⟨height, event⟩ := label
  have hap := ht.applied
  cases event with
  | insert probe op =>
    obtain ⟨new, _, hu, hg, rows⟩ := (applyBlobInsert_ok hap).blocks
    unfold StorageTables.block at ha hf
    rw [rows, List.find?_append, ha, none_or] at hf
    have same : row = new := by
      have hm := List.mem_of_find?_eq_some hf
      exact List.mem_singleton.1 hm
    subst same
    exact ⟨height, hg, by rw [ht.last], ht.fits, by simp [hu]⟩
  | transition snapshot =>
    rw [← ok.inj hap, StorageTables.block, recordTransition_dataBlocks] at hf
    rw [StorageTables.block, hf] at ha
    cases ha
  | declare target =>
    have hr := ok.inj hap
    rcases declareOne_cases s.tables height target with hs | ⟨_, _, hw⟩
    · rw [← hr, hs, ha] at hf
      cases hf
    · rw [← hr, hw, block_updateBlock (retarget_id target), ha] at hf
      cases hf
  | confirm c =>
    have hr := ok.inj hap
    rcases confirmOne_cases P s.tables height c with hs | ⟨_, _, _, hw⟩
    · rw [← hr, hs, ha] at hf
      cases hf
    · rw [← hr, hw, block_updateBlock (settle_id c), ha] at hf
      cases hf
  | commitPlacement | delete => exact absurd ht.lifecycle id
  | selfCheck report | attest report =>
    rw [← ok.inj hap] at hf
    exact absurd (ha.symm.trans hf) (by simp)

lemma LifecycleStep.keyed (ht : LifecycleStep P s label s') (hk : RecordKeyed s.tables) :
    RecordKeyed s'.tables := by
  obtain ⟨height, event⟩ := label
  have ha := ht.applied
  cases event with
  | insert probe op => rwa [RecordKeyed, (applyBlobInsert_ok ha).transitions]
  | transition snapshot =>
    rw [← ok.inj ha]
    exact hk.recordTransition height snapshot
  | declare target =>
    obtain ⟨rows, hw⟩ := declareOne_frame s.tables height target
    rwa [← ok.inj ha, hw]
  | confirm c =>
    obtain ⟨rows, hw⟩ := confirmOne_frame P s.tables height c
    rwa [← ok.inj ha, hw]
  | commitPlacement | delete => exact absurd ht.lifecycle id
  | selfCheck report | attest report =>
    rw [← ok.inj ha]
    exact hk

lemma LifecycleInv.step (inv : LifecycleInv s) (ht : LifecycleStep P s label s') :
    LifecycleInv s' where
  keyed := ht.keyed inv.keyed
  pairs b row found := by
    cases hb : s.tables.block b with
    | none => exact ht.newborn hb found
    | some old =>
      obtain ⟨row', hf', _, hk⟩ := ht.block inv hb
      rw [found] at hf'
      rwa [some.inj hf']

lemma LifecycleInv.genesis : LifecycleInv .genesis where
  keyed := List.Pairwise.nil
  pairs b row found := by cases found

lemma lifecycle_of_reaches {past} (hr : Reaches (LifecycleStep P) .genesis past s) :
    LifecycleInv s :=
  hr.invariant_state LifecycleInv .genesis fun _ _ _ inv ht => inv.step ht

/-- Along any run a blob stays, and its goal never goes back. -/
lemma advances_of_reaches {later} (inv : LifecycleInv s)
    (run : Reaches (LifecycleStep P) s later s') (hfo : s.tables.block b = some row) :
    LifecycleInv s' ∧ ∃ row', s'.tables.block b = some row' ∧ Advances row row' := by
  induction run with
  | refl => exact ⟨inv, row, hfo, .refl row⟩
  | snoc _ ht ih =>
    obtain ⟨hi, middle, hf, hb⟩ := ih
    obtain ⟨row', hf', ha, _⟩ := ht.block hi hf
    exact ⟨hi.step ht, row', hf', hb.trans ha⟩

lemma PairInv.heights (inv : PairInv last row) : heightFromDb row.desiredPlacementHeight ≤ last ∧
    heightToDb (heightFromDb row.desiredPlacementHeight) = row.desiredPlacementHeight ∧
    ∀ c, row.placementHeight.map heightFromDb = some c →
      c ≤ heightFromDb row.desiredPlacementHeight ∧ heightToDb c ≤ row.desiredPlacementHeight := by
  obtain ⟨d, hg, low, hs, hp⟩ := inv.goal
  rw [hg, heightFromDb_toDb hs]
  refine ⟨low, rfl, ?_⟩
  intro c hc
  obtain ⟨p, at_, rfl⟩ := map_eq_some_iff.1 hc
  obtain ⟨c, rfl, hu, hco⟩ := hp p at_
  rw [heightFromDb_toDb (by omega)]
  exact ⟨hu, hco⟩

/-- The guard covers `node`'s copy of a class, or the record cannot answer. -/
def CoversOrUnknown (P : Primitives) (t : StorageTables) (blobId : BlobId) (placed : Option Nat)
    (desired fragmentClass : Nat) (node : Int) : Prop :=
  epochsForBlob P t blobId placed desired = none ∨
    ∃ epochs, epochsForBlob P t blobId placed desired = some epochs ∧
      (Protection.fromEpochs epochs).protects fragmentClass node false = true

/-- The pair `(placed, g)` of a blob at any point of a run, and any later point: the pair is in
order, the goal has not gone back, and while the confirmation `c` stands, whoever the view at `c`
or at the goal `g` of that earlier point makes responsible is protected. -/
theorem protection_covers_goals (P : Primitives) {past later : List (Nat × StorageEvent)}
    {s s' : StorageState} (reached : Reaches (LifecycleStep P) .genesis past s)
    (run : Reaches (LifecycleStep P) s later s') {b : BlobId} {placed : Option Nat} {g : Nat}
    (pair : placementPair s.tables b = some (placed, g)) :
    (∀ c, placed = some c → c ≤ g) ∧ g ≤ s.last ∧
    ∃ placed' d, placementPair s'.tables b = some (placed', d) ∧ g ≤ d ∧
      ∀ c, placed = some c → placed' = some c → ∀ goal, goal = c ∨ goal = g →
        ∀ view, snapshotAt s'.tables goal = some view →
          ∀ fragmentClass node, (view.assignment P b)[fragmentClass]? = some node →
            CoversOrUnknown P s'.tables b placed' d fragmentClass node := by
  have inv := lifecycle_of_reaches reached
  obtain ⟨row, hfo, hp⟩ := map_eq_some_iff.1 pair
  obtain ⟨rfl, rfl⟩ := Prod.mk.inj hp
  obtain ⟨low, hcn, hc⟩ := (inv.pairs b row hfo).heights
  obtain ⟨inv', row', hf', ha⟩ := advances_of_reaches inv run hfo
  obtain ⟨_, hco', hc'⟩ := (inv'.pairs b row' hf').heights
  refine ⟨fun c isC => (hc c isC).1, low, _, _, by rw [placementPair, hf']; rfl, ha.height, ?_⟩
  intro c isC isC' goal hw view hf fragmentClass node hr
  have hb : heightToDb c ≤ heightToDb goal ∧
      heightToDb goal ≤ heightToDb (heightFromDb row'.desiredPlacementHeight) := by
    rw [hco']
    cases hw with
    | inl hco =>
      rw [hco]
      exact ⟨le_refl _, (hc' c isC').2⟩
    | inr hg =>
      rw [hg, hcn]
      exact ⟨(hc c isC).2, ha.column⟩
  rw [CoversOrUnknown, isC']
  cases han : epochsForBlob P s'.tables b (some c)
      (heightFromDb row'.desiredPlacementHeight) with
  | none => exact .inl rfl
  | some epochs =>
    have hcd := epochsForBlob_covers P inv'.keyed hb.1 hb.2 hf han
    exact .inr ⟨epochs, rfl, Protection.protects_of_assigned hcd hr false⟩

end

def sampleBlob : BlobId := ⟨5⟩

/-- The fragment of class `i` in the one chunk of the sample blob. -/
def sampleFragment (i : Nat) : FragmentMeta where
  blobId := sampleBlob
  chunkNumber := 0
  localIndex := i
  fragmentId := ⟨BitVec.ofNat 128 i⟩
  fragmentHash := .replicate 32 (UInt8.ofNat i)
  recovery := decide (10 ≤ i)

def sampleInsert : BlobInsertOp where
  blobId := sampleBlob
  integrityHash := .replicate 32 0
  addedBytes := 0
  fileSize := 20
  fragments := (List.range 30).map sampleFragment
  access := []

def sampleHashes : List Blake3Hash := sampleInsert.fragments.map (·.fragmentHash)

/-- A view whose only member is `node`. -/
def soloView (node : Int) : ViewSnapshot := ⟨[node], [(node, 1)]⟩

/-- The blob is born and confirmed with node 1 alone; then node 2 takes over, and the goal moves to
its view. -/
def handoverEvents : List (Nat × StorageEvent) :=
  [(1, .insert (fun _ => true) sampleInsert), (1, .transition (soloView 1)),
    (2, .selfCheck ⟨1, 1, sampleHashes, []⟩), (2, .attest ⟨1, 2, sampleHashes, []⟩),
    (3, .confirm ⟨sampleBlob, 1⟩), (3, .transition (soloView 2)),
    (4, .declare ⟨sampleBlob, 1, 3⟩)]

def lifecycleAfter (P : Primitives) (s : StorageState) (label : Nat × StorageEvent) :
    Option StorageState :=
  match label.2 with
  | .commitPlacement _ _ | .delete _ => none
  | .insert _ _ | .declare _ | .confirm _ | .selfCheck _ | .attest _ | .transition _ =>
    s.after P label

lemma LifecycleStep.of_after {P s s' label}
    (ran : lifecycleAfter P s label = some s') : LifecycleStep P s label s' := by
  obtain ⟨height, event⟩ := label
  cases event <;> first | exact ⟨.of_after ran, trivial⟩ | cases ran

def handoverState : StorageState :=
  (handoverEvents.foldlM (lifecycleAfter .sample) .genesis).get (by decide +kernel)

/-- After the handover is declared, node 1's standing copies and node 2's new ones are both
protected. -/
theorem handover_protected : placementPair handoverState.tables sampleBlob = some (some 1, 3) ∧
    CoversOrUnknown .sample handoverState.tables sampleBlob (some 1) 3 29 1 ∧
    CoversOrUnknown .sample handoverState.tables sampleBlob (some 1) 3 29 2 := by
  have hr : Reaches (LifecycleStep .sample) .genesis handoverEvents handoverState :=
    .of_foldlM LifecycleStep.of_after (some_get _).symm
  have hp : placementPair handoverState.tables sampleBlob = some (some 1, 3) := by decide +kernel
  obtain ⟨_, _, placed, d, hp', _, hc⟩ := protection_covers_goals .sample hr .refl hp
  obtain ⟨rfl, rfl⟩ := Prod.mk.inj (some.inj hp')
  have old : snapshotAt handoverState.tables 1 = some (soloView 1) := by decide +kernel
  have new : snapshotAt handoverState.tables 3 = some (soloView 2) := by decide +kernel
  exact ⟨hp, hc 1 rfl rfl 1 (.inl rfl) _ old 29 1 (by decide +kernel),
    hc 1 rfl rfl 3 (.inr rfl) _ new 29 2 (by decide +kernel)⟩

end HopNet
