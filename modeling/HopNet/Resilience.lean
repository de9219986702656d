import HopNet.Lib.Table
import HopNet.StorageDb
import Mathlib.Algebra.Order.BigOperators.Group.List
import Mathlib.Data.Finset.Card
import Mathlib.Data.Finset.Fold
import Mathlib.Data.Rat.Floor

namespace HopNet

open List StorageTables
open Int (ofNat ofNat_injective)

/-- The columns of a node's baseline that the curve is made from. -/
structure NodeStorageBaseline where
  nodeId : Int
  storageTotalGb : ℚ
  baselineStorageGb : ℚ
deriving DecidableEq

structure FaultToleranceCurvePoint where
  userDataGb : ℚ
  activeNodes : Nat
  nodesCanFail : Int
  participatingNodes : List NodeStorageBaseline

def NodeStorageBaseline.available (ratio : ℚ) (node : NodeStorageBaseline) : ℚ :=
  node.storageTotalGb * ratio - node.baselineStorageGb

open NodeStorageBaseline Extremes

/-- A block has thirty fragments, spread evenly, and any ten rebuild it. -/
def calculateFaultTolerance (nodes : Nat) : Int :=
  if nodes = 0 then 0
  else
    let fragmentsPerNode : ℚ := 30 / nodes
    let minNodesNeeded := ⌈10 / fragmentsPerNode⌉
    max 0 (min 20 (nodes - minNodesNeeded))

def curvePoint (userDataGb : ℚ) (current : List NodeStorageBaseline) : FaultToleranceCurvePoint :=
  ⟨userDataGb, current.length, calculateFaultTolerance current.length, current⟩

/-- The nodes with more room than the threshold. -/
def retainAbove (ratio threshold : ℚ) (current : List NodeStorageBaseline) :
    List NodeStorageBaseline :=
  current.filter fun node => threshold < node.available ratio

/-- The loop of `generate_fault_tolerance_curve`: the nodes with least room fill up and leave. -/
def fillNext (ratio : ℚ) (current : List NodeStorageBaseline) (total : ℚ) :
    List FaultToleranceCurvePoint :=
  match hn : leastBy (available ratio) current with
  | none => []
  | some next =>
    let threshold := next.available ratio
    let filled := total + threshold / 3 * current.length
    let rest := retainAbove ratio threshold current
    curvePoint filled rest :: fillNext ratio rest filled
termination_by current.length
decreasing_by
  have hm := (mem_argmin_iff.1 (Option.mem_def.2 hn)).1
  exact length_filter_lt_length_iff_exists.2 ⟨next, hm, by simp⟩

variable (nodes : List NodeStorageBaseline)

def viableNodes (ratio : ℚ) : List NodeStorageBaseline :=
  nodes.filter fun node => 0 < node.available ratio

def generateFaultToleranceCurve (ratio : ℚ) : List FaultToleranceCurvePoint :=
  let viable := viableNodes nodes ratio
  if viable = [] then [⟨0, 0, 0, []⟩] else curvePoint 0 viable :: fillNext ratio viable 0

def capacityAtTolerance (curve : List FaultToleranceCurvePoint) (minTolerance : Int) : ℚ :=
  (((curve.find? (·.nodesCanFail < minTolerance)).or curve.getLast?).map
    FaultToleranceCurvePoint.userDataGb).getD 0

section

variable {viable : List NodeStorageBaseline} {ratio level : ℚ} {p : FaultToleranceCurvePoint}
  {curve : List FaultToleranceCurvePoint} {first : NodeStorageBaseline}

/-- The largest room among the nodes that are full at a point of the curve. -/
def fullLevel (ratio : ℚ) (viable : List NodeStorageBaseline) (p : FaultToleranceCurvePoint) : ℚ :=
  (viable.filter fun node => node ∉ p.participatingNodes).toFinset.fold max 0 (available ratio)

/-- What nodes filled to one level, or to their own room, hold. -/
def heldAt (ratio : ℚ) (viable : List NodeStorageBaseline) (level : ℚ) : ℚ :=
  (viable.map fun node => min (node.available ratio) level).sum

/-- Each byte of user data is stored three times: the nodes hold what every point says, the curve
has one direction, and the capacity at a tolerance can be held. -/
structure CapacityExists (ratio : ℚ) (viable : List NodeStorageBaseline)
    (curve : List FaultToleranceCurvePoint) : Prop where
  held : ∀ p ∈ curve, 3 * p.userDataGb = heldAt ratio viable (fullLevel ratio viable p)
  total : ∀ p ∈ curve, 3 * p.userDataGb ≤ (viable.map (available ratio)).sum
  monotone : curve.Pairwise fun p q => p.userDataGb ≤ q.userDataGb ∧ q.nodesCanFail ≤ p.nodesCanFail
  capacity : ∀ minTolerance, ∃ level ≥ 0, 3 * capacityAtTolerance curve minTolerance =
    heldAt ratio viable level

lemma fullLevel_le {c} (h0 : 0 ≤ c)
    (hc : ∀ node ∈ viable, node ∉ p.participatingNodes → node.available ratio ≤ c) :
    fullLevel ratio viable p ≤ c :=
  (Finset.fold_max_le c).2 ⟨h0, by simpa using hc⟩

lemma le_fullLevel {c}
    (hc : c ≤ 0 ∨ ∃ node ∈ viable, node ∉ p.participatingNodes ∧ c ≤ node.available ratio) :
    c ≤ fullLevel ratio viable p :=
  (Finset.le_fold_max c).2 (by simpa [and_assoc] using hc)

lemma mem_retainAbove {a node} :
    node ∈ retainAbove ratio a viable ↔ node ∈ viable ∧ a < node.available ratio := by
  simp [retainAbove]

lemma fillNext_cons {total} (hn : leastBy (available ratio) viable = some first) :
    let rest := retainAbove ratio (first.available ratio) viable
    let filled := total + first.available ratio / 3 * viable.length
    fillNext ratio viable total = curvePoint filled rest :: fillNext ratio rest filled := by
  rw [fillNext]
  split
  · next hs => cases hs.symm.trans hn
  · next hs =>
      cases hs.symm.trans hn
      rfl

lemma exists_least (ratio : ℚ) (hne : viable ≠ []) :
    ∃ first ∈ viable, leastBy (available ratio) viable = some first ∧
      ∀ node ∈ viable, first.available ratio ≤ node.available ratio := by
  cases hn : leastBy (available ratio) viable with
  | none => exact absurd (argmin_eq_none.1 hn) hne
  | some first =>
    have hl := mem_argmin_iff.1 (Option.mem_def.2 hn)
    exact ⟨first, hl.1, rfl, hl.2.1⟩

/-- Up to level `b`, a node with room for at most `a` holds at most `a`. -/
lemma heldAt_le_of_level (a : ℚ) {b} (hb : level ≤ b) :
    heldAt ratio viable level ≤
      a * viable.length + (b - a) * (retainAbove ratio a viable).length := by
  unfold heldAt retainAbove
  induction viable with
  | nil => simp
  | cons node rest ih =>
    rw [map_cons, sum_cons, length_cons, filter_cons]
    by_cases hl : a < node.available ratio
    · have hm : min (node.available ratio) level ≤ b := (min_le_right _ _).trans hb
      simp only [hl, decide_true, ↓reduceIte, length_cons, Nat.cast_add, Nat.cast_one]
      linarith
    · have hm : min (node.available ratio) level ≤ a := (min_le_left _ _).trans (not_lt.1 hl)
      simp only [hl, decide_false, Bool.false_eq_true, ↓reduceIte, Nat.cast_add, Nat.cast_one]
      linarith

lemma heldAt_of_le (hl : ∀ node ∈ viable, level ≤ node.available ratio) :
    heldAt ratio viable level = level * viable.length := by
  unfold heldAt
  rw [map_congr_left fun node hm => min_eq_right (hl node hm), map_const', sum_replicate,
    nsmul_eq_mul, mul_comm]

/-- The second node to fill is counted from nothing, though it holds what filled the first. -/
lemma retainAbove_eq_nil (hpos : ∀ node ∈ viable, 0 < node.available ratio) (hf : first ∈ viable)
    (hn : leastBy (available ratio) viable = some first)
    (held : ∀ p ∈ fillNext ratio viable 0, 3 * p.userDataGb = heldAt ratio viable
      (fullLevel ratio viable p)) :
    retainAbove ratio (first.available ratio) viable = [] := by
  by_contra hr
  obtain ⟨second, hs, hn', _⟩ := exists_least ratio hr
  obtain ⟨hv, hab⟩ := mem_retainAbove.1 hs
  rw [fillNext_cons hn, fillNext_cons hn'] at held
  have hp := held _ (mem_cons_of_mem _ mem_cons_self)
  have hle :=
    hp.trans_le (heldAt_le_of_level (first.available ratio) (fullLevel_le (hpos second hv).le ?_))
  · have hlen : (0 : ℚ) < (retainAbove ratio (first.available ratio) viable).length := by
      exact_mod_cast length_pos_iff.2 hr
    have hprod := mul_pos (hpos first hf) hlen
    simp only [curvePoint] at hle
    linarith
  · intro node hm hout
    by_contra hl
    have hlt := not_le.1 hl
    exact hout (mem_retainAbove.2 ⟨mem_retainAbove.2 ⟨hm, hab.trans hlt⟩, hlt⟩)

lemma CapacityExists.of_held (hne : curve ≠ [])
    (held : ∀ p ∈ curve, 3 * p.userDataGb = heldAt ratio viable (fullLevel ratio viable p))
    (monotone : curve.Pairwise fun p q => p.userDataGb ≤ q.userDataGb ∧
      q.nodesCanFail ≤ p.nodesCanFail) :
    CapacityExists ratio viable curve where
  held := held
  total p hp := (held p hp).trans_le (sum_le_sum fun _ _ => min_le_left _ _)
  monotone := monotone
  capacity minTolerance := by
    have hc : ∃ p ∈ curve, capacityAtTolerance curve minTolerance = p.userDataGb := by
      unfold capacityAtTolerance
      cases hf : curve.find? fun p => p.nodesCanFail < minTolerance with
      | some p => exact ⟨p, mem_of_find?_eq_some hf, rfl⟩
      | none =>
        rw [getLast?_eq_some_getLast hne]
        exact ⟨_, getLast_mem hne, rfl⟩
    obtain ⟨p, hp, hc⟩ := hc
    exact ⟨_, le_fullLevel (.inl le_rfl), hc ▸ held p hp⟩

lemma available_pos {nodes} : ∀ node ∈ viableNodes nodes ratio, 0 < node.available ratio := by
  simp [viableNodes]

lemma CapacityExists.same_available {nodes} (he : CapacityExists ratio (viableNodes nodes ratio)
      (generateFaultToleranceCurve nodes ratio)) :
    ∀ m ∈ viableNodes nodes ratio, ∀ n ∈ viableNodes nodes ratio,
      m.available ratio = n.available ratio := by
  by_cases hne : viableNodes nodes ratio = []
  · simp [hne]
  obtain ⟨first, hf, hn, hleast⟩ := exists_least ratio hne
  have held := he.held
  rw [generateFaultToleranceCurve, if_neg hne] at held
  have hr := retainAbove_eq_nil available_pos hf hn fun p hp => held p (mem_cons_of_mem _ hp)
  have hs : ∀ n ∈ viableNodes nodes ratio, n.available ratio = first.available ratio := by
    intro n hm
    refine le_antisymm (not_lt.1 fun hlt => ?_) (hleast n hm)
    have hk := mem_retainAbove.2 ⟨hm, hlt⟩
    rw [hr] at hk
    cases hk
  intro m hm n hn
  rw [hs m hm, hs n hn]

/-- The curve counts a node from nothing at each point, so what it advertises can be held if and
only if all nodes fill up at once. -/
theorem capacity_exists_iff (nodes : List NodeStorageBaseline) (ratio : ℚ) :
    CapacityExists ratio (viableNodes nodes ratio) (generateFaultToleranceCurve nodes ratio) ↔
      ∀ m ∈ viableNodes nodes ratio, ∀ n ∈ viableNodes nodes ratio,
        m.available ratio = n.available ratio := by
  refine ⟨CapacityExists.same_available, fun same => ?_⟩
  have hpos : ∀ node ∈ viableNodes nodes ratio, 0 < node.available ratio := available_pos
  unfold generateFaultToleranceCurve
  generalize viableNodes nodes ratio = viable at same hpos
  by_cases hne : viable = []
  · simp only [hne, ↓reduceIte]
    exact .of_held (by simp) (by simp [heldAt]) (by simp)
  obtain ⟨first, hf, hn, _⟩ := exists_least ratio hne
  have hr : retainAbove ratio (first.available ratio) viable = [] :=
    filter_eq_nil_iff.2 fun node hm => by simp [same first hf node hm]
  have hempty : fullLevel ratio viable (curvePoint 0 viable) = 0 :=
    le_antisymm (fullLevel_le le_rfl fun _ hm hout => absurd hm hout) (le_fullLevel (.inl le_rfl))
  have hfull : ∀ user, fullLevel ratio viable (curvePoint user []) =
      first.available ratio := fun _ =>
    le_antisymm (fullLevel_le (hpos first hf).le fun node hm _ => (same node hm first hf).le)
      (le_fullLevel (.inr ⟨first, hf, not_mem_nil, le_rfl⟩))
  rw [if_neg hne, fillNext_cons hn, hr, fillNext]
  refine .of_held (cons_ne_nil _ _) (fun p hp => ?_) ?_
  · rcases mem_cons.1 hp with rfl | hp
    · rw [hempty, heldAt_of_le fun node hm => (hpos node hm).le]
      simp [curvePoint]
    · cases mem_singleton.1 hp
      rw [hfull, heldAt_of_le fun node hm => (same first hf node hm).le]
      simp only [curvePoint]
      ring
  · refine pairwise_pair.2 ⟨?_, ?_⟩
    · have hfill := hpos first hf
      simp only [curvePoint]
      positivity
    · simp only [curvePoint, calculateFaultTolerance, length_nil, ↓reduceIte]
      split_ifs
      · exact le_rfl
      · exact le_max_left _ _

/-- A node with room for 10 and one with room for 20: the curve ends at a third of 40. -/
theorem capacity_missing : ¬ CapacityExists 1 (viableNodes [⟨1, 10, 0⟩, ⟨2, 20, 0⟩] 1)
    (generateFaultToleranceCurve [⟨1, 10, 0⟩, ⟨2, 20, 0⟩] 1) := by
  intro he
  have hs := he.same_available ⟨1, 10, 0⟩ (by simp [viableNodes, available]) ⟨2, 20, 0⟩
    (by simp [viableNodes, available])
  norm_num [available] at hs

end

namespace StorageTables

variable (t : StorageTables) (block : BlobId)

/-- `resilience_block_node`: a node's attestations of a block's fragments. -/
def onNode (node : Int) : Nat :=
  ((t.fragmentHashes.filter (·.fragment.blobId = block)).map fun row =>
    t.fragmentInventory.countP fun i => i.fragmentHash = row.fragment.fragmentHash ∧
      i.nodeId = node).sum

def holders : List Int :=
  (t.fragmentInventory.map InventoryRow.nodeId).dedup.filter fun node => 0 < t.onNode block node

/-- `resilience_block_k`: the originals of all chunks of a block. -/
def blockK : Nat :=
  t.fragmentHashes.countP fun row => row.fragment.blobId = block ∧ row.fragment.recovery = false

variable (members : List Int)

/-- The counts of the members, the largest holders first. -/
def ranked (block : BlobId) : List Nat :=
  (((t.holders block).filter (· ∈ members)).map (t.onNode block)).insertionSort (· ≥ ·)

/-- The most members that can be lost in this order with `k` left. -/
def tolerance (k : Nat) (ranked : List Nat) : Int :=
  (((range ranked.length).filter fun rank => k ≤ (ranked.drop rank).sum).getLast?.map ofNat).getD
    (-1)

/-- The level at which `resilience_level_rows` counts a block. -/
def faultToleranceLevel (block : BlobId) : Int :=
  if t.holders block = [] then -2
  else if t.blockK block = 0 ∨ t.ranked members block = [] then -1
  else if (t.ranked members block).sum < t.blockK block then -1
  else tolerance (t.blockK block) (t.ranked members block)

/-- The rows of a chunk's fragments. -/
def chunkRows (block : BlobId) (chunk : Nat) : List FragmentRow :=
  t.fragmentHashes.filter fun row => row.fragment.blobId = block ∧ row.fragment.chunkNumber = chunk

def originals (block : BlobId) (chunk : Nat) : Nat :=
  (t.chunkRows block chunk).countP (·.fragment.recovery = false)

/-- One of the nodes attests the fragment. -/
def HeldBy (nodes : List Int) (row : FragmentRow) : Prop :=
  ∃ i ∈ t.fragmentInventory, i.fragmentHash = row.fragment.fragmentHash ∧ i.nodeId ∈ nodes
deriving Decidable

/-- The fragments of a chunk that one of the nodes attests. -/
def attested (nodes : List Int) (block : BlobId) (chunk : Nat) : Nat :=
  (t.chunkRows block chunk).countP fun row => t.HeldBy nodes row

/-- A block at a level can be rebuilt after the loss of that many members. -/
def NeverOptimistic : Prop :=
  ∀ block ∈ t.dataBlocks, ∀ lost : List Int, lost ⊆ members → lost.Nodup →
    t.faultToleranceLevel members block.id = lost.length →
      ∀ chunk, t.originals block.id chunk ≤ t.attested (members.filter (· ∉ lost)) block.id chunk

/-- By the counts of the whole block, the largest holders can be lost. -/
def CanLose (block : BlobId) (losses : Nat) : Prop :=
  0 < t.blockK block ∧ losses < (t.ranked members block).length ∧
    t.blockK block ≤ ((t.ranked members block).drop losses).sum
deriving Decidable

/-- Every group of attested fragments that a chunk cannot do without is spread over more members
than can be lost. -/
def Spread : Prop :=
  ∀ block ∈ t.dataBlocks, ∀ losses, t.CanLose members block.id losses → ∀ chunk group,
    group <+ (t.chunkRows block.id chunk).filter (fun row => t.HeldBy members row) →
      t.attested members block.id chunk < t.originals block.id chunk + group.length →
        losses < (members.dedup.filter fun node => ∃ row ∈ group, t.HeldBy [node] row).length

/-- What the members with most of a chunk's fragments hold of it. -/
def mostHeld (block : BlobId) (chunk losses : Nat) : Nat :=
  let held := fun node => t.attested [node] block chunk
  (((byLargest held members.dedup).take losses).map held).sum

/-- Every chunk has its originals beyond what the members with most of its fragments hold. -/
def Spared : Prop :=
  ∀ block ∈ t.dataBlocks, ∀ losses ∈ range (t.ranked members block.id).length,
    t.CanLose members block.id losses → ∀ chunk ∈ t.fragmentHashes.map (·.fragment.chunkNumber),
      t.originals block.id chunk ≤
        t.attested members block.id chunk - t.mostHeld members block.id chunk losses
deriving Decidable

/-- No two members attest one fragment. -/
def Uncopied : Prop :=
  ∀ i ∈ t.fragmentInventory, ∀ j ∈ t.fragmentInventory, i.fragmentHash = j.fragmentHash →
    i.nodeId ∈ members → j.nodeId ∈ members → i.nodeId = j.nodeId
deriving Decidable

variable {t : StorageTables} {members lost a b : List Int} {block : BlobId}
  {losses level chunk : Nat} {row : FragmentRow}

lemma CanLose.of_level (hl : t.faultToleranceLevel members block = level) :
    t.CanLose members block level := by
  unfold faultToleranceLevel at hl
  split_ifs at hl with _ hk
  unfold tolerance at hl
  cases hg : ((range (t.ranked members block).length).filter fun rank =>
      t.blockK block ≤ ((t.ranked members block).drop rank).sum).getLast? with
  | none =>
    rw [hg] at hl
    cases hl
  | some rank =>
    rw [hg] at hl
    cases hl
    obtain ⟨hr, hs⟩ := mem_filter.1 (mem_of_getLast? hg)
    exact ⟨Nat.pos_of_ne_zero (not_or.1 hk).1, mem_range.1 hr, by simpa using hs⟩

lemma CanLose.exists_level (can : t.CanLose members block losses) :
    ∃ level : Nat, losses ≤ level ∧ t.faultToleranceLevel members block = level := by
  obtain ⟨hk, hl, hs⟩ := can
  have hm : losses ∈ (range (t.ranked members block).length).filter fun rank =>
      t.blockK block ≤ ((t.ranked members block).drop rank).sum := by simp [hl, hs]
  have hne := ne_nil_of_mem hm
  have sorted := (pairwise_le_range (n := (t.ranked members block).length)).filter fun rank =>
    t.blockK block ≤ ((t.ranked members block).drop rank).sum
  refine ⟨_, sorted.rel_getLast hm, ?_⟩
  have hr : t.ranked members block ≠ [] := ne_nil_of_length_pos (by omega)
  have hh : t.holders block ≠ [] := fun hn => hr (by simp [ranked, hn])
  have hsum : t.blockK block ≤ (t.ranked members block).sum :=
    hs.trans ((drop_sublist _ _).sum_le_sum fun _ _ => Nat.zero_le _)
  rw [faultToleranceLevel, if_neg hh, if_neg (by simp [hk.ne', hr]), if_neg hsum.not_gt, tolerance,
    getLast?_eq_some_getLast hne]
  rfl

lemma CanLose.lt_members (can : t.CanLose members block losses) :
    losses < members.dedup.length := by
  have hs : ((t.holders block).filter (· ∈ members)) <+~ members.dedup :=
    (((nodup_dedup _).filter _).filter _).subperm fun node hm => by simpa using (mem_filter.1 hm).2
  have hl := can.2.1
  rw [ranked, length_insertionSort, length_map] at hl
  exact hl.trans_le hs.length_le

lemma HeldBy.mono (hs : a ⊆ b) (held : t.HeldBy a row) : t.HeldBy b row := by
  obtain ⟨i, hi, hash, hm⟩ := held
  exact ⟨i, hi, hash, hs hm⟩

lemma heldBy_append : t.HeldBy (a ++ b) row ↔ t.HeldBy a row ∨ t.HeldBy b row := by
  simp only [HeldBy, mem_append, and_or_left, exists_or]

lemma attested_append_le :
    t.attested (a ++ b) block chunk ≤ t.attested a block chunk + t.attested b block chunk := by
  unfold attested
  induction t.chunkRows block chunk with
  | nil => simp
  | cons row rest ih =>
    simp only [countP_cons, heldBy_append, decide_eq_true_eq] at ih ⊢
    split_ifs <;> grind

lemma attested_append (apart : ∀ row, t.HeldBy a row → ¬ t.HeldBy b row) :
    t.attested (a ++ b) block chunk = t.attested a block chunk + t.attested b block chunk := by
  unfold attested
  induction t.chunkRows block chunk with
  | nil => simp
  | cons row rest ih =>
    simp only [countP_cons, heldBy_append, decide_eq_true_eq] at ih ⊢
    split_ifs <;> grind

lemma attested_le (hs : a ⊆ b) : t.attested a block chunk ≤ t.attested b block chunk :=
  countP_mono_left fun _ _ held => decide_eq_true ((of_decide_eq_true held).mono hs)

lemma attested_le_sum (t : StorageTables) (lost : List Int) (block : BlobId) (chunk : Nat) :
    t.attested lost block chunk ≤ (lost.map fun node => t.attested [node] block chunk).sum := by
  induction lost with
  | nil => simp [attested, HeldBy]
  | cons node rest ih => exact (attested_append_le (a := [node])).trans (Nat.add_le_add_left ih _)

lemma Uncopied.apart (single : t.Uncopied members) (ha : a ⊆ members) (hb : b ⊆ members)
    (disjoint : a.Disjoint b) : ∀ row, t.HeldBy a row → ¬ t.HeldBy b row := by
  rintro row ⟨i, hi, hash, hm⟩ ⟨j, hj, hash', hm'⟩
  have same := single i hi j hj (hash.trans hash'.symm) (ha hm) (hb hm')
  exact disjoint hm (same ▸ hm')

lemma Uncopied.attested_eq_sum (single : t.Uncopied members) (hs : lost ⊆ members)
    (hd : lost.Nodup) :
    t.attested lost block chunk = (lost.map fun node => t.attested [node] block chunk).sum := by
  induction lost with
  | nil => simp [attested, HeldBy]
  | cons node rest ih =>
    obtain ⟨hn, hd⟩ := nodup_cons.1 hd
    obtain ⟨hm, hs⟩ := cons_subset.1 hs
    have apart := single.apart (cons_subset.2 ⟨hm, nil_subset _⟩) hs (singleton_disjoint.2 hn)
    rw [map_cons, sum_cons, ← ih hs hd]
    exact attested_append apart

/-- What is left of a chunk's fragments, and those that only lost members hold. -/
lemma attested_eq_add (t : StorageTables) (block : BlobId) (chunk : Nat) (hs : a ⊆ b) :
    t.attested b block chunk = t.attested a block chunk +
    (((t.chunkRows block chunk).filter fun row => t.HeldBy b row).filter fun row =>
      ¬ t.HeldBy a row).length := by
  have hf : ((t.chunkRows block chunk).filter fun row => t.HeldBy b row).filter
      (fun row => t.HeldBy a row) = (t.chunkRows block chunk).filter fun row => t.HeldBy a row := by
    rw [filter_filter]
    exact filter_congr fun row _ => by simpa using HeldBy.mono hs
  rw [attested, attested, countP_eq_length_filter, countP_eq_length_filter, ← hf,
    length_eq_length_filter_add fun row => decide (t.HeldBy a row)]
  simp

lemma neverOptimistic_iff_spread : t.NeverOptimistic members ↔ t.Spread members := by
  constructor
  · intro never block hb losses can chunk group hg few
    by_contra hle
    obtain ⟨level, hlevel, counted⟩ := can.exists_level
    -- the holders of the group, and others, up to the level
    obtain ⟨lost, hsub, hmem, hcard⟩ := Finset.exists_subsuperset_card_eq
      (t := members.toFinset) (fun node hm => by simp_all)
      ((toFinset_card_le _).trans ((not_lt.1 hle).trans hlevel))
      ((card_toFinset members).symm ▸ (CanLose.of_level counted).lt_members.le)
    have left := never block hb lost.toList (fun node hm => by simpa using hmem (by simpa using hm))
      lost.nodup_toList (by simp [counted, hcard]) chunk
    have gone : ∀ row ∈ group, ¬ t.HeldBy (members.filter (· ∉ lost.toList)) row := by
      rintro row hr ⟨i, hi, hash, hm⟩
      obtain ⟨hm, hout⟩ := mem_filter.1 hm
      have hl := hsub (mem_toFinset.2 (mem_filter.2 ⟨mem_dedup.2 hm,
        decide_eq_true ⟨row, hr, i, hi, hash, mem_singleton_self _⟩⟩))
      simp [hl] at hout
    have hlen := (hg.filter fun row => ¬ t.HeldBy (members.filter (· ∉ lost.toList)) row).length_le
    rw [filter_eq_self.2 fun row hr => decide_eq_true (gone row hr)] at hlen
    have split := attested_eq_add t block.id chunk
      (filter_sublist (p := fun node => node ∉ lost.toList) (l := members)).subset
    omega
  · intro spread block hb lost hsub hd hlevel chunk
    by_contra few
    have split := attested_eq_add t block.id chunk
      (filter_sublist (p := fun node => node ∉ lost) (l := members)).subset
    have wide := spread block hb _ (.of_level hlevel) chunk _ filter_sublist
      (split.trans_lt (Nat.add_lt_add_right (not_le.1 few) _))
    refine wide.not_ge (((nodup_dedup _).filter _).subperm fun node hm => ?_).length_le
    obtain ⟨hm, held⟩ := mem_filter.1 hm
    obtain ⟨row, hr, held⟩ := of_decide_eq_true held
    by_contra hout
    refine of_decide_eq_true (mem_filter.1 hr).2 (held.mono ?_)
    simpa [hout] using hm

lemma mem_byLargest {held : Int → Nat} :
    ∀ {node}, node ∈ byLargest held members.dedup ↔ node ∈ members := by
  simp [byLargest]

lemma Spared.neverOptimistic (spared : t.Spared members) : t.NeverOptimistic members := by
  intro block hb lost hsub hd hlevel chunk
  have can := CanLose.of_level hlevel
  have parts : t.attested members block.id chunk ≤
      t.attested (members.filter (· ∉ lost)) block.id chunk + t.attested lost block.id chunk :=
    (attested_le fun node hm => by by_cases hl : node ∈ lost <;> simp [hm, hl]).trans
      attested_append_le
  -- no members hold more than those with most fragments
  have most : (lost.map fun node => t.attested [node] block.id chunk).sum ≤
      t.mostHeld members block.id chunk lost.length :=
    sum_le_sum_take (pairwise_byLargest _ _) (hd.subperm fun node hm => mem_byLargest.2 (hsub hm))
  by_cases hc : chunk ∈ t.fragmentHashes.map (·.fragment.chunkNumber)
  · have room := spared block hb _ (mem_range.2 can.2.1) can chunk hc
    have held := attested_le_sum t lost block.id chunk
    omega
  · have none : t.chunkRows block.id chunk = [] :=
      filter_eq_nil_iff.2 fun row hr ho => hc (mem_map.2 ⟨row, hr, (of_decide_eq_true ho).2⟩)
    simp [originals, none]

lemma Uncopied.spared (single : t.Uncopied members) (never : t.NeverOptimistic members) :
    t.Spared members := by
  intro block hb losses _ can chunk _
  obtain ⟨level, hlevel, counted⟩ := can.exists_level
  let largest := byLargest (fun node => t.attested [node] block.id chunk) members.dedup
  have hd : largest.Nodup := (perm_insertionSort _ _).nodup_iff.2 (nodup_dedup members)
  have hsub : largest.take level ⊆ members := fun node hm => mem_byLargest.1 (mem_of_mem_take hm)
  have hlen : (largest.take level).length = level := by
    have := (CanLose.of_level counted).lt_members
    simp [largest, byLargest, this.le]
  have left := never block hb (largest.take level) hsub (hd.sublist (take_sublist _ _))
    (by rw [hlen, counted]) chunk
  have parts : t.attested (members.filter (· ∉ largest.take level)) block.id chunk +
      t.attested (largest.take level) block.id chunk ≤ t.attested members block.id chunk := by
    rw [← attested_append (single.apart (filter_sublist.subset) hsub fun node hm hl => by simp_all)]
    exact attested_le (append_subset.2 ⟨filter_sublist.subset, hsub⟩)
  rw [single.attested_eq_sum hsub (hd.sublist (take_sublist _ _))] at parts
  have grows : t.mostHeld members block.id chunk losses ≤
      ((largest.take level).map fun node => t.attested [node] block.id chunk).sum :=
    ((take_sublist_take_left hlevel).map _).sum_le_sum fun _ _ => Nat.zero_le _
  omega

/-- The levels count every fragment for the whole block, and every copy of it. They can be relied on
if and only if what a chunk cannot do without is spread over more members than can be lost. It is
enough that every chunk has its originals beyond what as many members hold of it at most, and
without copies this is exact. -/
theorem never_optimistic_iff (t : StorageTables) (members : List Int) :
    (t.NeverOptimistic members ↔ t.Spread members) ∧
      (t.Spared members → t.NeverOptimistic members) ∧
        (t.Uncopied members → t.NeverOptimistic members → t.Spared members) :=
  ⟨neverOptimistic_iff_spread, Spared.neverOptimistic, Uncopied.spared⟩

/-- A block of one chunk with two originals and two recovery fragments, attested as given. -/
def twoOriginals (attestations : List (UInt8 × Int)) : StorageTables :=
  { empty with
    dataBlocks := [⟨⟨1⟩, .replicate 32 0, 2, 0, none, 2, 0⟩]
    fragmentHashes := [(2, false), (3, false), (4, true), (5, true)].map fun f =>
      ⟨⟨⟨1⟩, 0, 0, ⟨2⟩, .replicate 32 f.1, f.2⟩, true⟩
    fragmentInventory := attestations.map fun a =>
      ⟨.replicate 32 a.1, a.2, none, none, none, false⟩ }

/-- Each node has a fragment of its own, and two of them can be lost. -/
theorem spread_never_optimistic :
    (twoOriginals [(2, 0), (3, 1), (4, 2), (5, 3)]).faultToleranceLevel [0, 1, 2, 3] ⟨1⟩ = 2 ∧
    (twoOriginals [(2, 0), (3, 1), (4, 2), (5, 3)]).NeverOptimistic [0, 1, 2, 3] :=
  ⟨by decide +kernel, (never_optimistic_iff _ _).2.1 (by decide +kernel)⟩

/-- Two nodes have one and the same fragment: the block is counted at level 0, and cannot be
rebuilt. -/
theorem optimistic_copies : ¬ (twoOriginals [(2, 0), (2, 1)]).NeverOptimistic [0, 1] := by
  intro never
  have hle := never _ mem_cons_self [] (nil_subset _) nodup_nil (by decide +kernel) 0
  revert hle
  decide +kernel

end StorageTables

end HopNet
