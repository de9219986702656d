import HopNet.Obligations
import HopNet.Resilience

namespace HopNet

open List StorageTables Option

/-- A turn of the loop over the rank, the fragments removed and the level. -/
def toleranceStep (k total : Nat) (s : Nat × Nat × Int) (onNode : Nat) : Nat × Nat × Int :=
  (s.1 + 1, s.2.1 + onNode, if k ≤ total - s.2.1 then s.1 else s.2.2)

def worstCaseTolerance (holders : List Nat) (k : Nat) : Int :=
  let sorted := (holders.filter (0 < ·)).insertionSort (· ≥ ·)
  if sorted.sum < k ∨ sorted = [] then -1
    else (sorted.foldl (toleranceStep k sorted.sum) (0, 0, -1)).2.2

/-- A blob of which this node owes fragments, with its risk. -/
structure PlanItem where
  blobId : BlobId
  tolerance : Int
  owed : Nat

variable (P : Primitives) (t : StorageTables) (me : Int) (members : List Int) (b : BlobId)

def manifest : List FragmentRow := t.fragmentHashes.filter (·.fragment.blobId = b)

/-- The members that hold fragments of a blob, each as often as it holds one. -/
def holdings : List Int :=
  (manifest t b).flatMap fun row =>
    ((t.fragmentInventory.filter (·.fragmentHash = row.fragment.fragmentHash)).map
      (·.nodeId)).filter (· ∈ members)

/-- `none` when this node owes nothing, or the goal is not on record. -/
def planBlob (desired : Nat) : Option PlanItem :=
  (snapshotAt t desired).bind fun snapshot =>
    let owed := (manifest t b).countP fun row =>
      row.storedLocally = false ∧ (snapshot.assignment P b)[row.fragment.localIndex]? = some me
    let nodes := holdings t members b
    if owed = 0 then none
    else some ⟨b, worstCaseTolerance (nodes.dedup.map fun node => nodes.count node)
      ((manifest t b).countP (·.fragment.recovery = false)), owed⟩

variable {P t me members b}

lemma tolerance_loop (k total : Nat) (ranks : List Nat) : ranks.foldl (toleranceStep k total)
    (0, 0, -1) = (ranks.length, ranks.sum, (((range ranks.length).filter fun rank =>
      k ≤ total - (ranks.take rank).sum).getLast?.map Int.ofNat).getD (-1)) := by
  induction ranks using reverseRecOn with
  | nil => rfl
  | append_singleton ranks onNode ih =>
    have hf : (range ranks.length).filter
      (fun rank => k ≤ total - ((ranks ++ [onNode]).take rank).sum) =
        (range ranks.length).filter fun rank => k ≤ total - (ranks.take rank).sum :=
      filter_congr fun rank hr => by rw [take_append_of_le_length (mem_range.1 hr).le]
    rw [foldl_append, ih, length_append, length_singleton, range_succ, filter_append, hf,
      filter_singleton]
    simp only [foldl_cons, foldl_nil, toleranceStep, take_left', sum_append, sum_singleton]
    split_ifs with hk <;> simp [hk]

/-- The loop finds the last rank at which `k` fragments are left. -/
lemma tolerance_eq (k : Nat) (ranks : List Nat) :
    (ranks.foldl (toleranceStep k ranks.sum) (0, 0, -1)).2.2 = tolerance k ranks := by
  have hd : ∀ rank, ranks.sum - (ranks.take rank).sum = (ranks.drop rank).sum := by
    intro rank
    have := sum_take_add_sum_drop ranks rank
    omega
  simp only [tolerance_loop, hd, tolerance]

lemma count_holdings {node} (hm : node ∈ members) :
    (holdings t members b).count node = t.onNode b node := by
  rw [holdings, count_flatMap, onNode]
  congr 1
  refine map_congr_left fun row _ => ?_
  rw [Function.comp_apply, count_filter (by simpa using hm), count, countP_map, countP_filter]
  refine countP_congr fun i _ => ?_
  simp [and_comm]

lemma holdings_ranked :
    (((holdings t members b).dedup.map fun node => (holdings t members b).count node).filter
    (0 < ·)).insertionSort (· ≥ ·) = t.ranked members b := by
  have hm : ∀ node ∈ holdings t members b, node ∈ members ∧
      node ∈ t.fragmentInventory.map (·.nodeId) := by
    simp only [holdings, mem_flatMap, mem_filter]
    rintro node ⟨row, _, hn, hm⟩
    exact ⟨by simpa using hm, (filter_sublist.map _).subset hn⟩
  have hp : (holdings t members b).dedup.Perm ((t.holders b).filter (· ∈ members)) := by
    refine (perm_ext_iff_of_nodup (nodup_dedup _) (((nodup_dedup _).filter _).filter _)).2
      fun node => ?_
    simp only [mem_dedup, mem_filter, decide_eq_true_eq]
    constructor
    · intro hn
      have hi := hm node hn
      exact ⟨⟨hi.2, count_holdings (b := b) hi.1 ▸ count_pos_iff.2 hn⟩, hi.1⟩
    · rintro ⟨⟨_, hp⟩, hi⟩
      exact count_pos_iff.1 (count_holdings hi ▸ hp)
  rw [filter_eq_self.2 (by simp [count_pos_iff]),
    map_congr_left fun node hn => count_holdings (hm node (mem_dedup.1 hn)).1]
  exact ((perm_insertionSort _ _).trans
    ((hp.map _).trans (perm_insertionSort _ _).symm)).eq_of_pairwise
    (fun _ _ _ _ ha hb => le_antisymm hb ha) (pairwise_insertionSort _ _)
      (pairwise_insertionSort _ _)

/-- The planner scores a blob at the level where the resilience pane counts it, which has one more
for the blocks that nobody attests. -/
theorem planned_at_level {desired item} (planned : planBlob P t me members b desired = some item)
    (hk : 0 < t.blockK b) : item.tolerance = max (-1) (t.faultToleranceLevel members b) := by
  obtain ⟨snapshot, _, hi⟩ := bind_eq_some_iff.1 planned
  dsimp only at hi
  split_ifs at hi
  have hb : (manifest t b).countP (·.fragment.recovery = false) = t.blockK b := by
    rw [manifest, countP_filter, blockK]
    exact countP_congr fun row _ => by simp [and_comm]
  have hl : -1 ≤ tolerance (t.blockK b) (t.ranked members b) := by
    unfold tolerance
    cases getLast? _ with
    | none => exact le_rfl
    | some rank =>
      show (-1 : Int) ≤ rank
      omega
  have hz : t.holders b = [] → t.ranked members b = [] := fun hn => by simp [ranked, hn]
  rw [← some.inj hi, hb, worstCaseTolerance, holdings_ranked, faultToleranceLevel, tolerance_eq]
  split_ifs <;> first | omega | simp_all

/-- The blob of the stored run, on a node that has none of its fragments yet. -/
def unpulled : StorageTables :=
  { storedState.tables with
    fragmentHashes := storedState.tables.fragmentHashes.map fun row =>
      { row with storedLocally := false } }

theorem unpulled_at_level : ∃ item ∈ planBlob .sample unpulled 1 [1] sampleBlob 1,
    item.tolerance = max (-1) (unpulled.faultToleranceLevel [1] sampleBlob) := by
  obtain ⟨item, planned⟩ := isSome_iff_exists.1
    (show (planBlob .sample unpulled 1 [1] sampleBlob 1).isSome by decide +kernel)
  exact ⟨item, planned, planned_at_level planned (by decide +kernel)⟩

end HopNet
