import HopNet.Lib.LeastLoaded
import HopNet.Placement

namespace HopNet

open Extremes LeastLoaded List ViewSnapshot PlacementNode Weights

variable {members members' : List Int}

section

variable (P : Primitives) {weights weights' : Weights} {N : Type}

lemma swapIfInBounds_perm (nodes : Array N) (i j : Nat) :
    (nodes.swapIfInBounds i j).Perm nodes := by
  unfold Array.swapIfInBounds
  split_ifs
  · exact Array.swap_perm _ _
  · exact .refl _
  · exact .refl _

lemma deterministicShuffle_perm (nodes : Array N) (seed : Bytes) :
    (deterministicShuffle P nodes seed).toList.Perm nodes.toList := by
  have hr : ∀ (steps : List Nat) (start : Array N),
      (steps.foldl (fun shuffled i => shuffled.swapIfInBounds i (swapIndex P seed nodes.size i))
        start).Perm start := by
    intro steps
    induction steps with
    | nil => exact fun start => .refl start
    | cons i rest ih => exact fun start => (ih _).trans (swapIfInBounds_perm start _ _)
  exact (hr _ nodes).toList

lemma selectNodesForBlob_length [PlacementNode N] (members : List N) (weights : Weights)
    (seed : Bytes) :
    (selectNodesForBlob P members weights seed).length = min members.length 30 := by
  unfold selectNodesForBlob
  split_ifs with hsm
  · omega
  · have hs := (deterministicShuffle_perm P
      ((members.insertionSort (RanksBefore weights)).take
        (min 60 (members.insertionSort (RanksBefore weights)).length)).toArray seed).length_eq
    simp only [length_take, length_insertionSort] at *
    omega

lemma selectNodesForBlob_subperm [PlacementNode N] (members : List N) (weights : Weights)
    (seed : Bytes) : (selectNodesForBlob P members weights seed).Subperm members := by
  unfold selectNodesForBlob
  split_ifs
  · exact List.Subperm.refl members
  · refine (take_sublist _ _).subperm.trans ?_
    refine (deterministicShuffle_perm P _ seed).subperm.trans ?_
    exact (take_sublist _ _).subperm.trans (perm_insertionSort _ members).subperm

lemma selectNodesForBlob_nodup [PlacementNode N] {members : List N}
    (hd : members.Nodup) (weights : Weights) (seed : Bytes) :
    (selectNodesForBlob P members weights seed).Nodup := by
  obtain ⟨part, hp, sub⟩ := selectNodesForBlob_subperm P members weights seed
  exact hp.nodup_iff.1 (hd.sublist sub)

instance (weights : Weights) : Std.Total (RanksBefore (N := Int) weights) :=
  ⟨fun a b => by unfold RanksBefore; omega⟩

instance (weights : Weights) : IsTrans Int (RanksBefore weights) :=
  ⟨fun a b c first second => by unfold RanksBefore at *; omega⟩

instance (weights : Weights) : Std.Antisymm (RanksBefore (N := Int) weights) :=
  ⟨fun a b first second => by
    unfold RanksBefore at *
    have ids : nodeId a = nodeId b := by omega
    exact ids⟩

/-- The ranking is a total order, so the order of the members is lost in it. -/
lemma insertionSort_ranks_perm (hp : members.Perm members') (weights : Weights) :
    members.insertionSort (RanksBefore weights) = members'.insertionSort (RanksBefore weights) := by
  refine List.Perm.eq_of_pairwise' (pairwise_insertionSort _ members)
    (pairwise_insertionSort _ members') ?_
  exact (perm_insertionSort _ members).trans (hp.trans (perm_insertionSort _ members').symm)

lemma insertionSort_ranks_congr {members : List Int}
    (same : ∀ m ∈ members, weights.get m = weights'.get m) :
    members.insertionSort (RanksBefore weights) = members.insertionSort (RanksBefore weights') := by
  refine List.Perm.eq_of_pairwise' (r := RanksBefore weights') ?_
    (pairwise_insertionSort _ members) ?_
  · refine List.Pairwise.imp_of_mem ?_ (pairwise_insertionSort (RanksBefore weights) members)
    intro a b inA inB hb
    have hsa := same a (mem_insertionSort _ |>.1 inA)
    have hs := same b (mem_insertionSort _ |>.1 inB)
    unfold RanksBefore at hb ⊢
    simp only [nodeId, id] at *
    omega
  · exact (perm_insertionSort _ members).trans (perm_insertionSort _ members).symm

lemma selectNodesForBlob_perm (hp : members.Perm members')
    (hs : ∀ m ∈ members, weights.get m = weights'.get m) (seed : Bytes) :
    (selectNodesForBlob P members weights seed).Perm
    (selectNodesForBlob P members' weights' seed) := by
  unfold selectNodesForBlob
  rw [hp.length_eq]
  split_ifs
  · exact hp
  · rw [insertionSort_ranks_congr hs, insertionSort_ranks_perm hp weights']

end

section

variable {score : Int → Nat → Nat}

def choose (members : List Int) (score : Int → Nat → Nat) (fragmentClass : Nat)
    (loads : Int → Nat) : Option Int := do
  let minLoad ← (members.map loads).min?
  leastBy (fun m => toLex (score m fragmentClass, m)) (members.filter fun m => loads m = minLoad)

lemma assignClasses_cons (fragmentClass : Nat) (rest : List Nat) (loads : Int → Nat) :
    assignClasses members score (fragmentClass :: rest) loads =
      match choose members score fragmentClass loads with
      | none => []
      | some chosen => chosen :: assignClasses members score rest (give loads chosen) := by
  rw [assignClasses, choose]
  cases (members.map loads).min? with
  | none => rfl
  | some minLoad =>
    cases leastBy (fun m => toLex (score m fragmentClass, m))
        (members.filter fun m => loads m = minLoad) with
    | none => rfl
    | some chosen => rfl

lemma choose_isLeast (hn : members ≠ []) (fragmentClass : Nat) (loads : Int → Nat) :
    ∃ chosen, choose members score fragmentClass loads = some chosen ∧
      IsLeast members.toFinset loads chosen := by
  have hl : members.map loads ≠ [] := by simpa using hn
  obtain ⟨minLoad, hle⟩ := Option.isSome_iff_exists.1 (isSome_min?_of_ne_nil hl)
  have hm := min?_eq_some_iff.1 hle
  obtain ⟨m, hme, hc⟩ := mem_map.1 hm.1
  cases hf : leastBy (fun m => toLex (score m fragmentClass, m))
      (members.filter fun m => loads m = minLoad) with
  | none =>
    have he := argmin_eq_none.1 hf
    have ht : m ∈ members.filter fun m => loads m = minLoad := by
      simp [hme, hc]
    rw [he] at ht
    cases ht
  | some chosen =>
    have ht := argmin_mem (Option.mem_def.2 hf)
    simp only [mem_filter, decide_eq_true_eq] at ht
    refine ⟨chosen, by simp [choose, hle, hf], by simpa using ht.1, ?_⟩
    intro b inB
    rw [ht.2]
    exact hm.2 (loads b) (mem_map_of_mem (by simpa using inB))

lemma assignClasses_greedy (hn : members ≠ []) (classes : List Nat) (loads : Int → Nat) :
    Greedy members.toFinset loads (assignClasses members score classes loads) ∧
      (assignClasses members score classes loads).length = classes.length := by
  induction classes generalizing loads with
  | nil => exact ⟨trivial, rfl⟩
  | cons fragmentClass rest ih =>
    obtain ⟨chosen, hf, hl⟩ := @choose_isLeast members score hn fragmentClass loads
    obtain ⟨hg, length⟩ := ih (give loads chosen)
    rw [assignClasses_cons, hf]
    exact ⟨⟨hl, hg⟩, congrArg (· + 1) length⟩

lemma choose_perm {score'} (hp : members.Perm members')
    (hs : ∀ m ∈ members, score m = score' m) (fragmentClass : Nat) (loads : Int → Nat) :
    choose members score fragmentClass loads = choose members' score' fragmentClass loads := by
  unfold choose
  rw [min?_perm (hp.map loads)]
  congr 1
  funext minLoad
  refine leastBy_perm ?_ (hp.filter _) ?_
  · intro m m' key
    exact (Prod.mk.inj (toLex_inj.1 key)).2
  · intro m ht
    rw [hs m (mem_of_mem_filter ht)]

lemma assignClasses_perm {score'} (hp : members.Perm members')
    (hs : ∀ m ∈ members, score m = score' m) (classes : List Nat) (loads : Int → Nat) :
    assignClasses members score classes loads = assignClasses members' score' classes loads := by
  induction classes generalizing loads with
  | nil => rfl
  | cons fragmentClass rest ih =>
    rw [assignClasses_cons, assignClasses_cons, choose_perm hp hs]
    cases choose members' score' fragmentClass loads with
    | none => rfl
    | some chosen => exact congrArg (chosen :: ·) (ih (give loads chosen))

end

variable (P : Primitives)

lemma classScore_congr {weights weights' node}
    (hs : weights.get node = weights'.get node) (seed : Bytes) :
    classScore P seed weights node = classScore P seed weights' node := by
  funext fragmentClass
  simp only [classScore, hs]

lemma assignment_perm {members members' weights weights'}
    (hp : members.Perm members') (same : ∀ m ∈ members, weights.get m = weights'.get m)
    (blobId : BlobId) :
    (mk members weights).assignment P blobId =
      (mk members' weights').assignment P blobId := by
  have hs := selectNodesForBlob_perm P hp same (placementSeed P blobId)
  have hi := (selectNodesForBlob_subperm P members weights (placementSeed P blobId)).subset
  simp only [assignment, assignFragmentClasses, assignClassesByScore,
    isEmpty_iff_length_eq_zero, hs.length_eq]
  rw [assignClasses_perm hs]
  intro m hse
  exact classScore_congr P (same m (hi hse)) _

lemma Weights.get_tabulate (weights : Weights) {m : Int} (hm : m ∈ members) :
    get (members.map fun n => (n, weights.get n)) m = weights.get m := by
  induction members with
  | nil => cases hm
  | cons n rest ih =>
    by_cases hh : m = n
    · simp [get, hh]
    · have hl : m ∈ rest := by simpa [hh] using hm
      have hs : (m == n) = false := beq_eq_false_iff_ne.2 hh
      have ht := ih hl
      simp only [get, map_cons, lookup_cons, hs] at ht ⊢
      exact ht

lemma assignment_ofView (hd : members.Nodup) (weights : Weights) (blobId : BlobId) :
    (ofView ⟨members, weights⟩).assignment P blobId =
      (mk members weights).assignment P blobId := by
  have hs := perm_insertionSort (· ≤ ·) members
  have hk : (members.insertionSort (· ≤ ·)).dedup = members.insertionSort (· ≤ ·) :=
    (hs.nodup_iff.2 hd).dedup
  symm
  unfold ofView
  simp only [hk]
  refine assignment_perm P hs.symm ?_ blobId
  intro m hm
  exact (get_tabulate weights (hs.mem_iff.2 hm)).symm

/-- The share of one of `s` members in the 30 classes, rounded down or up. -/
def IsShare (s share : Nat) : Prop :=
  share = totalFragmentsPerChunk / s ∨ share = (totalFragmentsPerChunk + s - 1) / s

lemma assignment_greedy (hn : members ≠ []) (weights : Weights) (blobId : BlobId) :
    let assigned := (mk members weights).assignment P blobId
    Greedy (selectNodesForBlob P members weights (placementSeed P blobId)).toFinset (fun _ => 0)
      assigned ∧ assigned.length = totalFragmentsPerChunk := by
  have hs : selectNodesForBlob P members weights (placementSeed P blobId) ≠ [] := by
    intro he
    have hl := selectNodesForBlob_length P members weights (placementSeed P blobId)
    rw [he, length_nil] at hl
    exact hn (eq_nil_of_length_eq_zero (by omega))
  have hc := @assignClasses_greedy _ (classScore P (placementSeed P blobId) weights) hs
    (List.range totalFragmentsPerChunk) fun _ => 0
  simpa [assignment, assignFragmentClasses, assignClassesByScore, hs] using hc

/-- Balanced, and a function of the member set and the members' weights. -/
theorem assignment_balanced {members : List Int} (distinct : members.Nodup)
    (nonempty : members ≠ []) (weights : Weights) (blobId : BlobId) :
    let assigned := (mk members weights).assignment P blobId
    let s := min members.length 30
    assigned.length = 30 ∧ (∀ n ∈ assigned, n ∈ members) ∧ assigned.toFinset.card = s ∧
    (∀ n ∈ assigned, IsShare s (assigned.count n)) ∧
    (∀ k, ∀ m ∈ assigned, ∀ n ∈ assigned, (assigned.take k).count m ≤
    (assigned.take k).count n + 1) ∧ (∀ members' weights', members.Perm members' →
      (∀ m ∈ members, weights.get m = weights'.get m) →
      (mk members' weights').assignment P blobId = assigned ∧
      (ofView ⟨members', weights'⟩).assignment P blobId = assigned) := by
  intro assigned s
  obtain ⟨hg, hl⟩ := assignment_greedy P nonempty weights blobId
  let selected := selectNodesForBlob P members weights (placementSeed P blobId)
  have hi := selectNodesForBlob_subperm P members weights (placementSeed P blobId)
  have hc : selected.toFinset.card = s := by
    rw [toFinset_card_of_nodup (selectNodesForBlob_nodup P distinct weights _)]
    exact selectNodesForBlob_length P members weights _
  have hp : 0 < s ∧ s ≤ 30 := by
    have := length_pos_of_ne_nil nonempty
    omega
  have hse : ∀ n ∈ selected.toFinset, IsShare s (assigned.count n) := by
    intro n hs
    have hsh := hg.share hs
    rwa [hl, hc] at hsh
  -- With at most as many members as classes nobody is left without one.
  have hap : assigned.toFinset = selected.toFinset := by
    ext n
    rw [mem_toFinset]
    refine ⟨hg.mem n, fun hs => ?_⟩
    have hle : 0 < totalFragmentsPerChunk / s := Nat.div_pos hp.2 hp.1
    have more : totalFragmentsPerChunk / s ≤ (totalFragmentsPerChunk + s - 1) / s :=
      Nat.div_le_div_right (by omega)
    apply count_pos_iff.1
    rcases hse n hs with hd | up <;> omega
  have hm : ∀ n ∈ assigned, n ∈ selected.toFinset := hg.mem
  refine ⟨hl, ?_, by rw [hap, hc], fun n ha => hse n (hm n ha), ?_, ?_⟩
  · intro n ha
    exact hi.subset (mem_toFinset.1 (hm n ha))
  · intro k m inM n inN
    have hst : Level selected.toFinset fun _ => 0 := fun _ _ _ _ => Nat.zero_le _
    have hll := (hg.take k).level hst
    simpa using hll m (hm m inM) n (hm n inN)
  · intro members' weights' perm same
    have he := assignment_perm P perm same blobId
    exact ⟨he.symm, (assignment_ofView P (perm.nodup_iff.1 distinct) weights' blobId).trans he.symm⟩

/-- Four members share the 30 classes of a blob, seven or eight each. -/
theorem assignment_balanced_four :
    let assigned := (mk [4, 2, 9, 7] [(4, 16), (2, 3)]).assignment .sample ⟨5⟩
    assigned.length = 30 ∧ assigned.toFinset.card = 4 ∧
    ∀ n ∈ assigned, IsShare 4 (assigned.count n) := by
  have hb := @assignment_balanced .sample [4, 2, 9, 7] (by decide) (by decide) [(4, 16), (2, 3)] ⟨5⟩
  exact ⟨hb.1, hb.2.2.1, hb.2.2.2.1⟩

end HopNet
