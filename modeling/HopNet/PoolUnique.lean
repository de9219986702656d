import HopNet.Pool

namespace HopNet.Queue

open Runs List Event Site QueuedTransaction PendingPool

section

variable (pool : PendingPool) (entry : QueuedTransaction)

lemma pushInflight_nonces : (pool.pushInflight entry).1.queued = pool.queued ∧
    nonces ((pool.pushInflight entry).1.inflight.map (·.entry)) = nonces
    (pool.inflight.map (·.entry)) := by
  unfold PendingPool.pushInflight
  split
  · refine ⟨rfl, ?_⟩
    simp only [nonces, map_map]
    rw [map_updateFirst]
    intro i
    rfl
  · exact ⟨rfl, rfl⟩

lemma pushQueued_inflight : (pool.pushQueued entry).inflight = pool.inflight := by
  unfold PendingPool.pushQueued
  split <;> rfl

/-- `push` stages a nonce only if no staged entry has it. -/
lemma pushQueued_nonces : nonces (pool.pushQueued entry).queued = nonces pool.queued +
    if entry.nonce ∈ nonces pool.queued then 0 else {entry.nonce} := by
  have hf : (pool.queued.any (·.nonce = entry.nonce)) = true ↔
      entry.nonce ∈ nonces pool.queued := by
    rw [any_eq_true, mem_nonces]
    exact exists_congr fun q => and_congr_right fun _ => decide_eq_true_iff
  unfold PendingPool.pushQueued
  by_cases hs : entry.nonce ∈ nonces pool.queued
  · rw [if_pos (hf.2 hs), if_pos hs, add_zero]
    unfold nonces
    rw [map_updateFirst]
    intro q
    rfl
  · rw [if_neg (mt hf.1 hs), if_neg hs, nonces_append, nonces_cons, nonces_nil, add_zero]

lemma takeForProposal_nonces (max maxBytes : Nat) :
    nonces (pool.takeForProposal max maxBytes).1.queued +
    nonces (pool.takeForProposal max maxBytes).2 = nonces pool.queued := by
  rw [add_comm, ← nonces_append]
  exact congrArg nonces (take_append_drop _ _)

/-- What `settle` keeps in flight and what it puts back are apart. -/
lemma settleInflight_nonces (committed : List CustomUUID) (decided : Nat) :
    nonces ((pool.settleInflight committed decided).1.inflight.map (·.entry)) +
      nonces (pool.settleInflight committed decided).2.1 ≤ nonces
      (pool.inflight.map (·.entry)) := by
  show nonces ((pool.inflight.filter (awaits committed decided)).map (·.entry)) +
    nonces ((pool.inflight.filter (lost committed decided)).map (·.entry)) ≤ _
  have ha : ∀ i, lost committed decided i = true →
      (!awaits committed decided i) = true := by
    intro i hl
    simp only [lost, awaits, decide_eq_true_eq, Bool.not_eq_true',
      decide_eq_false_iff_not] at hl ⊢
    omega
  have hs := filter_append_perm (awaits committed decided) pool.inflight
  rw [← nonces_perm (hs.map (·.entry)), map_append, nonces_append]
  gcongr
  exact nonces_sublist ((monotone_filter_right _ ha).map _)

end

/-- The nonces an event appends to the pool from outside. -/
def Event.brings (s : Site) : Event → Multiset CustomUUID
  | .pushQueued entry => if entry.nonce ∈ nonces s.pool.queued then 0 else {entry.nonce}
  | .stageForSettle entries => nonces entries
  | _ => 0

/-- Every other event only moves live nonces or drops them. -/
lemma Step.live_le {s s' event} (hs : Step s event s') : s'.live ≤ s.live + event.brings s := by
  cases hs with
  | pushInflight entry =>
    obtain ⟨hq, hi⟩ := pushInflight_nonces s.pool entry
    simp [live, brings, hq, hi]
  | @pushQueued entry others hp =>
    simp only [live, brings, pushQueued_nonces, pushQueued_inflight]
    exact le_of_eq (by abel)
  | takeForProposal max maxBytes =>
    have hm := takeForProposal_nonces s.pool max maxBytes
    simp only [live, brings, nonces_append, ← hm]
    exact le_of_eq (by simp only [PendingPool.takeForProposal]; abel)
  | retry ht =>
    simp only [live, brings, nonces_perm ht, nonces_cons]
    exact le_of_eq (by simp only [nonce]; abel)
  | restage ht =>
    simp only [live, brings, nonces_perm ht, nonces_append, PendingPool.restage]
    exact le_of_eq (by abel)
  | markInflight height ht =>
    simp only [live, brings, nonces_perm ht, nonces_append,
      PendingPool.markInflight, map_append, map_map, Function.comp_def, map_id']
    exact le_of_eq (by abel)
  | reject reason ht | fail reason ht | resolveCommitted height ht =>
    simp only [live, brings, nonces_perm ht, nonces_cons, add_zero]
    gcongr
    exact Multiset.le_add_left _ _
  | stageForSettle entries =>
    simp only [live, brings, PendingPool.stageForSettle, nonces_append]
    exact le_of_eq (by abel)
  | settleInflight committed decided =>
    have hk := settleInflight_nonces s.pool committed decided
    simp only [live, brings, nonces_append, add_zero]
    calc _ = nonces s.pool.queued +
            (nonces ((s.pool.settleInflight committed decided).1.inflight.map (·.entry)) +
              nonces (s.pool.settleInflight committed decided).2.1) +
            nonces s.held + nonces s.repool := by
          simp only [PendingPool.settleInflight]; abel
      _ ≤ _ := by gcongr
  | settleRepool =>
    simp only [live, brings, PendingPool.stageForSettle, nonces_append, nonces_nil]
    exact le_of_eq (by abel)
  | settleQueued committed decided =>
    simp only [live, brings, add_zero]
    gcongr
    · exact nonces_sublist filter_sublist
    · exact le_refl _

/-- What is appended is nowhere yet, and comes once. -/
structure FreshStep (s : Site) (event : Event) (s' : Site) : Prop where
  step : Step s event s'
  distinct : (event.brings s).Nodup
  fresh : ∀ nonce ∈ event.brings s, nonce ∉ s.live

lemma FreshStep.live_nodup {s s' event} (inv : s.live.Nodup)
    (hf : FreshStep s event s') : s'.live.Nodup := by
  apply Multiset.nodup_of_le hf.step.live_le
  apply Multiset.nodup_add.2
  refine ⟨inv, hf.distinct, ?_⟩
  exact Multiset.disjoint_right.2 fun hb => hf.fresh _ hb

lemma live_nodup_of_reaches {past s} (run : Reaches FreshStep empty past s) : s.live.Nodup := by
  apply run.invariant_state (·.live.Nodup)
  · exact Multiset.nodup_zero
  · intro s event s' inv hf
    exact hf.live_nodup inv

/-- In every interleaving from the empty pool whose steps meet `FreshStep`, no two entries staged
or in flight have one nonce. -/
theorem pool_nonce_unique {past : List Event} {s : Site} (run : Reaches FreshStep empty past s) :
    ((s.pool.queued ++ s.pool.inflight.map (·.entry)).map nonce).Nodup := by
  have hl := live_nodup_of_reaches run
  change (nonces (s.pool.queued ++ s.pool.inflight.map (·.entry))).Nodup
  apply Multiset.nodup_of_le ?_ hl
  rw [nonces_append, live, add_assoc _ (nonces s.held)]
  exact Multiset.le_add_right _ _

def sampleEntry (nonce waiter : Nat) : QueuedTransaction where
  tx :=
    { rpc := ⟨"submit_metrics", []⟩
      submitter := ⟨0, .replicate 64 0⟩
      user := none
      nonce := ⟨BitVec.ofNat 128 nonce⟩ }
  notifier := [waiter]
  transientAttempts := 0

/-- With a push under way, with lists as given, with a block being built. -/
def pushing (entry : QueuedTransaction) (held : List QueuedTransaction) : Site :=
  ⟨⟨[], []⟩, [entry], held, [], []⟩
def staged (entry : QueuedTransaction) (held : List QueuedTransaction) : Site :=
  ⟨⟨[entry], []⟩, [], held, [], []⟩
def building (entry : QueuedTransaction) : Site := ⟨⟨[], []⟩, [], [entry], [], []⟩
def proposed (queued : List QueuedTransaction) (entry : QueuedTransaction) : Site :=
  ⟨⟨queued, [⟨entry, 7⟩]⟩, [], [], [], []⟩

/-- Another entry is pushed while a block is built from the first: neither list has the first
then. -/
lemma race_steps (second : QueuedTransaction) :
    Step empty (.pushInflight (sampleEntry 1 0)) (pushing (sampleEntry 1 0) []) ∧
    Step (pushing (sampleEntry 1 0) []) (.pushQueued (sampleEntry 1 0))
    (staged (sampleEntry 1 0) []) ∧
    Step (staged (sampleEntry 1 0) []) (.takeForProposal 100 1000) (building (sampleEntry 1 0)) ∧
    Step (building (sampleEntry 1 0)) (.pushInflight second) (pushing second [sampleEntry 1 0]) ∧
    Step (pushing second [sampleEntry 1 0]) (.pushQueued second) (staged second [sampleEntry 1 0]) ∧
    Step (staged second [sampleEntry 1 0]) (.markInflight [sampleEntry 1 0] 7)
      (proposed [second] (sampleEntry 1 0)) :=
  ⟨.pushInflight _, .pushQueued (.refl _), .takeForProposal _ _, .pushInflight _,
    .pushQueued (.refl _), .markInflight 7 (.refl _)⟩

theorem pool_nonce_unique_proposed :
    (([sampleEntry 2 1] ++ [sampleEntry 1 0]).map nonce).Nodup := by
  obtain ⟨locked, queued, taken, racing, raced, marked⟩ := race_steps (sampleEntry 2 1)
  have hl : FreshStep _ _ _ := ⟨locked, by simp [brings], by simp [brings]⟩
  have hq : FreshStep _ _ _ := ⟨queued, Multiset.nodup_singleton _, by decide⟩
  have ht : FreshStep _ _ _ := ⟨taken, by simp [brings], by simp [brings]⟩
  have hs : FreshStep _ _ _ := ⟨racing, by simp [brings], by simp [brings]⟩
  have hr : FreshStep _ _ _ := ⟨raced, Multiset.nodup_singleton _, by decide⟩
  have hm : FreshStep _ _ _ := ⟨marked, by simp [brings], by simp [brings]⟩
  exact pool_nonce_unique ((((((Reaches.refl.snoc hl).snoc hq).snoc ht).snoc hs).snoc hr).snoc hm)

/-- The entry pushed is a copy: it is staged, and the first goes in flight beside it. -/
theorem pool_nonce_repeated : Reaches Step empty
      [.pushInflight (sampleEntry 1 0), .pushQueued (sampleEntry 1 0), .takeForProposal 100 1000,
        .pushInflight (sampleEntry 1 1), .pushQueued (sampleEntry 1 1),
        .markInflight [sampleEntry 1 0] 7] (proposed [sampleEntry 1 1] (sampleEntry 1 0)) ∧
    ¬ (([sampleEntry 1 1] ++ [sampleEntry 1 0]).map nonce).Nodup := by
  obtain ⟨locked, queued, taken, racing, raced, marked⟩ := race_steps (sampleEntry 1 1)
  refine ⟨?_, by decide⟩
  exact (((((Reaches.refl.snoc locked).snoc queued).snoc taken).snoc racing).snoc raced).snoc marked

end HopNet.Queue
