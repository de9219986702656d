import HopNet.Membership
import HopNet.Verify

namespace HopNet

open Runs List

variable {R : Type} {A : App R} {db db' : Db R}

lemma exists_mem_getValidators (hk : RowsKeyed db.validators) (height : Nat) (n : Int) :
    (∃ e ∈ getValidators db height, e.nodeId = n) ↔
      isNodeActive db n height = true ∧ ∃ node ∈ db.nodes, node.nodeId = n := by
  unfold getValidators isNodeActive
  rw [rowActive_iff hk]
  constructor
  · intro hl
    obtain ⟨e, hm, hna⟩ := hl
    obtain ⟨r, ha, hi⟩ := mem_flatMap.1 hm
    obtain ⟨node, hf, rfl⟩ := mem_map.1 hi
    simp only [mem_filter, decide_eq_true_eq] at hf
    have hn : node.nodeId = n := hna
    exact ⟨⟨r, ha, hf.2.symm.trans hn⟩, node, hf.1, hn⟩
  · intro hs
    obtain ⟨⟨r, ha, hr⟩, node, hkn, hn⟩ := hs
    refine ⟨node.entry, mem_flatMap.2 ⟨r, ha, ?_⟩, hn⟩
    apply mem_map_of_mem
    simp only [mem_filter, decide_eq_true_eq]
    exact ⟨hkn, hn.trans hr.symm⟩

/-- Without new rows the joined set of every height stays. -/
lemma getValidators_of_entriesKept (hr : ∀ r ∈ db.validators, ∃ n ∈ db.nodes, n.nodeId = r.nodeId)
    (rows : db'.validators = db.validators) (hn : EntriesKept db.nodes db'.nodes) (height : Nat) :
    getValidators db' height = getValidators db height := by
  unfold getValidators
  rw [rows]
  apply flatMap_congr
  intro r ha
  exact hn r.nodeId (hr r (mem_filter.1 ha).1)

namespace Transition

variable {ran : Db R} {height : Nat}

lemma rowActive_new {new} (inv : SeatInv db) (ht : Transition db ran new) {r}
    (hn : r ∈ new) (hr : db.currentHeight ≤ height) :
    rowActive (db.validators ++ new) r.nodeId height = r.isActive := by
  have hl := Timeline.latest_append_new (h := height) ht.keyed hn
    (by rw [ht.atHeight r hn]; exact hr) (by
      intro r' hm _
      rw [ht.atHeight r hn]
      rcases mem_append.1 hm with old | ho
      · exact inv.le r' old
      · exact Nat.le_of_eq (ht.atHeight r' ho))
  rw [rowActive, hl]

/-- From the decided height on, a transition changes the set. -/
lemma getValidators_ne {new} (inv : SeatInv db) (ht : Transition db ran new)
    (rows : db'.validators = db.validators ++ new) (hno : db'.nodes = db.nodes)
    (hr : db.currentHeight ≤ height) :
    getValidators db' height ≠ getValidators db height := by
  intro hs
  obtain ⟨r, hn⟩ := exists_mem_of_ne_nil new ht.some_row
  have hk := ht.registered r hn
  have hb : isNodeActive db r.nodeId height = !r.isActive := by
    rw [isNodeActive, rowActive_eq_of_le (fun r hm => (inv.le r hm).trans hr) inv.le]
    exact ht.turned r hn
  have haf : isNodeActive db' r.nodeId height = r.isActive := by
    rw [isNodeActive, rows]
    exact ht.rowActive_new inv hn hr
  have old := exists_mem_getValidators inv.keyed height r.nodeId
  have now := exists_mem_getValidators (rows ▸ ht.keyed) height r.nodeId
  rw [hs, old, hb, haf, hno] at now
  cases ha : r.isActive with
  | true | false => simp [ha, hk] at now

end Transition

namespace BlockStep

variable {block : Block}

/-- Heights before the decided one are out of reach. -/
lemma getValidators_eq_of_lt (inv : SeatInv db) (hs : BlockStep A db block db') {height}
    (old : height < db.currentHeight) : getValidators db' height = getValidators db height := by
  cases hs.rowsAfter inv with
  | transition ran new has transition hr hn seq =>
    unfold getValidators
    rw [hr, hn, activeRows_append_of_lt]
    intro r hne
    rw [transition.atHeight r hne]
    exact old
  | plain none hr hn seq =>
    exact getValidators_of_entriesKept inv.registered hr hn height

/-- From the decided height on, exactly membership blocks change the set. -/
lemma getValidators_eq_iff (inv : SeatInv db) (hs : BlockStep A db block db') {height}
    (hr : db.currentHeight ≤ height) :
    getValidators db' height = getValidators db height ↔ ¬ block.HasMembership := by
  cases hs.rowsAfter inv with
  | transition ran new has transition rows hn seq =>
    exact iff_of_false (transition.getValidators_ne inv rows hn hr) (fun no => no has)
  | plain none rows hn seq =>
    exact iff_of_true (getValidators_of_entriesKept inv.registered rows hn height) none

end BlockStep

lemma getValidators_final {past s s'} (inv : SeatInv s) {height}
    (old : height < s.currentHeight) (run : Reaches (BlockStep A) s past s') :
    getValidators s' height = getValidators s height := by
  have hk : SeatInv s' ∧ height < s'.currentHeight ∧
      getValidators s' height = getValidators s height := by
    apply run.invariant_state
      (fun t => SeatInv t ∧ height < t.currentHeight ∧
        getValidators t height = getValidators s height) ⟨inv, old, rfl⟩
    intro t block t' hh hs
    have ho := hh.2.1
    have ha := hs.currentHeight
    exact ⟨hs.seatInv hh.1, by omega, (hs.getValidators_eq_of_lt hh.1 ho).trans hh.2.2⟩
  exact hk.2.2

/-- `validator_set(height)`; `none` for a failed assertion. -/
def validatorSet (db : Db R) (height : Nat) : Option HopNetValidatorSet :=
  HopNetValidatorSet.new ((getValidators db height).map fun e => Validator.new e.nodeId e.pubkey)

/-- It passes against the set and the thresholds read back for `height`. -/
def CertificateHolds (P : Primitives) (chainId : Blake3Hash) (profile : QuorumProfile) (db : Db R)
    (height : Nat) (cert : CommitCertificate) : Prop :=
  ∃ set, validatorSet db height = some set ∧
    verifyCommitCertificate P chainId cert set (profile.thresholdsFor set.count) = .ok ()

/-- Let `h` be started in `started`, decided by `block` into `s₁`, and `s₂` any later state. The
set of `h` is the one it was started with, in both, exactly if neither the block of `h` nor the
next one carries a membership transition; then a certificate of `h` keeps its verdict. -/
theorem validatorSet_fixed_iff (A : App R) {db₀ started s₁ s₂ : Db R} (genesis : IsGenesis db₀)
    {past after : List Block} {block : Block} (run : Reaches (BlockStep A) db₀ past started)
    (decides : BlockStep A started block s₁) (later : Reaches (BlockStep A) s₁ after s₂) :
    (getValidators s₁ (started.currentHeight + 1) =
        getValidators started (started.currentHeight + 1) ∧
      getValidators s₂ (started.currentHeight + 1) = getValidators started
      (started.currentHeight + 1) ↔
      ¬ block.HasMembership ∧ ∀ next ∈ after.head?, ¬ next.HasMembership) ∧
    (¬ block.HasMembership → (∀ next ∈ after.head?, ¬ next.HasMembership) →
      ∀ P chainId profile cert,
        CertificateHolds P chainId profile started (started.currentHeight + 1) cert ↔
          CertificateHolds P chainId profile s₂ (started.currentHeight + 1) cert) := by
  have inv := seatInv_of_reaches genesis run
  have hi1 := decides.seatInv inv
  have hh1 := decides.currentHeight
  have own := decides.getValidators_eq_iff inv (Nat.le_succ started.currentHeight)
  have next : getValidators s₂ (started.currentHeight + 1) =
      getValidators s₁ (started.currentHeight + 1) ↔
      ∀ next ∈ after.head?, ¬ next.HasMembership := by
    rcases later.head with ⟨rfl, rfl⟩ | ⟨b, rest, m, rfl, hf, ho⟩
    · simp
    · have step := hf.getValidators_eq_iff hi1 (Nat.le_of_eq hh1)
      have hfi := getValidators_final (hf.seatInv hi1)
        (by rw [hf.currentHeight, hh1]; exact Nat.lt_succ_self _) ho
      rw [hfi, step]
      simp
  have hb : (getValidators s₁ (started.currentHeight + 1) =
        getValidators started (started.currentHeight + 1) ∧
      getValidators s₂ (started.currentHeight + 1) =
        getValidators started (started.currentHeight + 1)) ↔
      ¬ block.HasMembership ∧ ∀ next ∈ after.head?, ¬ next.HasMembership := by
    rw [← own, ← next]
    exact and_congr_right fun hs => by rw [hs]
  refine ⟨hb, fun hpl hp P chainId profile cert => ?_⟩
  have hs := (hb.2 ⟨hpl, hp⟩).2
  unfold CertificateHolds validatorSet
  rw [hs]

/-- A block of no transaction comes next, and node 1 is seated by the one after it. -/
def idle : Block := sampleBlock registered []
def idled : Db Unit := afterBlock .sample registered idle
def seatLater : Block := sampleBlock idled [sampleTx "validator_activation" [1] false 2]

theorem validatorSet_fixed_registered :
    getValidators (afterBlock .sample idled seatLater) 1 = getValidators sampleGenesis 1 := by
  have hidle : BlockStep .sample registered idle idled := ⟨by decide, nofun, fun _ _ => 0, rfl⟩
  have hseat : BlockStep .sample idled seatLater (afterBlock .sample idled seatLater) := by
    refine ⟨by decide, ?_, fun _ _ => 0, rfl⟩
    intro tx hm _
    obtain rfl := mem_singleton.1 hm
    exact ⟨idled, rfl⟩
  exact ((validatorSet_fixed_iff .sample sampleGenesis_isGenesis .refl registerNode_step
    (.snoc (.snoc .refl hidle) hseat)).1.2 ⟨by decide, by decide⟩).2

/-- A validator's view of a block: an empty pool, nothing against a candidate. -/
def sampleEnv (now : Int) : ValidationEnv Unit where
  origin := .live
  now := now
  readings _ _ := now
  stagedLen := 0
  inflightLen := 0
  artifactAtTip := none
  membershipCheck := fun _ _ => .ok ()

def seatNodeCert : CommitCertificate :=
  ⟨2, .some 0, seatNode.blockHash, [⟨0, Primitives.sampleSign (.replicate 32 1)⟩]⟩

/-- Height 2 is started with node 0 alone. Its own block seats node 1 from height 1 on, so the set
read back for height 2 has two members, and the certificate that decided it falls short. -/
theorem validatorSet_of_decided_height_changes :
    validateInner .sample (sampleEnv 0) 2 seatNode registered = .ok () ∧
    decideBlock .sample 2 seatNode registered = .ok seatedTwo ∧
    (getValidators registered 2).map (·.nodeId) = [0] ∧
    (getValidators seatedTwo 2).map (·.nodeId) = [0, 1] ∧
    CertificateHolds .sample (.replicate 32 0) .majority registered 2 seatNodeCert ∧
    ¬ CertificateHolds .sample (.replicate 32 0) .majority seatedTwo 2 seatNodeCert := by
  refine ⟨by decide, rfl, by decide, by decide, ⟨⟨[.new 0 (.replicate 32 1)], by decide,
    by decide, by decide⟩, by decide⟩, ?_⟩
  rintro ⟨set, hf, ha⟩
  have hm : set = ⟨[.new 0 (.replicate 32 1), .new 1 (.replicate 32 2)], by decide,
      by decide, by decide⟩ := by
    have hr : validatorSet seatedTwo 2 = some ⟨[.new 0 (.replicate 32 1),
      .new 1 (.replicate 32 2)], by decide, by decide, by decide⟩ := by decide
    exact Option.some.inj (hf.symm.trans hr)
  rw [hm] at ha
  exact absurd ha (by decide)

end HopNet
