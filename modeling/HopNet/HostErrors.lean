import HopNet.HostBlocks

namespace HopNet

open Prog Runs WireProposedValue Option

variable {E : Engine} {A : Application} {C : HostConfig}

abbrev DecodedStep (C : HostConfig) : Node E A → NodeEvent A → Node E A → Prop :=
  BringStep C (fun _ => True) Decodes fun _ => True

lemma fatal_policy :
    Policy C (Watch.upkeep ⟨fun _ => True, Decodes, fun _ => True⟩ : Upkeep E A)
      HostError.Fatal where
  holds := Rules.upkeep (.free fun _ _ => trivial)
  wire _ _ := trivial
  fatal _ fatal := fatal
  codec _ _ decodes undecoded := absurd decodes undecoded

/-- Only the stash is asked about: its proposals decode. -/
abbrev StashDecodes (core : HostCore E A) : Prop :=
  Tracked ⟨fun _ => True, Decodes, fun _ => True⟩ core

/-- The storage refuses the dry run of a block, at once or when asked again. -/
def DryRunRefused (C : HostConfig) (core : HostCore E A) (origin : ValidationOrigin) (height : Nat)
    (block : Block) : Prop :=
  let ops := core.store.ops
  C.faults ops = some .permanent ∨
    (C.faults ops = some .transient ∨ C.faults ops = none ∧
      A.validateBlock core.store.app (ops + 1) height block origin = .undetermined) ∧
    C.faults (ops + 1) = some .permanent

/-- A proposal at the host's height whose rounds do not decode, unless its dry run is refused. -/
def Kills (C : HostConfig) (core : HostCore E A) : WireConsensusMsg → Prop
  | .proposedValue w => w.height = core.height ∧ ¬ w.Decodes ∧
      ¬ DryRunRefused C core .live w.height w.block
  | _ => False

/-- A synced value, not stale or misnamed, whose certificate's round does not decode or block does
not encode. -/
def SyncKills (C : HostConfig) (core : HostCore E A) (block : Block)
    (cert : WireCommitCertificate) : Prop :=
  core.height ≤ cert.height ∧ block.Named C.prims ∧ block.blockHash = cert.valueId ∧
    (¬ RoundOnWire cert.round ∨ ∃ e, C.encodeBlock block = .error e)

section

variable {core core' : HostCore E A} {fuel : Nat} {w : WireProposedValue}

lemma dryRunOnce_ok_iff (core : HostCore E A) (origin : ValidationOrigin) (height : Nat)
    (block : Block) :
    (∃ verdict core', dryRunOnce C origin height block core = some (.ok verdict, core')) ↔
      C.faults core.store.ops ≠ some .permanent := by
  rw [dryRunOnce_eq]
  cases C.faults core.store.ops with
  | none => simp
  | some e =>
    cases e with
    | transient | permanent => simp

lemma validate_ok_iff (origin : ValidationOrigin) (height : Nat) (block : Block) :
    (∃ verdict core', validate C origin height block core = some (.ok verdict, core')) ↔
      ¬ DryRunRefused C core origin height block := by
  have ran := dryRunOnce_eq C core origin height block
  unfold validate DryRunRefused
  cases hf : C.faults core.store.ops with
  | none =>
    rw [hf] at ran
    rw [bind_of_ok ran]
    cases verdict : A.validateBlock core.store.app (core.store.ops + 1) height block origin with
    | valid | invalid => simp [pure, hf, verdict]
    | undetermined =>
      rw [dryRunOnce_ok_iff]
      simp [hf, verdict, Store.counted]
  | some e =>
    rw [hf] at ran
    cases e with
    | permanent =>
      rw [bind_of_error ran]
      simp [hf]
    | transient =>
      rw [bind_of_ok ran]
      rw [dryRunOnce_ok_iff]
      simp [hf, Store.counted]

lemma ingestProposal_undecoded (fuel : Nat) {verdict} (hu : ¬ w.Decodes)
    (hv : validate C .live w.height w.block core = some (.ok verdict, core')) :
    ingestProposal C fuel w core = some (.error (.codec (.invalid "round")), core') := by
  have hf : w.intoProposedValue verdict.toValidity = .error (.invalid "round") :=
    intoProposedValue_error.2 ⟨hu, rfl⟩
  unfold ingestProposal
  rw [bind_of_ok hv]
  rw [hf]
  rfl

lemma onWire_ahead (ha : core.height < w.height) :
    onWire C fuel (.proposedValue w) core = some (.ok (), stashProposal w core) := by
  show (if core.height < w.height then _ else _ : Host E A Unit) core = _
  rw [if_pos ha]
  rfl

lemma onWire_behind (hb : w.height < core.height) :
    onWire C fuel (.proposedValue w) core = drainStashedProposals C fuel core := by
  show (if core.height < w.height then _ else _ : Host E A Unit) core = _
  rw [if_neg (by omega), when, if_neg (by omega)]
  rfl

lemma onWire_current (hc : w.height = core.height) : onWire C fuel (.proposedValue w) core =
    (ingestProposal C fuel w >>= fun _ => drainStashedProposals C fuel) core := by
  show (if core.height < w.height then _ else _ : Host E A Unit) core = _
  rw [if_neg (by omega), when, if_pos hc]

lemma onWire_fatal_iff (hh : StashDecodes core) (msg : WireConsensusMsg) :
    (∀ e core', onWire C fuel msg core = some (.error e, core') → e.Fatal) ↔
      ¬ Kills C core msg := by
  constructor
  · intro hfa hk
    cases msg with
    | proposedValue w =>
      obtain ⟨hc, hu, ha⟩ := hk
      obtain ⟨verdict, core', hv⟩ := (validate_ok_iff _ _ _).2 ha
      have hf := ingestProposal_undecoded fuel hu hv
      exact hfa _ core' (by rw [onWire_current hc, bind_of_error hf])
    | vote | livenessVote | livenessPolka | livenessSkipRound => exact hk
  · intro hs e core' ran
    by_cases hw : ∀ w, msg = .proposedValue w → w.Decodes
    · exact ((fatal_policy.onWire_settles fuel hw).error hh ran).1
    · -- What is left is a proposal that does not decode.
      simp only [not_forall] at hw
      obtain ⟨w, rfl, hu⟩ := hw
      rcases lt_trichotomy core.height w.height with hah | hc | hb
      · rw [onWire_ahead hah] at ran
        cases ran
      · rw [onWire_current hc.symm] at ran
        cases hv : validate C .live w.height w.block core with
        | none =>
          have hun : ingestProposal C fuel w core = none := bind_of_none hv
          rw [bind_of_none hun] at ran
          cases ran
        | some out =>
          obtain ⟨answer, after⟩ := out
          cases answer with
          | ok verdict =>
            have ha := (validate_ok_iff _ _ _).1 ⟨verdict, after, hv⟩
            exact absurd ⟨hc.symm, hu, ha⟩ hs
          | error fault =>
            have hf : ingestProposal C fuel w core = some (.error fault, after) :=
              bind_of_error hv
            rw [bind_of_error hf] at ran
            cases ran
            exact ((fatal_policy.holds.validate_settles _ _ _).error hh hv).1
      · rw [onWire_behind hb] at ran
        exact ((fatal_policy.drainStashedProposals_settles fuel).error hh ran).1

lemma syncFed_fatal_iff (hh : StashDecodes core) {peer block} {cert : WireCommitCertificate} :
    (∀ e core', (do
      let certificate ← lift .codec cert.toCertificate
      let bytes ← lift .codec (C.encodeBlock block)
      feed C fuel (.syncValueResponse ⟨peer, bytes, certificate⟩) : Host E A Unit) core =
        some (.error e, core') → e.Fatal) ↔
      RoundOnWire cert.round ∧ ¬ ∃ e, C.encodeBlock block = .error e := by
  cases hd : cert.toCertificate with
  | error c =>
    have hu := (WireCommitCertificate.toCertificate_error.1 hd).1
    exact ⟨fun hf => absurd (hf (.codec c) core rfl) id, fun fit => absurd fit.1 hu⟩
  | ok certificate =>
    cases he : C.encodeBlock block with
    | error c =>
      exact ⟨fun hf => absurd (hf (.codec c) core rfl) id, fun fit => absurd ⟨c, rfl⟩ fit.2⟩
    | ok bytes =>
      have ho : RoundOnWire cert.round := by
        by_contra hu
        rw [WireCommitCertificate.toCertificate_error.2 ⟨hu, rfl⟩] at hd
        cases hd
      refine ⟨fun _ => ⟨ho, by simp⟩, ?_⟩
      intro _ e core' ran
      exact ((fatal_policy.holds.feed_settles fuel id).error hh ran).1

lemma onSyncValue_fatal_iff (hh : StashDecodes core) (peer : Int) (block : Block)
    (cert : WireCommitCertificate) :
    (∀ e core', onSyncValue C fuel peer block cert core = some (.error e, core') → e.Fatal) ↔
      ¬ SyncKills C core block cert := by
  have hr : onSyncValue C fuel peer block cert core =
      (if cert.height < core.height then pure ()
      else if block.verify C.prims ≠ .ok () ∨ block.blockHash ≠ cert.valueId then pure ()
      else do
        let certificate ← lift .codec cert.toCertificate
        let bytes ← lift .codec (C.encodeBlock block)
        feed C fuel (.syncValueResponse ⟨peer, bytes, certificate⟩) : Host E A Unit) core := rfl
  rw [hr]
  by_cases hst : cert.height < core.height
  · rw [if_pos hst]
    refine ⟨fun _ hk => absurd hk.1 (by omega), fun _ e core' ran => ?_⟩
    cases ran
  by_cases hm : block.verify C.prims ≠ .ok () ∨ block.blockHash ≠ cert.valueId
  · rw [if_neg hst, if_pos hm]
    constructor
    · intro _ hk
      rcases hm with hud | ho
      · exact hud ((block.verify_ok_iff C.prims).2 hk.2.1)
      · exact ho hk.2.2.1
    · intro _ e core' ran
      cases ran
  rw [if_neg hst, if_neg hm]
  rw [not_or, not_not, not_not] at hm
  have hp : core.height ≤ cert.height ∧ block.Named C.prims ∧ block.blockHash = cert.valueId :=
    ⟨by omega, (block.verify_ok_iff C.prims).1 hm.1, hm.2⟩
  rw [syncFed_fatal_iff hh]
  constructor
  · intro fit hk
    rcases hk.2.2.2 with hun | hu
    · exact hun fit.1
    · exact fit.2 hu
  · intro hs
    constructor
    · by_contra hun
      exact hs ⟨hp.1, hp.2.1, hp.2.2, .inl hun⟩
    · intro hu
      exact hs ⟨hp.1, hp.2.1, hp.2.2, .inr hu⟩

end

/-- At every state of a node that was only delivered proposals that decode: a call on peer data
that returns an error returns a fatal one, exactly on the data that does not kill. -/
theorem peer_errors_fatal_iff {store : Store A.State} {height : Nat} {past : List (NodeEvent A)}
    {node : Node E A} (run : Reaches (DecodedStep C) (Node.cold C store height) past node)
    (fuel : Nat) :
    (∀ msg, (∀ e core', onWire C fuel msg node.core = some (.error e, core') → e.Fatal) ↔
      ¬ Kills C node.core msg) ∧
    ∀ peer block cert,
      (∀ e core', onSyncValue C fuel peer block cert node.core = some (.error e, core') →
        e.Fatal) ↔ ¬ SyncKills C node.core block cert := by
  have hh : StashDecodes node.core :=
    tracked_of_reaches (.free fun _ _ => trivial) (fun _ _ => trivial) trivial run
  exact ⟨onWire_fatal_iff hh, onSyncValue_fatal_iff hh⟩

/-- A proposal for `height` in round -2. -/
def strayProposal (height : Nat) : WireConsensusMsg :=
  .proposedValue ⟨height, -2, -1, 0, registerNode⟩

/-- The node that has decided height 1 and started height 2. -/
def advancedNode : Node firstVoteEngine sampleApplication :=
  (honestEvents.foldlM (bring sampleHost (fun _ => True) Decodes (fun _ => True) 4)
    sampleCold).get (by decide +kernel)

theorem peer_errors_fatal_iff_advanced : advancedNode.core.height = 2 ∧
    ∀ e core', onWire sampleHost 4 (strayProposal 1) advancedNode.core = some (.error e, core') →
      e.Fatal := by
  have run : Reaches (DecodedStep sampleHost) sampleCold honestEvents advancedNode :=
    .of_foldlM (bringStep_of_bring _ _ _) (some_get _).symm
  have ht : advancedNode.core.height = 2 := by decide +kernel
  refine ⟨ht, ((peer_errors_fatal_iff run 4).1 (strayProposal 1)).2 ?_⟩
  intro hk
  have ho : 1 = advancedNode.core.height := hk.1
  omega

/-- The node that has started height 1. -/
def bootedNode : Node firstVoteEngine sampleApplication :=
  (Node.after sampleHost 4 sampleCold (.restart sampleStore 1)).get (by decide +kernel)

/-- Height 1 is decided while a proposal for height 2 is stashed. -/
def stashedEvents : List (NodeEvent sampleApplication) :=
  [.restart sampleStore 1, .input (.wire (strayProposal 2)), proposalOf registerNode,
    voteFor registerNode.blockHash]

def stoppedNode : Node firstVoteEngine sampleApplication :=
  (stashedEvents.foldlM (Node.after sampleHost 4) sampleCold).get (by decide +kernel)

/-- A round no round stands for is returned as an error: in a proposal at the host's height, in a
synced certificate, and from the stash once the height is reached by another peer's vote. -/
theorem undecodedRound_stops :
    Reaches (NodeStep sampleHost) sampleCold [.restart sampleStore 1] bootedNode ∧
    (onWire sampleHost 4 (strayProposal 1) bootedNode.core).map (·.1) =
      some (.error (.codec (.invalid "round"))) ∧
    (onSyncValue sampleHost 4 1 registerNode ⟨1, -2, registerNode.blockHash, []⟩
      bootedNode.core).map (·.1) = some (.error (.codec (.invalid "round"))) ∧
    Reaches (NodeStep sampleHost) sampleCold stashedEvents stoppedNode ∧
    stoppedNode.running = false := by
  have hb := Node.step_of_after sampleHost sampleCold (.restart sampleStore 1) bootedNode
    (some_get _).symm
  refine ⟨.snoc .refl hb, by decide +kernel, by decide +kernel, ?_, by decide +kernel⟩
  exact .of_foldlM (Node.step_of_after sampleHost _ _ _) (some_get _).symm

end HopNet
