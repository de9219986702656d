import HopNet.HostReplay
import HopNet.ValidatorHistory

namespace HopNet

open Prog Runs Option

variable {E : Engine} {A : Application} {C : HostConfig}

def ValidateFailure.verdict : ValidateFailure → ValidationVerdict
  | .transient _ => .undetermined
  | .semantic _ => .invalid

/-- `HopNetApplication`. What a validation or a handler reads besides the tables may differ each
time; the decide writes the height and the tip that the tables are read with; `unseated` is the
assertion that the set is not empty. -/
def App.application {R : Type} (A : App R) (env : Nat → ValidationEnv R)
    (clock : Nat → Transaction → Nat → Int) (unseated : HopNetValidatorSet) : Application where
  State := Db R
  validateBlock db moment height block origin :=
    match validateInner A { env moment with origin } height block db with
    | .ok () => .valid
    | .error failure => failure.verdict
  applyBlock db moment height block :=
    (decideBlock (A.clocked (clock moment)) height block db).mapError fun _ => .permanent
  validatorSet db height :=
    (HopNetValidatorSet.new ((getValidators db height).map fun n =>
      .new n.nodeId n.pubkey)).getD unseated
  sealedAfter _ block := block.data.transactions.any fun tx => tx.rpc.function = "regenesis_commit"

/-- A step counter that decides on the first vote for a value it is fed. -/
def firstVoteEngine : Engine where
  State := Nat
  Error := Unit
  new height _ _ := height
  height state := state
  round _ := .nil
  getProposer _ _ _ := 0
  stepIsPropose _ := false
  hasFullProposal _ _ _ _ := true
  installThresholds _ _ _ state := state
  process input state :=
    match input with
    | .startHeight height _ _ => .done (height, .ok ())
    | .vote v =>
      match v.message.value with
      | .nil => .done (state, .ok ())
      | .val id =>
        .ask (.decide ⟨v.message.height, v.message.round, id, []⟩) fun _ => .done (state, .ok ())
    | _ => .done (state, .ok ())

instance : DecidableEq firstVoteEngine.Error := inferInstanceAs (DecidableEq Unit)

/-- Every block that enters, from a peer, this node or a replayed row, carries the hash of its
content. -/
abbrev NamedStep (C : HostConfig) : Node E A → NodeEvent A → Node E A → Prop :=
  BringStep C (Block.Named C.prims) (fun w => w.block.Named C.prims) fun _ => True

/-- Whatever the engine does, each block is held under the hash of its content, and a decide hands
over a block with the content its certificate names. -/
theorem decided_content_named {store : Store A.State} {height : Nat} {past : List (NodeEvent A)}
    {node : Node E A} (run : Reaches (NamedStep C) (Node.cold C store height) past node) :
    (∀ h id b, node.core.blocks h id = some b → b.data.computeHash C.prims = .ok id) ∧
      ∀ p ∈ node.core.handed, p.1.data.computeHash C.prims = .ok p.2.valueId := by
  have ht :=
    tracked_of_reaches (W := ⟨Block.Named C.prims, fun w => w.block.Named C.prims, fun _ => True⟩)
    (.free fun _ hn => hn) (fun _ wire => wire) trivial run
  constructor
  · intro h id b held
    obtain ⟨hn, hi⟩ := ht.blocks h id b held
    rw [← hi]
    exact hn
  · intro p hh
    obtain ⟨hn, hi⟩ := ht.handed p hh
    rw [← hi]
    exact hn

/-- Node 0 of the sample mesh; its storage does not fail. -/
def sampleHost : HostConfig where
  prims := .sample
  chainId := .replicate 32 0
  sign _ := Primitives.sampleSign (.replicate 32 1)
  myAddr := 0
  profile := .majority
  onDemand := false
  encodeBlock _ := .ok []
  decodeBlock _ := .error .decode
  faults _ := none

def sampleApplication : Application :=
  App.sample.application (fun _ => sampleEnv 0) (fun _ _ _ => 0)
    ⟨[.new 0 (.replicate 32 1)], by simp, by simp, by simp⟩

def sampleStore : Store sampleApplication.State := ⟨sampleGenesis, [], [], some 0, 0, []⟩

def sampleCold : Node firstVoteEngine sampleApplication := .cold sampleHost sampleStore 1

/-- A peer's proposal of `block` at height 1, round 0. -/
def proposalOf (block : Block) : NodeEvent sampleApplication :=
  .input (.wire (.proposedValue ⟨1, 0, -1, 0, block⟩))

/-- A vote at height 1 for a value id. -/
def voteFor (id : Blake3Hash) : NodeEvent sampleApplication :=
  .input (.wire (.vote ⟨.precommit, 1, 0, some id, 0, Primitives.sampleSign (.replicate 32 1)⟩))

def honestEvents : List (NodeEvent sampleApplication) :=
  [.restart sampleStore 1, proposalOf registerNode, voteFor registerNode.blockHash]

/-- The node that took the block under its own name and decided it. -/
def honestNode : Node firstVoteEngine sampleApplication :=
  (honestEvents.foldlM (bring sampleHost (Block.Named .sample) (fun w => w.block.Named .sample)
    (fun _ => True) 4)
    sampleCold).get (by decide +kernel)

theorem decided_content_named_registerNode : honestNode.core.handed.map (·.1) = [registerNode] ∧
    ∀ p ∈ honestNode.core.handed, p.1.data.computeHash .sample = .ok p.2.valueId := by
  have run : Reaches (NamedStep sampleHost) sampleCold honestEvents honestNode :=
    .of_foldlM (bringStep_of_bring _ _ _) (some_get _).symm
  exact ⟨by decide +kernel, (decided_content_named run).2⟩

/-- The name of the block that registers node 1, over one without transactions. -/
def forgedBlock : Block :=
  ⟨registerNode.blockHash, { registerNode.data with transactions := [] }⟩

def forgedEvents : List (NodeEvent sampleApplication) :=
  [.restart sampleStore 1, proposalOf registerNode, proposalOf forgedBlock,
    voteFor registerNode.blockHash]

def forgedNode : Node firstVoteEngine sampleApplication :=
  (forgedEvents.foldlM (Node.after sampleHost 4) sampleCold).get (by decide +kernel)

/-- A peer's later proposal under the same name replaces the block the node validated, although
its own verdict is `Invalid`; the decide applies and stores it under the certificate. -/
theorem forgedProposal_decided : Reaches (NodeStep sampleHost) sampleCold forgedEvents forgedNode ∧
    forgedNode.running = true ∧
    sampleApplication.validateBlock sampleGenesis 0 1 forgedBlock .live = .invalid ∧
    forgedNode.core.handed = [(forgedBlock, ⟨1, 0, registerNode.blockHash, []⟩)] ∧
    forgedNode.core.store.decided = [(forgedBlock, ⟨1, 0, registerNode.blockHash, []⟩)] ∧
    forgedBlock.data.computeHash .sample ≠ .ok registerNode.blockHash := by
  refine ⟨?_, by decide +kernel, by decide +kernel, by decide +kernel, by decide +kernel, by decide⟩
  exact .of_foldlM (Node.step_of_after sampleHost _ _ _) (some_get _).symm

end HopNet
