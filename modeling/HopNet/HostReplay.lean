import HopNet.HostUpkeep

namespace HopNet

open Fallible Prog Meets Runs HostCore HostError Store

variable {E : Engine} {A : Application} {C : HostConfig}

/-- What a run is watched for: held blocks, stashed proposals, the database. -/
structure Watch (A : Application) where
  Good : Block → Prop
  Wire : WireProposedValue → Prop
  Kept : Store A.State → Prop

/-- Every block held stands under its name and is good, and so every block handed to a decide, under
its certificate's value id. -/
structure Tracked (W : Watch A) (core : HostCore E A) : Prop where
  blocks : ∀ h id b, core.blocks h id = some b → W.Good b ∧ b.blockHash = id
  handed : ∀ p ∈ core.handed, W.Good p.1 ∧ p.1.blockHash = p.2.valueId
  stashed : ∀ w ∈ core.stashed, W.Wire w
  store : W.Kept core.store

/-- Blocks whose name was checked are good, and the host keeps its database: it counts an operation,
rewrites the log, or decides a good block under its name. -/
structure Rules (C : HostConfig) (W : Watch A) : Prop where
  named : ∀ b : Block, b.Named C.prims → W.Good b
  counted : ∀ s, W.Kept s → W.Kept { s with ops := s.ops + 1 }
  logged : ∀ s wal trail, W.Kept s → W.Kept { s with wal, trail }
  decided : ∀ s s' block (cert : WireCommitCertificate), W.Good block →
    block.blockHash = cert.valueId → W.Kept s →
    decideAtomically C.faults A (fun b => (C.encodeBlock b).isOk) cert.height block cert s =
      .ok ((), s') → W.Kept s'

lemma Rules.free {Good : Block → Prop} {Wire : WireProposedValue → Prop}
    (hn : ∀ b : Block, b.Named C.prims → Good b) :
    Rules C (⟨Good, Wire, fun _ => True⟩ : Watch A) :=
  ⟨hn, fun _ _ => trivial, fun _ _ _ _ => trivial, fun _ _ _ _ _ _ _ _ => trivial⟩

variable {W : Watch A} {Err : HostError E.Error → Prop}

namespace Tracked

variable {core : HostCore E A}

lemma insertBlock (inv : Tracked W core) (height : Nat)
    {block} (hg : W.Good block) : Tracked W (core.insertBlock height block) := by
  refine { inv with blocks := ?_ }
  intro h id b hf
  simp only [HostCore.insertBlock] at hf
  by_cases hh : h = height ∧ id = block.blockHash
  · rw [if_pos hh] at hf
    cases hf
    exact ⟨hg, hh.2.symm⟩
  · rw [if_neg hh] at hf
    exact inv.blocks h id b hf

lemma forgetBlocks (inv : Tracked W core) (decided : Nat) :
    Tracked W (core.forgetBlocks decided) := by
  refine { inv with blocks := ?_ }
  intro h id b hf
  simp only [HostCore.forgetBlocks] at hf
  by_cases hk : decided < h
  · rw [if_pos hk] at hf
    exact inv.blocks h id b hf
  · rw [if_neg hk] at hf
    cases hf

end Tracked

lemma Rules.walAppend (rules : Rules C W) {height seq entry s s'}
    (held : W.Kept s) (ran : Store.walAppend height seq entry s = .ok ((), s')) : W.Kept s' := by
  unfold Store.walAppend at ran
  split at ran
  · cases ran
  · cases ran
    exact rules.logged s _ _ held

/-- A decide gets the block held under its certificate's value id; a synced value is remembered
under a checked name only. -/
lemma handleEffect_keeps (rules : Rules C W) (effect : Effect) :
    Keeps (Tracked W) Fatal (handleEffect C effect : Host E A Resume) := by
  have counted : ∀ {s : Store A.State} (n : Nat), W.Kept s → W.Kept (s.counted n) :=
    fun n held => counted_keeps rules.counted held n
  have handed : ∀ {core : HostCore E A} {cert : CommitCertificate} {block : Block}, Tracked W core →
      core.blocks cert.height cert.valueId = some block →
      ∀ p ∈ core.handed ++ [(block, cert.toWire)], W.Good p.1 ∧ p.1.blockHash = p.2.valueId := by
    intro core cert block inv hf
    exact List.forall_mem_append.2 ⟨inv.handed, List.forall_mem_singleton.2 (inv.blocks _ _ _ hf)⟩
  refine .of_run (handleEffect_outcome C · effect) ?_ ?_
  · intro core answer after inv outcome
    cases outcome with
    | quiet | replayed | refused => exact { inv with }
    | logged _ ran => exact { inv with store := rules.walAppend (counted _ inv.store) ran }
    | @decided cert block n store _ _ _ hf ran _ =>
      have named := inv.blocks _ _ _ hf
      exact ⟨(inv.forgetBlocks cert.height).blocks, handed inv hf, inv.stashed,
        rules.decided _ store block cert.toWire named.1 named.2 (counted n inv.store) ran⟩
    | @synced value _ block n _ _ hn =>
      exact ⟨(inv.insertBlock value.certificate.height (rules.named block hn)).blocks, inv.handed,
        inv.stashed, counted n inv.store⟩
  · intro core e after inv outcome
    cases outcome with
    | unlogged => exact ⟨trivial, { inv with store := counted _ inv.store }⟩
    | missing => exact ⟨trivial, inv⟩
    | undecided hf => exact ⟨trivial, inv.blocks, handed inv hf, inv.stashed, counted _ inv.store⟩
    | unvalidated fatal => exact ⟨fatal, { inv with store := counted _ inv.store }⟩

/-- It is the same that is kept between two inputs and between two calls. -/
def Watch.upkeep (W : Watch A) : Upkeep E A := ⟨W.Good, W.Wire, Tracked W, Tracked W, Tracked W⟩

lemma Rules.upkeep (rules : Rules C W) : (W.upkeep : Upkeep E A).Holds C where
  queued _ _ _ inv := { inv with }
  drive input rest := by
    refine driveOnce_meets (I := Tracked W) (Q := fun _ => True) (fun core pre => ?_)
      (fun effect _ => handleEffect_keeps rules effect) (fun _ _ => .trivial _)
      fun _ _ inv _ => { inv with }
    obtain ⟨state, lastValCount, hw⟩ := withThresholds_eq C input core
    rw [hw]
    exact { pre.2 with }
  rested _ _ inv := inv
  left _ inv := inv.elim id id
  aside _ _ _ _ _ inv := { inv with }
  remember _ height _ good inv := inv.insertBlock height good
  counted _ n inv := { inv with store := counted_keeps rules.counted inv.store n }
  stashed _ inv := inv.stashed
  stash _ _ wire inv := { inv with stashed := wire }

variable {Good : Block → Prop} {height : Nat} {core : HostCore E A} {entry : WalEntry}

/-- The rows of a height bring `Good` blocks only. -/
def Logged {σ : Type} (Good : Block → Prop) (store : Store σ) (height : Nat) : Prop :=
  ∀ row ∈ store.wal, row.height = height → row.entry.Carries Good

/-- Tracked, and the log for a height is in order. -/
abbrev Ready (W : Watch A) (height : Nat) : HostCore E A → Prop :=
  Tracked { W with Kept := fun store => W.Kept store ∧ Logged W.Good store height }

/-- Tracked, and the log for the pending height, if any, is in order. -/
def Pending (W : Watch A) (core : HostCore E A) : Prop :=
  Tracked W core ∧ ∀ height ∈ core.deferredStart, Logged W.Good core.store height

lemma Ready.tracked (hr : Ready W height core) : Tracked W core :=
  { hr with store := hr.store.1 }

lemma Tracked.ready (inv : Tracked W core) (hl : Logged W.Good core.store height) :
    Ready W height core :=
  ⟨inv.blocks, inv.handed, inv.stashed, inv.store, hl⟩

lemma Rules.policy (rules : Rules C W) (wire : ∀ w, W.Wire w → W.Good w.block) :
    Policy C (W.upkeep : Upkeep E A) fun _ => True :=
  ⟨rules.upkeep, wire, fun _ _ => trivial, fun _ _ _ _ => trivial⟩

section

variable (rules : Rules C W)
include rules

lemma durable_walFetch (height : Nat) : Meets (Ready W height)
    (durable C (Store.walFetch height) : Host E A (List WireWalEntry))
    (fun entries core => Ready W height core ∧ ∀ entry ∈ entries, entry.Carries W.Good)
    (fun _ => Tracked W) := by
  refine durable_meets (fun core n entries store ready ran => ?_) fun core n _ ready => ?_
  · obtain ⟨⟨wal, rfl, kept⟩, taken⟩ := Store.walFetch_ok ran
    have held := Store.counted_keeps rules.counted ready.store.1 n
    refine ⟨{ ready with store := ⟨rules.logged _ wal _ held, fun row inWal => ?_⟩ }, ?_⟩
    · exact ready.store.2 row (kept row inWal)
    · intro entry member
      obtain ⟨row, inLog, atHeight, rfl⟩ := taken entry member
      exact ready.store.2 row inLog atHeight
  · exact { ready with store := Store.counted_keeps rules.counted ready.store.1 n }

lemma walEntries_meets (height : Nat) (isRestart : Bool) :
    Meets (Ready W height) (walEntries C height isRestart : Host E A _)
      (fun entries core => Tracked W core ∧ ∀ entry ∈ entries, entry.Carries W.Good)
      (fun _ => Tracked W) := by
  cases isRestart with
  | false =>
    exact (durable_walFetch rules height).weaken (fun _ _ post => ⟨post.1.tracked, post.2⟩)
      fun _ _ inv => inv
  | true =>
    refine .seq (I := Tracked W) ?_ (.pure fun _ inv => ⟨inv, by simp⟩)
    refine durable_meets (fun core n _ store ready ran => ?_) fun core n _ ready => ?_
    · cases ran
      have held := Store.counted_keeps rules.counted ready.store.1 n
      exact { ready.tracked with store := rules.logged _ [] _ held }
    · exact { ready.tracked with store := Store.counted_keeps rules.counted ready.store.1 n }

variable (wire : ∀ w, W.Wire w → W.Good w.block)
include wire

lemma startHeight_meets (fuel height : Nat) (isRestart : Bool) :
    Meets (Ready W height) (startHeight C fuel height isRestart : Host E A Unit)
      (fun _ => Tracked W) (fun _ => Tracked W) := by
  apply Meets.get_bind
  intro core _
  apply Meets.bind (walEntries_meets rules height isRestart)
  intro entries
  apply Meets.knowing
  intro carries
  refine .seq (I := Tracked W) ?_ (.seq (I := Tracked W) (.modify fun _ inv => { inv with }) ?_)
  · exact .when (fun _ => .modify fun _ inv => { inv with }) fun _ _ inv => inv
  · exact (rules.upkeep.feedStrict_returns fuel fun _ inv => { inv with }).seq
      ((rules.policy wire).replayed_returns fuel carries)

lemma startOrDefer_meets (fuel height : Nat) :
    Meets (Ready W height) (startOrDefer C fuel height : Host E A Bool)
      (fun _ => Tracked W) (fun _ => Tracked W) := by
  have started : Meets (Ready W height)
      (startHeight C fuel height false >>= fun _ => pure true : Host E A Bool)
      (fun _ => Tracked W) (fun _ => Tracked W) :=
    (startHeight_meets rules wire fuel height false).seq (.pure fun _ inv => inv)
  unfold startOrDefer
  split
  · exact started
  · apply Meets.bind (durable_walFetch rules height)
    intro entries
    apply Meets.knowing
    intro _
    split
    · exact .seq (.modify fun _ ready => { ready with store := ready.store.1 })
        (.pure fun _ inv => inv)
    · exact started

lemma shellStep_tracked (fuel : Nat) {i} (brings : i.Brings W.Good W.Wire) :
    Meets (Pending W) (shellStep C fuel i : Host E A Unit)
      (fun _ => Tracked W) (fun _ => Tracked W) := by
  refine (rules.policy wire).shellStep_returns (R := Ready W) (fun _ pending => pending.1)
    (fun core height pending paused => ?_) (startHeight_meets rules wire fuel · false) brings
  exact { pending.1.ready (pending.2 height paused) with }

end

/-- What an event brings, from outside and from the rows a replay would read. -/
def NodeEvent.Brings (Good : Block → Prop) (Wire : WireProposedValue → Prop)
    (Kept : Store A.State → Prop) (core : HostCore E A) : NodeEvent A → Prop
  | .input i => i.Brings Good Wire ∧ ∀ height ∈ core.deferredStart, Logged Good core.store height
  | .restart store height => Kept store ∧ Logged Good store height

/-- Steps whose events bring only what the predicates allow. -/
def BringStep (C : HostConfig) (Good : Block → Prop) (Wire : WireProposedValue → Prop)
    (Kept : Store A.State → Prop) (node : Node E A) (event : NodeEvent A) (node' : Node E A) :
    Prop :=
  NodeStep C node event node' ∧ event.Brings Good Wire Kept node.core

instance (Good : Block → Prop) [DecidablePred Good] (entry : WireWalEntry) :
    Decidable (entry.Carries Good) := by
  cases entry <;> unfold WireWalEntry.Carries <;> infer_instance

instance {σ : Type} (Good : Block → Prop) [DecidablePred Good] (store : Store σ) (height : Nat) :
    Decidable (Logged Good store height) :=
  inferInstanceAs (Decidable (∀ row ∈ store.wal, row.height = height → row.entry.Carries Good))

instance (Good : Block → Prop) [DecidablePred Good] (Wire : WireProposedValue → Prop)
    [DecidablePred Wire] (i : HostInput) : Decidable (i.Brings Good Wire) := by
  unfold HostInput.Brings
  split <;> infer_instance

instance (Good : Block → Prop) [DecidablePred Good] (Wire : WireProposedValue → Prop)
    [DecidablePred Wire] (Kept : Store A.State → Prop) [DecidablePred Kept] (core : HostCore E A)
    (event : NodeEvent A) : Decidable (event.Brings Good Wire Kept core) := by
  cases event <;> unfold NodeEvent.Brings <;> infer_instance

/-- The step of an event that brings only what is allowed. -/
def bring (C : HostConfig) (Good : Block → Prop) [DecidablePred Good]
    (Wire : WireProposedValue → Prop) [DecidablePred Wire] (Kept : Store A.State → Prop)
    [DecidablePred Kept] (fuel : Nat) (node : Node E A) (event : NodeEvent A) :
    Option (Node E A) :=
  if event.Brings Good Wire Kept node.core then node.after C fuel event else none

lemma bringStep_of_bring [DecidablePred Good] {Wire : WireProposedValue → Prop} [DecidablePred Wire]
    {Kept : Store A.State → Prop} [DecidablePred Kept] {fuel} (node : Node E A)
    (event : NodeEvent A) (node' : Node E A)
    (ran : bring C Good Wire Kept fuel node event = some node') :
    BringStep C Good Wire Kept node event node' := by
  unfold bring at ran
  split at ran
  · rename_i hb
    exact ⟨Node.step_of_after C node event node' ran, hb⟩
  · cases ran

lemma HostCore.new_tracked {store} (kept : W.Kept store) (height : Nat) :
    Tracked W (new C store height : HostCore E A) :=
  ⟨by simp [new], by simp [new], by simp [new], kept⟩

variable (rules : Rules C W) (wire : ∀ w, W.Wire w → W.Good w.block)
include rules wire

lemma BringStep.tracked {node node' : Node E A} {event}
    (inv : Tracked W node.core) (taken : BringStep C W.Good W.Wire W.Kept node event node') :
    Tracked W node'.core := by
  obtain ⟨step, brings⟩ := taken
  cases step with
  | input ran => exact (shellStep_tracked rules wire _ brings.1).leaves ⟨inv, brings.2⟩ ran
  | @restart _ store height fuel core' result ran =>
    have fresh : Tracked W (new C store height : HostCore E A) :=
      new_tracked brings.1 height
    exact (startOrDefer_meets rules wire fuel height).leaves (fresh.ready brings.2) ran

/-- Every state a node reaches, over any inputs, restarts and engine. -/
lemma tracked_of_reaches {store} (kept : W.Kept store) {past} {node : Node E A}
    (run : Reaches (BringStep C W.Good W.Wire W.Kept) (Node.cold C store height) past node) :
    Tracked W node.core :=
  run.invariant_state (fun node => Tracked W node.core)
    (new_tracked kept height) fun _ _ _ inv taken => taken.tracked rules wire inv

end HopNet
