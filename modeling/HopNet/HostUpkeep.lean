import HopNet.HostOutcomes
import HopNet.HostInputs
import HopNet.Lib.Runs

/-!
What the host's programs keep. An invariant that one input of the engine keeps, and the host's own
writes between two inputs, is kept by every program of the host. -/

namespace HopNet

open Prog Meets List HostError

variable {E : Engine} {A : Application} {C : HostConfig} {Err : HostError E.Error → Prop}

def Input.Starts : Input → Prop
  | .startHeight _ _ _ => True
  | _ => False

/-- What a run may be given, and what it is watched for: between two inputs of its queue, between
two calls, and when a call has failed. -/
structure Upkeep (E : Engine) (A : Application) where
  Good : Block → Prop
  Wire : WireProposedValue → Prop
  Fed : HostCore E A → Prop
  Idle : HostCore E A → Prop
  Left : HostCore E A → Prop

/-- One input of the queue keeps what is watched for, and so does every write between two. -/
structure Upkeep.Holds (U : Upkeep E A) (C : HostConfig) : Prop where
  queued : ∀ core input, ¬ input.Starts → U.Idle core →
    U.Fed { core with pendingInputs := core.pendingInputs ++ [input] }
  drive : ∀ input rest,
    Meets (fun core => core.pendingInputs = rest ∧
      U.Fed { core with pendingInputs := input :: rest }) (driveOnce C input) (fun _ => U.Fed)
      fun e core => (e.Fatal ∨ ∃ cause, e = .engine cause) ∧ U.Fed core
  rested : ∀ core, core.pendingInputs = [] → U.Fed core → U.Idle core
  left : ∀ core, U.Fed core ∨ U.Idle core → U.Left core
  aside : ∀ core outputs sent phase deferredStart, U.Idle core →
    U.Idle { core with outputs, sent, phase, deferredStart }
  remember : ∀ core height block, U.Good block → U.Idle core →
    U.Idle (core.insertBlock height block)
  counted : ∀ core n, U.Idle core → U.Idle { core with store := core.store.counted n }
  stashed : ∀ core, U.Idle core → ∀ w ∈ core.stashed, U.Wire w
  stash : ∀ core stashed, (∀ w ∈ stashed, U.Wire w) → U.Idle core → U.Idle { core with stashed }

/-- A step of the engine: the thresholds are installed, the effects it may ask for keep `I`, and
it ends in `Q`, or fails with an effect's error or its own. -/
lemma driveOnce_meets {P I J : HostCore E A → Prop} {Asks : Effect → Prop}
    {Q : E.State → Prop} {input}
    (hi : ∀ core, P core → I (withThresholds C input core))
    (he : ∀ effect, Asks effect → Keeps I Err (handleEffect C effect : Host E A Resume))
    (hp : ∀ core, I core → (E.process input core.state).All Asks fun out => Q out.1)
    (hs : ∀ core state, I core → Q state → J { core with state }) :
    Meets P (driveOnce C input) (fun _ => J) fun e core =>
      (Err e ∨ ∃ cause, e = .engine cause) ∧ J core := by
  apply bind (Q := fun _ => I)
  · refine .of_run (R := fun core r core' => r = .ok () ∧ core' = withThresholds C input core)
      (fun core => ⟨_, _, installThresholds_eq C input core, rfl, rfl⟩) ?_ ?_
    · rintro core a _ pre ⟨_, rfl⟩
      exact hi core pre
    · rintro core e _ pre ⟨h, _⟩
      cases h
  intro _
  apply bind (Q := fun core core' => I core ∧ I core') (.get fun _ inv => ⟨inv, inv⟩)
  intro core
  apply bind (Q := fun out s => I s ∧ Q out.1.1 ∧ ∀ e ∈ out.2, Err e)
  · intro s r s' inv ran
    have driven := (hp core inv.1).drive he (by simp) s r s' inv.2 ran
    cases r with
    | ok out => exact driven
    | error e => exact driven.elim
  intro out
  apply bind (Q := fun _ s => J s ∧ ∀ e ∈ out.2, Err e)
  · exact .modify fun core pre => ⟨hs core _ pre.1 pre.2.1, pre.2.2⟩
  intro _
  split
  · rename_i e hp
    exact .fail fun _ pre => ⟨Or.inl (pre.2 e (by simp [hp])), pre.1⟩
  · exact .lift (fun _ _ _ pre => pre.1) fun cause _ _ pre => ⟨Or.inr ⟨cause, rfl⟩, pre.1⟩

/-- An operation of the storage is done under some number of attempts, or fails and only counts. -/
lemma durable_meets {α : Type} {op : Store A.State → Except StorageError (α × Store A.State)}
    {P : HostCore E A → Prop} {Q : α → HostCore E A → Prop}
    {F : HostError E.Error → HostCore E A → Prop}
    (done : ∀ core n a store, P core → op (core.store.counted n) = .ok (a, store) →
      Q a { core with store })
    (failed : ∀ core n e, P core → F (.storage e) { core with store := core.store.counted n }) :
    Meets P (durable C op) Q F := by
  intro core r core' pre ran
  obtain ⟨n, ⟨e, he⟩ | ⟨a, store, ho, ha⟩⟩ := durable_cases C core op
  · cases he.symm.trans ran
    exact failed core n e pre
  · cases ha.symm.trans ran
    exact done core n a store pre ho

variable {U : Upkeep E A}

/-- A call from `P` restores what is watched for between two calls. -/
abbrev Upkeep.Returns {α : Type} (U : Upkeep E A) (P : HostCore E A → Prop) (x : Host E A α) :
    Prop :=
  Meets P x (fun _ => U.Idle) fun _ => U.Left

/-- A call keeps what is watched for, also where it fails, with an error in `Err`. -/
abbrev Upkeep.Settles {α : Type} (U : Upkeep E A) (Err : HostError E.Error → Prop)
    (x : Host E A α) : Prop :=
  Meets U.Idle x (fun _ => U.Idle) fun e core => Err e ∧ U.Left core

lemma Upkeep.Settles.returns {α : Type} {x : Host E A α} (settles : U.Settles Err x) :
    U.Returns U.Idle x :=
  settles.weaken (fun _ _ idle => idle) fun _ _ failed => failed.2

namespace Upkeep.Holds

variable (holds : U.Holds C)
include holds

lemma remember_settles (height : Nat) {block} (good : U.Good block) :
    U.Settles Err (rememberBlock height block : Host E A Unit) :=
  .modify fun core idle => holds.remember core height block good idle

lemma validate_settles (origin : ValidationOrigin) (height : Nat) (block : Block) :
    U.Settles Fatal (validate C origin height block : Host E A ValidationVerdict) := by
  refine .of_run (validate_run C · origin height block) ?_ ?_
  · rintro core _ _ idle ⟨⟨n, rfl⟩, _⟩
    exact holds.counted core n idle
  · rintro core e _ idle ⟨⟨n, rfl⟩, fatal⟩
    exact ⟨fatal e rfl, holds.left _ (.inr (holds.counted core n idle))⟩

/-- One input of the queue is taken off and handled, however that is done. -/
lemma popInput_meets {step : Input → Host E A Unit} {F : HostError E.Error → HostCore E A → Prop}
    (handled : ∀ input rest, Meets (fun core => core.pendingInputs = rest ∧
      U.Fed { core with pendingInputs := input :: rest }) (step input) (fun _ => U.Fed) F) :
    Meets U.Fed (popInput step) (fun again => cond again U.Fed U.Idle) F := by
  apply bind (Q := fun read core => read = core ∧ U.Fed core) (.get fun _ fed => ⟨rfl, fed⟩)
  intro read
  cases queue : read.pendingInputs with
  | nil => exact .pure fun core pre => holds.rested core (pre.1 ▸ queue) pre.2
  | cons input rest =>
    refine (Meets.modify ?_).seq ((handled input rest).seq (.pure fun _ fed => fed))
    rintro core ⟨rfl, fed⟩
    exact ⟨rfl, queue ▸ fed⟩

/-- Live inputs end in a fatal error or none. -/
lemma feed_settles (fuel : Nat) {input : Input} (live : ¬ input.Starts) :
    U.Settles Fatal (feed C fuel input : Host E A Unit) := by
  refine (Meets.modify fun core idle => holds.queued core input live idle).seq
    (.loop (holds.popInput_meets fun input rest => ?_) fuel)
  apply bind (Q := fun r core => U.Fed core ∧
    ∀ e, r = .error e → e.Fatal ∨ ∃ cause, e = engine cause)
  · refine Meets.attempt ((holds.drive input rest).weaken ?_ ?_)
    · intro _ _ fed
      exact ⟨fed, by simp⟩
    · intro e _ failed
      exact ⟨failed.2, by simpa using failed.1⟩
  intro r
  split
  · exact .pure fun _ pre => pre.1
  · exact .pure fun _ pre => pre.1
  · exact .pure fun _ pre => pre.1
  · rename_i e other _
    apply Meets.fail
    intro core pre
    rcases pre.2 e rfl with fatal | ⟨cause, same⟩
    · exact ⟨fatal, holds.left core (.inl pre.1)⟩
    · exact absurd same (other cause)

lemma feedStrict_returns (fuel : Nat) {input : Input} {P : HostCore E A → Prop}
    (queued : ∀ core, P core → U.Fed { core with pendingInputs := core.pendingInputs ++ [input] }) :
    U.Returns P (feedStrict C fuel input : Host E A Unit) := by
  refine (Meets.modify queued).seq (.loop (holds.popInput_meets fun input rest => ?_) fuel)
  exact (holds.drive input rest).weaken (fun _ _ fed => fed) fun _ core failed =>
    holds.left core (.inl failed.2)

end Upkeep.Holds

/-- What the host may be handed and fail with: proposals bring good blocks, and errors are fatal or
those of a proposal that does not decode. -/
structure Policy (C : HostConfig) (U : Upkeep E A) (Err : HostError E.Error → Prop) : Prop where
  holds : U.Holds C
  wire : ∀ w, U.Wire w → U.Good w.block
  fatal : ∀ e : HostError E.Error, e.Fatal → Err e
  codec : ∀ w c, U.Wire w → ¬ w.Decodes → Err (.codec c)

namespace Policy

variable (policy : Policy C U Err)
include policy

lemma fatal_settles {α : Type} {x : Host E A α} (settles : U.Settles Fatal x) : U.Settles Err x :=
  settles.weaken (fun _ _ idle => idle) fun e _ failed => ⟨policy.fatal e failed.1, failed.2⟩

lemma ingestProposal_settles (fuel : Nat) {w} (wire : U.Wire w) :
    U.Settles Err (ingestProposal C fuel w : Host E A Unit) := by
  apply bind (policy.fatal_settles (policy.holds.validate_settles _ _ _))
  intro verdict
  apply bind (Q := fun pv core => U.Idle core ∧ U.Good pv.value)
  · apply Meets.lift
    · intro pv _ decoded idle
      rw [WireProposedValue.intoProposedValue_ok decoded]
      exact ⟨idle, policy.wire w wire⟩
    · intro c core failed idle
      exact ⟨policy.codec w c wire (WireProposedValue.intoProposedValue_error.1 failed).1,
        policy.holds.left core (.inr idle)⟩
  intro pv
  apply knowing
  intro good
  exact (policy.holds.remember_settles _ good).seq
    (policy.fatal_settles (policy.holds.feed_settles fuel id))

lemma ingestBatch_settles (fuel : Nat) {batch} (wire : ∀ w ∈ batch, U.Wire w) :
    U.Settles Err (ingestBatch C fuel batch : Host E A Unit) := by
  induction batch with
  | nil => exact .pure fun _ idle => idle
  | cons w rest ih =>
    apply get_bind
    intro core _
    refine (Meets.when (fun _ => policy.ingestProposal_settles fuel (wire w (by simp)))
      fun _ _ idle => idle).seq ?_
    exact ih fun w member => wire w (by simp [member])

lemma drainStashedProposals_settles (fuel : Nat) :
    U.Settles Err (drainStashedProposals C fuel : Host E A Unit) := by
  apply Meets.loop
  apply get_bind
  intro core read
  refine (Meets.modify (Q := fun _ => U.Idle) fun core idle => ?_).seq ?_
  · refine policy.holds.stash core _ (fun w member => ?_) idle
    exact policy.holds.stashed core idle w (mem_of_mem_filter member)
  split
  · exact .pure fun _ idle => idle
  · refine (policy.ingestBatch_settles fuel fun w member => ?_).seq (.pure fun _ idle => idle)
    exact policy.holds.stashed core read w (mem_of_mem_filter member)

lemma onWire_settles (fuel : Nat) {msg} (wire : ∀ w, msg = .proposedValue w → U.Wire w) :
    U.Settles Err (onWire C fuel msg : Host E A Unit) := by
  have drain := policy.drainStashedProposals_settles fuel
  have fed : ∀ {input : Input}, ¬ input.Starts →
      U.Settles Err (feed C fuel input : Host E A Unit) :=
        fun live => policy.fatal_settles (policy.holds.feed_settles fuel live)
  have decoded : ∀ {α : Type} (input : α → Input) (r : Except CodecError α),
      (∀ cert, ¬ (input cert).Starts) →
      U.Settles Err (feedDecoded C fuel input r : Host E A Unit) := by
    intro α input r live
    cases r with
    | ok cert => exact fed (live cert)
    | error _ => exact .pure fun _ idle => idle
  cases msg with
  | vote w | livenessVote w =>
    dsimp only [onWire]
    cases w.toSigned with
    | error _ => exact .pure fun _ idle => idle
    | ok sv => exact (fed id).seq drain
  | livenessPolka w | livenessSkipRound w => exact (decoded _ _ fun _ => id).seq drain
  | proposedValue w =>
    have ready := wire w rfl
    apply get_bind
    intro core _
    split
    · apply Meets.modify
      intro core idle
      unfold stashProposal
      split
      · refine policy.holds.stash core _ ?_ idle
        exact forall_mem_append.2 ⟨policy.holds.stashed core idle, forall_mem_singleton.2 ready⟩
      · exact idle
    · exact (Meets.when (fun _ => policy.ingestProposal_settles fuel ready)
        fun _ _ idle => idle).seq drain

lemma propose_settles (fuel height : Nat) (round : Round) {block} (good : U.Good block) :
    U.Settles Err (propose C fuel height round block : Host E A Unit) := by
  refine (policy.holds.remember_settles height good).seq (.seq (I := U.Idle) ?_ ?_)
  · exact policy.fatal_settles (policy.holds.feed_settles fuel id)
  · exact .modify fun core idle => policy.holds.aside core _ _ _ _ idle

lemma onSyncValue_returns (fuel : Nat) (peer : Int) (block : Block) (cert : WireCommitCertificate) :
    U.Returns U.Idle (onSyncValue C fuel peer block cert : Host E A Unit) := by
  have lifted : ∀ {α : Type} (r : Except CodecError α),
      U.Returns U.Idle (lift .codec r : Host E A α) := fun _ =>
    .lift (fun _ _ _ idle => idle) fun _ core _ idle => policy.holds.left core (.inr idle)
  apply get_bind
  intro core _
  split
  · exact .pure fun _ idle => idle
  split
  · exact .pure fun _ idle => idle
  · refine (lifted _).bind fun certificate => (lifted _).bind fun bytes => ?_
    exact (policy.holds.feed_settles fuel id).returns

end Policy

/-- The block of a logged entry, if it has one, is `Good`. -/
def WireWalEntry.Carries (Good : Block → Prop) : WireWalEntry → Prop
  | .proposal w => Good w.block
  | .proposedValue inner _ => Good inner.block
  | .vote _ | .timeout _ _ => True

def WalEntry.Carries (Good : Block → Prop) : WalEntry → Prop
  | .proposal p => Good p.message.value
  | .proposedValue pv => Good pv.value
  | .vote _ | .timeout _ => True

lemma WireWalEntry.toEntry_carries {Good : Block → Prop} {wire : WireWalEntry} {entry : WalEntry}
    (hd : wire.toEntry = .ok entry) (hc : wire.Carries Good) : entry.Carries Good := by
  cases wire with
  | vote w | timeout kind round =>
    simp only [toEntry, Fallible.bind_eq_ok, Fallible.pure_eq_ok] at hd
    obtain ⟨_, _, rfl⟩ := hd
    trivial
  | proposal w =>
    simp only [toEntry, WireProposal.toSigned, Fallible.bind_eq_ok, Fallible.pure_eq_ok] at hd
    obtain ⟨_, ⟨_, _, _, _, rfl⟩, rfl⟩ := hd
    exact hc
  | proposedValue inner valid =>
    simp only [toEntry, Fallible.bind_eq_ok, Fallible.pure_eq_ok] at hd
    obtain ⟨pv, hi, rfl⟩ := hd
    show Good pv.value
    rw [WireProposedValue.intoProposedValue_ok hi]
    exact hc

namespace Policy

variable (policy : Policy C U Err)
include policy

lemma replay_returns (fuel : Nat) {entries : List WireWalEntry}
    (carries : ∀ entry ∈ entries, entry.Carries U.Good) :
    U.Returns U.Idle (replay C fuel entries : Host E A Unit) := by
  have fed : ∀ {input : Input}, ¬ input.Starts →
      U.Returns U.Idle (feedStrict C fuel input : Host E A Unit) :=
    fun live => policy.holds.feedStrict_returns fuel fun core idle =>
      policy.holds.queued core _ live idle
  have remember : ∀ height {block}, U.Good block →
      U.Returns U.Idle (rememberBlock height block : Host E A Unit) :=
    fun height _ good => .modify fun core idle => policy.holds.remember core height _ good idle
  induction entries with
  | nil => exact .pure fun _ idle => idle
  | cons wire rest ih =>
    apply Meets.bind (Q := fun entry core => U.Idle core ∧ entry.Carries U.Good)
    · exact .lift (fun _ _ decoded idle => ⟨idle, wire.toEntry_carries decoded
        (carries wire (by simp))⟩) fun _ core _ idle => policy.holds.left core (.inr idle)
    intro entry
    apply Meets.knowing
    intro carried
    refine .seq (I := U.Idle) ?_ (ih fun entry member => carries entry (by simp [member]))
    cases entry with
    | vote | timeout => exact fed id
    | proposal | proposedValue => exact (remember _ carried).seq (fed id)

/-- What follows the start of a height: its log is replayed, and it runs as any other. -/
lemma replayed_returns (fuel : Nat) {entries : List WireWalEntry}
    (carries : ∀ entry ∈ entries, entry.Carries U.Good) :
    U.Returns U.Idle (do
      replay C fuel entries
      requestOwed C
      drainStashedProposals C fuel : Host E A Unit) := by
  refine (policy.replay_returns fuel carries).seq (.seq (I := U.Idle) (get_bind fun core _ => ?_)
    (policy.drainStashedProposals_settles fuel).returns)
  refine (Meets.modify fun core idle => policy.holds.aside core _ _ _ _ idle).seq ?_
  split
  · exact .when (fun _ => .modify fun core idle => policy.holds.aside core _ _ _ _ idle)
      fun _ _ idle => idle
  · exact .pure fun _ idle => idle

end Policy

def HostInput.Brings (Good : Block → Prop) (Wire : WireProposedValue → Prop) : HostInput → Prop
  | .wire (.proposedValue w) => Wire w
  | .propose _ _ block => Good block
  | _ => True

/-- A step of the shell from `P`, where a pending height is `R` to be started. -/
lemma Policy.shellStep_returns (policy : Policy C U Err) {P : HostCore E A → Prop}
    {R : Nat → HostCore E A → Prop} {fuel : Nat} (idle : ∀ core, P core → U.Idle core)
    (ready : ∀ core height, P core → core.deferredStart = some height →
      R height { core with deferredStart := none })
    (start : ∀ height, U.Returns (R height) (startHeight C fuel height false : Host E A Unit))
    {i} (brings : i.Brings U.Good U.Wire) : U.Returns P (shellStep C fuel i : Host E A Unit) := by
  have resume : U.Returns P (resumeHeight C fuel : Host E A Unit) := by
    apply Meets.bind (.get (Q := fun read core => read = core ∧ P core)
      fun _ pending => ⟨rfl, pending⟩)
    intro read
    cases paused : read.deferredStart with
    | none => exact .pure fun core pre => idle core pre.2
    | some height =>
      refine .seq (.modify ?_) (start height)
      exact fun core pre => ready core height pre.2 (pre.1 ▸ paused)
  have wake : ∀ height, U.Returns P (wake C fuel height : Host E A Unit) := by
    intro height
    apply get_bind
    intro core _
    split
    · exact .when (fun _ => resume) fun _ => idle
    · exact .pure idle
  cases i with
  | propose height round block =>
      exact (policy.propose_settles fuel height round brings).returns.pre idle
  | resume => exact resume
  | timeout t => exact (policy.holds.feed_settles fuel id).returns.pre idle
  | syncValue peer block cert =>
      exact (wake _).seq (policy.onSyncValue_returns fuel peer block cert)
  | wire msg =>
    refine (wake _).seq (policy.onWire_settles fuel ?_).returns
    rintro w rfl
    exact brings

end HopNet
