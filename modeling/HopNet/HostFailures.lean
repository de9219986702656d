import HopNet.HostBlocks

namespace HopNet

open Prog

variable {E : Engine} {A : Application} {C : HostConfig}

/-- Only the count of operations has moved, and what is recorded for stating properties. -/
def Untouched (before after : HostCore E A) : Prop :=
  ∃ ops handed clashed,
    after = { before with store := { before.store with ops }, handed, clashed }

lemma handleEffect_fails {core after : HostCore E A} {effect e}
    (hf : handleEffect C effect core = some (.error e, after)) :
    effect.Durable ∧ e.Fatal ∧ Untouched core after := by
  obtain ⟨result, after', ran, outcome⟩ := handleEffect_outcome C core effect
  cases ran.symm.trans hf
  cases outcome with
  | unlogged | missing | undecided => exact ⟨trivial, trivial, _, _, _, rfl⟩
  | unvalidated fatal => exact ⟨trivial, fatal, _, _, _, rfl⟩

section

variable {core before after : HostCore E A} {input : Input} {effects : List Effect}
  {effect : Effect} {resume : Resume → Coroutine Effect Resume (E.State × Except E.Error Unit)}
  {e : HostError E.Error} {rest : List Input}

/-- The step of an input whose effect fails returns the error; then the engine is only resumed. -/
lemma driveOnce_failed (he : Coroutine.Handled (handleEffect C)
      (E.process input (withThresholds C input core).state) (withThresholds C input core) effects
      (.ask effect resume) before)
    (hf : handleEffect C effect before = some (.error e, after)) :
    driveOnce C input core =
      some (.error e, { after with state := ((resume .continue).abandon .continue).1 }) := by
  unfold driveOnce
  rw [bind_of_ok (installThresholds_eq C input core)]
  show (Coroutine.drive (handleEffect C) .continue _ none >>= _) (withThresholds C input core) = _
  rw [bind_of_ok (he.drive_failed hf .continue)]
  rfl

lemma popInput_failed {step : Input → Host E A Unit} (hq : core.pendingInputs = input :: rest)
    (ran : step input { core with pendingInputs := rest } = some (.error e, after)) :
    popInput step core = some (.error e, after) := by
  rw [popInput, bind_of_ok (get_run core), hq]
  show (step input >>= _) { core with pendingInputs := rest } = _
  rw [bind_of_error ran]

lemma driveLive_failed (hf : e.Fatal) (ran : driveOnce C input core = some (.error e, after)) :
    driveLive C input core = some (.error e, after) := by
  have ha : attempt (driveOnce C input) core = some (.ok (.error e), after) := by
    simp only [attempt, ran]
  rw [driveLive, bind_of_ok ha]
  cases e with
  | engine | codec => exact hf.elim
  | storage | missingBlock => rfl

def HostCore.queue (core : HostCore E A) (input : Input) : HostCore E A :=
  { core with pendingInputs := core.pendingInputs ++ [input] }

/-- When the handling of an effect fails, whatever effects came before it and whatever the engine
would ask for after it: only an append, a decide or a sync validation can, it has done nothing but
begin operations, nothing happens but that the engine ends, and the step and the feed around it,
live or strict, return this error. -/
theorem failed_effect_stops {rest : List Input} (queued : core.pendingInputs = input :: rest)
    (emitted : Coroutine.Handled (handleEffect C)
      (E.process input (withThresholds C input { core with pendingInputs := rest }).state)
      (withThresholds C input { core with pendingInputs := rest }) effects
      (.ask effect resume) before)
    (hf : handleEffect C effect before = some (.error e, after)) :
    effect.Durable ∧ Untouched before after ∧
      let final := { after with state := ((resume .continue).abandon .continue).1 }
      driveOnce C input { core with pendingInputs := rest } = some (.error e, final) ∧
      (∀ start first rounds fuel, Iterates (feedNext C) rounds (start.queue first) core →
        rounds < fuel → feed C fuel first start = some (.error e, final)) ∧
      ∀ start first rounds fuel, Iterates (feedNextStrict C) rounds (start.queue first) core →
        rounds < fuel → feedStrict C fuel first start = some (.error e, final) := by
  obtain ⟨hd, hfa, hu⟩ := handleEffect_fails hf
  have hdr := driveOnce_failed emitted hf
  refine ⟨hd, hu, hdr, ?_, ?_⟩
  · intro start first rounds fuel hi hm
    exact hi.loop_error (popInput_failed queued (driveLive_failed hfa hdr)) hm
  · intro start first rounds fuel hi hm
    exact hi.loop_error (popInput_failed queued hdr) hm

end

/-- On a vote: a round is announced, and the vote is logged and published. -/
def loggingEngine : Engine where
  __ := firstVoteEngine
  process input state :=
    match input with
    | .startHeight height _ _ => .done (height, .ok ())
    | .vote v =>
      .ask (.startRound state .nil 0) fun _ => .ask (.walAppend state (.vote v)) fun _ =>
        .ask (.publishVote v) fun _ => .done (state, .ok ())
    | _ => .done (state, .ok ())

def sampleVote : SignedVote :=
  ⟨⟨.precommit, 1, .nil, .nil, 0⟩, Primitives.sampleSign (.replicate 32 1)⟩

/-- Node 0, no operation of which succeeds. -/
def failingHost : HostConfig := { sampleHost with faults := fun _ => some .permanent }

def failingCore : HostCore loggingEngine sampleApplication := .new failingHost sampleStore 1

/-- A vote that could not be logged is not published. -/
theorem unlogged_vote_stops : ∃ final,
    feed failingHost 1 (.vote sampleVote) failingCore = some (.error (.storage .permanent), final) ∧
      final.outputs = [.roundStarted 1 .nil 0] ∧ final.sent = [] ∧ final.store.wal = [] ∧
      final.walSeq = 0 := by
  have hs := @failed_effect_stops loggingEngine sampleApplication failingHost
    (failingCore.queue (.vote sampleVote)) _ _ (.vote sampleVote) _ _ _ _ [] rfl
    (.step rfl (.refl _ _)) rfl
  exact ⟨_, hs.2.2.2.1 failingCore (.vote sampleVote) 0 1 (.refl _) (by decide), rfl, rfl, rfl, rfl⟩

end HopNet
