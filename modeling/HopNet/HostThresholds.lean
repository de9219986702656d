import HopNet.HostFailures

namespace HopNet

open Prog Runs

variable {E : Engine} {A : Application} {C : HostConfig}

/-- What the engine does to its driver's and its parameters' thresholds. -/
structure Engine.Tunes (E : Engine) (thresholds : E.State → ThresholdParams × ThresholdParams) :
    Prop where
  new : ∀ height valset t, thresholds (E.new height valset t) = (t, t)
  installs : ∀ height valset t s, thresholds (E.installThresholds height valset t s) = (t, t)
  keeps : ∀ input s, (E.process input s).All (fun _ => True) fun out => thresholds out.1 =
    thresholds s

/-- An input driven from a core that has since changed only outside its engine. -/
def DriverStep (C : HostConfig) (core : HostCore E A) (input : Input) (core' : HostCore E A) :
    Prop :=
  ∃ mid result, (mid.lastValCount = core.lastValCount ∧ mid.state = core.state) ∧
    driveOnce C input mid = some (result, core')

/-- The size remembered after an input. -/
def Input.sizeAfter (n : Nat) : Input → Nat
  | .startHeight _ valset _ => valset.count
  | _ => n

/-- `n` is remembered, and the driver's and the parameters' thresholds are its. -/
def Tuned (C : HostConfig) (thresholds : E.State → ThresholdParams × ThresholdParams) (n : Nat)
    (core : HostCore E A) : Prop :=
  core.lastValCount = n ∧
    thresholds core.state = (C.profile.thresholdsFor n, C.profile.thresholdsFor n)

variable {thresholds : E.State → ThresholdParams × ThresholdParams} {core core' : HostCore E A}
  {n : Nat}

lemma handleEffect_tuned (effect : Effect) :
    Keeps (Tuned C thresholds n) (fun _ => True) (handleEffect C effect : Host E A Resume) := by
  refine .of_run (handleEffect_outcome C · effect) ?_ ?_
  · intro core a core' inv outcome
    cases outcome <;> exact inv
  · intro core e core' inv outcome
    cases outcome <;> exact ⟨trivial, inv⟩

section

variable (he : E.Tunes thresholds)
include he

/-- One effective profile has the same thresholds for every size. -/
lemma withThresholds_tuned (input : Input) (ht : Tuned C thresholds n core) :
    Tuned C thresholds (input.sizeAfter n) (withThresholds C input core) := by
  obtain ⟨rfl, ht⟩ := ht
  cases input with
  | startHeight height valset isRestart =>
    unfold withThresholds applyHeightThresholds
    dsimp only
    split_ifs with hp hn
    · refine ⟨rfl, ?_⟩
      rw [Input.sizeAfter, QuorumProfile.thresholdsFor, hp.1]
      exact ht
    · rw [Input.sizeAfter, hn]
      exact ⟨rfl, ht⟩
    · exact ⟨rfl, he.installs ..⟩
  | _ => exact ⟨rfl, ht⟩

lemma DriverStep.tuned {input} (ht : Tuned C thresholds n core)
    (hs : DriverStep C core input core') : Tuned C thresholds (input.sizeAfter n) core' := by
  obtain ⟨mid, result, ⟨hn, hst⟩, ran⟩ := hs
  have hm : Tuned C thresholds n mid := by rwa [Tuned, hn, hst]
  have hd : Meets (Tuned C thresholds n) (driveOnce C input : Host E A Unit)
      (fun _ => Tuned C thresholds (input.sizeAfter n)) _ :=
    driveOnce_meets (Q := (thresholds · = _)) (fun _ => withThresholds_tuned he input)
      (fun effect _ => handleEffect_tuned effect)
      (fun core inv => inv.2 ▸ he.keeps input core.state) fun _ _ inv hq => ⟨inv.1, hq⟩
  exact (hd.weaken (fun _ _ h => h) fun _ _ h => h.2).leaves hm ran

/-- After every height that starts, whatever the sizes before it, the thresholds are those of its
validator set. -/
theorem thresholds_track {store : Store A.State} {height next : Nat} {past : List Input}
    {valset : HopNetValidatorSet}
    {isRestart : Bool} (run : Reaches (DriverStep C) (HostCore.new C store height) past core)
    (hs : DriverStep C core (.startHeight next valset isRestart) core') :
    thresholds core'.state =
      (C.profile.thresholdsFor valset.count, C.profile.thresholdsFor valset.count) := by
  obtain ⟨n, ht⟩ : ∃ n, Tuned C thresholds n core := by
    refine run.invariant_state (∃ n, Tuned C thresholds n ·) ⟨_, rfl, he.new ..⟩ ?_
    rintro core input core' ⟨n, ht⟩ hd
    exact ⟨_, hd.tuned he ht⟩
  exact (hs.tuned he ht).2

end

def thresholdEngine : Engine where
  State := ThresholdParams × ThresholdParams
  Error := Unit
  new _ _ t := (t, t)
  height _ := 0
  round _ := .nil
  getProposer _ _ _ := 0
  stepIsPropose _ := false
  hasFullProposal _ _ _ _ := true
  installThresholds _ _ t _ := (t, t)
  process _ state := .done (state, .ok ())

def autoHost : HostConfig := { sampleHost with profile := .auto }

/-- The validators below `n`. -/
def sampleSet (n : Nat) : HopNetValidatorSet :=
  (HopNetValidatorSet.new ((List.range n).map fun i => .new i (.replicate 32 0))).getD
    (sampleApplication.validatorSet sampleStore.app 1)

lemma thresholdEngine_steps (core : HostCore thresholdEngine sampleApplication) (input : Input) :
    ∃ core', DriverStep autoHost core input core' := by
  cases input <;> exact ⟨_, _, _, ⟨rfl, rfl⟩, rfl⟩

/-- Eight validators, then three, then seven, where `auto` goes back to the larger quorum. -/
theorem thresholds_track_sample : ∃ three seven : HostCore thresholdEngine sampleApplication,
    Reaches (DriverStep autoHost) (.new autoHost sampleStore 1)
      [.startHeight 2 (sampleSet 8) false, .startHeight 3 (sampleSet 3) false] three ∧
    DriverStep autoHost three (.startHeight 4 (sampleSet 7) false) seven ∧
    three.state = (⟨⟨1, 2⟩, ⟨1, 2⟩⟩, ⟨⟨1, 2⟩, ⟨1, 2⟩⟩) ∧ seven.state = (.default, .default) := by
  have tunes : thresholdEngine.Tunes id := ⟨fun _ _ _ => rfl, fun _ _ _ _ => rfl, fun _ _ => rfl⟩
  obtain ⟨eight, step8⟩ := thresholdEngine_steps (.new autoHost sampleStore 1)
    (.startHeight 2 (sampleSet 8) false)
  obtain ⟨three, step3⟩ := thresholdEngine_steps eight (.startHeight 3 (sampleSet 3) false)
  obtain ⟨seven, step7⟩ := thresholdEngine_steps three (.startHeight 4 (sampleSet 7) false)
  have run8 := Reaches.refl.snoc step8
  have run3 := run8.snoc step3
  exact ⟨three, seven, run3, step7, thresholds_track tunes run8 step3,
    thresholds_track tunes run3 step7⟩

end HopNet
