import HopNet.HandlerSpecs
import HopNet.Lib.Table
import HopNet.Quorum
import Mathlib.Data.List.Sort
import Mathlib.Order.Bounds.Defs

namespace HopNet

open Fallible List QuorumProfile Option

inductive Band where
  | lazy
  | fast
  | cliff
deriving DecidableEq

def Band.rank : Band → Nat
  | .lazy => 2
  | .fast => 1
  | .cliff => 0

def band (headroom : Int) : Band :=
  if 2 ≤ headroom then .lazy else if headroom = 1 then .fast else .cliff

/-- Spans are natural numbers of one unit, and so are instants. -/
structure ConsensusPolicy where
  probeBase : Nat
  grace : Nat
  sFull : Nat
  pProve : Nat

namespace ConsensusPolicy

variable (policy : ConsensusPolicy)

def tProbe : Band → Nat
  | .cliff => policy.probeBase
  | .fast => policy.probeBase * 2
  | .lazy => policy.probeBase * 4

def tUnresponsive (band : Band) : Nat := policy.tProbe band + policy.grace

def reqSpan (exposed : Prop) [Decidable exposed] (lastDeparture : Option DepartureKind)
    (headroom : Int) : Nat :=
  if exposed then policy.sFull
  else if lastDeparture = some .voluntary then 0
  else if headroom ≤ 1 then policy.tProbe (band headroom)
  else policy.sFull

lemma tUnresponsive_mono {x y} (hr : x.rank ≤ y.rank) :
    policy.tUnresponsive x ≤ policy.tUnresponsive y := by
  unfold tUnresponsive tProbe
  cases x <;> cases y <;> first | (dsimp only; omega) | exact absurd hr (by decide)

end ConsensusPolicy

namespace QuorumProfile

variable (profile : QuorumProfile) (v b : Nat)

def deltaH : Nat := b - (profile.quorum (v + b) - profile.quorum v)

def exposure : Nat := b - profile.deltaH v b

def PostureOk : Prop :=
  1 ≤ profile.deltaH v b ∨ profile.deltaH v b = 0 ∧ profile.fEq v < profile.fEq (v + b)
deriving Decidable

def CeilingOk (provenLive : Nat) : Prop :=
  v - profile.quorum v = 0 ∨
    profile.quorum (v + b) - profile.quorum v ≤ provenLive - profile.quorum v
deriving Decidable

end QuorumProfile

structure PeerEvidenceView where
  lastContact : Nat
  brightSince : Option Nat
  lastKnownHeight : Option Nat

structure GuardInputs where
  /-- By node id, each once: a binary search finds the entry of a node. -/
  snapshot : List (Int × PeerEvidenceView)
  origin : Nat
  now : Nat
  policy : ConsensusPolicy
  profile : QuorumProfile
  seated : List Int
  myId : Int
  bootHeight : Option Nat
  seatStarts : List (Int × Nat)
  pendingHeight : Nat

abbrev BatchMember := Int × Option DepartureKind

structure LiveEstimate where
  live : Nat
  quorum : Nat
  headroom : Int
  band : Band
  iterations : Nat

inductive GuardError where
  | posture (b v : Nat)
  | ceiling (proven v b : Nat)
  | notLive (nodeId : Int)
  | span (nodeId : Int) (span required : Nat)
  | notCaughtUp (nodeId : Int) (pending : Nat)

def catchUpTolerance : Nat := 10

namespace GuardInputs

variable (inp : GuardInputs) (current : Band) (id : Int)

def lookup : Option PeerEvidenceView := (inp.snapshot.find? (·.1 = id)).map (·.2)

def contactAge : Nat := inp.now - (inp.lookup id).elim inp.origin (·.lastContact)

def InContact : Prop := inp.contactAge id ≤ inp.policy.tUnresponsive current
deriving Decidable

def brightSpan : Nat :=
  match inp.lookup id with
  | none => 0
  | some view => if inp.InContact current id then view.brightSince.elim 0 (inp.now - ·) else 0

/-- The members in the observer's live set, itself always. -/
def liveAt : Nat := inp.seated.countP fun id => id = inp.myId ∨ inp.InContact current id

def headroomAt : Int := inp.liveAt current - inp.profile.quorum inp.seated.length

/-- The loop of `live_estimate` with so many rounds left after this one. -/
def estimateFrom (left : Nat) (current : Band) : LiveEstimate :=
  let next := band (inp.headroomAt current)
  let est : LiveEstimate :=
    ⟨inp.liveAt current, inp.profile.quorum inp.seated.length, inp.headroomAt current,
      next, 3 - left⟩
  match left with
  | 0 => est
  | left + 1 => if next = current then est else estimateFrom left next

def liveEstimate : LiveEstimate := inp.estimateFrom 2 .lazy

def preBoot : Bool :=
  match inp.bootHeight, inp.seatStarts.find? (·.1 = id) with
  | some boot, some start => start.2 ≤ boot
  | _, _ => false

/-- Its own seat an observer has watched since it began. -/
def ProvenLive : Prop :=
  (id = inp.myId ∨ inp.InContact current id) ∧ (inp.preBoot id = true ∨
    inp.policy.pProve ≤ if id = inp.myId then inp.now - inp.origin else inp.brightSpan current id)
deriving Decidable

def provenLive : Nat := inp.seated.countP fun id => inp.ProvenLive current id

def caughtUp : Bool :=
  ((inp.lookup id).bind (·.lastKnownHeight)).any (inp.pendingHeight - catchUpTolerance ≤ ·)

/-- Live, caught up and bright for the full span. -/
def FullyBright : Prop :=
  inp.policy.sFull ≤ inp.brightSpan current id ∧ inp.InContact current id ∧ inp.caughtUp id = true
deriving Decidable

def checkActivation (members : List BatchMember) : Except GuardError Unit := do
  let est := inp.liveEstimate
  let v := inp.seated.length
  let b := members.length
  require (inp.profile.PostureOk v b) (.posture b v)
  let proven := inp.provenLive est.band
  require (inp.profile.CeilingOk v b proven) (.ceiling proven v b)
  members.forM fun m => do
    require (inp.InContact est.band m.1) (.notLive m.1)
    let required := inp.policy.reqSpan (0 < inp.profile.exposure v b) m.2 est.headroom
    require (required ≤ inp.brightSpan est.band m.1)
      (.span m.1 (inp.brightSpan est.band m.1) required)
    require (inp.caughtUp m.1 = true) (.notCaughtUp m.1 inp.pendingHeight)

variable (pool : List BatchMember)

/-- In contact and caught up, the brightest first. -/
def viable : List BatchMember :=
  (pool.filter fun m => inp.InContact current m.1 ∧
    inp.caughtUp m.1 = true).insertionSort fun x y =>
    inp.brightSpan current y.1 < inp.brightSpan current x.1 ∨
      inp.brightSpan current x.1 = inp.brightSpan current y.1 ∧ x.1 ≤ y.1

/-- The viable members whose span suffices for a batch of `b`. -/
def eligible (b : Nat) : List BatchMember :=
  let est := inp.liveEstimate
  (inp.viable est.band pool).filter fun m =>
    inp.policy.reqSpan (0 < inp.profile.exposure inp.seated.length b) m.2 est.headroom ≤
      inp.brightSpan est.band m.1

/-- A round of the planner: the first of the eligible, if so many. -/
def batchOf (b : Nat) : Option (List Int) :=
  let v := inp.seated.length
  let eligible := (inp.eligible pool b).map (·.1)
  if inp.profile.PostureOk v b ∧
  inp.profile.CeilingOk v b (inp.provenLive inp.liveEstimate.band) then
    if b ≤ eligible.length then some ((eligible.take b).insertionSort (· ≤ ·)) else none
  else none

def planSeatingBatch : Option (List Int) :=
  (range (min (inp.viable inp.liveEstimate.band pool).length bMax)).reverse.findSome? fun i =>
    inp.batchOf pool (i + 1)

end GuardInputs

open GuardInputs

section

variable {inp : GuardInputs} {x y : Band}

lemma Band.rank_inj (hr : x.rank = y.rank) : x = y := by
  cases x <;> cases y <;> first | rfl | cases hr

lemma rank_band_mono {m n : Int} (hm : m ≤ n) : (band m).rank ≤ (band n).rank := by
  unfold band
  split_ifs <;> first | decide | omega

/-- A looser band or later contacts take no member out of the live set. -/
lemma rank_step_mono {snapshot}
    (hc : ∀ id, contactAge { inp with snapshot } id ≤ inp.contactAge id) (hr : x.rank ≤ y.rank) :
    (band (inp.headroomAt x)).rank ≤ (band (headroomAt { inp with snapshot } y)).rank := by
  apply rank_band_mono
  have hl : inp.liveAt x ≤ liveAt { inp with snapshot } y := by
    apply countP_mono_left
    intro id _ hid
    rw [decide_eq_true_eq] at hid ⊢
    exact hid.imp_right fun hi => (hc id).trans (hi.trans (inp.policy.tUnresponsive_mono hr))
  exact Int.sub_le_sub_right (Int.ofNat_le.2 hl) _

/-- The live set and the band give each other, and no looser band is below its own step. -/
def GuardInputs.Settled (inp : GuardInputs) (est : LiveEstimate) : Prop :=
  ∃ b n, est = ⟨inp.liveAt b, inp.profile.quorum inp.seated.length, inp.headroomAt b, b, n⟩ ∧
    n ≤ 3 ∧ band (inp.headroomAt b) = b ∧
    ∀ x : Band, x.rank ≤ (band (inp.headroomAt x)).rank → x.rank ≤ b.rank

/-- The rounds left let the band fall to the cliff, and no fixpoint lies above it. -/
lemma estimateFrom_spec {left current} (hl : current.rank ≤ left)
    (hd : (band (inp.headroomAt current)).rank ≤ current.rank)
    (hu : ∀ x : Band, x.rank ≤ (band (inp.headroomAt x)).rank → x.rank ≤ current.rank) :
    inp.Settled (inp.estimateFrom left current) := by
  induction left generalizing current with
  | zero =>
    have hf : band (inp.headroomAt current) = current := Band.rank_inj (by omega)
    exact ⟨current, 3, by simp only [estimateFrom, hf], le_rfl, hf, hu⟩
  | succ left ih =>
    by_cases hf : band (inp.headroomAt current) = current
    · exact ⟨current, 3 - (left + 1), by simp only [estimateFrom, hf, if_true], by omega, hf, hu⟩
    have hlt := lt_of_le_of_ne hd fun hr => hf (Band.rank_inj hr)
    have hs : inp.estimateFrom (left + 1) current = inp.estimateFrom left
        (band (inp.headroomAt current)) := by
      exact if_neg hf
    rw [hs]
    have hmono {x y : Band} (hr : x.rank ≤ y.rank) :
        (band (inp.headroomAt x)).rank ≤ (band (inp.headroomAt y)).rank :=
          rank_step_mono (fun _ => le_rfl) hr
    apply ih (Nat.le_of_lt_succ (hlt.trans_le hl)) (hmono hd)
    intro x hx
    exact hx.trans (hmono (hu x hx))

lemma liveEstimate_settled (inp : GuardInputs) : inp.Settled inp.liveEstimate := by
  have htop : ∀ x : Band, x.rank ≤ Band.lazy.rank := fun x => by cases x <;> decide
  exact estimateFrom_spec le_rfl (htop _) fun x _ => htop x

/-- The estimate is the loosest band that the live set at its own deadline gives, and later contacts
loosen it. -/
theorem liveEstimate_greatest_fixpoint (inp : GuardInputs) : let est := inp.liveEstimate
    est.iterations ≤ 3 ∧ est.live = inp.liveAt est.band ∧
      est.band = band (est.live - inp.profile.quorum inp.seated.length) ∧
      (∀ x, x = band (inp.liveAt x - inp.profile.quorum inp.seated.length) → x.rank ≤
      est.band.rank) ∧ ∀ snapshot, (∀ id, contactAge { inp with snapshot } id ≤ inp.contactAge id) →
        est.band.rank ≤ (liveEstimate { inp with snapshot }).band.rank := by
  obtain ⟨b, n, he, hn, hb, hu⟩ := liveEstimate_settled inp
  simp only [he]
  refine ⟨hn, trivial, hb.symm, fun x hx => hu x (congrArg Band.rank hx).le, ?_⟩
  intro snapshot hc
  obtain ⟨b', n', he', -, -, hu'⟩ := liveEstimate_settled { inp with snapshot }
  rw [he']
  apply hu' b
  calc b.rank = (band (inp.headroomAt b)).rank := by rw [hb]
    _ ≤ _ := rank_step_mono hc le_rfl

end

namespace QuorumProfile

variable {profile : QuorumProfile} {v : Nat}

/-- A batch that a mesh of `v` proven members may seat, at the full span. -/
def Grows (profile : QuorumProfile) (v b : Nat) : Prop :=
  profile.PostureOk v b ∧ profile.CeilingOk v b v ∧ 0 < profile.exposure v b
deriving Decidable

/-- From `vBft` members on, two more gain headroom under a majority, three under Byzantine
faults. -/
lemma grows_of_vBft_le (hv : vBft ≤ v) : ∃ i < bMax, profile.Grows v (i + 1) := by
  have hq : (∀ w, 7 ≤ w → profile.quorum w = w / 2 + 1) ∨ ∀ w, 7 ≤ w →
      profile.quorum w = w * 2 / 3 + 1 := by
    cases profile with
    | majority => exact .inl fun _ _ => rfl
    | bft => exact .inr fun _ _ => rfl
    | auto => exact .inr fun w hw => by simp [quorum, profileAt, vBft, hw]
  unfold vBft at hv
  unfold Grows PostureOk CeilingOk exposure deltaH
  rcases hq with hq | hq
  · exact ⟨1, by decide, by rw [hq v hv, hq (v + (1 + 1)) (by omega)]; omega⟩
  · exact ⟨2, by decide, by rw [hq v hv, hq (v + (2 + 1)) (by omega)]; omega⟩

/-- Four members under Byzantine faults are the one gap: within their cushion nothing is gained. -/
lemma exists_grows (hv : 0 < v) (hx : ¬ (profile = .bft ∧ v = 4)) :
    ∃ i < bMax, profile.Grows v (i + 1) := by
  rcases Nat.lt_or_ge v vBft with hb | hb
  · revert hx
    revert hv
    revert v
    cases profile <;> decide
  · exact grows_of_vBft_le hb

lemma quorum_succ (w : Nat) :
    profile.quorum w ≤ profile.quorum (w + 1) ∧ profile.quorum (w + 1) ≤ profile.quorum w + 1 := by
  unfold quorum profileAt
  cases profile with
  | bft | majority => dsimp only; omega
  | auto =>
    unfold vBft
    split_ifs <;> dsimp only <;> omega

lemma quorum_add (b : Nat) :
    profile.quorum v ≤ profile.quorum (v + b) ∧ profile.quorum (v + b) ≤ profile.quorum v + b := by
  induction b with
  | zero => exact ⟨le_rfl, le_rfl⟩
  | succ b ih =>
    have hs := profile.quorum_succ (v + b)
    rw [← Nat.add_assoc]
    omega

lemma quorum_bounds (hv : 1 ≤ v) : 1 ≤ profile.quorum v ∧ profile.quorum v ≤ v := by
  unfold quorum
  rcases profile.profileAt_cases v with hr | hr <;> simp only [hr] <;> omega

/-- Three more gain headroom or, where `auto` turns Byzantine, a tolerated equivocator. -/
lemma postureOk_three : profile.PostureOk v 3 := by
  unfold PostureOk deltaH quorum fEq profileAt
  cases profile with
  | bft | majority => dsimp only; omega
  | auto =>
    split_ifs <;> dsimp only <;> omega

/-- The quorum of every size, and how it moves as members join. -/
theorem quorum_wellBehaved (profile : QuorumProfile) (b : Nat) (hv : 1 ≤ v) :
    IsLeast {q | (profile.thresholdsFor v).quorum.isMet q v = true} (profile.quorum v) ∧
    1 ≤ profile.quorum v ∧ profile.quorum v ≤ v ∧
    profile.quorum v ≤ profile.quorum (v + b) ∧ profile.quorum (v + b) ≤ profile.quorum v + b ∧
    v - profile.quorum v ≤ v + b - profile.quorum (v + b) ∧
    ∃ c ≤ bMax, profile.PostureOk v c := by
  obtain ⟨hpos, hle⟩ := profile.quorum_bounds hv
  obtain ⟨hmono, hslope⟩ := profile.quorum_add (v := v) b
  refine ⟨⟨?_, ?_⟩, hpos, hle, hmono, hslope, by omega, 3, by decide, postureOk_three⟩
  · exact (profile.isMet_iff_quorum_le v _).2 le_rfl
  · intro q hq
    exact (profile.isMet_iff_quorum_le v q).1 hq

theorem quorum_wellBehaved_seam : auto.quorum (6 + 1) ≤ auto.quorum 6 + 1 :=
  (quorum_wellBehaved .auto 1 (by decide)).2.2.2.2.1

end QuorumProfile

variable {inp : GuardInputs} {pool : List BatchMember} {b : Nat} {batch : List Int}

lemma mem_viable {current m} :
    m ∈ inp.viable current pool ↔ m ∈ pool ∧ inp.InContact current m.1 ∧
    inp.caughtUp m.1 = true := by
  rw [viable, mem_insertionSort, mem_filter, decide_eq_true_eq]

lemma batchOf_eq_some_iff : inp.batchOf pool b = some batch ↔
    (inp.profile.PostureOk inp.seated.length b ∧
      inp.profile.CeilingOk inp.seated.length b (inp.provenLive inp.liveEstimate.band)) ∧
    b ≤ (inp.eligible pool b).length ∧
      (((inp.eligible pool b).map (·.1)).take b).insertionSort (· ≤ ·) = batch := by
  unfold batchOf
  dsimp only
  rw [length_map]
  split_ifs with hg hl
  · simp only [hg, hl, true_and, some.injEq]
  · simp only [hl, false_and, and_false]
  · simp only [hg, false_and]

/-- The departure kinds that the pool gives for the members of a batch. -/
def withDepartures (pool : List BatchMember) (batch : List Int) : List BatchMember :=
  batch.map fun id => (id, (pool.find? (·.1 = id)).bind (·.2))

lemma mem_eligible_of_withDepartures (hd : (pool.map (·.1)).Nodup)
    (hs : batch ⊆ (inp.eligible pool b).map (·.1)) :
    withDepartures pool batch ⊆ inp.eligible pool b := by
  intro m hm
  obtain ⟨id, hid, rfl⟩ := mem_map.1 hm
  obtain ⟨c, hc, rfl⟩ := mem_map.1 (hs hid)
  have hp := (mem_viable.1 (mem_filter.1 hc).1).1
  rwa [Table.find?_of_mem hd hp rfl]

lemma nodup_eligible (hd : (pool.map (·.1)).Nodup) : ((inp.eligible pool b).map (·.1)).Nodup := by
  apply Nodup.sublist (filter_sublist.map _)
  apply ((perm_insertionSort _ _).map _).nodup_iff.2
  exact hd.sublist (filter_sublist.map _)

/-- What an observer plans it also accepts, and the handler takes its shape. -/
theorem planSeatingBatch_accepted (hd : (pool.map (·.1)).Nodup)
    (hp : inp.planSeatingBatch pool = some batch) :
    inp.checkActivation (withDepartures pool batch) = .ok () ∧ ActivationShape batch := by
  obtain ⟨i, hi, hb⟩ := exists_of_findSome?_eq_some hp
  rw [mem_reverse, mem_range] at hi
  obtain ⟨⟨hpost, hceil⟩, hlen, hbatch⟩ := batchOf_eq_some_iff.1 hb
  have hperm := perm_insertionSort (· ≤ ·) (((inp.eligible pool (i + 1)).map (·.1)).take (i + 1))
  rw [hbatch] at hperm
  have hlength : batch.length = i + 1 := by
    rw [hperm.length_eq, length_take, length_map, min_eq_left hlen]
  constructor
  · have hel := mem_eligible_of_withDepartures hd fun _ hid => take_subset _ _ (hperm.subset hid)
    have hw : (withDepartures pool batch).length = i + 1 := by
      rw [withDepartures, length_map, hlength]
    simp only [checkActivation, hw, require_bind, forM_eq_ok, require_eq_ok]
    refine ⟨hpost, hceil, fun m hm => ?_⟩
    obtain ⟨hv, hspan⟩ := mem_filter.1 (hel hm)
    obtain ⟨-, hin, hcaught⟩ := mem_viable.1 hv
    exact ⟨hin, of_decide_eq_true hspan, hcaught⟩
  · have hnodup : batch.Nodup := hperm.nodup_iff.2 ((nodup_eligible hd).sublist (take_sublist _ _))
    refine ⟨ne_nil_of_length_pos (by omega), by omega, ?_⟩
    have hle : batch.SortedLE := hbatch ▸ sortedLE_insertionSort
    exact (hle.sortedLT_of_nodup hnodup).isChain

lemma bMax_le_eligible (hx : 0 < inp.profile.exposure inp.seated.length b)
    (hpool : bMax ≤ pool.countP fun m => inp.FullyBright inp.liveEstimate.band m.1) :
    bMax ≤ (inp.eligible pool b).length := by
  have hreq dep : inp.policy.reqSpan (0 < inp.profile.exposure inp.seated.length b) dep
      inp.liveEstimate.headroom = inp.policy.sFull := if_pos hx
  rw [eligible, ← countP_eq_length_filter, viable, (perm_insertionSort _ _).countP_eq,
    countP_filter]
  simp only [hreq, ← Bool.decide_and]
  exact hpool

/-- A mesh whose members are all live and proven grows, but for four members pinned to Byzantine
faults. -/
theorem planSeatingBatch_isSome_iff (hs : inp.seated ≠ [])
    (hlive : ∀ id ∈ inp.seated, inp.ProvenLive inp.liveEstimate.band id)
    (hpool : bMax ≤ pool.countP fun m => inp.FullyBright inp.liveEstimate.band m.1) :
    (inp.planSeatingBatch pool).isSome ↔ ¬ (inp.profile = .bft ∧ inp.seated.length = 4) := by
  have hproven : inp.provenLive inp.liveEstimate.band = inp.seated.length := by
    apply countP_eq_length.2
    intro id hid
    exact decide_eq_true (hlive id hid)
  rw [isSome_iff_ne_none, Ne, planSeatingBatch, findSome?_eq_none_iff]
  apply not_congr
  constructor
  · intro hn
    by_contra hx
    obtain ⟨i, hi, hpost, hceil, hexp⟩ := exists_grows (length_pos_of_ne_nil hs) hx
    have hlen := bMax_le_eligible hexp hpool
    have hvi : (inp.eligible pool (i + 1)).length ≤
        (inp.viable inp.liveEstimate.band pool).length := length_filter_le _ _
    have hnone := hn i (by rw [mem_reverse, mem_range]; omega)
    rw [eq_none_iff_forall_ne_some] at hnone
    exact hnone _ (batchOf_eq_some_iff.2 ⟨⟨hpost, hproven.symm ▸ hceil⟩, by omega, rfl⟩)
  · rintro ⟨hb, hv⟩ i hi
    rw [mem_reverse, mem_range] at hi
    rw [eq_none_iff_forall_ne_some]
    intro batch hbatch
    obtain ⟨hg, -⟩ := batchOf_eq_some_iff.1 hbatch
    rw [hproven, hb, hv] at hg
    have hgap : ∀ i < bMax, ¬ (bft.PostureOk 4 (i + 1) ∧ bft.CeilingOk 4 (i + 1) 4) := by
      decide
    exact hgap i (hi.trans_le (min_le_right _ _)) hg

/-- A mesh whose members and five candidates were bright from the start. -/
def sampleGuards (profile : QuorumProfile) (seated : List Int) : GuardInputs :=
  ⟨[1, 2, 3, 4, 5, 6, 7, 8, 9].map (·, ⟨100, some 0, some 50⟩), 0, 100, ⟨10, 5, 60, 30⟩,
    profile, seated, 1, none, [], 51⟩

def samplePool : List BatchMember := [5, 6, 7, 8, 9].map (·, none)

theorem planSeatingBatch_isSome_iff_sample :
    ((sampleGuards .auto [1, 2, 3, 4]).planSeatingBatch samplePool).isSome :=
  (planSeatingBatch_isSome_iff (by decide) (by decide +kernel) (by decide +kernel)).2 (by decide)

theorem planSeatingBatch_accepted_sample :
    (sampleGuards .auto [1, 2, 3, 4]).checkActivation (withDepartures samplePool [5, 6]) = .ok () ∧
      ActivationShape [5, 6] :=
  planSeatingBatch_accepted (by decide) (by decide +kernel)

theorem four_bft_members_stay : let inp := sampleGuards .bft [1, 2, 3, 4]
    (∀ id ∈ inp.seated, inp.ProvenLive inp.liveEstimate.band id) ∧
      (∀ m ∈ samplePool, inp.FullyBright inp.liveEstimate.band m.1) ∧ samplePool.length = bMax ∧
      inp.planSeatingBatch samplePool = none := by
  decide +kernel

end HopNet
