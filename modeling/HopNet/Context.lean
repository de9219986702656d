import Mathlib.Data.List.Chain
import Mathlib.Data.List.Sort
import HopNet.Types

namespace HopNet

open List Option

inductive Round where
  | nil
  | some (n : Nat)
deriving DecidableEq

def Round.asI64 : Round → Int
  | .nil => -1
  | .some n => n

inductive VoteType where
  | prevote
  | precommit
deriving DecidableEq

inductive NilOrVal where
  | nil
  | val (hash : Blake3Hash)
deriving DecidableEq

structure ConsensusVote where
  typ : VoteType
  height : Nat
  round : Round
  value : NilOrVal
  voter : Int
deriving DecidableEq

structure ConsensusProposal where
  height : Nat
  round : Round
  value : Block
  polRound : Round
  proposer : Int
deriving DecidableEq

structure SignedVote where
  message : ConsensusVote
  signature : Signature

structure SignedProposal where
  message : ConsensusProposal
  signature : Signature

structure CommitSignature where
  address : Int
  signature : Signature
deriving DecidableEq

structure CommitCertificate where
  height : Nat
  round : Round
  valueId : Blake3Hash
  commitSignatures : List CommitSignature

structure PolkaCertificate where
  height : Nat
  round : Round
  valueId : Blake3Hash
  polkaSignatures : List CommitSignature

inductive RoundCertificateType where
  | skip
  | precommit
deriving DecidableEq

structure RoundSignature where
  voteType : VoteType
  valueId : NilOrVal
  address : Int
  signature : Signature
deriving DecidableEq

structure RoundCertificate where
  height : Nat
  round : Round
  certType : RoundCertificateType
  roundSignatures : List RoundSignature

inductive Validity where
  | valid
  | invalid
deriving DecidableEq

structure ProposedValue where
  height : Nat
  round : Round
  validRound : Round
  proposer : Int
  value : Block
  validity : Validity

inductive TimeoutKind where
  | propose
  | prevote
  | precommit
  | rebroadcast
  | finalizeHeight (ms : Nat)
deriving DecidableEq

structure Timeout where
  round : Round
  kind : TimeoutKind
deriving DecidableEq

structure Validator where
  address : Int
  publicKey : PubKey
  votingPower : Nat
deriving DecidableEq

def Validator.new (nodeId : Int) (publicKey : PubKey) : Validator := ⟨nodeId, publicKey, 1⟩

/-- Voting power descending, then address ascending. -/
def Validator.Before (a b : Validator) : Prop :=
  b.votingPower < a.votingPower ∨ b.votingPower = a.votingPower ∧ a.address ≤ b.address
deriving Decidable

instance : Std.Total Validator.Before :=
  ⟨fun a b => by unfold Validator.Before; omega⟩

instance : IsTrans Validator Validator.Before :=
  ⟨fun a b c first second => by unfold Validator.Before at *; omega⟩

/-- The validator set of one height, in the order every node agrees on. -/
structure HopNetValidatorSet where
  validators : List Validator
  nonempty : validators ≠ []
  sorted : validators.Pairwise Validator.Before
  adjacent : validators.IsChain fun a b => a.address ≠ b.address
deriving DecidableEq

/-- Height, round and proposer to forward to: the engine's, or round 0 of the pending height while
paused. `nodeIds` reads the validators of a height. -/
def proposalTarget (engine : Option (Nat × Option (Nat × Nat × Int)))
    (nodeIds : Nat → Option (List Int)) :
    Option (Nat × Nat × Int) := do
  let (decided, running) ← engine
  match running.filter (decided < ·.1) with
  | some target => return target
  | none =>
    let ids ← nodeIds (decided + 1)
    let proposer ← (ids.insertionSort (· ≤ ·))[(decided + 1) % ids.length]?
    return (decided + 1, 0, proposer)

namespace HopNetValidatorSet

/-- `none` is a failed assertion: an empty set or a duplicate address. -/
def new (validators : List Validator) : Option HopNetValidatorSet :=
  let sorted := validators.insertionSort Validator.Before
  if shape : sorted ≠ [] ∧ sorted.IsChain fun a b => a.address ≠ b.address then
    some ⟨sorted, shape.1, pairwise_insertionSort _ _, shape.2⟩
  else none

variable (s : HopNetValidatorSet)

def count : Nat := s.validators.length

def totalVotingPower : Nat := (s.validators.map (·.votingPower)).sum

def getByAddress (address : Int) : Option Validator :=
  s.validators.find? (·.address = address)

def addresses : List Int := s.validators.map (·.address)

/-- Every validator weighs 1, as `Validator.new` makes them. -/
def Uniform : Prop := ∀ v ∈ s.validators, v.votingPower = 1
deriving Decidable

lemma count_pos : 0 < s.count :=
  length_pos_of_ne_nil s.nonempty

variable {s : HopNetValidatorSet} {address : Int} {v : Validator}

lemma getByAddress_some (hf : s.getByAddress address = some v) :
    v ∈ s.validators ∧ v.address = address :=
  ⟨mem_of_find?_eq_some hf, by simpa using find?_some hf⟩

lemma getByAddress_mem (hf : s.getByAddress address = some v) : address ∈ s.addresses := by
  obtain ⟨hm, rfl⟩ := getByAddress_some hf
  exact mem_map_of_mem hm

lemma totalVotingPower_uniform (hu : s.Uniform) : s.totalVotingPower = s.count := by
  have ho : s.validators.map (·.votingPower) = s.validators.map fun _ => 1 :=
    map_congr_left hu
  rw [totalVotingPower, ho, count]
  simp

private lemma isChain_address_lt {vs : List Validator} (hu : ∀ v ∈ vs, v.votingPower = 1)
    (ho : vs.IsChain Validator.Before)
    (ha : vs.IsChain fun a b => a.address ≠ b.address) :
    vs.IsChain fun a b => a.address < b.address := by
  induction vs with
  | nil => exact .nil
  | cons a rest ih =>
    cases rest with
    | nil => exact .singleton a
    | cons b rest =>
      rw [isChain_cons_cons] at ho ha ⊢
      have hw := hu a (by simp)
      have hwb := hu b (by simp)
      have hb := ho.1
      unfold Validator.Before at hb
      exact ⟨by omega, ih (fun v hm => hu v (mem_cons_of_mem a hm)) ho.2 ha.2⟩

/-- The assertion compares neighbours; with one power for all it excludes every duplicate. -/
lemma addresses_nodup (hu : s.Uniform) : s.addresses.Nodup := by
  have hc := isChain_address_lt hu s.sorted.isChain s.adjacent
  have hs : s.addresses.IsChain (· < ·) := (isChain_map _).2 hc
  exact (isChain_iff_pairwise.1 hs).imp ne_of_lt

variable {vs : List Validator}

/-- With one power for all, the assertions are a member and no address twice. -/
lemma isSome_new_iff (hu : ∀ v ∈ vs, v.votingPower = 1) :
    (new vs).isSome ↔ vs ≠ [] ∧ (vs.map (·.address)).Nodup := by
  have hp := perm_insertionSort Validator.Before vs
  rw [← (hp.map (·.address)).nodup_iff]
  constructor
  · intro hs
    obtain ⟨set, hs⟩ := isSome_iff_exists.1 hs
    simp only [new, dite_none_right_eq_some] at hs
    obtain ⟨hsh, _⟩ := hs
    refine ⟨fun hv => hsh.1 (by rw [hv]; rfl), ?_⟩
    exact addresses_nodup (s := ⟨_, hsh.1, pairwise_insertionSort _ _, hsh.2⟩)
      fun v hv => hu v (hp.mem_iff.1 hv)
  · intro hv
    have hne : vs.insertionSort Validator.Before ≠ [] := fun h => hv.1 (h ▸ hp).nil_eq.symm
    simp [new, hne, (pairwise_map.1 hv.2).isChain]

/-- The rotation; `none` stands for the panic at the nil round. -/
def selectProposer (s : HopNetValidatorSet) (height : Nat) : Round → Option Validator
  | .nil => none
  | .some round => s.validators[(height + round) % s.count]?

lemma validators_eq_of_new {s} (hs : new vs = some s) :
    s.validators = vs.insertionSort Validator.Before := by
  simp only [new, dite_none_right_eq_some, some.injEq] at hs
  obtain ⟨_, rfl⟩ := hs
  rfl

/-- Distinct addresses leave the sort no choice, so the listing's order is lost. -/
lemma new_perm (hd : (vs.map (·.address)).Nodup) {vs'} (hp : vs'.Perm vs) : new vs' = new vs := by
  have hs : vs'.insertionSort Validator.Before = vs.insertionSort Validator.Before := by
    apply Perm.eq_of_pairwise _ (pairwise_insertionSort _ vs') (pairwise_insertionSort _ vs)
    · exact (perm_insertionSort _ vs').trans (hp.trans (perm_insertionSort _ vs).symm)
    · intro a b ha hb hab hba
      rw [mem_insertionSort] at ha hb
      unfold Validator.Before at hab hba
      exact inj_on_of_nodup_map hd (hp.mem_iff.1 ha) hb (by omega)
  simp only [new, hs]

lemma map_address_sorted (hu : ∀ v ∈ vs, v.votingPower = 1) {ids : List Int}
    (hp : ids.Perm (vs.map (·.address))) :
    ids.insertionSort (· ≤ ·) = (vs.insertionSort Validator.Before).map (·.address) := by
  have hb := perm_insertionSort Validator.Before vs
  apply Perm.eq_of_pairwise (fun _ _ _ _ => Int.le_antisymm) (pairwise_insertionSort _ ids)
  · rw [pairwise_map]
    apply (pairwise_insertionSort Validator.Before vs).imp_of_mem
    intro a b ha hm hab
    have hua := hu a (hb.mem_iff.1 ha)
    have hub := hu b (hb.mem_iff.1 hm)
    unfold Validator.Before at hab
    omega
  · exact (perm_insertionSort _ ids).trans (hp.trans (hb.map _).symm)

/-- Forwarding and consensus name the same proposer, in whatever order each reads the validators. -/
theorem proposalTarget_agrees (hu : ∀ v ∈ vs, v.votingPower = 1) (hne : vs ≠ [])
    (hd : (vs.map (·.address)).Nodup) :
    ∃ set, new vs = some set ∧
      (∀ decided running nodeIds ids, (∀ target ∈ running, target.1 ≤ decided) →
        nodeIds (decided + 1) = some ids → ids.Perm (vs.map (·.address)) →
        ∃ v, set.selectProposer (decided + 1) (.some 0) = some v ∧
          proposalTarget (some (decided, running)) nodeIds = some (decided + 1, 0, v.address)) ∧
      ∀ vs' : List Validator, vs'.Perm vs → ∃ set', new vs' = some set' ∧
        ∀ height round, set'.selectProposer height round = set.selectProposer height round := by
  obtain ⟨set, hset⟩ := isSome_iff_exists.1 ((isSome_new_iff hu).2 ⟨hne, hd⟩)
  refine ⟨set, hset, ?_, ?_⟩
  · intro decided running nodeIds ids hpaused hread hp
    have hlt := Nat.mod_lt (decided + 1) set.count_pos
    refine ⟨_, getElem?_eq_getElem hlt, ?_⟩
    have hf : running.filter (decided < ·.1) = none := by
      rw [filter_eq_none_iff]
      intro target ht
      simpa using hpaused target ht
    have hs : ids.insertionSort (· ≤ ·) = set.addresses := by
      rw [map_address_sorted hu hp, ← validators_eq_of_new hset]
      rfl
    have hn : ids.length = set.count := by
      rw [← length_insertionSort (· ≤ ·) ids, hs, addresses, length_map]
      rfl
    have hat : set.addresses[(decided + 1) % set.count]? =
        some (set.validators[(decided + 1) % set.count]).address := by
      rw [addresses, getElem?_map, getElem?_eq_getElem hlt]
      rfl
    simp [proposalTarget, hf, hread, hn, hs, hat]
  · intro vs' hp
    exact ⟨set, (new_perm hd hp).trans hset, fun _ _ => rfl⟩

theorem proposalTarget_agrees_sample : ∃ set v,
    new [.new 3 (.replicate 32 0), .new 1 (.replicate 32 0)] = some set ∧
      set.selectProposer 6 (.some 0) = some v ∧
      proposalTarget (some (5, none)) (fun _ => some [1, 3]) = some (6, 0, v.address) := by
  have hne : [Validator.new 3 (.replicate 32 0), .new 1 (.replicate 32 0)] ≠ [] := by decide
  obtain ⟨set, hs, hagree, -⟩ := proposalTarget_agrees (by decide) hne (by decide)
  obtain ⟨v, hselect, htarget⟩ := hagree 5 none (fun _ => some [1, 3]) [1, 3] nofun rfl (by decide)
  exact ⟨set, v, hs, hselect, htarget⟩

end HopNetValidatorSet

end HopNet
