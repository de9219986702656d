import Mathlib.Data.Finset.Card
import HopNet.Verify

namespace HopNet

open Fallible List HopNetValidatorSet

variable {P : Primitives} {chainId : Blake3Hash} {valset : HopNetValidatorSet}
  {profile : QuorumProfile}

/-- `address` signed a precommit for `valueId` at this height and round, under its key in the
set. -/
def Precommitted (P : Primitives) (chainId : Blake3Hash) (valset : HopNetValidatorSet)
    (height : Nat) (round : Round) (valueId : Blake3Hash) (address : Int) : Prop :=
  ∃ validator signature, valset.getByAddress address = some validator ∧
    verifyVote P chainId validator.publicKey
      (newVote .precommit height round (.val valueId) address) signature = true

lemma Precommitted.mem {height round valueId} {a : Int}
    (hs : Precommitted P chainId valset height round valueId a) : a ∈ valset.addresses := by
  obtain ⟨_, _, hf, _⟩ := hs
  exact getByAddress_mem hf

namespace CommitCertificate

def signers (cert : CommitCertificate) : List Int := cert.commitSignatures.map (·.address)

structure Backed (P : Primitives) (chainId : Blake3Hash) (valset : HopNetValidatorSet)
    (profile : QuorumProfile) (cert : CommitCertificate) : Prop where
  distinct : cert.signers.Nodup
  members : ∀ a ∈ cert.signers, a ∈ valset.addresses
  quorum : profile.quorum valset.count ≤ cert.signers.length
  signed : ∀ a ∈ cert.signers, Precommitted P chainId valset cert.height cert.round cert.valueId a

lemma map_address_entries (cert : CommitCertificate) :
    cert.entries.map (·.address) = cert.signers := by
  simp only [entries, signers, map_map, Function.comp_def]

variable {cert : CommitCertificate}

lemma precommitted_of_entries
    (hs : ∀ e ∈ cert.entries, e.Signed P chainId valset cert.height cert.round) :
    ∀ a ∈ cert.signers, Precommitted P chainId valset cert.height cert.round cert.valueId a := by
  intro a hm
  obtain ⟨cs, hc, rfl⟩ := mem_map.1 hm
  obtain ⟨validator, hf, hv⟩ := hs _ (mem_map_of_mem hc)
  exact ⟨validator, cs.signature, hf, hv⟩

lemma backed_of_verified (hu : valset.Uniform)
    (ha : verifyCommitCertificate P chainId cert valset (profile.thresholdsFor valset.count) =
      .ok ()) :
    cert.Backed P chainId valset profile := by
  obtain ⟨hn, hq, hs⟩ := verifyCommitCertificate_ok hu ha
  have he := precommitted_of_entries hs
  rw [← length_map (·.address), cert.map_address_entries] at hq
  exact ⟨cert.map_address_entries ▸ hn, fun a hm => (he a hm).mem, hq, he⟩

/-- Two quorums drawn from one set overlap in more than `fEq` members. -/
lemma Backed.overlap {c₁ c₂ : CommitCertificate} (hu : valset.Uniform)
    (hfi : c₁.Backed P chainId valset profile) (hs : c₂.Backed P chainId valset profile) :
    profile.fEq valset.count + 1 ≤ (c₁.signers.toFinset ∩ c₂.signers.toFinset).card := by
  have hin : c₁.signers.toFinset ∪ c₂.signers.toFinset ⊆ valset.addresses.toFinset := by
    intro a hm
    rcases Finset.mem_union.1 hm with hf | hse
    · exact mem_toFinset.2 (hfi.members a (mem_toFinset.1 hf))
    · exact mem_toFinset.2 (hs.members a (mem_toFinset.1 hse))
  have hun := Finset.card_le_card hin
  have hi := Finset.card_inter_add_card_union c₁.signers.toFinset c₂.signers.toFinset
  have ha := profile.fEq_lt_overlap valset.count_pos
  have hfq := hfi.quorum
  have hsq := hs.quorum
  have hsc : valset.addresses.toFinset.card = valset.count := by
    rw [toFinset_card_of_nodup (addresses_nodup hu)]
    simp [addresses, HopNetValidatorSet.count]
  rw [toFinset_card_of_nodup hfi.distinct, toFinset_card_of_nodup hs.distinct] at hi
  omega

end CommitCertificate

open CommitCertificate

/-- Accepted certificates of one height are each backed by a quorum of distinct members, and share
more than `fEq` signers; if they name two values, those signers precommitted to both. -/
theorem commitCertificates_overlap (P : Primitives) (profile : QuorumProfile)
    (chainId : Blake3Hash) (valset : HopNetValidatorSet) (uniform : valset.Uniform) (height : Nat)
    (c₁ c₂ : CommitCertificate) (atHeight₁ : c₁.height = height) (atHeight₂ : c₂.height = height)
    (accepted₁ : verifyCommitCertificate P chainId c₁ valset (profile.thresholdsFor valset.count) =
      .ok ())
    (accepted₂ : verifyCommitCertificate P chainId c₂ valset (profile.thresholdsFor valset.count) =
      .ok ()) :
    (c₁.signers.Nodup ∧ (∀ a ∈ c₁.signers, a ∈ valset.addresses) ∧
      profile.quorum valset.count ≤ c₁.signers.length) ∧
    (c₂.signers.Nodup ∧ (∀ a ∈ c₂.signers, a ∈ valset.addresses) ∧
      profile.quorum valset.count ≤ c₂.signers.length) ∧
    profile.fEq valset.count + 1 ≤ (c₁.signers.toFinset ∩ c₂.signers.toFinset).card ∧
    (c₁.valueId ≠ c₂.valueId → ∃ both : Finset Int, profile.fEq valset.count < both.card ∧
      ∀ a ∈ both, a ∈ valset.addresses ∧
        Precommitted P chainId valset height c₁.round c₁.valueId a ∧
        Precommitted P chainId valset height c₂.round c₂.valueId a) := by
  have hfi := backed_of_verified uniform accepted₁
  have hs := backed_of_verified uniform accepted₂
  have hsh := hfi.overlap uniform hs
  refine ⟨⟨hfi.distinct, hfi.members, hfi.quorum⟩,
    ⟨hs.distinct, hs.members, hs.quorum⟩, hsh, fun _ => ⟨_, hsh, ?_⟩⟩
  intro a hm
  obtain ⟨hf, hse⟩ := Finset.mem_inter.1 hm
  have hs1 := hfi.signed a (mem_toFinset.1 hf)
  have hs2 := hs.signed a (mem_toFinset.1 hse)
  exact ⟨hs1.mem, atHeight₁ ▸ hs1, atHeight₂ ▸ hs2⟩

/-- Two validators, under the keys `1…1` and `2…2`. -/
def twoValidators : HopNetValidatorSet :=
  ⟨[.new 1 (.replicate 32 1), .new 2 (.replicate 32 2)], by decide, by decide, by decide⟩

def bothSigned (round : Nat) (value : UInt8) : CommitCertificate :=
  ⟨5, .some round, .replicate 32 value,
    [⟨1, Primitives.sampleSign (.replicate 32 1)⟩, ⟨2, Primitives.sampleSign (.replicate 32 2)⟩]⟩

theorem commitCertificates_overlap_bothSigned :
    (bothSigned 0 7).valueId ≠ (bothSigned 1 8).valueId ∧
    1 ≤ ((bothSigned 0 7).signers.toFinset ∩ (bothSigned 1 8).signers.toFinset).card :=
  ⟨by decide, (commitCertificates_overlap .sample .majority (.replicate 32 0) twoValidators
    (by decide) 5 (bothSigned 0 7) (bothSigned 1 8) rfl rfl (by decide) (by decide)).2.2.1⟩

end HopNet
