import HopNet.Lib.Fallible
import HopNet.Quorum
import HopNet.Signing

namespace HopNet

open Fallible List

inductive CertificateError where
  | duplicateVote (address : Int)
  | unknownValidator (address : Int)
  | invalidVoteType (address : Int)
  | invalidCommitSignature (signature : CommitSignature)
  | invalidPolkaSignature (signature : CommitSignature)
  | invalidRoundSignature (signature : RoundSignature)
  | notEnoughVotingPower (signed total expected : Nat)
deriving DecidableEq

/-- One signature of a certificate with the vote it is checked against. -/
structure VoteEntry where
  address : Int
  voteType : VoteType
  value : NilOrVal
  signature : Signature

def newVote (voteType : VoteType) (height : Nat) (round : Round) (value : NilOrVal)
    (address : Int) : ConsensusVote :=
  ⟨voteType, height, round, value, address⟩

variable (P : Primitives)

/-- The loop: `seen` are the addresses so far, the result is their power. -/
def tallyVotes (chainId : Blake3Hash) (valset : HopNetValidatorSet) (height : Nat) (round : Round)
    (allow : VoteEntry → Except CertificateError Unit)
    (makeError : VoteEntry → CertificateError) :
    List VoteEntry → List Int → Nat → Except CertificateError Nat
  | [], _, power => .ok power
  | e :: rest, seen, power => do
      require (e.address ∉ seen) (.duplicateVote e.address)
      match valset.getByAddress e.address with
      | none => throw (.unknownValidator e.address)
      | some validator =>
        allow e
        let vote := newVote e.voteType height round e.value e.address
        require (verifyVote P chainId validator.publicKey vote e.signature) (makeError e)
        tallyVotes chainId valset height round allow makeError rest (e.address :: seen)
          (power + validator.votingPower)

def checkThreshold (threshold : ThresholdParam) (power total : Nat) :
    Except CertificateError Unit :=
  require (threshold.isMet power total)
    (.notEnoughVotingPower power total (threshold.minExpected total))

variable (chainId : Blake3Hash) (valset : HopNetValidatorSet)

def verifyVotes (thresholds : ThresholdParams) (entries : List VoteEntry) (height : Nat)
    (round : Round) (makeError : VoteEntry → CertificateError) : Except CertificateError Unit := do
  let power ← tallyVotes P chainId valset height round (fun _ => .ok ()) makeError entries [] 0
  checkThreshold thresholds.quorum power valset.totalVotingPower

variable (cert : CommitCertificate)

def CommitCertificate.entries : List VoteEntry :=
  cert.commitSignatures.map fun cs => ⟨cs.address, .precommit, .val cert.valueId, cs.signature⟩

def verifyCommitCertificate
    (valset : HopNetValidatorSet) (thresholds : ThresholdParams) : Except CertificateError Unit :=
  verifyVotes P chainId valset thresholds cert.entries cert.height cert.round
    fun e => .invalidCommitSignature ⟨e.address, e.signature⟩

def verifyPolkaCertificate (cert : PolkaCertificate)
    (valset : HopNetValidatorSet) (thresholds : ThresholdParams) : Except CertificateError Unit :=
  verifyVotes P chainId valset thresholds
    (cert.polkaSignatures.map fun ps => ⟨ps.address, .prevote, .val cert.valueId, ps.signature⟩)
    cert.height cert.round fun e => .invalidPolkaSignature ⟨e.address, e.signature⟩

/-- Signers vote for their own view of the round; the threshold depends on the certificate's
type. -/
def verifyRoundCertificate (cert : RoundCertificate)
    (valset : HopNetValidatorSet) (thresholds : ThresholdParams) :
    Except CertificateError Unit := do
  let power ← tallyVotes P chainId valset cert.height cert.round
    (fun e => require (¬ (cert.certType = .precommit ∧ e.voteType = .prevote))
      (.invalidVoteType e.address))
    (fun e => .invalidRoundSignature ⟨e.voteType, e.value, e.address, e.signature⟩)
    (cert.roundSignatures.map fun rs => ⟨rs.address, rs.voteType, rs.valueId, rs.signature⟩) [] 0
  match cert.certType with
  | .skip => checkThreshold thresholds.honest power valset.totalVotingPower
  | .precommit => checkThreshold thresholds.quorum power valset.totalVotingPower

/-- `e`'s signature is valid under the key its validator has in `valset`. -/
def VoteEntry.Signed (height : Nat) (round : Round) (e : VoteEntry) : Prop :=
  ∃ validator, valset.getByAddress e.address = some validator ∧
    verifyVote P chainId validator.publicKey (newVote e.voteType height round e.value e.address)
      e.signature = true

/-- What the loop has established when it returns. -/
lemma tallyVotes_ok {P chainId valset height round}
    {allow : VoteEntry → Except CertificateError Unit}
    {makeError : VoteEntry → CertificateError} (entries : List VoteEntry) :
    ∀ {seen : List Int} {power total : Nat},
    tallyVotes P chainId valset height round allow makeError entries seen power = .ok total →
    (entries.map (·.address)).Nodup ∧ (∀ e ∈ entries, e.address ∉ seen) ∧
      (∀ e ∈ entries, e.Signed P chainId valset height round) ∧
      (valset.Uniform → total = power + entries.length) := by
  induction entries with
  | nil =>
    intro seen power total hs
    simp only [tallyVotes, Except.ok.injEq] at hs
    simp [hs]
  | cons e rest ih =>
    intro seen power total hs
    unfold tallyVotes at hs
    simp only [require_bind] at hs
    obtain ⟨hfr, hs⟩ := hs
    split at hs
    · cases hs
    rename_i validator hf
    simp only [bind_eq_ok, exists_require] at hs
    obtain ⟨_, _, hv, hs⟩ := hs
    obtain ⟨hn, hun, hsi, hc⟩ := ih hs
    refine ⟨?_, ?_, ?_, ?_⟩
    · refine nodup_cons.2 ⟨fun hm => ?_, hn⟩
      obtain ⟨e', hr, same⟩ := mem_map.1 hm
      exact hun e' hr (by simp [same])
    · exact forall_mem_cons.2
        ⟨hfr, fun e' hr => fun old => hun e' hr (mem_cons_of_mem _ old)⟩
    · exact forall_mem_cons.2 ⟨⟨validator, hf, hv⟩, hsi⟩
    · intro hu
      have hw := hu validator (HopNetValidatorSet.getByAddress_some hf).1
      rw [hc hu, hw, length_cons]
      omega

lemma verifyCommitCertificate_ok {P chainId valset cert} {profile : QuorumProfile}
    (hu : valset.Uniform)
    (ha : verifyCommitCertificate P chainId cert valset (profile.thresholdsFor valset.count) =
      .ok ()) :
    (cert.entries.map (·.address)).Nodup ∧ profile.quorum valset.count ≤ cert.entries.length ∧
      ∀ e ∈ cert.entries, e.Signed P chainId valset cert.height cert.round := by
  simp only [verifyCommitCertificate, verifyVotes, bind_eq_ok] at ha
  obtain ⟨power, ht, hen⟩ := ha
  obtain ⟨hn, _, hs, hc⟩ := tallyVotes_ok cert.entries ht
  rw [checkThreshold, require_eq_ok, HopNetValidatorSet.totalVotingPower_uniform hu,
    profile.isMet_iff_quorum_le, hc hu, Nat.zero_add] at hen
  exact ⟨hn, hen, hs⟩

end HopNet
