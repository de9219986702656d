import Mathlib.Algebra.Order.Ring.Int
import HopNet.Seams

namespace HopNet

open List FixedBytes

variable (chainId : Blake3Hash)

lemma leBytes_length (width n : Nat) : (leBytes width n).length = width := by
  simp [leBytes]

lemma leBytes_succ (width n : Nat) :
    leBytes (width + 1) n = leBytes width n ++ [UInt8.ofNat (n / 256 ^ width % 256)] := by
  simp [leBytes, range_succ]

/-- The bytes are the digits of the number, up to what the width holds. -/
lemma leBytes_mod_eq {width n m : Nat} (hs : leBytes width n = leBytes width m) :
    n % 256 ^ width = m % 256 ^ width := by
  induction width with
  | zero => simp [Nat.mod_one]
  | succ width ih =>
    rw [leBytes_succ, leBytes_succ] at hs
    obtain ⟨low, hh⟩ := append_inj hs (by simp [leBytes_length])
    have hd : n / 256 ^ width % 256 = m / 256 ^ width % 256 := by
      have hb := congrArg UInt8.toNat (cons.inj hh).1
      simpa using hb
    rw [Nat.mod_pow_succ, Nat.mod_pow_succ, ih low, hd]

lemma leBytes_inj {width n m : Nat} (hs : n < 256 ^ width) (hs' : m < 256 ^ width)
    (same : leBytes width n = leBytes width m) : n = m := by
  have hd := leBytes_mod_eq same
  rwa [Nat.mod_eq_of_lt hs, Nat.mod_eq_of_lt hs'] at hd

lemma leBytesInt_length (width : Nat) (n : Int) : (leBytesInt width n).length = width :=
  leBytes_length width _

/-- Two's complement tells apart numbers less than a range from each other. -/
lemma leBytesInt_inj {width} {n m : Int} (hn : (n - m).natAbs < 256 ^ width)
    (hs : leBytesInt width n = leBytesInt width m) : n = m := by
  have hra : ((256 ^ width : Nat) : Int) = 256 ^ width := by rfl
  have hr : (n % 256 ^ width).toNat = (m % 256 ^ width).toNat :=
    leBytes_inj (by omega) (by omega) hs
  have hd : (256 ^ width : Int) ∣ n - m :=
    Int.dvd_of_emod_eq_zero (Int.emod_eq_emod_iff_emod_sub_eq_zero.1 (by omega))
  rw [← hra, Int.natCast_dvd] at hd
  have ha := Nat.eq_zero_of_dvd_of_lt hd hn
  omega

def FitsI32 (n : Int) : Prop := -2 ^ 31 ≤ n ∧ n < 2 ^ 31
deriving Decidable

/-- The fields fit the source's `u64`, `u32` and `i32`. -/
def ConsensusMsg.Fits : ConsensusMsg → Prop
  | .vote v => v.height < 2 ^ 64 ∧ v.round.Fits ∧ FitsI32 v.voter
  | .proposal p => p.height < 2 ^ 64 ∧ p.round.Fits ∧ p.polRound.Fits ∧ FitsI32 p.proposer

/-- Equal in all but the content behind a proposal's block hash. -/
def ConsensusMsg.Alike : ConsensusMsg → ConsensusMsg → Prop
  | .vote a, .vote b => a = b
  | .proposal a, .proposal b => a.height = b.height ∧ a.round = b.round ∧
      a.value.blockHash = b.value.blockHash ∧ a.polRound = b.polRound ∧ a.proposer = b.proposer
  | .vote _, .proposal _ | .proposal _, .vote _ => False

lemma FixedBytes.bytes_inj {n : Nat} {a b : FixedBytes n} (hs : a.bytes = b.bytes) : a = b := by
  cases a
  cases hs
  rfl

lemma leBytes_height_inj {n m : Nat} (hf : n < 2 ^ 64) (hf' : m < 2 ^ 64)
    (hs : leBytes 8 n = leBytes 8 m) : n = m :=
  leBytes_inj (by omega) (by omega) hs

lemma leBytesInt_node_inj {n m : Int} (hf : FitsI32 n) (hf' : FitsI32 m)
    (hs : leBytesInt 4 n = leBytesInt 4 m) : n = m := by
  unfold FitsI32 at hf hf'
  exact leBytesInt_inj (by omega) hs

lemma Round.asI64_inj {a b : Round} (hs : a.asI64 = b.asI64) : a = b := by
  cases a with
  | nil =>
    cases b with
    | nil => rfl
    | some m => simp only [asI64] at hs; omega
  | some n =>
    cases b with
    | nil => simp only [asI64] at hs; omega
    | some m => rw [Int.ofNat_inj.1 hs]

lemma Round.asI64_range {r : Round} (hf : r.Fits) : -1 ≤ r.asI64 ∧ r.asI64 < 2 ^ 32 := by
  cases r with
  | nil => decide
  | some n =>
    have hs : n ≤ u32Max := hf
    simp only [asI64, u32Max] at *
    omega

lemma leBytesInt_round_inj {a b : Round} (hf : a.Fits) (hf' : b.Fits)
    (hs : leBytesInt 8 a.asI64 = leBytesInt 8 b.asI64) : a = b := by
  have hr := Round.asI64_range hf
  have hr' := Round.asI64_range hf'
  exact Round.asI64_inj (leBytesInt_inj (by omega) hs)

/-- The part of a vote's payload that stands for its value. -/
def NilOrVal.signBytes : NilOrVal → Bytes
  | .nil => 0 :: replicate 32 0
  | .val hash => 1 :: hash.bytes

lemma NilOrVal.signBytes_length (value : NilOrVal) : value.signBytes.length = 33 := by
  cases value with
  | nil => rfl
  | val hash => simp [signBytes, hash.size]

/-- A vote for the zero hash is not a nil vote: the first byte differs. -/
lemma NilOrVal.signBytes_inj {a b : NilOrVal} (hs : a.signBytes = b.signBytes) : a = b := by
  cases a with
  | nil =>
    cases b with
    | nil => rfl
    | val hash => exact absurd (cons.inj hs).1 (by decide)
  | val hash =>
    cases b with
    | nil => exact absurd (cons.inj hs).1 (by decide)
    | val hash' => rw [bytes_inj (cons.inj hs).2]

def VoteType.tag : VoteType → UInt8
  | .prevote => tagPrevote
  | .precommit => tagPrecommit

lemma VoteType.tag_inj {a b : VoteType} (hs : a.tag = b.tag) : a = b := by
  cases a <;> cases b <;> first | rfl | exact absurd hs (by decide)

lemma voteSignBytes_fields (vote : ConsensusVote) :
    voteSignBytes chainId vote = domain ++ chainId.bytes ++ [vote.typ.tag] ++ leBytes 8 vote.height
      ++ leBytesInt 8 vote.round.asI64 ++ vote.value.signBytes ++ leBytesInt 4 vote.voter := by
  unfold voteSignBytes
  cases vote.typ <;> cases vote.value <;> rfl

lemma voteSignBytes_length (vote : ConsensusVote) : (voteSignBytes chainId vote).length = 106 := by
  simp only [voteSignBytes_fields, length_append, leBytes_length, leBytesInt_length,
    NilOrVal.signBytes_length, chainId.size, length_singleton]
  rfl

lemma proposalSignBytes_length (proposal : ConsensusProposal) :
    (proposalSignBytes chainId proposal).length = 113 := by
  simp only [proposalSignBytes, length_append, leBytes_length, leBytesInt_length,
    chainId.size, proposal.value.blockHash.size, length_singleton]
  rfl

variable {c c' : Blake3Hash}

lemma voteSignBytes_inj {v v' : ConsensusVote}
    (hf : (ConsensusMsg.vote v).Fits) (hf' : (ConsensusMsg.vote v').Fits)
    (hs : voteSignBytes c v = voteSignBytes c' v') : c = c' ∧ v = v' := by
  rw [voteSignBytes_fields, voteSignBytes_fields] at hs
  -- The fields come off the right end one by one: each has the same width in both payloads.
  obtain ⟨hs, hv⟩ := append_inj' hs (by simp [leBytesInt_length])
  obtain ⟨hs, hva⟩ := append_inj' hs (by simp [NilOrVal.signBytes_length])
  obtain ⟨hs, hr⟩ := append_inj' hs (by simp [leBytesInt_length])
  obtain ⟨hs, hh⟩ := append_inj' hs (by simp [leBytes_length])
  obtain ⟨hs, tag⟩ := append_inj' hs rfl
  refine ⟨bytes_inj (append_cancel_left hs), ?_⟩
  cases v
  obtain rfl := VoteType.tag_inj (cons.inj tag).1
  obtain rfl := leBytes_height_inj hf.1 hf'.1 hh
  obtain rfl := leBytesInt_round_inj hf.2.1 hf'.2.1 hr
  obtain rfl := NilOrVal.signBytes_inj hva
  obtain rfl := leBytesInt_node_inj hf.2.2 hf'.2.2 hv
  rfl

lemma proposalSignBytes_inj {p p' : ConsensusProposal}
    (hf : (ConsensusMsg.proposal p).Fits) (hf' : (ConsensusMsg.proposal p').Fits)
    (hs : proposalSignBytes c p = proposalSignBytes c' p') :
    c = c' ∧ (ConsensusMsg.proposal p).Alike (.proposal p') := by
  obtain ⟨hs, hp⟩ := append_inj' hs (by simp [leBytesInt_length])
  obtain ⟨hs, hpr⟩ := append_inj' hs (by simp [leBytesInt_length])
  obtain ⟨hs, hash⟩ := append_inj' hs (by rw [p.value.blockHash.size, p'.value.blockHash.size])
  obtain ⟨hs, hr⟩ := append_inj' hs (by simp [leBytesInt_length])
  obtain ⟨hs, hh⟩ := append_inj' hs (by simp [leBytes_length])
  obtain ⟨hs, _⟩ := append_inj' hs rfl
  exact ⟨bytes_inj (append_cancel_left hs),
    leBytes_height_inj hf.1 hf'.1 hh,
    leBytesInt_round_inj hf.2.1 hf'.2.1 hr, bytes_inj hash,
    leBytesInt_round_inj hf.2.2.1 hf'.2.2.1 hpr,
    leBytesInt_node_inj hf.2.2.2 hf'.2.2.2 hp⟩

/-- Equal payloads are of one chain and one message, a proposal's block being known by its hash. -/
theorem consensusMsgSignBytes_inj {c c' : Blake3Hash} {m m' : ConsensusMsg}
    (fits : m.Fits) (fits' : m'.Fits)
    (same : m.signBytes c = m'.signBytes c') : c = c' ∧ m.Alike m' := by
  cases m with
  | vote v =>
    cases m' with
    | vote v' => exact voteSignBytes_inj fits fits' same
    | proposal p' =>
      have hl := congrArg length same
      simp [ConsensusMsg.signBytes, voteSignBytes_length, proposalSignBytes_length] at hl
  | proposal p =>
    cases m' with
    | vote v' =>
      have hl := congrArg length same
      simp [ConsensusMsg.signBytes, voteSignBytes_length, proposalSignBytes_length] at hl
    | proposal p' => exact proposalSignBytes_inj fits fits' same

/-- A proposal of node -1 in the nil round, with the given content. -/
def sampleProposal (round : Nat) : ConsensusMsg :=
  .proposal ⟨7, .nil, ⟨.replicate 32 9, ⟨7, round, none, []⟩⟩, .some 3, -1⟩

/-- The content of the block is not signed; its hash is. -/
theorem sampleProposal_alike :
    sampleProposal 0 ≠ sampleProposal 1 ∧ (sampleProposal 0).Alike (sampleProposal 1) := by
  have hf : ∀ round, (sampleProposal round).Fits := by
    intro round
    show 7 < 2 ^ 64 ∧ True ∧ 3 ≤ u32Max ∧ FitsI32 (-1)
    decide
  have hs : (sampleProposal 0).signBytes (.replicate 32 1) = (sampleProposal 1).signBytes
      (.replicate 32 1) := rfl
  exact ⟨by decide, (consensusMsgSignBytes_inj (hf 0) (hf 1) hs).2⟩

end HopNet
