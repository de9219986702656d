import HopNet.Context
import HopNet.Lib.Fallible

/-! The mirror structs of everything that crosses the network or a restart, and the conversions to
and from the engine's types. -/

namespace HopNet

open Fallible

inductive CodecError where
  | encode
  | decode
  | invalid (field : String)
deriving DecidableEq

def u32Max : Nat := 4294967295

/-- Round on the wire: -1 is nil. -/
def roundToWire (r : Round) : Int := r.asI64

def roundFromWire (v : Int) : Except CodecError Round :=
  if v = -1 then .ok .nil
  else if 0 ≤ v ∧ v ≤ u32Max then .ok (.some v.toNat)
  else .error (.invalid "round")

/-- The values of the `i64` that stand for a round. -/
def RoundOnWire (v : Int) : Prop := v = -1 ∨ 0 ≤ v ∧ v ≤ u32Max
deriving Decidable

/-- A round of the engine, whose number is a `u32`. -/
def Round.Fits : Round → Prop
  | .nil => True
  | .some n => n ≤ u32Max

lemma roundFromWire_isOk {v : Int} : (∃ r, roundFromWire v = .ok r) ↔ RoundOnWire v := by
  unfold roundFromWire RoundOnWire
  by_cases hn : v = -1
  · simp [hn]
  · by_cases hr : 0 ≤ v ∧ v ≤ u32Max <;> simp [hn, hr]

variable {e : CodecError} {w : WireProposedValue} {validity : Validity}

lemma roundFromWire_error {v : Int} :
    roundFromWire v = .error e ↔ ¬ RoundOnWire v ∧ e = .invalid "round" := by
  unfold roundFromWire RoundOnWire
  by_cases hn : v = -1
  · simp [hn]
  · by_cases hr : 0 ≤ v ∧ v ≤ u32Max
    · simp [hn, hr]
    · simp [hn, hr, eq_comm]

def NilOrVal.toWire : NilOrVal → Option Blake3Hash
  | .nil => none
  | .val hash => some hash

def NilOrVal.ofWire : Option Blake3Hash → NilOrVal
  | none => .nil
  | some hash => .val hash

structure WireVote where
  typ : VoteType
  height : Nat
  round : Int
  value : Option Blake3Hash
  voter : Int
  signature : Signature

def SignedVote.toWire (sv : SignedVote) : WireVote where
  typ := sv.message.typ
  height := sv.message.height
  round := roundToWire sv.message.round
  value := sv.message.value.toWire
  voter := sv.message.voter
  signature := sv.signature

def WireVote.toSigned (w : WireVote) : Except CodecError SignedVote := do
  let round ← roundFromWire w.round
  return ⟨⟨w.typ, w.height, round, .ofWire w.value, w.voter⟩, w.signature⟩

structure WireProposal where
  height : Nat
  round : Int
  block : Block
  polRound : Int
  proposer : Int
  signature : Signature

def SignedProposal.toWire (sp : SignedProposal) : WireProposal where
  height := sp.message.height
  round := roundToWire sp.message.round
  block := sp.message.value
  polRound := roundToWire sp.message.polRound
  proposer := sp.message.proposer
  signature := sp.signature

def WireProposal.toSigned (w : WireProposal) : Except CodecError SignedProposal := do
  let round ← roundFromWire w.round
  let polRound ← roundFromWire w.polRound
  return ⟨⟨w.height, round, w.block, polRound, w.proposer⟩, w.signature⟩

/-- The full value as peers get it; validity is the receiver's own verdict. -/
structure WireProposedValue where
  height : Nat
  round : Int
  validRound : Int
  proposer : Int
  block : Block

def ProposedValue.toWire (pv : ProposedValue) : WireProposedValue where
  height := pv.height
  round := roundToWire pv.round
  validRound := roundToWire pv.validRound
  proposer := pv.proposer
  block := pv.value

def WireProposedValue.intoProposedValue (w : WireProposedValue) (validity : Validity) :
    Except CodecError ProposedValue := do
  let round ← roundFromWire w.round
  let validRound ← roundFromWire w.validRound
  return ⟨w.height, round, validRound, w.proposer, w.block, validity⟩

/-- Both rounds of a proposal stand for one. -/
def WireProposedValue.Decodes (w : WireProposedValue) : Prop :=
  RoundOnWire w.round ∧ RoundOnWire w.validRound
deriving Decidable

lemma WireProposedValue.intoProposedValue_ok {pv} (hd : w.intoProposedValue validity = .ok pv) :
    pv.value = w.block := by
  unfold intoProposedValue at hd
  simp only [bind_eq_ok, pure_eq_ok] at hd
  obtain ⟨round, _, validRound, _, rfl⟩ := hd
  rfl

lemma WireProposedValue.intoProposedValue_error :
    w.intoProposedValue validity = .error e ↔ ¬ w.Decodes ∧ e = .invalid "round" := by
  unfold intoProposedValue Decodes
  simp only [bind_eq_error, roundFromWire_error, pure_ne_error, and_false, exists_false, or_false]
  constructor
  · intro hf
    rcases hf with ⟨bad, hr⟩ | ⟨round, _, bad, hr⟩
    · exact ⟨fun hb => bad hb.1, hr⟩
    · exact ⟨fun hb => bad hb.2, hr⟩
  · intro hf
    obtain ⟨bad, hr⟩ := hf
    by_cases hfi : RoundOnWire w.round
    · obtain ⟨round, hd⟩ := roundFromWire_isOk.2 hfi
      exact .inr ⟨round, hd, fun hs => bad ⟨hfi, hs⟩, hr⟩
    · exact .inl ⟨hfi, hr⟩

structure WireCommitCertificate where
  height : Nat
  round : Int
  valueId : Blake3Hash
  signatures : List CommitSignature
deriving DecidableEq

def CommitCertificate.toWire (c : CommitCertificate) : WireCommitCertificate :=
  ⟨c.height, roundToWire c.round, c.valueId, c.commitSignatures⟩

def WireCommitCertificate.toCertificate (w : WireCommitCertificate) :
    Except CodecError CommitCertificate := do
  let round ← roundFromWire w.round
  return ⟨w.height, round, w.valueId, w.signatures⟩

lemma WireCommitCertificate.toCertificate_error {w : WireCommitCertificate} :
    w.toCertificate = .error e ↔ ¬ RoundOnWire w.round ∧ e = .invalid "round" := by
  unfold toCertificate
  simp only [bind_eq_error, roundFromWire_error, pure_ne_error, and_false, exists_false, or_false]

structure WirePolkaCertificate where
  height : Nat
  round : Int
  valueId : Blake3Hash
  signatures : List CommitSignature

def PolkaCertificate.toWire (c : PolkaCertificate) : WirePolkaCertificate :=
  ⟨c.height, roundToWire c.round, c.valueId, c.polkaSignatures⟩

def WirePolkaCertificate.toCertificate (w : WirePolkaCertificate) :
    Except CodecError PolkaCertificate := do
  let round ← roundFromWire w.round
  return ⟨w.height, round, w.valueId, w.signatures⟩

structure WireRoundSignature where
  voteType : VoteType
  valueId : Option Blake3Hash
  address : Int
  signature : Signature

structure WireRoundCertificate where
  height : Nat
  round : Int
  certType : RoundCertificateType
  signatures : List WireRoundSignature

def RoundCertificate.toWire (c : RoundCertificate) : WireRoundCertificate where
  height := c.height
  round := roundToWire c.round
  certType := c.certType
  signatures := c.roundSignatures.map fun rs =>
    ⟨rs.voteType, rs.valueId.toWire, rs.address, rs.signature⟩

def WireRoundCertificate.toCertificate (w : WireRoundCertificate) :
    Except CodecError RoundCertificate := do
  let round ← roundFromWire w.round
  return ⟨w.height, round, w.certType, w.signatures.map fun rs =>
    ⟨rs.voteType, .ofWire rs.valueId, rs.address, rs.signature⟩⟩

inductive WireConsensusMsg where
  | vote (w : WireVote)
  | proposedValue (w : WireProposedValue)
  | livenessVote (w : WireVote)
  | livenessPolka (w : WirePolkaCertificate)
  | livenessSkipRound (w : WireRoundCertificate)

def WireConsensusMsg.height : WireConsensusMsg → Nat
  | .vote w | .livenessVote w => w.height
  | .proposedValue w => w.height
  | .livenessPolka w => w.height
  | .livenessSkipRound w => w.height

inductive WalEntry where
  | vote (v : SignedVote)
  | proposal (p : SignedProposal)
  | timeout (t : Timeout)
  | proposedValue (pv : ProposedValue)

inductive WireTimeoutKind where
  | propose
  | prevote
  | precommit
  | rebroadcast
  | finalizeHeight (ms : UInt64)

/-- A duration goes to the log as `as_millis() as u64`. -/
def TimeoutKind.toWire : TimeoutKind → WireTimeoutKind
  | .propose => .propose
  | .prevote => .prevote
  | .precommit => .precommit
  | .rebroadcast => .rebroadcast
  | .finalizeHeight ms => .finalizeHeight (.ofNat ms)

def WireTimeoutKind.toKind : WireTimeoutKind → TimeoutKind
  | .propose => .propose
  | .prevote => .prevote
  | .precommit => .precommit
  | .rebroadcast => .rebroadcast
  | .finalizeHeight ms => .finalizeHeight ms.toNat

inductive WireWalEntry where
  | vote (w : WireVote)
  | proposal (w : WireProposal)
  | timeout (kind : WireTimeoutKind) (round : Int)
  | proposedValue (inner : WireProposedValue) (valid : Bool)

def WalEntry.toWire : WalEntry → WireWalEntry
  | .vote v => .vote v.toWire
  | .proposal p => .proposal p.toWire
  | .timeout t => .timeout t.kind.toWire (roundToWire t.round)
  | .proposedValue pv => .proposedValue pv.toWire (pv.validity = .valid)

def WireWalEntry.toEntry : WireWalEntry → Except CodecError WalEntry
  | .vote w => do
      let v ← w.toSigned
      return .vote v
  | .proposal w => do
      let p ← w.toSigned
      return .proposal p
  | .timeout kind round => do
      let round ← roundFromWire round
      return .timeout ⟨round, kind.toKind⟩
  | .proposedValue inner valid => do
      let pv ← inner.intoProposedValue (if valid then .valid else .invalid)
      return .proposedValue pv

/-- The values that survive the way to their mirror and back are those that fit, and a mirror that
decodes survives the other way. -/
structure Mirrors {α β : Type} (Fits : α → Prop) (toWire : α → β) (back : β → Except CodecError α) :
    Prop where
  lossless : ∀ a, back (toWire a) = .ok a ↔ Fits a
  faithful : ∀ w a, back w = .ok a → toWire a = w

lemma Mirrors.of_iff {α β : Type} {Fits : α → Prop} {toWire : α → β}
    {back : β → Except CodecError α}
    (he : ∀ w a, back w = .ok a ↔ Fits a ∧ toWire a = w) : Mirrors Fits toWire back :=
  ⟨fun a => by simp [he], fun w a hd => ((he w a).1 hd).2⟩

lemma roundFromWire_eq_ok {v : Int} {r} : roundFromWire v = .ok r ↔ r.Fits ∧ roundToWire r = v := by
  unfold roundFromWire roundToWire Round.asI64 Round.Fits
  cases r with
  | nil => split_ifs <;> simp_all [eq_comm]
  | some n =>
    split_ifs with hn hr
    · simp [hn]
    · simp only [Except.ok.injEq, Round.some.injEq]
      omega
    · simp only [false_iff]
      omega

@[simp] lemma NilOrVal.ofWire_toWire (value : NilOrVal) : ofWire value.toWire = value := by
  cases value <;> rfl

@[simp] lemma NilOrVal.toWire_ofWire (value : Option Blake3Hash) :
    (ofWire value).toWire = value := by
  cases value <;> rfl

lemma WireVote.toSigned_eq_ok {w} {v : SignedVote} :
    w.toSigned = .ok v ↔ v.message.round.Fits ∧ v.toWire = w := by
  simp only [toSigned, bind_eq_ok, pure_eq_ok, roundFromWire_eq_ok]
  constructor
  · rintro ⟨round, ⟨hf, hr⟩, rfl⟩
    exact ⟨hf, by simp [SignedVote.toWire, hr]⟩
  · rintro ⟨hf, rfl⟩
    exact ⟨_, ⟨hf, rfl⟩, by simp [SignedVote.toWire]⟩

lemma WireProposal.toSigned_eq_ok {w} {p : SignedProposal} :
    w.toSigned = .ok p ↔ (p.message.round.Fits ∧ p.message.polRound.Fits) ∧ p.toWire = w := by
  simp only [toSigned, bind_eq_ok, pure_eq_ok, roundFromWire_eq_ok]
  constructor
  · rintro ⟨round, ⟨hf, hr⟩, pol, ⟨hp, hpr⟩, rfl⟩
    exact ⟨⟨hf, hp⟩, by simp [SignedProposal.toWire, hr, hpr]⟩
  · rintro ⟨hf, rfl⟩
    exact ⟨_, ⟨hf.1, rfl⟩, _, ⟨hf.2, rfl⟩, rfl⟩

lemma WireProposedValue.intoProposedValue_eq_ok {pv} : w.intoProposedValue validity = .ok pv ↔
    ((pv.round.Fits ∧ pv.validRound.Fits) ∧ pv.validity = validity) ∧ pv.toWire = w := by
  simp only [intoProposedValue, bind_eq_ok, pure_eq_ok, roundFromWire_eq_ok]
  constructor
  · rintro ⟨round, ⟨hf, hr⟩, valid, ⟨hv, hvr⟩, rfl⟩
    exact ⟨⟨⟨hf, hv⟩, rfl⟩, by simp [ProposedValue.toWire, hr, hvr]⟩
  · rintro ⟨⟨hf, rfl⟩, rfl⟩
    exact ⟨_, ⟨hf.1, rfl⟩, _, ⟨hf.2, rfl⟩, rfl⟩

lemma CommitCertificate.mirrors :
    Mirrors (·.round.Fits) CommitCertificate.toWire WireCommitCertificate.toCertificate := by
  refine .of_iff fun w c => ?_
  simp only [WireCommitCertificate.toCertificate, bind_eq_ok, pure_eq_ok, roundFromWire_eq_ok]
  constructor
  · rintro ⟨round, ⟨hf, hr⟩, rfl⟩
    exact ⟨hf, by simp [toWire, hr]⟩
  · rintro ⟨hf, rfl⟩
    exact ⟨_, ⟨hf, rfl⟩, rfl⟩

lemma PolkaCertificate.mirrors :
    Mirrors (·.round.Fits) PolkaCertificate.toWire WirePolkaCertificate.toCertificate := by
  refine .of_iff fun w c => ?_
  simp only [WirePolkaCertificate.toCertificate, bind_eq_ok, pure_eq_ok, roundFromWire_eq_ok]
  constructor
  · rintro ⟨round, ⟨hf, hr⟩, rfl⟩
    exact ⟨hf, by simp [toWire, hr]⟩
  · rintro ⟨hf, rfl⟩
    exact ⟨_, ⟨hf, rfl⟩, rfl⟩

lemma RoundCertificate.mirrors :
    Mirrors (·.round.Fits) RoundCertificate.toWire WireRoundCertificate.toCertificate := by
  refine .of_iff fun w c => ?_
  simp only [WireRoundCertificate.toCertificate, bind_eq_ok, pure_eq_ok, roundFromWire_eq_ok]
  constructor
  · rintro ⟨round, ⟨hf, hr⟩, rfl⟩
    exact ⟨hf, by simp [toWire, hr, Function.comp_def]⟩
  · rintro ⟨hf, rfl⟩
    exact ⟨_, ⟨hf, rfl⟩, by simp [toWire, Function.comp_def]⟩

def TimeoutKind.Fits : TimeoutKind → Prop
  | .finalizeHeight ms => ms < 2 ^ 64
  | _ => True

lemma WireTimeoutKind.toKind_eq {k} {kind : TimeoutKind} :
    k.toKind = kind ↔ kind.Fits ∧ kind.toWire = k := by
  constructor
  · rintro rfl
    cases k with
    | finalizeHeight ms => exact ⟨ms.toNat_lt, congrArg _ UInt64.ofNat_toNat⟩
    | _ => exact ⟨trivial, rfl⟩
  · rintro ⟨hf, rfl⟩
    cases kind with
    | finalizeHeight ms => exact congrArg _ (UInt64.toNat_ofNat_of_lt hf)
    | _ => rfl

/-- Rounds are `u32` in the engine; a duration has to fit a `u64` of milliseconds. -/
def WalEntry.Fits : WalEntry → Prop
  | .vote v => v.message.round.Fits
  | .proposal p => p.message.round.Fits ∧ p.message.polRound.Fits
  | .timeout t => t.round.Fits ∧ t.kind.Fits
  | .proposedValue pv => pv.round.Fits ∧ pv.validRound.Fits

lemma WalEntry.mirrors : Mirrors WalEntry.Fits WalEntry.toWire WireWalEntry.toEntry := by
  refine .of_iff fun w e => ?_
  cases w with
  | vote w =>
    simp only [WireWalEntry.toEntry, bind_eq_ok, pure_eq_ok, WireVote.toSigned_eq_ok]
    cases e <;> simp [toWire, Fits]
  | proposal w =>
    simp only [WireWalEntry.toEntry, bind_eq_ok, pure_eq_ok, WireProposal.toSigned_eq_ok]
    cases e <;> simp [toWire, Fits]
  | timeout kind round =>
    simp only [WireWalEntry.toEntry, bind_eq_ok, pure_eq_ok, roundFromWire_eq_ok]
    cases e with
    | timeout t =>
      obtain ⟨r, k⟩ := t
      simp only [toWire, Fits, timeout.injEq, Timeout.mk.injEq, WireWalEntry.timeout.injEq,
        WireTimeoutKind.toKind_eq]
      grind
    | _ => simp [toWire]
  | proposedValue inner valid =>
    simp only [WireWalEntry.toEntry, bind_eq_ok, pure_eq_ok,
      WireProposedValue.intoProposedValue_eq_ok]
    cases e with
    | proposedValue pv =>
      cases valid <;> cases hv : pv.validity <;> simp [toWire, Fits, hv]
    | _ => simp [toWire]

/-- All mirrors are lossless both ways, but for the log entry of a timeout whose duration does not
fit. -/
theorem mirrors_lossless_iff (validity : Validity) :
    Mirrors (·.message.round.Fits) SignedVote.toWire WireVote.toSigned ∧
    Mirrors (fun p => p.message.round.Fits ∧ p.message.polRound.Fits) SignedProposal.toWire
      WireProposal.toSigned ∧
    Mirrors (fun pv => (pv.round.Fits ∧ pv.validRound.Fits) ∧ pv.validity = validity)
      ProposedValue.toWire (·.intoProposedValue validity) ∧
    Mirrors (·.round.Fits) CommitCertificate.toWire WireCommitCertificate.toCertificate ∧
    Mirrors (·.round.Fits) PolkaCertificate.toWire WirePolkaCertificate.toCertificate ∧
    Mirrors (·.round.Fits) RoundCertificate.toWire WireRoundCertificate.toCertificate ∧
    Mirrors WalEntry.Fits WalEntry.toWire WireWalEntry.toEntry :=
  ⟨.of_iff fun _ _ => WireVote.toSigned_eq_ok, .of_iff fun _ _ => WireProposal.toSigned_eq_ok,
    .of_iff fun _ _ => WireProposedValue.intoProposedValue_eq_ok, CommitCertificate.mirrors,
    PolkaCertificate.mirrors, RoundCertificate.mirrors, WalEntry.mirrors⟩

end HopNet
