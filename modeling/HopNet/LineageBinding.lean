import HopNet.Lineage

namespace HopNet

open Fallible List QuorumProfile

variable {L : LineageCodec} {lr₁ lr₂ lr : LineageRecord} {s s₁ s₂ : HopState} {block : Block}
  {seats : List Seat}

structure CommitOf (L : LineageCodec) (block : Block) (commit : RegenesisCommit) : Prop where
  found : ∃ tx, block.data.transactions.filter isCommitCall = [tx] ∧
    L.decodeCommit tx.rpc.payload = some commit

lemma CommitOf.unique {a b} (hf : CommitOf L block a) (hse : CommitOf L block b) : a = b := by
  obtain ⟨tx, hs, hd⟩ := hf.found
  obtain ⟨tx', hs', hd'⟩ := hse.found
  have same : tx = tx' := singleton_injective (hs.symm.trans hs')
  rw [← same, hd] at hd'
  exact Option.some.inj hd'

lemma verifyCommitBindsRecord_ok {record} (ran : verifyCommitBindsRecord L record block = .ok ()) :
    ∃ commit, CommitOf L block commit ∧ commit.snapshotHash = record.snapshotHash ∧
      commit.targetVersionCode = record.requiredVersionCode := by
  unfold verifyCommitBindsRecord at ran
  cases hco : block.data.transactions.filter isCommitCall with
  | nil => simp [hco] at ran
  | cons tx more =>
    simp only [hco, require_bind] at ran
    obtain ⟨ha, hc⟩ := ran
    cases hd : L.decodeCommit tx.rpc.payload with
    | none => simp [hd] at hc
    | some commit =>
      simp only [hd, bind_eq_ok, require_eq_ok, exists_const] at hc
      exact ⟨commit, ⟨tx, by rw [hco, ha], hd⟩, hc.1, hc.2.2⟩

structure HopAccepted (L : LineageCodec) (s : HopState) (lr : LineageRecord) (s' : HopState) :
    Prop where
  epoch : lr.record.epoch = s.epoch + 1
  linked : lr.record.prevChainId = s.chainId
  evidence : ∃ block commit, L.decodeBlock lr.finalBlock = .ok block ∧
    CommitOf L block commit ∧ block.blockHash = lr.record.finalBlockHash ∧
    block.data.height = lr.record.sealHeight ∧ commit.snapshotHash = lr.record.snapshotHash ∧
    commit.targetVersionCode = lr.record.requiredVersionCode
  next : ∃ genesis, genesisBlockFor L lr.record = .ok genesis ∧
    s' = ⟨lr.record.epoch, genesis.blockHash, some lr.record.seated, lr.record.quorumProfile⟩

lemma verifyHop_accepted {s s'} (hv : verifyHop L s lr = .ok s') : HopAccepted L s lr s' := by
  unfold verifyHop at hv
  simp only [bind_eq_ok, require_eq_ok, exists_const, mapError_eq_ok] at hv
  obtain ⟨epoch, linked, block, hb, cert, _, hv⟩ := hv
  split at hv
  · cases hv
  simp only [bind_eq_ok, mapError_eq_ok, pure_eq_ok] at hv
  obtain ⟨valset, _, _, hl, _, _, genesis, hbu, next⟩ := hv
  unfold verifyLineage at hl
  simp only [bind_eq_ok, require_eq_ok, exists_const, mapError_eq_ok] at hl
  obtain ⟨_, _, hash, hh, _, _, hbi, _⟩ := hl
  obtain ⟨commit, hc, hs, hve⟩ := verifyCommitBindsRecord_ok hbi
  exact
    { epoch := epoch
      linked := linked
      evidence := ⟨block, commit, hb, hc, hash, hh, hs, hve⟩
      next := ⟨genesis, hbu, next.symm⟩ }

/-- The fields a quorum or the anchor stands behind. -/
structure BoundAlike (a b : EpochGenesisRecord) : Prop where
  epoch : a.epoch = b.epoch
  requiredVersionCode : a.requiredVersionCode = b.requiredVersionCode
  prevChainId : a.prevChainId = b.prevChainId
  finalBlockHash : a.finalBlockHash = b.finalBlockHash
  sealHeight : a.sealHeight = b.sealHeight
  snapshotHash : a.snapshotHash = b.snapshotHash

lemma HopAccepted.boundAlike (hf : HopAccepted L s lr₁ s₁) (hs : HopAccepted L s lr₂ s₂)
    (same : L.decodeBlock lr₁.finalBlock = L.decodeBlock lr₂.finalBlock) :
    BoundAlike lr₁.record lr₂.record := by
  obtain ⟨block, commit, hd, hc, hash, hh, hsn, hv⟩ := hf.evidence
  obtain ⟨block', commit', hd', hc', hash', hh', hs', hv'⟩ :=
    hs.evidence
  have hsb : block = block' :=
    Except.ok.inj (hd.symm.trans (same.trans hd'))
  rw [← hsb] at hc' hash' hh'
  rw [← hc.unique hc'] at hs' hv'
  exact
    { epoch := hf.epoch.trans hs.epoch.symm
      requiredVersionCode := hv.symm.trans hv'
      prevChainId := hf.linked.trans hs.linked.symm
      finalBlockHash := hash.symm.trans hash'
      sealHeight := hh.symm.trans hh'
      snapshotHash := hsn.symm.trans hs' }

lemma verifyLineageChain_single {anchor last} (ha : verifyLineageChain L [lr] anchor = .ok last) :
    ∃ s', verifyHop L anchor.start lr = .ok s' := by
  unfold verifyLineageChain at ha
  simp only [getLast?_singleton, bind_eq_ok, foldlM_cons, foldlM_nil, pure_eq_ok] at ha
  obtain ⟨s, ⟨s', hop, _⟩, _⟩ := ha
  exact ⟨s', hop⟩

/-- The last block of an epoch sealed at `height`, by its commit. -/
def sampleFinal (height : UInt8) : Block :=
  let data : BlockData := ⟨height.toNat, 0, none,
    [{ rpc := ⟨"regenesis_commit", [height]⟩
       submitter := ⟨1, .replicate 64 0⟩
       user := none
       nonce := ⟨0⟩ }]⟩
  ⟨match data.computeHash .sample with | .ok hash => hash | .error _ => .replicate 32 0, data⟩

/-- Packages that compute: a final block travels as its height, its certificate as the signers'
keys, which repeat their ids. -/
def LineageCodec.sample : LineageCodec where
  prims := .sample
  canonicalBytes record := .ok (record.seated.map fun seat => UInt8.ofNat seat.nodeId.toNat)
  decodeBlock
    | [height] => .ok (sampleFinal height)
    | _ => .error .decode
  decodeCert
    | height :: signers => .ok ⟨height.toNat, 0, (sampleFinal height).blockHash,
        signers.map fun key => ⟨key.toNat, Primitives.sampleSign (.replicate 32 key)⟩⟩
    | [] => .error .decode
  decodeCommit payload := payload.head?.map fun b => ⟨.replicate 32 0, b.toNat, 20260801⟩
  decodeKey key := some key

def sampleSeat (key : UInt8) : Seat := ⟨key.toNat, .replicate 32 key⟩

def sampleAnchor : ChainAnchor where
  epoch := 1
  chainId := .replicate 32 0
  trust := .seated [sampleSeat 1, sampleSeat 2]
  profile := "majority"

/-- The boundary at height 9, certified by nodes 1 and 2, with a peer's seated set. -/
def sampleLineage (seated : List Seat) : LineageRecord where
  record :=
    { formatVersion := 1
      epoch := 2
      requiredVersionCode := 20260801
      prevChainId := .replicate 32 0
      finalBlockHash := (sampleFinal 9).blockHash
      sealHeight := 9
      snapshotHash := .replicate 32 0
      quorumProfile := "majority"
      seated := seated }
  finalBlock := [9]
  finalCert := [9, 1, 2]

def honestLineage : LineageRecord := sampleLineage [sampleSeat 1, sampleSeat 2]
def forgedLineage : LineageRecord := sampleLineage [sampleSeat 1, sampleSeat 2, sampleSeat 99]

def sampleChainId (lr : LineageRecord) : Blake3Hash :=
  match genesisBlockFor .sample lr.record with
  | .ok genesis => genesis.blockHash
  | .error _ => .replicate 32 0

/-- The boundary after `honestLineage`, at height 12. -/
def secondLineage : LineageRecord where
  record :=
    { formatVersion := 1
      epoch := 3
      requiredVersionCode := 20260801
      prevChainId := sampleChainId honestLineage
      finalBlockHash := (sampleFinal 12).blockHash
      sealHeight := 12
      snapshotHash := .replicate 32 0
      quorumProfile := "majority"
      seated := [sampleSeat 1, sampleSeat 2] }
  finalBlock := [12]
  finalCert := [12, 1, 2]

/-- With the same block and the same certificate a peer adds a validator of its own: the record is
accepted, and the next epoch's chain id and trusted set are the peer's. -/
theorem forgedLineage_accepted :
    verifyLineageChain .sample [honestLineage] sampleAnchor = .ok honestLineage ∧
    verifyLineageChain .sample [forgedLineage] sampleAnchor = .ok forgedLineage ∧
    forgedLineage.finalBlock = honestLineage.finalBlock ∧
    forgedLineage.finalCert = honestLineage.finalCert ∧
    forgedLineage.record.seated ≠ honestLineage.record.seated ∧
    (genesisBlockFor .sample forgedLineage.record).map (·.blockHash) ≠
      (genesisBlockFor .sample honestLineage.record).map (·.blockHash) := by
  decide

lemma seatedValidators_spec (L : LineageCodec) (seats : List Seat) :
    seatedValidators L seats ≠ .error .seatedSet ∧
    ∀ vs, seatedValidators L seats = .ok vs → vs.length = seats.length ∧
      ∀ v ∈ vs, v.votingPower = 1 := by
  induction seats with
  | nil => simp [seatedValidators]
  | cons seat rest ih =>
    unfold seatedValidators
    cases L.decodeKey seat.pubkey with
    | none => simp
    | some key =>
      simp only [ne_eq, bind_eq_error, pure_ne_error, and_false, exists_false, or_false, bind_eq_ok,
        pure_eq_ok]
      refine ⟨ih.1, ?_⟩
      rintro vs ⟨others, ho, rfl⟩
      obtain ⟨hl, hp⟩ := ih.2 others ho
      exact ⟨congrArg Nat.succ hl, forall_mem_cons.2 ⟨rfl, hp⟩⟩

/-- The validators a seated list decodes to: at least one, and no node twice. -/
def Seatable (L : LineageCodec) (seats : List Seat) : Prop :=
  ∀ vs, seatedValidators L seats = .ok vs → vs ≠ [] ∧ (vs.map (·.address)).Nodup

lemma valsetOf_eq_seatedSet : valsetOf L seats = .error .seatedSet ↔ ¬ Seatable L seats := by
  obtain ⟨he, hok⟩ := seatedValidators_spec L seats
  unfold valsetOf Seatable
  cases hv : seatedValidators L seats with
  | error e => simpa [bind, Except.bind, hv] using he
  | ok vs =>
    simp only [Except.ok.injEq, forall_eq', ← HopNetValidatorSet.isSome_new_iff (hok vs hv).2]
    cases hx : HopNetValidatorSet.new vs <;> simp [hx, bind, Except.bind, throw, throwThe,
      MonadExceptOf.throw]

lemma checkOverlap_eq_seatedSet {record cert} : checkOverlap L s record cert = .error .seatedSet ↔
    ∃ trusted, s.trusted = some trusted ∧ parse s.profile ≠ none ∧ ¬ Seatable L trusted := by
  unfold checkOverlap
  cases s.trusted with
  | none => simp
  | some trusted =>
    cases parse s.profile <;> simp [require_eq_error, valsetOf_eq_seatedSet]

/-- Where the earlier checks pass, the record's set is seatable; where it verifies, so is the
trusted one. -/
def HopTakes (L : LineageCodec) (s : HopState) (lr : LineageRecord) : Prop :=
  lr.record.epoch = s.epoch + 1 → lr.record.prevChainId = s.chainId →
    ∀ block, L.decodeBlock lr.finalBlock = .ok block → ∀ cert,
    L.decodeCert lr.finalCert = .ok cert → ∀ profile, parse lr.record.quorumProfile = some profile →
      Seatable L lr.record.seated ∧ ∀ valset, valsetOf L lr.record.seated = .ok valset →
        verifyLineage L lr.record block cert valset profile = .ok () →
        ∀ trusted, s.trusted = some trusted → parse s.profile ≠ none → Seatable L trusted

/-- `P` holds at every hop the loop comes to from `s`. -/
def EveryHop (L : LineageCodec) (P : HopState → LineageRecord → Prop) :
    List LineageRecord → HopState → Prop
  | [], _ => True
  | lr :: rest, s => P s lr ∧ ∀ s', verifyHop L s lr = .ok s' → EveryHop L P rest s'

/-- `epoch + 1` does not overflow. -/
def NextEpoch (s : HopState) (_ : LineageRecord) : Prop := s.epoch + 1 < 2 ^ 64
deriving Decidable

section

variable (hc : ∀ r, L.canonicalBytes r ≠ .error .seatedSet) (records : List LineageRecord)
include hc

lemma verifyHop_eq_seatedSet : verifyHop L s lr = .error .seatedSet ↔ ¬ HopTakes L s lr := by
  have hg : genesisBlockFor L lr.record ≠ .error .seatedSet := by
    simp [genesisBlockFor, hc, mapError_eq_error]
  unfold verifyHop HopTakes
  simp only [bind_eq_error, require_eq_error, mapError_eq_error, require_eq_ok, mapError_eq_ok,
    reduceCtorEq, and_false, exists_false, false_or, exists_const]
  cases parse lr.record.quorumProfile with
  | none => simp [throw, throwThe, MonadExceptOf.throw]
  | some profile =>
    simp only [bind_eq_error, valsetOf_eq_seatedSet, checkOverlap_eq_seatedSet, mapError_eq_error,
      mapError_eq_ok, hg, pure_ne_error, reduceCtorEq, and_false, exists_false, false_or, or_false]
    simp [imp_iff_not_or, Unique.exists_iff]

lemma foldlM_returns_iff :
    records.foldlM (verifyHop L) s ≠ .error .seatedSet ∧ EveryHop L NextEpoch records s ↔
    EveryHop L (fun s lr => NextEpoch s lr ∧ HopTakes L s lr) records s := by
  induction records generalizing s with
  | nil => simp [EveryHop, pure, Except.pure]
  | cons lr rest ih =>
    simp only [EveryHop, foldlM_cons, ne_eq, bind_eq_error, verifyHop_eq_seatedSet hc, ← ih]
    grind

/-- Verification fails no assertion and overflows nowhere exactly when every hop it comes to can be
taken. -/
theorem verifyLineageChain_returns_iff (anchor : ChainAnchor) :
    verifyLineageChain L records anchor ≠ .error .seatedSet ∧
    EveryHop L NextEpoch records anchor.start ↔
      EveryHop L (fun s lr => NextEpoch s lr ∧ HopTakes L s lr) records anchor.start := by
  have hf : ∀ s, checkFingerprint anchor s ≠ .error .seatedSet := by
    intro s
    unfold checkFingerprint
    split <;> simp [require_eq_error]
  rw [← foldlM_returns_iff hc]
  unfold verifyLineageChain
  cases hl : records.getLast? with
  | none => simp [getLast?_eq_none_iff.1 hl, pure, Except.pure]
  | some last => simp only [ne_eq, bind_eq_error, hf, pure_ne_error, and_false,
      exists_false, or_false]

end

theorem honestLineage_taken :
    EveryHop .sample (fun s lr => NextEpoch s lr ∧ HopTakes .sample s lr)
    [honestLineage] sampleAnchor.start := by
  apply (verifyLineageChain_returns_iff (by simp [LineageCodec.sample]) _ _).1
  exact ⟨by decide, by decide, fun _ _ => trivial⟩

/-- A seated list that is empty or names a node twice, and an anchor at the last epoch. -/
theorem unseatable_stops :
    verifyLineageChain .sample [sampleLineage []] sampleAnchor = .error .seatedSet ∧
    verifyLineageChain .sample [sampleLineage [sampleSeat 1, sampleSeat 1]] sampleAnchor =
      .error .seatedSet ∧
    ¬ EveryHop .sample NextEpoch [honestLineage] { sampleAnchor with epoch := 2 ^ 64 - 1 }.start :=
  ⟨by decide, by decide, fun h => absurd h.1 (by decide)⟩

end HopNet
