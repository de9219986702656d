import HopNet.LineageBinding

namespace HopNet

open Fallible List

variable {L : LineageCodec} {chain : List LineageRecord} {record : EpochGenesisRecord}
  {genesis : Block} {s t : HopState}

/-- `bytes` is what is hashed into the chain id of `record`. -/
structure HashedFor (L : LineageCodec) (record : EpochGenesisRecord) (bytes : Bytes) : Prop where
  encoded : ∃ payload, L.canonicalBytes record = .ok payload ∧
    L.prims.encodeBlockData (genesisDataFor L record payload) = .ok bytes

lemma genesisBlockFor_hash (hb : genesisBlockFor L record = .ok genesis) :
    ∃ bytes, HashedFor L record bytes ∧ genesis.blockHash = L.prims.blake3 bytes := by
  unfold genesisBlockFor at hb
  simp only [bind_eq_ok, mapError_eq_ok] at hb
  obtain ⟨payload, he, hm⟩ := hb
  unfold Block.new BlockData.computeHash at hm
  simp only [bind_eq_ok, pure_eq_ok] at hm
  obtain ⟨hash, ⟨bytes, hs, rfl⟩, rfl⟩ := hm
  exact ⟨bytes, ⟨payload, he, hs⟩, rfl⟩

/-- The packages tell `records` apart: their encoding is injective, and no two hashed values
collide. -/
structure Separates (L : LineageCodec) (chain : List LineageRecord) : Prop where
  encoding : ∀ a ∈ chain, ∀ b ∈ chain, ∀ bytes,
    HashedFor L a.record bytes → HashedFor L b.record bytes → a.record = b.record
  hash : Set.InjOn L.prims.blake3 {bytes | ∃ lr ∈ chain, HashedFor L lr.record bytes}

lemma Separates.record_eq (ha : Separates L chain) {a b} (inA : a ∈ chain) (inB : b ∈ chain)
    {genesis'} (hb : genesisBlockFor L a.record = .ok genesis)
    (hb' : genesisBlockFor L b.record = .ok genesis')
    (same : genesis.blockHash = genesis'.blockHash) : a.record = b.record := by
  obtain ⟨bytes, hh, hash⟩ := genesisBlockFor_hash hb
  obtain ⟨bytes', hh', hash'⟩ := genesisBlockFor_hash hb'
  rw [hash, hash'] at same
  have hs := ha.hash ⟨a, inA, hh⟩ ⟨b, inB, hh'⟩ same
  rw [← hs] at hh'
  exact ha.encoding a inA b inB bytes hh hh'

section

variable {lr : LineageRecord} {anchor : ChainAnchor} {trusted : List Seat}

/-- The same evidence under another record: nothing certified says who is seated, or the format. -/
def LineageRecord.claiming (lr : LineageRecord) (seated : List Seat) (formatVersion : Nat) :
    LineageRecord :=
  { lr with record := { lr.record with seated, formatVersion } }

/-- A record is accepted with any format, and with any seated list that gives the same set. -/
lemma verifyHop_claiming {s' seated formatVersion} (hop : verifyHop L s lr = .ok s')
    (same : valsetOf L seated = valsetOf L lr.record.seated)
    (builds : genesisBlockFor L (lr.claiming seated formatVersion).record = .ok genesis) :
    verifyHop L s (lr.claiming seated formatVersion) =
      .ok ⟨lr.record.epoch, genesis.blockHash, some seated, lr.record.quorumProfile⟩ := by
  unfold verifyHop at hop ⊢
  simp only [bind_eq_ok, exists_require, mapError_eq_ok] at hop ⊢
  obtain ⟨epoch, linked, block, hb, cert, hc, hop⟩ := hop
  refine ⟨epoch, linked, block, hb, cert, hc, ?_⟩
  cases hp : QuorumProfile.parse lr.record.quorumProfile with
  | none => simp [hp] at hop
  | some profile =>
    have known : QuorumProfile.parse (lr.claiming seated formatVersion).record.quorumProfile =
        some profile := hp
    simp only [hp, known, bind_eq_ok, mapError_eq_ok, pure_eq_ok] at hop ⊢
    obtain ⟨valset, hv, _, hl, _, ho, _⟩ := hop
    exact ⟨valset, same.trans hv, _, hl, _, ho, genesis, builds, rfl⟩

lemma valsetOf_swap {a b : Seat} {rest : List Seat} {valset}
    (ok : valsetOf L (a :: b :: rest) = .ok valset) :
    valsetOf L (b :: a :: rest) = .ok valset ∧ a ≠ b := by
  have decodes : ∀ seat seats vs, seatedValidators L (seat :: seats) = .ok vs ↔
      ∃ key, L.decodeKey seat.pubkey = some key ∧ ∃ others, seatedValidators L seats = .ok others ∧
        vs = Validator.new seat.nodeId key :: others := by
    intro seat seats vs
    rw [seatedValidators]
    cases L.decodeKey seat.pubkey with
    | none => simp
    | some key =>
      simp only [bind_eq_ok, pure_eq_ok, Option.some.injEq, exists_eq_left']
      exact exists_congr fun _ => and_congr_right fun _ => eq_comm
  simp only [valsetOf, bind_eq_ok, decodes] at ok ⊢
  obtain ⟨_, ⟨ka, ha, _, ⟨kb, hb, others, ho, rfl⟩, rfl⟩, ok⟩ := ok
  have uniform := ((seatedValidators_spec L (a :: b :: rest)).2 _ ((decodes ..).2
    ⟨ka, ha, _, (decodes ..).2 ⟨kb, hb, others, ho, rfl⟩, rfl⟩)).2
  have distinct : ((Validator.new a.nodeId ka :: .new b.nodeId kb :: others).map
      (·.address)).Nodup := by
    refine ((HopNetValidatorSet.isSome_new_iff uniform).1 ?_).2
    cases hn : HopNetValidatorSet.new (.new a.nodeId ka :: .new b.nodeId kb :: others) with
    | none => simp [hn] at ok
    | some set => rfl
  refine ⟨⟨_, ⟨kb, hb, _, ⟨ka, ha, others, ho, rfl⟩, rfl⟩, ?_⟩, ?_⟩
  · rw [HopNetValidatorSet.new_perm distinct (Perm.swap _ _ _)]
    exact ok
  · rintro rfl
    simp [Validator.new] at distinct

lemma verifyLineageChain_of_hop {s'} (seated : anchor.trust = .seated trusted)
    (hop : verifyHop L anchor.start lr = .ok s') : verifyLineageChain L [lr] anchor = .ok lr := by
  simp [verifyLineageChain, checkFingerprint, seated, hop, bind, Except.bind, pure, Except.pure]

/-- Two seats are exchanged, or, where there are none to exchange, the format is another. -/
lemma exists_rival {s'} (hop : verifyHop L s lr = .ok s') : ∃ seats formatVersion,
    valsetOf L seats = valsetOf L lr.record.seated ∧
    lr.record ≠ (lr.claiming seats formatVersion).record ∧
    (1 < lr.record.seated.length → seats ≠ lr.record.seated) := by
  obtain ⟨valset, ok⟩ : ∃ valset, valsetOf L lr.record.seated = .ok valset := by
    unfold verifyHop at hop
    simp only [bind_eq_ok, exists_require] at hop
    obtain ⟨_, _, _, _, _, _, hop⟩ := hop
    split at hop
    · cases hop
    · obtain ⟨valset, ok, _⟩ := bind_eq_ok.1 hop
      exact ⟨valset, ok⟩
  have format : lr.record ≠
      (lr.claiming lr.record.seated (1 - lr.record.formatVersion)).record := by
    intro same
    have version := congrArg EpochGenesisRecord.formatVersion same
    simp only [LineageRecord.claiming] at version
    omega
  match seats : lr.record.seated with
  | a :: b :: rest =>
    rw [seats] at ok
    obtain ⟨swapped, distinct⟩ := valsetOf_swap ok
    have differs : b :: a :: rest ≠ a :: b :: rest := fun same => distinct (cons.inj same).1.symm
    refine ⟨b :: a :: rest, lr.record.formatVersion, swapped.trans ok.symm, fun same => ?_,
      fun _ => differs⟩
    have list := congrArg EpochGenesisRecord.seated same
    rw [seats] at list
    exact differs list.symm
  | [] | [a] => exact ⟨_, _, congrArg _ seats, format, by simp⟩

/-- Two accepted records of one final block agree on what its quorum certified. But every accepted
record has a rival, with the same block and the same certificate: of another seated list where it
has two seats, and, hashes and encodings not colliding, of another next chain id. -/
theorem lineage_record_has_rival (L : LineageCodec) {anchor : ChainAnchor} {trusted : List Seat}
    {lr last : LineageRecord} (seated : anchor.trust = .seated trusted)
    (builds : ∀ record, ∃ genesis, genesisBlockFor L record = .ok genesis)
    (accepted : verifyLineageChain L [lr] anchor = .ok last) :
    (∀ other last', verifyLineageChain L [other] anchor = .ok last' →
      L.decodeBlock lr.finalBlock = L.decodeBlock other.finalBlock →
        BoundAlike lr.record other.record) ∧
    ∃ rival, verifyLineageChain L [rival] anchor = .ok rival ∧ rival.finalBlock = lr.finalBlock ∧
      rival.finalCert = lr.finalCert ∧
      (1 < lr.record.seated.length → rival.record.seated ≠ lr.record.seated) ∧
      (Separates L [lr, rival] → ∀ s s', verifyHop L anchor.start lr = .ok s →
        verifyHop L anchor.start rival = .ok s' → s.chainId ≠ s'.chainId) := by
  obtain ⟨s, hop⟩ := verifyLineageChain_single accepted
  refine ⟨fun other last' accepted' same => ?_, ?_⟩
  · obtain ⟨s', hop'⟩ := verifyLineageChain_single accepted'
    exact (verifyHop_accepted hop).boundAlike (verifyHop_accepted hop') same
  obtain ⟨seats, formatVersion, same, differs, others⟩ := exists_rival hop
  obtain ⟨genesis, built⟩ := builds (lr.claiming seats formatVersion).record
  have rival := verifyHop_claiming hop same built
  refine ⟨lr.claiming seats formatVersion, verifyLineageChain_of_hop seated rival, rfl, rfl, others,
    fun apart s₁ s₂ hop₁ hop₂ equal => ?_⟩
  obtain ⟨g₁, built₁, next₁⟩ := (verifyHop_accepted hop₁).next
  obtain ⟨g₂, built₂, next₂⟩ := (verifyHop_accepted hop₂).next
  rw [next₁, next₂] at equal
  exact differs (apart.record_eq (by simp) (by simp) built₁ built₂ equal)

end

lemma LineageCodec.sample_builds (record : EpochGenesisRecord) :
    ∃ genesis, genesisBlockFor .sample record = .ok genesis :=
  ⟨_, rfl⟩

/-- The honest record of two seats has a rival that seats another list. -/
theorem honestLineage_has_rival : ∃ rival,
    verifyLineageChain .sample [honestLineage] sampleAnchor = .ok honestLineage ∧
    verifyLineageChain .sample [rival] sampleAnchor = .ok rival ∧
    rival.finalBlock = honestLineage.finalBlock ∧ rival.finalCert = honestLineage.finalCert ∧
    rival.record.seated ≠ honestLineage.record.seated := by
  have accepted : verifyLineageChain .sample [honestLineage] sampleAnchor = .ok honestLineage := by
    decide
  obtain ⟨rival, hr, hb, hc, hs, _⟩ :=
    (lineage_record_has_rival .sample rfl LineageCodec.sample_builds accepted).2
  exact ⟨rival, accepted, hr, hb, hc, hs (by decide)⟩

lemma foldlM_verifyHop_epoch (hv : chain.foldlM (verifyHop L) s = .ok t) :
    t.epoch = s.epoch + chain.length := by
  induction chain generalizing s with
  | nil =>
    simp only [foldlM_nil, pure_eq_ok] at hv
    rw [← hv]
    rfl
  | cons lr rest ih =>
    simp only [foldlM_cons, bind_eq_ok] at hv
    obtain ⟨s', hop, hv⟩ := hv
    have ha := verifyHop_accepted hop
    obtain ⟨_, _, hn⟩ := ha.next
    have hh : s'.epoch = s.epoch + 1 := by rw [hn, ← ha.epoch]
    rw [ih hv, hh, length_cons]
    omega

lemma foldlM_verifyHop_concat {init lr} (hv : (init ++ [lr]).foldlM (verifyHop L) s = .ok t) :
    ∃ mid, init.foldlM (verifyHop L) s = .ok mid ∧ HopAccepted L mid lr t := by
  simp only [foldlM_append, foldlM_cons, foldlM_nil, bind_eq_ok, pure_eq_ok] at hv
  obtain ⟨mid, hr, t', hop, rfl⟩ := hv
  exact ⟨mid, hr, verifyHop_accepted hop⟩

/-- Equally long chains with one end and one start carry the same records, by induction from the
end: each names the id before it. -/
lemma foldlM_verifyHop_records (hap : Separates L chain)
    {a b : List LineageRecord} (inA : ∀ lr ∈ a, lr ∈ chain) (inB : ∀ lr ∈ b, lr ∈ chain)
    (hl : a.length = b.length) {s' t'}
    (hv : a.foldlM (verifyHop L) s = .ok t)
    (hv' : b.foldlM (verifyHop L) s' = .ok t')
    (hs : t.chainId = t'.chainId) : a.map (·.record) = b.map (·.record) := by
  induction a using List.reverseRecOn generalizing b t t' with
  | nil =>
    rw [eq_nil_of_length_eq_zero hl.symm]
  | append_singleton init lr ih =>
    induction b using List.reverseRecOn with
    | nil => simp at hl
    | append_singleton init' lr' _ =>
      obtain ⟨mid, hr, ha⟩ := foldlM_verifyHop_concat hv
      obtain ⟨mid', hr', ha'⟩ := foldlM_verifyHop_concat hv'
      obtain ⟨genesis, hbu, hn⟩ := ha.next
      obtain ⟨genesis', hb', hn'⟩ := ha'.next
      have last : lr.record = lr'.record := by
        refine hap.record_eq (inA lr (by simp)) (inB lr' (by simp)) hbu hb' ?_
        rw [hn, hn'] at hs
        exact hs
      have hb : mid.chainId = mid'.chainId := by
        rw [← ha.linked, ← ha'.linked, last]
      have rest := ih (fun lr hm => inA lr (by simp [hm]))
        (fun lr hm => inB lr (by simp [hm])) (by simpa using hl)
        hr hr' hb
      simp [rest, last]

lemma verifyLineageChain_fingerprint {anchor fp last} (ht : anchor.trust = .fingerprint fp)
    (ha : verifyLineageChain L chain anchor = .ok last) :
    chain.getLast? = some last ∧ ∃ t, chain.foldlM (verifyHop L) anchor.start = .ok t ∧
      t.chainId = fp := by
  unfold verifyLineageChain at ha
  cases he : chain.getLast? with
  | none => simp [he] at ha
  | some lr =>
    simp only [he, bind_eq_ok, checkFingerprint, ht, require_eq_ok, pure_eq_ok, exists_const] at ha
    obtain ⟨t, hv, har, rfl⟩ := ha
    exact ⟨rfl, t, hv, har⟩

/-- Two chains accepted from anchors of one epoch under one fingerprint carry the same records,
so the same snapshot is imported; the chain ids of the anchors need not even be compared. -/
theorem fingerprint_pins_records (L : LineageCodec) {chain chain' : List LineageRecord}
    {anchor anchor' : ChainAnchor} {fp : Blake3Hash} {last last' : LineageRecord}
    (apart : Separates L (chain ++ chain'))
    (trust : anchor.trust = .fingerprint fp) (trust' : anchor'.trust = .fingerprint fp)
    (epoch : anchor.epoch = anchor'.epoch)
    (accepted : verifyLineageChain L chain anchor = .ok last)
    (accepted' : verifyLineageChain L chain' anchor' = .ok last') :
    chain.map (·.record) = chain'.map (·.record) ∧
    last.record.snapshotHash = last'.record.snapshotHash := by
  obtain ⟨he, t, hv, ha⟩ := verifyLineageChain_fingerprint trust accepted
  obtain ⟨he', t', hv', ha'⟩ := verifyLineageChain_fingerprint trust' accepted'
  have hc : ∀ lr ∈ chain, lr ∈ chain ++ chain' := fun _ => mem_append_left chain'
  have hc' : ∀ lr ∈ chain', lr ∈ chain ++ chain' := fun _ => mem_append_right chain
  obtain ⟨init, hsp⟩ := getLast?_eq_some_iff.1 he
  obtain ⟨init', hs'⟩ := getLast?_eq_some_iff.1 he'
  have hh := hv
  have hh' := hv'
  rw [hsp] at hh
  rw [hs'] at hh'
  obtain ⟨_, _, hop⟩ := foldlM_verifyHop_concat hh
  obtain ⟨_, _, hop'⟩ := foldlM_verifyHop_concat hh'
  obtain ⟨genesis, hb, hn⟩ := hop.next
  obtain ⟨genesis', hb', hn'⟩ := hop'.next
  have hs : last.record = last'.record := by
    refine apart.record_eq (hc last (by simp [hsp])) (hc' last' (by simp [hs'])) hb hb' ?_
    rw [hn] at ha
    rw [hn'] at ha'
    exact ha.trans ha'.symm
  -- The epoch a chain arrives at counts its records.
  have length : chain.length = chain'.length := by
    have hco := foldlM_verifyHop_epoch hv
    have hco' := foldlM_verifyHop_epoch hv'
    have hst : anchor.start.epoch = anchor'.start.epoch := epoch
    have hr : t.epoch = t'.epoch := by rw [hn, hn', hs]
    omega
  exact ⟨foldlM_verifyHop_records apart hc hc' length hv hv' (ha.trans ha'.symm), by rw [hs]⟩

def fingerprintAnchor : ChainAnchor where
  epoch := 1
  chainId := .replicate 32 0
  trust := .fingerprint (sampleChainId secondLineage)
  profile := "majority"

/-- The same boundary with the signers of its certificate in another order. -/
def reorderedLineage : LineageRecord := { secondLineage with finalCert := [12, 2, 1] }

lemma HashedFor.sample_head {bytes} (hh : HashedFor .sample record bytes) :
    bytes = UInt8.ofNat record.sealHeight :: 0 :: 1 ::
      record.seated.map fun seat => UInt8.ofNat seat.nodeId.toNat := by
  obtain ⟨payload, he, hs⟩ := hh.encoded
  cases he
  cases hs
  simp [genesisDataFor]

lemma sampleChains_record :
    ∀ lr ∈ [honestLineage, secondLineage] ++ [honestLineage, reorderedLineage],
    lr.record = honestLineage.record ∨ lr.record = secondLineage.record := by
  decide

lemma sample_separates :
    Separates .sample ([honestLineage, secondLineage] ++ [honestLineage, reorderedLineage]) where
  encoding := by
    intro a inA b inB bytes hh hh'
    have same := hh.sample_head.symm.trans hh'.sample_head
    revert same
    rcases sampleChains_record a inA with hf | hf <;>
      rcases sampleChains_record b inB with hs | hs <;>
      rw [hf, hs] <;> decide
  hash := by
    intro bytes hse bytes' hs' same
    obtain ⟨a, inA, hh⟩ := hse
    obtain ⟨b, inB, hh'⟩ := hs'
    rw [hh.sample_head, hh'.sample_head] at same ⊢
    revert same
    rcases sampleChains_record a inA with hf | hf <;>
      rcases sampleChains_record b inB with hs | hs <;>
      rw [hf, hs] <;> decide

theorem fingerprint_pins_reordered : secondLineage ≠ reorderedLineage ∧
    [honestLineage, secondLineage].map (·.record) = [honestLineage, reorderedLineage].map
    (·.record) := by
  have ha : verifyLineageChain .sample [honestLineage, secondLineage] fingerprintAnchor =
      .ok secondLineage := by decide +kernel
  have ha' : verifyLineageChain .sample [honestLineage, reorderedLineage] fingerprintAnchor =
      .ok reorderedLineage := by decide +kernel
  exact ⟨by decide, (fingerprint_pins_records .sample sample_separates rfl rfl rfl ha ha').1⟩

end HopNet
