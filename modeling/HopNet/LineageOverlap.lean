import HopNet.LineageBinding

namespace HopNet

open Fallible List QuorumProfile

variable {L : LineageCodec} {chainId : Blake3Hash} {cert : CommitCertificate}
  {valset : HopNetValidatorSet} {s : HopState} {lr : LineageRecord} {trusted : List Seat}

/-- At least `n` distinct members of the list have a valid precommit in the certificate. -/
def SignedBy (L : LineageCodec) (chainId : Blake3Hash) (cert : CommitCertificate)
    (seats : List Seat) (n : Nat) : Prop :=
  ∃ valset, valsetOf L seats = .ok valset ∧
    ∃ signed : List VoteEntry, (signed.map (·.address)).Nodup ∧
    n ≤ signed.length ∧ ∀ e ∈ signed, e ∈ cert.entries ∧
      e.Signed L.prims chainId valset cert.height cert.round

/-- The final block is certified by a quorum of the record's set, and by more of the trusted set
than its Byzantine bound. -/
def HopOverlap (L : LineageCodec) (s : HopState) (lr : LineageRecord) : Prop :=
  ∃ block wire cert own trusted profile, L.decodeBlock lr.finalBlock = .ok block ∧
    block.verify L.prims = .ok () ∧
    L.decodeCert lr.finalCert = .ok wire ∧ wire.toCertificate = .ok cert ∧
    cert.valueId = block.blockHash ∧ cert.height = block.data.height ∧
    parse lr.record.quorumProfile = some own ∧
    SignedBy L s.chainId cert lr.record.seated (own.quorum lr.record.seated.length) ∧
    s.trusted = some trusted ∧ parse s.profile = some profile ∧
    SignedBy L s.chainId cert trusted (profile.fEq trusted.length + 1)

/-- What the loop counts has signed, and no address is counted twice. -/
lemma countSigners_spec {css seen} (hc : css ⊆ cert.commitSignatures) (count : Nat)
    (hn : seen.Nodup) :
    ∃ signed : List VoteEntry, countSigners L.prims chainId cert valset css seen count =
      count + signed.length ∧ (signed.map (·.address) ++ seen).Nodup ∧
      ∀ e ∈ signed, e ∈ cert.entries ∧ e.Signed L.prims chainId valset cert.height cert.round := by
  induction css generalizing seen count with
  | nil => exact ⟨[], rfl, hn, by simp⟩
  | cons cs rest ih =>
    obtain ⟨hm, hc⟩ := cons_subset.1 hc
    unfold countSigners
    split_ifs with hs
    · exact ih hc count hn
    have skip := (append_sublist_append_left · |>.2 (sublist_cons_self cs.address seen))
    have hn := nodup_cons.2 ⟨hs, hn⟩
    cases hv : valset.getByAddress cs.address with
    | none =>
      obtain ⟨signed, he, hd, hall⟩ := ih hc count hn
      exact ⟨signed, he, hd.sublist (skip _), hall⟩
    | some validator =>
      dsimp only
      split_ifs with ok
      · obtain ⟨signed, he, hd, hall⟩ := ih hc (count + 1) hn
        refine ⟨⟨cs.address, .precommit, .val cert.valueId, cs.signature⟩ :: signed, ?_,
          nodup_middle.1 hd, ?_⟩
        · rw [he, length_cons, Nat.add_right_comm, Nat.add_assoc]
        · exact forall_mem_cons.2 ⟨⟨mem_map_of_mem hm, validator, hv, ok⟩, hall⟩
      · obtain ⟨signed, he, hd, hall⟩ := ih hc count hn
        exact ⟨signed, he, hd.sublist (skip _), hall⟩

lemma valsetOf_ok {seats} (hv : valsetOf L seats = .ok valset) :
    valset.Uniform ∧ valset.count = seats.length := by
  simp only [valsetOf, bind_eq_ok] at hv
  obtain ⟨vs, hs, hv⟩ := hv
  obtain ⟨hl, hp⟩ := (seatedValidators_spec L seats).2 vs hs
  cases hn : HopNetValidatorSet.new vs with
  | none => simp [hn] at hv
  | some set =>
    simp only [hn, pure_eq_ok] at hv
    subst hv
    have hval := HopNetValidatorSet.validators_eq_of_new hn
    refine ⟨fun v hm => hp v ?_, ?_⟩
    · rwa [hval, mem_insertionSort] at hm
    · rw [HopNetValidatorSet.count, hval, length_insertionSort, hl]

lemma verifyHop_overlap {s'} (ht : s.trusted = some trusted) (hv : verifyHop L s lr = .ok s') :
    HopOverlap L s lr := by
  unfold verifyHop at hv
  simp only [bind_eq_ok, exists_require, mapError_eq_ok] at hv
  obtain ⟨_, hlinked, block, hb, wire, hw, hv⟩ := hv
  split at hv
  · cases hv
  rename_i own hp
  simp only [bind_eq_ok, mapError_eq_ok, checkOverlap, ht, verifyLineage, verifyWireCertificate,
    exists_require] at hv
  obtain ⟨valset, hvs, _, ⟨_, hver, _, _, ⟨hval, hhei⟩, _, _, cert, hcert, hquorum⟩, _, ho, _⟩ := hv
  obtain ⟨hu, hcount⟩ := valsetOf_ok hvs
  obtain ⟨hn, hq, hs⟩ := verifyCommitCertificate_ok hu hquorum
  split at ho
  · cases ho
  rename_i profile hap
  simp only [bind_eq_ok, require_eq_ok, countTrustedSigners, hcert] at ho
  obtain ⟨tvs, htv, hlt⟩ := ho
  obtain ⟨signed, he, hd, hall⟩ :=
    countSigners_spec (L := L) (Subset.refl cert.commitSignatures) 0 nodup_nil
  rw [he, Nat.zero_add] at hlt
  rw [append_nil] at hd
  have hsame : cert.valueId = wire.valueId ∧ cert.height = wire.height := by
    simp only [WireCommitCertificate.toCertificate, bind_eq_ok, pure_eq_ok] at hcert
    obtain ⟨round, _, rfl⟩ := hcert
    exact ⟨rfl, rfl⟩
  rw [hlinked] at hs hall
  exact ⟨block, wire, cert, own, trusted, profile, hb, hver, hw, hcert, hsame.1.trans hval,
    hsame.2.trans hhei, hp,
    ⟨valset, hvs, cert.entries, hn, hcount ▸ hq, fun e hm => ⟨hm, hs e hm⟩⟩, ht, hap, tvs, htv,
    signed, hd, hlt, hall⟩

/-- The hop is taken, at the next epoch and on the chain of the record before, its final block so
certified. -/
def HopContinues (L : LineageCodec) (s : HopState) (lr : LineageRecord) : Prop :=
  (∃ s', verifyHop L s lr = .ok s' ∧ HopAccepted L s lr s') ∧ HopOverlap L s lr

lemma everyHop_continues {records t} (hs : s.trusted = some trusted)
    (hf : records.foldlM (verifyHop L) s = .ok t) : EveryHop L (HopContinues L) records s := by
  induction records generalizing s trusted with
  | nil => trivial
  | cons lr rest ih =>
    simp only [foldlM_cons, bind_eq_ok] at hf
    obtain ⟨s', hop, hf⟩ := hf
    refine ⟨⟨⟨s', hop, verifyHop_accepted hop⟩, verifyHop_overlap hs hop⟩, fun s'' hop' => ?_⟩
    obtain rfl : s' = s'' := Except.ok.inj (hop.symm.trans hop')
    obtain ⟨_, _, rfl⟩ := (verifyHop_accepted hop).next
    exact ih rfl hf

/-- From a trusted set, every hop of an accepted chain continues the one before it, and its final
block is signed by a quorum of its own set and by enough of the set before it. -/
theorem lineage_overlaps (L : LineageCodec) {records : List LineageRecord} {anchor : ChainAnchor}
    {trusted : List Seat} {last : LineageRecord} (ht : anchor.trust = .seated trusted)
    (ha : verifyLineageChain L records anchor = .ok last) :
    EveryHop L (HopContinues L) records anchor.start := by
  unfold verifyLineageChain at ha
  cases hl : records.getLast? with
  | none => simp [hl] at ha
  | some lr =>
    simp only [hl, bind_eq_ok] at ha
    obtain ⟨t, hf, _⟩ := ha
    exact everyHop_continues (by rw [ChainAnchor.start, ht]) hf

theorem honestLineage_overlaps :
    EveryHop .sample (HopContinues .sample) [honestLineage, secondLineage] sampleAnchor.start := by
  have ha : verifyLineageChain .sample [honestLineage, secondLineage] sampleAnchor =
      .ok secondLineage := by decide
  exact lineage_overlaps .sample rfl ha

end HopNet
