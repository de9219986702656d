import HopNet.Mesh

/-! A confirmation lets the old holders' copies go on the word of inventory rows, and a row outlives
the file it was written for. -/

namespace HopNet

open Fallible Runs Option StorageTables Mesh

variable {P : Primitives} {t : StorageTables} {b : BlobId} {origin : Int} {fragment : FragmentMeta}
  {row row' : DataBlockRow}

section

variable {node : Int} {height last : Nat}

/-- Who must keep a fragment: the origin until the first confirmation, then the node that the
confirmed view makes responsible. -/
inductive Keeper (P : Primitives) (t : StorageTables) (last : Nat) (origin : Int) (b : BlobId)
    (fragment : FragmentMeta) : Int → Prop
  | born {row : DataBlockRow} (found : t.block b = some row)
      (unconfirmed : row.placementHeight = none) : Keeper P t last origin b fragment origin
  | responsible {row : DataBlockRow} {c : Nat} {view node}
      (found : t.block b = some row) (confirmed : row.placementHeight = some (heightToDb c))
      (settled : c < last) (small : c < 2 ^ 63) (onRecord : snapshotAt t c = some view)
      (assigned : (view.assignment P b)[fragment.localIndex]? = some node) :
      Keeper P t last origin b fragment node

lemma Keeper.protects (hk : Keeper P t last origin b fragment node) (pinned : Bool) :
    (protectionOf P t b).protects fragment.localIndex node pinned = true := by
  cases hk with
  | born hf hu => exact protectionOf_unconfirmed hf hu _ _ pinned
  | @responsible row c view node hf hc hs hsm ho ha =>
    refine protectionOf_confirmed hf hc ?_ ha pinned
    rwa [heightFromDb_toDb (by omega)]

lemma Keeper.step {t'} (hk : Keeper P t last origin b fragment node)
    (hf : t.block b = some row) (hf' : t'.block b = some row')
    (hst : row'.placementHeight = row.placementHeight) (hr : last ≤ height)
    (hs : ∀ c < height, snapshotAt t' c = snapshotAt t c) :
    Keeper P t' height origin b fragment node := by
  cases hk with
  | born hw hu =>
    rw [some.inj (hw.symm.trans hf)] at hu
    exact .born hf' (hst.trans hu)
  | @responsible _ c view node hw hc hse hsm ho ha =>
    rw [some.inj (hw.symm.trans hf)] at hc
    exact .responsible hf' (hst.trans hc) (by omega) hsm ((hs c (by omega)).trans ho) ha

end

variable {label : MeshEvent}

section

variable {m m' : Mesh} {op : BlobInsertOp} {chunk : Nat}

/-- Every fragment of the blob is on the disk of a node that must keep it. -/
structure Safe (P : Primitives) (origin : Int) (b : BlobId) (m : Mesh) : Prop where
  own : OwnHashes m.storage.tables b
  kept : ∀ fragment ∈ m.storage.tables.fragmentsOf b, ∃ node,
    Keeper P m.storage.tables m.storage.last origin b fragment node ∧
      (m.disk node).Holds fragment.fragmentHash

lemma mem_fragmentsOf : fragment ∈ t.fragmentsOf b ↔
    ∃ row ∈ t.fragmentHashes, row.fragment.blobId = b ∧ row.fragment = fragment := by
  simp [fragmentsOf, and_assoc]

lemma keeper_spared (own : OwnHashes t b) {scope : EvictionScope} {floor : Option Nat} {c last node}
    (hg : c ∈ gatherEvictionCandidates P t scope floor) (hu : c.isProtected = false)
    (hb : fragment ∈ t.fragmentsOf b) (hn : c.fragmentHash = fragment.fragmentHash)
    (hk : Keeper P t last origin b fragment node) : node ≠ scope.myNodeId := by
  intro hh
  obtain ⟨found, pinned, hl, he⟩ := gather_unprotected hg hu
  obtain ⟨hash, row, hli, hr⟩ := lookupDiskFragment_mem hl
  obtain ⟨row', hl', hbl, hr'⟩ := mem_fragmentsOf.1 hb
  have hs := own row' hl' row hli hbl (by rw [hr, hr', hash, hn])
  rw [hr, hr'] at hs
  rw [hs.1, hs.2, ← hh, hk.protects pinned] at he
  cases he

lemma Safe.deletes (safe : Safe P origin b m) {node : Int} {hashes : List Blake3Hash}
    {refuses : Blake3Hash → Bool}
    (hs : ∀ fragment ∈ m.storage.tables.fragmentsOf b, ∀ keeper,
      Keeper P m.storage.tables m.storage.last origin b fragment keeper →
        fragment.fragmentHash ∈ hashes → keeper ≠ node) :
    Safe P origin b (m.setDisk node ((m.disk node).deleteFragments refuses hashes)) where
  own := safe.own
  kept fragment inBlob := by
    obtain ⟨keeper, hm, hh⟩ := safe.kept fragment inBlob
    refine ⟨keeper, hm, ?_⟩
    rw [disk_setDisk]
    split_ifs with here
    · rw [Fragstore.holds_deleteFragments, ← here]
      exact ⟨hh, fun hd => hs fragment inBlob keeper hm hd.1 here⟩
    · exact hh

lemma Safe.pulls (hs : Safe P origin b m) (node : Int) (hash : Blake3Hash) (data : Bytes) :
    Safe P origin b (m.setDisk node ((m.disk node).storeFragment hash data)) where
  own := hs.own
  kept fragment inBlob := by
    obtain ⟨keeper, hm, hh⟩ := hs.kept fragment inBlob
    refine ⟨keeper, hm, ?_⟩
    rw [disk_setDisk]
    split_ifs with here
    · rw [Fragstore.Holds]
      by_cases same : fragment.fragmentHash = hash
      · simp [same]
      · rw [Fragstore.readFragment_store_of_ne same, ← here]
        exact hh
    · exact hh

/-- A confirmation on true evidence hands the fragments to the new view's nodes. -/
lemma Confirmed.keeper {height : Nat} {c : PlacementConfirmation} {view t'}
    (hc : Confirmed P t height c row view) (hf' : t'.block c.blobId = some row')
    (hp : row'.placementHeight = some (heightToDb c.height)) (hab : c.height < height)
    (low : height < 2 ^ 63) (hs : snapshotAt t' c.height = snapshotAt t c.height)
    (hb : fragment ∈ t.fragmentsOf c.blobId) :
    ∃ node ∈ (view.assignment P c.blobId)[fragment.localIndex]?,
      Keeper P t' height origin c.blobId fragment node := by
  obtain ⟨node, ha, _⟩ := hc.evidence.2 fragment hb
  exact ⟨node, ha, .responsible hf' hp hab (by omega) (hs.trans hc.onRecord) ha⟩

lemma Safe.commits (safe : Safe P origin b m) {height : Nat} {event : StorageEvent}
    {s'} (ht : StorageStep P m.storage (height, event) s')
    (hh : event.Honest m) (hso : (MeshEvent.committed height event).Sound P m b) :
    Safe P origin b { m with storage := s' } := by
  have ha := ht.applied
  have low : height < 2 ^ 63 := by
    cases event <;> first | exact hso | exact hso.1
  obtain ⟨hm, hv⟩ := hh.frame ha
  have hs : s'.tables.fragmentsOf b = m.storage.tables.fragmentsOf b := by
    rw [fragmentsOf, hm]
    rfl
  replace hv := hv low
  refine ⟨by rw [OwnHashes, hm]; exact safe.own, ?_⟩
  intro fragment hb
  rw [hs] at hb
  obtain ⟨keeper, must, held⟩ := safe.kept fragment hb
  have hp : ∃ row, m.storage.tables.block b = some row := by
    cases must with
    | born hf | responsible hf => exact ⟨_, hf⟩
  obtain ⟨row, hf⟩ := hp
  obtain ⟨row', hf', hmo⟩ := hh.block ha hf
  have hl : s'.last = height := ht.last
  rw [hl]
  cases hmo with
  | inl hst => exact ⟨keeper, must.step hf hf' hst ht.rises hv, held⟩
  | inr hse =>
    obtain ⟨c, view, rfl, rfl, hc, hpl⟩ := hse
    obtain ⟨hab, hfi⟩ := hso.2 rfl (confirmReason_eq_none.2 ⟨row, view, hc⟩)
    obtain ⟨node, has, hm'⟩ :=
      hc.keeper hf' hpl hab low (hv c.height hab) hb
    exact ⟨node, hm', hfi view hc.onRecord fragment hb node has⟩

lemma Safe.step (safe : Safe P origin b m) (hso : label.Sound P m b)
    (ht : Mesh.Step P m label m') : Safe P origin b m' := by
  cases ht with
  | committed ht hh => exact safe.commits ht hh hso
  | pull hs => exact safe.pulls _ _ _
  | evict =>
    refine safe.deletes fun fragment hb keeper hm hp => ?_
    obtain ⟨c, hg, hn, hu⟩ := planEvictions_guarded hp
    exact keeper_spared safe.own hg hu hb hn hm
  | release =>
    refine safe.deletes fun fragment hb keeper hm hp => ?_
    obtain ⟨c, hg, hn, hu⟩ := planSurplusRelease_guarded hp
    exact keeper_spared safe.own hg hu hb hn hm

/-- Right after the insert: every fragment on the origin's disk, ten classes or more in every
chunk. -/
structure JustInserted (origin : Int) (op : BlobInsertOp) (m : Mesh) : Prop where
  inserted : ∃ probe t, applyBlobInsert probe m.storage.last op t = .ok m.storage.tables
  held : ∀ fragment ∈ m.storage.tables.fragmentsOf op.blobId,
    (m.disk origin).Holds fragment.fragmentHash
  classes : ∀ fragment ∈ m.storage.tables.fragmentsOf op.blobId,
    originalFragmentsPerChunk ≤ (classesOf m.storage.tables op.blobId fragment.chunkNumber).card

lemma JustInserted.safe (hs : JustInserted origin op m)
    (own : OwnHashes m.storage.tables op.blobId) : Safe P origin op.blobId m where
  own := own
  kept fragment inBlob := by
    obtain ⟨probe, t, hap⟩ := hs.inserted
    have hi := applyBlobInsert_ok hap
    obtain ⟨row, hn, hu, _, hr⟩ := hi.blocks
    have hf : m.storage.tables.block op.blobId = some row := by
      have ha := hi.fresh
      unfold block at ha ⊢
      rw [hr, List.find?_append, ha]
      simp [hn]
    exact ⟨origin, .born hf hu, hs.held fragment inBlob⟩

structure SoundStep (P : Primitives) (b : BlobId) (m : Mesh) (label : MeshEvent) (m' : Mesh) :
    Prop where
  taken : Mesh.Step P m label m'
  sound : label.Sound P m b

lemma Mesh.Step.fragmentsOf (ht : Mesh.Step P m label m') (b : BlobId) :
    m'.storage.tables.fragmentsOf b = m.storage.tables.fragmentsOf b := by
  cases ht with
  | committed ht hh =>
    simp only [fragmentsOf, (hh.frame ht.applied).1]
  | pull hs => rfl
  | evict => rfl
  | release => rfl

lemma mem_classesOf {i : Nat} : i ∈ classesOf t b chunk ↔
    ∃ fragment ∈ t.fragmentsOf b, fragment.chunkNumber = chunk ∧ fragment.localIndex = i := by
  simp [classesOf, and_assoc]

lemma Safe.recoverable (hs : Safe P origin b m)
    (he : originalFragmentsPerChunk ≤ (classesOf m.storage.tables b chunk).card) :
    Recoverable m b chunk := by
  refine ⟨_, he, ?_⟩
  intro i hch
  obtain ⟨fragment, hb, hc, hcl⟩ := mem_classesOf.1 hch
  obtain ⟨node, _, hh⟩ := hs.kept fragment hb
  exact ⟨fragment, hb, hc, hcl, node, hh⟩

/-- From the insert of a blob on, in every run whose confirmations rest on files, every chunk of
the blob keeps ten classes on disks. -/
theorem blob_survives (P : Primitives) {origin : Int} {op : BlobInsertOp} {m₀ m : Mesh}
    {past : List MeshEvent} (start : JustInserted origin op m₀)
    (own : OwnHashes m₀.storage.tables op.blobId)
    (run : Reaches (SoundStep P op.blobId) m₀ past m) :
    ∀ fragment ∈ m₀.storage.tables.fragmentsOf op.blobId,
      Recoverable m op.blobId fragment.chunkNumber := by
  have inv : Safe P origin op.blobId m ∧ m.storage.tables.fragmentsOf op.blobId =
      m₀.storage.tables.fragmentsOf op.blobId := by
    refine run.invariant_state (fun m => Safe P origin op.blobId m ∧
      m.storage.tables.fragmentsOf op.blobId = m₀.storage.tables.fragmentsOf op.blobId)
      ⟨start.safe own, rfl⟩ ?_
    intro s label s' hb hs
    exact ⟨hb.1.step hs.sound hs.taken, (hs.taken.fragmentsOf op.blobId).trans hb.2⟩
  intro fragment hbl
  apply inv.1.recoverable
  rw [classesOf, inv.2]
  exact start.classes fragment hbl

end

variable (P : Primitives)

instance (m : Mesh) (event : StorageEvent) : Decidable (event.Honest m) := by
  cases event <;> unfold StorageEvent.Honest <;> infer_instance

instance (t : StorageTables) (b : BlobId) : Decidable (OwnHashes t b) :=
  inferInstanceAs (Decidable (∀ row ∈ _, ∀ other ∈ _, _ → _ → _))

instance (m : Mesh) (b : BlobId) (label : MeshEvent) : Decidable (label.Sound P m b) := by
  unfold MeshEvent.Sound TrueEvidence
  split <;> infer_instance

/-- The steps as a function, for running samples. -/
def Mesh.after (m : Mesh) : MeshEvent → Option Mesh
  | .committed height event =>
    if event.Honest m then (m.storage.after P (height, event)).map fun s' =>
    { m with storage := s' } else none
  | .pull node source hash =>
    ((m.disk source).readFragment hash).map fun data =>
      m.setDisk node ((m.disk node).storeFragment hash data)
  | .evict node pinned past refuses pressure =>
    some (m.setDisk node ((m.disk node).deleteFragments refuses
      (watermarkPlan P m.storage.tables (m.scope node pinned past) pressure)))
  | .release node pinned past refuses max =>
    some (m.setDisk node ((m.disk node).deleteFragments refuses
      (surplusPlan P m.storage.last m.storage.tables (m.scope node pinned past) max)))

variable {P}

lemma Mesh.Step.of_after {m m'} (ran : m.after P label = some m') : Mesh.Step P m label m' := by
  cases label with
  | committed height event =>
    simp only [after] at ran
    split_ifs at ran with hh
    obtain ⟨s', ha, rfl⟩ := map_eq_some_iff.1 ran
    exact .committed (.of_after ha) hh
  | pull node source hash =>
    obtain ⟨data, hs, rfl⟩ := map_eq_some_iff.1 ran
    exact .pull hs
  | evict node pinned past refuses pressure =>
    cases ran
    exact .evict
  | release node pinned past refuses max =>
    cases ran
    exact .release

/-- Node 1 has just stored the blob. -/
def bornMesh : Mesh where
  storage :=
    ⟨((applyBlobInsert (fun _ => true) 1 sampleInsert .empty).toOption).get (by decide +kernel), 1⟩
  disks := [(1, ⟨sampleHashes.map fun hash => (hash, [])⟩)]

def releaseAll (node : Int) : MeshEvent :=
  .release node [] (fun _ => true) (fun _ => false) 10000

/-- Node 1 confirms, node 2 takes over and pulls, and node 1 lets its copies go. -/
def handoverRun : List MeshEvent :=
  [.committed 1 (.transition (soloView 1)), .committed 2 (.selfCheck ⟨1, 1, sampleHashes, []⟩),
    .committed 2 (.attest ⟨1, 2, sampleHashes, []⟩), .committed 3 (.confirm ⟨sampleBlob, 1⟩),
    .committed 3 (.transition (soloView 2)), .committed 4 (.declare ⟨sampleBlob, 1, 3⟩)] ++
  sampleHashes.map (.pull 2 1) ++
  [.committed 5 (.selfCheck ⟨2, 4, sampleHashes, []⟩),
    .committed 5 (.attest ⟨2, 5, sampleHashes, []⟩), .committed 6 (.confirm ⟨sampleBlob, 3⟩),
    releaseAll 1]

/-- Node 1 is back before its rows are down: its old attestations confirm, and node 2 lets its
copies go. -/
def returnRun : List MeshEvent :=
  [.committed 7 (.transition (soloView 1)), .committed 8 (.declare ⟨sampleBlob, 3, 7⟩),
    .committed 9 (.confirm ⟨sampleBlob, 7⟩), releaseAll 2]

def emptiedMesh : Mesh :=
  ((handoverRun ++ returnRun).foldlM (after .sample) bornMesh).get (by decide +kernel)

lemma bornMesh_justInserted : JustInserted 1 sampleInsert bornMesh where
  inserted := ⟨fun _ => true, .empty, ok_get_toOption (by decide +kernel)⟩
  held := by decide +kernel
  classes := by decide +kernel

def Mesh.soundAfter (P : Primitives) (b : BlobId) (m : Mesh) (label : MeshEvent) : Option Mesh :=
  if label.Sound P m b then m.after P label else none

lemma SoundStep.of_after {b m m'}
    (ran : m.soundAfter P b label = some m') : SoundStep P b m label m' := by
  unfold soundAfter at ran
  split_ifs at ran with hs
  exact ⟨.of_after ran, hs⟩

lemma bornMesh_ownHashes : OwnHashes bornMesh.storage.tables sampleBlob := by decide +kernel

def handoverMesh : Mesh :=
  (handoverRun.foldlM (soundAfter .sample sampleBlob) bornMesh).get (by decide +kernel)

/-- One handover is safe: node 1 has nothing left, and the blob is there. -/
theorem handover_keeps_blob :
    (handoverMesh.disk 1).files = [] ∧ Recoverable handoverMesh sampleBlob 0 := by
  refine ⟨by decide +kernel, ?_⟩
  have run : Reaches (SoundStep .sample sampleBlob) bornMesh handoverRun handoverMesh :=
    .of_foldlM SoundStep.of_after (some_get _).symm
  exact blob_survives .sample bornMesh_justInserted bornMesh_ownHashes run (sampleFragment 0)
    (by decide +kernel)

/-- Two handovers, no fault, and every copy of the blob is gone. -/
theorem handover_back_loses_blob :
    JustInserted 1 sampleInsert bornMesh ∧ OwnHashes bornMesh.storage.tables sampleBlob ∧
    Reaches (Mesh.Step .sample) bornMesh (handoverRun ++ returnRun) emptiedMesh ∧
    (∀ node hash, ¬ (emptiedMesh.disk node).Holds hash) ∧
      ¬ Recoverable emptiedMesh sampleBlob 0 := by
  have hg : ∀ node hash, ¬ (emptiedMesh.disk node).Holds hash := by
    have hd : emptiedMesh.disks = [(2, ⟨[]⟩), (1, ⟨[]⟩)] := by decide +kernel
    intro node hash
    have hem : emptiedMesh.disk node = ⟨[]⟩ := by
      rw [disk, hd]
      by_cases two : (2 : Int) = node
      · simp [two]
      · by_cases one : (1 : Int) = node <;> simp [two, one]
    rw [hem]
    exact Bool.false_ne_true
  refine ⟨bornMesh_justInserted, bornMesh_ownHashes,
    .of_foldlM Mesh.Step.of_after (some_get _).symm, hg, ?_⟩
  intro hr
  obtain ⟨classes, he, held⟩ := hr
  obtain ⟨i, hc⟩ := Finset.card_pos.1 (Nat.lt_of_lt_of_le (by decide) he)
  obtain ⟨fragment, _, _, _, node, hh⟩ := held i hc
  exact hg node _ hh

end HopNet
