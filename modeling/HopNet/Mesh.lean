import Mathlib.Data.Finset.Card
import HopNet.Eviction

/-!
The mesh: the committed tables and every node's fragment files, the actions of the system on them,
and what a committed entry can do to a blob. -/

namespace HopNet

open Runs List Except DataBlockRow

/-- The committed state and the disks, empty for a node without an entry. -/
structure Mesh where
  storage : StorageState
  disks : List (Int × Fragstore)

namespace Mesh

variable (m : Mesh) (node : Int)

def disk : Fragstore :=
  ((m.disks.find? (·.1 = node)).map (·.2)).getD ⟨[]⟩

def setDisk (dir : Fragstore) : Mesh :=
  { m with disks := (node, dir) :: m.disks.filter fun entry => entry.1 ≠ node }

lemma disk_setDisk (other : Int) (dir : Fragstore) :
    (m.setDisk node dir).disk other = if other = node then dir else m.disk other := by
  by_cases hs : other = node
  · simp [disk, setDisk, hs]
  · have ha : ¬ node = other := fun hb => hs hb.symm
    simp only [disk, setDisk, find?_cons, ha, hs, decide_false, if_false, find?_filter]
    congr 3
    funext entry
    by_cases hn : entry.1 = other
    · simp [hn, hs]
    · simp [hn]

/-- The members of the current view, which is the latest on record. -/
def members (m : Mesh) : List Int :=
  ((latestTransition m.storage.tables.transitions).map (·.snapshot.members)).getD []

/-- What an evictor on `node` looks at; `past` says which files are past the grace. -/
def scope (pinned : List BlobId) (past : Blake3Hash → Bool) : EvictionScope where
  myNodeId := node
  members := m.members
  pinned := pinned
  disk := ((m.disk node).files.filter fun file => past file.1).map fun file =>
    (file.1, file.2.length)

end Mesh

/-- A report says what the node's disk shows; no other transaction takes part. -/
def StorageEvent.Honest (m : Mesh) : StorageEvent → Prop
  | .transition _ | .declare _ | .confirm _ => True
  | .attest report => (∀ hash ∈ report.present, (m.disk report.nodeId).Holds hash) ∧
      ∀ hash ∈ report.suspect, ¬ (m.disk report.nodeId).Holds hash
  | .selfCheck report => (∀ hash ∈ report.fragmentsAdded, (m.disk report.nodeId).Holds hash) ∧
      ∀ hash ∈ report.fragmentsRemoved, ¬ (m.disk report.nodeId).Holds hash
  | .insert _ _ | .commitPlacement _ _ | .delete _ => False

inductive MeshEvent where
  | committed (height : Nat) (event : StorageEvent)
  | pull (node source : Int) (hash : Blake3Hash)
  | evict (node : Int) (pinned : List BlobId) (past refuses : Blake3Hash → Bool)
      (pressure : DiskPressure)
  | release (node : Int) (pinned : List BlobId) (past refuses : Blake3Hash → Bool) (max : Nat)

/-- One action of the mesh, at the height of a block and on the files as they are. -/
inductive Mesh.Step (P : Primitives) (m : Mesh) : MeshEvent → Mesh → Prop
  | committed {height event s'}
      (taken : StorageStep P m.storage (height, event) s') (honest : event.Honest m) :
      Mesh.Step P m (.committed height event) { m with storage := s' }
  | pull {node source hash data} (served : (m.disk source).readFragment hash = some data) :
      Mesh.Step P m (.pull node source hash)
      (m.setDisk node ((m.disk node).storeFragment hash data))
  | evict {node pinned} {past refuses : Blake3Hash → Bool} {pressure} :
      Mesh.Step P m (.evict node pinned past refuses pressure)
        (m.setDisk node ((m.disk node).deleteFragments refuses
          (watermarkPlan P m.storage.tables (m.scope node pinned past) pressure)))
  | release {node pinned} {past refuses : Blake3Hash → Bool} {max} :
      Mesh.Step P m (.release node pinned past refuses max)
        (m.setDisk node ((m.disk node).deleteFragments refuses
          (surplusPlan P m.storage.last m.storage.tables (m.scope node pinned past) max)))

/-- Where a confirmation of `b` takes effect it is above its goal, and the responsible nodes have
the files. -/
def TrueEvidence (P : Primitives) (m : Mesh) (b : BlobId) (height : Nat)
    (c : PlacementConfirmation) : Prop :=
  c.blobId = b → confirmReason P m.storage.tables height c = none →
    c.height < height ∧ ∀ view ∈ snapshotAt m.storage.tables c.height,
      ∀ fragment ∈ m.storage.tables.fragmentsOf b,
        ∀ node ∈ (view.assignment P b)[fragment.localIndex]?,
        (m.disk node).Holds fragment.fragmentHash

/-- Heights are below 2^63, and confirmations rest on files. -/
def MeshEvent.Sound (P : Primitives) (m : Mesh) (b : BlobId) : MeshEvent → Prop
  | .committed height (.confirm c) => height < 2 ^ 63 ∧ TrueEvidence P m b height c
  | .committed height _ => height < 2 ^ 63
  | .pull _ _ _ | .evict _ _ _ _ _ | .release _ _ _ _ _ => True

/-- Another row with one of the blob's hashes has its class too. -/
def OwnHashes (t : StorageTables) (b : BlobId) : Prop :=
  ∀ row ∈ t.fragmentHashes, ∀ other ∈ t.fragmentHashes, row.fragment.blobId = b →
    other.fragment.fragmentHash = row.fragment.fragmentHash →
      other.fragment.blobId = b ∧ other.fragment.localIndex = row.fragment.localIndex

/-- Ten classes of a chunk are on disks. -/
def Recoverable (m : Mesh) (b : BlobId) (chunk : Nat) : Prop :=
  ∃ classes : Finset Nat, originalFragmentsPerChunk ≤ classes.card ∧ ∀ i ∈ classes,
    ∃ fragment ∈ m.storage.tables.fragmentsOf b, fragment.chunkNumber = chunk ∧
      fragment.localIndex = i ∧ ∃ node, (m.disk node).Holds fragment.fragmentHash

def classesOf (t : StorageTables) (b : BlobId) (chunk : Nat) : Finset Nat :=
  (((t.fragmentsOf b).filter (·.chunkNumber = chunk)).map (·.localIndex)).toFinset

variable {m : Mesh} {height : Nat} {event : StorageEvent}

lemma snapshotAt_recordTransition {t} {c : Nat} (hb : c < height) (low : height < 2 ^ 63)
    (snapshot : ViewSnapshot) :
    snapshotAt (recordTransition height snapshot t) c = snapshotAt t c := by
  have hl : heightToDb c < heightToDb height := by
    rw [heightToDb_of_lt low, heightToDb_of_lt (by omega)]
    omega
  have hi : (t.transitions.filter (fun row : TransitionRow => row.height ≠ heightToDb height) ++
      [(⟨heightToDb height, snapshot⟩ : TransitionRow)]).filter (fun row => row.height ≤
        heightToDb c) = t.transitions.filter fun row => row.height ≤ heightToDb c := by
    rw [filter_append, filter_filter]
    have hn : ¬ heightToDb height ≤ heightToDb c := by omega
    simp only [filter_cons, hn, decide_false, filter_nil, append_nil, Bool.false_eq_true, if_false]
    refine filter_congr fun row _ => ?_
    by_cases hbe : row.height ≤ heightToDb c
    · have ha : row.height ≠ heightToDb height := by omega
      simp [hbe, ha]
    · simp [hbe]
  unfold snapshotAt transitionAt recordTransition
  cases latestTransition t.transitions with
  | none => simp only [hi]
  | some latest =>
    dsimp only
    split_ifs
    · rfl
    · simp only [hi]

/-- The placement of the blob stands, or a confirmation of it moved it. -/
lemma StorageEvent.Honest.block {P b t} (hh : event.Honest m) {row}
    (ha : event.apply P height m.storage.tables = .ok t)
    (hf : m.storage.tables.block b = some row) :
    ∃ row', t.block b = some row' ∧ (row'.placementHeight = row.placementHeight ∨
      ∃ c view, event = .confirm c ∧ c.blobId = b ∧
        Confirmed P m.storage.tables height c row view ∧
        row'.placementHeight = some (heightToDb c.height)) := by
  cases event with
  | insert probe op | commitPlacement blobId placed | delete blobIds => exact hh.elim
  | transition snapshot =>
    refine ⟨row, ?_, .inl rfl⟩
    rwa [← ok.inj ha, StorageTables.block, recordTransition_dataBlocks]
  | attest report | selfCheck report =>
    exact ⟨row, by rw [← ok.inj ha]; exact hf, .inl rfl⟩
  | declare target =>
    rw [← ok.inj ha]
    rcases declareOne_cases m.storage.tables height target with hs | ⟨_, _, hw⟩
    · exact ⟨row, by rw [hs]; exact hf, .inl rfl⟩
    · rw [hw, block_updateBlock_of_some (retarget_id target) hf]
      refine ⟨_, rfl, .inl ?_⟩
      unfold retarget
      split_ifs <;> rfl
  | confirm c =>
    rw [← ok.inj ha]
    rcases confirmOne_cases P m.storage.tables height c with
      hs | ⟨old, view, hc, hw⟩
    · exact ⟨row, by rw [hs]; exact hf, .inl rfl⟩
    · rw [hw, block_updateBlock_of_some (settle_id c) hf]
      refine ⟨_, rfl, ?_⟩
      unfold settle
      split_ifs with here goal
      · have hg : c.blobId = b := here.symm.trans (block_id hf)
        have same := block_eq_of_id hf here hc.found
        exact .inr ⟨c, view, rfl, hg, same ▸ hc, rfl⟩
      · exact .inl rfl
      · exact .inl rfl

/-- No committed entry touches the manifest or what an earlier height means. -/
lemma StorageEvent.Honest.frame {P t} (hh : event.Honest m)
    (ha : event.apply P height m.storage.tables = .ok t) :
    t.fragmentHashes = m.storage.tables.fragmentHashes ∧
      (height < 2 ^ 63 → ∀ c < height, snapshotAt t c = snapshotAt m.storage.tables c) := by
  cases event with
  | insert probe op | commitPlacement blobId placed | delete blobIds => exact hh.elim
  | attest report | selfCheck report =>
    rw [← ok.inj ha]
    exact ⟨rfl, fun _ _ _ => rfl⟩
  | transition snapshot =>
    rw [← ok.inj ha]
    refine ⟨?_, fun low c hb => snapshotAt_recordTransition hb low snapshot⟩
    rw [recordTransition]
    cases latestTransition m.storage.tables.transitions with
    | none => rfl
    | some latest =>
      dsimp only
      split_ifs <;> rfl
  | declare target =>
    rw [← ok.inj ha]
    obtain ⟨rows, hs⟩ := declareOne_frame m.storage.tables height target
    rw [hs]
    exact ⟨rfl, fun _ _ _ => rfl⟩
  | confirm c =>
    rw [← ok.inj ha]
    obtain ⟨rows, hs⟩ := confirmOne_frame P m.storage.tables height c
    rw [hs]
    exact ⟨rfl, fun _ _ _ => rfl⟩

end HopNet
