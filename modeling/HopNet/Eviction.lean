import HopNet.Fragstore
import HopNet.ProtectionCover

/-!
The evictor of one node: the facts it gathers about its files from the committed tables, the two
planners over them, and the deletion. -/

namespace HopNet

open List Option Protection

structure EvictionCandidate where
  fragmentHash : Blake3Hash
  blobId : BlobId
  sizeBytes : Nat
  /-- The verdict of the protection predicate, with pins. -/
  isProtected : Bool
  /-- Members other than this node that attest a copy. -/
  otherMemberHolders : Nat

structure DiskPressure where
  usedBytes : Nat
  totalBytes : Nat
  highPct : Nat
  lowPct : Nat

section

variable (candidates : List EvictionCandidate)

/-- The guard, oldest blob first. The id's text orders as its number. -/
def evictableSurplus : List EvictionCandidate :=
  (candidates.filter fun c => ¬ c.isProtected ∧ 1 ≤ c.otherMemberHolders).insertionSort
    fun a b => a.blobId.value ≤ b.blobId.value

def planSurplusRelease (max : Nat) : List Blake3Hash :=
  ((evictableSurplus candidates).take max).map (·.fragmentHash)

/-- Takes candidates while less than the target is freed. -/
def planUntil (targetFree : Nat) : Nat → List EvictionCandidate → List Blake3Hash
  | _, [] => []
  | freed, c :: rest =>
    if targetFree ≤ freed then []
    else c.fragmentHash :: planUntil targetFree (freed + c.sizeBytes) rest

def planEvictions (pressure : DiskPressure) : List Blake3Hash :=
  if pressure.totalBytes = 0 then []
  else if pressure.usedBytes ≤ pressure.totalBytes / 100 * pressure.highPct then []
  else
    let lowBytes := pressure.totalBytes / 100 * pressure.lowPct
    planUntil (pressure.usedBytes - lowBytes) 0 (evictableSurplus candidates)

variable {candidates : List EvictionCandidate} {hash : Blake3Hash}

lemma mem_evictableSurplus {c} :
    c ∈ evictableSurplus candidates ↔ c ∈ candidates ∧ c.isProtected = false ∧
    1 ≤ c.otherMemberHolders := by
  simp [evictableSurplus]

lemma mem_of_mem_planUntil {targetFree freed} (hp : hash ∈ planUntil targetFree freed candidates) :
    ∃ c ∈ candidates, c.fragmentHash = hash := by
  induction candidates generalizing freed with
  | nil => cases hp
  | cons c rest ih =>
    unfold planUntil at hp
    split_ifs at hp
    · cases hp
    · cases mem_cons.1 hp with
      | inl hs => exact ⟨c, mem_cons_self, hs.symm⟩
      | inr hl =>
        obtain ⟨c', hr, hs⟩ := ih hl
        exact ⟨c', mem_cons_of_mem c hr, hs⟩

lemma planSurplusRelease_guarded {max} (hp : hash ∈ planSurplusRelease candidates max) :
    ∃ c ∈ candidates, c.fragmentHash = hash ∧ c.isProtected = false := by
  obtain ⟨c, ht, hs⟩ := mem_map.1 hp
  have hg := mem_evictableSurplus.1 (mem_of_mem_take ht)
  exact ⟨c, hg.1, hs, hg.2.1⟩

lemma planEvictions_guarded {pressure} (hp : hash ∈ planEvictions candidates pressure) :
    ∃ c ∈ candidates, c.fragmentHash = hash ∧ c.isProtected = false := by
  unfold planEvictions at hp
  split_ifs at hp
  · cases hp
  · cases hp
  · obtain ⟨c, hs, same⟩ := mem_of_mem_planUntil hp
    have hg := mem_evictableSurplus.1 hs
    exact ⟨c, hg.1, same, hg.2.1⟩

end

variable (t : StorageTables)

/-- `lookup_disk_fragments`: of several rows of one hash the last read stays. -/
def lookupDiskFragment (hash : Blake3Hash) : Option FragmentMeta :=
  (t.fragmentHashes.reverse.find? (·.fragment.fragmentHash = hash)).map (·.fragment)

/-- `holder_counts` for one hash: other members with a row that is not suspect and was disk-verified
at or above the floor, if any. -/
def holderCount (members : List Int) (myNodeId : Int) (floor : Option Nat) (hash : Blake3Hash) :
    Nat :=
  t.fragmentInventory.countP fun row =>
    row.fragmentHash = hash ∧ row.suspect = false ∧
      (∀ low ∈ floor, ∃ verified ∈ row.verifiedHeight, (low : Int) ≤ verified) ∧
      row.nodeId ≠ myNodeId ∧ row.nodeId ∈ members

variable (P : Primitives) (t : StorageTables)

/-- The predicate of one blob. What the tables cannot answer is protected. -/
def protectionOf (blobId : BlobId) : Protection :=
  match placementPair t blobId with
  | none => .unknown
  | some (placed, desired) =>
    match epochsForBlob P t blobId placed desired with
    | none => .unknown
    | some epochs => .fromEpochs epochs

/-- What the evictor knows besides the tables: its id, the members, its pins, and the files past the
grace. -/
structure EvictionScope where
  myNodeId : Int
  members : List Int
  pinned : List BlobId
  disk : List (Blake3Hash × Nat)

variable (scope : EvictionScope)

/-- A file without a row is left to the orphan flow. -/
def gatherEvictionCandidates
    (minVerifiedHeight : Option Nat) : List EvictionCandidate :=
  scope.disk.filterMap fun file =>
    (lookupDiskFragment t file.1).map fun fragment =>
      { fragmentHash := file.1
        blobId := fragment.blobId
        sizeBytes := file.2
        isProtected := (protectionOf P t fragment.blobId).protects fragment.localIndex
          scope.myNodeId (decide (fragment.blobId ∈ scope.pinned))
        otherMemberHolders := holderCount t scope.members scope.myNodeId minVerifiedHeight file.1 }

/-- What `run_watermark_eviction` deletes. -/
def watermarkPlan
    (pressure : DiskPressure) : List Blake3Hash :=
  planEvictions (gatherEvictionCandidates P t scope none) pressure

/-- What `release_surplus` deletes: only another member's recent attestation counts. -/
def surplusPlan (tip : Nat) (t : StorageTables) (scope : EvictionScope) (max : Nat) :
    List Blake3Hash :=
  planSurplusRelease
    (gatherEvictionCandidates P t scope (some (tip - attestationRecencyHeights))) max

variable {P : Primitives} {t : StorageTables} {b : BlobId} {row : DataBlockRow}

/-- An unprotected candidate is a file that the node has no obligation for. -/
lemma gather_unprotected {scope floor c}
    (hg : c ∈ gatherEvictionCandidates P t scope floor) (hu : c.isProtected = false) :
    ∃ fragment pinned, lookupDiskFragment t c.fragmentHash = some fragment ∧
      (protectionOf P t fragment.blobId).protects fragment.localIndex scope.myNodeId pinned =
        false := by
  obtain ⟨file, _, hm⟩ := mem_filterMap.1 hg
  obtain ⟨fragment, hf, rfl⟩ := map_eq_some_iff.1 hm
  exact ⟨fragment, _, hf, hu⟩

lemma lookupDiskFragment_mem {hash fragment} (hf : lookupDiskFragment t hash = some fragment) :
    fragment.fragmentHash = hash ∧ ∃ row ∈ t.fragmentHashes, row.fragment = fragment := by
  obtain ⟨row, hr, rfl⟩ := map_eq_some_iff.1 hf
  refine ⟨by simpa using find?_some hr, row, ?_, rfl⟩
  exact mem_reverse.1 (mem_of_find?_eq_some hr)

/-- Nothing of a blob that was never confirmed is evictable. -/
lemma protectionOf_unconfirmed (hf : t.block b = some row)
    (hu : row.placementHeight = none) (fragmentClass : Nat) (node : Int) (pinned : Bool) :
    (protectionOf P t b).protects fragmentClass node pinned = true := by
  simp [protectionOf, placementPair, hf, hu, epochsForBlob, fromEpochs, protects]

lemma epochsForBlob_confirmed {view} {c d : Nat} {epochs} (ho : snapshotAt t c = some view)
    (ha : epochsForBlob P t b (some c) d = some epochs) :
    view.assignment P b ∈ epochs.assignments := by
  simp only [epochsForBlob, ho] at ha
  split_ifs at ha with hs
  · cases ha
    simp [ProtectionEpochs.assignments]
  · cases hg : snapshotAt t d with
    | none => simp [hg] at ha
    | some target =>
      simp only [hg] at ha
      cases ha
      simp [ProtectionEpochs.assignments]

/-- What the confirmed view makes a node responsible for is not evictable there. -/
lemma protectionOf_confirmed {view placed} (hf : t.block b = some row)
    (hc : row.placementHeight = some placed)
    (ho : snapshotAt t (heightFromDb placed) = some view) {fragmentClass node}
    (hr : (view.assignment P b)[fragmentClass]? = some node) (pinned : Bool) :
    (protectionOf P t b).protects fragmentClass node pinned = true := by
  simp only [protectionOf, placementPair, hf, map_some, hc]
  cases ha : epochsForBlob P t b (some (heightFromDb placed))
      (heightFromDb row.desiredPlacementHeight) with
  | none => exact unknown_protects fragmentClass node pinned
  | some epochs =>
    exact protects_of_assigned (epochsForBlob_confirmed ho ha) hr pinned

end HopNet
