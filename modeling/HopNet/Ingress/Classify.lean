import HopNet.Ingress.Store

namespace HopNet.Ingress

open ResourceType ResourceRecord

structure ResourceDescriptor where
  phResourceType : Int
  expectedSize : Option Nat
deriving DecidableEq

structure AssetDescriptor where
  localId : String
  cloudId : Option String
  scope : LibraryScope
  assetModifiedAt : Option Nat
  resources : List ResourceDescriptor
deriving DecidableEq

variable (desc : AssetDescriptor)

/-- The enumerated resource types; unknown PhotoKit types are skipped. -/
def AssetDescriptor.resourceTypes : List ResourceType :=
  desc.resources.filterMap fun r => fromPhType r.phResourceType

/-- The first size enumerated for a type, as the `i64` it is compared with. -/
def AssetDescriptor.size (desc : AssetDescriptor) (rt : ResourceType) : Option Int :=
  desc.resources.findSome? fun r =>
    if fromPhType r.phResourceType = some rt then r.expectedSize.map fun size =>
    Int.bmod size (2 ^ 64) else none

/-- The enumerated size is not the stored one; a missing size counts as unchanged. -/
def AssetDescriptor.resized (r : ResourceRecord) : Bool :=
  match r.content, desc.size r.resourceType with
  | some content, some size => decide (content.sizeBytes ≠ size)
  | _, _ => false

inductive Resolution where
  | knownByCloudId (photoId : PhotoId) (metadataChanged scopeChanged : Bool)
  | adopted (photoId : PhotoId)
  | needsContentHash
  | unmappedScope (photoId : PhotoId)

inductive SeedOutcome where
  | alreadyKnown (photoId : PhotoId)
  | adopted (photoId : PhotoId)
  | mintedPending (photoId : PhotoId)
  | unmapped (photoId : PhotoId)

variable (minted : PhotoId) (now : Nat)

/-- The row and pending resources of a photo seen for the first time. -/
def newPhoto (desc : AssetDescriptor) (library : Option LibraryId) : PhotoRecord where
  photoId := minted
  libraryId := library
  cloudId := desc.cloudId
  localId := some desc.localId
  discoveredAt := now
  assetModifiedAt := desc.assetModifiedAt
  materialized := false
  hasDescriptor := false
  published := false
  consensusPhotoId := none
  deletedAt := none
  tombstonePublished := false
  publishedAssetModifiedAt := none
  resources := desc.resourceTypes.foldl
    (fun rows rt => Table.insertOrIgnore resourceType ⟨rt, none, false, none, false⟩ rows) []

variable (p : PhotoRecord)

/-- `set_cloud_id` and `update_local_id`. -/
def PhotoRecord.bindLate (cloudId localId : String) : PhotoRecord :=
  { p with cloudId := some cloudId, localId := some localId }

namespace StateStore

variable (s : StateStore)

def photoByCloudId (cloudId : String) : Option PhotoRecord :=
  s.photos.find? fun p => p.cloudId = some cloudId

def photoByLocalIdNoCloud (localId : String) : Option PhotoRecord :=
  s.photos.find? fun p => p.localId = some localId ∧ p.cloudId = none ∧ p.deletedAt = none

/-- `resolve_event_photo`: what a descriptor is deferred for while in flight. -/
def resolveEventPhoto (desc : AssetDescriptor) : Option PhotoRecord :=
  match desc.cloudId with
  | some cloudId => s.photoByCloudId cloudId
  | none => s.photoByLocalIdNoCloud desc.localId

variable (minted : PhotoId) (now : Nat) (desc : AssetDescriptor)

/-- `mint_photo`; the minted id is a new UUID, and `cloud_id` is UNIQUE. -/
def mintPhoto
    (library : Option LibraryId) : Except IngressError StateStore :=
  match desc.cloudId with
  | some cloudId =>
    if (s.photoByCloudId cloudId).isSome then .error (.cloudIdConflict cloudId)
    else .ok { s with photos := s.photos ++ [newPhoto minted now desc library] }
  | none => .ok { s with photos := s.photos ++ [newPhoto minted now desc library] }

/-- A stored modification date that is missing was never synced. -/
def metadataChanged (p : PhotoRecord) (desc : AssetDescriptor) : Bool :=
  match p.assetModifiedAt, desc.assetModifiedAt with
  | none, _ => true
  | some stored, some incoming => decide (stored < incoming)
  | some _, none => false

/-- `resolve_descriptor`: rule 1, adoption where the scope was unbound, or an unmapped scope. -/
def resolveDescriptor : Except IngressError (StateStore × Resolution) :=
  match desc.cloudId.bind s.photoByCloudId with
  | some existing =>
    let seen := s.updatePhoto existing.photoId fun p => { p with localId := some desc.localId }
    match existing.libraryId, s.resolveScope desc.scope with
    | none, some library =>
      .ok (seen.updatePhoto existing.photoId fun p => p.adoptLibrary library,
        .adopted existing.photoId)
    | some stored, some current =>
      .ok (seen, .knownByCloudId existing.photoId (metadataChanged existing desc)
        (decide (stored ≠ current)))
    | _, none => .ok (seen, .knownByCloudId existing.photoId (metadataChanged existing desc) false)
  | none =>
    match s.resolveScope desc.scope with
    | none => do
        let discovered ← s.mintPhoto minted now desc none
        pure (discovered, .unmappedScope minted)
    | some _ => .ok (s, .needsContentHash)

/-- `seed_descriptor`: without a cloud id an asset is known by its local id. -/
def seedDescriptor : Except IngressError (StateStore × SeedOutcome) := do
  let (resolved, resolution) ← s.resolveDescriptor minted now desc
  match resolution with
  | .knownByCloudId photoId _ _ => pure (resolved, .alreadyKnown photoId)
  | .adopted photoId => pure (resolved, .adopted photoId)
  | .unmappedScope photoId => pure (resolved, .unmapped photoId)
  | .needsContentHash =>
    let known := if desc.cloudId = none then resolved.photoByLocalIdNoCloud desc.localId else none
    match known with
    | some existing => pure (resolved, .alreadyKnown existing.photoId)
    | none =>
      match resolved.resolveScope desc.scope with
      | none => .error (.unmappedScope desc.scope)
      | some library => do
          let discovered ← resolved.mintPhoto minted now desc (some library)
          pure (discovered, .mintedPending minted)

variable (library : LibraryId)

/-- `photo_by_original_hash`, over the photos of one library. -/
def photoByOriginalHash (hash : ContentHash) : Option PhotoRecord :=
  s.photos.find? fun p => p.libraryId = some library ∧
    ∃ r ∈ p.resources, r.resourceType = .original ∧ r.contentHash = some hash

/-- `late_binding_merge`: a photo without a cloud id has the bytes just fetched for another row, so
it is that row's photo. It takes the identifiers, tombstoned or not, and the provisional row
goes. -/
def lateBindingMerge (hash : ContentHash) (desc : AssetDescriptor)
    (provisional : PhotoId) : Except IngressError (StateStore × Option PhotoId) :=
  match desc.cloudId, s.photoByOriginalHash library hash with
  | some cloudId, some old =>
    if old.photoId = provisional ∨ old.cloudId ≠ none then .ok (s, none)
    else
      let others := { s with photos := Table.delete PhotoRecord.photoId provisional s.photos }
      if (others.photoByCloudId cloudId).isSome then .error .constraint
      else .ok (others.updatePhoto old.photoId fun p => p.bindLate cloudId desc.localId,
        some old.photoId)
  | _, _ => .ok (s, none)

end StateStore

/-- What a descriptor means for a known photo. A type is removed once at most, and a transition
leads to another library. -/
structure ChangePlan where
  photoId : PhotoId
  restore : Bool
  transition : Option (LibraryId × LibraryId)
  addResources : List ResourceType
  reopenResources : List ResourceType
  removeResources : List ResourceType
  metadataRefresh : Bool
  originalDisappeared : Bool
  removesOnce : removeResources.Nodup
  leaves : ∀ src dst, transition = some (src, dst) → src ≠ dst
deriving DecidableEq

def ChangePlan.IsNoop (plan : ChangePlan) : Prop :=
  plan.restore = false ∧ plan.transition = none ∧ plan.addResources = [] ∧
    plan.reopenResources = [] ∧
    plan.removeResources = [] ∧ plan.metadataRefresh = false ∧ plan.originalDisappeared = false
deriving Decidable

namespace ResourceType

def all : List ResourceType :=
  [original, edited, pairedVideo, adjustmentData, rawAlternate, thumbnailSmall, thumbnailMedium,
    editedPairedVideo]

lemma nodup_all : all.Nodup := by decide

def editMutable : List ResourceType := [edited, editedPairedVideo, adjustmentData]

def neverRemoved : List ResourceType := [original, pairedVideo]

end ResourceType

/-- The hard move of a photo that arrives under another library's scope. -/
def scopeTransition : Option LibraryId → Option LibraryId → Option (LibraryId × LibraryId)
  | some stored, some current => if stored ≠ current then some (stored, current) else none
  | _, _ => none

variable {stored current : Option LibraryId} {src dst : LibraryId}

lemma scopeTransition_eq_some
    (hm : scopeTransition stored current = some (src, dst)) :
    stored = some src ∧ current = some dst ∧ src ≠ dst := by
  cases stored with
  | none => cases hm
  | some stored =>
    cases current with
    | none => cases hm
    | some current =>
      rw [scopeTransition] at hm
      split_ifs at hm with ha
      cases hm
      exact ⟨rfl, rfl, ha⟩

lemma ne_of_scopeTransition (hm : scopeTransition stored current = some (src, dst)) : src ≠ dst :=
  (scopeTransition_eq_some hm).2.2

/-- `plan_changes`. A written edit of another size is fetched again, and the thumbnails with every
change of what they show. -/
def planChanges (p : PhotoRecord) (existing : List ResourceRecord) (desc : AssetDescriptor)
    (metadataChanged : Bool) (scopeLibrary : Option LibraryId) : ChangePlan :=
  let stored := existing.map resourceType
  let incoming := desc.resourceTypes
  let added := all.filter fun rt => rt ∈ incoming ∧ rt ∉ stored
  let removed := all.filter fun rt => rt ∈ stored ∧ rt ∉ incoming
  let removable := removed.filter fun rt => rt ∉ neverRemoved
  let resized := (existing.filter fun r =>
    r.resourceType ∈ incoming ∧ r.resourceType ∈ editMutable ∧ r.written ∧ desc.resized r).map
    resourceType
  let editStateChanged := resized ≠ [] ∨ (∃ rt ∈ added, rt ∈ editMutable) ∨
    ∃ rt ∈ removable, rt ∈ editMutable
  { photoId := p.photoId
    restore := p.deletedAt.isSome
    transition := scopeTransition p.libraryId scopeLibrary
    addResources := added
    reopenResources :=
      if editStateChanged then
        resized ++ (existing.filter fun r => r.resourceType.isThumbnail ∧
          r.written).map resourceType
      else resized
    removeResources := removable
    metadataRefresh := metadataChanged
    originalDisappeared := decide (∃ rt ∈ removed, rt ∈ neverRemoved)
    removesOnce := (nodup_all.filter _).filter _
    leaves := fun _ _ moves => ne_of_scopeTransition moves }

inductive Classification where
  | seeded (outcome : SeedOutcome)
  | known (plan : ChangePlan)
  | noOp (photoId : PhotoId)

def StateStore.classify (s : StateStore) (minted : PhotoId) (now : Nat) (desc : AssetDescriptor) :
    Except IngressError (StateStore × Classification) := do
  let (resolved, resolution) ← s.resolveDescriptor minted now desc
  match resolution with
  | .knownByCloudId photoId metadataChanged scopeChanged =>
    match resolved.photo photoId with
    | none => .error .rowNotFound
    | some p =>
      let scopeLibrary := if scopeChanged ∨ p.deletedAt.isSome then resolved.resolveScope desc.scope
        else p.libraryId
      let plan := planChanges p p.liveResources desc metadataChanged scopeLibrary
      pure (resolved, if plan.IsNoop then .noOp photoId else .known plan)
  | .adopted photoId => pure (resolved, .seeded (.adopted photoId))
  | .unmappedScope photoId => pure (resolved, .seeded (.unmapped photoId))
  | .needsContentHash => do
      let (seeded, outcome) ← resolved.seedDescriptor minted now desc
      pure (seeded, .seeded outcome)

end HopNet.Ingress
