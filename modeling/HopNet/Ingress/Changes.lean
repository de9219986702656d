import HopNet.Ingress.Classify
import Mathlib.Data.List.MinMax

namespace HopNet.Ingress

open PhotoRecord

variable (p : PhotoRecord)

/-- The contents a library transition transfers: the written ones. -/
def PhotoRecord.writtenContents : List StoredContent :=
  (p.liveResources.filter (·.written)).filterMap ResourceRecord.content

def ChangePlan.ChangesResources (plan : ChangePlan) : Prop :=
  plan.addResources ≠ [] ∨ plan.reopenResources ≠ [] ∨ plan.removeResources ≠ [] ∨
    plan.originalDisappeared
deriving Decidable

/-- The plan changes what the capsule describes. -/
def ChangePlan.ChangesState (plan : ChangePlan) : Prop :=
  plan.restore ∨ plan.transition ≠ none ∨ plan.removeResources ≠ [] ∨ plan.metadataRefresh
deriving Decidable

namespace StateStore

variable (s : StateStore) (photoId : PhotoId)

def tombstonePhoto (now : Nat) : StateStore :=
  s.updatePhoto photoId fun p => { p with deletedAt := p.deletedAt.or (some now) }

def restorePhoto : StateStore :=
  s.updatePhoto photoId fun p => { p with deletedAt := none }

variable (src dst : LibraryId)

/-- The eviction stamp goes along: the source's bytes are gone and the target has no row. -/
def inheritsEviction (hash : ContentHash) : Prop :=
  (s.blob src hash).any (·.evicted) ∧ s.blob dst hash = none
deriving Decidable

/-- One reference moves from the source's row to the target's. -/
def transferBlob (s : StateStore) (c : StoredContent) : Except IngressError StateStore := do
  let (moved, _) ← (s.upsertIncrement dst c.hash c.ext c.sizeBytes).decrementAndReap src c.hash
  pure moved

/-- The transaction of `execute_transition`. -/
def transitionTx (written : List StoredContent) : Except IngressError StateStore := do
  let moved ← written.foldlM (transferBlob src dst) s
  pure (moved.updatePhoto photoId fun p => p.setLibrary dst)

def requireLibraries : Except IngressError Unit := do
  Fallible.require (s.library src).isSome (.noLibraryRow src)
  Fallible.require (s.library dst).isSome (.noLibraryRow dst)

/-- `execute_transition` when nothing runs between its steps. -/
def executeTransition : Except IngressError StateStore := do
  s.requireLibraries src dst
  let written := ((s.photo photoId).map writtenContents).getD []
  let inherit := (written.map StoredContent.hash).filter fun hash => s.inheritsEviction src dst hash
  let moved ← s.transitionTx photoId src dst written
  pure (inherit.foldl (fun s hash => s.stampBlobEvicted dst hash) moved)

variable (library : Option LibraryId)

/-- A row gives its reference up; at zero its file is to be reaped. The gate is the hash, not
`written_at`: a superseded row still holds a reference. -/
def dropReference (acc : StateStore × List (ContentHash × String)) (row : ResourceRecord) :
    Except IngressError (StateStore × List (ContentHash × String)) :=
  match row.content, library with
  | some content, some library => do
      let (counted, reaped) ← acc.1.decrementAndReap library content.hash
      pure (counted, acc.2 ++ (reaped.map fun ext => (content.hash, ext)).toList)
  | _, _ => .ok acc

/-- The transaction under way: the store, the photo's row, and the files to reap. -/
abbrev Removing := StateStore × PhotoRecord × List (ContentHash × String)

/-- A resource no longer enumerated: its blob loses a reference, its row goes or is retired. -/
def removeOne (rows : List ResourceRecord) (acc : Removing) (rt : ResourceType) :
    Except IngressError Removing :=
  match rows.find? fun r => r.resourceType = rt with
  | none => .ok acc
  | some row => do
      let (counted, reap) ← dropReference library (acc.1, acc.2.2) row
      pure (counted, acc.2.1.removeResource rt, reap)

variable (plan : ChangePlan)

/-- The transaction's last statement: whether the photo is complete now. -/
def settleMaterialized (p : PhotoRecord) : PhotoRecord :=
  if plan.addResources ≠ [] ∨ plan.reopenResources ≠ [] then p.clearMaterialized
  else if plan.removeResources ≠ [] then p.stampMaterialized
  else p

/-- The resource transaction of `apply_change`, with the files to reap. -/
def applyResources (library : Option LibraryId) :
    Except IngressError (StateStore × List (ContentHash × String)) :=
  match s.photo plan.photoId with
  | none => if plan.addResources = [] then .ok (s, []) else .error .constraint
  | some p => do
      let added ← plan.addResources.foldlM insertPendingResource p
      let reopened := plan.reopenResources.foldl reopenResource added
      let (counted, changed, reap) ←
        plan.removeResources.foldlM (removeOne library reopened.liveResources) (s, reopened, [])
      pure (counted.updatePhoto plan.photoId fun _ => settleMaterialized plan changed, reap)

/-- The library it counts in: the transition's target, or the photo's own. -/
def effectiveLibrary : Option LibraryId :=
  match plan.transition with
  | some (_, dst) => some dst
  | none => (s.photo plan.photoId).bind libraryId

/-- The end of `apply_change`: the capsule is written or healed, and the date stamped. -/
def finishChange (desc : AssetDescriptor) : StateStore :=
  s.updatePhoto plan.photoId fun p =>
    { p with
      hasDescriptor :=
        p.hasDescriptor || (p.materialized && (decide plan.ChangesState || p.libraryId.isSome))
      assetModifiedAt := if plan.metadataRefresh then desc.assetModifiedAt.or p.assetModifiedAt
        else p.assetModifiedAt }

def healMissingDescriptor : StateStore :=
  s.updatePhoto photoId fun p =>
    { p with hasDescriptor := p.hasDescriptor || (p.materialized && p.libraryId.isSome) }

/-- The transaction of `hard_delete_one`, which returns the files to reap. -/
def hardDelete (p : PhotoRecord) :
    Except IngressError (StateStore × List (ContentHash × String)) := do
  let (counted, reap) ← p.liveResources.foldlM (dropReference p.libraryId) (s, [])
  pure ({ counted with photos := Table.delete PhotoRecord.photoId p.photoId counted.photos }, reap)

end StateStore

/-- How far `apply_change` came: each step is a transaction, and a failed call ends it. -/
inductive Reached where
  | classified
  | restored
  | moved
  | changed
  | finished
deriving DecidableEq

def SeedOutcome.photoId : SeedOutcome → PhotoId
  | .alreadyKnown id | .adopted id | .mintedPending id | .unmapped id => id

namespace StateStore

variable (s : StateStore) (plan : ChangePlan)

def movePlanned : Except IngressError StateStore :=
  match plan.transition with
  | some (src, dst) => s.executeTransition plan.photoId src dst
  | none => .ok s

/-- A plan's resource transaction; what it reaps leaves the spool only. -/
def changePlanned : Except IngressError StateStore :=
  if plan.ChangesResources then do
    let (changed, _) ← s.applyResources plan (s.effectiveLibrary plan)
    pure changed
  else .ok s

/-- The steps of `apply_change` for a plan, and whether all were taken. -/
def applyPlan (desc : AssetDescriptor) (reached : Reached) : StateStore × Bool :=
  if reached = .classified then (s, false)
  else
    let restored := if plan.restore then s.restorePhoto plan.photoId else s
    if reached = .restored then (restored, false)
    else
      match restored.movePlanned plan with
      | .error _ => (restored, false)
      | .ok moved =>
        if reached = .moved then (moved, false)
        else
          match moved.changePlanned plan with
          | .error _ => (moved, false)
          | .ok changed =>
            if reached = .changed then (changed, false) else (changed.finishChange plan desc, true)

/-- `apply_change`, with the descriptor's photo when it succeeds. -/
def applyChange (minted : PhotoId) (now : Nat) (desc : AssetDescriptor) (reached : Reached) :
    StateStore × Option PhotoId :=
  match s.classify minted now desc with
  | .error _ => (s, none)
  | .ok (store, .known plan) =>
    let applied := store.applyPlan plan desc reached
    (applied.1, if applied.2 then some plan.photoId else none)
  | .ok (store, .noOp photoId) =>
    if reached = .classified then (store, none)
      else (store.healMissingDescriptor photoId, some photoId)
  | .ok (store, .seeded outcome) => (store, some outcome.photoId)

end StateStore

end HopNet.Ingress
