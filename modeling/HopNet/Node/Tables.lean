import HopNet.Photos.Handlers

namespace HopNet

open Fallible

inductive TakeoutStatus where
  | pending
  | materializing
  | ready
  | expired
  | cancelled
deriving DecidableEq

/-- A row of `takeouts`, keyed by `id`. The time is an RFC 3339 text. -/
structure TakeoutRow where
  id : CustomUUID
  userId : Int
  ownerNodeId : Int
  status : TakeoutStatus
  expiresAt : String
  consensusHeight : Int
deriving DecidableEq

inductive ImportStatus where
  | pending
  | importing
  | completed
  | failed
deriving DecidableEq

/-- A row of `imports`, keyed by `id`. -/
structure ImportRow where
  id : CustomUUID
  userId : Int
  ownerNodeId : Int
  status : ImportStatus
deriving DecidableEq

structure NodeTables where
  users : List UserRow
  /-- The `users` row of `sequences`. -/
  userSeq : Option Nat
  devices : List DeviceRow
  storage : StorageTables
  meshKey : Option (FixedBytes 32)
  meshKeyAccess : List MeshKeyGrant
  storagePolicy : List (String × String)
  consensusPolicy : List (String × String)
  drive : DriveTables
  photos : PhotoTables
  takeouts : List TakeoutRow
  imports : List ImportRow
deriving DecidableEq

namespace NodeTables

def empty : NodeTables := ⟨[], none, [], .empty, none, [], [], [], .empty, .empty, [], []⟩

variable (t : NodeTables)

/-- What the drive's handlers see. -/
def driveDb : DriveDb := ⟨t.users, t.storage, t.drive⟩

def setDriveDb (db : DriveDb) : NodeTables := { t with storage := db.storage, drive := db.drive }

def photosDb (currentHeight : Nat) : PhotosDb :=
  ⟨t.users, t.devices, t.storage, t.photos, currentHeight⟩

def setPhotosDb (db : PhotosDb) : NodeTables :=
  { t with storage := db.storage, photos := db.photos }

end NodeTables

/-- A transaction of one of the projections that hold wraps. -/
inductive ProjectionTx where
  | drive (tx : DriveTx)
  | photos (tx : PhotosTx)

/-- The block and this node's disk, and the last decided height. -/
structure ProjectionCtx where
  apply : ApplyCtx
  currentHeight : Nat

/-- A projection's handler on its part of the tables. -/
def ProjectionTx.process (decode : AccessDecoder) (expired : Expiry)
    (ctx : ProjectionCtx) (signer : Option Int) (t : NodeTables) :
    ProjectionTx → DbResult NodeTables
  | .drive tx => do
      let db ← tx.process decode ctx.apply signer t.driveDb
      return t.setDriveDb db
  | .photos tx => do
      let db ← tx.process expired ctx.apply signer (t.photosDb ctx.currentHeight)
      return t.setPhotosDb db

end HopNet
