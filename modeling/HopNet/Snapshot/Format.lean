import HopNet.Lib.Sqlite
import HopNet.Signing

namespace HopNet

open Fallible Sqlite

inductive TableRole
  | exported
  | divergenceOnly
deriving DecidableEq

structure TableSpec where
  name : String
  role : TableRole
  excludedColumns : List String
deriving DecidableEq

def TableSpec.exported (name : String) : TableSpec := ⟨name, .exported, []⟩

structure SectionSpec where
  name : String
  formatVersion : Nat
  tables : List TableSpec

structure TableManifest where
  name : String
  role : TableRole
  rowCount : Nat
  hash : Blake3Hash
  excludedColumns : List String

structure SectionManifest where
  name : String
  formatVersion : Nat
  sectionHash : Blake3Hash
  tables : List TableManifest

structure SnapshotManifest where
  artifactVersion : Nat
  topHash : Blake3Hash
  sections : List SectionManifest

inductive SnapshotError
  | db (e : SqlError)
  | missingPrimaryKey (table : String)
  | nonCanonicalFloat (table column : String)
  | unknownExcludedColumn (table column : String)
  | badMagic
  | unsupportedArtifactVersion (found : Nat)
  | malformed (offset : Nat) (what : String)
  | schemaMismatch (owner table detail : String)
  | targetNotEmpty (table : String)

def artifactVersion : Nat := 1

variable (name : String)

def nameBytes : Bytes := name.toUTF8.data.toList

/-- `HOPSNAP` and a zero byte. -/
def magic : Bytes := nameBytes "HOPSNAP" ++ [0]

def domainTable : Bytes := nameBytes "hopnet/snapshot/v1/table" ++ [0]
def domainSection : Bytes := nameBytes "hopnet/snapshot/v1/section" ++ [0]
def domainTop : Bytes := nameBytes "hopnet/snapshot/v1/top" ++ [0]

def writeName : Bytes := leBytes 4 (nameBytes name).length ++ nameBytes name

/-- Byte order of names. -/
def sortNames (names : List String) : List String :=
  names.insertionSort fun a b => (nameBytes a).map UInt8.toNat ≤ (nameBytes b).map UInt8.toNat

/-- `PRAGMA table_info`: nothing for a table that does not exist. -/
def tableInfo (schema : Schema) (table : String) : List Column :=
  ((schema.table? table).map (·.columns)).getD []

/-- The columns of the export, and the columns of the primary key. -/
def canonicalColumns (schema : Schema) (table : TableSpec) :
    Except SnapshotError (List String × List String) := do
  let info := tableInfo schema table.name
  table.excludedColumns.forM fun excluded =>
    require (excluded ∈ info.map (·.name)) (.unknownExcludedColumn table.name excluded)
  let columns := (info.filter (·.name ∉ table.excludedColumns)).map (·.name)
  let pk := (info.filter (·.pk)).map (·.name)
  require (pk ≠ []) (.missingPrimaryKey table.name)
  return (sortNames columns, sortNames pk)

/-- A tag and bytes that carry their own length. -/
def encodeValue (table column : String) : Value → Except SnapshotError Bytes
  | .null => .ok [0x00]
  | .integer n => .ok (0x01 :: leBytes 8 n.toNat)
  | .real bits =>
    if Binary64.IsNan bits then .error (.nonCanonicalFloat table column)
    else .ok (0x02 :: leBytes 8 (Binary64.canonical bits).toNat)
  | .text bytes => .ok (0x03 :: (leBytes 8 bytes.length ++ bytes))
  | .blob bytes => .ok (0x04 :: (leBytes 8 bytes.length ++ bytes))

/-- `SELECT … ORDER BY` the columns of the primary key. -/
def rowsByKey (pk : List String) (rows : List Row) : List Row :=
  rows.insertionSort fun a b => keyOf pk a ≤ keyOf pk b

def tableHeader (columns : List String) (rowCount : Nat) : Bytes :=
  writeName name ++ leBytes 4 columns.length ++ columns.flatMap writeName ++ leBytes 8 rowCount

variable (blake3 : Bytes → Blake3Hash) (schema : Schema) (db : Database)

/-- A table's bytes, for its hash and, if exported, for the artifact. -/
def walkTable (table : TableSpec) : Except SnapshotError (Bytes × TableManifest) := do
  let (columns, pk) ← canonicalColumns schema table
  let rowCount := (db table.name).length
  let rows ← (rowsByKey pk (db table.name)).mapM fun row =>
    columns.mapM fun c => encodeValue table.name c (row c)
  let bytes := tableHeader table.name columns rowCount ++ rows.flatten.flatten
  return (bytes,
    ⟨table.name, table.role, rowCount, blake3 (domainTable ++ bytes), table.excludedColumns⟩)

variable (spec : SectionSpec)

def exportedTables : List TableSpec := spec.tables.filter (·.role = .exported)

/-- What stands before the tables of a section. -/
def sectionHeader : Bytes :=
  writeName spec.name ++ leBytes 4 spec.formatVersion ++ leBytes 4 (exportedTables spec).length

def walkSection : Except SnapshotError (Bytes × SectionManifest) := do
  let tables ← spec.tables.mapM (walkTable blake3 schema db)
  let exported := tables.filter (·.2.role = .exported)
  let sectionHash :=
    blake3 (domainSection ++ sectionHeader spec ++ exported.flatMap (·.2.hash.bytes))
  return (sectionHeader spec ++ exported.flatMap (·.1),
    ⟨spec.name, spec.formatVersion, sectionHash, tables.map (·.2)⟩)

def computeTopHash (sections : List SectionManifest) : Blake3Hash :=
  blake3 (domainTop ++ leBytes 4 artifactVersion ++ leBytes 4 sections.length ++
    sections.flatMap fun s => writeName s.name ++ leBytes 4 s.formatVersion ++ s.sectionHash.bytes)

/-- What stands before the sections. -/
def artifactHeader (count : Nat) : Bytes := magic ++ leBytes 4 artifactVersion ++ leBytes 4 count

def serializeSnapshot (sections : List SectionSpec) :
    Except SnapshotError (Bytes × SnapshotManifest) := do
  let walked ← sections.mapM (walkSection blake3 schema db)
  let manifests := walked.map (·.2)
  return (artifactHeader sections.length ++ walked.flatMap (·.1),
    ⟨artifactVersion, computeTopHash blake3 manifests, manifests⟩)

end HopNet
