import HopNet.Lib.ByteReader
import HopNet.Snapshot.Format

/-! The import of an artifact: a bounds-checked walk over its bytes that inserts the rows it decodes
into a fresh database and skips the sections it has no matching specification for. -/

namespace HopNet

open Fallible Sqlite ByteReader

/-- The number whose little-endian bytes these are. -/
def leValue (bytes : Bytes) : Nat := bytes.foldr (fun b n => b.toNat + 256 * n) 0

abbrev SnapshotReader := Reader SnapshotError

namespace SnapshotReader

def readBytes (n : Nat) : SnapshotReader Bytes :=
  take (fun pos => .malformed pos "runs past the end of the artifact") n

def readU32 : SnapshotReader Nat := leValue <$> readBytes 4

def readU64 : SnapshotReader Nat := leValue <$> readBytes 8

def readName : SnapshotReader String := do
  let len ← readU32
  let start ← position
  let bytes ← readBytes len
  match String.fromUTF8? ⟨⟨bytes⟩⟩ with
  | some name => return name
  | none => lift (.error (.malformed start "name is not UTF-8"))

end SnapshotReader

open SnapshotReader

structure TableUnit where
  name : String
  columns : List String
  rowCount : Nat

def readTableHeader : SnapshotReader TableUnit := do
  let name ← readName
  let colCount ← readU32
  let columns ← iterate (fun columns => do return columns ++ [← readName]) colCount []
  let rowCount ← readU64
  let pos ← position
  lift (require (columns = [] → rowCount = 0)
    (.malformed pos "table unit declares rows but no columns"))
  return ⟨name, columns, rowCount⟩

/-- Neither a NaN nor negative zero is ever written, so neither is read. -/
def decodeValue (table column : String) : SnapshotReader Value := do
  match ← readBytes 1 with
  | [0x00] => return .null
  | [0x01] => return .integer (BitVec.ofNat 64 (← readU64))
  | [0x02] =>
    let bits := BitVec.ofNat 64 (← readU64)
    lift (require (¬ Binary64.IsNan bits ∧ Binary64.canonical bits = bits)
      (.nonCanonicalFloat table column))
    return .real bits
  | [0x03] => return .text (← readBytes (← readU64))
  | [0x04] => return .blob (← readBytes (← readU64))
  | _ => lift (.error (.malformed ((← position) - 1) "unknown value tag"))

def walkTableRows {σ : Type} (unit : TableUnit) (sink : σ → List Value → Except SnapshotError σ) :
    σ → SnapshotReader σ :=
  iterate (fun s => do
    let values ← unit.columns.mapM (decodeValue unit.name)
    lift (sink s values)) unit.rowCount

structure ImportedSection where
  name : String
  /-- The tables with the number of rows inserted. -/
  tables : List (String × Nat)

inductive SkipReason
  | unknownSection
  | formatVersionMismatch (artifact registry : Nat)

structure SkippedSection where
  name : String
  reason : SkipReason

structure ImportReport where
  imported : List ImportedSection
  skipped : List SkippedSection

/-- A list of names as an error prints it. -/
def debugNames (names : List String) : String :=
  "[" ++ ", ".intercalate (names.map String.quote) ++ "]"

variable (schema : Schema)

/-- One row goes in; columns the unit lacks take their defaults. -/
def insertValues (unit : TableUnit) (s : Database × Nat) (values : List Value) :
    Except SnapshotError (Database × Nat) :=
  match schema.table? unit.name with
  | some t => do
      let db ← (Sqlite.insert t (t.rowOf unit.columns values) s.1).mapError .db
      return (db, s.2 + 1)
  | none => .error (.db .noSuchTable)

variable (spec : SectionSpec)

def exportedTable (name : String) : Except SnapshotError TableSpec :=
  match spec.tables.find? fun t => t.role = .exported ∧ t.name = name with
  | some table => .ok table
  | none => .error (.schemaMismatch spec.name name "not an exported table of this section")

def importTable (s : Database × ImportedSection) : SnapshotReader (Database × ImportedSection) := do
  let unit ← readTableHeader
  let table ← lift (exportedTable spec unit.name)
  lift (require (unit.name ∉ s.2.tables.map (·.1))
    (.schemaMismatch spec.name unit.name "duplicate table unit"))
  let (canonical, _) ← lift (canonicalColumns schema table)
  lift (require (canonical = unit.columns)
    (.schemaMismatch spec.name unit.name ("artifact columns " ++ debugNames unit.columns ++
      " != schema canonical columns " ++ debugNames canonical)))
  lift (require (s.1 unit.name = []) (.targetNotEmpty unit.name))
  let (db, rows) ← walkTableRows unit (insertValues schema unit) (s.1, 0)
  return (db, { s.2 with tables := s.2.tables ++ [(unit.name, rows)] })

def importSection (tableCount : Nat) (db : Database) :
    SnapshotReader (Database × ImportedSection) := do
  let s ← iterate (importTable schema spec) tableCount (db, ⟨spec.name, []⟩)
  lift <| (exportedTables spec).forM fun table =>
    require (table.name ∈ s.2.tables.map (·.1))
      (.schemaMismatch spec.name table.name "missing from artifact")
  return s

/-- A section without a specification is walked too: it carries no length. -/
def skipSection (tableCount : Nat) : SnapshotReader Unit :=
  iterate (fun _ => do walkTableRows (← readTableHeader) (fun _ _ => .ok ()) ()) tableCount ()

variable (sections : List SectionSpec) (expected : String → Option Nat)

def skipReason (name : String) (formatVersion : Nat) : Option SkipReason :=
  match sections.find? (·.name = name), expected name with
  | none, _ | _, none => some .unknownSection
  | some _, some want =>
    if want ≠ formatVersion then some (.formatVersionMismatch formatVersion want) else none

def importNext (s : Database × ImportReport) : SnapshotReader (Database × ImportReport) := do
  let name ← readName
  let formatVersion ← readU32
  let tableCount ← readU32
  match skipReason sections expected name formatVersion, sections.find? fun s => s.name = name with
  | none, some spec =>
    let (db, imported) ← importSection schema spec tableCount s.1
    return (db, { s.2 with imported := s.2.imported ++ [imported] })
  | some reason, _ =>
    skipSection tableCount
    return (s.1, { s.2 with skipped := s.2.skipped ++ [⟨name, reason⟩] })
  | none, none => return s

/-- The sections, behind the version of the container. -/
def importSections (db : Database) : SnapshotReader (Database × ImportReport) := do
  let version ← readU32
  lift (require (version = artifactVersion) (.unsupportedArtifactVersion version))
  let sectionCount ← readU32
  iterate (importNext schema sections expected) sectionCount (db, ⟨[], []⟩)

def importSnapshotExpecting (artifact : Bytes) (db : Database) :
    Except SnapshotError (Database × ImportReport) := do
  require (artifact.take magic.length = magic) .badMagic
  let (s, cur) ← importSections schema sections expected db ⟨artifact, magic.length⟩
  require (cur.pos = cur.buf.length) (.malformed cur.pos "trailing bytes after the last section")
  return s

/-- The versions of the specifications; of two with one name, the later's. -/
def expectedVersion (name : String) : Option Nat :=
  (sections.reverse.find? (·.name = name)).map (·.formatVersion)

def importSnapshot (artifact : Bytes) (db : Database) :
    Except SnapshotError (Database × ImportReport) :=
  importSnapshotExpecting schema sections (expectedVersion sections) artifact db

end HopNet
