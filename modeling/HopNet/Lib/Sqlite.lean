import HopNet.Lib.Binary64
import HopNet.Lib.Fallible
import Mathlib.Data.List.Lex
import Mathlib.Data.List.Sort

/-! Tables of an SQL database in the way of SQLite. -/

namespace Sqlite

open Fallible List

inductive Value
  | null
  | integer (n : BitVec 64)
  | real (bits : BitVec 64)
  | text (bytes : List UInt8)
  | blob (bytes : List UInt8)
deriving DecidableEq

namespace Value

/-- `BINARY` collation: first the classes, numbers by exact value, then the bytes with a proper
start first. -/
def sortKey : Value → List Int
  | null => [0]
  | integer n => [1, Binary64.scaledInt n.toInt]
  | real bits => [1, Binary64.scaled bits]
  | text bytes => 2 :: bytes.map fun b => b.toNat
  | blob bytes => 3 :: bytes.map (·.toNat)

/-- The value with zero for negative zero. -/
def canonical : Value → Value
  | real bits => real (Binary64.canonical bits)
  | v => v

def IsNan : Value → Prop
  | real bits => Binary64.IsNan bits
  | _ => False

instance : ∀ v, Decidable (IsNan v)
  | real bits => inferInstanceAs (Decidable (Binary64.IsNan bits))
  | null | integer _ | text _ | blob _ => isFalse id

/-- The limit on the length of a text or blob. -/
def maxLength : Nat := 1000000000

def Fits : Value → Prop
  | text bytes | blob bytes => bytes.length ≤ maxLength
  | _ => True

instance : ∀ v, Decidable (Fits v)
  | text bytes | blob bytes => inferInstanceAs (Decidable (bytes.length ≤ maxLength))
  | null | integer _ | real _ => isTrue trivial

variable {v : Value}

@[simp] lemma sortKey_canonical : v.canonical.sortKey = v.sortKey := by
  cases v <;> simp [canonical, sortKey]

@[simp] lemma canonical_canonical : v.canonical.canonical = v.canonical := by
  cases v <;> simp [canonical]

@[simp] lemma canonical_eq_null : v.canonical = null ↔ v = null := by
  cases v <;> simp [canonical]

lemma not_isNan_canonical (hn : ¬ v.IsNan) : ¬ v.canonical.IsNan := by
  cases v with
  | real bits => exact Binary64.not_isNan_canonical hn
  | null | integer _ | text _ | blob _ => exact id

@[simp] lemma fits_canonical : v.canonical.Fits ↔ v.Fits := by
  cases v <;> simp [canonical, Fits]

end Value

/-- A row gives each column of its table a value. -/
abbrev Row := String → Value

/-- The columns' values, in the order in which rows are compared. -/
def keyOf (columns : List String) (row : Row) : List (List Int) :=
  columns.map fun c => (row c).sortKey

/-- The rows compare alike in the columns. -/
def AgreeOn (columns : List String) (a b : Row) : Prop :=
  ∀ c ∈ columns, (a c).sortKey = (b c).sortKey

/-- The conditions of `CHECK` and of partial indexes. -/
inductive Cond
  | isNull (column : String)
  | isIn (column : String) (values : List Value)
  | not (cond : Cond)
  | and (a b : Cond)
  | or (a b : Cond)

namespace Cond

/-- The truth value, none for `NULL`. -/
def eval (row : Row) : Cond → Option Bool
  | isNull c => some ((row c).sortKey = [0])
  | isIn c values =>
    if (row c).sortKey = [0] then none else some (values.any fun v => v.sortKey = (row c).sortKey)
  | not cond => (cond.eval row).map (!·)
  | and a b =>
    match a.eval row, b.eval row with
    | some true, y => y
    | some false, _ => some false
    | none, some false => some false
    | none, _ => none
  | or a b =>
    match a.eval row, b.eval row with
    | some false, y => y
    | some true, _ => some true
    | none, some true => some true
    | none, _ => none

def columns : Cond → List String
  | isNull c => [c]
  | isIn c _ => [c]
  | not cond => cond.columns
  | and a b | or a b => a.columns ++ b.columns

/-- `column = n` or `column IN (…)` over numbers. -/
def among (column : String) (numbers : List (BitVec 64)) : Cond :=
  isIn column (numbers.map .integer)

/-- A condition compares values and nothing else. -/
lemma eval_congr {a b} : ∀ {cond : Cond}, AgreeOn cond.columns a b → cond.eval a = cond.eval b := by
  intro cond
  induction cond with
  | isNull c | isIn c =>
    intro hs
    rw [eval, eval, hs c mem_cons_self]
  | not cond ih =>
    intro hs
    rw [eval, eval, ih hs]
  | and x y ihx ihy | or x y ihx ihy =>
    intro hs
    rw [eval, eval, ihx fun c inX => hs c (mem_append_left _ inX),
      ihy fun c inY => hs c (mem_append_right _ inY)]

end Cond

structure Column where
  name : String
  pk : Bool
  notNull : Bool
  /-- `INTEGER PRIMARY KEY` names the row's own number. -/
  rowid : Bool
  default : Value

namespace Column

variable (name : String)

/-- A column that may be `NULL`. -/
def plain : Column := ⟨name, false, false, false, .null⟩

/-- `NOT NULL`. -/
def required : Column := ⟨name, false, true, false, .null⟩

/-- `NOT NULL DEFAULT n`. -/
def counted (n : BitVec 64) : Column := ⟨name, false, true, false, .integer n⟩

/-- `TEXT PRIMARY KEY` or `BLOB PRIMARY KEY`, which SQLite lets be `NULL`. -/
def keyed : Column := ⟨name, true, false, false, .null⟩

/-- `INTEGER PRIMARY KEY`. -/
def numbered : Column := ⟨name, true, false, true, .null⟩

/-- `NOT NULL` and part of the primary key. -/
def part : Column := ⟨name, true, true, false, .null⟩

end Column

/-- Rows that meet the condition differ in the columns, unless one is `NULL`. -/
structure UniqueKey where
  columns : List String
  among : Option Cond

structure ForeignKey where
  column : String
  table : String
  parentColumn : String

structure TableSchema where
  name : String
  columns : List Column
  uniques : List UniqueKey
  checks : List Cond
  foreignKeys : List ForeignKey

abbrev Schema := List TableSchema

def Schema.table? (schema : Schema) (name : String) : Option TableSchema :=
  schema.find? (·.name = name)

/-- The rows of each table, in the order of their insertion. -/
abbrev Database := String → List Row

namespace UniqueKey

def Covers (key : UniqueKey) (row : Row) : Prop :=
  (∀ cond ∈ key.among, cond.eval row = some true) ∧ ∀ c ∈ key.columns, (row c).sortKey ≠ [0]
deriving Decidable

def Clash (key : UniqueKey) (a b : Row) : Prop :=
  key.Covers a ∧ key.Covers b ∧ keyOf key.columns a = keyOf key.columns b
deriving Decidable

def reads (key : UniqueKey) : List String := key.columns ++ (key.among.map Cond.columns).getD []

lemma covers_congr {key : UniqueKey} {a b} (hs : AgreeOn key.reads a b) :
    key.Covers a ↔ key.Covers b := by
  have hc : ∀ c ∈ key.columns, (a c).sortKey = (b c).sortKey :=
    fun c hk => hs c (mem_append_left _ hk)
  have ham : ∀ cond ∈ key.among, cond.eval a = cond.eval b := by
    intro cond ha
    refine Cond.eval_congr fun c hco => hs c (mem_append_right _ ?_)
    rw [ha]
    exact hco
  refine and_congr (forall₂_congr fun cond ha => ?_) (forall₂_congr fun c hk => ?_)
  · rw [ham cond ha]
  · rw [hc c hk]

lemma clash_congr {key : UniqueKey} {a a' b b'} (hsa : AgreeOn key.reads a a')
    (hs : AgreeOn key.reads b b') : key.Clash a b ↔ key.Clash a' b' := by
  have hk : ∀ {x y : Row}, AgreeOn key.reads x y → keyOf key.columns x = keyOf key.columns y :=
    fun same => map_congr_left fun c hke => same c (mem_append_left _ hke)
  rw [Clash, Clash, covers_congr hsa, covers_congr hs, hk hsa, hk hs]

end UniqueKey

namespace TableSchema

variable (t : TableSchema)

def columnNames : List String := t.columns.map (·.name)

def primaryKey : List String := (t.columns.filter (·.pk)).map (·.name)

/-- All the unique keys, the primary key first. -/
def keys : List UniqueKey := ⟨t.primaryKey, none⟩ :: t.uniques

/-- What each row has to meet alone. -/
def RowOk (row : Row) : Prop :=
  (∀ column ∈ t.columns, (column.notNull → row column.name ≠ .null) ∧
    (column.rowid → (row column.name) matches .integer _) ∧ (row column.name).Fits) ∧
  ∀ check ∈ t.checks, check.eval row ≠ some false
deriving Decidable

def Clash (t : TableSchema) (a b : Row) : Prop := ∃ key ∈ t.keys, key.Clash a b
deriving Decidable

lemma Clash.symm {t : TableSchema} {a b} (hc : t.Clash a b) : t.Clash b a := by
  obtain ⟨key, hk, hf, hs, same⟩ := hc
  exact ⟨key, hk, hs, hf, same.symm⟩

/-- Each reference is `NULL` or finds its parent. -/
def Referenced (db : Database) (row : Row) : Prop :=
  ∀ fk ∈ t.foreignKeys, (row fk.column).sortKey = [0] ∨
    ∃ parent ∈ db fk.table, (parent fk.parentColumn).sortKey = (row fk.column).sortKey
deriving Decidable

def defaultOf (c : String) : Value :=
  ((t.columns.find? (·.name = c)).map (·.default)).getD .null

/-- The row of `INSERT INTO t (columns) VALUES (values)`. -/
def rowOf (columns : List String) (values : List Value) : Row := fun c =>
  ((columns.zip values).lookup c).getD (t.defaultOf c)

end TableSchema

inductive SqlError
  | noSuchTable
  | row
  | unique
  | foreignKey

def put (db : Database) (name : String) (rows : List Row) : Database := fun other =>
  if other = name then rows else db other

/-- One row is inserted; references are checked at the statement's end. -/
def insert (t : TableSchema) (row : Row) (db : Database) : Except SqlError Database := do
  require (t.RowOk row) .row
  require (∀ other ∈ db t.name, ¬ t.Clash other row) .unique
  let after := put db t.name (db t.name ++ [row])
  require (t.Referenced after row) .foreignKey
  return after

variable {db : Database} {name other : String} {rows rows' : List Row}

@[simp] lemma put_self : put db name rows name = rows := if_pos rfl

lemma put_of_ne (ha : other ≠ name) : put db name rows other = db other := if_neg ha

@[simp] lemma put_put : put (put db name rows) name rows' = put db name rows' := by
  funext other
  by_cases hh : other = name <;> simp [put, hh]

@[simp] lemma put_same : put db name (db name) = db := by
  funext other
  by_cases hh : other = name <;> simp [put, hh]

lemma insert_ok {t row} (ok : t.RowOk row) (ha : ∀ other ∈ db t.name, ¬ t.Clash other row)
    (hp : t.Referenced (put db t.name (db t.name ++ [row])) row) :
    insert t row db = .ok (put db t.name (db t.name ++ [row])) := by
  simp [insert, ok, hp, require, if_pos ha]

/-- The database meets the table's constraints. -/
structure TableIntact (t : TableSchema) (db : Database) : Prop where
  rows : ∀ row ∈ db t.name, t.RowOk row
  keys : (db t.name).Pairwise fun a b => ¬ t.Clash a b
  references : ∀ row ∈ db t.name, t.Referenced db row
  count : (db t.name).length < 2 ^ 63

end Sqlite
