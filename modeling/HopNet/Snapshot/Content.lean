import HopNet.Snapshot.Reading

namespace HopNet

open Fallible Sqlite List

variable {schema : Schema} {db : Database} {table : TableSpec} {t : TableSchema} {c : String}

/-- The exported columns, in no particular order. -/
def exportedNames (t : TableSchema) (table : TableSpec) : List String :=
  (t.columns.filter (·.name ∉ table.excludedColumns)).map (·.name)

/-- A table the format can carry: constraints look at exported columns only, and a row without the
excluded ones is a row. -/
@[mk_iff]
structure Exportable (t : TableSchema) (table : TableSpec) : Prop where
  columns : t.columnNames.Nodup
  excluded : ∀ c ∈ table.excludedColumns, c ∈ t.columnNames
  key : t.primaryKey ≠ []
  keyExported : ∀ c ∈ t.primaryKey, c ∈ exportedNames t table
  uniques : ∀ key ∈ t.uniques, ∀ c ∈ key.reads, c ∈ exportedNames t table
  checks : ∀ check ∈ t.checks, ∀ c ∈ check.columns, c ∈ exportedNames t table
  references : ∀ fk ∈ t.foreignKeys, fk.column ∈ exportedNames t table
  optional : ∀ column ∈ t.columns, column.name ∈ table.excludedColumns →
    (column.notNull → column.default ≠ .null) ∧ column.rowid = false ∧ column.default.Fits
  name : ShortName table.name
  names : ∀ c ∈ t.columnNames, ShortName c
  few : t.columns.length < 2 ^ 32

instance : Decidable (Exportable t table) := decidable_of_iff _ (exportable_iff t table).symm

def exportColumns (schema : Schema) (table : TableSpec) : List String :=
  sortNames (((tableInfo schema table.name).filter (·.name ∉ table.excludedColumns)).map (·.name))

def keyColumns (schema : Schema) (table : TableSpec) : List String :=
  sortNames (((tableInfo schema table.name).filter (·.pk)).map (·.name))

lemma mem_sortNames {names} : c ∈ sortNames names ↔ c ∈ names :=
  (perm_insertionSort _ names).mem_iff

section

variable (hf : schema.table? table.name = some t)
include hf

lemma tableInfo_of_table : tableInfo schema table.name = t.columns := by
  rw [tableInfo, hf]
  rfl

lemma mem_exportColumns : c ∈ exportColumns schema table ↔ c ∈ exportedNames t table := by
  rw [exportColumns, mem_sortNames, tableInfo_of_table hf]
  exact Iff.rfl

lemma mem_keyColumns : c ∈ keyColumns schema table ↔ c ∈ t.primaryKey := by
  rw [keyColumns, mem_sortNames, tableInfo_of_table hf]
  exact Iff.rfl

lemma canonicalColumns_ok (ok : Exportable t table) :
    canonicalColumns schema table = .ok (exportColumns schema table, keyColumns schema table) := by
  have hi := tableInfo_of_table hf
  have excluded : (table.excludedColumns.forM fun excluded =>
      require (excluded ∈ (tableInfo schema table.name).map (·.name))
        (SnapshotError.unknownExcludedColumn table.name excluded)) = .ok () := by
    refine forM_eq_ok.2 fun c he => require_eq_ok.2 ?_
    rw [hi]
    exact ok.excluded c he
  have key : require (((tableInfo schema table.name).filter (·.pk)).map (·.name) ≠ [])
      (SnapshotError.missingPrimaryKey table.name) = .ok () := by
    refine require_eq_ok.2 ?_
    rw [hi]
    exact ok.key
  rw [canonicalColumns, excluded]
  simp only [bind, Except.bind, key]
  rfl

end

def exportRow (columns : List String) (row : Row) : List Value :=
  columns.map fun c => (row c).canonical

/-- What the artifact holds of a table. -/
def contentOf (schema : Schema) (db : Database) (table : TableSpec) : TableContent :=
  ⟨table.name, exportColumns schema table,
    (rowsByKey (keyColumns schema table) (db table.name)).map
      (exportRow (exportColumns schema table))⟩

lemma rowsByKey_perm (pk : List String) (rows : List Row) : (rowsByKey pk rows).Perm rows :=
  perm_insertionSort _ rows

lemma mem_rowsByKey {pk rows row} : row ∈ rowsByKey pk rows ↔ row ∈ rows :=
  (rowsByKey_perm pk rows).mem_iff

lemma encodeValue_ok {name column v} (hn : ¬ v.IsNan) :
    encodeValue name column v = .ok (valueBytes v.canonical) := by
  cases v with
  | real bits => exact if_neg hn
  | null | integer n | text bytes | blob bytes => rfl

/-- No exported value is a NaN. -/
def NoNan (schema : Schema) (db : Database) (table : TableSpec) : Prop :=
  ∀ row ∈ db table.name, ∀ c ∈ exportColumns schema table, ¬ (row c).IsNan
deriving Decidable

variable (blake3 : Bytes → Blake3Hash)

def manifestOf (table : TableSpec) (c : TableContent) : TableManifest :=
  ⟨table.name, table.role, c.rows.length, blake3 (domainTable ++ c.bytes), table.excludedColumns⟩

/-- A table's bytes and its manifest. -/
def walkOf (schema : Schema) (db : Database) (table : TableSpec) : Bytes × TableManifest :=
  let c := contentOf schema db table
  (c.bytes, manifestOf blake3 table c)

lemma walkTable_ok (hf : schema.table? table.name = some t) (ok : Exportable t table)
    (hn : NoNan schema db table) :
    walkTable blake3 schema db table = .ok (walkOf blake3 schema db table) := by
  have hv : ∀ row ∈ rowsByKey (keyColumns schema table) (db table.name),
      ((exportColumns schema table).mapM fun c => encodeValue table.name c (row c)) =
        .ok ((exportRow (exportColumns schema table) row).map valueBytes) := by
    intro row ht
    rw [exportRow, map_map]
    exact mapM_eq_map fun c hc => encodeValue_ok (hn row (mem_rowsByKey.1 ht) c hc)
  have hb : ((rowsByKey (keyColumns schema table) (db table.name)).map fun row =>
      (exportRow (exportColumns schema table) row).map valueBytes).flatten.flatten =
      (contentOf schema db table).rows.flatMap rowBytes := by
    rw [contentOf, flatMap_map, flatten_flatten, map_map]
    rfl
  have hco : (contentOf schema db table).rows.length = (db table.name).length := by
    rw [contentOf, length_map, (rowsByKey_perm _ _).length_eq]
  rw [walkTable, canonicalColumns_ok hf ok]
  simp only [bind, Except.bind, mapM_eq_map hv, hb, walkOf, manifestOf, TableContent.bytes, hco]
  rfl

def sectionOf (schema : Schema) (db : Database) (spec : SectionSpec) : SectionContent :=
  ⟨spec.name, spec.formatVersion, (exportedTables spec).map (contentOf schema db)⟩

def Walkable (schema : Schema) (db : Database) (tables : List TableSpec) : Prop :=
  ∀ table ∈ tables, (∃ t ∈ schema.table? table.name, Exportable t table) ∧ NoNan schema db table

def sectionHashOf (c : SectionContent) : Blake3Hash :=
  blake3 (domainSection ++ c.header ++ c.tables.flatMap fun table =>
    (blake3 (domainTable ++ table.bytes)).bytes)

def sectionManifestOf (schema : Schema) (db : Database) (spec : SectionSpec) : SectionManifest :=
  ⟨spec.name, spec.formatVersion, sectionHashOf blake3 (sectionOf schema db spec),
    spec.tables.map fun table => (walkOf blake3 schema db table).2⟩

lemma walkSection_ok {spec} (hw : Walkable schema db spec.tables) :
    walkSection blake3 schema db spec =
    .ok ((sectionOf schema db spec).bytes, sectionManifestOf blake3 schema db spec) := by
  have walked : spec.tables.mapM (walkTable blake3 schema db) =
      .ok (spec.tables.map (walkOf blake3 schema db)) := by
    refine mapM_eq_map fun table hs => ?_
    obtain ⟨⟨t, hf, ok⟩, hn⟩ := hw table hs
    exact walkTable_ok blake3 hf ok hn
  have header : sectionHeader spec = (sectionOf schema db spec).header := by
    rw [sectionHeader, SectionContent.header, sectionOf, length_map]
  have he : (spec.tables.map (walkOf blake3 schema db)).filter (·.2.role = .exported) =
      (exportedTables spec).map (walkOf blake3 schema db) := by
    rw [filter_map]
    rfl
  rw [walkSection, walked]
  simp only [bind, Except.bind, he, header, flatMap_map, map_map]
  rw [sectionManifestOf, sectionHashOf, SectionContent.bytes, sectionOf, flatMap_map, flatMap_map]
  rfl

def topHashOf (contents : List SectionContent) : Blake3Hash :=
  blake3 (domainTop ++ leBytes 4 artifactVersion ++ leBytes 4 contents.length ++
    contents.flatMap fun c => writeName c.name ++ leBytes 4 c.formatVersion ++
      (sectionHashOf blake3 c).bytes)

/-- Artifact and top hash are those of the content. -/
lemma serializeSnapshot_ok {sections} (hw : Walkable schema db (sections.flatMap (·.tables))) :
    ∃ manifest, serializeSnapshot blake3 schema db sections =
        .ok (artifactBytes (sections.map (sectionOf schema db)), manifest) ∧
      manifest.topHash = topHashOf blake3 (sections.map (sectionOf schema db)) := by
  have hwa := mapM_eq_map fun spec hs => walkSection_ok blake3 fun table hsp =>
    hw table (mem_flatMap.2 ⟨spec, hs, hsp⟩)
  refine ⟨⟨artifactVersion,
    computeTopHash blake3 (sections.map (sectionManifestOf blake3 schema db)),
    sections.map (sectionManifestOf blake3 schema db)⟩, ?_, ?_⟩
  · rw [serializeSnapshot, hwa, artifactBytes, length_map, flatMap_map]
    simp only [bind, Except.bind, map_map, flatMap_map]
    rfl
  · rw [topHashOf, computeTopHash, length_map, length_map, flatMap_map, flatMap_map]
    rfl

variable {pk columns : List String}

instance : Std.Total fun a b : Row => keyOf pk a ≤ keyOf pk b := ⟨fun _ _ => le_total _ _⟩

instance : IsTrans Row fun a b => keyOf pk a ≤ keyOf pk b := ⟨fun _ _ _ => le_trans⟩

def rowFrom (columns : List String) (values : List Value) : Row := fun c =>
  ((columns.zip values).lookup c).getD .null

lemma lookup_zip_map {f : String → Value} :
    (columns.zip (columns.map f)).lookup c = if c ∈ columns then some (f c) else none := by
  induction columns with
  | nil => rfl
  | cons column rest ih =>
    rw [map_cons, zip_cons_cons, lookup_cons, ih]
    by_cases hh : c = column
    · subst hh
      simp
    · have ha : (c == column) = false := by simpa using hh
      simp [ha, hh]

lemma rowFrom_exportRow {row} (hc : c ∈ columns) :
    rowFrom columns (exportRow columns row) c = (row c).canonical := by
  rw [rowFrom, exportRow, lookup_zip_map, if_pos hc]
  rfl

lemma keyOf_rowFrom (he : ∀ c ∈ pk, c ∈ columns) (row : Row) :
    keyOf pk (rowFrom columns (exportRow columns row)) = keyOf pk row := by
  refine map_congr_left fun c hk => ?_
  rw [rowFrom_exportRow (he c hk), Value.sortKey_canonical]

/-- The exported rows in their order depend only on which they are. -/
lemma rowsByKey_congr (he : ∀ c ∈ pk, c ∈ columns) {rows rows'} (hd : (rows.map (keyOf pk)).Nodup)
    (same : (rows.map (exportRow columns)).Perm (rows'.map (exportRow columns))) :
    (rowsByKey pk rows).map (exportRow columns) = (rowsByKey pk rows').map (exportRow columns) := by
  have hs : ∀ rows : List Row, ((rowsByKey pk rows).map (exportRow columns)).Pairwise
      fun x y => keyOf pk (rowFrom columns x) ≤ keyOf pk (rowFrom columns y) := by
    intro rows
    rw [pairwise_map]
    refine (pairwise_insertionSort _ rows).imp fun {a b} le => ?_
    rwa [keyOf_rowFrom he, keyOf_rowFrom he]
  have hp : ∀ rows : List Row,
      ((rowsByKey pk rows).map (exportRow columns)).Perm (rows.map (exportRow columns)) :=
    fun rows => (rowsByKey_perm pk rows).map _
  have hk : ((rows.map (exportRow columns)).map fun x => keyOf pk (rowFrom columns x)).Nodup := by
    have key : (fun x => keyOf pk (rowFrom columns x)) ∘ exportRow columns = keyOf pk :=
      funext (keyOf_rowFrom he)
    rwa [map_map, key]
  refine List.Perm.eq_of_pairwise (fun x y inX inY le ge => ?_) (hs rows) (hs rows')
    ((hp rows).trans (same.trans (hp rows').symm))
  have inX' := (hp rows).mem_iff.1 inX
  have inY' := same.mem_iff.2 ((hp rows').mem_iff.1 inY)
  exact inj_on_of_nodup_map hk inX' inY' (le_antisymm le ge)

/-- The primary keys of the rows differ. -/
def DistinctKeys (schema : Schema) (db : Database) (table : TableSpec) : Prop :=
  ((db table.name).map (keyOf (keyColumns schema table))).Nodup
deriving Decidable

/-- Equal exported rows, up to their order. -/
def SameRows (columns : List String) (rows rows' : List Row) : Prop :=
  (rows.map (exportRow columns)).Perm (rows'.map (exportRow columns))

variable {schema' : Schema} {db' : Database}
  (sameColumns : exportColumns schema' table = exportColumns schema table)
include sameColumns

lemma sameRows_of_contentOf (same : contentOf schema db table = contentOf schema' db' table) :
    SameRows (exportColumns schema table) (db table.name) (db' table.name) := by
  have rows := (TableContent.mk.inj same).2.2
  rw [sameColumns] at rows
  exact ((rowsByKey_perm _ _).map _).symm.trans
    ((List.Perm.of_eq rows).trans ((rowsByKey_perm _ _).map _))

lemma contentOf_congr (found : schema.table? table.name = some t) (ok : Exportable t table)
    (sameKey : keyColumns schema' table = keyColumns schema table)
    (distinct : DistinctKeys schema db table)
    (same : SameRows (exportColumns schema table) (db table.name) (db' table.name)) :
    contentOf schema db table = contentOf schema' db' table := by
  have exported : ∀ c ∈ keyColumns schema table, c ∈ exportColumns schema table := fun c inKey =>
    (mem_exportColumns found).2 (ok.keyExported c ((mem_keyColumns found).1 inKey))
  rw [contentOf, contentOf, sameColumns, sameKey, rowsByKey_congr exported distinct same]

end HopNet
