import HopNet.Lib.Table
import HopNet.Snapshot.Content

namespace HopNet

open Fallible Sqlite ByteReader SnapshotReader List Value Reads TableSchema

variable {schema : Schema} {db : Database} {table : TableSpec} {t : TableSchema}
  {columns : List String} {row : Row} {spec : SectionSpec}

/-- The row that an import makes of an exported row. -/
def restored (t : TableSchema) (columns : List String) (row : Row) : Row :=
  t.rowOf columns (exportRow columns row)

lemma restored_exported {c : String} (hc : c ∈ columns) :
    restored t columns row c = (row c).canonical := by
  rw [restored, TableSchema.rowOf, exportRow, lookup_zip_map, if_pos hc]
  rfl

lemma restored_excluded {c : String} (he : c ∉ columns) :
    restored t columns row c = t.defaultOf c := by
  rw [restored, TableSchema.rowOf, exportRow, lookup_zip_map, if_neg he]
  rfl

lemma restored_agrees : AgreeOn columns (restored t columns row) row := by
  intro c hc
  rw [restored_exported hc, sortKey_canonical]

lemma exportRow_restored : exportRow columns (restored t columns row) = exportRow columns row := by
  refine map_congr_left fun c hc => ?_
  rw [restored_exported hc, canonical_canonical]

lemma defaultOf_column (hn : t.columnNames.Nodup) {column} (ht : column ∈ t.columns) :
    t.defaultOf column.name = column.default := by
  rw [defaultOf, Table.find?_of_mem hn ht rfl]
  rfl

section

variable (ok : Exportable t table) (exported : ∀ c, c ∈ columns ↔ c ∈ exportedNames t table)
include ok exported

lemma restored_rowOk (rowOk : t.RowOk row) : t.RowOk (restored t columns row) := by
  refine ⟨fun column inTable => ?_, fun check inChecks => ?_⟩
  · obtain ⟨notNull, rowid, fits⟩ := rowOk.1 column inTable
    by_cases excluded : column.name ∈ table.excludedColumns
    · have out : column.name ∉ columns := by
        intro isColumn
        obtain ⟨other, kept, same⟩ := mem_map.1 ((exported _).1 isColumn)
        have notExcluded : other.name ∉ table.excludedColumns := by
          simpa using (mem_filter.1 kept).2
        exact notExcluded (same ▸ excluded)
      obtain ⟨given, noRowid, short⟩ := ok.optional column inTable excluded
      rw [restored_excluded out, defaultOf_column ok.columns inTable, noRowid]
      exact ⟨given, fun impossible => (nomatch impossible), short⟩
    · have isColumn : column.name ∈ columns :=
        (exported _).2 (mem_map.2 ⟨column, mem_filter.2 ⟨inTable, by simpa using excluded⟩, rfl⟩)
      rw [restored_exported isColumn]
      refine ⟨fun must => mt canonical_eq_null.1 (notNull must), fun must => ?_,
        fits_canonical.2 fits⟩
      cases value : row column.name <;> simp_all [canonical]
  · have same : check.eval (restored t columns row) = check.eval row :=
      Cond.eval_congr fun c inCheck => restored_agrees c
        ((exported c).2 (ok.checks check inChecks c inCheck))
    rw [same]
    exact rowOk.2 check inChecks

lemma restored_clash {other} :
    t.Clash (restored t columns row) (restored t columns other) ↔ t.Clash row other := by
  have reads : ∀ key ∈ t.keys, ∀ c ∈ key.reads, c ∈ columns := by
    intro key inKeys c read
    rw [exported]
    rcases mem_cons.1 inKeys with rfl | unique
    · rw [UniqueKey.reads, Option.map_none, Option.getD_none, append_nil] at read
      exact ok.keyExported c read
    · exact ok.uniques key unique c read
  refine exists_congr fun key => and_congr_right fun inKeys => ?_
  exact UniqueKey.clash_congr (fun c read => restored_agrees c (reads key inKeys c read))
    fun c read => restored_agrees c (reads key inKeys c read)

end

/-- The rows that the import leaves in a table. -/
def imageOf (schema : Schema) (db : Database) (table : TableSpec) : List Row :=
  match schema.table? table.name with
  | some t =>
    (rowsByKey (keyColumns schema table) (db table.name)).map
      (restored t (exportColumns schema table))
  | none => []

lemma imageOf_eq (hf : schema.table? table.name = some t) :
    imageOf schema db table = (contentOf schema db table).rows.map
    (t.rowOf (exportColumns schema table)) := by
  rw [imageOf, hf, contentOf, map_map]
  rfl

lemma imageOf_sameRows (hf : schema.table? table.name = some t) :
    SameRows (exportColumns schema table) (db table.name) (imageOf schema db table) := by
  rw [SameRows, imageOf, hf, map_map]
  have hs : exportRow (exportColumns schema table) ∘ restored t (exportColumns schema table) =
      exportRow (exportColumns schema table) := funext fun _ => exportRow_restored
  rw [hs]
  exact ((rowsByKey_perm _ _).map _).symm

def ParentsReady (t : TableSchema) (rows : List Row) (s : Database) : Prop :=
  ∀ row ∈ rows, ∀ fk ∈ t.foreignKeys, fk.table ≠ t.name ∧ ((row fk.column).sortKey = [0] ∨
    ∃ parent ∈ s fk.table, (parent fk.parentColumn).sortKey = (row fk.column).sortKey)

def insertStep (t : TableSchema) (columns : List String) (s : Database × Nat)
    (values : List Value) : Database × Nat :=
  (put s.1 t.name (s.1 t.name ++ [t.rowOf columns values]), s.2 + 1)

lemma foldl_insertStep (t : TableSchema) (columns : List String) (rows : List (List Value))
    (s : Database × Nat) :
    rows.foldl (insertStep t columns) s =
      (put s.1 t.name (s.1 t.name ++ rows.map (t.rowOf columns)), s.2 + rows.length) := by
  induction rows generalizing s with
  | nil => simp
  | cons values rest ih =>
    rw [foldl_cons, ih, insertStep]
    simp [Nat.add_assoc, Nat.add_comm 1]

lemma table?_name (hf : schema.table? table.name = some t) : t.name = table.name :=
  by simpa using find?_some hf

lemma table?_mem {name} (hf : schema.table? name = some t) : t ∈ schema :=
  mem_of_find?_eq_some hf

lemma exportedTable_ok (hn : (spec.tables.map (·.name)).Nodup)
    (he : table ∈ exportedTables spec) : exportedTable spec table.name = .ok table := by
  obtain ⟨hs, hex⟩ := mem_filter.1 he
  have hso : (spec.tables.find? fun t => t.role = .exported ∧ t.name = table.name).isSome :=
    find?_isSome.2 ⟨table, hs, by simpa using hex⟩
  obtain ⟨other, ho⟩ := Option.isSome_iff_exists.1 hso
  have hsn : other.name = table.name := by
    have hb := find?_some ho
    simp only [decide_eq_true_eq] at hb
    exact hb.2
  have same := inj_on_of_nodup_map hn (mem_of_find?_eq_some ho) hs hsn
  rw [exportedTable, ho, same]

variable (found : schema.table? table.name = some t) (ok : Exportable t table)
  (intact : TableIntact t db)
include found ok intact

lemma insert_restored {s state before after}
    (inOrder : rowsByKey (keyColumns schema table) (db table.name) = before ++ row :: after)
    (ready : ParentsReady t (db table.name) s)
    (here : state t.name = before.map (restored t (exportColumns schema table)))
    (elsewhere : ∀ other ≠ t.name, state other = s other) :
    Sqlite.insert t (restored t (exportColumns schema table) row) state =
      .ok (put state t.name (state t.name ++ [restored t (exportColumns schema table) row])) := by
  have name := table?_name found
  have exported : ∀ c, c ∈ exportColumns schema table ↔ c ∈ exportedNames t table :=
    fun c => mem_exportColumns found
  have perm := rowsByKey_perm (keyColumns schema table) (db table.name)
  rw [inOrder] at perm
  have inTable : row ∈ db table.name := perm.mem_iff.1 (by simp)
  have apart : (before ++ row :: after).Pairwise fun a b => ¬ t.Clash a b := by
    have keys := intact.keys
    rw [name] at keys
    exact (perm.pairwise_iff fun {a b} differ clash => differ clash.symm).2 keys
  refine insert_ok (restored_rowOk ok exported (intact.rows row (name ▸ inTable)))
    (fun other inState => ?_) fun fk isKey => ?_
  · rw [here] at inState
    obtain ⟨source, inBefore, rfl⟩ := mem_map.1 inState
    rw [restored_clash ok exported]
    exact (pairwise_append.1 apart).2.2 source inBefore row mem_cons_self
  · obtain ⟨parentApart, reference⟩ := ready row inTable fk isKey
    rw [put_of_ne parentApart, elsewhere fk.table parentApart,
      restored_agrees fk.column ((exported _).2 (ok.references fk isKey))]
    exact reference

lemma insertValues_ok {s} (fresh : s table.name = [])
    (ready : ParentsReady t (db table.name) s) {done rest values} {n : Nat}
    (split : (contentOf schema db table).rows = done ++ values :: rest) :
    insertValues schema ⟨table.name, exportColumns schema table, n⟩
        (done.foldl (insertStep t (exportColumns schema table)) (s, 0)) values =
      .ok (insertStep t (exportColumns schema table)
        (done.foldl (insertStep t (exportColumns schema table)) (s, 0)) values) := by
  -- The decoded rows are the exported parts of the rows in their order.
  obtain ⟨before, tail, inOrder, rfl, tail_⟩ := map_eq_append_iff.1 split
  obtain ⟨row, after, rfl, rfl, _⟩ := map_eq_cons_iff.1 tail_
  have inserted : Sqlite.insert t (restored t (exportColumns schema table) row)
      (put s t.name (s t.name ++ before.map (restored t (exportColumns schema table)))) = .ok _ :=
    insert_restored found ok intact inOrder ready
      (by rw [put_self, table?_name found, fresh, nil_append]) fun other apart => put_of_ne apart
  rw [foldl_insertStep, insertValues, found, map_map]
  show (Except.mapError SnapshotError.db
    (Sqlite.insert t (restored t (exportColumns schema table) row)
    (put s t.name (s t.name ++ before.map (restored t (exportColumns schema table))))) >>= _) = _
  rw [inserted]
  rfl

lemma contentOf_ok (numbers : NoNan schema db table) : (contentOf schema db table).Ok := by
  have name := table?_name found
  have exported : ∀ c ∈ exportColumns schema table, c ∈ t.columnNames := by
    intro c isColumn
    obtain ⟨column, kept, rfl⟩ := mem_map.1 ((mem_exportColumns found).1 isColumn)
    exact mem_map_of_mem (mem_filter.1 kept).1
  have length : (exportColumns schema table).length ≤ t.columns.length := by
    rw [exportColumns, sortNames, length_insertionSort, length_map, tableInfo_of_table found]
    exact length_filter_le _ _
  refine ⟨ok.name, fun c isColumn => ok.names c (exported c isColumn), fun none_ => ?_,
    Nat.lt_of_le_of_lt length ok.few, ?_, fun row inRows => ?_, fun row inRows v isValue => ?_⟩
  · obtain ⟨c, inKey⟩ := exists_mem_of_ne_nil _ ok.key
    have isColumn := (mem_exportColumns found).2 (ok.keyExported c inKey)
    have none_ : exportColumns schema table = [] := none_
    rw [none_] at isColumn
    cases isColumn
  · have count := intact.count
    rw [contentOf, length_map, (rowsByKey_perm _ _).length_eq, ← name]
    omega
  · obtain ⟨source, _, rfl⟩ := mem_map.1 inRows
    exact length_map _
  · obtain ⟨source, inOrder, rfl⟩ := mem_map.1 inRows
    obtain ⟨c, isColumn, rfl⟩ := mem_map.1 isValue
    have inTable := mem_rowsByKey.1 inOrder
    obtain ⟨column, isIn, rfl⟩ := mem_map.1 (exported c isColumn)
    have fits := ((intact.rows source (name ▸ inTable)).1 column isIn).2.2
    refine ⟨canonical_canonical, ?_, fits_canonical.2 fits⟩
    exact not_isNan_canonical (numbers source inTable _ isColumn)

/-- A table's unit is imported where its parents are and none of its rows. -/
lemma reads_importTable (numbers : NoNan schema db table)
    (names : (spec.tables.map (·.name)).Nodup) (isExported : table ∈ exportedTables spec)
    {s} (fresh : s.1 table.name = []) (notYet : table.name ∉ s.2.tables.map (·.1))
    (ready : ParentsReady t (db table.name) s.1) :
    Reads (importTable schema spec s) (contentOf schema db table).bytes
      (put s.1 table.name (imageOf schema db table),
        { s.2 with tables := s.2.tables ++ [(table.name, (db table.name).length)] }) := by
  have content := contentOf_ok found ok intact numbers
  have rows : Reads (walkTableRows ⟨table.name, exportColumns schema table, _⟩
      (insertValues schema ⟨table.name, exportColumns schema table,
        (contentOf schema db table).rows.length⟩)
      (s.1, 0)) _ _ :=
    reads_tableRows content (insertStep t (exportColumns schema table)) (s.1, 0)
      fun done values rest split => insertValues_ok found ok intact fresh ready split
  rw [foldl_insertStep, table?_name found, fresh, nil_append, ← imageOf_eq found] at rows
  have total : 0 + (contentOf schema db table).rows.length = (db table.name).length := by
    rw [Nat.zero_add, contentOf, length_map, (rowsByKey_perm _ _).length_eq]
  refine (reads_tableHeader content.name content.columns content.some_ content.few
    content.count).bind ?_
  refine (lift (exportedTable_ok names isExported)).bind_nil ?_
  refine require notYet ?_
  refine (lift (canonicalColumns_ok found ok)).bind_nil ?_
  refine require rfl (require fresh (rows.bind_last ?_))
  rw [← total]
  exact pure _

end HopNet
