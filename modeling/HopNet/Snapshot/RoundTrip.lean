import HopNet.Snapshot.Registry

namespace HopNet

open Fallible Sqlite List UInt8

/-- The same table with its columns declared in another order. -/
structure SameTable (t t' : TableSchema) : Prop where
  name : t'.name = t.name
  columns : t'.columns.Perm t.columns
  uniques : t'.uniques = t.uniques
  checks : t'.checks = t.checks
  foreignKeys : t'.foreignKeys = t.foreignKeys

/-- The same tables with their columns declared in another order. -/
def Reordered (schema schema' : Schema) : Prop := List.Forall₂ SameTable schema schema'

lemma Reordered.refl (schema : Schema) : Reordered schema schema :=
  List.forall₂_same.2 fun _ _ => ⟨rfl, .refl _, rfl, rfl, rfl⟩

section

variable {t t' : TableSchema} {table : TableSpec} (same : SameTable t t')
include same

lemma SameTable.mem_columnNames {c : String} : c ∈ t'.columnNames ↔ c ∈ t.columnNames :=
  (same.columns.map _).mem_iff

lemma SameTable.primaryKey_perm : t'.primaryKey.Perm t.primaryKey := (same.columns.filter _).map _

lemma SameTable.exportedNames_perm : (exportedNames t' table).Perm (exportedNames t table) :=
  (same.columns.filter _).map _

lemma SameTable.mem_exportedNames {c : String} :
    c ∈ exportedNames t' table ↔ c ∈ exportedNames t table :=
  same.exportedNames_perm.mem_iff

lemma Exportable.reordered (ok : Exportable t table) : Exportable t' table where
  columns := (same.columns.map _).nodup_iff.2 ok.columns
  excluded c isExcluded := same.mem_columnNames.2 (ok.excluded c isExcluded)
  key none_ := ok.key (List.Perm.eq_nil (none_ ▸ same.primaryKey_perm.symm))
  keyExported c inKey :=
    same.mem_exportedNames.2 (ok.keyExported c (same.primaryKey_perm.mem_iff.1 inKey))
  uniques key isKey c read :=
    same.mem_exportedNames.2 (ok.uniques key (same.uniques ▸ isKey) c read)
  checks check hc c read := same.mem_exportedNames.2 (ok.checks check (same.checks ▸ hc) c read)
  references fk isKey := same.mem_exportedNames.2 (ok.references fk (same.foreignKeys ▸ isKey))
  optional column inTable := ok.optional column (same.columns.mem_iff.1 inTable)
  name := ok.name
  names c isName := ok.names c (same.mem_columnNames.1 isName)
  few := same.columns.length_eq ▸ ok.few

end

lemma Reordered.table? {schema schema'} (same : Reordered schema schema') {name t}
    (hfo : schema.table? name = some t) : ∃ t', schema'.table? name = some t' ∧ SameTable t t' := by
  induction same with
  | nil => cases hfo
  | @cons first first' rest rest' hh _ ih =>
    by_cases ht : first.name = name
    · have hf : first = t := by simpa [Schema.table?, ht] using hfo
      subst hf
      exact ⟨first', by simp [Schema.table?, hh.name, ht], hh⟩
    · have hl : Schema.table? rest name = some t := by simpa [Schema.table?, ht] using hfo
      obtain ⟨t', hf', hs⟩ := ih hl
      exact ⟨t', by simpa [Schema.table?, hh.name, ht] using hf', hs⟩

lemma nameBytes_inj {a b : String} (same : (nameBytes a).map toNat = (nameBytes b).map toNat) :
    a = b := by
  have hb : nameBytes a = nameBytes b :=
    map_injective_iff.2 (fun _ _ hs => UInt8.toNat_inj.1 hs) same
  have ha : a.toByteArray.data = b.toByteArray.data := Array.toList_inj.1 hb
  exact String.toByteArray_inj.1 (ByteArray.ext ha)

instance : Std.Total fun a b : String => (nameBytes a).map toNat ≤ (nameBytes b).map toNat :=
  ⟨fun _ _ => le_total _ _⟩

instance : IsTrans String fun a b => (nameBytes a).map toNat ≤ (nameBytes b).map toNat :=
  ⟨fun _ _ _ => le_trans⟩

lemma sortNames_perm {names names'} (hp : names.Perm names') :
    sortNames names = sortNames names' := by
  refine List.Perm.eq_of_pairwise (fun a b _ _ le ge => nameBytes_inj (le_antisymm le ge))
    (pairwise_insertionSort _ names) (pairwise_insertionSort _ names') ?_
  exact (perm_insertionSort _ names).trans (hp.trans (perm_insertionSort _ names').symm)

variable {schema schema' : Schema} {sections : List SectionSpec}

section

variable (same : Reordered schema schema')
include same

lemma Reordered.columns {table t} (hf : schema.table? table.name = some t) :
    exportColumns schema' table = exportColumns schema table ∧
      keyColumns schema' table = keyColumns schema table := by
  obtain ⟨t', hf', hs⟩ := same.table? hf
  rw [exportColumns, exportColumns, keyColumns, keyColumns, tableInfo_of_table hf,
    tableInfo_of_table hf']
  exact ⟨sortNames_perm hs.exportedNames_perm, sortNames_perm hs.primaryKey_perm⟩

lemma ParentsFirst.reordered {earlier tables}
    (hp : ∀ table ∈ tables, ∃ t, schema.table? table.name = some t)
    (hfi : ParentsFirst schema earlier tables) : ParentsFirst schema' earlier tables := by
  induction tables generalizing earlier with
  | nil => trivial
  | cons table rest ih =>
    refine ⟨fun t' hfo' fk hk => ?_, ih (fun other hr => hp other (mem_cons_of_mem _ hr)) hfi.2⟩
    obtain ⟨t, hfo⟩ := hp table mem_cons_self
    obtain ⟨other, ho, hst⟩ := same.table? hfo
    have ht : other = t' := Option.some.inj (ho.symm.trans hfo')
    subst ht
    obtain ⟨parent, hpa, hn, p, hf, he⟩ :=
      hfi.1 t hfo fk (hst.foreignKeys ▸ hk)
    obtain ⟨p', hf', hs⟩ := same.table? hf
    exact ⟨parent, hpa, hn, p', hf', hs.mem_exportedNames.2 he⟩

lemma Carried.reordered (hc : Carried schema sections) : Carried schema' sections where
  sectionNames := hc.sectionNames
  tableNames := hc.tableNames
  headers := hc.headers
  few := hc.few
  tables table inSections := by
    obtain ⟨t, hf, ok⟩ := hc.tables table inSections
    obtain ⟨t', hf', hs⟩ := same.table? hf
    exact ⟨t', hf', ok.reordered hs⟩
  parents := by
    refine ParentsFirst.reordered same (fun table ht => ?_) hc.parents
    obtain ⟨spec, inSections, he⟩ := mem_flatMap.1 ht
    obtain ⟨t, hf, _⟩ := hc.tables table (mem_flatMap.2 ⟨spec, inSections, (mem_filter.1 he).1⟩)
    exact ⟨t, hf⟩

end

/-- The exported rows agree, up to their order and to negative zero. -/
def SameExport (schema : Schema) (sections : List SectionSpec) (db db' : Database) : Prop :=
  ∀ table ∈ sections.flatMap exportedTables,
    SameRows (exportColumns schema table) (db table.name) (db' table.name)

variable {db : Database}

section

variable {db' : Database} (carried : Carried schema sections)
include carried

lemma Carried.exported_table {table} (inTables : table ∈ sections.flatMap exportedTables) :
    ∃ t, schema.table? table.name = some t ∧ Exportable t table := by
  obtain ⟨spec, inSections, isExported⟩ := mem_flatMap.1 inTables
  exact carried.tables table (mem_flatMap.2 ⟨spec, inSections, (mem_filter.1 isExported).1⟩)

lemma sectionOf_ok (sealable : Sealable schema sections db) :
    ∀ c ∈ sections.map (sectionOf schema db), c.Ok := by
  intro c inContents
  obtain ⟨spec, inSections, rfl⟩ := mem_map.1 inContents
  obtain ⟨short, version, few⟩ := carried.headers spec inSections
  refine ⟨short, version, ?_, fun content inTables => ?_⟩
  · rw [sectionOf, length_map]
    exact Nat.lt_of_le_of_lt (length_filter_le _ _) few
  · obtain ⟨table, isExported, rfl⟩ := mem_map.1 inTables
    have inSpec : table ∈ sections.flatMap (·.tables) :=
      mem_flatMap.2 ⟨spec, inSections, (mem_filter.1 isExported).1⟩
    obtain ⟨t, found, ok⟩ := carried.tables table inSpec
    exact contentOf_ok found ok (sealable.intact t (table?_mem found))
      (sealable.numbers table inSpec)

lemma contents_congr (same : Reordered schema schema')
    (distinct : ∀ table ∈ sections.flatMap exportedTables, DistinctKeys schema db table)
    (rows : SameExport schema sections db db') :
    sections.map (sectionOf schema db) = sections.map (sectionOf schema' db') := by
  refine map_congr_left fun spec inSections => ?_
  rw [sectionOf, sectionOf]
  congr 1
  refine map_congr_left fun table isExported => ?_
  have inTables : table ∈ sections.flatMap exportedTables :=
    mem_flatMap.2 ⟨spec, inSections, isExported⟩
  obtain ⟨t, found, ok⟩ := carried.exported_table inTables
  obtain ⟨sameColumns, sameKey⟩ := same.columns found
  exact contentOf_congr sameColumns found ok sameKey (distinct table inTables) (rows table inTables)

lemma sameExport_of_contents (same : Reordered schema schema')
    (contents : sections.map (sectionOf schema db) = sections.map (sectionOf schema' db')) :
    SameExport schema sections db db' := by
  intro table inTables
  obtain ⟨spec, inSections, isExported⟩ := mem_flatMap.1 inTables
  obtain ⟨t, found, _⟩ := carried.exported_table inTables
  have tables := (SectionContent.mk.inj (map_inj_left.1 contents spec inSections)).2.2
  exact sameRows_of_contentOf (same.columns found).1 (map_inj_left.1 tables table isExported)

end

section

variable (carried : Carried schema sections)
include carried

lemma filled_sameExport :
    SameExport schema sections db (filled schema db (sections.flatMap exportedTables)) := by
  intro table inTables
  obtain ⟨t, found, _⟩ := carried.exported_table inTables
  rw [filled_of_mem carried.exported_nodup inTables]
  exact imageOf_sameRows found

lemma filled_noNan (sealable : Sealable schema sections db) : ∀ table ∈ sections.flatMap (·.tables),
    NoNan schema (filled schema db (sections.flatMap exportedTables)) table := by
  intro table inTables row inRows c isColumn
  by_cases isExported : table ∈ sections.flatMap exportedTables
  · obtain ⟨t, found, _⟩ := carried.exported_table isExported
    rw [filled_of_mem carried.exported_nodup isExported, imageOf, found] at inRows
    obtain ⟨source, inOrder, rfl⟩ := mem_map.1 inRows
    rw [restored_exported isColumn]
    exact Value.not_isNan_canonical
      (sealable.numbers table inTables source (mem_rowsByKey.1 inOrder) c isColumn)
  · have absent : table.name ∉ (sections.flatMap exportedTables).map (·.name) := by
      intro there
      obtain ⟨other, otherExported, sameName⟩ := mem_map.1 there
      obtain ⟨spec, inSections, inSpec⟩ := mem_flatMap.1 otherExported
      have otherIn : other ∈ sections.flatMap (·.tables) :=
        mem_flatMap.2 ⟨spec, inSections, (mem_filter.1 inSpec).1⟩
      exact isExported
        (inj_on_of_nodup_map carried.tableNames otherIn inTables sameName ▸ otherExported)
    rw [filled_of_not_mem absent] at inRows
    cases inRows

end

/-- A snapshot can be taken of every database over the registered sections; its import succeeds,
takes every section and gives the same artifact and top hash again. The artifact of another database
is the same exactly when the exported rows are. -/
theorem snapshot_round_trip (blake3 : Bytes → Blake3Hash) {schema : Schema} {db : Database}
    (declared : Reordered headSchema schema) (sealable : Sealable schema snapshotSections db)
    (distinct : ∀ table ∈ snapshotSections.flatMap exportedTables, DistinctKeys schema db table) :
    ∃ artifact manifest, serializeSnapshot blake3 schema db snapshotSections = .ok
    (artifact, manifest) ∧
      (∃ db' manifest', importSnapshot schema snapshotSections artifact (fun _ => []) =
          .ok (db', ⟨snapshotSections.map (importedOf db), []⟩) ∧
        serializeSnapshot blake3 schema db' snapshotSections = .ok (artifact, manifest') ∧
        manifest'.topHash = manifest.topHash) ∧
      ∀ schema₂ db₂, Reordered schema schema₂ → Sealable schema₂ snapshotSections db₂ →
        (SameExport schema snapshotSections db db₂ →
          ∃ manifest₂, serializeSnapshot blake3 schema₂ db₂ snapshotSections =
            .ok (artifact, manifest₂) ∧ manifest₂.topHash = manifest.topHash) ∧
        ∀ manifest₂, serializeSnapshot blake3 schema₂ db₂ snapshotSections =
          .ok (artifact, manifest₂) → SameExport schema snapshotSections db db₂ := by
  have hc := headSchema_carried.reordered declared
  obtain ⟨manifest, hw, top⟩ := serializeSnapshot_ok blake3 (hc.walkable sealable.numbers)
  refine ⟨_, manifest, hw, ?_, fun schema₂ db₂ hs hs2 => ?_⟩
  · obtain ⟨manifest', hw', top'⟩ :=
      serializeSnapshot_ok blake3 (hc.walkable (filled_noNan hc sealable))
    have hco := contents_congr hc (Reordered.refl schema) distinct (filled_sameExport hc)
    rw [← hco] at hw' top'
    exact ⟨_, manifest', importSnapshot_ok hc sealable, hw', top'.trans top.symm⟩
  · have hc2 := hc.reordered hs
    obtain ⟨manifest₂, hw2, ht2⟩ := serializeSnapshot_ok blake3 (hc2.walkable hs2.numbers)
    refine ⟨fun hr => ?_, fun other ho => ?_⟩
    · rw [← contents_congr hc hs distinct hr] at hw2 ht2
      exact ⟨manifest₂, hw2, ht2.trans top.symm⟩
    · have ha := congrArg Prod.fst (Except.ok.inj (ho.symm.trans hw2))
      have few : ∀ (schema : Schema) (db : Database),
          (snapshotSections.map (sectionOf schema db)).length < 2 ^ 32 := fun _ _ => by
        exact hc.few
      exact sameExport_of_contents hc hs (artifactBytes_inj (few _ _) (few _ _)
        (sectionOf_ok hc sealable) (sectionOf_ok hc2 hs2) ha)

def sampleCells (cells : List (String × Value)) : Row := fun c => (cells.lookup c).getD .null

/-- One user with one node that measured itself, its jitter negative zero. -/
def sampleReplica : Database
  | "sequences" => [sampleCells [("name", .text (nameBytes "users")), ("next_id", .integer 2)]]
  | "users" =>
    [sampleCells [("user_id", .integer 1), ("username", .text [97]), ("pubkey", .blob [1]),
      ("x25519_pubkey", .blob [2]), ("encrypted_privkey", .blob [3]), ("key_salt", .blob [4]),
      ("onboarding_flags", .integer 0)]]
  | "nodes" =>
    [sampleCells [("node_id", .integer 7), ("name", .text [110]), ("owner", .integer 1),
      ("pubkey", .blob [5])]]
  | "metrics" =>
    [sampleCells [("from_node", .integer 7), ("to_node", .integer 7), ("start_time", .text [49]),
      ("rtt_jitter", .real 0x8000000000000000), ("height", .integer 3), ("available", .integer 1)]]
  | _ => []

lemma sampleReplica_sealable : Sealable headSchema snapshotSections sampleReplica := by
  have rows : ∀ t ∈ headSchema, ∀ row ∈ sampleReplica t.name, t.RowOk row := by decide +kernel
  have hk : ∀ t ∈ headSchema, (sampleReplica t.name).Pairwise fun a b => ¬ t.Clash a b := by
    decide +kernel
  have hr : ∀ t ∈ headSchema, ∀ row ∈ sampleReplica t.name, t.Referenced sampleReplica row := by
    decide +kernel
  have hc : ∀ t ∈ headSchema, (sampleReplica t.name).length < 2 ^ 63 := by decide +kernel
  exact ⟨fun t hs => ⟨rows t hs, hk t hs, hr t hs, hc t hs⟩,
    by decide +kernel⟩

/-- The sample's snapshot comes back. -/
theorem sampleReplica_round_trip : ∃ artifact manifest,
    serializeSnapshot Primitives.sample.blake3 headSchema sampleReplica snapshotSections =
      .ok (artifact, manifest) ∧
    ∃ db', importSnapshot headSchema snapshotSections artifact (fun _ => []) =
      .ok (db', ⟨snapshotSections.map (importedOf sampleReplica), []⟩) := by
  obtain ⟨artifact, manifest, hw, ⟨db', _, hi, _⟩, _⟩ :=
    snapshot_round_trip Primitives.sample.blake3 (Reordered.refl headSchema) sampleReplica_sealable
      (by decide +kernel)
  exact ⟨artifact, manifest, hw, db', hi⟩

end HopNet
