import HopNet.Snapshot.Install

namespace HopNet

open Fallible Sqlite ByteReader SnapshotReader List

variable {schema : Schema} {db : Database} {sections : List SectionSpec} {spec : SectionSpec}
  {table : TableSpec} {tables : List TableSpec}

/-- The tables that a table refers to are exported before it. -/
def ParentsIn (schema : Schema) (earlier : List TableSpec) (table : TableSpec) : Prop :=
  ∀ t ∈ schema.table? table.name, ∀ fk ∈ t.foreignKeys, ∃ parent ∈ earlier, parent.name = fk.table ∧
    ∃ p ∈ schema.table? parent.name, fk.parentColumn ∈ exportedNames p parent

def ParentsFirst (schema : Schema) : List TableSpec → List TableSpec → Prop
  | _, [] => True
  | earlier, table :: rest => ParentsIn schema earlier table ∧
      ParentsFirst schema (earlier ++ [table]) rest

lemma ParentsFirst.parentsIn {earlier tables done rest}
    (hf : ParentsFirst schema earlier tables) (hs : tables = done ++ table :: rest) :
    ParentsIn schema (earlier ++ done) table := by
  induction done generalizing earlier tables with
  | nil =>
    subst hs
    rw [append_nil]
    exact hf.1
  | cons other done ih =>
    subst hs
    have hh := ih hf.2 rfl
    rwa [append_assoc] at hh

/-- The registered sections fit the schema. -/
structure Carried (schema : Schema) (sections : List SectionSpec) : Prop where
  sectionNames : (sections.map (·.name)).Nodup
  tableNames : ((sections.flatMap (·.tables)).map (·.name)).Nodup
  headers : ∀ spec ∈ sections, ShortName spec.name ∧ spec.formatVersion < 2 ^ 32 ∧
    spec.tables.length < 2 ^ 32
  few : sections.length < 2 ^ 32
  tables : ∀ table ∈ sections.flatMap (·.tables), ∃ t ∈ schema.table? table.name, Exportable t table
  parents : ParentsFirst schema [] (sections.flatMap exportedTables)

/-- It can be sealed: it meets its schema, and no exported value is a NaN. -/
structure Sealable (schema : Schema) (sections : List SectionSpec) (db : Database) : Prop where
  intact : ∀ t ∈ schema, TableIntact t db
  numbers : ∀ table ∈ sections.flatMap (·.tables), NoNan schema db table

lemma Carried.exported_nodup (hc : Carried schema sections) :
    ((sections.flatMap exportedTables).map (·.name)).Nodup := by
  have hf : sections.flatMap exportedTables =
      (sections.flatMap (·.tables)).filter fun table => table.role = .exported := by
    rw [filter_flatMap]
    rfl
  rw [hf]
  exact (filter_sublist.map _).nodup hc.tableNames

lemma Carried.sectionTables_nodup (hc : Carried schema sections)
    (hs : spec ∈ sections) : (spec.tables.map (·.name)).Nodup := by
  have hn := hc.tableNames
  rw [map_flatMap, nodup_flatMap] at hn
  exact hn.1 spec hs

lemma Carried.walkable (hc : Carried schema sections)
    (hn : ∀ table ∈ sections.flatMap (·.tables), NoNan schema db table) :
    Walkable schema db (sections.flatMap (·.tables)) :=
  fun table hs => ⟨hc.tables table hs, hn table hs⟩

/-- What has been imported after the tables. -/
def filled (schema : Schema) (db : Database) (tables : List TableSpec) : Database :=
  tables.foldl (fun s table => put s table.name (imageOf schema db table)) fun _ => []

lemma filled_snoc (tables : List TableSpec) (table : TableSpec) :
    filled schema db (tables ++ [table]) =
    put (filled schema db tables) table.name (imageOf schema db table) := by
  rw [filled, foldl_append]
  rfl

lemma filled_append (before tables : List TableSpec) :
    tables.foldl (fun s table => put s table.name (imageOf schema db table))
    (filled schema db before) =
      filled schema db (before ++ tables) := by
  rw [filled, filled, foldl_append]

lemma filled_of_not_mem {name} (ha : name ∉ tables.map (·.name)) :
    filled schema db tables name = [] := by
  induction tables using List.reverseRecOn with
  | nil => rfl
  | append_singleton tables table ih =>
    rw [map_append, mem_append, not_or] at ha
    rw [filled_snoc, put_of_ne (by simpa using ha.2), ih ha.1]

lemma filled_of_mem (hn : (tables.map (·.name)).Nodup)
    (ht : table ∈ tables) : filled schema db tables table.name = imageOf schema db table := by
  induction tables using List.reverseRecOn with
  | nil => cases ht
  | append_singleton tables last ih =>
    rw [map_append, nodup_append] at hn
    rw [filled_snoc]
    rcases mem_append.1 ht with hb | hl
    · have ha : table.name ≠ last.name :=
        hn.2.2 _ (mem_map_of_mem hb) _ (by simp)
      rw [put_of_ne ha, ih hn.1 hb]
    · rw [mem_singleton.1 hl, put_self]

variable (carried : Carried schema sections) (sealable : Sealable schema sections db)
  {before rest : List TableSpec}
include carried sealable

lemma parentsReady_filled {done rest t}
    (order : sections.flatMap exportedTables = done ++ table :: rest)
    (found : schema.table? table.name = some t) :
    ParentsReady t (db table.name) (filled schema db done) := by
  have names := carried.exported_nodup
  rw [order, map_append, map_cons, nodup_append] at names
  have name := table?_name found
  intro row inTable fk isKey
  obtain ⟨parent, isParent, parentName, p, foundParent, exported⟩ :=
    carried.parents.parentsIn order t found fk isKey
  have apart : fk.table ≠ t.name := by
    rw [← parentName, name]
    exact names.2.2 _ (mem_map_of_mem isParent) _ (mem_cons_self ..)
  refine ⟨apart, ?_⟩
  rcases (sealable.intact t (table?_mem found)).references row (name ▸ inTable) fk isKey
    with null | there
  · exact .inl null
  · obtain ⟨parentRow, inParent, same⟩ := there
    rw [← parentName] at inParent
    refine .inr ⟨restored p (exportColumns schema parent) parentRow, ?_, ?_⟩
    · rw [← parentName, filled_of_mem names.1 isParent, imageOf, foundParent]
      exact mem_map_of_mem (mem_rowsByKey.2 inParent)
    · rw [restored_agrees _ ((mem_exportColumns foundParent).2 exported)]
      exact same

def importStep (schema : Schema) (db : Database) (s : Database × ImportedSection)
    (table : TableSpec) : Database × ImportedSection :=
  (put s.1 table.name (imageOf schema db table),
    { s.2 with tables := s.2.tables ++ [(table.name, (db table.name).length)] })

omit carried sealable in
lemma foldl_importStep (before tables : List TableSpec) (imported : ImportedSection) :
    tables.foldl (importStep schema db) (filled schema db before, imported) =
      (filled schema db (before ++ tables),
        ⟨imported.name, imported.tables ++ tables.map fun table =>
          (table.name, (db table.name).length)⟩) := by
  induction tables generalizing before imported with
  | nil => simp
  | cons table rest ih =>
    rw [foldl_cons, importStep, ← filled_snoc, ih]
    simp

/-- What the report says of a section. -/
def importedOf (db : Database) (spec : SectionSpec) : ImportedSection :=
  ⟨spec.name, (exportedTables spec).map fun table => (table.name, (db table.name).length)⟩

lemma reads_importSection (inSections : spec ∈ sections)
    (order : sections.flatMap exportedTables = before ++ exportedTables spec ++ rest) :
    Reads (importSection schema spec (exportedTables spec).length (filled schema db before))
      ((exportedTables spec).flatMap fun table => (contentOf schema db table).bytes)
      (filled schema db (before ++ exportedTables spec), importedOf db spec) := by
  have names := carried.exported_nodup
  rw [order] at names
  have tables := Reads.iterate (importTable schema spec)
    (fun table => (contentOf schema db table).bytes)
    (importStep schema db) (exportedTables spec) (filled schema db before, ⟨spec.name, []⟩) ?_
  · rw [foldl_importStep, nil_append] at tables
    refine tables.bind_last ((Reads.lift (a := ()) ?_).bind_nil (Reads.pure _))
    refine forM_eq_ok.2 fun table isExported => require_eq_ok.2 ?_
    simp only [map_map, mem_map]
    exact ⟨table, isExported, rfl⟩
  · intro done table later split
    have isExported : table ∈ exportedTables spec := split ▸ mem_append_right done mem_cons_self
    have inTables : table ∈ sections.flatMap (·.tables) :=
      mem_flatMap.2 ⟨spec, inSections, (mem_filter.1 isExported).1⟩
    obtain ⟨t, found, ok⟩ := carried.tables table inTables
    have here : sections.flatMap exportedTables = (before ++ done) ++ table :: (later ++ rest) := by
      rw [order, split]
      simp
    rw [order.symm.trans here, map_append, map_cons, nodup_append] at names
    have fresh : table.name ∉ (before ++ done).map (·.name) := fun earlier =>
      names.2.2 _ earlier _ mem_cons_self rfl
    rw [foldl_importStep]
    refine reads_importTable found ok (sealable.intact t (table?_mem found))
      (sealable.numbers table inTables) (carried.sectionTables_nodup inSections) isExported
      (filled_of_not_mem fresh) ?_ (parentsReady_filled carried sealable here found)
    intro earlier
    rw [nil_append, map_map] at earlier
    exact fresh (by rw [map_append]; exact mem_append_right _ earlier)

def sectionStep (schema : Schema) (db : Database) (s : Database × ImportReport)
    (spec : SectionSpec) : Database × ImportReport :=
  ((exportedTables spec).foldl (fun s table => put s table.name (imageOf schema db table)) s.1,
    { s.2 with imported := s.2.imported ++ [importedOf db spec] })

lemma reads_importNext {report} (inSections : spec ∈ sections)
    (order : sections.flatMap exportedTables = before ++ exportedTables spec ++ rest) :
    Reads (importNext schema sections (expectedVersion sections) (filled schema db before, report))
      (sectionOf schema db spec).bytes
      (filled schema db (before ++ exportedTables spec),
        { report with imported := report.imported ++ [importedOf db spec] }) := by
  obtain ⟨short, version, few⟩ := carried.headers spec inSections
  have fewer : (exportedTables spec).length < 2 ^ 32 :=
    Nat.lt_of_le_of_lt (length_filter_le _ _) few
  have isSpec : sections.find? (·.name = spec.name) = some spec :=
    Table.find?_of_mem carried.sectionNames inSections rfl
  have reversed : (sections.reverse.map (·.name)).Nodup := by
    rw [map_reverse]
    exact nodup_reverse.2 carried.sectionNames
  have expected : sections.reverse.find? (·.name = spec.name) = some spec :=
    Table.find?_of_mem reversed (mem_reverse.2 inSections) rfl
  have kept : skipReason sections (expectedVersion sections) spec.name spec.formatVersion =
      none := by
    rw [skipReason, isSpec, expectedVersion, expected]
    simp
  rw [SectionContent.bytes, SectionContent.header, sectionOf, length_map, flatMap_map,
    append_assoc, append_assoc]
  refine (reads_name short).bind ((reads_u32 version).bind ((reads_u32 fewer).bind ?_))
  rw [kept, isSpec]
  exact (reads_importSection carried sealable inSections order).bind_last (Reads.pure _)

omit carried sealable in
lemma foldl_sectionStep (specs : List SectionSpec) (before : List TableSpec)
    (report : ImportReport) :
    specs.foldl (sectionStep schema db) (filled schema db before, report) =
      (filled schema db (before ++ specs.flatMap exportedTables),
        ⟨report.imported ++ specs.map (importedOf db), report.skipped⟩) := by
  induction specs generalizing before report with
  | nil => simp
  | cons spec rest ih =>
    rw [foldl_cons, sectionStep, filled_append, ih]
    simp

lemma reads_importSections :
    Reads (importSections schema sections (expectedVersion sections) fun _ => [])
    (leBytes 4 artifactVersion ++ (leBytes 4 sections.length ++
      sections.flatMap fun spec => (sectionOf schema db spec).bytes))
    (filled schema db (sections.flatMap exportedTables), ⟨sections.map (importedOf db), []⟩) := by
  refine (reads_u32 (by decide)).bind (Reads.require rfl ((reads_u32 carried.few).bind ?_))
  have all := Reads.iterate (importNext schema sections (expectedVersion sections))
    (fun spec => (sectionOf schema db spec).bytes) (sectionStep schema db) sections
    (filled schema db [], ⟨[], []⟩) ?_
  · rw [foldl_sectionStep] at all
    exact all
  · intro done spec rest split
    have inSections : spec ∈ sections := split ▸ mem_append_right done mem_cons_self
    have order : sections.flatMap exportedTables =
        done.flatMap exportedTables ++ exportedTables spec ++ rest.flatMap exportedTables := by
      rw [split]
      simp
    rw [foldl_sectionStep, sectionStep, filled_append, nil_append]
    exact reads_importNext carried sealable inSections order

lemma importSnapshot_ok :
    importSnapshot schema sections (artifactBytes (sections.map (sectionOf schema db)))
    (fun _ => []) =
      .ok (filled schema db (sections.flatMap exportedTables),
        ⟨sections.map (importedOf db), []⟩) := by
  have read := reads_importSections carried sealable magic []
  have bytes : artifactBytes (sections.map (sectionOf schema db)) =
      magic ++ ((leBytes 4 artifactVersion ++ (leBytes 4 sections.length ++
        sections.flatMap fun spec => (sectionOf schema db spec).bytes)) ++ []) := by
    rw [artifactBytes, artifactHeader, length_map, flatMap_map, append_nil]
    simp only [append_assoc]
  rw [importSnapshot, importSnapshotExpecting, bytes, take_left]
  simp only [require, if_true, bind, Except.bind, read]
  rw [if_pos (by simp)]
  rfl

end HopNet
