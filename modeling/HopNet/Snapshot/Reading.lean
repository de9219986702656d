import HopNet.SigningInjective
import HopNet.Snapshot.Import

namespace HopNet

open Fallible Sqlite ByteReader SnapshotReader List Reads

lemma leBytes_cons (width n : Nat) :
    leBytes (width + 1) n = UInt8.ofNat (n % 256) :: leBytes width (n / 256) := by
  have hd : ∀ i, n / 256 / 256 ^ i = n / 256 ^ (i + 1) := fun i => by
    rw [Nat.div_div_eq_div_mul, Nat.pow_succ, Nat.mul_comm]
  simp [leBytes, range_succ_eq_map, hd]

lemma leValue_leBytes {width n : Nat} (hs : n < 256 ^ width) : leValue (leBytes width n) = n := by
  induction width generalizing n with
  | zero =>
    have : n = 0 := by simpa using hs
    subst this
    rfl
  | succ width ih =>
    have hd : n / 256 < 256 ^ width := by
      exact Nat.div_lt_of_lt_mul (by rwa [Nat.mul_comm])
    have low : (UInt8.ofNat (n % 256)).toNat = n % 256 := by simp
    have step : leValue (leBytes (width + 1) n) =
        (UInt8.ofNat (n % 256)).toNat + 256 * leValue (leBytes width (n / 256)) := by
      rw [leBytes_cons]
      rfl
    rw [step, low, ih hd]
    omega

lemma reads_bytes (bytes : Bytes) : Reads (readBytes bytes.length) bytes bytes := take rfl

lemma reads_u32 {n : Nat} (hs : n < 2 ^ 32) : Reads readU32 (leBytes 4 n) n := by
  have hr := (reads_bytes (leBytes 4 n)).map leValue
  rw [leBytes_length, leValue_leBytes (by omega)] at hr
  exact hr

lemma reads_u64 {n : Nat} (hs : n < 2 ^ 64) : Reads readU64 (leBytes 8 n) n := by
  have hr := (reads_bytes (leBytes 8 n)).map leValue
  rw [leBytes_length, leValue_leBytes (by omega)] at hr
  exact hr

/-- A name whose length fits the format. -/
def ShortName (name : String) : Prop := (nameBytes name).length < 2 ^ 32
deriving Decidable

variable {name : String} {columns : List String} {c : TableContent}

lemma reads_name (hs : ShortName name) : Reads readName (writeName name) name := by
  refine (reads_u32 hs).bind (position fun start => ?_)
  refine (reads_bytes (nameBytes name)).bind_last ?_
  have hd : String.fromUTF8? ⟨⟨nameBytes name⟩⟩ = some name := by
    show (if hv : name.toByteArray.IsValidUTF8 then some (String.fromUTF8 _ hv) else none) = _
    rw [dif_pos name.isValidUTF8]
    rfl
  rw [hd]
  exact pure name

/-- The rows of one exported table, as the artifact holds them. -/
structure TableContent where
  name : String
  columns : List String
  rows : List (List Value)

structure SectionContent where
  name : String
  formatVersion : Nat
  tables : List TableContent

def valueBytes : Value → Bytes
  | .null => [0x00]
  | .integer n => 0x01 :: leBytes 8 n.toNat
  | .real bits => 0x02 :: leBytes 8 bits.toNat
  | .text bytes => 0x03 :: (leBytes 8 bytes.length ++ bytes)
  | .blob bytes => 0x04 :: (leBytes 8 bytes.length ++ bytes)

def rowBytes (row : List Value) : Bytes := row.flatMap valueBytes

def TableContent.bytes (c : TableContent) : Bytes :=
  tableHeader c.name c.columns c.rows.length ++ c.rows.flatMap rowBytes

def SectionContent.header (c : SectionContent) : Bytes :=
  writeName c.name ++ leBytes 4 c.formatVersion ++ leBytes 4 c.tables.length

def SectionContent.bytes (c : SectionContent) : Bytes := c.header ++ c.tables.flatMap (·.bytes)

def artifactBytes (contents : List SectionContent) : Bytes :=
  artifactHeader contents.length ++ contents.flatMap (·.bytes)

/-- A value as the encoder writes it. -/
def Canonical (v : Value) : Prop := v.canonical = v ∧ ¬ v.IsNan ∧ v.Fits

structure TableContent.Ok (c : TableContent) : Prop where
  name : ShortName c.name
  columns : ∀ column ∈ c.columns, ShortName column
  some_ : c.columns ≠ []
  few : c.columns.length < 2 ^ 32
  count : c.rows.length < 2 ^ 64
  widths : ∀ row ∈ c.rows, row.length = c.columns.length
  values : ∀ row ∈ c.rows, ∀ v ∈ row, Canonical v

structure SectionContent.Ok (c : SectionContent) : Prop where
  name : ShortName c.name
  version : c.formatVersion < 2 ^ 32
  few : c.tables.length < 2 ^ 32
  tables : ∀ table ∈ c.tables, table.Ok

lemma reads_value {table column v} (ok : Canonical v) :
    Reads (decodeValue table column) (valueBytes v) v := by
  obtain ⟨hc, hn, hf⟩ := ok
  have tag : ∀ {rest : Bytes} {next : Bytes → SnapshotReader Value} (t : UInt8),
      Reads (next [t]) rest v → Reads (readBytes 1 >>= next) (t :: rest) v :=
    fun t hr => (reads_bytes [t]).bind hr
  have hl : ∀ {bytes : Bytes} {f : Bytes → Value}, bytes.length ≤ Value.maxLength →
      Reads (do return f (← readBytes (← readU64))) (leBytes 8 bytes.length ++ bytes)
        (f bytes) := by
    intro bytes f hs
    have hsm : bytes.length < 2 ^ 64 := Nat.lt_of_le_of_lt hs (by decide)
    exact (reads_u64 hsm).bind ((reads_bytes bytes).bind_pure f)
  have hw : ∀ bits : BitVec 64, Reads readU64 (leBytes 8 bits.toNat) bits.toNat :=
    fun bits => reads_u64 bits.isLt
  cases v with
  | null => exact tag 0x00 (pure _)
  | integer n =>
    refine tag 0x01 ?_
    have hr := (hw n).bind_pure fun n => Value.integer (BitVec.ofNat 64 n)
    rwa [BitVec.ofNat_toNat, BitVec.setWidth_eq] at hr
  | real bits =>
    refine tag 0x02 ?_
    refine (hw bits).bind_last ?_
    rw [BitVec.ofNat_toNat, BitVec.setWidth_eq]
    exact require ⟨hn, Value.real.inj hc⟩ (pure _)
  | text bytes => exact tag 0x03 (hl hf)
  | blob bytes => exact tag 0x04 (hl hf)

lemma reads_tableHeader {rowCount} (hsh : ShortName name)
    (hs : ∀ column ∈ columns, ShortName column) (hso : columns ≠ []) (few : columns.length < 2 ^ 32)
    (hsm : rowCount < 2 ^ 64) :
    Reads readTableHeader (tableHeader name columns rowCount) ⟨name, columns, rowCount⟩ := by
  have hn : Reads _ (columns.flatMap writeName) columns :=
    collect fun column hc => reads_name (hs column hc)
  rw [tableHeader, append_assoc, append_assoc]
  refine (reads_name hsh).bind ((reads_u32 few).bind (hn.bind ?_))
  refine (reads_u64 hsm).bind_last (position fun pos => ?_)
  exact require (fun hno => absurd hno hso) (pure _)

lemma reads_row {row} (hw : row.length = columns.length) (hv : ∀ v ∈ row, Canonical v) :
    Reads (columns.mapM (decodeValue name)) (rowBytes row) row := by
  refine mapM (List.forall₂_iff_get.2 ⟨hw.symm, fun i hc hr => ?_⟩)
  exact reads_value (hv _ (get_mem _ _))

lemma reads_tableRows {σ : Type} (ok : c.Ok)
    {sink : σ → List Value → Except SnapshotError σ} (step : σ → List Value → σ) (s : σ)
    (he : ∀ done row rest, c.rows = done ++ row :: rest →
      sink (done.foldl step s) row = .ok (step (done.foldl step s) row)) :
    Reads (walkTableRows ⟨c.name, c.columns, c.rows.length⟩ sink s) (c.rows.flatMap rowBytes)
      (c.rows.foldl step s) := by
  refine iterate _ rowBytes step c.rows s fun done row rest hs => ?_
  have hr : row ∈ c.rows := hs ▸ mem_append_right done mem_cons_self
  exact (reads_row (ok.widths row hr) (ok.values row hr)).bind_last (lift (he done row rest hs))

/-! A reader of a whole artifact, out of the functions of the import: it shows that the bytes name
their content. -/

def readTableContent : SnapshotReader TableContent := do
  let unit ← readTableHeader
  let rows ← walkTableRows unit (fun rows values => .ok (rows ++ [values])) []
  return ⟨unit.name, unit.columns, rows⟩

def readSectionContent : SnapshotReader SectionContent := do
  let name ← readName
  let formatVersion ← readU32
  let tableCount ← readU32
  let tables ← iterate (fun tables => do return tables ++ [← readTableContent]) tableCount []
  return ⟨name, formatVersion, tables⟩

def readArtifact : SnapshotReader (List SectionContent) := do
  let _ ← readBytes magic.length
  let _ ← readU32
  let sectionCount ← readU32
  iterate (fun contents => do return contents ++ [← readSectionContent]) sectionCount []

lemma reads_tableContent (ok : c.Ok) : Reads readTableContent c.bytes c := by
  refine (reads_tableHeader ok.name ok.columns ok.some_ ok.few ok.count).bind ?_
  have rows : Reads (walkTableRows _ (fun rows values => .ok (rows ++ [values])) []) _ _ :=
    reads_tableRows ok (fun rows values => rows ++ [values]) [] fun _ _ _ _ => rfl
  rw [foldl_snoc, nil_append] at rows
  exact rows.bind_last (pure c)

lemma reads_sectionContent {c} (ok : c.Ok) : Reads readSectionContent c.bytes c := by
  rw [SectionContent.bytes, SectionContent.header, append_assoc, append_assoc]
  refine (reads_name ok.name).bind ((reads_u32 ok.version).bind ((reads_u32 ok.few).bind ?_))
  have tables : Reads _ (c.tables.flatMap (·.bytes)) c.tables :=
    collect fun table ht => reads_tableContent (ok.tables table ht)
  exact tables.bind_last (pure c)

lemma reads_artifact {contents} (few : contents.length < 2 ^ 32)
    (ok : ∀ c ∈ contents, c.Ok) : Reads readArtifact (artifactBytes contents) contents := by
  refine (reads_bytes magic).bind ((reads_u32 (by decide)).bind ((reads_u32 few).bind ?_))
  exact collect fun c hc => reads_sectionContent (ok c hc)

lemma artifactBytes_inj {a b} (few : a.length < 2 ^ 32) (few' : b.length < 2 ^ 32)
    (ok : ∀ c ∈ a, c.Ok) (ok' : ∀ c ∈ b, c.Ok) (hs : artifactBytes a = artifactBytes b) :
    a = b := by
  have hr := reads_artifact few ok
  rw [hs] at hr
  exact hr.unique (reads_artifact few' ok')

end HopNet
