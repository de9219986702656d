import Mathlib.Data.List.DropRight
import HopNet.Lib.Runs
import HopNet.Node.Tables

namespace HopNet

open Runs Table List

abbrev Text := List Char

inductive EntryKind where
  | file
  | folder
deriving DecidableEq

structure ManifestEntry where
  logicalPath : Text
  kind : EntryKind
  blobId : Option CustomUUID
  contentHash : Option Blake3Hash
deriving DecidableEq

inductive TarKind where
  | directory
  | regular
  | other
deriving DecidableEq

/-- An entry of the archive; one without a readable path has none. -/
structure TarEntry where
  path : Option Text
  kind : TarKind
  data : Bytes
deriving DecidableEq

inductive ImportPathStatus where
  | pending
  | imported
  | skipped
  | failed
deriving DecidableEq

/-- A row of the work table, keyed by `projection` and `path`. -/
structure PathRow where
  projection : Text
  path : Text
  kind : EntryKind
  status : ImportPathStatus
deriving DecidableEq

def PathRow.key (row : PathRow) : Text × Text := (row.projection, row.path)

abbrev SectionEntry := Text × ManifestEntry

def SectionEntry.key (a : SectionEntry) : Text × Text := (a.1, a.2.logicalPath)

section

/-- `Path::components` behind the root. -/
def components (path : Text) : List Text := (path.splitOn '/').filter fun c => c ≠ [] ∧ c ≠ ['.']

/-- One component further; without symbolic links `..` is the parent. -/
def enter (dir : List Text) (c : Text) : List Text :=
  if c = ['.', '.'] then dir.dropLast else dir ++ [c]

variable (base : List Text) (path : Text)

/-- Where `base.join(path)` starts: an absolute path replaces the base. -/
def joinBase : List Text := if path.head? = some '/' then [] else base

def joinPath : List Text := (components path).foldl enter (joinBase base path)

/-- The places on the way to `base.join(path)`. -/
def passed : List (List Text) := (components path).scanl enter (joinBase base path)

def Inside (dir place : List Text) : Prop := dir <+: place ∧ place ≠ dir
deriving Decidable

end

/-- What an import works on. `exporter` says which projections translate. -/
structure ImportTask where
  blake3 : Bytes → Blake3Hash
  staging : List Text
  manifest : List (Text × List ManifestEntry)
  archive : List TarEntry
  exporter : Text → Bool

/-- What the walk makes of an entry: `failed` marks the row of its path, if any. -/
inductive Attributed where
  | ignored
  | failed (key : Text × Text)
  | file (a : SectionEntry)
deriving DecidableEq

inductive ImportWork where
  | skip (projection : Text)
  | entry (row : PathRow)
deriving DecidableEq

def ImportWork.row? : ImportWork → Option PathRow
  | skip _ => none
  | entry row => some row

/-- `stopped` is the state without a task; only a restart leads on. -/
inductive ImportPhase where
  | starting
  | extracting (left : List TarEntry)
  | creating (left : List ImportWork)
  | stopped
  | done
deriving DecidableEq

/-- `files` are the regular files of the node's disk. -/
structure ImportState where
  status : ImportStatus
  rows : List PathRow
  files : List Text → Option Bytes
  phase : ImportPhase

/-- A file is written whole, or an operation fails and some first bytes or nothing are left. -/
inductive ExtractOutcome where
  | done
  | failed (left : Option Nat)

/-- A task stops between two entries or inside one, the file as it was, cut or removed. -/
inductive ImportEvent where
  | flip
  | seed
  | extract (outcome : ExtractOutcome)
  | handOver
  | create (accepted : Bool)
  | complete
  | stop (cut : Option (Option Nat))
  | resume

namespace ImportState

variable (s : ImportState)

def mark (key : Text × Text) (status : ImportPathStatus) : ImportState :=
  { s with rows := modify PathRow.key key (fun row => { row with status }) s.rows }

def put (place : List Text) (content : Option Bytes) : ImportState :=
  { s with files := Function.update s.files place content }

def left (s : ImportState) : List TarEntry :=
  match s.phase with
  | .extracting left => left
  | _ => []

/-- The rows that the creation walk has yet to hand over. -/
def handed : List PathRow :=
  match s.phase with
  | .creating left => left.filterMap ImportWork.row?
  | _ => []

end ImportState

namespace ImportTask

variable (t : ImportTask)

def entries : List SectionEntry := t.manifest.flatMap fun s => s.2.map (s.1, ·)

def files : List SectionEntry := t.entries.filter (·.2.kind = .file)

/-- `{staging}/{projection}/{path}`. -/
def staged (key : Text × Text) : List Text := joinPath (joinPath t.staging key.1) key.2

def place (a : SectionEntry) : List Text := t.staged a.key

variable (e : TarEntry)

/-- Of several file entries for one path, `manifest_files` has the last. -/
def attributed : Attributed :=
  match e.path with
  | none => .ignored
  | some path =>
    let top := path.takeWhile (· ≠ '/')
    let rest := (path.dropWhile (· ≠ '/')).tail
    if rest ≠ [] ∧ top ∈ t.manifest.map Prod.fst then
      match e.kind with
      | .directory | .other => .ignored
      | .regular =>
        let key := (top, rest.rdropWhile (· = '/'))
        match t.files.reverse.find? fun a => a.key = key with
        | some a => .file a
        | none => .failed key
    else .failed (top, path)

/-- The check of `extract_and_hash`. -/
def Verifies (entry : ManifestEntry) (bytes : Bytes) : Prop :=
  ∃ blobId ∈ entry.blobId, ∃ hash ∈ entry.contentHash, t.blake3 (bytes ++ blobId.asBytes) = hash
deriving Decidable

def seed : List PathRow :=
  t.entries.foldl
    (fun rows a => insertOrIgnore PathRow.key ⟨a.1, a.2.logicalPath, a.2.kind, .pending⟩ rows) []

variable (s : ImportState)

def extract (e : TarEntry) (outcome : ExtractOutcome) : ImportState :=
  match t.attributed e with
  | .ignored => s
  | .failed key => s.mark key .failed
  | .file a =>
    match outcome with
    | .done =>
      if t.Verifies a.2 e.data then s.put (t.place a) (some e.data)
        else (s.put (t.place a) none).mark a.key .failed
    | .failed left => (s.put (t.place a) (left.map e.data.take)).mark a.key .failed

/-- What a task that stops in the middle of an entry leaves of its file. -/
def cutShort (e : TarEntry) (cut : Option (Option Nat)) : ImportState :=
  match t.attributed e, cut with
  | .file a, some left => s.put (t.place a) (left.map e.data.take)
  | _, _ => s

/-- `ORDER BY` the number of slashes, then the path. -/
def FolderBefore (a b : PathRow) : Prop :=
  a.path.count '/' < b.path.count '/' ∨ a.path.count '/' = b.path.count '/' ∧ a.path ≤ b.path
deriving Decidable

/-- The sections by name, in each the folders and then the files. -/
def work (rows : List PathRow) : List ImportWork :=
  ((rows.map PathRow.projection).dedup.insertionSort (· ≤ ·)).flatMap fun projection =>
    let pending := fun kind => rows.filter fun row => row.projection = projection ∧
      row.kind = kind ∧ row.status = .pending
    if t.exporter projection then
      (((pending .folder).insertionSort FolderBefore) ++ (pending .file).insertionSort
        (·.path ≤ ·.path)).map .entry
    else [.skip projection]

def next : ImportEvent → Option ImportState
  | .flip => if s.phase = .starting then some { s with status := .importing } else none
  | .seed =>
    if s.phase = .starting ∧ s.status = .importing then
      some { s with rows := t.seed, phase := .extracting t.archive.tail }
    else none
  | .extract outcome =>
    match s.phase with
    | .extracting (e :: left) => some { t.extract s e outcome with phase := .extracting left }
    | _ => none
  | .handOver => if s.phase = .extracting [] then some { s with phase := .creating (t.work s.rows) }
      else none
  | .create accepted =>
    match s.phase with
    | .creating (.entry row :: left) =>
      some { s.mark row.key (if accepted then .imported else .failed) with phase := .creating left }
    | .creating (.skip projection :: left) =>
      let skip := fun row : PathRow =>
        if row.projection = projection ∧ row.status = .pending then { row with status := .skipped }
          else row
      some { s with rows := s.rows.map skip, phase := .creating left }
    | _ => none
  | .complete =>
    if s.phase = .creating [] then
      some { s with
        status := .completed
        files := fun place => if t.staging <+: place then none else s.files place
        phase := .done }
    else none
  | .stop cut =>
    match s.phase with
    | .done => none
    | .extracting (e :: _) => some { t.cutShort s e cut with phase := .stopped }
    | _ => some { s with phase := .stopped }
  | .resume =>
    -- `scan_at_startup` looks at the status of the import and counts the pending rows
    if s.phase = .stopped ∧ s.status = .importing ∧ ∃ row ∈ s.rows, row.status = .pending then
      some { s with phase := .creating (t.work s.rows) }
    else none

/-- The disk when the upload is done, and the import pending. -/
def start (files : List Text → Option Bytes) : ImportState := ⟨.pending, [], files, .starting⟩

/-- The places on the way to a file's place; without a hash to check the file is only removed. -/
def way (a : SectionEntry) : List (List Text) :=
  if a.2.blobId.isSome ∧ a.2.contentHash.isSome then
    passed t.staging a.1 ++ passed (joinPath t.staging a.1) a.2.logicalPath
  else [t.place a]

/-- What the walk creates, writes or removes for its next entry; the directories down to the staging
one are there. -/
def touched : List (List Text) :=
  match s.left with
  | [] => []
  | e :: _ =>
    match t.attributed e with
    | .file a => (t.way a).filter fun p => ¬ p <+: t.staging
    | _ => []

/-- A path occurs once in its section, no two files have one place, and every file of the manifest
has an entry. -/
def Whole : Prop :=
  (t.entries.map SectionEntry.key).Nodup ∧ (t.files.map t.place).Nodup ∧
    ∀ a ∈ t.files, ∃ e ∈ t.archive.tail, t.attributed e = .file a
deriving Decidable

/-- The files the walk extracts. -/
def extracts : List SectionEntry :=
  t.archive.tail.filterMap fun e => match t.attributed e with
    | .file a => some a
    | _ => none

/-- The names lead nowhere else: no place on the way of an extracted file lies beside the staging
directory, and the place of every seeded row that a projection is handed lies inside of it. -/
def Confined : Prop :=
  (∀ a ∈ t.extracts, ∀ place ∈ t.way a, place <+: t.staging ∨ Inside t.staging place) ∧
    ∀ row ∈ t.seed, row.kind = .file → t.exporter row.projection →
      Inside t.staging (t.staged row.key)
deriving Decidable

end ImportTask

def ImportPhase.isExtracting : ImportPhase → Bool
  | extracting _ => true
  | _ => false

def ImportEvent.isStop : ImportEvent → Bool
  | stop _ => true
  | _ => false

/-- The condition on a step: the task does not stop during the extraction. -/
def ImportState.Uncut (s : ImportState) (event : ImportEvent) : Prop :=
  ¬ (s.phase.isExtracting ∧ event.isStop)
deriving Decidable

namespace ImportTask

def Checked (t : ImportTask) (files : List Text → Option Bytes) (a : SectionEntry) : Prop :=
  ∃ bytes ∈ files (t.place a), t.Verifies a.2 bytes

/-- The files of the row's path are checked, or come further on. -/
def Ready (t : ImportTask) (files : List Text → Option Bytes) (left : List TarEntry)
    (row : PathRow) : Prop :=
  ∀ a ∈ t.files, a.key = row.key → t.Checked files a ∨ ∃ e ∈ left, t.attributed e = .file a

/-- The invariant of an import that is not stopped while it extracts. -/
def Sound (t : ImportTask) (s : ImportState) : Prop :=
  s.phase ≠ .done → ∀ row, row ∈ s.rows ∧ row.status = .pending ∨ row ∈ s.handed →
    t.Ready s.files s.left row

/-- The rows are the old ones, and none has become pending. -/
def Marked (rows rows' : List PathRow) : Prop :=
  ∀ row ∈ rows', ∃ old ∈ rows, old.key = row.key ∧ old.kind = row.kind ∧
    (row.status = .pending → old = row)

abbrev Step (t : ImportTask) (s : ImportState) (event : ImportEvent) (s' : ImportState) : Prop :=
  t.next s event = some s'

/-- What a step does: it seeds, walks on, hands over, or does nothing of this. -/
inductive Effect (t : ImportTask) (s : ImportState) : ImportEvent → ImportState → Prop
  | seed : t.Effect s .seed { s with rows := t.seed, phase := .extracting t.archive.tail }
  | extract {e left} (outcome : ExtractOutcome) (walks : s.phase = .extracting (e :: left)) :
      t.Effect s (.extract outcome) { t.extract s e outcome with phase := .extracting left }
  | handOver {event} (live : s.phase ≠ .done) (walked : s.left = []) :
      t.Effect s event { s with phase := .creating (t.work s.rows) }
  | quiet {event s'} (rows : Marked s.rows s'.rows) (left : s'.left <:+ s.left)
      (handed : s'.handed ⊆ s.handed)
      (same : s'.phase ≠ .done → s.Uncut event → s.phase ≠ .done ∧ s'.files = s.files ∧
        s'.left = s.left) :
      t.Effect s event s'

variable {t : ImportTask} {s s' : ImportState} {row : PathRow} {e : TarEntry} {left : List TarEntry}
  {a b : SectionEntry} {event : ImportEvent}

lemma mem_files_of_attributed (he : t.attributed e = .file a) : a ∈ t.files := by
  unfold attributed at he
  split at he
  · cases he
  · dsimp only at he
    split_ifs at he
    split at he
    · cases he
    · cases he
    · split at he
      · cases he
        exact mem_reverse.1 (mem_of_find?_eq_some ‹_›)
      · cases he

lemma mem_seed (hr : row ∈ t.seed) :
    ∃ a ∈ t.entries, row = ⟨a.1, a.2.logicalPath, a.2.kind, .pending⟩ := by
  have grows : ∀ (more : List SectionEntry) (rows : List PathRow),
      row ∈ more.foldl (fun rows a => insertOrIgnore PathRow.key
        ⟨a.1, a.2.logicalPath, a.2.kind, .pending⟩ rows) rows →
        row ∈ rows ∨ ∃ a ∈ more, row = ⟨a.1, a.2.logicalPath, a.2.kind, .pending⟩ := by
    intro more
    induction more with
    | nil => simp
    | cons a more ih =>
      intro rows hm
      rcases ih _ hm with hm | ⟨b, hb, rfl⟩
      · rcases mem_insertOrIgnore.1 hm with hm | ⟨rfl, _⟩
        · exact .inl hm
        · exact .inr ⟨a, mem_cons_self, rfl⟩
      · exact .inr ⟨b, mem_cons_of_mem a hb, rfl⟩
  simpa using grows t.entries [] hr

lemma pending_of_mark {key status} (hs : status ≠ .pending)
    (hr : row ∈ (s.mark key status).rows) (hp : row.status = .pending) :
    row ∈ s.rows ∧ row.key ≠ key := by
  obtain ⟨old, ho, rfl⟩ := mem_map.1 hr
  split_ifs at hp ⊢ with hk
  · exact absurd hp hs
  · exact ⟨ho, hk⟩

lemma mem_work {rows} : .entry row ∈ t.work rows ↔
    row ∈ rows ∧ row.status = .pending ∧ t.exporter row.projection := by
  simp only [work, mem_flatMap, mem_insertionSort, mem_dedup, mem_map]
  constructor
  · rintro ⟨projection, _, hw⟩
    split_ifs at hw with exported
    · simp only [mem_map, mem_append, mem_insertionSort, mem_filter, decide_eq_true_eq,
        ImportWork.entry.injEq, exists_eq_right] at hw
      rcases hw with ⟨hm, rfl, _, hp⟩ | ⟨hm, rfl, _, hp⟩ <;> exact ⟨hm, hp, exported⟩
    · simp at hw
  · rintro ⟨hm, hp, exported⟩
    refine ⟨row.projection, ⟨row, hm, rfl⟩, ?_⟩
    rw [if_pos exported]
    cases hk : row.kind <;> simp [hm, hp, hk]

lemma mem_handed {rows} (hw : row ∈ (t.work rows).filterMap ImportWork.row?) :
    row ∈ rows ∧ row.status = .pending ∧ t.exporter row.projection := by
  obtain ⟨w, hw, hr⟩ := mem_filterMap.1 hw
  cases w with
  | skip => cases hr
  | entry row =>
    cases hr
    exact mem_work.1 hw

/-- An entry is behind: its row is done with, the others as ready as before. -/
lemma Ready.advance {files files' : List Text → Option Bytes} (hr : t.Ready files (e :: left) row)
    (hc : ∀ a ∈ t.files, a.key = row.key → t.Checked files a ∨ t.attributed e = .file a →
      t.Checked files' a) :
    t.Ready files' left row := by
  intro a ha hk
  rcases hr a ha hk with checked | ⟨e', he', later⟩
  · exact .inl (hc a ha hk (.inl checked))
  · rcases mem_cons.1 he' with rfl | he'
    · exact .inl (hc a ha hk (.inr later))
    · exact .inr ⟨e', he', later⟩

lemma Checked.put (whole : t.Whole) (ha : a ∈ t.files) (hb : b ∈ t.files) (hne : a ≠ b) {content}
    (hc : t.Checked s.files a) : t.Checked (s.put (t.place b) content).files a := by
  have apart : t.place a ≠ t.place b := fun same => hne (inj_on_of_nodup_map whole.2.1 ha hb same)
  simpa [Checked, ImportState.put, apart] using hc

lemma Ready.extract {outcome} (whole : t.Whole)
    (hr : row ∈ s.rows → t.Ready s.files (e :: left) row)
    (hm : row ∈ (t.extract s e outcome).rows) (hp : row.status = .pending) :
    t.Ready (t.extract s e outcome).files left row := by
  unfold ImportTask.extract at hm ⊢
  cases he : t.attributed e with
  | ignored =>
    simp only [he] at hm ⊢
    refine (hr hm).advance fun a _ _ hc => ?_
    simpa [he] using hc
  | failed key =>
    simp only [he] at hm ⊢
    refine (hr (pending_of_mark (by decide) hm hp).1).advance fun a _ _ hc => ?_
    simpa [he, ImportState.mark] using hc
  | file b =>
    have hb := mem_files_of_attributed he
    -- a failed file takes its own row with it
    have lost : ∀ content, row ∈ ((s.put (t.place b) content).mark b.key .failed).rows →
        t.Ready ((s.put (t.place b) content).mark b.key .failed).files left row := by
      intro content hm
      obtain ⟨hm, hk⟩ := pending_of_mark (by decide) hm hp
      refine (hr hm).advance fun a ha hka hc => ?_
      have hne : a ≠ b := by
        rintro rfl
        exact hk hka.symm
      rcases hc with hc | hc
      · exact hc.put whole ha hb hne
      · rw [he] at hc
        cases hc
        exact absurd rfl hne
    simp only [he] at hm ⊢
    cases outcome with
    | failed cut => exact lost _ hm
    | done =>
      split_ifs at hm ⊢ with hv
      · refine (hr hm).advance fun a ha _ hc => ?_
        by_cases same : a = b
        · rw [same]
          exact ⟨e.data, by simp [ImportState.put], hv⟩
        · rcases hc with hc | hc
          · exact hc.put whole ha hb same
          · rw [he] at hc
            cases hc
            exact absurd rfl same
      · exact lost _ hm

lemma Marked.refl {rows} : Marked rows rows := fun row hr => ⟨row, hr, rfl, rfl, fun _ => rfl⟩

lemma marked_mark {key status} (hs : status ≠ .pending) :
    Marked s.rows (s.mark key status).rows := by
  intro row hr
  obtain ⟨old, ho, rfl⟩ := mem_map.1 hr
  refine ⟨old, ho, ?_⟩
  split_ifs
  · exact ⟨rfl, rfl, fun pending => absurd pending hs⟩
  · exact ⟨rfl, rfl, fun _ => rfl⟩

lemma marked_extract {outcome} : Marked s.rows (t.extract s e outcome).rows := by
  unfold ImportTask.extract
  split
  · exact .refl
  · exact marked_mark (by decide)
  · split
    · split_ifs
      · exact .refl
      · exact marked_mark (by decide)
    · exact marked_mark (by decide)

lemma effect_create {w left rows accepted} (hp : s.phase = .creating (w :: left))
    (hr : Marked s.rows rows) :
    t.Effect s (.create accepted) { s with rows := rows, phase := .creating left } := by
  refine .quiet hr nil_suffix (fun row hm => ?_) fun _ _ =>
    ⟨by simp [hp], rfl, by simp [ImportState.left, hp]⟩
  rw [ImportState.handed, hp]
  exact ((sublist_cons_self w left).filterMap _).subset hm

lemma effect_of_step (step : t.Step s event s') : t.Effect s event s' := by
  cases event <;> simp only [Step, ImportTask.next] at step
  case flip =>
    split_ifs at step
    cases step
    exact .quiet .refl suffix_rfl (fun _ hm => hm) fun live _ => ⟨live, rfl, rfl⟩
  case seed =>
    split_ifs at step
    cases step
    exact .seed
  case extract outcome =>
    split at step
    · rename_i e left walks
      cases step
      exact .extract outcome walks
    · cases step
  case handOver =>
    split_ifs at step with hp
    cases step
    exact .handOver (by simp [hp]) (by simp [ImportState.left, hp])
  case create accepted =>
    split at step
    · rename_i hp
      cases step
      exact effect_create hp (marked_mark (by cases accepted <;> decide))
    · rename_i hp
      cases step
      refine effect_create hp fun row hr => ?_
      obtain ⟨old, ho, rfl⟩ := mem_map.1 hr
      refine ⟨old, ho, ?_⟩
      split_ifs
      · exact ⟨rfl, rfl, nofun⟩
      · exact ⟨rfl, rfl, fun _ => rfl⟩
    · cases step
  case complete =>
    split_ifs at step
    cases step
    exact .quiet .refl nil_suffix nofun fun live => absurd rfl live
  case stop cut =>
    split at step
    · cases step
    · rename_i e left walks
      cases step
      refine .quiet ?_ nil_suffix nofun fun _ uncut => absurd ⟨by rw [walks]; rfl, rfl⟩ uncut
      unfold cutShort
      split <;> exact .refl
    · rename_i live walked
      cases step
      refine .quiet .refl nil_suffix nofun fun _ _ => ⟨live, rfl, ?_⟩
      unfold ImportState.left
      cases hp : s.phase with
      | extracting rest =>
        cases rest with
        | nil => rfl
        | cons e left => exact absurd hp (walked e left)
      | _ => rfl
  case resume =>
    split_ifs at step with hp
    cases step
    exact .handOver (by simp [hp.1]) (by simp [ImportState.left, hp.1])

lemma Sound.next (whole : t.Whole) (sound : t.Sound s) (uncut : s.Uncut event)
    (step : t.Step s event s') : t.Sound s' := by
  intro live row hm
  cases effect_of_step step with
  | seed => exact fun a ha _ => .inr (whole.2.2 a ha)
  | @extract e left outcome walks =>
    obtain ⟨hm, pending⟩ : row ∈ (t.extract s e outcome).rows ∧
        row.status = .pending := hm.elim id nofun
    refine Ready.extract whole (fun hm => ?_) hm pending
    simpa [ImportState.left, walks] using sound (by simp [walks]) row (.inl ⟨hm, pending⟩)
  | handOver running walked =>
    have ready :=
      sound running row (.inl (hm.elim id fun hw => ⟨(mem_handed hw).1, (mem_handed hw).2.1⟩))
    rwa [walked] at ready
  | quiet rows _ handed same =>
    obtain ⟨live, files, left⟩ := same live uncut
    rw [files, left]
    refine sound live row (hm.imp (fun ⟨hm, pending⟩ => ?_) fun hm => handed hm)
    obtain ⟨old, ho, _, _, same⟩ := rows row hm
    exact ⟨same pending ▸ ho, pending⟩

variable {disk : List Text → Option Bytes} {past : List ImportEvent}

lemma sound_of_reaches (whole : t.Whole)
    (run : Reaches (fun s event s' => t.Step s event s' ∧ s.Uncut event) (start disk) past s) :
    t.Sound s :=
  run.invariant_state t.Sound (fun _ row hm => by simp [start, ImportState.handed] at hm)
    fun _ _ _ sound step => sound.next whole step.2 step.1

lemma Sound.checked (sound : t.Sound s) {left} (hp : s.phase = .creating (.entry row :: left))
    (ha : a ∈ t.files) (hk : a.key = row.key) : t.Checked s.files a := by
  have hm : row ∈ s.handed := by simp [ImportState.handed, hp, ImportWork.row?]
  simpa [ImportState.left, hp] using sound (by simp [hp]) row (.inr hm) a ha hk

/-- What holds in every run: the walk is on the archive's entries, every row is a seeded one, and
what is handed over has an exporter. -/
structure Seeded (t : ImportTask) (s : ImportState) : Prop where
  left : s.left <:+ t.archive.tail
  rows : ∀ row, row ∈ s.rows ∨ row ∈ s.handed →
    ∃ first ∈ t.seed, first.key = row.key ∧ first.kind = row.kind
  exported : ∀ row ∈ s.handed, t.exporter row.projection

lemma Seeded.marked (seeded : t.Seeded s) (hl : s'.left <:+ s.left) (hr : Marked s.rows s'.rows)
    (hh : s'.handed ⊆ s.handed) : t.Seeded s' where
  left := hl.trans seeded.left
  rows row hm := by
    rcases hm with hm | hm
    · obtain ⟨old, ho, hk, hi, _⟩ := hr row hm
      rw [← hk, ← hi]
      exact seeded.rows old (.inl ho)
    · exact seeded.rows row (.inr (hh hm))
  exported row hm := seeded.exported row (hh hm)

lemma Seeded.next (seeded : t.Seeded s) (step : t.Step s event s') : t.Seeded s' := by
  cases effect_of_step step with
  | seed => exact ⟨suffix_rfl, fun row hm => ⟨row, hm.elim id nofun, rfl, rfl⟩, nofun⟩
  | extract outcome walks =>
      exact seeded.marked (by simp [ImportState.left, walks]) marked_extract nofun
  | handOver =>
    refine ⟨nil_suffix, fun row hm => ?_, fun row hm => (mem_handed hm).2.2⟩
    exact seeded.rows row (.inl (hm.elim id fun hw => (mem_handed hw).1))
  | quiet rows left handed _ => exact seeded.marked left rows handed

lemma seeded_of_reaches {step} (hs : ∀ {s event s'}, step s event s' → t.Step s event s')
    (run : Reaches step (start disk) past s) : t.Seeded s := by
  have begins : t.Seeded (start disk) := ⟨nil_suffix, fun row hm => hm.elim nofun nofun, nofun⟩
  exact run.invariant_state t.Seeded begins fun _ _ _ seeded ran => seeded.next (hs ran)

variable (disk) in
/-- The walk comes to every entry of the archive. -/
lemma reaches_extracting {done left : List TarEntry} (split : t.archive.tail = done ++ left) :
    ∃ past s, Reaches t.Step (start disk) past s ∧
      s.phase = .extracting left ∧ (done = [] → s.status = .importing ∧ s.rows = t.seed) := by
  induction done using reverseRecOn generalizing left with
  | nil =>
    subst split
    exact ⟨[.flip, .seed], ⟨.importing, t.seed, disk, .extracting t.archive.tail⟩,
      .snoc (.snoc .refl rfl) rfl, rfl, fun _ => ⟨rfl, rfl⟩⟩
  | append_singleton done e ih =>
    obtain ⟨past, s, run, hp, _⟩ := ih (by simpa using split)
    refine ⟨past ++ [.extract .done], { t.extract s e .done with phase := .extracting left },
      .snoc run ?_, rfl, by simp⟩
    rw [Step, ImportTask.next, hp]

/-- The creation walk comes to everything it is to hand over. -/
lemma reaches_creating (run : Reaches t.Step (start disk) past s) {done left : List ImportWork}
    (hp : s.phase = .creating (done ++ left)) :
    ∃ past s, Reaches t.Step (start disk) past s ∧ s.phase = .creating left := by
  induction done generalizing past s with
  | nil => exact ⟨past, s, run, hp⟩
  | cons w done ih =>
    obtain ⟨s', step, hp'⟩ : ∃ s', t.Step s (.create true) s' ∧
        s'.phase = .creating (done ++ left) := by
      cases w <;> exact ⟨_, by rw [Step, ImportTask.next, hp]; rfl, rfl⟩
    exact ih (run.snoc step) hp'

variable (disk) in
/-- A stop after the seeding and a restart hand over every seeded row that has an exporter. -/
lemma reaches_handing (hr : row ∈ t.seed) (exported : t.exporter row.projection) :
    ∃ past s left, Reaches t.Step (start disk) past s ∧
      s.phase = .creating (.entry row :: left) := by
  obtain ⟨past, s, run, hp, hs⟩ := reaches_extracting (t := t) disk (nil_append _).symm
  obtain ⟨status, rows⟩ := hs rfl
  have pending : row.status = .pending := by
    obtain ⟨a, _, rfl⟩ := mem_seed hr
    rfl
  have stopped : t.Step s (.stop none) { s with phase := .stopped } := by
    rw [Step, ImportTask.next, hp]
    cases t.archive.tail with
    | nil => rfl
    | cons e rest =>
      simp only [cutShort]
      cases t.attributed e <;> rfl
  have resumed : t.Step { s with phase := .stopped } .resume
      { s with phase := .creating (t.work s.rows) } :=
        if_pos ⟨rfl, status, row, rows ▸ hr, pending⟩
  obtain ⟨done, left, split⟩ := append_of_mem (mem_work.2 ⟨rows ▸ hr, pending, exported⟩)
  obtain ⟨past, s, run, hp⟩ := reaches_creating ((run.snoc stopped).snoc resumed)
    (congrArg ImportPhase.creating split)
  exact ⟨past, s, left, run, hp⟩

lemma touched_inside_iff (hl : s.left = e :: left) :
    (∀ place ∈ t.touched s, Inside t.staging place) ↔
    ∀ a, t.attributed e = .file a → ∀ place ∈ t.way a, place <+: t.staging ∨
      Inside t.staging place := by
  simp only [touched, hl]
  cases t.attributed e with
  | ignored | failed => simp
  | file a => simp [or_iff_not_imp_left]

lemma mem_extracts : a ∈ t.extracts ↔ ∃ e ∈ t.archive.tail, t.attributed e = .file a := by
  simp only [extracts, mem_filterMap]
  refine exists_congr fun e => and_congr_right fun _ => ?_
  cases t.attributed e <;> simp

/-- An archive with one file of two bytes; the hash tells lengths apart. -/
def sample (path : Text) : ImportTask where
  blake3 bytes := .replicate 32 (.ofNat bytes.length)
  staging := [['i'], ['1']]
  manifest := [(['d'], [⟨path, .file, some ⟨5⟩, some (.replicate 32 18)⟩])]
  archive := [⟨some ['m'], .regular, []⟩, ⟨some ('d' :: '/' :: path), .regular, [1, 2]⟩]
  exporter _ := true

/-- The file is extracted and about to be handed over. -/
def extracted : ImportState :=
  ([.flip, .seed, .extract .done, .handOver].foldlM (sample ['a']).next (start fun _ => none)).getD
    (start fun _ => none)

lemma reaches_extracted :
    Reaches (fun s event s' => (sample ['a']).next s event = some s' ∧ s.Uncut event)
    (start fun _ => none) [.flip, .seed, .extract .done, .handOver] extracted :=
  .snoc (.snoc (.snoc (.snoc .refl ⟨rfl, by decide⟩) ⟨rfl, by decide⟩) ⟨rfl, by decide⟩)
    ⟨rfl, by decide⟩

end ImportTask

end HopNet
