import HopNet.Drive.TreeRuns

namespace HopNet

open Fallible SlashPath List DriveTables

/-- The log speaks of every inode under its owner. -/
def LogOwners (t : DriveTables) : Prop :=
  ∀ entry ∈ t.modificationLog, ∀ row ∈ t.inodes, entry.inodeId = row.id →
    entry.ownerId = row.ownerId

def HasEntry (t : DriveTables) (row : Inode) (height : Nat) : Prop :=
  (⟨row.id, row.ownerId, heightToDb height⟩ : ModificationRow) ∈ t.modificationLog

/-- A log that grows by the table's inodes, while rows keep their id and owner. -/
structure LogGrows (height : Nat) (t t' : DriveTables) : Prop where
  kept : ∀ entry ∈ t.modificationLog, entry ∈ t'.modificationLog
  came : ∀ entry ∈ t'.modificationLog, entry ∈ t.modificationLog ∨
    ∃ row ∈ t.inodes, entry = ⟨row.id, row.ownerId, heightToDb height⟩
  rows : ∀ row' ∈ t'.inodes, ∃ row ∈ t.inodes, row.id = row'.id ∧ row.ownerId = row'.ownerId

variable {t t₁ t₂ t' : DriveTables} {height : Nat}

lemma LogGrows.owners (hg : LogGrows height t t') (hk : InodeKeys t.inodes) (hos : LogOwners t) :
    LogOwners t' := by
  intro entry hl row' ht hs
  obtain ⟨row, hr, hi, how⟩ := hg.rows row' ht
  rw [← how]
  rcases hg.came entry hl with old | ⟨other, ho, rfl⟩
  · exact hos entry old row hr (hs.trans hi.symm)
  · rw [hk.eq_of_id ho hr (hs.trans hi.symm)]

lemma LogGrows.trans (hf : LogGrows height t t₁) (hs : LogGrows height t₁ t₂) :
    LogGrows height t t₂ := by
  refine ⟨fun entry hl => hs.kept entry (hf.kept entry hl), ?_, ?_⟩
  · intro entry hl
    rcases hs.came entry hl with hm | ⟨row₁, ht, he⟩
    · exact hf.came entry hm
    · obtain ⟨row, hr, hi, ho⟩ := hf.rows row₁ ht
      exact .inr ⟨row, hr, by rw [he, hi, ho]⟩
  · intro row₂ ht
    obtain ⟨row₁, hr1, hi1, ho1⟩ := hs.rows row₂ ht
    obtain ⟨row, hr, hi, ho⟩ := hf.rows row₁ hr1
    exact ⟨row, hr, hi.trans hi1, ho.trans ho1⟩

lemma LogGrows.of_rows (log : t'.modificationLog = t.modificationLog)
    (rows : ∀ row' ∈ t'.inodes, ∃ row ∈ t.inodes, row.id = row'.id ∧ row.ownerId = row'.ownerId) :
    LogGrows height t t' :=
  ⟨fun _ hl => log ▸ hl, fun _ hl => .inl (log ▸ hl), rows⟩

/-- Entries for some of the tables' own inodes, `rows` among them. -/
structure EntriesAdded (rows : List Inode) (height : Nat) (t t' : DriveTables) : Prop where
  same : DriveTables.SameRows t t'
  kept : ∀ entry ∈ t.modificationLog, entry ∈ t'.modificationLog
  came : ∀ entry ∈ t'.modificationLog, entry ∈ t.modificationLog ∨
    ∃ row ∈ t.inodes, entry = ⟨row.id, row.ownerId, heightToDb height⟩
  logged : InodeKeys t.inodes → LogOwners t → ∀ row ∈ rows, HasEntry t' row height

variable {path : Path} {rows rows₁ rows₂ : List Inode} {row : Inode} {ownerId : Int}

lemma EntriesAdded.grows (hs : EntriesAdded rows height t t') : LogGrows height t t' :=
  ⟨hs.kept, hs.came, fun row ht => ⟨row, hs.same.inodes ▸ ht, rfl, rfl⟩⟩

lemma EntriesAdded.owners (hs : EntriesAdded rows height t t') (hk : InodeKeys t.inodes)
    (how : LogOwners t) : LogOwners t' :=
  hs.grows.owners hk how

lemma EntriesAdded.refl (t : DriveTables) (height : Nat) : EntriesAdded [] height t t :=
  ⟨.refl t, fun _ hl => hl, fun _ hl => .inl hl, fun _ _ _ hi =>
    absurd hi not_mem_nil⟩

lemma EntriesAdded.trans (hfi : EntriesAdded rows₁ height t t₁)
    (hs : EntriesAdded rows₂ height t₁ t₂) : EntriesAdded (rows₁ ++ rows₂) height t t₂ := by
  have hg := hfi.grows.trans hs.grows
  refine ⟨hfi.same.trans hs.same, hg.kept, hg.came, fun hk ho row hr => ?_⟩
  rcases mem_append.1 hr with hf | hse
  · exact hs.kept _ (hfi.logged hk ho row hf)
  · exact hs.logged (hfi.same.inodes ▸ hk) (hfi.owners hk ho) row hse

lemma EntriesAdded.less (hs : EntriesAdded rows height t t') {fewer}
    (hf : ∀ row ∈ fewer, row ∈ rows) : EntriesAdded fewer height t t' :=
  ⟨hs.same, hs.kept, hs.came, fun hk ho row hfe =>
    hs.logged hk ho row (hf row hfe)⟩

lemma logOne_step (ht : row ∈ t.inodes) :
    EntriesAdded [row] height t (t.logOne row.id row.ownerId height) := by
  unfold logOne
  split_ifs with hp
  · refine ⟨.refl t, fun _ hl => hl, fun _ hl => .inl hl, ?_⟩
    -- The entry that is there is the row's own.
    intro _ ho other hr
    obtain ⟨entry, hl, hi, hh⟩ := hp
    rw [mem_singleton.1 hr, HasEntry]
    have he : entry = ⟨row.id, row.ownerId, heightToDb height⟩ := by
      obtain ⟨_, _, _⟩ := entry
      simp only at hi hh
      have how := ho _ hl row ht hi
      simp only at how
      rw [hi, hh, how]
    exact he ▸ hl
  · refine ⟨⟨rfl, rfl, rfl⟩, fun _ hl => mem_append_left _ hl, ?_, ?_⟩
    · intro entry hl
      rcases mem_append.1 hl with old | new
      · exact .inl old
      · exact .inr ⟨row, ht, mem_singleton.1 new⟩
    · intro _ _ other hr
      rw [mem_singleton.1 hr]
      exact mem_append_right _ (mem_singleton.2 rfl)

lemma EntriesAdded.foldl {log : DriveTables → Inode → DriveTables}
    (step : ∀ {t row}, row ∈ t.inodes → EntriesAdded [row] height t (log t row))
    (ht : ∀ row ∈ rows, row ∈ t.inodes) : EntriesAdded rows height t (rows.foldl log t) := by
  induction rows generalizing t with
  | nil => exact .refl t height
  | cons row rest ih =>
    have hf := step (ht row mem_cons_self)
    refine hf.trans (ih fun other hl => ?_)
    rw [hf.same.inodes]
    exact ht other (mem_cons_of_mem _ hl)

lemma logInodes_step (ht : ∀ row ∈ rows, row ∈ t.inodes) :
    EntriesAdded rows height t (t.logInodes rows height) :=
  .foldl logOne_step ht

lemma logAncestors_step :
    EntriesAdded (t.ancestorFolders path ownerId) height t
    (t.logAncestorModifications path ownerId height) :=
  logInodes_step fun _ hr => (mem_filter.1 hr).1

lemma logModification_step (ht : row ∈ t.inodes) {oldPath newPath} :
    EntriesAdded (row :: (newPath.toList.flatMap fun path => t.ancestorFolders path row.ownerId))
      height t (t.logModification row.id row.ownerId oldPath newPath height) := by
  have hfi : EntriesAdded [row] height t (t.logOne row.id row.ownerId height) := logOne_step ht
  -- The folders above a path are the same while only the log grows.
  have hf : ∀ {t' : DriveTables} (path : Path), DriveTables.SameRows t t' →
      t'.ancestorFolders path row.ownerId = t.ancestorFolders path row.ownerId := by
    intro t' path hs
    rw [ancestorFolders, hs.inodes]
    rfl
  have ha : ∀ path, EntriesAdded [row] height t
      ((t.logOne row.id row.ownerId height).logAncestorModifications path row.ownerId height) :=
    fun _ => (hfi.trans logAncestors_step).less fun _ hr => mem_append_left _ hr
  have han : ∀ {t' : DriveTables} (path : Path), EntriesAdded [row] height t t' →
      EntriesAdded (row :: t.ancestorFolders path row.ownerId) height t
        (t'.logAncestorModifications path row.ownerId height) := by
    intro t' path hb
    refine (hb.trans logAncestors_step).less fun other hr => ?_
    rw [hf path hb.same]
    simpa using hr
  unfold logModification
  cases oldPath with
  | none =>
    cases newPath with
    | none => exact hfi
    | some path => simpa using han path hfi
  | some old =>
    cases newPath with
    | none => exact ha old
    | some path => simpa using han path (ha old)

variable {userId : Int}

lemma deleteFiles_log : LogGrows height t (t.deleteFiles path userId height).1 ∧
    (InodeKeys t.inodes → LogOwners t → ∀ row ∈ t.inodes, DriveTables.Selected path userId row →
      HasEntry (t.deleteFiles path userId height).1 row height) := by
  have ha : EntriesAdded (t.ancestorFolders path userId) height t
      (t.logAncestorModifications path userId height) := logAncestors_step
  have hf : ∀ row' ∈ (t.deleteFiles path userId height).1.inodes, ∃ row ∈ t.inodes,
      row.id = row'.id ∧ row.ownerId = row'.ownerId := by
    intro row ht
    rw [deleteFiles_rows.1] at ht
    exact ⟨row, (mem_filter.1 ht).1, rfl, rfl⟩
  revert hf
  rw [deleteFiles]
  generalize t.logAncestorModifications path userId height = base at ha
  intro hf
  split_ifs at hf ⊢ with hn
  · refine ⟨⟨ha.kept, ha.came, hf⟩, ?_⟩
    intro _ _ row ht hs
    rw [ha.same.inodes] at hn
    exact absurd (by simpa using hs) (filter_eq_nil_iff.1 hn row ht)
  · have step :=
      ha.trans (logInodes_step fun _ hr => (mem_filter.1 hr).1 : EntriesAdded _ height base
      (base.logInodes (base.inodes.filter fun row => DriveTables.Selected path userId row) height))
    simp only [leaveShares_foldl] at hf ⊢
    refine ⟨⟨step.kept, step.came, hf⟩, ?_⟩
    intro hk ho row ht hs
    refine step.logged hk ho row (mem_append_right _ (mem_filter.2 ⟨ha.same.inodes ▸ ht, ?_⟩))
    simpa using hs

variable {newPath : Path} {replace : Bool} {old nid : BlobId}

lemma changePath_log {item} (ran : t.changePath item newPath replace height = .ok t') :
    LogGrows height t t' ∧
    (InodeKeys t.inodes → LogOwners t → ∀ row ∈ t.inodes, Occupies item newPath row →
      HasEntry t' row height) := by
  obtain ⟨middle, hc, rfl, _⟩ := changePath_ok ran
  have hm : LogGrows height middle
      { middle with inodes := middle.inodes.map (moveInode item newPath) } := by
    refine .of_rows rfl fun row' hma => ?_
    obtain ⟨row, ht, rfl⟩ := mem_map.1 hma
    obtain ⟨path, hmo⟩ := moveInode_eq item newPath row
    rw [hmo]
    exact ⟨row, ht, rfl, rfl⟩
  rcases clearDestination_ok hc with ⟨hf, rfl⟩ | ⟨_, rfl⟩
  · refine ⟨hm, ?_⟩
    rintro _ _ row ht ⟨how, hth, hot⟩
    exact absurd ⟨hth, how, hot⟩ (hf row ht)
  · obtain ⟨hg, hl⟩ :=
      (deleteFiles_log : LogGrows height t (t.deleteFiles newPath item.ownerId height).1 ∧ _)
    refine ⟨hg.trans hm, ?_⟩
    intro hk ho row ht hth
    refine hl hk ho row ht ⟨hth.1, ?_⟩
    rw [hth.2.1, inSubtree]
    simp

lemma logSharers_step :
    EntriesAdded (t.inodes.filter fun row => row.dataId = some nid ∧ row.ownerId ≠ userId) height t
      (t.logSharers userId nid height) := by
  refine .foldl (fun ht => ?_) fun _ hr => (mem_filter.1 hr).1
  exact (logModification_step ht).less fun other hro => mem_cons.2 (.inl (mem_singleton.1 hro))

lemma propagate_log {new updates} (ran : t.propagate userId old new updates height = .ok t') :
    LogGrows height t t' ∧
    (InodeKeys t.inodes → LogOwners t → new ≠ none → ∀ row ∈ t.inodes, row.dataId = some old →
      row.ownerId ≠ userId → row.ownerId ∈ t.sharersOf old → HasEntry t' row height) := by
  have hr : ∀ new, LogGrows height t (t.repointSharers userId old new) := by
    intro new
    refine .of_rows rfl fun row' hm => ?_
    obtain ⟨row, ht, rfl⟩ := mem_map.1 hm
    refine ⟨row, ht, ?_⟩
    split_ifs <;> exact ⟨rfl, rfl⟩
  unfold propagate at ran
  split_ifs at ran with hn
  · cases ran
    refine ⟨.of_rows rfl fun row ht => ⟨row, ht, rfl, rfl⟩, ?_⟩
    intro _ _ _ row _ _ _ hs
    rw [hn] at hs
    exact absurd hs not_mem_nil
  · cases new with
    | none =>
      cases ran
      exact ⟨hr none, fun _ _ hi => absurd rfl hi⟩
    | some nid =>
      simp only [bind_eq_ok, updateSharesDataBlock_ok, pure_eq_ok] at ran
      obtain ⟨middle, ⟨rfl, _⟩, rfl⟩ := ran
      rw [updateIncoming_foldl]
      have step : EntriesAdded _ height (t.repointSharers userId old (some nid))
          ((t.repointSharers userId old (some nid)).logSharers userId nid height) := logSharers_step
      have hb := (hr (some nid)).trans step.grows
      refine ⟨{ hb with }, ?_⟩
      intro hk ho _ row ht hh hot hs
      have hth : { row with dataId := some nid } ∈ (t.repointSharers userId old
          (some nid)).inodes :=
            mem_map.2 ⟨row, ht, if_pos ⟨hh, hot, hs⟩⟩
      have hk' : InodeKeys (t.repointSharers userId old (some nid)).inodes := by
        refine (inodeKeys_map_data fun row => ?_).2 hk
        split_ifs
        · exact ⟨_, rfl⟩
        · exact ⟨row.dataId, rfl⟩
      exact step.logged hk' ((hr (some nid)).owners hk ho) { row with dataId := some nid }
        (mem_filter.2 ⟨hth, by simpa using hot⟩)

end HopNet
