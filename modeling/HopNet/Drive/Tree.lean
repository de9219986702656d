import HopNet.Drive.Effects
import HopNet.Lib.Table

namespace HopNet

open Fallible SlashPath List DriveTables

def hexDigits : List Char :=
  ['0', '1', '2', '3', '4', '5', '6', '7', '8', '9', 'a', 'b', 'c', 'd', 'e', 'f']

/-- `/s₁/…/sₙ` with encrypted segments, in lower-case hexadecimal. -/
def HexPath (path : Path) : Prop :=
  ∃ segments : List (List Char), segments ≠ [] ∧
    (∀ g ∈ segments, g ≠ [] ∧ ∀ c ∈ g, c ∈ hexDigits) ∧ path = pathOf segments

/-- Every proper ancestor of an inode is a folder of the same user. -/
def TreeShaped (inodes : List Inode) : Prop :=
  ∀ row ∈ inodes, ∀ a, Ancestor a row.path →
    ∃ folder ∈ inodes, folder.ownerId = row.ownerId ∧ folder.path = a ∧ folder.inodeType = .folder

def Under (p path : Path) : Prop := path = p ∨ Below p path
deriving Decidable

variable {path : Path}

lemma HexPath.literal (hex : HexPath path) : LiteralPath path := by
  obtain ⟨segments, _, hd, rfl⟩ := hex
  have he : LiteralPath ('/' :: hexDigits) := by decide
  intro c hp
  obtain ⟨g, hs, hse⟩ := mem_flatMap.1 hp
  rcases mem_cons.1 hse with rfl | inG
  · exact he _ (by simp)
  · exact he c (mem_cons_of_mem _ ((hd g hs).2 c inG))

lemma HexPath.ne_nil (hex : HexPath path) : path ≠ [] := by
  obtain ⟨segments, hs, _, rfl⟩ := hex
  obtain ⟨g, gs, rfl⟩ := exists_cons_of_ne_nil hs
  simp [pathOf_cons]

lemma pathOf_eq_intercalate {segments} (hs : segments ≠ []) :
    pathOf segments = '/' :: ['/'].intercalate segments := by
  induction segments with
  | nil => exact absurd rfl hs
  | cons g gs ih =>
    cases gs with
    | nil => simp [pathOf]
    | cons g' gs' =>
      rw [pathOf_cons, ih (by simp), intercalate_cons_cons]
      simp

lemma hexPath_iff :
    HexPath path ↔ path = '/' :: path.drop 1 ∧ ∀ g ∈ (path.drop 1).splitOn '/', g ≠ [] ∧
      g ⊆ hexDigits := by
  constructor
  · rintro ⟨segments, hso, hd, rfl⟩
    have hp : ∀ g ∈ segments, '/' ∉ g :=
      fun g hs hsl => absurd ((hd g hs).2 _ hsl) (by decide)
    rw [pathOf_eq_intercalate hso, drop_succ_cons, drop_zero, splitOn_intercalate '/' hp hso]
    exact ⟨rfl, hd⟩
  · rintro ⟨hsl, hd⟩
    have hso : (path.drop 1).splitOn '/' ≠ [] := splitOn_ne_nil _ _
    refine ⟨_, hso, hd, ?_⟩
    rw [pathOf_eq_intercalate hso, intercalate_splitOn]
    exact hsl

instance (path : Path) : Decidable (HexPath path) := decidable_of_iff _ hexPath_iff.symm

/-- Every proper ancestor of the path is a folder of the user. -/
def RootedAt (inodes : List Inode) (userId : Int) (path : Path) : Prop :=
  ∀ a, Ancestor a path →
    ∃ folder ∈ inodes, folder.ownerId = userId ∧ folder.path = a ∧ folder.inodeType = .folder

lemma rootedAt_iff {inodes userId} :
    RootedAt inodes userId path ↔ ∀ a ∈ path.inits, Ancestor a path →
    ∃ folder ∈ inodes, folder.ownerId = userId ∧ folder.path = a ∧ folder.inodeType = .folder := by
  refine ⟨fun hr a _ => hr a, fun hc a ha => ?_⟩
  obtain ⟨s, hs⟩ := ha.2
  exact hc a ((mem_inits a _).2 (hs ▸ prefix_append a _)) ha

instance (inodes : List Inode) (userId : Int) (path : Path) :
    Decidable (RootedAt inodes userId path) :=
  decidable_of_iff _ rootedAt_iff.symm

instance (inodes : List Inode) : Decidable (TreeShaped inodes) :=
  inferInstanceAs (Decidable (∀ row ∈ inodes, RootedAt inodes row.ownerId row.path))

/-- Inodes with their keys, hexadecimal paths and the shape of a tree. -/
@[mk_iff]
structure DriveTree (inodes : List Inode) : Prop where
  keys : InodeKeys inodes
  hex : ∀ row ∈ inodes, HexPath row.path
  tree : TreeShaped inodes

variable {inodes : List Inode} {t t' : DriveTables} {item row : Inode} {newPath path : Path}
  {replace : Bool} {height : Nat} {userId : Int}

lemma InodeKeys.eq_of_path (hk : InodeKeys inodes) {a b} (inA : a ∈ inodes)
    (inB : b ∈ inodes) (ho : a.ownerId = b.ownerId) (path : a.path = b.path) : a = b :=
  inj_on_of_nodup_map hk.paths inA inB (Prod.ext ho path)

lemma InodeKeys.eq_of_id (hk : InodeKeys inodes) {a b} (inA : a ∈ inodes)
    (inB : b ∈ inodes) (hs : a.id = b.id) : a = b :=
  inj_on_of_nodup_map hk.ids inA inB hs

lemma DriveTree.not_below_file (hg : DriveTree inodes) {file} (hfi : file ∈ inodes)
    (hfe : file.inodeType = .file) (hr : row ∈ inodes) (ho : row.ownerId = file.ownerId) :
    ¬ Below file.path row.path := by
  intro hb
  obtain ⟨folder, hfo, hs, hp, hf⟩ :=
    hg.tree row hr file.path ⟨(hg.hex file hfi).ne_nil, hb⟩
  have same := hg.keys.eq_of_path hfo hfi (hs.trans ho) hp
  rw [same, hfe] at hf
  cases hf

lemma selected_iff (hli : LiteralPath path) (hl : LiteralPath row.path) :
    DriveTables.Selected path userId row ↔ row.ownerId = userId ∧ Under path row.path := by
  rw [DriveTables.Selected, inSubtree_iff hli hl, Under]

lemma deleteFiles_exact (hli : LiteralPath path) (hl : ∀ row ∈ t.inodes, LiteralPath row.path) :
    (t.deleteFiles path userId height).1.inodes =
      t.inodes.filter fun row => ¬ (row.ownerId = userId ∧ Under path row.path) := by
  rw [deleteFiles_rows.1]
  refine filter_congr fun row ht => ?_
  rw [decide_eq_decide, selected_iff hli (hl row ht)]

/-- The row of another inode of the owner at the destination. -/
def Occupies (item : Inode) (newPath : Path) (row : Inode) : Prop :=
  row.ownerId = item.ownerId ∧ row.path = newPath ∧ row.id ≠ item.id
deriving Decidable

/-- What an accepted replacement establishes about the occupant. -/
structure Replaceable (inodes : List Inode) (item : Inode) (replace : Bool) (occupant : Inode) :
    Prop where
  asked : replace = true
  sameType : occupant.inodeType = item.inodeType
  empty : ∀ row ∈ inodes, row.ownerId = item.ownerId → ¬ Below occupant.path row.path

lemma clearDestination_inodes (hg : DriveTree t.inodes)
    (hc : t.clearDestination item newPath replace height = .ok t') :
    t'.inodes = t.inodes.filter (fun row => ¬ Occupies item newPath row) ∧
      ∀ row ∈ t.inodes, Occupies item newPath row → Replaceable t.inodes item replace row := by
  unfold clearDestination at hc
  cases hfo : t.inodes.find? (fun row =>
      row.path = newPath ∧ row.ownerId = item.ownerId ∧ row.id ≠ item.id) with
  | none =>
    rw [hfo] at hc
    cases hc
    have free : ∀ row ∈ t.inodes, ¬ Occupies item newPath row := by
      intro row ht hth
      have := find?_eq_none.1 hfo row ht
      simp only [decide_eq_true_eq] at this
      exact this ⟨hth.2.1, hth.1, hth.2.2⟩
    refine ⟨?_, fun row ht hth => absurd hth (free row ht)⟩
    rw [eq_comm, filter_eq_self]
    intro row ht
    simpa using free row ht
  | some occupant =>
    rw [hfo] at hc
    simp only [bind_eq_ok, exists_require, pure_eq_ok] at hc
    obtain ⟨ha, hs, hf, _, _, rfl⟩ := hc
    have ht := mem_of_find?_eq_some hfo
    have hth : occupant.path = newPath ∧ occupant.ownerId = item.ownerId ∧
        occupant.id ≠ item.id := by
      simpa using find?_some hfo
    obtain ⟨rfl, how, hot⟩ := hth
    have hl := (hg.hex occupant ht).literal
    -- A folder was checked for children, and a file has none in a tree.
    have he : ∀ row ∈ t.inodes, row.ownerId = item.ownerId → ¬ Below occupant.path row.path := by
      intro row hr hm
      cases hk : occupant.inodeType with
      | file => exact hg.not_below_file ht hk hr (hm.trans how.symm)
      | folder =>
        intro hb
        refine hf ⟨hk, row, hr, hm, ?_⟩
        rw [like_below_iff hl (hg.hex row hr).literal]
        exact hb
    have ho : ∀ row ∈ t.inodes, row.ownerId = item.ownerId → row.path = occupant.path →
        row = occupant :=
      fun row hr hm hp => hg.keys.eq_of_path hr ht (hm.trans how.symm) hp
    refine ⟨?_, ?_⟩
    · rw [deleteFiles_exact hl fun row hr => (hg.hex row hr).literal]
      refine filter_congr fun row hr => ?_
      rw [decide_eq_decide, not_iff_not]
      constructor
      · rintro ⟨hm, hp | hb⟩
        · rw [ho row hr hm hp]
          exact ⟨how, rfl, hot⟩
        · exact absurd hb (he row hr hm)
      · rintro ⟨hm, hp, _⟩
        exact ⟨hm, .inl hp⟩
    · rintro row hr ⟨hm, hp, _⟩
      rw [ho row hr hm hp]
      exact ⟨ha, hs, he⟩

lemma moves_iff (good : DriveTree inodes) (hi : item ∈ inodes) (hr : row ∈ inodes) :
    DriveTables.Moves item row ↔ row.ownerId = item.ownerId ∧ Under item.path row.path := by
  rw [DriveTables.Moves, inSubtree_iff (good.hex item hi).literal (good.hex row hr).literal]
  refine and_congr_right fun ho => ?_
  cases kind : item.inodeType with
  | folder => simp [Under]
  | file =>
    have := good.not_below_file hi kind hr ho
    simp [Under, this]

/-- The row's place after the move. -/
def renamed (item : Inode) (newPath : Path) (row : Inode) : Inode :=
  if row.ownerId = item.ownerId ∧ Under item.path row.path then
    { row with path := newPath ++ row.path.drop item.path.length }
  else row

lemma renamed_id (row : Inode) : (renamed item newPath row).id = row.id := by
  unfold renamed
  split_ifs <;> rfl

/-- The table after an accepted move. -/
structure Moved (inodes inodes' : List Inode) (item : Inode) (newPath : Path) (replace : Bool) :
    Prop where
  good : DriveTree inodes
  inItem : item ∈ inodes
  rows : inodes' = (inodes.filter fun row => ¬ Occupies item newPath row).map (renamed item newPath)
  replaceable : ∀ row ∈ inodes, Occupies item newPath row → Replaceable inodes item replace row
  outside : item.inodeType = .folder → ¬ Under item.path newPath

lemma changePath_moved (hg : DriveTree t.inodes) (hit : item ∈ t.inodes)
    (hm : t.changePath item newPath replace height = .ok t') :
    Moved t.inodes t'.inodes item newPath replace ∧ InodeKeys t'.inodes := by
  unfold changePath movePaths at hm
  simp only [bind_eq_ok, exists_require, pure_eq_ok] at hm
  obtain ⟨hi, middle, hc, hd, rfl⟩ := hm
  obtain ⟨rows, hr⟩ := clearDestination_inodes hg hc
  have moved : middle.inodes.map (moveInode item newPath) =
      (t.inodes.filter fun row => ¬ Occupies item newPath row).map (renamed item newPath) := by
    rw [rows]
    refine map_congr_left fun row hk => ?_
    exact if_congr (moves_iff hg hit (mem_filter.1 hk).1) rfl rfl
  refine ⟨⟨hg, hit, moved, hr, fun kind hu => hi ⟨kind, hu.symm⟩⟩, ?_, hd⟩
  rw [moved, Table.map_key_map fun row _ => renamed_id row]
  exact hg.keys.ids.sublist (filter_sublist.map _)

end HopNet
