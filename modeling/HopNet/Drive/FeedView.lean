import HopNet.Drive.Mount
import HopNet.Drive.TreeRuns
import Mathlib.Data.List.TakeWhile

namespace HopNet

open SlashPath List Option

section

variable {a g : Path}

lemma last_slash (s : Path) : '/' ∉ s ∨ ∃ a g, s = a ++ '/' :: g ∧ '/' ∉ g := by
  induction s with
  | nil => exact .inl not_mem_nil
  | cons c s ih =>
    rcases ih with hp | ⟨a, g, rfl, hp⟩
    · by_cases hs : c = '/'
      · exact .inr ⟨[], s, by rw [hs]; rfl, hp⟩
      · exact .inl (by simp [Ne.symm hs, hp])
    · exact .inr ⟨c :: a, g, rfl, hp⟩

lemma parentPath_append (hp : '/' ∉ g) : parentPath (a ++ '/' :: g) = a := by
  have hb : (a ++ '/' :: g).reverse = g.reverse ++ '/' :: a.reverse := by simp
  have hpl : (g.reverse ++ '/' :: a.reverse).idxOf '/' = g.length := by
    rw [idxOf_append_of_notMem (by simpa using hp)]
    simp
  rw [parentPath, hb, instrSlash, if_pos (by simp), hpl, length_append, length_cons,
    Nat.add_sub_cancel, take_left]

lemma lastComponent_append : lastComponent (a ++ '/' :: g) = lastComponent g := by
  rw [lastComponent, lastComponent, reverse_append, reverse_cons, append_assoc, takeWhile_append]
  split_ifs with hw
  · have all : g.reverse.takeWhile (fun c => decide (c ≠ '/')) = g.reverse :=
      ( takeWhile_prefix _).eq_of_length hw
    have hs : ([ '/' ] ++ a.reverse).takeWhile (fun c => decide (c ≠ '/')) = [] := rfl
    rw [hs, append_nil, all]
  · rfl

lemma lastComponent_plain (hp : '/' ∉ g) : lastComponent g = g := by
  have all : g.reverse.takeWhile (· ≠ '/') = g.reverse := by
    refine takeWhile_eq_self_iff.2 ?_
    intro c inG
    have : c ≠ '/' := fun hs => hp (hs ▸ mem_reverse.1 inG)
    simpa using this
  rw [lastComponent, all, reverse_reverse]

lemma HexPath.last {path} (hex : HexPath path) :
    ∃ a g, path = a ++ '/' :: g ∧ '/' ∉ g ∧ g ≠ [] := by
  obtain ⟨segments, hn, hd, rfl⟩ := hex
  obtain ⟨front, g, rfl⟩ := eq_nil_or_concat segments |>.resolve_left hn
  rw [concat_eq_append] at hd ⊢
  have hs : pathOf (front ++ [g]) = pathOf front ++ '/' :: g := by
    simp [pathOf, flatMap_append]
  exact ⟨pathOf front, g, hs, fun hsl => absurd ((hd g (by simp)).2 _ hsl) (by decide),
    (hd g (by simp)).1⟩

end

section

def viewOf (inodes : List Inode) (row : Inode) :
    Option CustomUUID × List Char × InodeType × Option BlobId :=
  (parentId inodes row, lastComponent row.path, row.inodeType, row.dataId)

def seen (t : DriveTables) (userId : Int) (id : CustomUUID) :
    Option (Option CustomUUID × List Char × InodeType × Option BlobId) :=
  (t.inodeOf id userId).map (viewOf t.inodes)

variable {inodes inodes' : List Inode} {t t' : DriveTables} {row row' p : Inode} {a a' g : Path}

lemma parentId_at (hk : InodeKeys inodes) (ht : p ∈ inodes) (ho : p.ownerId = row.ownerId)
    (path : row.path = p.path ++ '/' :: g) (hp : '/' ∉ g) : parentId inodes row = some p.id := by
  have ha : parentPath row.path = p.path := by rw [path, parentPath_append hp]
  rw [parentId, ha]
  cases hf : inodes.find? fun parent => parent.path = p.path ∧ parent.ownerId = row.ownerId with
  | none => exact absurd (by simp [ho]) (find?_eq_none.1 hf p ht)
  | some q =>
    have hth : q.path = p.path ∧ q.ownerId = row.ownerId := by simpa using find?_some hf
    rw [hk.eq_of_path (mem_of_find?_eq_some hf) ht (hth.2.trans ho.symm) hth.1]
    rfl

lemma DriveTree.parentId_root (hg : DriveTree inodes) (path : row.path = '/' :: g) (hp : '/' ∉ g) :
    parentId inodes row = none := by
  have ha : parentPath row.path = [] := by
    rw [path]
    exact parentPath_append (a := []) hp
  rw [parentId, ha, map_eq_none_iff, find?_eq_none]
  intro q ht hth
  have hth : q.path = [] ∧ q.ownerId = row.ownerId := by simpa using hth
  exact (hg.hex q ht).ne_nil hth.1

/-- A row with its last segment and its parent inode is seen as before. -/
lemma viewOf_carried (hg : DriveTree inodes) (hg' : DriveTree inodes') (ht : row ∈ inodes)
    (how : row'.ownerId = row.ownerId) (hk : row'.inodeType = row.inodeType)
    (hd : row'.dataId = row.dataId) (path : row.path = a ++ '/' :: g)
    (path' : row'.path = a' ++ '/' :: g) (hpl : '/' ∉ g) (hr : a = [] → a' = [])
    (hp : ∀ p ∈ inodes, p.ownerId = row.ownerId → p.path = a →
      ∃ p' ∈ inodes', p'.id = p.id ∧ p'.ownerId = row.ownerId ∧ p'.path = a') :
    viewOf inodes' row' = viewOf inodes row := by
  have hs : parentId inodes' row' = parentId inodes row := by
    by_cases top : a = []
    · subst top
      rw [hr rfl] at path'
      rw [hg.parentId_root path hpl, hg'.parentId_root path' hpl]
    · obtain ⟨p, inP, ho, hpp, _⟩ := hg.tree row ht a ⟨top, g, path⟩
      obtain ⟨p', inP', same, ho', hp'⟩ := hp p inP ho hpp
      rw [parentId_at hg.keys inP ho (hpp ▸ path) hpl,
        parentId_at hg'.keys inP' (ho'.trans how.symm) (hp' ▸ path') hpl, same]
  rw [viewOf, viewOf, hs, hk, hd, path, path', lastComponent_append, lastComponent_append]

/-- A row whose parents stay where they are is seen as before. -/
lemma viewOf_kept (hg : DriveTree inodes) (hg' : DriveTree inodes') (ht : row ∈ inodes)
    (hp : ∀ p ∈ inodes, p.ownerId = row.ownerId → Ancestor p.path row.path →
      ∃ p' ∈ inodes', p'.id = p.id ∧ p'.ownerId = p.ownerId ∧ p'.path = p.path) :
    viewOf inodes' row = viewOf inodes row := by
  obtain ⟨a, g, path, hpl, _⟩ := (hg.hex row ht).last
  refine viewOf_carried hg hg' ht rfl rfl rfl path path hpl id fun p inP ho atA => ?_
  obtain ⟨p', inP', hi, ho', hp'⟩ := hp p inP ho ⟨(hg.hex p inP).ne_nil, g, atA ▸ path⟩
  exact ⟨p', inP', hi, ho'.trans ho, hp'.trans atA⟩

lemma seen_of_mem (hk : InodeKeys t.inodes) (ht : row ∈ t.inodes) :
    seen t row.ownerId row.id = some (viewOf t.inodes row) := by
  rw [seen]
  cases hf : t.inodeOf row.id row.ownerId with
  | none => exact absurd (by simp) (find?_eq_none.1 hf row ht)
  | some other =>
    obtain ⟨ho, hs, _⟩ := inodeOf_some hf
    rw [hk.eq_of_id ho ht hs]
    rfl

lemma seen_eq_none {userId id}
    (ha : ∀ row ∈ t.inodes, ¬ (row.id = id ∧ row.ownerId = userId)) : seen t userId id = none := by
  rw [seen, map_eq_none_iff, DriveTables.inodeOf, find?_eq_none]
  intro row ht
  simpa using fun hi => not_and.1 (ha row ht) hi

/-- Tables are seen alike wherever rows are carried over, apart from `Changed`. -/
lemma seen_same_or (Changed : CustomUUID → Int → Prop) (hk : InodeKeys t.inodes)
    (hk' : InodeKeys t'.inodes)
    (hf : ∀ row ∈ t.inodes, Changed row.id row.ownerId ∨ ∃ row' ∈ t'.inodes,
      row'.id = row.id ∧ row'.ownerId = row.ownerId ∧ viewOf t'.inodes row' = viewOf t.inodes row)
    (hb : ∀ row' ∈ t'.inodes, Changed row'.id row'.ownerId ∨ ∃ row ∈ t.inodes,
      row.id = row'.id ∧ row.ownerId = row'.ownerId) (userId : Int) (id : CustomUUID) :
    Changed id userId ∨ seen t' userId id = seen t userId id := by
  by_cases hp : ∃ row ∈ t.inodes, row.id = id ∧ row.ownerId = userId
  · obtain ⟨row, ht, rfl, rfl⟩ := hp
    rcases hf row ht with hc | ⟨row', ht', hsi, hs, hv⟩
    · exact .inl hc
    · have hth := seen_of_mem hk' ht'
      rw [hsi, hs, hv] at hth
      exact .inr (hth.trans (seen_of_mem hk ht).symm)
  · by_cases hl : ∃ row' ∈ t'.inodes, row'.id = id ∧ row'.ownerId = userId
    · obtain ⟨row', ht', rfl, rfl⟩ := hl
      rcases hb row' ht' with hc | ⟨row, ht, hsi, hs⟩
      · exact .inl hc
      · exact absurd ⟨row, ht, hsi, hs⟩ hp
    · refine .inr ?_
      rw [seen_eq_none fun row ht is => hp ⟨row, ht, is⟩, seen_eq_none fun row ht is =>
        hl ⟨row, ht, is⟩]

end

variable {t t' : DriveTables} {newPath : Path} {replace : Bool}

/-- New rows are not parents of old ones: those had theirs. -/
lemma seen_append {added} (hg : DriveTree t.inodes) (hg' : DriveTree t'.inodes)
    (hr : t'.inodes = t.inodes ++ added) (userId : Int) (id : CustomUUID) :
    (∃ row ∈ added, row.id = id ∧ row.ownerId = userId) ∨ seen t' userId id = seen t userId id := by
  have hs : ∀ row ∈ t.inodes, row ∈ t'.inodes := fun row ht => hr ▸ mem_append_left _ ht
  refine seen_same_or (fun id userId => ∃ row ∈ added, row.id = id ∧ row.ownerId = userId)
    hg.keys hg'.keys ?_ ?_ userId id
  · intro row ht
    exact .inr ⟨row, hs row ht, rfl, rfl, viewOf_kept hg hg' ht fun p inP _ _ =>
      ⟨p, hs p inP, rfl, rfl, rfl⟩⟩
  · intro row ht
    rw [hr] at ht
    rcases mem_append.1 ht with old | new
    · exact .inr ⟨row, old, rfl, rfl⟩
    · exact .inl ⟨row, new, rfl, rfl⟩

lemma seen_filter {gone : Inode → Prop} [DecidablePred gone] (hg : DriveTree t.inodes)
    (hg' : DriveTree t'.inodes) (rows : t'.inodes = t.inodes.filter fun row => ¬ gone row)
    (userId : Int) (id : CustomUUID) :
    (∃ row ∈ t.inodes, gone row ∧ row.id = id ∧ row.ownerId = userId) ∨
      seen t' userId id = seen t userId id := by
  have hc : ∀ row ∈ t'.inodes, row ∈ t.inodes := fun row ht => (mem_filter.1 (rows ▸ ht)).1
  refine seen_same_or
    (fun id userId => ∃ row ∈ t.inodes, gone row ∧ row.id = id ∧ row.ownerId = userId)
    hg.keys hg'.keys ?_ (fun row ht => .inr ⟨row, hc row ht, rfl, rfl⟩) userId id
  intro row ht
  by_cases goes : gone row
  · exact .inl ⟨row, ht, goes, rfl, rfl⟩
  · have hs : row ∈ t'.inodes := by
      rw [rows]
      exact mem_filter.2 ⟨ht, by simpa using goes⟩
    refine .inr ⟨row, hs, rfl, rfl, viewOf_kept hg hg' ht fun p inP how ha => ?_⟩
    obtain ⟨folder, hf, ho, hp, _⟩ := hg'.tree row hs p.path ha
    have same := hg.keys.eq_of_path (hc folder hf) inP (ho.trans how.symm) hp
    exact ⟨p, same ▸ hf, rfl, rfl, rfl⟩

lemma seen_map {g : Inode → Inode} (hg : DriveTree t.inodes) (hg' : DriveTree t'.inodes)
    (hp : ∀ row, ∃ dataId, g row = { row with dataId := dataId })
    (rows : t'.inodes = t.inodes.map g) (userId : Int) (id : CustomUUID) :
    (∃ row ∈ t.inodes, g row ≠ row ∧ row.id = id ∧ row.ownerId = userId) ∨
      seen t' userId id = seen t userId id := by
  have hth : ∀ row ∈ t.inodes, g row ∈ t'.inodes := fun row ht => rows ▸ mem_map_of_mem ht
  refine seen_same_or
    (fun id userId => ∃ row ∈ t.inodes, g row ≠ row ∧ row.id = id ∧ row.ownerId = userId)
    hg.keys hg'.keys ?_ ?_ userId id
  · intro row ht
    by_cases same : g row = row
    · have hs : row ∈ t'.inodes := same ▸ hth row ht
      refine .inr ⟨row, hs, rfl, rfl, viewOf_kept hg hg' ht fun p inP _ _ => ?_⟩
      obtain ⟨d, isP⟩ := hp p
      exact ⟨g p, hth p inP, by rw [isP], by rw [isP], by rw [isP]⟩
    · exact .inl ⟨row, ht, same, rfl, rfl⟩
  · intro row' ht
    rw [rows] at ht
    obtain ⟨row, hr, rfl⟩ := mem_map.1 ht
    obtain ⟨d, hro⟩ := hp row
    exact .inr ⟨row, hr, by rw [hro], by rw [hro]⟩

lemma seen_move {item} (hg' : DriveTree t'.inodes)
    (move : Moved t.inodes t'.inodes item newPath replace) (userId : Int) (id : CustomUUID) :
    ((id = item.id ∧ userId = item.ownerId) ∨
        ∃ row ∈ t.inodes, Occupies item newPath row ∧ row.id = id ∧ row.ownerId = userId) ∨
      seen t' userId id = seen t userId id := by
  have hg := move.good
  refine seen_same_or (fun id userId => (id = item.id ∧ userId = item.ownerId) ∨
    ∃ row ∈ t.inodes, Occupies item newPath row ∧ row.id = id ∧ row.ownerId = userId)
    hg.keys hg'.keys ?_ ?_ userId id
  · intro row ht
    by_cases hth : Occupies item newPath row
    · exact .inl (.inr ⟨row, ht, hth, rfl, rfl⟩)
    by_cases hmo : row.ownerId = item.ownerId ∧ Under item.path row.path
    · obtain ⟨mine, hh | ⟨s, hb⟩⟩ := hmo
      · rw [hg.keys.eq_of_path ht move.inItem mine hh]
        exact .inl (.inl ⟨rfl, rfl⟩)
      · have hmd := move.kept ht hth
        rw [renamed_below mine hb] at hmd
        refine .inr ⟨_, hmd, rfl, rfl, ?_⟩
        rcases last_slash s with hp | ⟨m, g, rfl, hp⟩
        · -- The item is the parent, before and after.
          refine viewOf_carried hg hg' ht rfl rfl rfl hb rfl hp
            (fun hr => absurd hr (hg.hex item move.inItem).ne_nil) fun p inP how hit => ?_
          have hi := hg.keys.eq_of_path inP move.inItem (how.trans mine) hit
          exact ⟨_, move.item_there, by rw [hi], mine.symm, rfl⟩
        · have path : row.path = (item.path ++ '/' :: m) ++ '/' :: g := by rw [hb]; simp
          have hp' : newPath ++ '/' :: (m ++ '/' :: g) = (newPath ++ '/' :: m) ++ '/' :: g := by
            simp
          refine viewOf_carried hg hg' ht rfl rfl rfl path hp' hp
            (fun hr => absurd hr (by simp)) fun p inP how atM => ?_
          have hmp := how.trans mine
          have hf : ¬ Occupies item newPath p := fun ho =>
            move.outside (hg.folder_of_below move.inItem inP hmp ⟨m, atM⟩)
              (.inr (ho.2.1 ▸ ⟨m, atM⟩))
          have hm := move.kept inP hf
          rw [renamed_below hmp atM] at hm
          exact ⟨_, hm, rfl, how, rfl⟩
    · refine .inr ⟨row, move.stays ht hth hmo, rfl, rfl,
        viewOf_kept hg hg' ht fun p inP how ha => ?_⟩
      exact ⟨p, move.above_stays ht inP how ha.2 hmo, rfl, rfl, rfl⟩
  · intro row' ht
    rw [move.rows] at ht
    obtain ⟨row, hk, rfl⟩ := mem_map.1 ht
    exact .inr ⟨row, (mem_filter.1 hk).1, (renamed_id row).symm, (renamed_owner row).symm⟩

end HopNet
