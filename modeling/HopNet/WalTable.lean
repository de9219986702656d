import HopNet.Lib.SeqLog
import HopNet.Seams

namespace HopNet

open SeqLog List Store

/-- The rows of a height in the order in which they were inserted. -/
def rowsAt (wal : List WalRow) (height : Nat) : List WalRow :=
  wal.filter (·.height = height)

/-- A height's rows hold a log: numbered as added, and whole but for a torn one at the end. -/
inductive HoldsLog : List WalRow → List WireWalEntry → Prop
  | whole {rows} (numbered : Numbered WalRow.seq rows) (intact : ∀ row ∈ rows, row.torn = false) :
    HoldsLog rows (rows.map (·.entry))
  | torn {rows last} (numbered : Numbered WalRow.seq (rows ++ [last]))
    (intact : ∀ row ∈ rows, row.torn = false) (tail : last.torn = true) :
    HoldsLog (rows ++ [last]) (rows.map (·.entry))

section

variable {wal : List WalRow} {row : WalRow} {height : Nat}

lemma height_of_mem_rowsAt (hr : row ∈ rowsAt wal height) : row.height = height :=
  of_decide_eq_true (mem_filter.1 hr).2

lemma rowsAt_append_self (hh : row.height = height) :
    rowsAt (wal ++ [row]) height = rowsAt wal height ++ [row] := by
  simp [rowsAt, hh]

lemma rowsAt_append_of_ne (ha : row.height ≠ height) :
    rowsAt (wal ++ [row]) height = rowsAt wal height := by
  simp [rowsAt, ha]

lemma rowsAt_filter (p : WalRow → Bool) :
    rowsAt (wal.filter p) height = (rowsAt wal height).filter p := by
  simp only [rowsAt, filter_filter, Bool.and_comm]

end

namespace HoldsLog

variable {rows before : List WalRow} {log : List WireWalEntry} {row : WalRow}

lemma nil : HoldsLog [] [] := .whole numbered_nil (by simp)

lemma numbered (hh : HoldsLog rows log) : Numbered WalRow.seq rows := by
  cases hh with
  | whole numbered => exact numbered
  | torn numbered => exact numbered

lemma map_entry (hh : HoldsLog rows log) (hi : ∀ row ∈ rows, row.torn = false) :
    rows.map (·.entry) = log := by
  cases hh with
  | whole => rfl
  | torn _ _ tail =>
    rw [hi _ (by simp)] at tail
    cases tail

lemma append (hh : HoldsLog rows log) (hi : ∀ row ∈ rows, row.torn = false)
    (hn : row.seq = rows.length) (hf : row.torn = false) :
    HoldsLog (rows ++ [row]) (log ++ [row.entry]) := by
  have said : (rows ++ [row]).map (·.entry) = log ++ [row.entry] := by simp [hh.map_entry hi]
  rw [← said]
  exact .whole (hh.numbered.append hn) (forall_mem_append.2 ⟨hi, forall_mem_singleton.2 hf⟩)

lemma tear (hh : HoldsLog (before ++ [row]) log) (hf : row.torn = false) :
    HoldsLog (before ++ [{ row with torn := true }]) log.dropLast := by
  generalize hr : before ++ [row] = rows at hh
  cases hh with
  | whole numbered intact =>
    subst hr
    obtain ⟨hn, next⟩ := numbered.of_append
    rw [map_append, map_singleton, dropLast_concat]
    exact .torn (hn.append next) (fun row hb => intact row (mem_append_left _ hb)) rfl
  | torn _ _ tail =>
    obtain ⟨_, last⟩ := append_inj' hr rfl
    cases last
    rw [hf] at tail
    cases tail

end HoldsLog

variable {σ : Type} {s : Store σ} {height : Nat} {log : List WireWalEntry} {before : List WalRow}

lemma rowsAt_deleteWal {last} (rows : rowsAt s.wal height = before ++ [last])
    (hn : Numbered WalRow.seq (before ++ [last])) :
    rowsAt (s.deleteWal height last.seq).wal height = before := by
  have hr : ∀ row ∈ before ++ [last], row.height = height := by
    intro row hr
    rw [← rows] at hr
    exact height_of_mem_rowsAt hr
  rw [deleteWal, rowsAt_filter, rows, filter_append]
  have hk : before.filter (fun row => ¬ (row.height = height ∧ row.seq = last.seq)) = before := by
    rw [filter_eq_self]
    intro row hb
    have hbe := hn.of_append.1.lt hb
    have next := hn.of_append.2
    have ha : row.seq ≠ last.seq := by omega
    simp [ha]
  rw [hk]
  simp [hr last (by simp)]

lemma rowsAt_deleteWal_of_ne {k seq : Nat} (ha : k ≠ height) :
    rowsAt (s.deleteWal height seq).wal k = rowsAt s.wal k := by
  rw [deleteWal, rowsAt_filter, filter_eq_self]
  intro row hr
  simp [height_of_mem_rowsAt hr, ha]

lemma walRows_eq (hn : Numbered WalRow.seq (rowsAt s.wal height)) :
    s.walRows height = rowsAt s.wal height :=
  hn.insertionSort

lemma walFetch_of_intact (hn : Numbered WalRow.seq (rowsAt s.wal height))
    (hi : ∀ row ∈ rowsAt s.wal height, row.torn = false) :
    walFetch height s = .ok ((rowsAt s.wal height).map (·.entry), s) := by
  have clean : ¬ (rowsAt s.wal height).dropLast.any (·.torn) = true := by
    simpa using fun row hr => hi row (dropLast_subset _ hr)
  rw [walFetch, walRows_eq hn, if_neg clean]
  cases hl : (rowsAt s.wal height).getLast? with
  | none =>
    rw [getLast?_eq_none_iff.1 hl]
    rfl
  | some row =>
    dsimp only
    rw [hi row (mem_of_getLast? hl)]
    rfl

lemma walFetch_of_torn {last} (hr : rowsAt s.wal height = before ++ [last])
    (hn : Numbered WalRow.seq (before ++ [last])) (hi : ∀ row ∈ before, row.torn = false)
    (ht : last.torn = true) :
    walFetch height s = .ok (before.map (·.entry), s.deleteWal height last.seq) := by
  have clean : ¬ before.any (·.torn) = true := by simpa using hi
  rw [walFetch, walRows_eq (hr ▸ hn), hr, dropLast_concat, if_neg clean]
  rw [getLast?_append, getLast?_singleton, Option.some_or]
  dsimp only
  rw [if_pos ht]

lemma walFetch_holds (hh : HoldsLog (rowsAt s.wal height) log) :
    ∃ wal, walFetch height s = .ok (log, { s with wal }) ∧
      HoldsLog (rowsAt wal height) log ∧ (∀ row ∈ rowsAt wal height, row.torn = false) ∧
      ∀ k ≠ height, rowsAt wal k = rowsAt s.wal k := by
  generalize hr : rowsAt s.wal height = rows at hh
  cases hh with
  | whole numbered intact =>
    subst hr
    exact ⟨s.wal, walFetch_of_intact numbered intact, .whole numbered intact, intact,
      fun _ _ => rfl⟩
  | @torn before last numbered intact tail =>
    have left := rowsAt_deleteWal hr numbered
    refine ⟨(s.deleteWal height last.seq).wal, walFetch_of_torn hr numbered intact tail, ?_, ?_,
      fun k => rowsAt_deleteWal_of_ne⟩
    · rw [left]
      exact .whole numbered.of_append.1 intact
    · rw [left]
      exact intact

/-- Each height's log after an event: appended and not truncated, reset or torn. -/
def WalEvent.onLog (log : Nat → List WireWalEntry) : WalEvent → Nat → List WireWalEntry
  | .appended height entry, k => if k = height then log k ++ [entry] else log k
  | .truncated upTo, k => if k ≤ upTo then [] else log k
  | .reset, _ => []
  | .torn height, k => if k = height then (log k).dropLast else log k

def logOf (trail : List WalEvent) : Nat → List WireWalEntry :=
  trail.foldl WalEvent.onLog fun _ => []

/-- Every height's rows hold its log. -/
def Tabled {σ : Type} (s : Store σ) : Prop :=
  ∀ height, HoldsLog (rowsAt s.wal height) (logOf s.trail height)

lemma logOf_snoc (trail : List WalEvent) (event : WalEvent) :
    logOf (trail ++ [event]) = event.onLog (logOf trail) := by
  rw [logOf, foldl_append]
  rfl

/-- A row under the next number of a height whose rows are whole. -/
lemma Tabled.append (ht : Tabled s) {row}
    (hi : ∀ other ∈ rowsAt s.wal row.height, other.torn = false)
    (hn : row.seq = (rowsAt s.wal row.height).length) (hf : row.torn = false) :
    Tabled { s with
      wal := s.wal ++ [row]
      trail := s.trail ++ [.appended row.height row.entry] } := by
  intro height
  simp only [logOf_snoc, WalEvent.onLog]
  by_cases hh : height = row.height
  · rw [if_pos hh, rowsAt_append_self hh.symm]
    subst hh
    exact (ht row.height).append hi hn hf
  · rw [if_neg hh, rowsAt_append_of_ne fun hs => hh hs.symm]
    exact ht height

lemma rowsAt_truncate (wal : List WalRow) (upTo height : Nat) :
    rowsAt (wal.filter fun row => upTo < row.height) height =
      if height ≤ upTo then [] else rowsAt wal height := by
  rw [rowsAt_filter]
  split_ifs with hg
  · rw [filter_eq_nil_iff]
    intro row hr hk
    have ha := of_decide_eq_true hk
    rw [height_of_mem_rowsAt hr] at ha
    omega
  · rw [filter_eq_self]
    intro row hr
    rw [height_of_mem_rowsAt hr]
    exact decide_eq_true (by omega)

lemma Tabled.truncate {s' : Store σ} (ht : Tabled s) {upTo : Nat}
    (hw : s'.wal = s.wal.filter fun row => upTo < row.height)
    (hl : s'.trail = s.trail ++ [.truncated upTo]) : Tabled s' := by
  intro height
  rw [hw, hl, logOf_snoc, rowsAt_truncate]
  simp only [WalEvent.onLog]
  split_ifs
  · exact .nil
  · exact ht height

lemma Tabled.tear {before row} (ht : Tabled s) (last : s.wal = before ++ [row])
    (hf : row.torn = false) : Tabled { s with
      wal := before ++ [{ row with torn := true }]
      trail := s.trail ++ [.torn row.height] } := by
  intro height
  have hh := ht height
  rw [last] at hh
  simp only [logOf_snoc, WalEvent.onLog]
  by_cases here : height = row.height
  · rw [rowsAt_append_self here.symm] at hh
    rw [if_pos here, @rowsAt_append_self _ { row with torn := true } _ here.symm]
    exact hh.tear hf
  · have ha : row.height ≠ height := fun hs => here hs.symm
    rw [rowsAt_append_of_ne ha] at hh
    rw [if_neg here, @rowsAt_append_of_ne _ { row with torn := true } _ ha]
    exact hh

/-- A fetch returns the log and leaves the height without torn rows and the others as they were. -/
lemma Tabled.fetch (ht : Tabled s) {entries s'} (ran : walFetch height s = .ok (entries, s')) :
    entries = logOf s.trail height ∧ Tabled s' ∧
      (∀ row ∈ rowsAt s'.wal height, row.torn = false) ∧
      (rowsAt s'.wal height).length = entries.length ∧
      ∀ k ≠ height, rowsAt s'.wal k = rowsAt s.wal k := by
  obtain ⟨wal, ok, hh, hi, ho⟩ := walFetch_holds (ht height)
  have hs := Prod.mk.inj (Except.ok.inj (ran.symm.trans ok))
  rw [hs.1, hs.2]
  refine ⟨rfl, fun k => ?_, hi, by rw [← hh.map_entry hi, length_map], ho⟩
  by_cases here : k = height
  · rw [here]
    exact hh
  · rw [ho k here]
    exact ht k

end HopNet
