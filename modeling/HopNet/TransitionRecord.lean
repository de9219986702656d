import HopNet.Lifecycle

namespace HopNet

open List

variable {t : StorageTables} {view : ViewSnapshot} {row : TransitionRow}

def RecordKeyed (t : StorageTables) : Prop := t.transitions.Pairwise fun a b => a.height ≠ b.height

lemma RecordKeyed.eq_of_height (hk : RecordKeyed t) {a b}
    (inA : a ∈ t.transitions) (inB : b ∈ t.transitions) (same : a.height = b.height) : a = b := by
  by_contra ha
  have hs : Std.Symm fun a b : TransitionRow => a.height ≠ b.height :=
    ⟨fun a b hd => hd.symm⟩
  exact List.Pairwise.forall hk inA inB ha same

lemma RecordKeyed.recordTransition (hk : RecordKeyed t) (height : Nat)
    (snapshot : ViewSnapshot) : RecordKeyed (recordTransition height snapshot t) := by
  have hi : RecordKeyed { t with
      transitions := t.transitions.filter (fun row => row.height ≠ heightToDb height) ++
        [⟨heightToDb height, snapshot⟩] } := by
    refine pairwise_append.2 ⟨hk.filter _, pairwise_singleton _ _, ?_⟩
    intro a inA b inB
    have ha := (mem_filter.1 inA).2
    rw [mem_singleton.1 inB]
    simpa using ha
  unfold HopNet.recordTransition
  cases latestTransition t.transitions with
  | none => exact hi
  | some latest =>
    dsimp only
    split_ifs
    · exact hk
    · exact hi

/-- The row in force: at or below the height, and none there is later. -/
structure InForce (t : StorageTables) (height : Int) (row : TransitionRow) : Prop where
  recorded : row ∈ t.transitions
  below : row.height ≤ height
  latest : ∀ other ∈ t.transitions, other.height ≤ height → other.height ≤ row.height

lemma InForce.of_transitionAt {height}
    (hf : transitionAt t height = some row) : InForce t height row := by
  have hm := argmax_mem (Option.mem_def.2 hf)
  simp only [mem_filter, decide_eq_true_eq] at hm
  refine ⟨hm.1, hm.2, fun other hr hb => ?_⟩
  exact le_of_mem_argmax (mem_filter.2 ⟨hr, by simpa using hb⟩) hf

lemma InForce.of_snapshotAt {height} (hf : snapshotAt t height = some view) :
    ∃ row, InForce t (heightToDb height) row ∧ row.snapshot = view := by
  obtain ⟨row, at_, hs⟩ := Option.map_eq_some_iff.1 hf
  exact ⟨row, .of_transitionAt at_, hs⟩

lemma mem_snapshotsIn {fromExclusive toInclusive}
    (hr : row ∈ t.transitions) (ha : heightToDb fromExclusive < row.height)
    (hu : row.height ≤ heightToDb toInclusive) :
    row.snapshot ∈ snapshotsIn t fromExclusive toInclusive := by
  unfold snapshotsIn
  simp only [mem_map, mem_insertionSort, mem_filter, decide_eq_true_eq]
  exact ⟨row, ⟨hr, ha, hu⟩, rfl⟩

lemma mem_pushUnseen {seen snapshot view} :
    view ∈ pushUnseen seen snapshot ↔ view ∈ seen ∨ view = snapshot := by
  unfold pushUnseen
  split_ifs with hp
  · constructor
    · exact .inl
    · intro he
      cases he with
      | inl old => exact old
      | inr new => exact new ▸ hp
  · simp

lemma mem_foldl_pushUnseen {snapshots seen : List ViewSnapshot} :
    view ∈ snapshots.foldl pushUnseen seen ↔ view ∈ seen ∨ view ∈ snapshots := by
  induction snapshots generalizing seen with
  | nil => simp
  | cons first rest ih => rw [foldl_cons, ih, mem_pushUnseen, mem_cons, or_assoc]

/-- The view of a goal between the confirmed and the current one is among the epochs, by its row or
as the confirmed view. -/
lemma epochsForBlob_covers (P : Primitives) (hk : RecordKeyed t) {blobId} {c g d : Nat} {epochs}
    (low : heightToDb c ≤ heightToDb g) (high : heightToDb g ≤ heightToDb d)
    (hfe : snapshotAt t g = some view)
    (ha : epochsForBlob P t blobId (some c) d = some epochs) :
    view.assignment P blobId ∈ epochs.assignments := by
  obtain ⟨row, hfo, rfl⟩ := InForce.of_snapshotAt hfe
  simp only [epochsForBlob] at ha
  cases hc : snapshotAt t c with
  | none => simp [hc] at ha
  | some confirmed =>
    simp only [hc] at ha
    by_cases haf : heightToDb c < row.height
    · have hm : d ≠ c := by
        intro same
        subst same
        have := hfo.below
        omega
      cases hg : snapshotAt t d with
      | none => simp [hm, hg] at ha
      | some target =>
        simp only [hm, hg, if_false] at ha
        cases ha
        have hr := mem_snapshotsIn hfo.recorded haf (hfo.below.trans high)
        have seen : row.snapshot ∈
            pushUnseen ((snapshotsIn t c d).foldl pushUnseen []) target :=
          mem_pushUnseen.2 (.inl (mem_foldl_pushUnseen.2 (.inr hr)))
        exact mem_append_right _ (mem_map_of_mem seen)
    · obtain ⟨old, hf, hs⟩ := InForce.of_snapshotAt hc
      have hh : row.height = old.height := by
        apply le_antisymm
        · exact hf.latest row hfo.recorded (by omega)
        · exact hfo.latest old hf.recorded (hf.below.trans low)
      have same : row.snapshot = confirmed := by
        rw [← hs, hk.eq_of_height hfo.recorded hf.recorded hh]
      split_ifs at ha with hst
      · cases ha
        simp [ProtectionEpochs.assignments, same]
      · cases hg : snapshotAt t d with
        | none => simp [hg] at ha
        | some target =>
          simp only [hg] at ha
          cases ha
          simp [ProtectionEpochs.assignments, same]

end HopNet
