import HopNet.Lib.Timeline
import HopNet.Db

namespace HopNet

open Fallible Timeline List ValidatorRow

variable {R : Type} {rows : List ValidatorRow} {nodeId : Int} {height : Nat}
  {rows new : List ValidatorRow} {row : ValidatorRow}

structure ValidatorEntry where
  nodeId : Int
  name : String
  owner : Int
  pubkey : PubKey

/-- The primary key of `validators`. -/
abbrev RowsKeyed (rows : List ValidatorRow) : Prop :=
  Keyed ValidatorRow.nodeId effectiveHeight rows

/-- The query's common table: the active among the rows that count at `height`. -/
def activeRows (rows : List ValidatorRow) (height : Nat) : List ValidatorRow :=
  rows.filter fun r =>
    IsLatest ValidatorRow.nodeId effectiveHeight rows height r ∧ r.isActive

def NodeRow.entry (n : NodeRow) : ValidatorEntry := ⟨n.nodeId, n.name, n.owner, n.pubkey⟩

variable (db : Db R)

def getValidators (height : Nat) : List ValidatorEntry :=
  (activeRows db.validators height).flatMap fun v =>
    (db.nodes.filter (·.nodeId = v.nodeId)).map NodeRow.entry

def countActiveValidators (height : Nat) : Nat :=
  (activeRows db.validators height).length

/-- The latest row at or before `height` decides; without one it was never seated. -/
def rowActive (rows : List ValidatorRow) (nodeId : Int) (height : Nat) : Bool :=
  match latest ValidatorRow.nodeId effectiveHeight rows nodeId height with
  | some r => r.isActive
  | none => false

def isNodeActive (nodeId : Int) (height : Nat) : Bool :=
  rowActive db.validators nodeId height

def insertRow (row : ValidatorRow) : DbResult (Db R) :=
  if ∃ r ∈ db.validators, r.nodeId = row.nodeId ∧ r.effectiveHeight = row.effectiveHeight then
    .error .insertError
  else .ok { db with validators := db.validators ++ [row] }

/-- The node's earliest activation ahead of the decided height. -/
def futureActivation (nodeId : Int) : Option Nat :=
  (db.validators.filter fun r =>
    r.nodeId = nodeId ∧ db.currentHeight < r.effectiveHeight ∧ r.isActive).map
      (·.effectiveHeight) |>.argmin id

/-- Move a pending activation (the hot swap), or insert a new one. -/
def activateValidator (nodeId : Int) (effectiveHeight : Nat) : DbResult (Db R) :=
  match futureActivation db nodeId with
  | some old =>
    if old ≠ effectiveHeight ∧ ∃ r ∈ db.validators,
        r.nodeId = nodeId ∧ r.effectiveHeight = effectiveHeight then
      .error .insertError
    else .ok { db with validators := db.validators.map fun r =>
      if r.nodeId = nodeId ∧ r.effectiveHeight = old then { r with effectiveHeight } else r }
  | none => insertRow db ⟨effectiveHeight, nodeId, true, none⟩

def deactivateValidator (nodeId : Int) (effectiveHeight : Nat) (kind : DepartureKind) :
    DbResult (Db R) :=
  insertRow db ⟨effectiveHeight, nodeId, false, some kind⟩

lemma insertRow_ok {db db' : Db R} : insertRow db row = .ok db' ↔
    (∀ r ∈ db.validators, ¬ (r.nodeId = row.nodeId ∧ r.effectiveHeight = row.effectiveHeight)) ∧
    db' = { db with validators := db.validators ++ [row] } := by
  unfold insertRow
  split
  · rename_i ht
    obtain ⟨r, hr, hs⟩ := ht
    refine iff_of_false (by simp) ?_
    rintro ⟨hf, _⟩
    exact hf r hr hs
  · rename_i hf
    simp only [not_exists, not_and] at hf
    simp only [Except.ok.injEq, not_and]
    exact ⟨fun hs => ⟨hf, hs.symm⟩, fun hb => hb.2.symm⟩

/-- With no row ahead of the decided height the hot swap never applies. -/
lemma activateValidator_eq_insertRow {db : Db R} {effectiveHeight}
    (hb : ∀ r ∈ db.validators, r.effectiveHeight ≤ db.currentHeight) :
    activateValidator db nodeId effectiveHeight = insertRow db
      ⟨effectiveHeight, nodeId, true, none⟩ := by
  have none : futureActivation db nodeId = none := by
    unfold futureActivation
    rw [argmin_eq_none, map_eq_nil_iff, filter_eq_nil_iff]
    intro r hr
    have hbo := hb r hr
    simp only [decide_eq_true_eq]
    omega
  rw [activateValidator, none]

lemma keyed_append_singleton (hk : RowsKeyed rows)
    (hf : ∀ r ∈ rows, ¬ (r.nodeId = row.nodeId ∧ r.effectiveHeight = row.effectiveHeight)) :
    RowsKeyed (rows ++ [row]) := by
  refine pairwise_append.2 ⟨hk, pairwise_singleton _ _, ?_⟩
  intro a hr b hn
  obtain rfl := mem_singleton.1 hn
  exact hf a hr

lemma rowActive_iff (hk : RowsKeyed rows) (nodeId : Int) (height : Nat) :
    rowActive rows nodeId height = true ↔ ∃ r ∈ activeRows rows height, r.nodeId = nodeId := by
  unfold rowActive activeRows
  constructor
  · intro hac
    cases hf : latest ValidatorRow.nodeId effectiveHeight rows nodeId height with
    | none => simp [hf] at hac
    | some r =>
      obtain ⟨hr, hn, hl⟩ := latest_mem hf
      rw [hf] at hac
      exact ⟨r, by simpa [mem_filter] using ⟨hr, hl, hac⟩, hn⟩
  · rintro ⟨r, ha, hn⟩
    simp only [mem_filter, decide_eq_true_eq] at ha
    rw [latest_of_mem hk ha.1 hn ha.2.1]
    exact ha.2.2

lemma activeRows_nodup (hk : RowsKeyed rows) (height : Nat) :
    ((activeRows rows height).map (·.nodeId)).Nodup := by
  rw [nodup_iff_pairwise_ne, pairwise_map]
  have hd : RowsKeyed (activeRows rows height) := List.Pairwise.filter _ hk
  refine List.Pairwise.imp_of_mem ?_ hd
  intro a b inA inB ha hs
  simp only [activeRows, mem_filter, decide_eq_true_eq] at inA inB
  have hsh : a.effectiveHeight = b.effectiveHeight :=
    le_antisymm (inB.2.1.2 a inA.1 hs inA.2.1.1) (inA.2.1.2 b inB.1 hs.symm inB.2.1.1)
  exact ha ⟨hs, hsh⟩

lemma activeRows_append_of_lt (hla : ∀ r ∈ new, height < r.effectiveHeight) :
    activeRows (rows ++ new) height = activeRows rows height := by
  unfold activeRows
  have none : new.filter (fun r => decide (IsLatest ValidatorRow.nodeId
      effectiveHeight (rows ++ new) height r ∧ r.isActive)) = [] := by
    refine filter_eq_nil_iff.2 fun r hn => ?_
    have ha := hla r hn
    simp only [decide_eq_true_eq, not_and]
    intro hl
    exact absurd hl.1 (by omega)
  rw [filter_append, none, append_nil]
  refine filter_congr fun r hr => ?_
  have same : IsLatest ValidatorRow.nodeId effectiveHeight (rows ++ new) height r ↔
      IsLatest ValidatorRow.nodeId effectiveHeight rows height r := by
    refine and_congr_right fun _ => ⟨fun last r' ho => last r' (by simp [ho]), ?_⟩
    intro last r' hm hs he
    rcases mem_append.1 hm with ho | hn
    · exact last r' ho hs he
    · exact absurd he (by have ha := hla r' hn; omega)
  rw [decide_eq_decide]
  rw [same]

lemma rowActive_append_of_ne (ho : ∀ r ∈ new, r.nodeId ≠ nodeId) :
    rowActive (rows ++ new) nodeId height = rowActive rows nodeId height := by
  unfold rowActive
  rw [latest_append_of_ne ho]

lemma rowActive_eq_of_le {h h' : Nat}
    (hb : ∀ r ∈ rows, r.effectiveHeight ≤ h) (hb' : ∀ r ∈ rows, r.effectiveHeight ≤ h') :
    rowActive rows nodeId h = rowActive rows nodeId h' := by
  unfold rowActive
  rw [latest_eq_of_le hb hb']

lemma exists_other_active (hk : RowsKeyed rows)
    (two : 2 ≤ (activeRows rows height).length) (nodeId : Int) :
    ∃ other ≠ nodeId, rowActive rows other height = true := by
  have hn := activeRows_nodup hk height
  match hf : activeRows rows height with
  | [] => simp [hf] at two
  | [_] => simp [hf] at two
  | a :: b :: rest =>
    have ha : a.nodeId ≠ b.nodeId := by
      rw [hf] at hn
      simp only [map_cons, nodup_cons, mem_cons, not_or] at hn
      exact hn.1.1
    by_cases isA : a.nodeId = nodeId
    · exact ⟨b.nodeId, fun isB => ha (isA.trans isB.symm),
        (rowActive_iff hk _ _).2 ⟨b, by simp [hf], rfl⟩⟩
    · exact ⟨a.nodeId, isA, (rowActive_iff hk _ _).2 ⟨a, by simp [hf], rfl⟩⟩

lemma count_pos_of_active (hk : RowsKeyed rows) (hac : rowActive rows nodeId height = true) :
    1 ≤ (activeRows rows height).length := by
  obtain ⟨r, ha, _⟩ := (rowActive_iff hk nodeId height).1 hac
  exact length_pos_of_mem ha

end HopNet
