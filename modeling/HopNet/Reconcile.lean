import Mathlib.Data.List.Basic

namespace HopNet

open List Option

structure ClassState where
  holders : List Int
  /-- Under the target view. -/
  responsible : Int

structure ChunkState where
  classes : List ClassState
  up : List Int
  /-- Down, but still inside their decay tier. -/
  hopefulDown : List Int
  k : Nat
  watermark : Nat

inductive Duty where
  | reencode (classes : List Nat)
  | pull (cls : Nat)

namespace ChunkState

variable (state : ChunkState) (me : Int)

def Live (c : ClassState) : Prop := ∃ h ∈ c.holders, h ∈ state.up
deriving Decidable

def liveClassCount : Nat := state.classes.countP fun c => state.Live c

def Available : Prop := state.k ≤ state.liveClassCount
deriving Decidable

def indices (p : ClassState → Prop) [DecidablePred p] : List Nat :=
  (state.classes.zipIdx.filter fun e => p e.1).map (·.2)

/-- Re-encode what is dead and ready, then pull what is missing. -/
def plan : List Duty :=
  let ready := state.indices fun c => (c.responsible = me ∧ ¬ state.Live c) ∧
    (state.liveClassCount < state.watermark ∨ ¬ ∃ h ∈ c.holders, h ∈ state.hopefulDown)
  (if state.Available ∧ ready ≠ [] then [.reencode ready] else []) ++
    (state.indices fun c => c.responsible = me ∧ me ∉ c.holders ∧ state.Live c).map .pull

/-- Below the watermark the responsible of the lowest live class rebuilds what no live node owes. -/
def deputy : Option (List Nat) :=
  if state.Available ∧ state.liveClassCount < state.watermark then
    (state.classes.find? fun c => state.Live c).bind fun lowest =>
      let orphaned := state.indices fun c => ¬ state.Live c ∧ c.responsible ∉ state.up
      if lowest.responsible = me ∧ orphaned ≠ [] then some orphaned else none
  else none

def Rebuilds (i : Nat) : Prop :=
  (∃ classes, .reencode classes ∈ state.plan me ∧ i ∈ classes) ∨
    ∃ classes, state.deputy me = some classes ∧ i ∈ classes

/-- The responsible of the lowest live class is up. -/
def DeputyUp : Prop := ∃ lowest, state.classes.find? (fun c => state.Live c) = some lowest ∧
    lowest.responsible ∈ state.up

variable {state me} {i : Nat} {c : ClassState}

lemma mem_indices {p : ClassState → Prop} [DecidablePred p] :
    i ∈ state.indices p ↔ ∃ c, state.classes[i]? = some c ∧ p c := by
  simp [indices, mem_zipIdx_iff_getElem?]

section

variable (hk : state.k ≤ state.liveClassCount) (hw : state.liveClassCount < state.watermark)
include hk hw

lemma rebuilds_iff (hc : state.classes[i]? = some c) (hd : ¬ state.Live c) : state.Rebuilds me i ↔
    c.responsible = me ∨ c.responsible ∉ state.up ∧
      ∃ lowest, state.classes.find? (fun c => state.Live c) = some lowest ∧
        lowest.responsible = me := by
  have ha : state.Available := hk
  have hmem {p : ClassState → Prop} [DecidablePred p] : i ∈ state.indices p ↔ p c := by
    simp [mem_indices, hc]
  apply or_congr
  · simp only [plan, mem_append, List.mem_map, reduceCtorEq, and_false, exists_false, or_false,
      mem_ite_nil_right, mem_singleton, Duty.reencode.injEq, ha, hw, true_and, true_or, and_true]
    constructor
    · rintro ⟨_, ⟨_, rfl⟩, hi⟩
      exact (hmem.1 hi).1
    · intro hr
      exact ⟨_, ⟨ne_nil_of_mem (hmem.2 ⟨hr, hd⟩), rfl⟩, hmem.2 ⟨hr, hd⟩⟩
  · simp only [deputy, ha, hw, and_self, if_true, bind_eq_some_iff, ite_none_right_eq_some,
      some.injEq]
    constructor
    · rintro ⟨_, ⟨lowest, hl, ⟨hr, _⟩, rfl⟩, hi⟩
      exact ⟨(hmem.1 hi).2, lowest, hl, hr⟩
    · rintro ⟨hu, lowest, hl, hr⟩
      exact ⟨_, ⟨lowest, hl, ⟨hr, ne_nil_of_mem (hmem.2 ⟨hd, hu⟩)⟩, rfl⟩, hmem.2 ⟨hd, hu⟩⟩

theorem one_rebuilder_iff : (∀ i c, state.classes[i]? = some c → ¬ state.Live c →
      ∃! m, m ∈ state.up ∧ state.Rebuilds m i) ↔
    ∀ c ∈ state.classes, ¬ state.Live c → c.responsible ∈ state.up ∨ state.DeputyUp := by
  have hone : ∀ i c, state.classes[i]? = some c → ¬ state.Live c →
      ((∃! m, m ∈ state.up ∧ state.Rebuilds m i) ↔ c.responsible ∈ state.up ∨ state.DeputyUp) := by
    intro i c hc hd
    simp only [rebuilds_iff hk hw hc hd, DeputyUp]
    by_cases hu : c.responsible ∈ state.up
    · simp only [hu, not_true, false_and, or_false, true_or, iff_true]
      exact ⟨_, ⟨hu, rfl⟩, fun m hm => hm.2.symm⟩
    · simp only [hu, not_false_eq_true, true_and, false_or]
      constructor
      · rintro ⟨m, ⟨hm, rfl | ⟨lowest, hl, rfl⟩⟩, -⟩
        · exact absurd hm hu
        · exact ⟨lowest, hl, hm⟩
      · rintro ⟨lowest, hl, hr⟩
        refine ⟨_, ⟨hr, .inr ⟨lowest, hl, rfl⟩⟩, ?_⟩
        rintro m ⟨hm, rfl | ⟨other, ho, rfl⟩⟩
        · exact absurd hm hu
        · cases hl.symm.trans ho
          rfl
  constructor
  · intro h c hm hd
    obtain ⟨i, hi⟩ := mem_iff_getElem?.1 hm
    exact (hone i c hi hd).1 (h i c hi hd)
  · intro h i c hc hd
    exact (hone i c hc hd).2 (h c (mem_of_getElem? hc) hd)

end

/-- The first class lives on node 1; the second is dead, its responsible down. -/
def sampleChunk (responsible : Int) : ChunkState := ⟨[⟨[1], responsible⟩, ⟨[3], 2⟩], [1], [], 1, 2⟩

theorem one_rebuilder_iff_sample : ∃! m, m ∈ (sampleChunk 1).up ∧ (sampleChunk 1).Rebuilds m 1 :=
  (one_rebuilder_iff (by decide : (sampleChunk 1).Available) (by decide)).2
    (fun _ _ _ => .inr ⟨_, rfl, by decide⟩) 1 _ rfl (by decide)

/-- The deputy is not up either, and nobody rebuilds the class. -/
theorem not_rebuilt_sample :
    (sampleChunk 9).Available ∧ (sampleChunk 9).liveClassCount < (sampleChunk 9).watermark ∧
    ¬ (sampleChunk 9).Live ⟨[3], 2⟩ ∧ ¬ ∃ m ∈ (sampleChunk 9).up, (sampleChunk 9).Rebuilds m 1 := by
  refine ⟨by decide, by decide, by decide, ?_⟩
  rintro ⟨m, hm, hr⟩
  rw [rebuilds_iff (by decide) (by decide) rfl (by decide)] at hr
  obtain rfl := mem_singleton.1 hm
  simp [sampleChunk, Live] at hr

end ChunkState

end HopNet
