import HopNet.HostBlocks
import HopNet.Lib.Table

/-! What a committed decide has written to the store: the application's tables, the ledger's row and
the log. -/

namespace HopNet

open Fallible Store Runs

lemma Store.begin_ok {faults} {σ : Type} {s s' : Store σ}
    (hb : s.begin faults = (.ok (), s')) : s' = { s with ops := s.ops + 1 } := by
  unfold begin at hb
  split at hb
  · cases hb
    rfl
  cases hb

lemma Store.storeDecided_ok {cert} {σ : Type} {block}
    {s s' : Store σ} (hs : storeDecided block cert s = .ok s') :
    s' = { s with decided := s.decided ++ [(block, cert)] } ∧
      ∀ row ∈ s.decided, row.1.data.height ≠ block.data.height := by
  unfold storeDecided at hs
  split at hs
  · cases hs
  · rename_i hf
    cases hs
    refine ⟨rfl, ?_⟩
    intro row hm same
    apply hf
    exact List.any_eq_true.2 ⟨row, hm, by simp [same]⟩

lemma Store.decideAtomically_ok {A faults cert} {encodable : Block → Bool} {height} {block : Block}
    {s s'} (ran : decideAtomically faults A encodable height block cert s = .ok ((), s')) :
    A.applyBlock s.app s.ops height block = .ok s'.app ∧ s'.decided = s.decided ++ [(block, cert)] ∧
      (∀ row ∈ s.decided, row.1.data.height ≠ block.data.height) ∧
      s'.wal = (s.wal.filter fun row => height < row.height) ∧
      s'.trail = s.trail ++ [.truncated height] := by
  unfold decideAtomically at ran
  rw [bind_eq_ok] at ran
  obtain ⟨app, ha, ran⟩ := ran
  by_cases hr : encodable block = false
  · rw [if_pos hr] at ran
    cases ran
  rw [if_neg hr] at ran
  rw [bind_eq_ok] at ran
  obtain ⟨stored, hs, ran⟩ := ran
  obtain ⟨rfl, hf⟩ := storeDecided_ok hs
  dsimp only at ran
  split at ran
  · cases ran
  · rename_i committed hb
    cases ran
    rw [begin_ok hb]
    exact ⟨ha, rfl, hf, rfl, rfl⟩

/-- The tables that the ledger's rows leave, applied in their order from `start`. -/
inductive Ledgered (A : Application) (start : A.State) :
    List (Block × WireCommitCertificate) → A.State → Prop
  | nil : Ledgered A start [] start
  | snoc {rows app app' ops block cert} (before : Ledgered A start rows app)
      (fresh : ∀ row ∈ rows, row.1.data.height ≠ block.data.height)
      (named : block.blockHash = cert.valueId)
      (applied : A.applyBlock app ops cert.height block = .ok app') :
      Ledgered A start (rows ++ [(block, cert)]) app'

variable {E : Engine} {A : Application} {C : HostConfig} {start : A.State} {store : Store A.State}
  {height : Nat} {past : List (NodeEvent A)} {node : Node E A}

lemma Ledgered.heights {rows app} (hl : Ledgered A start rows app) :
    (rows.map (·.1.data.height)).Nodup := by
  induction hl with
  | nil => exact .nil
  | snoc _ fresh _ _ ih => exact Table.nodup_map_append_singleton.2 ⟨ih, fresh⟩

lemma ledger_rules (start : A.State) :
    Rules C
    (⟨fun _ => True, fun _ => True, fun s => Ledgered A start s.decided s.app⟩ : Watch A) := by
  refine ⟨fun _ _ => trivial, fun _ inv => inv, fun _ _ _ inv => inv, ?_⟩
  intro s s' block cert _ named inv ran
  obtain ⟨applied, rows, fresh, _⟩ := decideAtomically_ok ran
  show Ledgered A start s'.decided s'.app
  rw [rows]
  exact .snoc inv fresh named applied

/-- Whatever the engine does and wherever the node stops, no block is applied without its row or
twice, and no row is there whose block was not applied. -/
theorem tables_follow_ledger (kept : Ledgered A start store.decided store.app)
    (run : Reaches (NodeStep C) (Node.cold C store height) past node)
    (restarts : ∀ store height, .restart store height ∈ past →
      Ledgered A start store.decided store.app) :
    Ledgered A start node.core.store.decided node.core.store.app ∧
      (node.core.store.decided.map (·.1.data.height)).Nodup := by
  have logged : ∀ (s : Store A.State) height, Logged (fun _ => True) s height := by
    intro s height row _ _
    cases row.entry <;> trivial
  have stepped : Reaches (BringStep C (fun _ => True) (fun _ => True) fun s =>
      Ledgered A start s.decided s.app) (Node.cold C store height) past node := by
    induction run with
    | refl => exact .refl
    | @snoc past node node' event _ step ih =>
      refine .snoc (ih fun s h hr => restarts s h (List.mem_append_left _ hr)) ⟨step, ?_⟩
      cases event with
      | input i =>
        refine ⟨?_, fun _ _ => logged _ _⟩
        cases i with
        | wire msg => cases msg <;> trivial
        | _ => trivial
      | restart s h => exact ⟨restarts s h (by simp), logged _ _⟩
  have hl := (tracked_of_reaches (ledger_rules start) (fun _ _ => trivial) kept stepped).store
  exact ⟨hl, hl.heights⟩

theorem forged_follows_ledger : forgedNode.core.store.decided.length = 1 ∧
    Ledgered sampleApplication sampleGenesis forgedNode.core.store.decided
      forgedNode.core.store.app := by
  have run : Reaches (NodeStep sampleHost) sampleCold forgedEvents forgedNode :=
    .of_foldlM (Node.step_of_after sampleHost _ _ _) (Option.some_get _).symm
  refine ⟨by decide +kernel, (tables_follow_ledger .nil run ?_).1⟩
  intro store height hr
  simp [forgedEvents, proposalOf, voteFor] at hr
  rw [hr.1]
  exact .nil

end HopNet
