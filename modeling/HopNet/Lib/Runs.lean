import Mathlib.Data.List.Basic

/-! Labelled transition systems. -/

namespace Runs

open Option

variable {σ ι : Type}

/-- `Reaches step s₀ past s`: the steps labelled `past`, oldest first, lead from `s₀` to `s`. -/
inductive Reaches (step : σ → ι → σ → Prop) (s₀ : σ) : List ι → σ → Prop
  | refl : Reaches step s₀ [] s₀
  | snoc {past s s' l} : Reaches step s₀ past s → step s l s' → Reaches step s₀ (past ++ [l]) s'

/-- Where the labels lead, if they all go through. -/
def final (next : σ → ι → Option σ) (s : σ) (labels : List ι) : σ := (labels.foldlM next s).getD s

variable {step : σ → ι → σ → Prop} {s₀ s s' : σ} {past : List ι}

namespace Reaches

/-- What holds at the start and every step keeps holds at every state reached, with the labels so
far. -/
lemma invariant (Inv : List ι → σ → Prop) (hs : Inv [] s₀)
    (hk : ∀ past s l s', Reaches step s₀ past s → Inv past s → step s l s' → Inv (past ++ [l]) s')
    (run : Reaches step s₀ past s) : Inv past s := by
  induction run with
  | refl => exact hs
  | snoc hb ht ih => exact hk _ _ _ _ hb ih ht

lemma invariant_state (Inv : σ → Prop) (hs : Inv s₀) (hk : ∀ s l s', Inv s → step s l s' → Inv s')
    (run : Reaches step s₀ past s) : Inv s :=
  run.invariant (fun _ s => Inv s) hs fun _ _ _ _ _ inv ht => hk _ _ _ inv ht

lemma trans {later} (hf : Reaches step s₀ past s)
    (hs : Reaches step s later s') : Reaches step s₀ (past ++ later) s' := by
  induction hs with
  | refl => simpa using hf
  | snoc _ ht ih => rw [← List.append_assoc]; exact .snoc ih ht

lemma of_foldlM {next : σ → ι → Option σ} (hs : ∀ {s l s'}, next s l = some s' → step s l s')
    {labels} : ∀ {s}, labels.foldlM next s = some s' → Reaches step s labels s' := by
  induction labels with
  | nil =>
    intro s he
    cases he
    exact .refl
  | cons l rest ih =>
    intro s he
    simp only [List.foldlM_cons, bind_eq_bind, bind_eq_some_iff] at he
    obtain ⟨middle, hf, ho⟩ := he
    have one : Reaches step s [l] middle := .snoc .refl (hs hf)
    exact one.trans (ih ho)

/-- A run by a step function that lets a label through only if it meets a condition. -/
lemma of_guarded {next : σ → ι → Option σ} {ok : σ → ι → Prop} [∀ s l, Decidable (ok s l)]
    (hs : ∀ {s l s'}, next s l = some s' → step s l s') {labels}
    (ran : labels.foldlM (fun s l => if ok s l then next s l else none) s = some s') :
    Reaches (fun s l s' => step s l s' ∧ ok s l) s labels s' := by
  refine .of_foldlM (fun hn => ?_) ran
  rw [ite_none_right_eq_some] at hn
  exact ⟨hs hn.2, hn.1⟩

/-- A run is evaluated for what holds at its end. -/
lemma exists_of_foldlM {next : σ → ι → Option σ} (hs : ∀ {s l s'}, next s l = some s' → step s l s')
    {labels} {P : σ → Prop} [DecidablePred P] (ran : (labels.foldlM next s).any (P ·)) :
    ∃ s', Reaches step s labels s' ∧ P s' := by
  obtain ⟨s', ran, hp⟩ := (any_eq_true _ _).1 ran
  exact ⟨s', .of_foldlM hs ran, of_decide_eq_true hp⟩

lemma exists_of_guarded {next : σ → ι → Option σ} {ok : σ → ι → Prop} [∀ s l, Decidable (ok s l)]
    (hs : ∀ {s l s'}, next s l = some s' → step s l s') {labels} {P : σ → Prop} [DecidablePred P]
    (ran : (labels.foldlM (fun s l => if ok s l then next s l else none) s).any (P ·)) :
    ∃ s', Reaches (fun s l s' => step s l s' ∧ ok s l) s labels s' ∧ P s' := by
  obtain ⟨s', ran, hp⟩ := (any_eq_true _ _).1 ran
  exact ⟨s', .of_guarded hs ran, of_decide_eq_true hp⟩

lemma head (run : Reaches step s₀ past s) :
    (past = [] ∧ s = s₀) ∨ ∃ l rest m, past = l :: rest ∧ step s₀ l m ∧ Reaches step m rest s := by
  induction run with
  | refl => exact .inl ⟨rfl, rfl⟩
  | @snoc past s s' l' hb ht ih =>
    rcases ih with ⟨rfl, rfl⟩ | ⟨l, rest, m, rfl, hf, ho⟩
    · exact .inr ⟨l', [], s', rfl, ht, .refl⟩
    · exact .inr ⟨l, rest ++ [l'], m, rfl, hf, .snoc ho ht⟩

end Reaches

end Runs
