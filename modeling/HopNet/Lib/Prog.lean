import Mathlib.Logic.Basic

/-! Imperative programs: a state that is written in place, errors that keep the writes made before
them, and loops that may not return. -/

/-- `none` is a run that has not returned within its fuel. -/
def Prog (σ ε α : Type) : Type := σ → Option (Except ε α × σ)

namespace Prog

variable {σ ε ε' α β : Type} {f : α → Prog σ ε β} {x : Prog σ ε α} {e : ε} {s s' : σ}

instance : Monad (Prog σ ε) where
  pure a s := some (.ok a, s)
  bind x f s :=
    match x s with
    | none => none
    | some (.error e, s') => some (.error e, s')
    | some (.ok a, s') => f a s'

lemma bind_of_ok {a} (ran : x s = some (.ok a, s')) : (x >>= f) s = f a s' := by
  simp only [bind, ran]

lemma bind_of_error (ran : x s = some (.error e, s')) : (x >>= f) s = some (.error e, s') := by
  simp only [bind, ran]

lemma bind_of_none {s} (ran : x s = none) : (x >>= f) s = none := by
  simp only [bind, ran]

def fail (e : ε) : Prog σ ε α := fun s => some (.error e, s)

def get : Prog σ ε σ := fun s => some (.ok s, s)

def modify (f : σ → σ) : Prog σ ε Unit := fun s => some (.ok (), f s)

/-- A pure result, its error becoming one of the program's. -/
def lift (wrap : ε' → ε) (x : Except ε' α) : Prog σ ε α := fun s =>
  match x with
  | .ok a => some (.ok a, s)
  | .error e => some (.error (wrap e), s)

/-- `if p { x }`. -/
def when (p : Prop) [Decidable p] (x : Prog σ ε Unit) : Prog σ ε Unit := if p then x else pure ()

/-- Run `x` and look at how it ended. -/
def attempt (x : Prog σ ε α) : Prog σ ε (Except ε α) := fun s =>
  match x s with
  | none => none
  | some (r, s') => some (.ok r, s')

/-- `while body() {}`. -/
def loop : Nat → Prog σ ε Bool → Prog σ ε Unit
  | 0, _ => fun _ => none
  | fuel + 1, body => do
      let again ← body
      if again then loop fuel body else pure ()

/-- How a run ends: in `Q` with its result, or in `F` with its error. -/
def Ends (Q : α → σ → Prop) (F : ε → σ → Prop) : Except ε α → σ → Prop
  | .ok a => Q a
  | .error e => F e

/-- Every finished run from `P` ends in `Q` with its result, or fails in `F` with its error. -/
def Meets (P : σ → Prop) (x : Prog σ ε α) (Q : α → σ → Prop) (F : ε → σ → Prop) : Prop :=
  ∀ s r s', P s → x s = some (r, s') → Ends Q F r s'

variable {P I : σ → Prop} {Q Q' : α → σ → Prop} {F F' : ε → σ → Prop} {x : Prog σ ε α}

namespace Meets

lemma ok {a} (hm : Meets P x Q F) (hs : P s) (ran : x s = some (.ok a, s')) : Q a s' :=
  hm s _ s' hs ran

lemma error (hm : Meets P x Q F) (hs : P s) (ran : x s = some (.error e, s')) : F e s' :=
  hm s _ s' hs ran

lemma weaken (hm : Meets P x Q' F') (hp : ∀ a s, Q' a s → Q a s) (hf : ∀ e s, F' e s → F e s) :
    Meets P x Q F := by
  intro s r s' hs ran
  cases r with
  | ok a => exact hp a s' (hm.ok hs ran)
  | error e => exact hf e s' (hm.error hs ran)

lemma pre (hm : Meets I x Q F) (hp : ∀ s, P s → I s) : Meets P x Q F :=
  fun s r s' hs => hm s r s' (hp s hs)

/-- A run that is known step by step. -/
lemma of_run {R : σ → Except ε α → σ → Prop} (hx : ∀ s, ∃ r s', x s = some (r, s') ∧ R s r s')
    (hp : ∀ s a s', P s → R s (.ok a) s' → Q a s')
    (hf : ∀ s e s', P s → R s (.error e) s' → F e s') : Meets P x Q F := by
  intro s r s' hs ran
  obtain ⟨_, _, had, hr⟩ := hx s
  cases had.symm.trans ran
  cases r with
  | ok a => exact hp s a s' hs hr
  | error e => exact hf s e s' hs hr

lemma pure {a} (hp : ∀ s, P s → Q a s) : Meets P (Pure.pure a : Prog σ ε α) Q F := by
  intro s r s' hs ran
  cases ran
  exact hp s hs

lemma fail (hf : ∀ s, P s → F e s) : Meets P (fail e : Prog σ ε α) Q F := by
  intro s r s' hs ran
  cases ran
  exact hf s hs

lemma get {Q : σ → σ → Prop} (hp : ∀ s, P s → Q s s) : Meets P (get : Prog σ ε σ) Q F := by
  intro s r s' hs ran
  cases ran
  exact hp s hs

/-- After reading the state, what held before is known of the value read. -/
lemma get_bind {f : σ → Prog σ ε α} (hn : ∀ s, P s → Meets P (f s) Q F) :
    Meets P (Prog.get >>= f) Q F :=
  fun s r s' hs ran => hn s hs s r s' hs ran

lemma modify {Q : Unit → σ → Prop} {f : σ → σ} (hp : ∀ s, P s → Q () (f s)) :
    Meets P (modify f : Prog σ ε Unit) Q F := by
  intro s r s' hs ran
  cases ran
  exact hp s hs

lemma lift {wrap : ε' → ε} {r} (hp : ∀ a s, r = .ok a → P s → Q a s)
    (hf : ∀ e s, r = .error e → P s → F (wrap e) s) : Meets P (lift wrap r) Q F := by
  intro s _ _ hs ran
  cases r with
  | ok a =>
    cases ran
    exact hp _ s rfl hs
  | error e =>
    cases ran
    exact hf _ s rfl hs

lemma bind {R : β → σ → Prop} (hf : Meets P x Q F) (hn : ∀ a, Meets (Q a) (f a) R F) :
    Meets P (x >>= f) R F := by
  intro s r s' hs ran
  cases hm : x s with
  | none =>
    rw [bind_of_none hm] at ran
    cases ran
  | some out =>
    obtain ⟨first, s₁⟩ := out
    cases first with
    | ok a =>
      rw [bind_of_ok hm] at ran
      exact hn a s₁ r s' (hf.ok hs hm) ran
    | error e =>
      rw [bind_of_error hm] at ran
      cases ran
      exact hf.error hs hm

/-- What the first part leaves is all that the second one needs. -/
lemma seq {y : Prog σ ε β} {R : β → σ → Prop} (hf : Meets P x (fun _ => I) F)
    (hn : Meets I y R F) : Meets P (x >>= fun _ => y) R F :=
  hf.bind fun _ => hn

lemma knowing {p : Prop} (hm : p → Meets P x Q F) : Meets (fun s => P s ∧ p) x Q F :=
  fun s r s' hs => hm hs.2 s r s' hs.1

lemma of_some {ι : Type} {P : ι → σ → Prop} (hm : ∀ i, Meets (P i) x Q F) :
    Meets (fun s => ∃ i, P i s) x Q F :=
  fun s r s' ⟨i, hi⟩ => hm i s r s' hi

lemma when {p : Prop} [Decidable p] {y} {Q : Unit → σ → Prop}
    (ht : p → Meets P y Q F) (hs : ¬ p → ∀ s, P s → Q () s) :
    Meets P (Prog.when p y) Q F := by
  unfold Prog.when
  by_cases hh : p
  · rw [if_pos hh]
    exact ht hh
  · rw [if_neg hh]
    exact .pure (hs hh)

lemma attempt {Q : Except ε α → σ → Prop} {F' : ε → σ → Prop}
    (hme : Meets P x (fun a => Q (.ok a)) (fun e => Q (.error e))) :
    Meets P (Prog.attempt x) Q F' := by
  intro s r s' hs ran
  unfold Prog.attempt at ran
  cases hm : x s with
  | none => simp [hm] at ran
  | some out =>
    obtain ⟨ended, s₁⟩ := out
    rw [hm] at ran
    cases ran
    cases ended with
    | ok a => exact hme.ok hs hm
    | error e => exact hme.error hs hm

/-- The loop rule: what each round but the last keeps, and what the last one leaves. -/
lemma loop {Inv Done : σ → Prop} {body}
    (hk : Meets Inv body (fun again => cond again Inv Done) F) (fuel : Nat) :
    Meets Inv (loop fuel body) (fun _ => Done) F := by
  induction fuel with
  | zero => exact nofun
  | succ fuel ih =>
    apply hk.bind
    intro again
    cases again with
    | true => exact ih
    | false => exact .pure fun _ done => done

lemma leaves {Inv result} (hm : Meets P x (fun _ => Inv) (fun _ => Inv)) (hs : P s)
    (ran : x s = some (result, s')) : Inv s' := by
  cases result with
  | ok a => exact hm.ok hs ran
  | error e => exact hm.error hs ran

end Meets

/-- `x` keeps `Inv`, also when it fails, and fails only with errors in `E`. -/
abbrev Keeps (Inv : σ → Prop) (E : ε → Prop) (x : Prog σ ε α) : Prop :=
  Meets Inv x (fun _ => Inv) (fun e s => E e ∧ Inv s)

/-- Rounds of a loop's body that ask for another. -/
inductive Iterates (body : Prog σ ε Bool) : Nat → σ → σ → Prop
  | refl (s : σ) : Iterates body 0 s s
  | step {rounds s s₁ s₂} (again : body s = some (.ok true, s₁))
      (later : Iterates body rounds s₁ s₂) : Iterates body (rounds + 1) s s₂

lemma Iterates.loop_error {body rounds} {s s₁ s₂ : σ}
    (hi : Iterates body rounds s s₁) (hf : body s₁ = some (.error e, s₂)) {fuel}
    (hm : rounds < fuel) : loop fuel body s = some (.error e, s₂) := by
  induction hi generalizing fuel with
  | refl s =>
    obtain ⟨fuel, rfl⟩ := Nat.exists_eq_add_one_of_ne_zero (Nat.ne_of_gt hm)
    exact bind_of_error hf
  | step ha _ ih =>
    obtain ⟨fuel, rfl⟩ := Nat.exists_eq_add_one_of_ne_zero (Nat.ne_zero_of_lt hm)
    rw [loop, bind_of_ok ha]
    exact ih hf (Nat.lt_of_succ_lt_succ hm)

end Prog

/-- A computation that asks its environment for the answers to its effects. -/
inductive Coroutine (ψ ρ α : Type) where
  | done (a : α)
  | ask (effect : ψ) (resume : ρ → Coroutine ψ ρ α)

namespace Coroutine

open Prog

variable {ψ ρ α σ ε : Type} {handler : ψ → Prog σ ε ρ}

/-- Drives a coroutine. The handler's first error is parked; from then on no effect is executed and
`fallback` resumes it until it is done. -/
def drive (handler : ψ → Prog σ ε ρ) (fallback : ρ) :
    Coroutine ψ ρ α → Option ε → Prog σ ε (α × Option ε)
  | .done a, parked => pure (a, parked)
  | .ask _ resume, some e => drive handler fallback (resume fallback) (some e)
  | .ask effect resume, none => do
      match ← attempt (handler effect) with
      | .ok answer => drive handler fallback (resume answer) none
      | .error e => drive handler fallback (resume fallback) (some e)

/-- Whatever the answers, every effect is in `P` and the end in `Q`. -/
def All (P : ψ → Prop) (Q : α → Prop) : Coroutine ψ ρ α → Prop
  | .done a => Q a
  | .ask effect resume => P effect ∧ ∀ answer, All P Q (resume answer)

lemma All.trivial (co : Coroutine ψ ρ α) : co.All (fun _ => True) fun _ => True := by
  induction co with
  | done a => exact True.intro
  | ask effect resume ih => exact ⟨True.intro, ih⟩

/-- What every effect keeps, the coroutine keeps; driving it returns one of its ends, and parks an
error of the handler's. -/
lemma All.drive {Inv : σ → Prop} {E : ε → Prop} {P : ψ → Prop} {Q : α → Prop} {fallback}
    (hk : ∀ effect, P effect → Keeps Inv E (handler effect)) {co} (ha : co.All P Q) :
    ∀ {parked : Option ε}, (∀ e ∈ parked, E e) →
      Meets Inv (drive handler fallback co parked)
        (fun out s => Inv s ∧ Q out.1 ∧ ∀ e ∈ out.2, E e) (fun _ _ => False) := by
  induction co with
  | done a =>
    intro parked hh
    exact .pure fun s inv => ⟨inv, ha, hh⟩
  | ask effect resume ih =>
    intro parked hh
    cases parked with
    | some e =>
      exact ih fallback (ha.2 fallback) hh
    | none =>
      rw [Coroutine.drive]
      apply Meets.bind (Q := fun (r : Except ε ρ) s => Inv s ∧ ∀ e, r = .error e → E e)
      · refine Meets.attempt ((hk effect ha.1).weaken ?_ ?_)
        · intro a s inv
          exact ⟨inv, by simp⟩
        · intro e s hf
          exact ⟨hf.2, by simpa using hf.1⟩
      · intro r
        cases r with
        | ok answer => exact (ih answer (ha.2 answer) (by simp)).pre fun _ pre => pre.1
        | error e =>
          intro s out s' pre ran
          exact ih fallback (ha.2 fallback) (by simpa using pre.2 e rfl) s out s' pre.1 ran

/-- How a coroutine ends when every effect is answered with `fallback`. -/
def abandon (fallback : ρ) : Coroutine ψ ρ α → α
  | .done a => a
  | .ask _ resume => abandon fallback (resume fallback)

lemma drive_parked (handler : ψ → Prog σ ε ρ) (fallback : ρ) (co : Coroutine ψ ρ α) (e : ε)
    (s : σ) :
    drive handler fallback co (some e) s = some (.ok (co.abandon fallback, some e), s) := by
  induction co with
  | done a => rfl
  | ask effect resume ih => exact ih fallback

/-- The effects asked, and answered without an error, one after another. -/
inductive Handled (handler : ψ → Prog σ ε ρ) :
    Coroutine ψ ρ α → σ → List ψ → Coroutine ψ ρ α → σ → Prop
  | refl (co : Coroutine ψ ρ α) (s : σ) : Handled handler co s [] co s
  | step {effect} {resume : ρ → Coroutine ψ ρ α} {s s₁ s₂ answer later co}
      (answered : handler effect s = some (.ok answer, s₁))
      (rest : Handled handler (resume answer) s₁ later co s₂) :
      Handled handler (.ask effect resume) s (effect :: later) co s₂

/-- The first effect that fails is the last that is executed. -/
lemma Handled.drive_failed {co s s₁ s₂ effects effect} {resume : ρ → Coroutine ψ ρ α} {e}
    (hh : Handled handler co s effects (.ask effect resume) s₁)
    (hf : handler effect s₁ = some (.error e, s₂)) (fallback : ρ) :
    drive handler fallback co none s =
      some (.ok ((resume fallback).abandon fallback, some e), s₂) := by
  generalize hl : ask effect resume = stop at hh
  induction hh with
  | refl co s =>
    subst hl
    rw [drive, bind_of_ok (show attempt (handler effect) s = some (.ok (.error e), s₂) by
      simp only [attempt, hf])]
    exact drive_parked handler fallback _ e s₂
  | step ha _ ih =>
    rw [drive, bind_of_ok (show attempt _ _ = some (.ok (.ok _), _) by
      simp only [attempt, ha]; rfl)]
    exact ih hf hl

end Coroutine
