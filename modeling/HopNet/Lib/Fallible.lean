import Mathlib.Data.List.Forall2

/-! Fallible computations in `Except`. -/

namespace Fallible

open List Option

variable {ε ε' α β σ ι : Type} {f : α → Except ε β} {xs : List α} {x : Except ε α} {ys : List β}

/-- The early return `if !p { return Err(e) }`. -/
def require (p : Prop) [Decidable p] (e : ε) : Except ε Unit :=
  if p then .ok () else .error e

@[simp] lemma require_eq_ok {p : Prop} [Decidable p] {e : ε} {u} : require p e = .ok u ↔ p := by
  by_cases hh : p <;> simp [require, hh]

lemma require_eq_error {p : Prop} [Decidable p] {e e' : ε} :
    require p e = .error e' ↔ ¬ p ∧ e = e' := by
  by_cases h : p <;> simp [require, h]

@[simp] lemma bind_eq_ok {b} : (x >>= f) = .ok b ↔ ∃ a, x = .ok a ∧ f a = .ok b := by
  cases x <;> simp [bind, Except.bind]

lemma require_bind {p : Prop} [Decidable p] {e} {f : Unit → Except ε β} {b} :
    (require p e >>= f) = .ok b ↔ p ∧ f () = .ok b := by
  by_cases h : p <;> simp [require, h, bind, Except.bind]

lemma exists_require {p : Prop} [Decidable p] {e : ε} {q : Unit → Prop} :
    (∃ u, require p e = .ok u ∧ q u) ↔ p ∧ q () := by
  constructor
  · rintro ⟨_, hp, hq⟩
    exact ⟨require_eq_ok.1 hp, hq⟩
  · rintro ⟨hp, hq⟩
    exact ⟨(), require_eq_ok.2 hp, hq⟩

@[simp] lemma bind_eq_error {e} :
    (x >>= f) = .error e ↔ x = .error e ∨ ∃ a, x = .ok a ∧ f a = .error e := by
  cases x <;> simp [bind, Except.bind]

@[simp] lemma pure_eq_ok {a b} : (pure a : Except ε α) = .ok b ↔ a = b := by
  simp [pure, Except.pure]

@[simp] lemma pure_ne_error {a e} : (pure a : Except ε α) ≠ .error e := by
  simp [pure, Except.pure]

@[simp] lemma mapError_eq_ok {f : ε → ε'} {a} : x.mapError f = .ok a ↔ x = .ok a := by
  cases x <;> simp [Except.mapError]

lemma mapError_eq_error {f : ε → ε'} {e'} :
    x.mapError f = .error e' ↔ ∃ e, x = .error e ∧ f e = e' := by
  cases x <;> simp [Except.mapError]

lemma toOption_eq_some {a} : x.toOption = some a ↔ x = .ok a := by
  cases x with
  | ok b => exact ⟨fun hs => congrArg Except.ok (some.inj hs), fun hs => by cases hs; rfl⟩
  | error e => exact ⟨fun hn => (nomatch hn), fun hn => (nomatch hn)⟩

lemma ok_get_toOption (hs : x.toOption.isSome) : x = .ok (x.toOption.get hs) := by
  cases x with
  | ok a => rfl
  | error e => cases hs

lemma forM_eq_ok {f : α → Except ε Unit} : xs.forM f = .ok () ↔ ∀ x ∈ xs, f x = .ok () := by
  induction xs with
  | nil => simp [pure, Except.pure]
  | cons x rest ih =>
    have hs : (x :: rest).forM f = (f x >>= fun _ => rest.forM f) := rfl
    rw [hs, bind_eq_ok, forall_mem_cons, ← ih]
    constructor
    · intro ran
      obtain ⟨_, hf, ho⟩ := ran
      exact ⟨hf, ho⟩
    · intro hb
      exact ⟨(), hb.1, hb.2⟩

/-- A pass none of whose elements fails gives the results in order. -/
lemma mapM_forall₂ {R} (he : ∀ x ∈ xs, ∃ y, f x = .ok y ∧ R x y) :
    ∃ ys, xs.mapM f = .ok ys ∧ List.Forall₂ R xs ys := by
  induction xs with
  | nil => exact ⟨[], rfl, .nil⟩
  | cons x rest ih =>
    obtain ⟨y, hf, hre⟩ := he x mem_cons_self
    obtain ⟨ys, ho, hr⟩ := ih fun x hrt => he x (mem_cons_of_mem _ hrt)
    refine ⟨y :: ys, ?_, .cons hre hr⟩
    rw [mapM_cons, hf, ho]
    rfl

lemma mapM_eq_map {g : α → β} (he : ∀ x ∈ xs, f x = .ok (g x)) : xs.mapM f = .ok (xs.map g) := by
  induction xs with
  | nil => rfl
  | cons x rest ih =>
    rw [mapM_cons, he x mem_cons_self, ih fun y hr => he y (mem_cons_of_mem _ hr)]
    rfl

/-- A pass that succeeds has each element's result, and nothing else. -/
lemma mapM_eq_ok_mem (ran : xs.mapM f = .ok ys) :
    (∀ x ∈ xs, ∃ y ∈ ys, f x = .ok y) ∧ ∀ y ∈ ys, ∃ x ∈ xs, f x = .ok y := by
  induction xs generalizing ys with
  | nil =>
    cases ran
    simp
  | cons x rest ih =>
    simp only [mapM_cons, bind_eq_ok, pure_eq_ok] at ran
    obtain ⟨y, hf, others, hl, rfl⟩ := ran
    obtain ⟨has, hc⟩ := ih hl
    simp only [forall_mem_cons, exists_mem_cons_iff]
    exact ⟨⟨.inl hf, fun x' hr => .inr (has x' hr)⟩, .inl hf, fun y' ho => .inr (hc y' ho)⟩

lemma forall₂_getElem? {R} (hr : List.Forall₂ R xs ys) {i : Nat} {y} (hi : ys[i]? = some y) :
    ∃ x, xs[i]? = some x ∧ R x y := by
  induction hr generalizing i with
  | nil => simp at hi
  | @cons x y' xs ys hfi ho ih =>
    cases i with
    | zero =>
      exact ⟨x, getElem?_cons_zero, some.inj hi ▸ hfi⟩
    | succ i =>
      obtain ⟨x, hf, hh⟩ := ih hi
      exact ⟨x, by rw [getElem?_cons_succ, hf], hh⟩

lemma forall₂_of_mem {R} (hr : List.Forall₂ R xs ys) {y} (hy : y ∈ ys) : ∃ x ∈ xs, R x y := by
  obtain ⟨i, hi⟩ := mem_iff_getElem?.1 hy
  obtain ⟨x, hf, hh⟩ := forall₂_getElem? hr hi
  exact ⟨x, mem_of_getElem? hf, hh⟩

/-- A pass over the indices that gives the elements gives the list. -/
lemma mapM_range_eq {f : Nat → Except ε β} {n : Nat} (length : ys.length = n)
    (he : ∀ i y, ys[i]? = some y → f i = .ok y) : (List.range n).mapM f = .ok ys := by
  have ht : ∀ i ∈ List.range n, ∃ y, f i = .ok y ∧ ys[i]? = some y := by
    intro i hra
    have hie : i < ys.length := by rw [length]; exact mem_range.1 hra
    exact ⟨ys[i], he i _ (getElem?_eq_getElem hie), getElem?_eq_getElem hie⟩
  obtain ⟨results, ran, hr⟩ := mapM_forall₂ ht
  rw [ran]
  congr 1
  apply ext_getElem?
  intro i
  cases hi : results[i]? with
  | some y =>
    obtain ⟨j, hin, same⟩ := forall₂_getElem? hr hi
    rw [getElem?_eq_some_iff] at hin
    obtain ⟨_, rfl⟩ := hin
    rw [getElem_range] at same
    exact same.symm
  | none =>
    have hs : ys.length ≤ i := by
      rw [getElem?_eq_none_iff, ← hr.length_eq, length_range] at hi
      rwa [length]
    rw [getElem?_eq_none hs]

/-- What every step keeps, a loop that stops at the first error keeps. -/
lemma foldlM_invariant {f : σ → ι → Except ε σ} (Inv : σ → Prop) (xs : List ι)
    (hk : ∀ x ∈ xs, ∀ s s', Inv s → f s x = .ok s' → Inv s') :
    ∀ {s s' : σ}, Inv s → xs.foldlM f s = .ok s' → Inv s' := by
  induction xs with
  | nil =>
    intro s s' inv hs
    simp only [foldlM_nil, pure_eq_ok] at hs
    exact hs ▸ inv
  | cons x rest ih =>
    intro s s' inv hs
    rw [foldlM_cons, bind_eq_ok] at hs
    obtain ⟨middle, hf, ho⟩ := hs
    exact ih (fun y hr => hk y (mem_cons_of_mem x hr)) (hk x mem_cons_self s middle inv hf) ho

lemma foldlM_view {γ : Type} {f : σ → ι → Except ε σ} (view : σ → γ) (value : γ → ι → γ)
    (xs : List ι) (he : ∀ x ∈ xs, ∀ s s', f s x = .ok s' → view s' = value (view s) x) :
    ∀ {s s' : σ}, xs.foldlM f s = .ok s' → view s' = xs.foldl value (view s) := by
  induction xs with
  | nil =>
    intro s s' hs
    simp only [foldlM_nil, pure_eq_ok] at hs
    rw [hs]
    rfl
  | cons x rest ih =>
    intro s s' hs
    rw [foldlM_cons, bind_eq_ok] at hs
    obtain ⟨middle, hf, ho⟩ := hs
    rw [ih (fun y hr => he y (mem_cons_of_mem x hr)) ho, he x mem_cons_self s middle hf]
    rfl

end Fallible
