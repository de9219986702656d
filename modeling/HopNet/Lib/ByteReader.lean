import HopNet.Lib.Fallible

/-! Bounds-checked readers over a byte buffer, and what it means that a reader undoes a writer. -/

namespace ByteReader

open List

structure Cursor where
  buf : List UInt8
  pos : Nat

abbrev Reader (ε α : Type) := StateT Cursor (Except ε) α

variable {ε α β σ ι : Type}

/-- The next `n` bytes; an error when the buffer ends before. -/
def take (past : Nat → ε) (n : Nat) : Reader ε (List UInt8) := fun cur =>
  if cur.pos + n ≤ cur.buf.length then
    .ok ((cur.buf.drop cur.pos).take n, { cur with pos := cur.pos + n })
  else .error (past cur.pos)

def position : Reader ε Nat := fun cur => .ok (cur.pos, cur)

def lift (r : Except ε α) : Reader ε α := fun cur => r.map fun a => (a, cur)

/-- `for _ in 0..n`. -/
def iterate (body : σ → Reader ε σ) : Nat → σ → Reader ε σ
  | 0, s => pure s
  | n + 1, s => do
      let s ← body s
      iterate body n s

/-- At the written bytes, in any context, the reader gives the value and stands behind them. -/
def Reads (reader : Reader ε α) (bytes : List UInt8) (a : α) : Prop :=
  ∀ before after, reader ⟨before ++ (bytes ++ after), before.length⟩ =
    .ok (a, ⟨before ++ (bytes ++ after), before.length + bytes.length⟩)

variable {reader : Reader ε α} {first second bytes : List UInt8} {a a' : α} {b : β}

lemma Reads.pure (a : α) : Reads (pure a : Reader ε α) [] a := fun _ _ => rfl

lemma Reads.lift {r : Except ε α} (ran : r = .ok a) : Reads (lift r) [] a := by
  intro before after
  rw [ran]
  rfl

lemma Reads.take {past : Nat → ε} {n : Nat} (hs : bytes.length = n) :
    Reads (take past n) bytes bytes := by
  intro before after
  have hf : before.length + n ≤ (before ++ (bytes ++ after)).length := by
    simp only [length_append]
    omega
  rw [ByteReader.take, if_pos hf, drop_left, ← hs, take_left]

lemma Reads.bind {next} (hs : Reads reader first a) (rest : Reads (next a) second b) :
    Reads (reader >>= next) (first ++ second) b := by
  intro before after
  have hr := hs before (second ++ after)
  have ht := rest (before ++ first) after
  simp only [append_assoc, length_append] at hr ht ⊢
  show StateT.bind reader next _ = _
  rw [StateT.bind, hr, ← Nat.add_assoc]
  exact ht

lemma Reads.bind_nil {next} (hs : Reads reader [] a) (hr : Reads (next a) bytes b) :
    Reads (reader >>= next) bytes b := hs.bind hr

lemma Reads.require {p : Prop} [Decidable p] {e : ε} {next : Unit → Reader ε β} (hh : p)
    (hr : Reads (next ()) bytes b) :
    Reads (ByteReader.lift (Fallible.require p e) >>= next) bytes b :=
  (Reads.lift (Fallible.require_eq_ok.2 hh)).bind_nil hr

lemma Reads.bind_last {next} (read : Reads reader bytes a) (hr : Reads (next a) [] b) :
    Reads (reader >>= next) bytes b := by
  rw [← append_nil bytes]
  exact read.bind hr

lemma Reads.bind_pure (f : α → β) (hr : Reads reader bytes a) :
    Reads (reader >>= fun a => Pure.pure (f a)) bytes (f a) :=
  hr.bind_last (Reads.pure (f a))

lemma Reads.map (f : α → β) (hr : Reads reader bytes a) : Reads (f <$> reader) bytes (f a) :=
  hr.bind_pure f

lemma Reads.position {next : Nat → Reader ε β} (hr : ∀ pos, Reads (next pos) bytes b) :
    Reads (position >>= next) bytes b := fun before after => hr before.length before after

lemma Reads.unique (hr : Reads reader bytes a) (hr' : Reads reader bytes a') : a = a' := by
  have hs := (hr [] []).symm.trans (hr' [] [])
  exact congrArg Prod.fst (Except.ok.inj hs)

/-- A loop reads what was written item by item, when each step reads its item where the steps before
lead. -/
lemma Reads.iterate (body : σ → Reader ε σ) (write : ι → List UInt8) (step : σ → ι → σ)
    (items : List ι) (s : σ) (he : ∀ done item rest, items = done ++ item :: rest →
      Reads (body (done.foldl step s)) (write item) (step (done.foldl step s) item)) :
    Reads (iterate body items.length s) (items.flatMap write) (items.foldl step s) := by
  induction items generalizing s with
  | nil => exact Reads.pure s
  | cons item later ih =>
    refine (he [] item later rfl).bind ?_
    exact ih _ fun done other rest hs => he (item :: done) other rest (congrArg _ hs)

lemma foldl_snoc {found items : List α} :
    items.foldl (fun found item => found ++ [item]) found = found ++ items := by
  induction items generalizing found with
  | nil => simp
  | cons item rest ih => simp [ih]

lemma Reads.collect {write} {items : List α} (he : ∀ item ∈ items, Reads reader (write item) item) :
    Reads (ByteReader.iterate (fun found => do return found ++ [← reader]) items.length [])
      (items.flatMap write) items := by
  have hr := Reads.iterate (fun found => do return found ++ [← reader]) write
    (fun found item => found ++ [item]) items []
    fun done item rest hs =>
      (he item (hs ▸ mem_append_right done mem_cons_self)).bind_pure
        fun found => done.foldl (fun found item => found ++ [item]) [] ++ [found]
  rwa [foldl_snoc, nil_append] at hr

lemma Reads.mapM {write} {κ : Type} {readers : κ → Reader ε α} {keys items}
    (he : List.Forall₂ (fun k item => Reads (readers k) (write item) item) keys items) :
    Reads (keys.mapM readers) (items.flatMap write) items := by
  induction he with
  | nil => exact Reads.pure []
  | @cons k item keys items hh _ ih =>
    rw [mapM_cons, flatMap_cons]
    exact hh.bind (ih.bind_pure _)

end ByteReader
