import Mathlib.Algebra.Order.Group.Multiset
import Mathlib.Tactic.Abel
import HopNet.Lib.Runs
import HopNet.Types

/-!
The pending pool. Its two lists have a lock each, so the atomic steps are the sections under one
lock: `push` and `settle` are several steps, and between them an entry is in its caller's hands,
as it is while a block is built from it. -/

namespace HopNet.Queue

open Runs List

/-- What a submitter is told; submitters are numbered. -/
inductive ConsensusResult where
  | committed (height : Nat)
  | rejected (reason : String)
  | failed (reason : String)

structure QueuedTransaction where
  tx : Transaction
  notifier : List Nat
  transientAttempts : Nat

def QueuedTransaction.nonce (entry : QueuedTransaction) : CustomUUID := entry.tx.nonce

variable (entry : QueuedTransaction)

def QueuedTransaction.join (waiters : List Nat) : QueuedTransaction :=
  { entry with notifier := entry.notifier ++ waiters }

/-- `notifier.send`: every waiter gets the same result. -/
def QueuedTransaction.send (result : ConsensusResult) : List (Nat × ConsensusResult) :=
  entry.notifier.map fun waiter => (waiter, result)

structure InflightTransaction where
  entry : QueuedTransaction
  proposedAt : Nat

structure PendingPool where
  queued : List QueuedTransaction
  inflight : List InflightTransaction

def txOverheadBytes : Nat := 512

def txWireBytes (tx : Transaction) : Nat :=
  tx.rpc.payload.length + tx.rpc.function.utf8ByteSize + txOverheadBytes

/-- The loop of `budgeted_prefix_len`, with the bytes and items so far. -/
def budgetedPrefixLen.go (maxCount budget : Nat) : List Nat → Nat → Nat → Nat
  | [], _, kept => kept
  | size :: sizes, total, kept =>
    if maxCount ≤ kept ∨ (0 < kept ∧ budget < total + size) then kept
    else budgetedPrefixLen.go maxCount budget sizes (total + size) (kept + 1)

def budgetedPrefixLen (sizes : List Nat) (maxCount budget : Nat) : Nat :=
  budgetedPrefixLen.go maxCount budget sizes 0 0

/-- `iter_mut().find(..)`: change the first element that matches. -/
def updateFirst {α : Type} (p : α → Bool) (f : α → α) : List α → List α
  | [] => []
  | a :: rest => if p a then f a :: rest else a :: updateFirst p f rest

/-- The two lists, the entries in a caller's hands (`pushing`: between the locks of `push`, `held`:
in a block being built, `repool`: between those of `settle`), and what submitters were told. -/
structure Site where
  pool : PendingPool
  pushing : List QueuedTransaction
  held : List QueuedTransaction
  repool : List QueuedTransaction
  notified : List (Nat × ConsensusResult)

def Site.empty : Site := ⟨⟨[], []⟩, [], [], [], []⟩

namespace PendingPool

variable (pool : PendingPool) (entry : QueuedTransaction)

/-- The first lock of `push`: join an entry in flight, or go on. -/
def pushInflight : PendingPool × List QueuedTransaction :=
  if pool.inflight.any fun i => i.entry.nonce = entry.nonce then
    ({ pool with
        inflight := updateFirst (·.entry.nonce = entry.nonce)
          (fun i => { i with entry := i.entry.join entry.notifier }) pool.inflight }, [])
  else (pool, [entry])

/-- The second lock of `push`: join a staged entry, or stage the newcomer. -/
def pushQueued : PendingPool :=
  if pool.queued.any fun q => q.nonce = entry.nonce then
    { pool with
      queued := updateFirst (·.nonce = entry.nonce) (·.join entry.notifier) pool.queued }
  else { pool with queued := pool.queued ++ [entry] }

/-- How many staged entries a proposal takes. -/
def takeLen (max maxBytes : Nat) : Nat :=
  budgetedPrefixLen (pool.queued.map fun q => txWireBytes q.tx) max maxBytes

def takeForProposal (max maxBytes : Nat) : PendingPool × List QueuedTransaction :=
  ({ pool with queued := pool.queued.drop (pool.takeLen max maxBytes) },
    pool.queued.take (pool.takeLen max maxBytes))

variable (entries : List QueuedTransaction)

def restage : PendingPool :=
  { pool with queued := entries ++ pool.queued }

def markInflight (height : Nat) : PendingPool :=
  { pool with inflight := pool.inflight ++ entries.map fun entry => ⟨entry, height⟩ }

/-- `stage_for_settle`, and the part of `settle` that puts entries back. -/
def stageForSettle : PendingPool :=
  { pool with queued := pool.queued ++ entries }

variable (committed : List CustomUUID) (decided : Nat) (i : InflightTransaction)

/-- `settle` keeps it: neither committed nor past its height. -/
def awaits : Bool :=
  i.entry.nonce ∉ committed ∧ decided < i.proposedAt

/-- An entry whose round was lost. -/
def lost : Bool :=
  i.entry.nonce ∉ committed ∧ i.proposedAt ≤ decided

/-- The first lock of `settle`: what stays, goes back, and is resolved. -/
def settleInflight : PendingPool × List QueuedTransaction × List (Nat × ConsensusResult) :=
  ({ pool with inflight := pool.inflight.filter (awaits committed decided) },
    (pool.inflight.filter (lost committed decided)).map (·.entry),
    (pool.inflight.filter (·.entry.nonce ∈ committed)).flatMap fun i =>
      i.entry.send (.committed decided))

/-- The second pass of `settle`. -/
def settleQueued : PendingPool × List (Nat × ConsensusResult) :=
  ({ pool with queued := pool.queued.filter fun q => q.nonce ∉ committed },
    (pool.queued.filter (·.nonce ∈ committed)).flatMap fun q => q.send (.committed decided))

end PendingPool

/-- A section under one lock, or what a caller does with entries it holds. -/
inductive Event where
  | pushInflight (entry : QueuedTransaction)
  | pushQueued (entry : QueuedTransaction)
  | takeForProposal (max maxBytes : Nat)
  | retry (entry : QueuedTransaction)
  | restage (entries : List QueuedTransaction)
  | markInflight (entries : List QueuedTransaction) (height : Nat)
  | reject (entry : QueuedTransaction) (reason : String)
  | fail (entry : QueuedTransaction) (reason : String)
  | resolveCommitted (entry : QueuedTransaction) (currentHeight : Nat)
  | stageForSettle (entries : List QueuedTransaction)
  | settleInflight (committed : List CustomUUID) (decided : Nat)
  | settleRepool
  | settleQueued (committed : List CustomUUID) (decided : Nat)

/-- The steps of the pool and its callers. A `settle` whose nonce check fails is none. -/
inductive Step : Site → Event → Site → Prop
  | pushInflight {s} (entry : QueuedTransaction) : Step s (.pushInflight entry)
        { s with
          pool := (s.pool.pushInflight entry).1
          pushing := s.pushing ++ (s.pool.pushInflight entry).2 }
  | pushQueued {s entry others} (pending : s.pushing.Perm (entry :: others)) :
      Step s (.pushQueued entry) { s with pool := s.pool.pushQueued entry, pushing := others }
  | takeForProposal {s} (max maxBytes : Nat) : Step s (.takeForProposal max maxBytes)
        { s with
          pool := (s.pool.takeForProposal max maxBytes).1
          held := s.held ++ (s.pool.takeForProposal max maxBytes).2 }
  | retry {s entry others} (taken : s.held.Perm (entry :: others)) : Step s (.retry entry)
        { s with
          held := { entry with transientAttempts := entry.transientAttempts + 1 } :: others }
  | restage {s entries others} (taken : s.held.Perm (entries ++ others)) :
      Step s (.restage entries) { s with pool := s.pool.restage entries, held := others }
  | markInflight {s entries others} (height : Nat) (taken : s.held.Perm (entries ++ others)) :
      Step s (.markInflight entries height)
        { s with pool := s.pool.markInflight entries height, held := others }
  | reject {s entry others} (reason : String) (taken : s.held.Perm (entry :: others)) :
      Step s (.reject entry reason)
        { s with held := others, notified := s.notified ++ entry.send (.rejected reason) }
  | fail {s entry others} (reason : String) (taken : s.held.Perm (entry :: others)) :
      Step s (.fail entry reason)
        { s with held := others, notified := s.notified ++ entry.send (.failed reason) }
  | resolveCommitted {s entry others} (currentHeight : Nat)
      (taken : s.held.Perm (entry :: others)) :
      Step s (.resolveCommitted entry currentHeight)
        { s with held := others, notified := s.notified ++ entry.send (.committed currentHeight) }
  | stageForSettle {s} (entries : List QueuedTransaction) :
      Step s (.stageForSettle entries) { s with pool := s.pool.stageForSettle entries }
  | settleInflight {s} (committed : List CustomUUID) (decided : Nat) :
      Step s (.settleInflight committed decided)
        { s with
          pool := (s.pool.settleInflight committed decided).1
          repool := s.repool ++ (s.pool.settleInflight committed decided).2.1
          notified := s.notified ++ (s.pool.settleInflight committed decided).2.2 }
  | settleRepool {s} :
      Step s .settleRepool { s with pool := s.pool.stageForSettle s.repool, repool := [] }
  | settleQueued {s} (committed : List CustomUUID) (decided : Nat) :
      Step s (.settleQueued committed decided)
        { s with
          pool := (s.pool.settleQueued committed decided).1
          notified := s.notified ++ (s.pool.settleQueued committed decided).2 }

def nonces (entries : List QueuedTransaction) : Multiset CustomUUID :=
  ↑(entries.map QueuedTransaction.nonce)

/-- The nonces staged, in flight, or in hands that may still put them back. -/
def Site.live (s : Site) : Multiset CustomUUID :=
  nonces s.pool.queued + nonces (s.pool.inflight.map (·.entry)) + nonces s.held + nonces s.repool

@[simp] lemma nonces_nil : nonces [] = 0 := rfl

@[simp] lemma nonces_cons (entry : QueuedTransaction) (entries : List QueuedTransaction) :
    nonces (entry :: entries) = {entry.nonce} + nonces entries := by
  rw [nonces, map_cons, ← Multiset.cons_coe, ← Multiset.singleton_add, nonces]

@[simp] lemma nonces_append (a b : List QueuedTransaction) :
    nonces (a ++ b) = nonces a + nonces b := by
  rw [nonces, map_append, ← Multiset.coe_add, nonces, nonces]

variable {a b : List QueuedTransaction}

lemma nonces_perm (hp : a.Perm b) : nonces a = nonces b :=
  Multiset.coe_eq_coe.2 (hp.map _)

lemma nonces_sublist (sub : a.Sublist b) : nonces a ≤ nonces b :=
  Multiset.coe_le.2 (sub.map _).subperm

lemma mem_nonces {entries nonce} :
    nonce ∈ nonces entries ↔ ∃ entry ∈ entries, entry.nonce = nonce := by
  rw [nonces, Multiset.mem_coe, mem_map]

lemma map_updateFirst {α β : Type} (g : α → β) (p : α → Bool) (f : α → α)
    (hs : ∀ a, g (f a) = g a) (l : List α) : (updateFirst p f l).map g = l.map g := by
  induction l with
  | nil => rfl
  | cons a rest ih =>
    unfold updateFirst
    by_cases hf : p a = true
    · rw [if_pos hf, map_cons, map_cons, hs]
    · rw [if_neg hf, map_cons, map_cons, ih]

end HopNet.Queue
