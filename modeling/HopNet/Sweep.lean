import HopNet.StorageDb

/-! The sweep's buffers: hashes wait for their page with the lowest height any of them was observed
at. -/

namespace HopNet

open List

structure Push where
  height : Nat
  now : Nat
  hashes : List Blake3Hash

/-- The pushed hashes, each with the height it was observed at. -/
def Push.seen (p : Push) : List (Nat × Blake3Hash) := p.hashes.map (p.height, ·)

structure PageBuffer where
  hashes : List Blake3Hash := []
  minHeight : Option Nat := none
  openedAt : Option Nat := none

def PageBuffer.push (b : PageBuffer) (p : Push) : PageBuffer :=
  let hashes := b.hashes ++ p.hashes
  if hashes.length = b.hashes.length then { b with hashes }
  else ⟨hashes, some (b.minHeight.elim p.height (min · p.height)), b.openedAt <|> some p.now⟩

def PageBuffer.takePage (b : PageBuffer) (page : Nat) :
    Option (Nat × List Blake3Hash) × PageBuffer :=
  match b.minHeight with
  | none => (none, b)
  | some height =>
    let n := min (max page 1) b.hashes.length
    let hashes := b.hashes.drop n
    (some (height, b.hashes.take n), if hashes = [] then {} else { b with hashes })

/-- Pushes and `takePage` calls in turn, with the pages they give. -/
def PageBuffer.run (b : PageBuffer) : List (Push ⊕ Nat) → List (Nat × List Blake3Hash) × PageBuffer
  | [] => ([], b)
  | .inl p :: calls => (b.push p).run calls
  | .inr page :: calls =>
    let (taken, b) := b.takePage page
    let (pages, b) := b.run calls
    (taken.toList ++ pages, b)

structure BeliefBuffer where
  added : PageBuffer
  removed : PageBuffer

def noPage : Nat × List Blake3Hash := (2 ^ 64 - 1, [])

def BeliefBuffer.takeReport (b : BeliefBuffer) (nodeId : Int) (page : Nat) :
    Option SelfCheckFragments × BeliefBuffer :=
  if b.added.hashes = [] ∧ b.removed.hashes = [] then (none, b)
  else
    let gone := b.removed.takePage page
    let removed := gone.1.getD noPage
    let room := page - removed.2.length
    let new := if 0 < room then b.added.takePage room else (none, b.added)
    let added := new.1.getD noPage
    (some ⟨nodeId, min removed.1 added.1, added.2, removed.2⟩, ⟨new.2, gone.2⟩)

/-- Reports until the buffer has none. -/
def BeliefBuffer.drain (nodeId : Int) (page : Nat) :
    Nat → BeliefBuffer → Option (List SelfCheckFragments)
  | 0, _ => none
  | fuel + 1, b =>
    match b.takeReport nodeId page with
    | (none, _) => some []
    | (some report, b) => (drain nodeId page fuel b).map (report :: ·)

/-- The page has the hashes of `ps`, stamped no later than any was observed. -/
def Stamps (page : Nat × List Blake3Hash) (ps : List (Nat × Blake3Hash)) : Prop :=
  page.2 = ps.map (·.2) ∧ ∀ p ∈ ps, page.1 ≤ p.1

/-- Reports of at most a page, the additions and the removals in order. -/
inductive Reported (page : Nat) : List SelfCheckFragments → (_ _ : List (Nat × Blake3Hash)) → Prop
  | nil : Reported page [] [] []
  | cons {r reports new gone as rs} : r.fragmentsAdded.length + r.fragmentsRemoved.length ≤ page →
      Stamps (r.selfVerifiedHeight, r.fragmentsAdded) new →
      Stamps (r.selfVerifiedHeight, r.fragmentsRemoved) gone →
      Reported page reports as rs → Reported page (r :: reports) (new ++ as) (gone ++ rs)

/-- The hashes of `ps` wait, the floor under all their heights. -/
structure PageBuffer.Holds (b : PageBuffer) (ps : List (Nat × Blake3Hash)) : Prop where
  hashes : b.hashes = ps.map (·.2)
  floor : ∀ p ∈ ps, ∃ h ∈ b.minHeight, h ≤ p.1

/-- A call took a front of `ps`, of at most `n` and not empty without need, and the buffer keeps the
rest. -/
def PageTaken (ps : List (Nat × Blake3Hash)) (n : Nat)
    (t : Option (Nat × List Blake3Hash) × PageBuffer) : Prop :=
  ∃ front rest, front ++ rest = ps ∧ t.2.Holds rest ∧ front.length ≤ n ∧
    (0 < n → ps ≠ [] → front ≠ []) ∧ (t.1 = none → front = []) ∧ Stamps (t.1.getD noPage) front

namespace PageBuffer.Holds

variable {b : PageBuffer} {ps : List (Nat × Blake3Hash)}

lemma push (hb : b.Holds ps) (p : Push) : (b.push p).Holds (ps ++ p.seen) := by
  simp only [PageBuffer.push, Push.seen]
  split
  · rename_i same
    have hn : p.hashes = [] := by simpa using same
    simpa [hn] using hb
  · refine ⟨by simp [hb.hashes], fun q hq => ⟨_, rfl, ?_⟩⟩
    rcases mem_append.1 hq with hq | hq
    · obtain ⟨h, hm, hle⟩ := hb.floor q hq
      simp [Option.mem_def.1 hm, hle]
    · obtain ⟨x, -, rfl⟩ := mem_map.1 hq
      cases b.minHeight <;> simp

lemma pushes (hb : b.Holds ps) (pushes : List Push) :
    (pushes.foldl PageBuffer.push b).Holds (ps ++ pushes.flatMap Push.seen) := by
  induction pushes generalizing b ps with
  | nil => simpa using hb
  | cons p pushes ih => simpa using ih (hb.push p)

lemma takePage (hb : b.Holds ps) (page : Nat) : PageTaken ps (max page 1) (b.takePage page) := by
  unfold PageBuffer.takePage
  split
  · rename_i hm
    obtain rfl : ps = [] :=
      eq_nil_iff_forall_not_mem.2 fun p hp => by simpa [hm] using hb.floor p hp
    exact ⟨[], [], rfl, hb, by simp, fun _ => id, fun _ => rfl, rfl, by simp⟩
  · rename_i height hm
    have hall : ∀ p ∈ ps, height ≤ p.1 := fun p hp => by simpa [hm] using hb.floor p hp
    dsimp only
    generalize hn : min (max page 1) b.hashes.length = n
    rw [hb.hashes, length_map] at hn
    refine ⟨_, _, take_append_drop n ps,
      ?_, by simp; omega, fun _ hne => ?_, by simp, by simp [hb.hashes],
      fun p hp => hall p (mem_of_mem_take hp)⟩
    · split
      · rename_i last
        have hr : ps.drop n = [] := by simpa [hb.hashes] using last
        exact hr ▸ ⟨rfl, by simp⟩
      · exact ⟨by simp [hb.hashes], fun p hp => hb.floor p (mem_of_mem_drop hp)⟩
    · have := length_pos_iff.2 hne
      simp [hne]
      omega

lemma run (hb : b.Holds ps) (calls : List (Push ⊕ Nat)) :
    ∃ emitted waiting, Forall₂ Stamps (b.run calls).1 emitted ∧ (b.run calls).2.Holds waiting ∧
      emitted.flatten ++ waiting = ps ++ calls.flatMap (Sum.elim Push.seen fun _ => []) := by
  induction calls generalizing b ps with
  | nil => exact ⟨[], ps, .nil, hb, by simp⟩
  | cons call calls ih =>
    cases call with
    | inl p => simpa [PageBuffer.run] using ih (hb.push p)
    | inr page =>
      obtain ⟨front, rest, rfl, hr, -, -, hn, hs⟩ := hb.takePage page
      obtain ⟨emitted, waiting, hp, hw, he⟩ := ih hr
      simp only [PageBuffer.run]
      cases ht : (b.takePage page).1 with
      | none => exact ⟨emitted, waiting, hp, hw, by simp [he, hn ht]⟩
      | some t => exact ⟨front :: emitted, waiting, .cons (by simpa [ht] using hs) hp,
          hw, by simp [he]⟩

lemma takeRoom (hb : b.Holds ps) (room : Nat) :
    PageTaken ps room (if 0 < room then b.takePage room else (none, b)) := by
  split_ifs with hr
  · have ht := hb.takePage room
    rwa [max_eq_left hr] at ht
  · exact ⟨[], ps, rfl, hb, by simp, by simp [hr], by simp, rfl, by simp⟩

/-- Every report takes something while anything waits, so the fuel suffices. -/
lemma drain {as : List (Nat × Blake3Hash)} {added : PageBuffer} (hr : b.Holds ps)
    (ha : added.Holds as) (nodeId : Int)
    {page fuel : Nat} (hp : 1 ≤ page) (hf : as.length + ps.length < fuel) :
    ∃ reports, BeliefBuffer.drain nodeId page fuel ⟨added, b⟩ = some reports ∧
      Reported page reports as ps := by
  induction fuel generalizing b added as ps with
  | zero => omega
  | succ fuel ih =>
    simp only [BeliefBuffer.drain, BeliefBuffer.takeReport, ha.hashes, hr.hashes, map_eq_nil_iff]
    by_cases he : as = [] ∧ ps = []
    · obtain ⟨rfl, rfl⟩ := he
      exact ⟨[], by simp, .nil⟩
    simp only [he, if_false]
    obtain ⟨gone, ps, rfl, hr', hlen, hne, -, hg⟩ := hr.takePage page
    generalize (b.takePage page).1.getD noPage = removed at *
    have hroom : removed.2.length = gone.length := by rw [hg.1, length_map]
    have hadd := ha.takeRoom (page - removed.2.length)
    generalize (if 0 < page - removed.2.length then _ else _ : _ × PageBuffer) = t at hadd ⊢
    obtain ⟨new, as, rfl, ha', hfit, hnew, -, hn⟩ := hadd
    have hshort : as.length + ps.length < fuel := by
      simp only [length_append] at hf
      by_cases hrs : gone ++ ps = []
      · have := length_pos_iff.2 (hnew (by simp_all; omega) (by simp_all))
        omega
      · have := length_pos_iff.2 (hne (by omega) hrs)
        omega
    obtain ⟨reports, hd, hrep⟩ := ih hr' ha' hshort
    refine ⟨_, by simp [hd]; rfl, .cons ?_ ⟨hn.1, fun p hp => ?_⟩ ⟨hg.1, fun p hp => ?_⟩ hrep⟩
    · simp only [hn.1, hg.1, length_map]
      omega
    · exact (min_le_right ..).trans (hn.2 p hp)
    · exact (min_le_left ..).trans (hg.2 p hp)

end PageBuffer.Holds

/-- No occurrence is lost, sent twice or stamped later than it was observed: the pages, in order,
hold what was pushed up to what still waits, and so do the reports that drain a belief buffer. -/
theorem buffers_keep_evidence (calls : List (Push ⊕ Nat)) (added removed : List Push) (nodeId : Int)
    {page : Nat} (hp : 1 ≤ page) :
    (∃ emitted waiting, Forall₂ Stamps (PageBuffer.run {} calls).1 emitted ∧
      (PageBuffer.run {} calls).2.hashes = waiting.map (·.2) ∧
      emitted.flatten ++ waiting = calls.flatMap (Sum.elim Push.seen fun _ => [])) ∧
    ∃ fuel reports, BeliefBuffer.drain nodeId page fuel
      ⟨added.foldl .push {}, removed.foldl .push {}⟩ = some reports ∧
      Reported page reports (added.flatMap Push.seen) (removed.flatMap Push.seen) := by
  have empty : PageBuffer.Holds {} [] := ⟨rfl, by simp⟩
  obtain ⟨emitted, waiting, he, hw, hall⟩ := empty.run calls
  exact ⟨⟨emitted, waiting, he, hw.hashes, hall⟩, _,
    (empty.pushes removed).drain (empty.pushes added) nodeId hp (Nat.lt_succ_self _)⟩

/-- Two additions and a removal in pages of two. -/
theorem buffers_keep_evidence_two : ∃ fuel reports,
    BeliefBuffer.drain 1 2 fuel ⟨PageBuffer.push {} ⟨5, 0, [.replicate 32 1, .replicate 32 2]⟩,
      PageBuffer.push {} ⟨4, 0, [.replicate 32 3]⟩⟩ = some reports ∧
    Reported 2 reports [(5, .replicate 32 1), (5, .replicate 32 2)] [(4, .replicate 32 3)] :=
  (buffers_keep_evidence [] [⟨5, 0, [.replicate 32 1, .replicate 32 2]⟩] [⟨4, 0, [.replicate 32 3]⟩]
    1 (by decide)).2

end HopNet
