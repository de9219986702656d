import HopNet.Lib.Runs
import HopNet.Mount.CacheSound

/-! A read through the cache returns the blob's bytes, and so does the file of a backing, on every
run in which no segment comes back under a reader that has read its hole, and no state that left the
map opens the file of its successor. -/

namespace HopNet

open List Slots CacheManager BlobState Nat CacheConfig
open Option (map_eq_some_iff bind_eq_some_iff)

variable {whole data : Bytes} {offset count : Nat}

lemma getElem?_writeAt (length : data.length = whole.length) (offset count o : Nat) :
    (writeAt data offset ((whole.drop offset).take count))[o]? =
      if offset ≤ o ∧ o < offset + ((whole.drop offset).take count).length then whole[o]?
        else data[o]? := by
  by_cases hn : (whole.drop offset).take count = []
  · rw [hn, writeAt, if_pos rfl, if_neg (by simp)]
  · have hi : offset < data.length := by
      by_contra ho
      exact hn (by rw [drop_of_length_le (by omega), take_nil])
    have cut : (data.take offset).length = offset := by
      rw [length_take]
      omega
    rw [writeAt, if_neg hn, Nat.sub_eq_zero_of_le hi.le, replicate_zero, append_nil,
      append_assoc, getElem?_append, cut]
    split_ifs with hb hw hw
    · omega
    · exact getElem?_take_of_lt hb
    · rw [getElem?_append_left (by omega), getElem?_take_of_lt (by simp at hw; omega),
        getElem?_drop]
      congr 1
      omega
    · rw [getElem?_append_right (by omega), getElem?_drop]
      congr 1
      omega

lemma length_writeAt (length : data.length = whole.length) (offset count : Nat) :
    (writeAt data offset ((whole.drop offset).take count)).length = data.length := by
  by_cases hn : (whole.drop offset).take count = []
  · rw [hn, writeAt, if_pos rfl]
  · have hi : offset < data.length := by
      by_contra ho
      exact hn (by rw [drop_of_length_le (by omega), take_nil])
    simp only [writeAt, if_neg hn, length_append, length_take, length_replicate, length_drop]
    omega

lemma length_punchHole (data : Bytes) (offset count : Nat) :
    (punchHole data offset count).length = data.length :=
  length_mapIdx

lemma getElem?_punchHole {data} {o : Nat} (ho : ¬ (offset ≤ o ∧ o < offset + count)) :
    (punchHole data offset count)[o]? = data[o]? := by
  rw [punchHole, getElem?_mapIdx]
  cases data[o]? with
  | none => rfl
  | some byte => simp [ho]

lemma length_setLen (data : Bytes) (size : Nat) : (setLen data size).length = size := by
  simp only [setLen, length_append, length_take, length_replicate]
  omega

namespace CacheConfig

variable {config : CacheConfig}

lemma div_eq_iff {o seg : Nat} :
    o / config.segmentSize = seg ↔ config.segStart seg ≤ o ∧
    o < config.segStart seg + config.segmentSize := by
  rw [segStart, Nat.div_eq_iff config.segmentSize_pos]
  have := config.segmentSize_pos
  omega

end CacheConfig

def CacheOutcome.succeeds {Blob : Type} : CacheOutcome Blob → Bool
  | .ok => true
  | _ => false

namespace CacheManager

variable {Blob : Type}

section

variable (config : CacheConfig) (content : Blob → Bytes) (s : CacheManager Blob)

/-- A file to be opened again is gone, or its state is the blob's. -/
def OwnFile (i : Nat) : Prop :=
  ∀ b ∈ s.states[i]?, b.file = none → s.paths b.blob = none ∨ s.blobs b.blob = some i

/-- A segment comes back only where no reader has unchecked bytes of it; a state that left the map
does not open its successor's file; a pruned blob's file can be unlinked. -/
def TaskCalm (outcome : CacheOutcome Blob) : CacheTask Blob → Prop
  | .fetched reader seg _ (.ok ()) => ∀ task ∈ s.tasks,
      ¬ task.Exposed config content reader.state seg
  | .storing reader _ _ => s.OwnFile reader.state
  | .opening reader => s.OwnFile reader.state
  | .punching _ _ i => s.OwnFile i
  | .backing i => s.OwnFile i
  | .unlinking _ _ => outcome.succeeds
  | _ => True

def Calm : CacheEvent Blob → Prop
  | .read blob _ _ => (content blob).length ≤ 2 ^ 32 * config.segmentSize
  | .run p outcome => ∀ task ∈ s.tasks[p]?, s.TaskCalm config content outcome task
  | _ => True

end

variable {K : CacheBase Blob} {own : Nat → Nat} {s s' : CacheManager Blob} {i p : Nat}
  {b b' : BlobState Blob} {task : CacheTask Blob} {outcome : CacheOutcome Blob}
  {opened : CacheManager Blob × Except CacheError Nat}

/-- What opening a state's file leaves of the manager and the state. -/
structure Opened (s s' : CacheManager Blob) (i : Nat) (b : BlobState Blob) : Prop where
  tasks : s'.tasks = s.tasks
  files : s'.files = s.files
  state : ∃ b', s'.states[i]? = some b' ∧ b'.blob = b.blob ∧ b'.size = b.size ∧
    b'.present = b.present ∧ b'.inflight = b.inflight ∧ b'.pins = b.pins

variable (hk : s.Sound K own) {n : Nat}
include hk

/-- A state changes its file or its stamp only. -/
lemma Sound.reset (hf : s.states[i]? = some b) (file : ∀ m, b'.file = some m → m = own i)
    (hb : b'.blob = b.blob := by rfl) (hs : b'.size = b.size := by rfl)
    (hp : b'.present = b.present := by rfl) (hi : b'.inflight = b.inflight := by rfl)
    (pins : b'.pins = b.pins := by rfl) : (s.setState i b').Sound K own :=
  hk.setState_same b' hf hb hs hp hi file
    (hk.toPinned.setState hf pins fun _ hw _ here => hw _ (hp ▸ here))

lemma Sound.stamp (hf : s.states[i]? = some b) : (s.stamp i b).Sound K own := by
  obtain ⟨data, _, hh⟩ := hk.made i b hf
  have hs : (s.setState i { b with lastTouch := s.accessClock }).Sound K own :=
    hk.reset hf hh.file
  exact hs.aside

lemma Sound.openMaster (hfo : s.states[i]? = some b)
    (ho : b.file = none → s.paths b.blob = none ∨ s.blobs b.blob = some i)
    (hop : s.openMaster i b = some (s', n)) : s'.Sound K own ∧ Opened s s' i b ∧ n = own i := by
  obtain ⟨data, _, hh⟩ := hk.made i b hfo
  unfold CacheManager.openMaster at hop
  split at hop
  · rename_i m hf
    simp only [Option.some.injEq, Prod.mk.injEq] at hop
    obtain ⟨rfl, rfl⟩ := hop
    exact ⟨hk, ⟨rfl, rfl, b, hfo, rfl, rfl, rfl, rfl, rfl⟩, hh.file m hf⟩
  rename_i hf
  simp only [map_eq_some_iff, Prod.mk.injEq] at hop
  obtain ⟨m, hn, rfl, rfl⟩ := hop
  have hma : s.blobs b.blob = some i := by
    rcases ho hf with hg | hmd
    · cases hg.symm.trans hn
    · exact hmd
  have how : own i = m := (hk.located b.blob m hn).2.2 i hma
  have hr : (s.setState i (b.reopen m)).Sound K own :=
    hk.reset hfo fun m' hm => (Option.some.inj hm).symm.trans how.symm
  exact ⟨hr, ⟨rfl, rfl, b.reopen m, set_here hfo, rfl, rfl, rfl, rfl, rfl⟩, how.symm⟩

lemma Sound.blobFileInner (hf : s.states[i]? = some b)
    (hof : b.file = none → s.paths b.blob = none ∨ s.blobs b.blob = some i)
    (hop : s.blobFileInner i b outcome = some opened) :
    opened.1.Sound K own ∧ Opened s opened.1 i b ∧ ∀ n, opened.2 = .ok n → n = own i := by
  have hu : s.Sound K own ∧ Opened s s i b :=
    ⟨hk, rfl, rfl, b, hf, rfl, rfl, rfl, rfl, rfl⟩
  cases outcome with
  | ok =>
    simp only [blobFileInner] at hop
    split at hop
    rotate_left
    · cases hop
      exact ⟨hu.1, hu.2, nofun⟩
    · rename_i ho
      cases hop
      obtain ⟨hk', hs, how⟩ := hk.openMaster hf hof ho
      exact ⟨hk', hs, fun n isOk => (Except.ok.inj isOk).symm.trans how⟩
  | failed why =>
    cases hop
    exact ⟨hu.1, hu.2, nofun⟩
  | half why =>
    simp only [blobFileInner, map_eq_some_iff] at hop
    obtain ⟨result, ho, rfl⟩ := hop
    obtain ⟨hk', hs, _⟩ := hk.openMaster hf hof ho
    exact ⟨hk', hs, nofun⟩
  | bytes | victim => cases hop

lemma Sound.blobFile (hf : s.states[i]? = some b) (ho : s.OwnFile i)
    (hop : s.blobFile i b outcome = some opened) :
    opened.1.Sound K own ∧ Opened s opened.1 i b ∧ ∀ n, opened.2 = .ok n → n = own i := by
  have hs : (s.stamp i b).states[i]? = some { b with lastTouch := s.accessClock } := set_here hf
  obtain ⟨hk', same, how⟩ := (hk.stamp hf).blobFileInner hs (ho b hf) hop
  exact ⟨hk', { same with }, how⟩

section

variable {reader : CacheReader Blob} {seg channel written other attempt : Nat}
  {call : ReadCall Blob} {buf : Bytes}

lemma Sound.goTo_afterSegment (hr : s.ReaderSound K reader) :
    (s.goTo p (afterSegment K.config K.content reader seg)).Sound K own := by
  unfold afterSegment
  split_ifs <;> exact hk.goTo_idle rfl hr

lemma Sound.goTo_beginAttempt (hr : s.ReaderSound K reader) :
    (s.goTo p (beginAttempt K.config K.content reader)).Sound K own := by
  unfold beginAttempt
  split_ifs <;> exact hk.goTo_idle rfl hr

lemma Sound.fail {why} : (s.goTo p (.returned call (.error why))).Sound K own :=
  hk.goTo_idle rfl nofun

lemma Sound.startFetch (hfo : s.states[reader.state]? = some b)
    (hr : s.ReaderSound K reader) (ha : ¬ b.isInflight seg) :
    ((s.setState reader.state (b.startFetch seg channel)).goTo p
      (.fetching reader seg channel)).Sound K
      own := by
  obtain ⟨data, _, hh⟩ := hk.made _ b hfo
  have hg : (s.setState reader.state (b.startFetch seg channel)).Sound K own := by
    refine hk.setState (b.startFetch seg channel) hfo rfl rfl rfl hh.file (fun _ hp => .inl hp) ?_
      (hk.toPinned.setState hfo rfl fun _ hw => hw)
    intro _ _ other _ hf
    exact any_cons.trans (by rw [isInflight] at hf; rw [hf, Bool.or_true])
  obtain ⟨⟨c, hs, hb⟩, hv⟩ := hr
  cases hfo.symm.trans hs
  have here : (s.setState reader.state (b.startFetch seg channel)).states[reader.state]? =
    some (b.startFetch seg channel) :=
    set_here hfo
  refine hg.goTo ⟨⟨⟨_, here, hb⟩, hv⟩, _, here, ?_⟩ ?_
  · simp [isInflight, BlobState.startFetch]
  · intro q other f ht hfe hn
    cases hn
    obtain ⟨c, hs, hf⟩ := (hk.tasks other (mem_of_getElem? ht)).inFlight hfe
    cases hfo.symm.trans hs
    exact absurd hf ha

lemma Sound.ensure (hfo : s.states[reader.state]? = some b) {tries} (hr : s.ReaderSound K reader) :
    (s.ensure K.config K.content p reader seg tries b).Sound K own := by
  unfold CacheManager.ensure
  split_ifs
  · exact hk.goTo_afterSegment hr
  · cases hf : b.inflight.find? (·.1 = seg) with
    | some entry => exact hk.goTo_idle rfl hr
    | none =>
      have ha : ¬ b.isInflight seg := by
        rw [isInflight, any_eq_true]
        rintro ⟨entry, he, hs⟩
        exact find?_eq_none.1 hf entry he hs
      exact (hk.startFetch hfo hr ha).aside

lemma Sound.write {most data chunk}
    (ht : s.tasks[p]? = some (.writing reader seg channel n written)) (hf : s.files[n]? = some data)
    (hs : chunk = ((K.content reader.call.blob).drop (K.config.segStart seg + written)).take most) :
    ((s.setFile n (writeAt data (K.config.segStart seg + written) chunk)).goTo p
      (.writing reader seg channel n (written + chunk.length))).Sound K own := by
  obtain ⟨⟨⟨b, hfo, hb⟩, _⟩, _, rfl, _⟩ := hk.tasks _ (mem_of_getElem? ht)
  obtain ⟨data', hf', hho⟩ := hk.made _ b hfo
  cases hf.symm.trans hf'
  have length : data.length = (K.content reader.call.blob).length := by rw [← hb]; exact hho.length
  have hc := fun o => getElem?_writeAt length (K.config.segStart seg + written) most o
  have same := length_writeAt length (K.config.segStart seg + written) most
  rw [← hs] at hc same
  generalize writeAt data (K.config.segStart seg + written) chunk = new at hc same
  have hw' : (s.setFile (own reader.state) new).Sound K own := by
    refine hk.setFile hfo hf same fun o _ hri => ?_
    rw [hb] at hri ⊢
    rw [hc]
    split_ifs
    · rfl
    · exact hri
  obtain ⟨hr, hfl, _, hfi⟩ := hw'.tasks _ (mem_of_getElem? ht)
  refine hw'.goTo_on ht rfl ⟨hr, hfl, rfl, fun new' hfn o hse hbw => ?_⟩
  by_cases hbe : o < K.config.segStart seg + written
  · exact hfi new' hfn o hse hbe
  · cases (set_here hf).symm.trans hfn
    rw [hc, if_pos (by omega)]

lemma Sound.finishWrite (ht : s.tasks[p]? = some (.writing reader seg channel n written))
    (full : K.config.segLen (K.content reader.call.blob).length seg ≤ written) :
    (s.goTo p (.fetched reader seg channel (.ok ()))).Sound K own := by
  obtain ⟨hr, hfl, rfl, hfi⟩ := hk.tasks _ (mem_of_getElem? ht)
  refine hk.goTo_on ht rfl ⟨hr, hfl, fun _ stop data hf o hs _ => ?_⟩
  obtain ⟨⟨b, hfo, hb⟩, _⟩ := hr
  obtain ⟨data', hf', hh⟩ := hk.made _ b hfo
  cases hf.symm.trans hf'
  have length : data.length = (K.content reader.call.blob).length := by rw [← hb]; exact hh.length
  by_cases hi : o < (K.content reader.call.blob).length
  · refine hfi data hf o hs ?_
    have he := div_eq_iff.1 hs
    unfold segLen at full
    omega
  · rw [getElem?_eq_none (by omega), getElem?_eq_none (by omega)]

lemma Sound.fetch_ends {old} (hta : s.tasks[p]? = some old)
    (hf : old.fetch = some (i, seg)) (hi : task.fetch = none) :
    ∀ other ∈ (s.goTo p task).tasks, other.fetch ≠ some (i, seg) := by
  intro other ho hs
  obtain ⟨q, ht⟩ := getElem?_of_mem ho
  rcases set_cases ht with ⟨rfl, rfl⟩ | ⟨hd, hw⟩
  · cases hi.symm.trans hs
  · exact hd (hk.single q p other old _ hw hta hs hf)

omit hk in
lemma isInflight_endFetch (hf : b.isInflight other) (hd : other ≠ seg) :
    (b.endFetch seg).isInflight other := by
  obtain ⟨entry, he, hs⟩ := any_eq_true.1 hf
  refine any_eq_true.2 ⟨entry, mem_filter.2 ⟨he, ?_⟩, hs⟩
  have ho := of_decide_eq_true hs
  simpa [ho] using hd

omit hk in
lemma isPresent_setPresent {value : Bool} (hp : (b.setPresent seg value).isPresent other) :
    (other = seg ∧ value = true) ∨ (other ≠ seg ∧ b.isPresent other) := by
  rcases set_cases (isPresent_iff.1 hp) with ⟨rfl, hv⟩ | ⟨hd, was⟩
  · exact .inl ⟨rfl, hv.symm⟩
  · exact .inr ⟨hd, isPresent_iff.2 was⟩

lemma Sound.completeFetch {result} (ht : s.tasks[p]? = some (.fetched reader seg channel result))
    (hfo : s.states[reader.state]? = some b)
    (hc : s.TaskCalm K.config K.content outcome (.fetched reader seg channel result))
    [DecidableEq Blob] :
    (s.completeFetch K.config K.content p reader seg channel b result).Sound K own := by
  obtain ⟨hr, _, hfi⟩ := hk.tasks _ (mem_of_getElem? ht)
  obtain ⟨data, hfd, hho⟩ := hk.made _ b hfo
  obtain ⟨⟨c, hs, hb⟩, hv⟩ := hr
  cases hfo.symm.trans hs
  cases result with
  | error why =>
    have hl : (s.goTo p (.returned reader.call (.error why))).Sound K own := hk.fail
    have he : ((s.goTo p (.returned reader.call (.error why))).setState reader.state
        (b.endFetch seg)).Sound K own := by
      refine hl.setState (b.endFetch seg) hfo rfl rfl rfl hho.file (fun _ hp => .inl hp) ?_
        (hl.toPinned.setState hfo rfl fun _ hw => hw)
      intro other ho seg' hf hfl
      refine isInflight_endFetch hfl ?_
      rintro rfl
      exact hk.fetch_ends ht rfl rfl other ho hf
    exact he.aside
  | ok done =>
    have hi : (afterSegment K.config K.content reader seg).fetch = none := by
      unfold afterSegment
      split_ifs <;> rfl
    have hh : ¬ (afterSegment K.config K.content reader seg).Exposed K.config K.content
        reader.state seg := by
      unfold afterSegment
      split_ifs <;> exact id
    have hl : (s.goTo p (afterSegment K.config K.content reader seg)).Sound K own :=
      hk.goTo_afterSegment ⟨⟨b, hfo, hb⟩, hv⟩
    have he : ((s.goTo p (afterSegment K.config K.content reader seg)).setState reader.state
        ((b.endFetch seg).setPresent seg true)).Sound K own := by
      refine hl.setState ((b.endFetch seg).setPresent seg true) hfo rfl rfl length_set
        hho.file ?_ ?_ (hl.toPinned.setState hfo rfl ?_)
      · intro seg' hp
        rcases isPresent_setPresent hp with ⟨rfl, _⟩ | ⟨_, was⟩
        · refine .inr ⟨fun data' hf' o hse => ?_, fun other ho => ?_⟩
          · rw [hb]
            exact hfi rfl (o + 1) data' hf' o hse (lt_succ_self o)
          · rcases mem_or_eq_of_mem_set ho with old | rfl
            · exact hc other old
            · exact hh
        · exact .inl was
      · intro other ho seg' hf hfl
        refine isInflight_endFetch hfl ?_
        rintro rfl
        exact hk.fetch_ends ht rfl hi other ho hf
      · intro _ hw present hp
        rcases mem_or_eq_of_mem_set hp with old | rfl
        · exact hw present old
        · rfl
    exact he.aside

lemma Sound.readMore {data}
    (ht : s.tasks[p]? = some (.reading reader n buf)) (hf : s.files[n]? = some data) :
    (s.goTo p (.reading reader n (buf ++ (data.drop (reader.call.offset + buf.length)).take
      (min count (reader.call.count K.content - buf.length))))).Sound K own := by
  obtain ⟨hr, rfl, hsh, has⟩ := hk.tasks _ (mem_of_getElem? ht)
  refine hk.goTo_idle rfl ⟨hr, rfl, ?_, fun b hfo o hi hp => ?_⟩
  · rw [length_append, length_take]
    omega
  · by_cases hb : o < buf.length
    · rw [getElem?_append_left hb]
      exact has b hfo o hb hp
    · obtain ⟨data', hf', hh⟩ := hk.made _ b hfo
      cases hf.symm.trans hf'
      obtain ⟨⟨c, hs, hbl⟩, _⟩ := hr
      cases hfo.symm.trans hs
      rw [length_append, length_take] at hi
      have hri := hh.right _ hp
      rw [hbl] at hri
      rw [getElem?_append_right (by omega), getElem?_take_of_lt (by omega), getElem?_drop, ← hri]
      congr 1
      omega

omit hk in
/-- A full buffer whose segments are all present has the blob's bytes. -/
lemma Window.exact (has : s.Window K reader buf)
    (hv : reader.call.Valid K) (full : buf.length = reader.call.count K.content)
    (hf : s.states[reader.state]? = some b)
    (hp : ∀ seg ∈ reader.call.segs K.content K.config, b.isPresent seg) :
    buf = ((K.content reader.call.blob).drop reader.call.offset).take reader.call.len := by
  have length : (((K.content reader.call.blob).drop reader.call.offset).take
      reader.call.len).length = buf.length := by
    rw [full, length_take, length_drop]
    rfl
  apply ext_getElem? fun o => ?_
  by_cases hi : o < buf.length
  · have ha : o < reader.call.len := by
      rw [full] at hi
      exact hi.trans_le (min_le_left ..)
    rw [has b hf o hi (hp _ (hv.mem_segs (full ▸ hi))), getElem?_take_of_lt ha, getElem?_drop]
  · rw [getElem?_eq_none (by omega), getElem?_eq_none (by omega)]

lemma Sound.recheck (ht : s.tasks[p]? = some (.checking reader buf))
    (hf : s.states[reader.state]? = some b) :
    (s.recheck K.config K.content p reader buf b).Sound K own := by
  obtain ⟨hr, full, has⟩ := hk.tasks _ (mem_of_getElem? ht)
  unfold CacheManager.recheck
  split_ifs with hp ha
  · exact hk.goTo_idle rfl (has.exact hr.2 full hf hp)
  · exact hk.goTo_idle rfl hr.2
  · exact hk.fail

lemma Sound.touch [DecidableEq Blob] : (s.touch K.config K.content call).Sound K own :=
  hk.aside

omit hk in
lemma openPath_same [DecidableEq Blob] (blob : Blob) :
    (s.openPath blob).1.states = s.states ∧ (s.openPath blob).1.blobs = s.blobs := by
  unfold openPath
  cases s.paths blob with
  | some | none => exact ⟨rfl, rfl⟩

lemma Sound.makeState [DecidableEq Blob] {data} (hv : call.Valid K)
    (hu : s.blobs call.blob = none) (hn : s.paths call.blob = some n)
    (hd : data.length = (K.content call.blob).length) :
    ∃ own', (((s.setFile n data).addState K.config call.blob (K.content call.blob).length n).goTo p
      (beginAttempt K.config K.content ⟨call, attempt, s.states.length⟩)).Sound K own' := by
  have hsi : (s.setFile n data).Sound K own := hk.setFile_free fun j hs => hk.free hu hn hs
  have hf : (s.setFile n data).files[n]? = some data := getElem?_set_self (hk.located _ n hn).1
  have hm := hsi.addState hu hn hf hd
  exact ⟨_, hm.goTo_beginAttempt ⟨⟨_, getElem?_concat_length .., rfl⟩, hv⟩⟩

/-- `blob_state` finds the blob's state, or makes one over nobody's file. -/
lemma Sound.resolve [DecidableEq Blob]
    (hv : call.Valid K) (ran : s.resolve K.config K.content p call attempt outcome = some s') :
    ∃ own', s'.Sound K own' := by
  cases outcome with
  | ok =>
    simp only [resolve] at ran
    split at ran
    · rename_i i hm
      simp only [map_eq_some_iff] at ran
      obtain ⟨b, hf, rfl⟩ := ran
      obtain ⟨c, hs, hb⟩ := hk.mapped _ i hm
      cases hf.symm.trans hs
      exact ⟨own, (hk.stamp hf).goTo_beginAttempt ⟨⟨_, set_here hf, hb⟩, hv⟩⟩
    rename_i hm
    cases ran
    have hu : (s.openPath call.blob).1.blobs call.blob = none := by
      rw [(openPath_same call.blob).2]
      exact hm
    rw [← (openPath_same call.blob).1]
    exact (hk.openPath hm).makeState hv hu (openPath_named call.blob) (length_setLen _ _)
  | failed why =>
    simp only [resolve] at ran
    split_ifs at ran
    cases ran
    exact ⟨own, hk.fail⟩
  | half why =>
    simp only [resolve] at ran
    split_ifs at ran with hu
    cases ran
    exact ⟨own, (hk.openPath hu).fail⟩
  | bytes | victim => cases ran

lemma Sound.runRead [DecidableEq Blob] (ht : s.tasks[p]? = some task)
    (hc : s.TaskCalm K.config K.content outcome task)
    (ran : s.runRead K.config K.content p task outcome = some s') : ∃ own', s'.Sound K own' := by
  have hh := hk.tasks task (mem_of_getElem? ht)
  cases task with
  | resolving call attempt =>
    simp only [runRead] at ran
    split_ifs at ran
    exact hk.resolve hh ran
  | ensuring reader seg tries =>
    cases outcome with
    | ok =>
      obtain ⟨b, hfo, rfl⟩ := map_eq_some_iff.1 ran
      exact ⟨own, hk.ensure hfo hh⟩
    | _ => cases ran
  | waiting reader seg tries channel =>
    cases outcome with
    | ok =>
      simp only [runRead] at ran
      split at ran
      · cases ran
        exact ⟨own, hk.goTo_afterSegment hh⟩
      · cases ran
        split_ifs
        · exact ⟨own, hk.goTo_idle rfl hh⟩
        · exact ⟨own, hk.fail⟩
      · cases ran
    | _ => cases ran
  | fetching reader seg channel =>
    cases outcome with
    | ok =>
      cases ran
      exact ⟨own, hk.goTo_on ht rfl hh⟩
    | failed why =>
      cases ran
      exact ⟨own, hk.goTo_on ht rfl ⟨hh.1, hh.2, nofun⟩⟩
    | _ => cases ran
  | storing reader seg channel =>
    simp only [runRead, bind_eq_some_iff, map_eq_some_iff] at ran
    obtain ⟨b, hfo, opened, ho, rfl⟩ := ran
    obtain ⟨hk', same, how⟩ := hk.blobFile hfo hc ho
    have ht' : opened.1.tasks[p]? = some (.storing reader seg channel) := by
      rw [same.tasks]; exact ht
    obtain ⟨hr, hfl⟩ := hk'.tasks _ (mem_of_getElem? ht')
    cases hre : opened.2 with
    | ok n =>
      refine ⟨own, hk'.goTo_on ht' rfl ⟨hr, hfl, how n hre, ?_⟩⟩
      intro data _ o hse hb
      have := div_eq_iff.1 hse
      omega
    | error why => exact ⟨own, hk'.goTo_on ht' rfl ⟨hr, hfl, nofun⟩⟩
  | writing reader seg channel n written =>
    cases outcome with
    | bytes count =>
      simp only [runRead] at ran
      split_ifs at ran
      obtain ⟨data, hf, rfl⟩ := map_eq_some_iff.1 ran
      have hs : ((((K.content reader.call.blob).drop (K.config.segStart seg)).take
          (K.config.segLen (K.content reader.call.blob).length seg)).drop written).take count =
          ((K.content reader.call.blob).drop (K.config.segStart seg + written)).take
            (min count (K.config.segLen (K.content reader.call.blob).length seg - written)) := by
        rw [drop_take, drop_drop, take_take]
      exact ⟨own, hk.write ht hf hs⟩
    | ok =>
      simp only [runRead] at ran
      split_ifs at ran with full
      cases ran
      exact ⟨own, hk.finishWrite ht full⟩
    | failed why =>
      cases ran
      exact ⟨own, hk.goTo_on ht rfl ⟨hh.1, hh.2.1, nofun⟩⟩
    | _ => cases ran
  | fetched reader seg channel result =>
    cases outcome with
    | ok =>
      obtain ⟨b, hfo, rfl⟩ := map_eq_some_iff.1 ran
      exact ⟨own, hk.completeFetch ht hfo hc⟩
    | _ => cases ran
  | opening reader =>
    simp only [runRead, bind_eq_some_iff, map_eq_some_iff] at ran
    obtain ⟨b, hfo, opened, ho, rfl⟩ := ran
    obtain ⟨hk', same, how⟩ := hk.blobFile hfo hc ho
    have ht' : opened.1.tasks[p]? = some (.opening reader) := by rw [same.tasks]; exact ht
    have hr := hk'.tasks _ (mem_of_getElem? ht')
    cases hre : opened.2 with
    | ok n =>
      exact ⟨own, hk'.goTo_idle rfl ⟨hr, how n hre, zero_le _, nofun⟩⟩
    | error why => exact ⟨own, hk'.fail⟩
  | reading reader n buf =>
    cases outcome with
    | bytes count =>
      obtain ⟨data, hf, rfl⟩ := map_eq_some_iff.1 ran
      exact ⟨own, hk.readMore ht hf⟩
    | ok =>
      simp only [runRead] at ran
      split_ifs at ran with full
      cases ran
      exact ⟨own, hk.goTo_idle rfl ⟨hh.1, full, hh.2.2.2⟩⟩
    | failed why =>
      cases ran
      exact ⟨own, hk.fail⟩
    | _ => cases ran
  | checking reader buf =>
    cases outcome with
    | ok =>
      obtain ⟨b, hfo, rfl⟩ := map_eq_some_iff.1 ran
      exact ⟨own, hk.recheck ht hfo⟩
    | _ => cases ran
  | touching call buf =>
    cases outcome with
    | ok =>
      cases ran
      refine ⟨own, hk.touch.goTo_idle rfl fun buf' isOk => ?_⟩
      cases isOk
      exact hh
    | _ => cases ran
  | _ => cases outcome <;> cases ran

end

section

lemma Sound.finish : (s.goTo p .finished).Sound K own :=
  hk.goTo_idle rfl trivial

lemma Sound.withIndex {cached} : (s.withIndex cached).Sound K own :=
  hk.aside

/-- A state without pins forgets segments, and may close its file. -/
lemma Sound.forget (hfo : s.states[i]? = some b) (hb : b'.blob = b.blob)
    (hs : b'.size = b.size) (hl : b'.present.length = b.present.length)
    (hi : b'.inflight = b.inflight)
    (pins : b'.pins = b.pins) (hu : b.pins = 0) (file : ∀ m, b'.file = some m → b.file = some m)
    (hpr : ∀ seg, b'.isPresent seg → b.isPresent seg) : (s.setState i b').Sound K own := by
  obtain ⟨data, _, hh⟩ := hk.made i b hfo
  refine hk.setState b' hfo hb hs hl (fun m hf => hh.file m (file m hf))
    (fun seg hp => .inl (hpr seg hp)) ?_ (hk.toPinned.setState hfo pins fun used => by omega)
  intro _ _ seg _ hfl
  rw [isInflight, hi]
  exact hfl

lemma Sound.punchHole (hfo : s.states[i]? = some b) {seg data} (hf : s.files[own i]? = some data)
    (hsh : count ≤ K.config.segmentSize) (ha : ¬ b.isPresent seg) (idle : ¬ b.isInflight seg) :
    (s.setFile (own i) (HopNet.punchHole data (K.config.segStart seg) count)).Sound K own := by
  refine hk.setFile hfo hf (length_punchHole ..) fun o hu hr => ?_
  have ho : ¬ (K.config.segStart seg ≤ o ∧ o < K.config.segStart seg + count) := by
    intro hi
    have hs : o / K.config.segmentSize = seg := div_eq_iff.2 (by omega)
    rw [hs] at hu
    exact hu.elim ha idle
  rw [getElem?_punchHole ho]
  exact hr

variable [DecidableEq Blob]

lemma Sound.punch (hfd : s.states[i]? = some b) (ho : s.OwnFile i)
    {name seg} (ran : s.punch K.config p name seg i b outcome = some s') :
    s'.Sound K own := by
  unfold CacheManager.punch at ran
  split_ifs at ran with used hfl
  · cases ran
    exact hk.finish
  · cases ran
    exact hk.withIndex.finish
  · have hu : b.pins = 0 := by omega
    have hfo : (s.setState i (b.setPresent seg false)).Sound K own := by
      refine hk.forget hfd rfl rfl length_set rfl rfl hu (fun _ hfi => hfi) fun other hp => ?_
      rcases isPresent_setPresent hp with ⟨_, hi⟩ | ⟨_, was⟩
      · cases hi
      · exact was
    obtain ⟨opened, hop, ran⟩ := bind_eq_some_iff.1 ran
    obtain ⟨hk', hs, how⟩ := hfo.blobFileInner (set_here hfd) (ho b hfd) hop
    split at ran
    rotate_left
    · cases ran
      exact hk'.goTo_idle rfl trivial
    rename_i n hr
    obtain ⟨data, hf, rfl⟩ := map_eq_some_iff.1 ran
    cases how n hr
    obtain ⟨c, hf', _, _, hpr, hin, _⟩ := hs.state
    have ha : ¬ c.isPresent seg := by
      rw [isPresent, hpr]
      intro hp
      rcases isPresent_setPresent hp with ⟨_, hi⟩ | ⟨hd, _⟩
      · cases hi
      · exact hd rfl
    have idle : ¬ c.isInflight seg := by
      rw [isInflight, hin]
      exact hfl
    exact (hk'.punchHole hf' hf (min_le_right ..) ha idle).goTo_idle rfl trivial

lemma Sound.runEvict (hc : s.TaskCalm K.config K.content outcome task)
    (ran : s.runEvict K.config p task outcome = some s') : s'.Sound K own := by
  cases task with
  | evicting =>
    cases outcome with
    | ok =>
      simp only [runEvict] at ran
      split_ifs at ran
      cases ran
      exact hk.goTo_idle rfl trivial
    | _ => cases ran
  | picking pinned =>
    cases outcome with
    | ok =>
      simp only [runEvict] at ran
      split_ifs at ran
      cases ran
      exact hk.finish
    | victim name seg =>
      simp only [runEvict] at ran
      split_ifs at ran
      cases ran
      exact hk.goTo_idle rfl trivial
    | _ => cases ran
  | finding name seg =>
    cases outcome with
    | ok =>
      simp only [runEvict] at ran
      split_ifs at ran
      split at ran
      · cases ran
        exact hk.goTo_idle rfl trivial
      · cases ran
        exact hk.withIndex.finish
    | _ => cases ran
  | punching name seg i =>
    obtain ⟨b, hf, ran⟩ := bind_eq_some_iff.1 ran
    exact hk.punch hf hc ran
  | dropping name seg =>
    cases outcome with
    | ok =>
      cases ran
      exact hk.withIndex.finish
    | _ => cases ran
  | _ => cases outcome <;> cases ran

lemma Sound.pruneNext {victims} (ran : s.pruneNext K.config p victims = some s') :
    s'.Sound K own := by
  have hu : ((s.setLocked false).goTo p .finished).Sound K own :=
    hk.aside.finish
  cases victims with
  | nil =>
    cases ran
    exact hu
  | cons victim victims =>
    simp only [CacheManager.pruneNext] at ran
    split_ifs at ran with few
    · cases ran
      exact hu
    · obtain ⟨b, hfo, rfl⟩ := map_eq_some_iff.1 ran
      split_ifs with used
      · exact hk.goTo_idle rfl trivial
      · have hc : (s.setState victim b.clear).Sound K own := by
          refine hk.forget hfo rfl rfl (length_map _) rfl rfl (by omega) (nofun) ?_
          intro seg hp
          obtain ⟨_, _, hi⟩ :=
            mem_map.1 (mem_of_getElem? (isPresent_iff.1 hp))
          cases hi
        exact hc.withIndex.goTo_idle rfl trivial

lemma Sound.runPrune (hc : s.TaskCalm K.config K.content outcome task)
    (ran : s.runPrune K.config p task outcome = some s') : s'.Sound K own := by
  cases task with
  | pruning victims =>
    cases outcome with
    | ok => exact hk.pruneNext ran
    | _ => cases ran
  | unlinking victim victims =>
    cases outcome with
    | ok =>
      obtain ⟨b, hf, rfl⟩ := map_eq_some_iff.1 ran
      exact hk.unlink.goTo_idle rfl trivial
    | failed why => cases hc
    | _ => cases ran
  | _ => cases outcome <;> cases ran

omit [DecidableEq Blob] in
lemma Sound.runClose {masters excess} (ran : s.runClose p masters excess = some s') :
    s'.Sound K own := by
  cases masters with
  | nil =>
    cases ran
    exact hk.finish
  | cons i masters =>
    cases excess with
    | zero =>
      cases ran
      exact hk.finish
    | succ excess =>
      obtain ⟨b, found, rfl⟩ := map_eq_some_iff.1 ran
      split_ifs
      · exact hk.goTo_idle rfl trivial
      · have closed : (s.setState i b.close).Sound K own :=
          hk.reset found nofun
        exact closed.goTo_idle rfl trivial

omit [DecidableEq Blob] in
lemma Sound.runBacking (found : s.states[i]? = some b) (ownFile : s.OwnFile i)
    (ran : s.runBacking p i b outcome = some s') : s'.Sound K own := by
  unfold CacheManager.runBacking at ran
  split_ifs at ran with unready
  · cases ran
    exact hk.finish
  · obtain ⟨opened, opens, rfl⟩ := map_eq_some_iff.1 ran
    obtain ⟨hk', same, isOwn⟩ := hk.blobFile found ownFile opens
    cases isResult : opened.2 with
    | error why => exact hk'.finish
    | ok n =>
      obtain ⟨c, found', _, _, present, _, _⟩ := same.state
      obtain ⟨data, _, holds⟩ := hk'.made i c found'
      have whole : c.Whole := by
        rw [Whole, present]
        simp only [not_or, not_not] at unready
        exact all_eq_true.1 unready.2
      cases isOwn n isResult
      have pinned : (opened.1.pin i (own i)).Sound K own := by
        have hp := hk'.toPinned.pin found' whole
        rw [pin_eq found'] at hp ⊢
        exact hk'.setState_same { c with pins := c.pins + 1 } found' rfl rfl rfl rfl holds.file hp
      exact pinned.finish

lemma Sound.runTask (ht : s.tasks[p]? = some task) (hc : s.TaskCalm K.config K.content outcome task)
    (ran : s.runTask K.config K.content p task outcome = some s') : ∃ own', s'.Sound K own' := by
  cases task with
  | evicting | picking | finding | punching | dropping => exact ⟨own, hk.runEvict hc ran⟩
  | pruning | unlinking => exact ⟨own, hk.runPrune hc ran⟩
  | closing masters excess => exact ⟨own, hk.runClose ran⟩
  | backing i =>
    obtain ⟨b, hf, ran⟩ := bind_eq_some_iff.1 ran
    exact ⟨own, hk.runBacking hf hc ran⟩
  | _ => exact hk.runRead ht hc ran

end

lemma Sound.read {blob len} (hnu : (K.content blob).length ≤ 2 ^ 32 * K.config.segmentSize) :
    (s.spawn (if (K.content blob).length ≤ offset ∨ len = 0 ∨ (K.content blob).length = 0 then
      .returned ⟨blob, offset, len⟩ (.ok []) else .resolving ⟨blob, offset, len⟩ 0)).Sound
        K own := by
  split_ifs with hn
  · refine hk.spawn rfl fun buf ho => ?_
    cases ho
    symm
    rw [take_eq_nil_iff, drop_eq_nil_iff]
    rcases hn with hp | none | he
    · exact .inr hp
    · exact .inl none
    · exact .inr (he.trans_le (zero_le _))
  · simp only [not_or, not_le] at hn
    exact hk.spawn rfl ⟨hn.1, hnu⟩

lemma Sound.step [DecidableEq Blob] {event}
    (hta : CacheStep K.config K.content s event s') (hc : s.Calm K.config K.content event) :
    ∃ own', s'.Sound K own' := by
  cases event with
  | read blob offset len =>
    cases hta
    exact ⟨own, hk.read hc⟩
  | evictColdest =>
    cases hta
    exact ⟨own, hk.spawn rfl trivial⟩
  | pruneBlobStates keep =>
    simp only [CacheStep, next] at hta
    split_ifs at hta
    cases hta
    exact ⟨own, hk.aside.spawn rfl trivial⟩
  | enforceFdCap =>
    simp only [CacheStep, next] at hta
    split_ifs at hta
    cases hta
    exact ⟨own, hk.spawn rfl trivial⟩
  | backing blob =>
    simp only [CacheStep, next] at hta
    split_ifs at hta
    cases hta
    cases s.blobs blob with
    | none => exact ⟨own, hk⟩
    | some i => exact ⟨own, hk.spawn rfl trivial⟩
  | dropPin k =>
    simp only [CacheStep, next, bind_eq_some_iff] at hta
    obtain ⟨backing, hb, hta⟩ := hta
    split_ifs at hta with ha
    cases hta
    obtain ⟨_, b, hf, _⟩ := hk.whole backing (mem_of_getElem? hb) ha
    obtain ⟨data, _, hh⟩ := hk.made _ b hf
    have hp := hk.toPinned.unpin hb ha hf
    rw [unpin_eq hf] at hp ⊢
    exact ⟨own, hk.setState_same { b with pins := b.pins - 1 } hf rfl rfl rfl rfl hh.file hp⟩
  | run p outcome =>
    obtain ⟨task, ht, ran⟩ := bind_eq_some_iff.1 hta
    exact hk.runTask ht (hc task ht) ran

omit hk in
lemma Sound.empty : (empty : CacheManager Blob).Sound K own :=
  ⟨⟨nofun, nofun⟩, nofun, nofun, nofun, nofun, nofun, nofun, nofun⟩

lemma Sound.file_eq (hfo : s.states[i]? = some b) (hw : b.Whole) :
    s.files[own i]? = some (K.content b.blob) := by
  obtain ⟨data, hf, hh⟩ := hk.made i b hfo
  rw [hf, Option.some.injEq]
  refine ext_getElem? fun o => ?_
  by_cases hi : o < (K.content b.blob).length
  · apply hh.right
    have hn : o / K.config.segmentSize < b.present.length := by
      rw [hh.segs, hh.size, segCount]
      have next : o / K.config.segmentSize + 1 =
          (o + K.config.segmentSize) / K.config.segmentSize :=
            (add_div_right o K.config.segmentSize_pos).symm
      have hm : (o + K.config.segmentSize) / K.config.segmentSize ≤
          ((K.content b.blob).length + K.config.segmentSize - 1) / K.config.segmentSize :=
            Nat.div_le_div_right (by omega)
      omega
    rw [isPresent_iff, getElem?_eq_getElem hn, hw _ (getElem_mem hn)]
  · rw [getElem?_eq_none (by have := hh.length; omega), getElem?_eq_none (by omega)]

lemma Sound.exact : s.ReadsExact K.content ∧ s.BackingsExact K.content := by
  refine ⟨fun call buf ht => hk.tasks _ ht buf rfl, fun backing hb ha => ?_⟩
  obtain ⟨ho, b, hf, hw⟩ := hk.whole backing hb ha
  rw [ho]
  exact ⟨b, hf, hk.file_eq hf hw⟩

end CacheManager

open CacheManager Runs

/-- Over every interleaving in which no segment comes back under a reader that has read its hole, no
state that left the map opens its successor's file and no unlink fails, a read that returns `Ok` has
the blob's bytes, and so has the file of every backing that is alive. -/
theorem cached_reads_exact {Blob : Type} [DecidableEq Blob] {config : CacheConfig}
    {content : Blob → Bytes} {events : List (CacheEvent Blob)} {s : CacheManager Blob}
    (run : Reaches (fun s event s' => CacheStep config content s event s' ∧
      s.Calm config content event) .empty events s) :
    s.ReadsExact content ∧ s.BackingsExact content := by
  have hk : ∃ own, s.Sound ⟨config, content⟩ own :=
    run.invariant_state (fun s => ∃ own, s.Sound ⟨config, content⟩ own)
      ⟨id, Sound.empty⟩ fun s event s' hk ht => by
      obtain ⟨own, hk⟩ := hk
      exact hk.step ht.1 ht.2
  obtain ⟨own, hk⟩ := hk
  exact hk.exact

instance {Blob : Type} (config : CacheConfig) (content : Blob → Bytes) (i seg : Nat)
    (task : CacheTask Blob) : Decidable (task.Exposed config content i seg) := by
  cases task <;> unfold CacheTask.Exposed <;> infer_instance

variable {Blob : Type} [DecidableEq Blob]

instance (config : CacheConfig) (content : Blob → Bytes) (s : CacheManager Blob)
    (outcome : CacheOutcome Blob)
    (task : CacheTask Blob) : Decidable (s.TaskCalm config content outcome task) := by
  unfold TaskCalm OwnFile
  split <;> infer_instance

instance CacheManager.decidableCalm (config : CacheConfig) (content : Blob → Bytes)
    (s : CacheManager Blob)
    (event : CacheEvent Blob) : Decidable (s.Calm config content event) := by
  cases event <;> unfold Calm <;> infer_instance

def byteSegments : CacheConfig := ⟨1, 8, 8, Nat.one_pos⟩

/-- Two blobs of one segment. -/
def cachedPair : Bool → Bytes
  | true => [7]
  | false => [9]

/-- A read of the first blob up to where its segment is present. -/
def hydrates (task : Nat) : List (CacheEvent Bool) :=
  [.read true 0 1, .run task .ok, .run task .ok, .run task .ok, .run task .ok, .run task (.bytes 1),
    .run task .ok, .run task .ok]

/-- `evict_coldest` takes the first blob's segment. -/
def evicts (task : Nat) : List (CacheEvent Bool) :=
  [.evictColdest, .run task .ok, .run task (.victim true 0), .run task .ok, .run task .ok,
    .run task .ok]

/-- A reader has its segment and opens the file. A fetch of the other blob makes room, the reader
reads the hole, another read fetches the segment again, and the first finds it present. -/
def refetchedUnderRead : List (CacheEvent Bool) :=
  hydrates 0 ++ [.run 0 .ok] ++ [.read false 0 1, .run 1 .ok, .run 1 .ok] ++ evicts 2 ++
    [.run 0 (.bytes 1), .run 0 .ok] ++ hydrates 3 ++ [.run 0 .ok, .run 0 .ok]

def cacheRun (events : List (CacheEvent Bool)) : Option (CacheManager Bool) :=
  events.foldlM (fun s event => s.next byteSegments cachedPair event) .empty

theorem zeros_read_from_hole :
    ∃ events s, Reaches (CacheStep byteSegments cachedPair) .empty events s ∧
      ¬ s.ReadsExact cachedPair := by
  have ran : (cacheRun refetchedUnderRead).isSome := by decide +kernel
  refine ⟨refetchedUnderRead, (cacheRun refetchedUnderRead).get ran,
    .of_foldlM id (Option.some_get ran).symm, fun hh => ?_⟩
  have ha : ((cacheRun refetchedUnderRead).get ran).tasks[0]? =
      some (.returned ⟨true, 0, 1⟩ (.ok [0])) := by
    rfl
  have hw := hh ⟨true, 0, 1⟩ [0] (mem_of_getElem? ha)
  revert hw
  decide

/-- A reader reads the hole and fetches the segment again; then a backing goes out, and the blob is
neither evicted nor pruned. -/
def retriedRead : List (CacheEvent Bool) :=
  hydrates 0 ++ [.run 0 .ok] ++ evicts 1 ++ [.run 0 (.bytes 1), .run 0 .ok, .run 0 .ok] ++
    (hydrates 0).tail ++
    [.run 0 .ok, .run 0 (.bytes 1), .run 0 .ok, .run 0 .ok, .run 0 .ok, .backing true, .run 2 .ok]

theorem punched_read_retried :
    ∃ s : CacheManager Bool, .returned ⟨true, 0, 1⟩ (.ok [7]) ∈ s.tasks ∧
      s.backings = [⟨0, 0, true⟩] ∧ s.ReadsExact cachedPair ∧ s.BackingsExact cachedPair := by
  have ran : (cacheRun retriedRead).isSome := by decide +kernel
  have ha : ((cacheRun retriedRead).get ran).tasks[0]? =
      some (.returned ⟨true, 0, 1⟩ (.ok [7])) := by rfl
  have hp : ((cacheRun retriedRead).get ran).backings = [⟨0, 0, true⟩] := by rfl
  have run : Reaches (fun s event s' => CacheStep byteSegments cachedPair s event s' ∧
      s.Calm byteSegments cachedPair event) .empty retriedRead ((cacheRun retriedRead).get ran) :=
    .of_guarded id (by rfl)
  exact ⟨_, mem_of_getElem? ha, hp, cached_reads_exact run⟩

end HopNet
