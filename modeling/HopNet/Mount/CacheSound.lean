import HopNet.Lib.Slots
import HopNet.Mount.Cache

namespace HopNet

open List Slots Option Function BlobState

variable {Blob : Type} {config : CacheConfig}

/-- The state and the segment that a task fetches. -/
def CacheTask.fetch : CacheTask Blob → Option (Nat × Nat)
  | .fetching reader seg _ => some (reader.state, seg)
  | .storing reader seg _ => some (reader.state, seg)
  | .writing reader seg _ _ _ => some (reader.state, seg)
  | .fetched reader seg _ _ => some (reader.state, seg)
  | _ => none

/-- It has read the segment and not yet checked that it is present. -/
def CacheTask.Exposed (config : CacheConfig) (content : Blob → Bytes) (i seg : Nat) :
    CacheTask Blob → Prop
  | .reading reader _ buf => reader.state = i ∧ buf ≠ [] ∧ seg ∈ reader.call.segs content config
  | .checking reader _ => reader.state = i ∧ seg ∈ reader.call.segs content config
  | _ => False

/-- What a cache is over. -/
structure CacheBase (Blob : Type) where
  config : CacheConfig
  content : Blob → Bytes

/-- A call not answered at once, on a blob of fewer than `2 ^ 32` segments. -/
structure ReadCall.Valid (K : CacheBase Blob) (call : ReadCall Blob) : Prop where
  inside : call.offset < (K.content call.blob).length
  numbered : (K.content call.blob).length ≤ 2 ^ 32 * K.config.segmentSize

lemma CacheConfig.segOf_eq {size o : Nat} (hn : size ≤ 2 ^ 32 * config.segmentSize)
    (hi : o < size) : config.segOf o = o / config.segmentSize := by
  have hb : o / config.segmentSize < 2 ^ 32 := Nat.div_lt_of_lt_mul (by omega)
  exact Nat.mod_eq_of_lt hb

lemma ReadCall.Valid.mem_segs {K} {call : ReadCall Blob}
    (hv : call.Valid K) {o : Nat} (hi : o < call.count K.content) :
    (call.offset + o) / K.config.segmentSize ∈ call.segs K.content K.config := by
  have hw : call.offset + call.count K.content ≤ (K.content call.blob).length := by
    have := hv.inside
    unfold ReadCall.count
    omega
  have hf : call.firstSeg K.config = call.offset / K.config.segmentSize :=
    CacheConfig.segOf_eq hv.numbered hv.inside
  have hl : call.lastSeg K.content K.config =
      (call.offset + call.count K.content - 1) / K.config.segmentSize :=
        CacheConfig.segOf_eq hv.numbered (by omega)
  have low : call.offset / K.config.segmentSize ≤ (call.offset + o) / K.config.segmentSize :=
    Nat.div_le_div_right (Nat.le_add_right _ _)
  have hh : (call.offset + o) / K.config.segmentSize ≤
      (call.offset + call.count K.content - 1) / K.config.segmentSize :=
        Nat.div_le_div_right (by omega)
  rw [ReadCall.segs, mem_range'_1, hf, hl]
  omega

/-- A state over its file. -/
structure BlobState.Sound (K : CacheBase Blob) (b : BlobState Blob) (n : Nat)
    (data : Bytes) : Prop where
  size : b.size = (K.content b.blob).length
  length : data.length = (K.content b.blob).length
  segs : b.present.length = K.config.segCount b.size
  file : ∀ m, b.file = some m → m = n
  right : ∀ o, b.isPresent (o / K.config.segmentSize) → data[o]? = (K.content b.blob)[o]?

def BlobState.Whole (b : BlobState Blob) : Prop := ∀ present ∈ b.present, present = true

lemma BlobState.isPresent_iff {b : BlobState Blob} {seg} :
    b.isPresent seg ↔ b.present[seg]? = some true := by
  rw [isPresent, getD_eq_getElem?_getD]
  cases b.present[seg]? with
  | none => simp
  | some present => simp

namespace CacheManager

section

variable (K : CacheBase Blob) (own : Nat → Nat) (s : CacheManager Blob) (reader : CacheReader Blob)

def ReaderSound : Prop :=
  (∃ b, s.states[reader.state]? = some b ∧ b.blob = reader.call.blob) ∧ reader.call.Valid K

/-- The segment is in flight, so that nobody else fetches it or punches it. -/
def InFlight (i seg : Nat) : Prop := ∃ b, s.states[i]? = some b ∧ b.isInflight seg

/-- The file has the blob's bytes in the segment below this end. -/
def Filled (seg stop : Nat) : Prop :=
  ∀ data, s.files[own reader.state]? = some data → ∀ o, o / K.config.segmentSize = seg → o < stop →
    data[o]? = (K.content reader.call.blob)[o]?

/-- The buffer has the blob's bytes in the segments that are present. -/
def Window (buf : Bytes) : Prop :=
  ∀ b, s.states[reader.state]? = some b → ∀ o < buf.length,
    b.isPresent ((reader.call.offset + o) / K.config.segmentSize) →
      buf[o]? = (K.content reader.call.blob)[reader.call.offset + o]?

def TaskSound : CacheTask Blob → Prop
  | .resolving call _ => call.Valid K
  | .ensuring reader _ _ => s.ReaderSound K reader
  | .waiting reader _ _ _ => s.ReaderSound K reader
  | .fetching reader seg _ => s.ReaderSound K reader ∧ s.InFlight reader.state seg
  | .storing reader seg _ => s.ReaderSound K reader ∧ s.InFlight reader.state seg
  | .writing reader seg _ n written =>
    s.ReaderSound K reader ∧ s.InFlight reader.state seg ∧ n = own reader.state ∧
      s.Filled K own reader seg (K.config.segStart seg + written)
  | .fetched reader seg _ result =>
    s.ReaderSound K reader ∧ s.InFlight reader.state seg ∧
      (result = .ok () → ∀ stop, s.Filled K own reader seg stop)
  | .opening reader => s.ReaderSound K reader
  | .reading reader n buf =>
    s.ReaderSound K reader ∧ n = own reader.state ∧ buf.length ≤ reader.call.count K.content ∧
      s.Window K reader buf
  | .checking reader buf =>
    s.ReaderSound K reader ∧ buf.length = reader.call.count K.content ∧
      s.Window K reader buf
  | .touching call buf => buf = ((K.content call.blob).drop call.offset).take call.len
  | .returned call result => ∀ buf, result = .ok buf →
      buf = ((K.content call.blob).drop call.offset).take call.len
  | _ => True

/-- A state's pins are the backings alive, and those have all its segments. -/
structure Pinned : Prop where
  counted : ∀ i b, s.states[i]? = some b → b.pins = s.backings.countP fun k => k.alive ∧ k.state = i
  whole : ∀ k ∈ s.backings, k.alive → k.file = own k.state ∧
    ∃ b, s.states[k.state]? = some b ∧ b.Whole

/-- The invariant, where `own` has the file of each state. -/
structure Sound : Prop extends s.Pinned own where
  /-- No two states have one file. -/
  apart : ∀ i j, i < s.states.length → j < s.states.length → own i = own j → i = j
  made : ∀ i b, s.states[i]? = some b → ∃ data, s.files[own i]? = some data ∧ b.Sound K (own i) data
  mapped : ∀ blob i, s.blobs blob = some i → ∃ b, s.states[i]? = some b ∧ b.blob = blob
  /-- A name leads to the file of the blob's state, or to nobody's. -/
  located : ∀ blob n, s.paths blob = some n → n < s.files.length ∧
    (∀ i < s.states.length, own i = n → s.blobs blob = some i) ∧ ∀ i, s.blobs blob = some i →
      own i = n
  named : ∀ blob blob' n, s.paths blob = some n → s.paths blob' = some n → blob = blob'
  tasks : ∀ task ∈ s.tasks, s.TaskSound K own task
  single : ∀ (p q : Nat) (task task' : CacheTask Blob) (f : Nat × Nat), s.tasks[p]? = some task →
    s.tasks[q]? = some task' → task.fetch = some f →
    task'.fetch = some f → p = q

end

variable {K : CacheBase Blob} {own : Nat → Nat} {s s' : CacheManager Blob} {i : Nat}
  {b b' : BlobState Blob} {task : CacheTask Blob} {backing : Backing} {p : Nat}

lemma Pinned.aside (hp : s.Pinned own) (hs : s'.states = s.states) (hb : s'.backings = s.backings) :
    s'.Pinned own :=
  ⟨hs ▸ hb ▸ hp.counted, hs ▸ hb ▸ hp.whole⟩

lemma TaskSound.inFlight (hh : s.TaskSound K own task) {seg}
    (hf : task.fetch = some (i, seg)) : s.InFlight i seg := by
  cases task with
  | fetching | storing =>
    cases hf
    exact hh.2
  | writing | fetched =>
    cases hf
    exact hh.2.1
  | _ => cases hf

/-- A task that does not move keeps what it has: its state goes on, its fetch stays in flight, and
the segments and bytes it relies on stay. -/
lemma TaskSound.keep (hho : s.TaskSound K own task)
    (hs : ∀ j c, s.states[j]? = some c → ∃ c', s'.states[j]? = some c' ∧ c'.blob = c.blob ∧
      (∀ seg, task.fetch = some (j, seg) → c.isInflight seg → c'.isInflight seg) ∧
      ∀ seg, c'.isPresent seg → ¬ task.Exposed K.config K.content j seg ∨ c.isPresent seg)
    (files : ∀ j seg data', task.fetch = some (j, seg) → s'.files[own j]? = some data' →
      ∃ data, s.files[own j]? = some data ∧ ∀ c, s.states[j]? = some c →
        ∀ o, o / K.config.segmentSize = seg →
        data[o]? = (K.content c.blob)[o]? → data'[o]? = (K.content c.blob)[o]?) :
    s'.TaskSound K own task := by
  have reader : ∀ reader : CacheReader Blob, s.ReaderSound K reader →
      s'.ReaderSound K reader := by
    rintro reader ⟨⟨c, hfo, blob⟩, hv⟩
    obtain ⟨c', hf', hb', _⟩ := hs _ c hfo
    exact ⟨⟨c', hf', hb'.trans blob⟩, hv⟩
  have hf : ∀ j seg, task.fetch = some (j, seg) → s.InFlight j seg → s'.InFlight j seg := by
    rintro j seg hfe ⟨c, hfo, hfl⟩
    obtain ⟨c', hf', _, hk, _⟩ := hs _ c hfo
    exact ⟨c', hf', hk seg hfe hfl⟩
  have hfi : ∀ (reader : CacheReader Blob) (seg stop : Nat), task.fetch = some (reader.state, seg) →
      s.ReaderSound K reader → s.Filled K own reader seg stop →
      s'.Filled K own reader seg stop := by
    rintro reader seg stop hfe ⟨⟨c, hfo, blob⟩, _⟩ hfs data' hf' o hse hb
    obtain ⟨data, hfd, hk⟩ := files _ seg data' hfe hf'
    have hri := hk c hfo o hse
    rw [blob] at hri
    exact hri (hfs data hfd o hse hb)
  have hwi : ∀ (reader : CacheReader Blob) (buf : Bytes),
      (∀ o < buf.length, task.Exposed K.config K.content reader.state
        ((reader.call.offset + o) / K.config.segmentSize)) →
      s.ReaderSound K reader → s.Window K reader buf →
      s'.Window K reader buf := by
    rintro reader buf he ⟨⟨c, hfo, blob⟩, _⟩ has d hf' o hi hp
    obtain ⟨c', hf'', _, _, hk⟩ := hs _ c hfo
    rw [hf'', some.injEq] at hf'
    subst hf'
    rcases hk _ hp with hh | hw
    · exact absurd (he o hi) hh
    · exact has c hfo o hi hw
  cases task with
  | ensuring r | waiting r | opening r => exact reader r hho
  | fetching r | storing r => exact ⟨reader r hho.1, hf _ _ rfl hho.2⟩
  | writing r seg channel n written =>
    obtain ⟨hr, flies, ho, hfs⟩ := hho
    exact ⟨reader r hr, hf _ _ rfl flies, ho, hfi r seg _ rfl hr hfs⟩
  | fetched r seg channel result =>
    obtain ⟨hr, flies, hfs⟩ := hho
    exact ⟨reader r hr, hf _ _ rfl flies, fun ok stop => hfi r seg stop rfl hr (hfs ok stop)⟩
  | reading r n buf =>
    obtain ⟨hr, ho, hsh, has⟩ := hho
    refine ⟨reader r hr, ho, hsh, hwi r buf (fun o hi => ?_) hr has⟩
    exact ⟨rfl, ne_nil_of_length_pos (by omega), hr.2.mem_segs (by omega)⟩
  | checking r buf =>
    obtain ⟨hr, full, has⟩ := hho
    refine ⟨reader r hr, full, hwi r buf (fun o hi => ?_) hr has⟩
    exact ⟨rfl, hr.2.mem_segs (by omega)⟩
  | _ => exact hho

section

variable (hso : s.Sound K own)
include hso

/-- The states' files stay, and the map and the names still lead to them. -/
lemma Sound.relocate (hf : ∀ j < s.states.length, s'.files[own j]? = s.files[own j]?)
    (hm : ∀ blob j, s'.blobs blob = some j → s.blobs blob = some j)
    (hl : ∀ blob n, s'.paths blob = some n → n < s'.files.length ∧
      (∀ j < s.states.length, own j = n → s'.blobs blob = some j) ∧ ∀ j, s'.blobs blob = some j →
        own j = n)
    (hn : ∀ blob blob' n, s'.paths blob = some n → s'.paths blob' = some n → blob = blob')
    (hs : s'.states = s.states := by rfl) (hta : s'.tasks = s.tasks := by rfl)
    (hb : s'.backings = s.backings := by rfl) : s'.Sound K own := by
  refine ⟨hso.toPinned.aside hs hb, hs ▸ hso.apart, fun j c hc => ?_, fun blob j hb =>
    hs ▸ hso.mapped blob j (hm blob j hb), hs ▸ hl, hn, fun task ht => ?_, hta ▸ hso.single⟩
  · rw [hs] at hc
    rw [hf j (lt_length hc)]
    exact hso.made j c hc
  · rw [hta] at ht
    refine (hso.tasks task ht).keep
      (fun j c ho => ⟨c, hs ▸ ho, rfl, fun _ _ hfl => hfl, fun _ was => .inr was⟩) fun j seg data'
        hfe hfo => ?_
    obtain ⟨c, hc, _⟩ := (hso.tasks task ht).inFlight hfe
    rw [hf j (lt_length hc)] at hfo
    exact ⟨data', hfo, fun _ _ _ _ hr => hr⟩

/-- The rest of the manager plays no part. -/
lemma Sound.aside (hf : s'.files = s.files := by rfl) (hb : s'.blobs = s.blobs := by rfl)
    (hp : s'.paths = s.paths := by rfl) (hs : s'.states = s.states := by rfl)
    (hta : s'.tasks = s.tasks := by rfl) (hk : s'.backings = s.backings := by rfl) :
    s'.Sound K own := by
  refine hso.relocate (fun _ _ => by rw [hf]) (fun _ _ hm => hb ▸ hm) ?_ ?_ hs hta hk
  · rw [hp, hf, hb]
    exact hso.located
  · rw [hp]
    exact hso.named

/-- A segment becomes present only where its bytes are and no reader has an older view. -/
lemma Sound.setState (b' : BlobState Blob) (hfo : s.states[i]? = some b)
    (blob : b'.blob = b.blob) (size : b'.size = b.size)
    (length : b'.present.length = b.present.length) (file : ∀ m, b'.file = some m → m = own i)
    (hpr : ∀ seg, b'.isPresent seg → b.isPresent seg ∨
      (∀ data, s.files[own i]? = some data → ∀ o, o / K.config.segmentSize = seg →
        data[o]? = (K.content b.blob)[o]?) ∧
        ∀ task ∈ s.tasks, ¬ task.Exposed K.config K.content i seg)
    (hi : ∀ task ∈ s.tasks, ∀ seg, task.fetch = some (i, seg) → b.isInflight seg →
      b'.isInflight seg)
    {backings} (pinned : { s.setState i b' with backings := backings }.Pinned own) :
    { s.setState i b' with backings := backings }.Sound K own := by
  have hc : (s.setState i b').states.length = s.states.length := length_set
  refine ⟨pinned, ?_, ?_, ?_, ?_, hso.named, ?_, hso.single⟩
  · rw [hc]
    exact hso.apart
  · intro j c hs
    rcases set_cases hs with ⟨rfl, rfl⟩ | ⟨_, ho⟩
    · obtain ⟨data, hf, old⟩ := hso.made j b hfo
      refine ⟨data, hf, size.trans (old.size.trans (by rw [blob])), by rw [blob]; exact old.length,
        by rw [length, size]; exact old.segs, file, fun o hp => ?_⟩
      rw [blob]
      rcases hpr _ hp with was | ⟨hfi, _⟩
      · exact old.right o was
      · exact hfi data hf o rfl
    · exact hso.made j c ho
  · intro name j hm
    obtain ⟨c, ho, hb⟩ := hso.mapped name j hm
    rcases set_of b' hfo ho with ⟨rfl, rfl, here⟩ | there
    · exact ⟨b', here, blob.trans hb⟩
    · exact ⟨c, there, hb⟩
  · rw [hc]
    exact hso.located
  · intro task ht
    refine (hso.tasks task ht).keep (fun j c ho => ?_) fun j seg data' _ hf =>
      ⟨data', hf, fun _ _ _ _ hr => hr⟩
    rcases set_of b' hfo ho with ⟨rfl, rfl, here⟩ | there
    · refine ⟨b', here, blob, fun seg hfe => hi task ht seg hfe, fun seg hp => ?_⟩
      rcases hpr seg hp with was | ⟨_, hh⟩
      · exact .inr was
      · exact .inl (hh task ht)
    · exact ⟨c, there, rfl, fun _ _ hfl => hfl, fun _ was => .inr was⟩

lemma Sound.setState_same (b' : BlobState Blob) (hfo : s.states[i]? = some b)
    (hb : b'.blob = b.blob) (size : b'.size = b.size) (hpr : b'.present = b.present)
    (hi : b'.inflight = b.inflight) (file : ∀ m, b'.file = some m → m = own i)
    {backings} (pinned : { s.setState i b' with backings := backings }.Pinned own) :
    { s.setState i b' with backings := backings }.Sound K own := by
  refine hso.setState b' hfo hb size (by rw [hpr]) file (fun seg hp => .inl ?_)
    (fun _ _ seg _ hf => ?_) pinned
  · rw [isPresent, hpr] at hp
    exact hp
  · rw [isInflight, hi]
    exact hf

lemma Sound.setFile (hfd : s.states[i]? = some b) {data data'}
    (hf : s.files[own i]? = some data) (length : data'.length = data.length)
    (hc : ∀ o, b.isPresent (o / K.config.segmentSize) ∨ b.isInflight (o / K.config.segmentSize) →
      data[o]? = (K.content b.blob)[o]? → data'[o]? = (K.content b.blob)[o]?) :
    (s.setFile (own i) data').Sound K own := by
  have hi : own i < s.files.length := lt_length hf
  have hh : i < s.states.length := lt_length hfd
  have here : (s.setFile (own i) data').files[own i]? = some data' := getElem?_set_self hi
  have hth : ∀ j < s.states.length, i ≠ j →
      (s.setFile (own i) data').files[own j]? = s.files[own j]? := by
    intro j hs hot
    exact getElem?_set_ne fun hsh => hot (hso.apart i j hh hs hsh)
  refine ⟨hso.toPinned.aside rfl rfl, hso.apart, ?_, hso.mapped, ?_, hso.named, ?_, hso.single⟩
  · intro j c hs
    obtain ⟨old, hfo, hho⟩ := hso.made j c hs
    by_cases same : i = j
    · subst same
      cases hfd.symm.trans hs
      rw [hf, some.injEq] at hfo
      subst hfo
      exact ⟨data', here, hho.size, length.trans hho.length, hho.segs, hho.file,
        fun o hp => hc o (.inl hp) (hho.right o hp)⟩
    · exact ⟨old, (hth j (lt_length hs) same).trans hfo, hho⟩
  · intro name n hn
    obtain ⟨hb, ho⟩ := hso.located name n hn
    exact ⟨hb.trans_eq length_set.symm, ho⟩
  · intro task ht
    refine (hso.tasks task ht).keep
      (fun j c hol => ⟨c, hol, rfl, fun _ _ hfl => hfl, fun _ was => .inr was⟩) ?_
    intro j seg new hfe hfn
    obtain ⟨c, hs, hfl⟩ := (hso.tasks task ht).inFlight hfe
    by_cases same : i = j
    · subst same
      cases hfd.symm.trans hs
      cases here.symm.trans hfn
      refine ⟨data, hf, fun c' hs' o hse hr => ?_⟩
      cases hfd.symm.trans hs'
      exact hc o (.inr (by rw [hse]; exact hfl)) hr
    · rw [hth j (lt_length hs) same] at hfn
      exact ⟨new, hfn, fun _ _ _ _ hr => hr⟩

omit hso in
lemma TaskSound.withTasks {tasks}
    (hh : s.TaskSound K own task) : { s with tasks := tasks }.TaskSound K own task := by
  cases task with
  | _ => exact hh

/-- A task comes to a slot, fetching nothing that another task fetches. -/
lemma Sound.place {tasks} (hh : s.TaskSound K own task)
    (old : ∀ q other, tasks[q]? = some other → (q = p ∧ other = task) ∨ s.tasks[q]? = some other)
    (ha : ∀ q other f, s.tasks[q]? = some other → other.fetch = some f →
      task.fetch = some f → q = p) :
    { s with tasks := tasks }.Sound K own := by
  refine { hso with tasks := ?_, single := ?_ }
  · intro other ht
    obtain ⟨q, ht⟩ := getElem?_of_mem ht
    rcases old q other ht with ⟨_, rfl⟩ | hw
    · exact hh.withTasks
    · exact (hso.tasks other (mem_of_getElem? hw)).withTasks
  · intro q r first second f hfi hs hf hf'
    rcases old q first hfi with ⟨rfl, rfl⟩ | hwf
    · rcases old r second hs with ⟨rfl, rfl⟩ | hw
      · rfl
      · exact (ha r second f hw hf' hf).symm
    · rcases old r second hs with ⟨rfl, rfl⟩ | hw
      · exact ha q first f hwf hf hf'
      · exact hso.single q r first second f hwf hw hf hf'

lemma Sound.goTo (hh : s.TaskSound K own task)
    (ha : ∀ q other f, s.tasks[q]? = some other → other.fetch = some f →
      task.fetch = some f → q = p) :
    (s.goTo p task).Sound K own :=
  hso.place hh (fun _ _ ht => (set_cases ht).imp_right And.right) ha

lemma Sound.goTo_idle (hi : task.fetch = none) (hh : s.TaskSound K own task) :
    (s.goTo p task).Sound K own :=
  hso.goTo hh fun _ _ _ _ _ hf => nomatch hi.symm.trans hf

lemma Sound.goTo_on {old task} (ht : s.tasks[p]? = some old) (same : task.fetch = old.fetch)
    (hh : s.TaskSound K own task) : (s.goTo p task).Sound K own :=
  hso.goTo hh fun q other f ho hf hf' =>
    hso.single q p other old f ho ht hf (same ▸ hf')

lemma Sound.spawn (hi : task.fetch = none) (hh : s.TaskSound K own task) :
    (s.spawn task).Sound K own :=
  hso.place hh (fun _ _ ht => (append_cases ht).symm) fun _ _ _ _ _ hf => nomatch hi.symm.trans hf

end

lemma Pinned.setState (hp : s.Pinned own) (hf : s.states[i]? = some b) (pins : b'.pins = b.pins)
    (hwh : 0 < b.pins → b.Whole → b'.Whole) : (s.setState i b').Pinned own := by
  constructor
  · intro j c hs
    rcases set_cases hs with ⟨rfl, rfl⟩ | ⟨_, ho⟩
    · exact pins.trans (hp.counted j b hf)
    · exact hp.counted j c ho
  · intro k hb ha
    obtain ⟨how, c, hs, hw⟩ := hp.whole k hb ha
    refine ⟨how, ?_⟩
    rcases set_of b' hf hs with ⟨rfl, rfl, here⟩ | there
    · have hu : 0 < c.pins := by
        rw [hp.counted _ c hf]
        exact countP_pos_iff.2 ⟨k, hb, by simp [ha]⟩
      exact ⟨b', here, hwh hu hw⟩
    · exact ⟨c, there, hw⟩

lemma pin_eq (hf : s.states[i]? = some b) {n : Nat} :
    s.pin i n = { s.setState i { b with pins := b.pins + 1 } with
      backings := s.backings ++ [⟨i, n, true⟩] } := by
  rw [pin, modify_eq_set_getElem?, hf]
  rfl

lemma Pinned.pin (hp : s.Pinned own) (hf : s.states[i]? = some b) (hwh : b.Whole) :
    (s.pin i (own i)).Pinned own := by
  rw [pin_eq hf]
  constructor
  · intro j c hs
    rw [countP_append]
    rcases set_cases hs with ⟨rfl, rfl⟩ | ⟨hot, ho⟩
    · rw [← hp.counted j b hf]
      simp
    · rw [← hp.counted j c ho]
      simp [Ne.symm hot]
  · intro k hb ha
    have hk : ∀ (j : Nat) (old : BlobState Blob), s.states[j]? = some old → old.Whole →
        ∃ c : BlobState Blob, (s.setState i { b with pins := b.pins + 1 }).states[j]? = some c ∧
          c.Whole := by
      intro j old ho hw
      rcases set_of { b with pins := b.pins + 1 } hf ho with ⟨_, _, here⟩ | there
      · exact ⟨_, here, hwh⟩
      · exact ⟨old, there, hw⟩
    rcases mem_append.1 hb with old | new
    · obtain ⟨how, c, hs, hw⟩ := hp.whole k old ha
      exact ⟨how, hk _ c hs hw⟩
    · cases mem_singleton.1 new
      exact ⟨rfl, hk _ b hf hwh⟩

lemma unpin_eq {k : Nat} (hf : s.states[backing.state]? = some b) :
    s.unpin k backing = { s.setState backing.state { b with pins := b.pins - 1 } with
      backings := s.backings.set k { backing with alive := false } } := by
  rw [unpin, modify_eq_set_getElem?, hf]
  rfl

lemma Pinned.unpin (hp : s.Pinned own) {k : Nat} (hb : s.backings[k]? = some backing)
    (hal : backing.alive) (hf : s.states[backing.state]? = some b) :
    (s.unpin k backing).Pinned own := by
  rw [unpin_eq hf]
  obtain ⟨hi, hh⟩ := List.getElem?_eq_some_iff.1 hb
  constructor
  · intro j c hs
    rw [List.countP_set hi, hh]
    rcases set_cases hs with ⟨rfl, rfl⟩ | ⟨other, hol⟩
    · rw [← hp.counted _ b hf]
      simp [hal]
    · rw [← hp.counted j c hol]
      simp [Ne.symm other]
  · intro other ho ha
    rcases List.mem_or_eq_of_mem_set ho with old | rfl
    · obtain ⟨how, c, hol, hw⟩ := hp.whole other old ha
      refine ⟨how, ?_⟩
      rcases set_of { b with pins := b.pins - 1 } hf hol with ⟨_, rfl, here⟩ | there
      · exact ⟨_, here, hw⟩
      · exact ⟨c, there, hw⟩
    · cases ha

variable {blob : Blob} {n : Nat}

lemma Sound.free (hso : s.Sound K own) (hu : s.blobs blob = none) (hn : s.paths blob = some n)
    (hs : i < s.states.length) : own i ≠ n := by
  intro ho
  have hm := (hso.located blob n hn).2.1 i hs ho
  rw [hu] at hm
  cases hm

lemma Sound.own_lt (hso : s.Sound K own) (hs : i < s.states.length) : own i < s.files.length := by
  obtain ⟨data, hf, _⟩ := hso.made i _ (getElem?_eq_getElem hs)
  exact lt_length hf

lemma Sound.setFile_free (hso : s.Sound K own) {data}
    (free : ∀ j < s.states.length, own j ≠ n) : (s.setFile n data).Sound K own := by
  refine hso.relocate (fun j hs => getElem?_set_ne (free j hs).symm) (fun _ _ hm => hm) ?_ hso.named
  intro name m hn
  obtain ⟨hb, ho⟩ := hso.located name m hn
  exact ⟨hb.trans_eq length_set.symm, ho⟩

lemma TaskSound.reown {own' : Nat → Nat} (hh : s.TaskSound K own task)
    (hs : ∀ j < s.states.length, own' j = own j) : s.TaskSound K own' task := by
  have hre : ∀ r : CacheReader Blob, s.ReaderSound K r → own' r.state = own r.state := by
    rintro r ⟨⟨c, hfo, _⟩, _⟩
    exact hs _ (lt_length hfo)
  cases task with
  | writing r seg channel n written =>
    obtain ⟨hr, hfl, ho, hf⟩ := hh
    refine ⟨hr, hfl, ho.trans (hre r hr).symm, ?_⟩
    rw [Filled, hre r hr]
    exact hf
  | fetched r seg channel result =>
    obtain ⟨hr, hfl, hf⟩ := hh
    refine ⟨hr, hfl, fun ok stop => ?_⟩
    rw [Filled, hre r hr]
    exact hf ok stop
  | reading r n buf =>
    obtain ⟨hr, ho, rest⟩ := hh
    exact ⟨hr, ho.trans (hre r hr).symm, rest⟩
  | _ => exact hh

variable [DecidableEq Blob]

lemma openPath_named (blob : Blob) : (s.openPath blob).1.paths blob = some (s.openPath blob).2 := by
  unfold openPath
  cases hn : s.paths blob with
  | some n => exact hn
  | none => exact update_self ..

lemma Sound.openPath (hso : s.Sound K own) (hu : s.blobs blob = none) :
    (s.openPath blob).1.Sound K own := by
  unfold CacheManager.openPath
  cases hn : s.paths blob with
  | some n => exact hso
  | none =>
    have hfr : ∀ name m, update s.paths blob (some s.files.length) name = some m →
        (name = blob ∧ m = s.files.length) ∨ s.paths name = some m := by
      intro name m hna
      rw [update_apply] at hna
      split_ifs at hna with same
      · cases hna
        exact .inl ⟨same, rfl⟩
      · exact .inr hna
    refine hso.relocate (fun j hs => getElem?_append_left (hso.own_lt hs)) (fun _ _ hm => hm) ?_ ?_
    · intro name m hna
      rw [length_append, length_singleton]
      rcases hfr name m hna with ⟨rfl, rfl⟩ | hw
      · refine ⟨by omega, fun j hs how => ?_, fun j hm => nomatch hu.symm.trans hm⟩
        have := hso.own_lt hs
        omega
      · obtain ⟨hb, ho⟩ := hso.located name m hw
        exact ⟨by omega, ho⟩
    · intro name name' m hna hn'
      rcases hfr name m hna with ⟨rfl, rfl⟩ | hw
      · rcases hfr name' _ hn' with ⟨rfl, _⟩ | hw'
        · rfl
        · have := (hso.located name' _ hw').1
          omega
      · rcases hfr name' m hn' with ⟨rfl, rfl⟩ | hw'
        · have := (hso.located name _ hw).1
          omega
        · exact hso.named name name' m hw hw'

/-- No backing is of a state that is yet to be made. -/
lemma Pinned.addState (hp : s.Pinned own) {size} :
    (s.addState K.config blob size n).Pinned (update own s.states.length n) := by
  constructor
  · intro j c hs
    rcases append_cases hs with ho | ⟨rfl, rfl⟩
    · exact hp.counted j c ho
    · refine (countP_eq_zero.2 fun k hb hh => ?_).symm
      simp only [Bool.decide_and, Bool.decide_eq_true, Bool.and_eq_true, decide_eq_true_eq] at hh
      obtain ⟨_, c, hs', _⟩ := hp.whole k hb hh.1
      have := lt_length hs'
      omega
  · intro k hb ha
    obtain ⟨how, c, hs', hw⟩ := hp.whole k hb ha
    have hbe := lt_length hs'
    exact ⟨how.trans (update_of_ne (Nat.ne_of_lt hbe) ..).symm, c,
      (getElem?_append_left hbe).trans hs', hw⟩

lemma Sound.addState (hso : s.Sound K own) (hun : s.blobs blob = none)
    (hn : s.paths blob = some n) {data : Bytes} (hfo : s.files[n]? = some data)
    (length : data.length = (K.content blob).length) :
    (s.addState K.config blob (K.content blob).length n).Sound K
    (update own s.states.length n) := by
  have free : ∀ j < s.states.length, own j ≠ n := fun j hs => hso.free hun hn hs
  have hc : (s.addState K.config blob (K.content blob).length n).states.length =
      s.states.length + 1 :=
        length_append
  have old : ∀ j < s.states.length, update own s.states.length n j = own j := fun j hs =>
    update_of_ne (Nat.ne_of_lt hs) ..
  have new : update own s.states.length n s.states.length = n := update_self ..
  have hmo : ∀ name j, s.blobs name = some j → j < s.states.length := by
    intro name j hm
    obtain ⟨c, hs, _⟩ := hso.mapped name j hm
    exact lt_length hs
  refine ⟨hso.toPinned.addState, ?_, ?_, ?_, ?_, hso.named, ?_, hso.single⟩
  · intro j k hs hs' hsh
    rw [hc] at hs hs'
    rcases Nat.lt_succ_iff_lt_or_eq.1 hs with hb | rfl
    · rcases Nat.lt_succ_iff_lt_or_eq.1 hs' with hb' | rfl
      · rw [old j hb, old k hb'] at hsh
        exact hso.apart j k hb hb' hsh
      · rw [old j hb, new] at hsh
        exact absurd hsh (free j hb)
    · rcases Nat.lt_succ_iff_lt_or_eq.1 hs' with hb' | rfl
      · rw [old k hb', new] at hsh
        exact absurd hsh.symm (free k hb')
      · rfl
  · intro j c hs
    rcases append_cases hs with ho | ⟨rfl, rfl⟩
    · rw [old j (lt_length ho)]
      exact hso.made j c ho
    · rw [new]
      refine ⟨data, hfo, rfl, length, length_replicate, fun m hfi => (some.inj hfi).symm, ?_⟩
      intro o hp
      exact nomatch eq_of_mem_replicate (mem_of_getElem? (isPresent_iff.1 hp))
  · intro name j hm
    have hu : update s.blobs blob (some s.states.length) name = some j := hm
    rw [update_apply] at hu
    split_ifs at hu with same
    · cases hu
      exact ⟨_, getElem?_concat_length .., same.symm⟩
    · obtain ⟨c, hs, hbl⟩ := hso.mapped name j hu
      exact ⟨c, (getElem?_append_left (lt_length hs)).trans hs, hbl⟩
  · intro name m hna
    obtain ⟨hbo, hor, hon⟩ := hso.located name m hna
    have hu : (s.addState K.config blob (K.content blob).length n).blobs =
      update s.blobs blob (some s.states.length) :=
      rfl
    rw [hu, update_apply, hc]
    refine ⟨hbo, ?_, ?_⟩
    · intro j hs how
      rcases Nat.lt_succ_iff_lt_or_eq.1 hs with hb | rfl
      · rw [old j hb] at how
        have hd : name ≠ blob := by
          rintro rfl
          exact nomatch hun.symm.trans (hor j hb how)
        rw [if_neg hd]
        exact hor j hb how
      · rw [new] at how
        subst how
        rw [if_pos (hso.named name blob n hna hn)]
    · intro j hm
      split_ifs at hm with same
      · cases hm
        rw [new]
        subst same
        exact some.inj (hn.symm.trans hna)
      · rw [old j (hmo name j hm)]
        exact hon j hm
  · intro task ht
    refine ((hso.tasks task ht).reown old).keep (fun j c ho => ?_) fun j seg data' _ hf =>
      ⟨data', hf, fun _ _ _ _ hr => hr⟩
    exact ⟨c, (getElem?_append_left (lt_length ho)).trans ho, rfl, fun _ _ hfl => hfl,
      fun _ was => .inr was⟩

lemma Sound.unlink (hs : s.Sound K own) : (s.unlink blob true).Sound K own := by
  have hna : ∀ name m, update s.paths blob none name = some m → name ≠ blob ∧
      s.paths name = some m := by
    intro name m hn
    rw [update_apply] at hn
    split_ifs at hn with same
    exact ⟨same, hn⟩
  refine hs.relocate (fun _ _ => rfl) (fun name j hm => ?_)
    (fun name m hn => ?_) fun name name' m hn hn' => ?_
  · have hu : update s.blobs blob none name = some j := hm
    rw [update_apply] at hu
    split_ifs at hu
    exact hu
  · obtain ⟨hd, hw⟩ := hna name m hn
    have hu : (s.unlink blob true).blobs name = s.blobs name := update_of_ne hd ..
    rw [hu]
    exact hs.located name m hw
  · exact hs.named name name' m (hna name m hn).2 (hna name' m hn').2

end CacheManager

end HopNet
