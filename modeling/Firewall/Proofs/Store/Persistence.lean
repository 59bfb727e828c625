/-
# A store in a document against a store in memory

As long as every write succeeds, a store that is kept in a document cannot be told from one in
memory with the same contents, however often it is closed and opened again.  What carries this is
that the document always holds what is in memory: opening gives such a store, reading leaves it
alone, a write replaces the whole document by the text for the new contents, and the text for
contents holds these contents.

* `Store.Document.InSync` : the document holds what is in memory;
* `Store.Event`, `Store.Document.process` : operations, and opening again;
* `Store.Document.session` : events one after the other;
* `Store.Document.session_eq_inMemory` : a session is that of the store in memory.
-/
import Firewall.Proofs.Store.Operation
import Firewall.Proofs.Store.Rules
import Firewall.Proofs.Store.StoredForm

namespace Firewall

/-! ## Failures do not stop a sequence -/

/-- The results of actions one after the other, and the world after them.  One that fails does not
stop those after it. -/
def Action.replay {σ α ε : Type} (act : ε → Action σ α) : List ε → σ → List (Except Error α) × σ
  | [], s => ([], s)
  | event :: events, s =>
    let (r, t) := (act event).perform s
    let (rs, u) := replay act events t
    (r :: rs, u)

theorem Action.replay_append {σ α ε : Type} (act : ε → Action σ α) (events events' : List ε)
    (s : σ) :
    replay act (events ++ events') s =
      ((replay act events s).1 ++ (replay act events' (replay act events s).2).1,
        (replay act events' (replay act events s).2).2) := by
  induction events generalizing s with
  | nil => rfl
  | cons event events ih => simp [replay, ih]

/-- What holds of every result holds of the results of a sequence. -/
theorem Action.forall_mem_replay {σ α ε : Type} {act : ε → Action σ α}
    {P : Except Error α → Prop} (h : ∀ event s, P ((act event).perform s).1) (events : List ε)
    (s : σ) : ∀ r ∈ (replay act events s).1, P r := by
  induction events generalizing s with
  | nil =>
    intro r hr
    cases hr
  | cons event events ih => exact List.forall_mem_cons.2 ⟨h event s, ih _⟩

namespace Store

/-! ## Contents within the limits stay there -/

/-- Bundles with one of them stamped are bundles as before, or the one that was stamped. -/
theorem Snapshot.forall_mem_stampIn {P : Bundle → Prop} {id : String} {time : Timestamp}
    {bs bs' : List Bundle} (h : ∀ b ∈ bs, P b)
    (hP : ∀ b, P b → P { b with lastSuccessSync := some time })
    (hstamp : stampIn id time bs = some bs') : ∀ b ∈ bs', P b := by
  induction bs generalizing bs' with
  | nil => cases hstamp
  | cons b bs ih =>
    have hb := h b List.mem_cons_self
    have hbs : ∀ b' ∈ bs, P b' := fun b' hb' => h b' (List.mem_cons_of_mem b hb')
    rw [stampIn] at hstamp
    split at hstamp
    · cases hstamp
      exact List.forall_mem_cons.2 ⟨hP b hb, hbs⟩
    · obtain ⟨bs'', hbs'', rfl⟩ := Option.map_eq_some_iff.1 hstamp
      exact List.forall_mem_cons.2 ⟨hb, ih hbs hbs''⟩

/-- Whether an operation sets no time outside of the years of four digits. -/
def Operation.IsPlain : Operation → Prop
  | stamp _ time => time.HasPlainYear
  | _ => True

/-- Contents that a document can hold. -/
structure Snapshot.Storable (s : Snapshot) : Prop where
  plain : s.IsPlain
  shallow : s.Shallow

/-- **What is written keeps contents within the limits.** -/
theorem Snapshot.Storable.answer {s s' : Snapshot} (h : s.Storable) {op : Operation}
    (hop : op.IsPlain) (hwrites : op.writes = true) {a : Answer}
    (hs' : (Repository.inMemory.answer op).perform s = (.ok a, s')) : s'.Storable := by
  cases op with
  | put rules =>
    cases hs'
    refine ⟨⟨?_, ?_⟩, ?_⟩
    · simpa only [objects_putRules] using h.plain.raws
    · simpa only [bundles_putRules] using h.plain.times
    · simpa only [Shallow, objects_putRules] using h.shallow
  | stamp id time =>
    obtain ⟨⟨⟩, s'', hstamp, h'⟩ := Action.perform_bind_ok_iff.1 hs'
    cases h'
    simp only [Repository.inMemory, Action.perform_ofFun, Snapshot.stamp] at hstamp
    rcases hbundles : stampIn id time s.bundles with _ | bundles
    · simp only [hbundles] at hstamp
      cases hstamp
    · simp only [hbundles] at hstamp
      cases hstamp
      refine ⟨⟨h.plain.raws, ?_⟩, h.shallow⟩
      refine forall_mem_stampIn h.plain.times ?_ hbundles
      intro b _ t ht
      obtain rfl : time = t := Option.some.inj ht
      exact hop
  | _ => cases hwrites

/-! ## Events -/

/-- What happens to a store: it is asked something, or it is closed and opened again. -/
inductive Event
  | call (op : Operation)
  | reopen

/-- Whether an event sets no time outside of the years of four digits. -/
def Event.IsPlain : Event → Prop
  | call op => op.IsPlain
  | reopen => True

/-- What an event does to a store in memory; there is nothing to be opened. -/
def Snapshot.process : Event → Action Snapshot Answer
  | .call op => Repository.inMemory.answer op
  | .reopen => pure .done

/-- A session of a store in memory. -/
def Snapshot.session (events : List Event) (s : Snapshot) :
    List (Except Error Answer) × Snapshot :=
  Action.replay Snapshot.process events s

namespace Document

variable {σ : Type}

/-- Closing a store and opening it again; if it cannot be opened, it stays as it is. -/
def reopen (disk : Disk σ) : Action (Document σ) Unit :=
  Action.ofFun fun d =>
    match openAt disk d.world with
    | .ok d' => (.ok (), d')
    | .error e => (.error e, d)

/-- What an event does to a store in a document. -/
def process (disk : Disk σ) : Event → Action (Document σ) Answer
  | .call op => (repository disk).answer op
  | .reopen => do
    reopen disk
    return .done

/-- A session of a store in a document: the answers to events, and the store after them. -/
def session (disk : Disk σ) (events : List Event) (d : Document σ) :
    List (Except Error Answer) × Document σ :=
  Action.replay (process disk) events d

/-! ## In sync -/

variable {disk : Disk σ}

/-- The document holds what is in memory, which is something that a document can hold. -/
structure InSync (disk : Disk σ) (d : Document σ) : Prop where
  storable : d.memory.Storable
  contents : contents disk d.world = .ok d.memory

/-- The document is read as before if its text is as before. -/
theorem contents_congr {world world' : σ} (h : disk.load world' = disk.load world) :
    contents disk world' = contents disk world := by
  rw [contents, contents, h]

theorem contents_of_load {world : σ} {s : Snapshot} (hs : s.Storable)
    (h : disk.load world = .ok (some (encode s))) : contents disk world = .ok s := by
  simp only [contents, h, decode?_encode hs.plain hs.shallow]

/-- A store is opened with the contents of its document, if there are any. -/
theorem openAt_eq_ok_iff {world : σ} {d : Document σ} :
    openAt disk world = .ok d ↔ d.world = world ∧ contents disk world = .ok d.memory := by
  obtain ⟨memory, world'⟩ := d
  unfold openAt
  rcases contents disk world with e | s
  · simp [Except.map]
  · simp [Except.map, eq_comm, and_comm]

/-- Contents that were read can be written. -/
theorem shallow_of_contents {world : σ} {s : Snapshot} (h : contents disk world = .ok s) :
    s.Shallow := by
  unfold contents at h
  split at h
  · cases h
  · cases h
    intro o ho
    cases ho
  · split at h
    · next hs =>
      cases h
      exact shallow_of_decode? hs
    · cases h

/-- **A store that was opened is in sync.** -/
theorem inSync_of_openAt {world : σ} {d : Document σ} (h : openAt disk world = .ok d)
    (hplain : d.memory.IsPlain) : InSync disk d := by
  obtain ⟨rfl, hcontents⟩ := openAt_eq_ok_iff.1 h
  exact ⟨⟨hplain, shallow_of_contents hcontents⟩, hcontents⟩

/-- Opening a store that is in sync changes nothing. -/
theorem InSync.perform_reopen {d : Document σ} (h : InSync disk d) :
    (reopen disk).perform d = (.ok (), d) := by
  have hopen : openAt disk d.world = .ok d := openAt_eq_ok_iff.2 ⟨rfl, h.contents⟩
  simp [reopen, hopen]

/-! ## Sessions -/

/-- **One event** does to a store in sync what it does to the store in memory, unless a write
fails. -/
theorem InSync.process (hdisk : disk.Lawful) {d d' : Document σ} (h : InSync disk d)
    {event : Event} (hevent : event.IsPlain) {r : Except Error Answer}
    (hd : (process disk event).perform d = (r, d'))
    (hwrite : ∀ e, r = .error e → ¬ e.IsWriteFailure) :
    (Snapshot.process event).perform d.memory = (r, d'.memory) ∧ InSync disk d' := by
  cases event with
  | reopen =>
    have hreopen : (Document.process disk .reopen).perform d = (.ok .done, d) :=
      Action.perform_bind_of_ok h.perform_reopen _
    rw [hreopen] at hd
    cases hd
    exact ⟨rfl, h⟩
  | call op =>
    cases serves hdisk hd with
    | unchanged _ hmemory => exact ⟨hmemory, h⟩
    | written hop hmemory hload =>
      -- the new contents are within the limits again, so they are what their text holds
      have hstorable := h.storable.answer hevent hop hmemory
      exact ⟨hmemory, hstorable, contents_of_load hstorable hload⟩
    | unwritten _ _ _ hfailed _ => exact absurd hfailed (hwrite _ rfl)

/-- **A session** of a store in sync is that of the store in memory, and leaves it in sync, unless a
write fails. -/
theorem InSync.session (hdisk : disk.Lawful) {d : Document σ} (h : InSync disk d)
    {events : List Event} (hevents : ∀ event ∈ events, event.IsPlain)
    (hwrites : ∀ r ∈ (session disk events d).1, ∀ e, r = .error e → ¬ e.IsWriteFailure) :
    Snapshot.session events d.memory =
        ((Document.session disk events d).1, (Document.session disk events d).2.memory) ∧
      InSync disk (Document.session disk events d).2 := by
  induction events generalizing d with
  | nil => exact ⟨rfl, h⟩
  | cons event events ih =>
    rcases hd : (Document.process disk event).perform d with ⟨r, d'⟩
    have hcons : Document.session disk (event :: events) d =
        (r :: (Document.session disk events d').1, (Document.session disk events d').2) := by
      simp only [Document.session, Action.replay, hd]
    rw [hcons] at hwrites ⊢
    obtain ⟨hone, hsync⟩ := h.process hdisk (hevents event List.mem_cons_self) hd
      fun e he => hwrites r List.mem_cons_self e he
    obtain ⟨hrest, hsync'⟩ := ih hsync
      (fun event' hevent' => hevents event' (List.mem_cons_of_mem event hevent'))
      (fun r' hr' => hwrites r' (List.mem_cons_of_mem r hr'))
    refine ⟨?_, hsync'⟩
    rw [Snapshot.session] at hrest
    simp only [Snapshot.session, Action.replay, hone, hrest]

/-- **A store in a document cannot be told from a store in memory** that starts with the same
contents, as long as no write fails, wherever it is closed and opened again.  After every part of a
session the answers and the contents are those of the store in memory, the document holds these
contents, and what is not found changes neither. -/
theorem session_eq_inMemory (hdisk : disk.Lawful) {world : σ} {d : Document σ}
    (hopen : openAt disk world = .ok d) (hplain : d.memory.IsPlain) {events : List Event}
    (hevents : ∀ event ∈ events, event.IsPlain)
    (hwrites : ∀ r ∈ (session disk events d).1, ∀ e, r = .error e → ¬ e.IsWriteFailure)
    {before : List Event} (hbefore : before <+: events) :
    (session disk before d).1 = (Snapshot.session before d.memory).1 ∧
      (session disk before d).2.memory = (Snapshot.session before d.memory).2 ∧
      contents disk (session disk before d).2.world = .ok (session disk before d).2.memory ∧
      ∀ op what d', ((repository disk).answer op).perform (session disk before d).2 =
        (.error (.notFound what), d') → d' = (session disk before d).2 := by
  have hsession : ∀ r ∈ (session disk before d).1, ∀ e, r = .error e → ¬ e.IsWriteFailure := by
    obtain ⟨after, rfl⟩ := hbefore
    intro r hr
    rw [session, Action.replay_append] at hwrites
    exact hwrites r (List.mem_append_left _ hr)
  obtain ⟨hmemory, hsync⟩ := (inSync_of_openAt hopen hplain).session hdisk
    (fun event hevent => hevents event (hbefore.subset hevent)) hsession
  rw [hmemory]
  refine ⟨rfl, rfl, hsync.contents, ?_⟩
  intro op what d' hd'
  exact eq_of_notFound hdisk hd'

/-! ## Disks on which every write succeeds -/

/-- Nothing is written when a store is opened. -/
theorem not_isWriteFailure_of_openAt {world : σ} {e : Error} (h : openAt disk world = .error e) :
    ¬ e.IsWriteFailure := by
  simp only [openAt, contents] at h
  rcases hload : disk.load world with reason | (_ | text)
  · simp only [hload, Except.map] at h
    cases h
    exact Error.not_isWriteFailure_read reason
  · simp only [hload, Except.map] at h
    cases h
  · rcases hdecode : decode? text with _ | s
    · simp only [hload, hdecode, Except.map] at h
      cases h
      rintro ⟨reason, h | h⟩ <;> cases h
    · simp only [hload, hdecode, Except.map] at h
      cases h

/-- **No failed write is told** where every write succeeds. -/
theorem not_isWriteFailure_of_process (hdisk : disk.Lawful) (h : disk.AlwaysWrites)
    {event : Event} {d d' : Document σ} {e : Error}
    (he : (process disk event).perform d = (.error e, d')) : ¬ e.IsWriteFailure := by
  cases event with
  | reopen =>
    rcases Action.perform_bind_error_iff.1 he with he | ⟨_, _, -, he⟩
    · simp only [reopen, Action.perform_ofFun] at he
      rcases hopen : openAt disk d.world with e' | d''
      · simp only [hopen] at he
        cases he
        exact not_isWriteFailure_of_openAt hopen
      · simp only [hopen] at he
        cases he
    · cases he
  | call op =>
    cases serves hdisk he with
    | unchanged hop hmemory =>
      rcases Repository.error_of_answer hmemory with ⟨-, token, rfl⟩ | ⟨id, rfl⟩
      · exact Error.not_isWriteFailure_pageToken token
      · exact fun hfailed => hfailed.ne_notFound _ rfl
    | @unwritten s world _ _ _ hflush _ _ =>
      obtain ⟨world', hreplace⟩ := h (encode s) d.world
      simp only [flush, Action.perform_ofFun, Action.perform_within, hreplace] at hflush
      cases hflush

theorem not_isWriteFailure_of_session (hdisk : disk.Lawful) (h : disk.AlwaysWrites)
    (events : List Event) (d : Document σ) :
    ∀ r ∈ (session disk events d).1, ∀ e, r = .error e → ¬ e.IsWriteFailure := by
  refine Action.forall_mem_replay (fun event d => ?_) events d
  intro e he
  exact not_isWriteFailure_of_process hdisk h (Prod.ext he rfl)

/-! ## An example -/

end Document

namespace Sample

/-- The first moment of 2025. -/
def moment : Timestamp := Firewall.Sample.time

/-- The document of a function that is no tag. -/
def function : Json.Ordered := ⟨.array [.object [("key", .string "app"), ("value", .null)]], rfl⟩

/-- A rule with an empty list of options. -/
def rule : Rule :=
  ⟨"r1", "b1", "pass", "tcp", "o1", .any, "o2", .single "443", .failed, ["why"], some [], 3, none⟩

/-- Contents with a function. -/
def contents : Snapshot where
  bundles := [⟨"b1", some "edge", "g1", "", ["ops"], none⟩]
  rules := [rule]
  objects := [⟨"o1", .lambda function⟩, ⟨"o2", .address "10.0.0.2"⟩]

/-- A folder with a document for these contents. -/
def folder : Folder := ⟨some (Document.encode contents), []⟩

/-- The rule without its failure. -/
def renewed : Rule := { rule with status := .pending, failureReasons := [] }

/-- Writes and reads, with the store opened again between them. -/
def events : List Event :=
  [.call (.put [renewed]), .reopen, .call (.stamp "b1" moment), .call (.stamp "b9" moment),
    .reopen, .call (.bundle "b1"), .call (.rules "b1"), .call (.scan (some "x") 1)]

end Sample

namespace Document

theorem plain_contents : Sample.contents.IsPlain where
  raws := by
    intro o ho raw hraw
    simp only [Sample.contents, List.mem_cons, List.not_mem_nil, or_false] at ho
    rcases ho with rfl | rfl
    · cases hraw
      rfl
    · cases hraw
  times := by
    intro b hb t ht
    simp only [Sample.contents, List.mem_cons, List.not_mem_nil, or_false] at hb
    subst hb
    cases ht

theorem openAt_folder :
    openAt Disk.reliable Sample.folder = .ok ⟨Sample.contents, Sample.folder⟩ := by
  have hshallow : Sample.contents.Shallow := by
    intro o ho raw hraw
    simp only [Sample.contents, List.mem_cons, List.not_mem_nil, or_false] at ho
    rcases ho with rfl | rfl
    · cases hraw
      decide
    · cases hraw
  exact openAt_eq_ok_iff.2 ⟨rfl, contents_of_load ⟨plain_contents, hshallow⟩ rfl⟩

/-- The store of the folder keeps what was put and stamped, however often it is opened. -/
theorem session_eq_inMemory_sample :
    openAt Disk.reliable Sample.folder = .ok ⟨Sample.contents, Sample.folder⟩ ∧
      (session Disk.reliable Sample.events ⟨Sample.contents, Sample.folder⟩).1 =
        [.ok .done, .ok .done, .ok .done, .error (.notFound "rule bundle b9"), .ok .done,
          .ok (.bundle (some ⟨"b1", some "edge", "g1", "", ["ops"], some Sample.moment⟩)),
          .ok (.rules [Sample.renewed]), .error (.storage "Invalid page token: x")] := by
  have hmoment : Sample.moment.HasPlainYear := by decide
  have hevents : ∀ event ∈ Sample.events, event.IsPlain := by
    simp [Sample.events, Event.IsPlain, Operation.IsPlain, hmoment]
  obtain ⟨hanswers, -⟩ := session_eq_inMemory Disk.lawful_reliable openAt_folder plain_contents
    hevents (not_isWriteFailure_of_session Disk.lawful_reliable Disk.alwaysWrites_reliable _ _)
    (List.prefix_refl Sample.events)
  exact ⟨openAt_folder, hanswers⟩

end Document

end Store

end Firewall
