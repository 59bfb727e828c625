/-
# Several handles on one document

A store in a document reads it when it is opened, and from then on only writes it.  Several stores
can be open on one document, each with a memory of its own.  A call of one of them changes the
memory, then writes it to a new file beside the document, then moves this file to the place of the
document.  Calls of one handle come one after the other, as each of them locks it; calls of others
may come in between any two steps.

* `Store.Disk.Separates` : what is relied on of a disk on which several stores write;
* `Store.Handles`, `Handles.Step`, `Handles.Run` : handles, and what they do step by step;
* `Store.Handles.run_of_answer` : a call that nobody interrupts is what the store answers.
-/
import Mathlib.Logic.Function.Basic
import Firewall.Proofs.Store.Acknowledged

namespace Firewall

namespace Store

variable {ι σ : Type} [DecidableEq ι]

/-! ## Disks on which several stores write -/

theorem Disk.perform_attempt_ok_iff {α : Type} {tried : String} {f : σ → Except String α × σ}
    {world world' : σ} {x : α} :
    (attempt tried f).perform world = (.ok x, world') ↔ f world = (.ok x, world') := by
  rcases hf : f world with ⟨reason | y, world''⟩
  · simp [perform_attempt_of_error hf]
  · simp [perform_attempt_of_ok hf]

/-- What is relied on of a disk on which several stores write one document, where `file?` tells the
text in the file of a name beside the document. -/
structure Disk.Separates (disk : Disk σ) (file? : σ → String → Option String) : Prop where
  /-- A new file leaves the document alone. -/
  load_stage : ∀ {text name world world'}, disk.stage text world = (.ok name, world') →
    disk.load world' = disk.load world
  /-- No file beside the document has the name of a new one. -/
  file?_name : ∀ {text name world world'}, disk.stage text world = (.ok name, world') →
    file? world name = none
  /-- A new file has its text, and leaves the other files alone. -/
  file?_stage : ∀ {text name world world'}, disk.stage text world = (.ok name, world') →
    file? world' = Function.update (file? world) name (some text)
  /-- A file that is moved is the document. -/
  load_install : ∀ {text name world world'}, file? world name = some text →
    disk.install name world = (.ok (), world') → disk.load world' = .ok (some text)
  /-- A move leaves the other files alone. -/
  file?_install : ∀ {name world world'}, disk.install name world = (.ok (), world') →
    ∀ other ≠ name, file? world' other = file? world other

namespace Document

variable {disk : Disk σ}

/-- A flush that succeeds wrote a file and moved it. -/
theorem exists_file_of_flush {d d' : Document σ}
    (h : (flush disk).perform d = (.ok (), d')) :
    d'.memory = d.memory ∧ ∃ name world, disk.stage (encode d.memory) d.world = (.ok name, world) ∧
      disk.install name world = (.ok (), d'.world) := by
  rw [flush, Action.perform_ofFun, Action.perform_within, Prod.mk.injEq] at h
  obtain ⟨hok, rfl⟩ := h
  have hreplace : (disk.replace (encode d.memory)).perform d.world =
      (.ok (), ((disk.replace (encode d.memory)).perform d.world).2) := Prod.ext hok rfl
  obtain ⟨name, world, hstage, hinstall⟩ := Action.perform_bind_ok_iff.1 hreplace
  exact ⟨rfl, name, world, Disk.perform_attempt_ok_iff.1 hstage,
    Disk.perform_attempt_ok_iff.1 hinstall⟩

/-- A change of the memory that succeeds is followed by a flush. -/
theorem exists_flush_of_answer {op : Operation} {d d' : Document σ}
    (h : ((repository disk).answer op).perform d = (.ok .done, d')) :
    ∃ s, d.memory.Written op s ∧ (flush disk).perform { d with memory := s } = (.ok (), d') := by
  cases op with
  | put batch =>
    obtain ⟨⟨⟩, d₁, hput, h⟩ := Action.perform_bind_ok_iff.1 h
    cases h
    exact ⟨_, .put batch, hput⟩
  | stamp id time =>
    obtain ⟨⟨⟩, d₁, hboth, h⟩ := Action.perform_bind_ok_iff.1 h
    cases h
    obtain ⟨⟨⟩, d₂, hstamp, hflush⟩ := Action.perform_bind_ok_iff.1 hboth
    rw [inMemory, Action.perform_within, Prod.mk.injEq] at hstamp
    obtain ⟨hok, rfl⟩ := hstamp
    refine ⟨_, Snapshot.written_iff.2 (Action.perform_bind_of_ok (Prod.ext hok rfl) _), hflush⟩
  | _ =>
    obtain ⟨_, _, _, h⟩ := Action.perform_bind_ok_iff.1 h
    cases h

end Document

/-! ## Handles -/

/-- A store that is open, with its contents in memory. -/
inductive Handle
  /-- Between two calls. -/
  | idle (memory : Snapshot)
  /-- In a call that has changed the memory. -/
  | changed (op : Operation) (memory : Snapshot)
  /-- In a call that has also written the memory to the file of a name. -/
  | staged (op : Operation) (memory : Snapshot) (name : String)

/-- The file that a handle is about to move. -/
def Handle.file? : Handle → Option String
  | staged _ _ name => some name
  | _ => none

/-- Handles on one document. -/
structure Handles (ι σ : Type) where
  handle : ι → Handle
  /-- The world that the document is in. -/
  world : σ

namespace Handles

/-- Handles that were just opened. -/
def opened (s : Snapshot) (world : σ) : Handles ι σ := ⟨fun _ => .idle s, world⟩

/-- One step of one handle, and the event that is over with it, if any. -/
inductive Step (disk : Disk σ) (h : Handles ι σ) : Option (ι × Event) → Handles ι σ → Prop
  /-- A call changes the memory. -/
  | change {i : ι} {op : Operation} {s s' : Snapshot} (hidle : h.handle i = .idle s)
      (hmemory : (Repository.inMemory.answer op).perform s = (.ok .done, s')) :
      Step disk h none { h with handle := Function.update h.handle i (.changed op s') }
  /-- It writes the memory to a new file. -/
  | stage {i : ι} {op : Operation} {s : Snapshot} {name : String} {world : σ}
      (hchanged : h.handle i = .changed op s)
      (hstage : disk.stage (Document.encode s) h.world = (.ok name, world)) :
      Step disk h none ⟨Function.update h.handle i (.staged op s name), world⟩
  /-- It moves the file to the place of the document, and returns. -/
  | install {i : ι} {op : Operation} {s : Snapshot} {name : String} {world : σ}
      (hstaged : h.handle i = .staged op s name)
      (hinstall : disk.install name h.world = (.ok (), world)) :
      Step disk h (some (i, .call op)) ⟨Function.update h.handle i (.idle s), world⟩
  /-- A handle is opened again.  If it was in a call, this call does not return. -/
  | reopen {i : ι} {d : Document σ} (hopen : Document.openAt disk h.world = .ok d) :
      Step disk h (some (i, .reopen))
        { h with handle := Function.update h.handle i (.idle d.memory) }

/-- Steps one after the other, and the events that are over with them. -/
inductive Run (disk : Disk σ) : Handles ι σ → List (ι × Event) → Handles ι σ → Prop
  | nil (h : Handles ι σ) : Run disk h [] h
  | silent {h h' h'' : Handles ι σ} {history : List (ι × Event)} (hstep : Step disk h none h')
      (hrest : Run disk h' history h'') : Run disk h history h''
  | event {h h' h'' : Handles ι σ} {e : ι × Event} {history : List (ι × Event)}
      (hstep : Step disk h (some e) h') (hrest : Run disk h' history h'') :
      Run disk h (e :: history) h''

variable {disk : Disk σ}

theorem Run.trans {h h' h'' : Handles ι σ} {history history' : List (ι × Event)}
    (hrun : Run disk h history h') (hrun' : Run disk h' history' h'') :
    Run disk h (history ++ history') h'' := by
  induction hrun with
  | nil h => exact hrun'
  | silent hstep hrest ih => exact .silent hstep (ih hrun')
  | event hstep hrest ih => exact .event hstep (ih hrun')

/-- A run can be cut where an event is over. -/
theorem Run.exists_of_append {h h' : Handles ι σ} {earlier later : List (ι × Event)}
    (hrun : Run disk h (earlier ++ later) h') :
    ∃ h₀, Run disk h earlier h₀ ∧ Run disk h₀ later h' := by
  generalize hhistory : earlier ++ later = history at hrun
  induction hrun generalizing earlier with
  | nil h =>
    obtain ⟨rfl, rfl⟩ := List.append_eq_nil_iff.1 hhistory
    exact ⟨h, .nil h, .nil h⟩
  | silent hstep hrest ih =>
    obtain ⟨h₀, hfirst, hsecond⟩ := ih hhistory
    exact ⟨h₀, .silent hstep hfirst, hsecond⟩
  | @event h _ _ e history hstep hrest ih =>
    cases earlier with
    | nil =>
      obtain rfl : later = e :: history := hhistory
      exact ⟨h, .nil h, .event hstep hrest⟩
    | cons e' earlier =>
      obtain ⟨rfl, hlater⟩ := List.cons.inj hhistory
      obtain ⟨h₀, hfirst, hsecond⟩ := ih hlater
      exact ⟨h₀, .event hstep hfirst, hsecond⟩

/-- **A call that nobody interrupts** is what the store answers. -/
theorem run_of_answer {h : Handles ι σ} {i : ι} {s : Snapshot} (hidle : h.handle i = .idle s)
    {op : Operation} {d : Document σ}
    (hd : ((Document.repository disk).answer op).perform ⟨s, h.world⟩ = (.ok .done, d)) :
    Run disk h [(i, .call op)] ⟨Function.update h.handle i (.idle d.memory), d.world⟩ := by
  obtain ⟨s', hwritten, hflush⟩ := Document.exists_flush_of_answer hd
  obtain ⟨hmemory, name, world, hstage, hinstall⟩ := Document.exists_file_of_flush hflush
  obtain rfl : d.memory = s' := hmemory
  have hrun := Run.silent (.change hidle (Snapshot.written_iff.1 hwritten)) <|
    .silent (.stage (Function.update_self i _ h.handle) hstage) <|
    .event (.install (Function.update_self i _ _) hinstall) <| .nil _
  rwa [Function.update_idem, Function.update_idem] at hrun

/-- Two calls of handles that were opened before, one after the other. -/
theorem run_of_answers {i j : ι} (hij : i ≠ j) {s : Snapshot} {world : σ} {op₁ op₂ : Operation}
    {d₁ d₂ : Document σ}
    (h₁ : ((Document.repository disk).answer op₁).perform ⟨s, world⟩ = (.ok .done, d₁))
    (h₂ : ((Document.repository disk).answer op₂).perform ⟨s, d₁.world⟩ = (.ok .done, d₂)) :
    ∃ h, Run disk (opened s world) [(i, .call op₁), (j, .call op₂)] h ∧ h.world = d₂.world := by
  let h : Handles ι σ :=
    ⟨Function.update (opened s world).handle i (.idle d₁.memory), d₁.world⟩
  have hidle : h.handle j = .idle s := Function.update_of_ne hij.symm _ _
  have hfirst : Run disk (opened s world) [(i, .call op₁)] h := run_of_answer rfl h₁
  exact ⟨_, hfirst.trans (run_of_answer hidle h₂), rfl⟩

end Handles

end Store

end Firewall
