/-
# Operations of a store in a document

What a store in a document does is what the store in memory does, and after a change it writes.  Of
the disk it is only relied on that a new file leaves the document alone, and that a move takes the
place of the whole document or leaves it alone.  Either step may fail at any time.

So there are three ways an operation can go: it changes nothing at all, or it changes the memory and
the document becomes the text for it, or it changes the memory and the document stays as it was.

* `Store.Disk.Lawful` : what is relied on;
* `Store.Disk.scripted` : a disk that fails where a script says so;
* `Store.Operation`, `Store.Repository.answer` : what a store can be asked;
* `Store.Document.Serves` : the three ways of an operation;
* `Store.Document.serves` : every operation goes one of them.
-/
import Firewall.Proofs.Action
import Firewall.Store.Document

namespace Firewall

/-- Whether an error tells that a document could not be written. -/
def Error.IsWriteFailure (e : Error) : Prop :=
  ∃ reason, e = .storage ("failed to write " ++ reason) ∨
    e = .storage ("failed to replace " ++ reason)

/-- A page token that is none is another failure. -/
theorem Error.not_isWriteFailure_pageToken (token : String) :
    ¬ (Error.storage ("Invalid page token: " ++ token)).IsWriteFailure := by
  simp only [IsWriteFailure, Error.storage.injEq]
  rintro ⟨reason, h | h⟩
  · exact append_ne_append 0 (by decide) (by decide) (by decide) _ _ h
  · exact append_ne_append 0 (by decide) (by decide) (by decide) _ _ h

/-- A document that cannot be read is another failure. -/
theorem Error.not_isWriteFailure_read (reason : String) :
    ¬ (Error.storage ("failed to read " ++ reason)).IsWriteFailure := by
  simp only [IsWriteFailure, Error.storage.injEq]
  rintro ⟨reason', h | h⟩
  · exact append_ne_append 10 (by decide) (by decide) (by decide) _ _ h
  · exact append_ne_append 12 (by decide) (by decide) (by decide) _ _ h

theorem Error.IsWriteFailure.ne_notFound {e : Error} (h : e.IsWriteFailure) (what : String) :
    e ≠ .notFound what := by
  obtain ⟨reason, rfl | rfl⟩ := h <;> exact fun h => by cases h

namespace Store

/-! ## Disks -/

namespace Disk

variable {σ : Type} {disk : Disk σ}

/-- What is relied on of a disk. -/
structure Lawful (disk : Disk σ) : Prop where
  /-- A new file beside the document leaves the document alone. -/
  load_stage : ∀ text world, disk.load (disk.stage text world).2 = disk.load world
  /-- A file that was moved is the document. -/
  load_install : ∀ {text name world world' world''}, disk.stage text world = (.ok name, world') →
    disk.install name world' = (.ok (), world'') → disk.load world'' = .ok (some text)
  /-- A move that failed leaves the document alone. -/
  load_of_refused : ∀ {name reason world world'},
    disk.install name world = (.error reason, world') → disk.load world' = disk.load world

theorem perform_attempt_of_ok {α : Type} {tried : String} {f : σ → Except String α × σ}
    {world world' : σ} {x : α} (h : f world = (.ok x, world')) :
    (attempt tried f).perform world = (.ok x, world') := by
  simp [attempt, h, Except.mapError]

theorem perform_attempt_of_error {α : Type} {tried : String} {f : σ → Except String α × σ}
    {world world' : σ} {reason : String} (h : f world = (.error reason, world')) :
    (attempt tried f).perform world = (.error (.storage (tried ++ reason)), world') := by
  simp [attempt, h, Except.mapError]

/-- **The document is replaced as a whole, or left alone** and the failure is told. -/
theorem Lawful.perform_replace_cases (h : disk.Lawful) (text : String) (world : σ) :
    (∃ world', (disk.replace text).perform world = (.ok (), world') ∧
      disk.load world' = .ok (some text)) ∨
    ∃ e world', (disk.replace text).perform world = (.error e, world') ∧ e.IsWriteFailure ∧
      disk.load world' = disk.load world := by
  have hload := h.load_stage text world
  rw [replace]
  rcases hstage : disk.stage text world with ⟨reason | name, world₁⟩
  · rw [hstage] at hload
    exact Or.inr ⟨_, world₁, Action.perform_bind_of_error (perform_attempt_of_error hstage) _,
      ⟨reason, Or.inl rfl⟩, hload⟩
  · rw [hstage] at hload
    rw [Action.perform_bind_of_ok (perform_attempt_of_ok hstage)]
    rcases hinstall : disk.install name world₁ with ⟨reason | ⟨⟩, world₂⟩
    · exact Or.inr ⟨_, world₂, perform_attempt_of_error hinstall, ⟨reason, Or.inr rfl⟩,
        (h.load_of_refused hinstall).trans hload⟩
    · exact Or.inl ⟨world₂, perform_attempt_of_ok hinstall, h.load_install hstage hinstall⟩

theorem lawful_reliable : reliable.Lawful where
  load_stage _ _ := rfl
  load_install := by
    intro text name f f' f'' hstage hinstall
    cases hstage
    simp only [reliable, List.lookup_cons_self] at hinstall
    cases hinstall
    rfl
  load_of_refused := by
    intro name reason f f' h
    simp only [reliable] at h
    split at h
    · cases h
    · cases h
      rfl

/-- Whether every write succeeds. -/
def AlwaysWrites (disk : Disk σ) : Prop :=
  ∀ text world, ∃ world', (disk.replace text).perform world = (.ok (), world')

theorem alwaysWrites_reliable : reliable.AlwaysWrites := by
  intro text f
  have hstage : (attempt "failed to write " (reliable.stage text)).perform f =
      (.ok ("." ++ Nat.repr f.beside.length ++ ".tmp"), (reliable.stage text f).2) :=
    perform_attempt_of_ok rfl
  obtain ⟨f', hinstall⟩ : ∃ f', reliable.install ("." ++ Nat.repr f.beside.length ++ ".tmp")
      (reliable.stage text f).2 = (.ok (), f') := by
    simp [reliable]
  refine ⟨f', ?_⟩
  rw [replace, Action.perform_bind_of_ok hstage]
  exact perform_attempt_of_ok hinstall

/-- A step that is done if the script says so; after the end of the script all are. -/
def scriptedStep {α : Type} (f : σ → Except String α × σ) :
    σ × List Bool → Except String α × (σ × List Bool)
  | (world, false :: script) => (.error "refused", (world, script))
  | (world, true :: script) => ((f world).1, ((f world).2, script))
  | (world, []) => ((f world).1, ((f world).2, []))

/-- A disk whose steps fail where a script says so. -/
def scripted (disk : Disk σ) : Disk (σ × List Bool) where
  load w := disk.load w.1
  stage text := scriptedStep (disk.stage text)
  install name := scriptedStep (disk.install name)

/-- A step fails and nothing happens, or it is done. -/
theorem scriptedStep_cases {α : Type} {f : σ → Except String α × σ} {w w' : σ × List Bool}
    {r : Except String α} (h : scriptedStep f w = (r, w')) :
    (∃ reason, r = .error reason ∧ w'.1 = w.1) ∨ f w.1 = (r, w'.1) := by
  obtain ⟨world, script⟩ := w
  match script with
  | false :: script => cases h; exact Or.inl ⟨_, rfl, rfl⟩
  | true :: script => cases h; exact Or.inr rfl
  | [] => cases h; exact Or.inr rfl

theorem Lawful.scripted (h : disk.Lawful) : disk.scripted.Lawful where
  load_stage text w := by
    have hload : disk.load (scriptedStep (disk.stage text) w).2.1 = disk.load w.1 := by
      rcases scriptedStep_cases (Prod.eta (scriptedStep (disk.stage text) w)).symm with
        ⟨reason, -, hw⟩ | hw
      · rw [hw]
      · rw [← h.load_stage text w.1, hw]
    exact hload
  load_install := by
    intro text name w w' w'' hstage hinstall
    rcases scriptedStep_cases hstage with ⟨reason, hr, -⟩ | hstage
    · cases hr
    · rcases scriptedStep_cases hinstall with ⟨reason, hr, -⟩ | hinstall
      · cases hr
      · exact h.load_install hstage hinstall
  load_of_refused := by
    intro name reason w w' hinstall
    rcases scriptedStep_cases hinstall with ⟨reason', -, hw⟩ | hinstall
    · exact congrArg disk.load hw
    · exact h.load_of_refused hinstall

end Disk

/-! ## Operations -/

/-- What a store can be asked. -/
inductive Operation
  | scan (token : Option String) (limit : Nat)
  | list
  | bundle (id : String)
  | rules (bundleId : String)
  | objects (ids : List String)
  | put (rules : List Rule)
  | stamp (id : String) (time : Timestamp)

/-- Whether an operation may change the store. -/
def Operation.writes : Operation → Bool
  | put _ => true
  | stamp _ _ => true
  | _ => false

/-- What a store answers. -/
inductive Answer
  | page (page : Page)
  | bundles (bundles : List Bundle)
  | bundle (bundle : Option Bundle)
  | rules (rules : List Rule)
  | objects (objects : List FlowObject)
  | done

/-- The answer of a store to an operation. -/
def Repository.answer {σ : Type} (r : Repository σ) : Operation → Action σ Answer
  | .scan token limit => do return .page (← r.scan token limit)
  | .list => do return .bundles (← r.listBundles)
  | .bundle id => do return .bundle (← r.bundle? id)
  | .rules bundleId => do return .rules (← r.rulesOf bundleId)
  | .objects ids => do return .objects (← r.objectsWith ids)
  | .put rules => do
    r.putRules rules
    return .done
  | .stamp id time => do
    r.stamp id time
    return .done

/-! ## A store in memory -/

namespace Repository

theorem error_of_page {s : Snapshot} {token : Option String} {limit : Nat} {e : Error}
    (h : s.page token limit = .error e) :
    ∃ token', e = .storage ("Invalid page token: " ++ token') := by
  unfold Snapshot.page at h
  split at h
  · cases h
  · next token' =>
    split at h
    · cases h
    · cases h
      exact ⟨token', rfl⟩

theorem error_of_listFrom {pages : Nat} {token : Option String} {s t : Snapshot} {e : Error}
    (h : (inMemory.listFrom pages token).perform s = (.error e, t)) :
    ∃ token', e = .storage ("Invalid page token: " ++ token') := by
  induction pages generalizing token s with
  | zero => cases h
  | succ pages ih =>
    rcases Action.perform_bind_error_iff.1 h with hpage | ⟨page, s', -, h⟩
    · exact error_of_page (congrArg Prod.fst hpage)
    · rcases hnext : page.nextToken with _ | next
      · rw [hnext] at h
        cases h
      · rw [hnext] at h
        rcases Action.perform_bind_error_iff.1 h with h | ⟨rest, s'', -, h⟩
        · exact ih h
        · cases h

/-- **A store in memory fails for two reasons only**: a page token that is none, or a bundle that is
not there. -/
theorem error_of_answer {op : Operation} {s t : Snapshot} {e : Error}
    (h : (inMemory.answer op).perform s = (.error e, t)) :
    (op.writes = false ∧ ∃ token, e = .storage ("Invalid page token: " ++ token)) ∨
      ∃ id, e = .notFound ("rule bundle " ++ id) := by
  cases op with
  | scan token limit =>
    rcases Action.perform_bind_error_iff.1 h with h | ⟨page, s', -, h⟩
    · exact Or.inl ⟨rfl, error_of_page (congrArg Prod.fst h)⟩
    · cases h
  | list =>
    rcases Action.perform_bind_error_iff.1 h with h | ⟨page, s', -, h⟩
    · exact Or.inl ⟨rfl, error_of_listFrom h⟩
    · cases h
  | bundle id => cases h
  | rules bundleId => cases h
  | objects ids => cases h
  | put rules => cases h
  | stamp id time =>
    rcases Action.perform_bind_error_iff.1 h with h | ⟨page, s', -, h⟩
    · simp only [inMemory, Action.perform_ofFun, Snapshot.stamp] at h
      rcases hs : Snapshot.stampIn id time s.bundles with _ | bundles
      · simp only [hs] at h
        cases h
        exact Or.inr ⟨id, rfl⟩
      · simp only [hs] at h
        cases h
    · cases h

end Repository

namespace Document

variable {σ : Type} {disk : Disk σ}

/-! ## Reading -/

/-- The documents with some contents in memory in some world, and these contents. -/
def Paired (s : Snapshot) (world : σ) (d : Document σ) (s' : Snapshot) : Prop :=
  d = ⟨s, world⟩ ∧ s' = s

/-- A look at the memory is a look at the contents. -/
theorem alike_read {α : Type} (s : Snapshot) (world : σ) (f : Snapshot → Except Error α) :
    Action.Alike (Paired s world) (inMemory (Action.read f)) (Action.read f) := by
  rintro _ _ ⟨rfl, rfl⟩
  exact ⟨rfl, rfl, rfl⟩

/-- What is read from a document is read from its memory, page after page. -/
theorem alike_listFrom (s : Snapshot) (world : σ) (pages : Nat) (token : Option String) :
    Action.Alike (Paired s world) ((repository disk).listFrom pages token)
      (Repository.inMemory.listFrom pages token) := by
  induction pages generalizing token with
  | zero => exact Action.alike_pure []
  | succ pages ih =>
    refine Action.alike_bind (alike_read s world _) fun page => ?_
    cases page.nextToken with
    | none => exact Action.alike_pure page.items
    | some next => exact Action.alike_bind (ih (some next)) fun rest => Action.alike_pure _

/-- **What does not write is answered from memory** and changes nothing. -/
theorem alike_answer (disk : Disk σ) {op : Operation} (hop : op.writes = false) (s : Snapshot)
    (world : σ) :
    Action.Alike (Paired s world) ((repository disk).answer op)
      (Repository.inMemory.answer op) := by
  cases op with
  | scan token limit =>
    exact Action.alike_bind (alike_read s world _) fun page => Action.alike_pure _
  | list =>
    refine Action.alike_bind ?_ fun bundles => Action.alike_pure _
    -- both sides may read as many pages as there can be
    rintro _ _ ⟨rfl, rfl⟩
    exact alike_listFrom _ _ _ none _ _ ⟨rfl, rfl⟩
  | bundle id => exact Action.alike_bind (alike_read s world _) fun bundle => Action.alike_pure _
  | rules bundleId =>
    exact Action.alike_bind (alike_read s world _) fun rules => Action.alike_pure _
  | objects ids =>
    exact Action.alike_bind (alike_read s world _) fun objects => Action.alike_pure _
  | put rules => cases hop
  | stamp id time => cases hop

/-! ## Writing -/

/-- **A flush writes the memory to the document**, or leaves the document alone. -/
theorem perform_flush_cases (h : disk.Lawful) (d : Document σ) :
    (∃ world, (flush disk).perform d = (.ok (), ⟨d.memory, world⟩) ∧
      disk.load world = .ok (some (encode d.memory))) ∨
    ∃ e world, (flush disk).perform d = (.error e, ⟨d.memory, world⟩) ∧ e.IsWriteFailure ∧
      disk.load world = disk.load d.world := by
  rcases h.perform_replace_cases (encode d.memory) d.world with
    ⟨world, hdone, hload⟩ | ⟨e, world, hfailed, he, hload⟩
  · refine Or.inl ⟨world, ?_, hload⟩
    simp [flush, hdone]
  · refine Or.inr ⟨e, world, ?_, he, hload⟩
    simp [flush, hfailed]

/-- The ways in which an operation can go. -/
inductive Serves (disk : Disk σ) (op : Operation) (d : Document σ) :
    Except Error Answer → Document σ → Prop
  /-- Nothing changes: there was nothing to write, or the memory already failed. -/
  | unchanged {r : Except Error Answer} (hop : op.writes = true → ∃ e, r = .error e)
      (hmemory : (Repository.inMemory.answer op).perform d.memory = (r, d.memory)) :
      Serves disk op d r d
  /-- The memory changes, and the document becomes the text for it. -/
  | written {s : Snapshot} {world : σ} (hop : op.writes = true)
      (hmemory : (Repository.inMemory.answer op).perform d.memory = (.ok .done, s))
      (hload : disk.load world = .ok (some (encode s))) :
      Serves disk op d (.ok .done) ⟨s, world⟩
  /-- The memory changes, and the document stays. -/
  | unwritten {s : Snapshot} {world : σ} {e : Error} (hop : op.writes = true)
      (hmemory : (Repository.inMemory.answer op).perform d.memory = (.ok .done, s))
      (hflush : (flush disk).perform { d with memory := s } = (.error e, ⟨s, world⟩))
      (hfailed : e.IsWriteFailure) (hload : disk.load world = disk.load d.world) :
      Serves disk op d (.error e) ⟨s, world⟩

variable {op : Operation} {d d' : Document σ} {r : Except Error Answer}

/-- What is left to do after the memory changed is a flush. -/
theorem serves_flush (h : disk.Lawful) (hop : op.writes = true) {s : Snapshot}
    (hmemory : (Repository.inMemory.answer op).perform d.memory = (.ok .done, s))
    (hd : (flush disk >>= fun _ => pure Answer.done).perform { d with memory := s } = (r, d')) :
    Serves disk op d r d' := by
  rcases perform_flush_cases h { d with memory := s } with
    ⟨world, hdone, hload⟩ | ⟨e, world, hfailed, he, hload⟩
  · rw [Action.perform_bind_of_ok hdone] at hd
    cases hd
    exact .written hop hmemory hload
  · rw [Action.perform_bind_of_error hfailed] at hd
    cases hd
    exact .unwritten hop hmemory hfailed he hload

/-- A stamp fails before it writes if there is no bundle to be stamped. -/
theorem serves_stamp (h : disk.Lawful) {id : String} {time : Timestamp}
    (hd : ((repository disk).answer (.stamp id time)).perform d = (r, d')) :
    Serves disk (.stamp id time) d r d' := by
  rcases hs : d.memory.stamp id time with e | s
  · have hmemory : (Repository.inMemory.stamp id time).perform d.memory = (.error e, d.memory) := by
      simp [Repository.inMemory, hs]
    have hstamp : ((repository disk).stamp id time).perform d = (.error e, d) :=
      Action.perform_bind_of_error (by simp [inMemory, hmemory]) _
    rw [Repository.answer, Action.perform_bind_of_error hstamp] at hd
    cases hd
    exact .unchanged (fun _ => ⟨e, rfl⟩) (Action.perform_bind_of_error hmemory _)
  · have hmemory : (Repository.inMemory.stamp id time).perform d.memory = (.ok (), s) := by
      simp [Repository.inMemory, hs]
    have hstamp : (inMemory (Repository.inMemory.stamp id time)).perform d =
        (.ok (), { d with memory := s }) := by
      simp [inMemory, hmemory]
    rw [Repository.answer, repository, bind_assoc, Action.perform_bind_of_ok hstamp] at hd
    exact serves_flush h rfl (Action.perform_bind_of_ok hmemory _) hd

/-- **Every operation goes one of three ways.** -/
theorem serves (h : disk.Lawful) (hd : ((repository disk).answer op).perform d = (r, d')) :
    Serves disk op d r d' := by
  by_cases hop : op.writes = true
  · cases op with
    | put rules => exact serves_flush h hop rfl hd
    | stamp id time => exact serves_stamp h hd
    | _ => cases hop
  · have halike := alike_answer disk (Bool.not_eq_true _ ▸ hop) d.memory d.world
    obtain ⟨hresult, hdocument, hmemory⟩ := halike d d.memory ⟨rfl, rfl⟩
    rw [hd] at hresult hdocument
    subst hdocument
    exact .unchanged (fun h => absurd h hop) (Prod.ext hresult.symm hmemory)

/-- What is not found changes nothing. -/
theorem eq_of_notFound (h : disk.Lawful) {what : String}
    (hd : ((repository disk).answer op).perform d = (.error (.notFound what), d')) : d' = d := by
  cases serves h hd with
  | unchanged hop hmemory => rfl
  | unwritten hop hmemory hflush hfailed hload => exact absurd rfl (hfailed.ne_notFound what)

end Document

end Store

end Firewall
