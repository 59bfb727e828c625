/-
# What several stores make of one document

However the calls of several stores on one document interleave, the document holds what it would
hold if each call had happened at once when it returned.  So it holds the copy of the store whose
call returned last: what this store read when it was opened, and its own writes since.  What others
wrote in between is lost, though it was acknowledged.  A store that has the document to itself loses
nothing.

* `Store.Handles.Tracks` : handles, and the copies that they have between their calls;
* `Store.Handles.Tracks.silent`, `Tracks.event`, `Tracks.run` : handles do what their copies do,
  step by step;
* `Store.Handles.contents_of_run` : what a document holds in the end;
* `Store.Handles.lost_of_run` : an acknowledged write that is lost.
-/
import Firewall.Proofs.Store.Copies
import Firewall.Proofs.Store.Handles

namespace Firewall

namespace Store

variable {ι σ : Type} [DecidableEq ι]

/-! ## Handles do what their copies do -/

/-- A handle whose copy between its calls is `s`, where `file?` tells the texts of files. -/
inductive Handle.Has (file? : String → Option String) (s : Snapshot) : Handle → Prop
  | idle : Has file? s (.idle s)
  | changed {op : Operation} {s' : Snapshot} (h : s.Written op s') : Has file? s (.changed op s')
  | staged {op : Operation} {s' : Snapshot} {name : String} (h : s.Written op s')
      (hfile : file? name = some (Document.encode s')) : Has file? s (.staged op s' name)

/-- Only the file that the handle is about to move matters. -/
theorem Handle.Has.congr {file? file?' : String → Option String} {s : Snapshot} {x : Handle}
    (h : x.Has file? s) (hfile : ∀ name, x.file? = some name → file?' name = file? name) :
    x.Has file?' s := by
  cases h with
  | idle => exact .idle
  | changed h => exact .changed h
  | staged h hname => exact .staged h ((hfile _ rfl).trans hname)

/-- A new file is not the one that the handle is about to move, as that one is there. -/
theorem Handle.Has.file?_ne {file? : String → Option String} {s : Snapshot} {x : Handle}
    (h : x.Has file? s) {name : String} (hnew : file? name = none) : x.file? ≠ some name := by
  intro hname
  cases h with
  | idle => cases hname
  | changed h => cases hname
  | staged h hfile =>
    cases hname
    rw [hnew] at hfile
    cases hfile

/-- No two handles are about to move the same file. -/
def Handles.Apart (handle : ι → Handle) : Prop :=
  ∀ i j name, (handle i).file? = some name → (handle j).file? = some name → i = j

theorem Handles.Apart.update {handle : ι → Handle} (h : Apart handle) {i : ι} {x : Handle}
    (hx : ∀ name, x.file? = some name → ∀ j ≠ i, (handle j).file? ≠ some name) :
    Apart (Function.update handle i x) := by
  intro j k name hj hk
  by_cases hji : j = i <;> by_cases hki : k = i
  · rw [hji, hki]
  · subst hji
    rw [Function.update_self] at hj
    rw [Function.update_of_ne hki] at hk
    exact absurd hk (hx name hj k hki)
  · subst hki
    rw [Function.update_self] at hk
    rw [Function.update_of_ne hji] at hj
    exact absurd hj (hx name hk j hji)
  · rw [Function.update_of_ne hji] at hj
    rw [Function.update_of_ne hki] at hk
    exact h j k name hj hk

namespace Handles

/-- The document holds what it holds for the copies, and each handle is in a call on its copy, or
between two. -/
structure Tracks (disk : Disk σ) (file? : σ → String → Option String) (h : Handles ι σ)
    (c : Copies ι) : Prop where
  contents : Document.contents disk h.world = .ok c.document
  document : c.document.Storable
  copies : ∀ i, (c.copy i).Storable
  has : ∀ i, (h.handle i).Has (file? h.world) (c.copy i)
  apart : Apart h.handle

variable {disk : Disk σ} {file? : σ → String → Option String}

omit [DecidableEq ι] in
theorem tracks_opened {s : Snapshot} {world : σ} (hs : s.Storable)
    (hcontents : Document.contents disk world = .ok s) :
    Tracks disk file? (opened s world : Handles ι σ) ⟨s, fun _ => s⟩ where
  contents := hcontents
  document := hs
  copies _ := hs
  has _ := .idle
  apart i j name hi _ := by cases hi

section Steps

variable {h h' : Handles ι σ} {c : Copies ι}

/-- **As long as no event is over**, the copies stay as they are. -/
theorem Tracks.silent (hdisk : disk.Separates file?) (ht : h.Tracks disk file? c)
    (hstep : Step disk h none h') : h'.Tracks disk file? c := by
  cases hstep with
  | @change i op s s' hidle hmemory =>
    have hi := ht.has i
    rw [hidle] at hi
    cases hi with
    | idle =>
      refine ⟨ht.contents, ht.document, ht.copies, ?_, ht.apart.update fun name hname => ?_⟩
      · exact (Function.forall_update_iff _ fun j (x : Handle) => x.Has _ (c.copy j)).2
          ⟨.changed (Snapshot.written_iff.2 hmemory), fun j _ => ht.has j⟩
      · cases hname
  | @stage i op s name world hchanged hstage =>
    have hi := ht.has i
    rw [hchanged] at hi
    cases hi with
    | changed hwritten =>
      -- the new file is none that another handle is about to move
      have hne := fun j => (ht.has j).file?_ne (hdisk.file?_name hstage)
      have hfile := hdisk.file?_stage hstage
      refine ⟨?_, ht.document, ht.copies, ?_, ht.apart.update fun name' hname' j _ => ?_⟩
      · rw [← ht.contents]
        exact Document.contents_congr (hdisk.load_stage hstage)
      · refine (Function.forall_update_iff _ fun j (x : Handle) => x.Has _ (c.copy j)).2
          ⟨.staged hwritten ?_, fun j _ => (ht.has j).congr fun name' hname' => ?_⟩
        · rw [hfile, Function.update_self]
        · rw [hfile, Function.update_of_ne]
          rintro rfl
          exact hne j hname'
      · cases hname'
        exact hne j

/-- A handle whose event is over has what is in the document. -/
theorem Tracks.set {i : ι} {s : Snapshot} {world : σ} (ht : h.Tracks disk file? c)
    (hcontents : Document.contents disk world = .ok s) (hs : s.Storable)
    (hothers : ∀ j ≠ i, (h.handle j).Has (file? world) (c.copy j)) :
    (⟨Function.update h.handle i (.idle s), world⟩ : Handles ι σ).Tracks disk file?
      (c.set i s) where
  contents := hcontents
  document := hs
  copies := (Function.forall_update_iff _ fun _ (s : Snapshot) => s.Storable).2
    ⟨hs, fun j _ => ht.copies j⟩
  has := by
    intro j
    by_cases hj : j = i
    · subst hj
      simpa using Handle.Has.idle
    · simpa [c.copy_set_of_ne hj, hj] using hothers j hj
  apart := ht.apart.update fun name hname => by cases hname

/-- **When an event is over**, it happens to the copies. -/
theorem Tracks.event (hdisk : disk.Separates file?) (ht : h.Tracks disk file? c) {e : ι × Event}
    (he : e.2.IsPlain) (hstep : Step disk h (some e) h') :
    ∃ c', c.After e c' ∧ h'.Tracks disk file? c' := by
  cases hstep with
  | @install i op s name world hstaged hinstall =>
    have hi := ht.has i
    rw [hstaged] at hi
    cases hi with
    | staged hwritten hfile =>
      have hs : s.Storable :=
        (ht.copies i).answer he hwritten.writes (Snapshot.written_iff.1 hwritten)
      refine ⟨c.set i s, .call hwritten, ht.set ?_ hs fun j hj => (ht.has j).congr ?_⟩
      · exact Document.contents_of_load hs (hdisk.load_install hfile hinstall)
      · -- the file that was moved is not the one that another handle is about to move
        intro name' hname'
        refine hdisk.file?_install hinstall name' ?_
        rintro rfl
        exact hj (ht.apart j i name' hname' (by rw [hstaged]; rfl))
  | @reopen i d hopen =>
    obtain ⟨-, hcontents⟩ := Document.openAt_eq_ok_iff.1 hopen
    have hsame : d.memory = c.document := Except.ok.inj (hcontents.symm.trans ht.contents)
    rw [hsame]
    exact ⟨_, .reopen i, ht.set ht.contents ht.document fun j _ => ht.has j⟩

/-- **Handles do what their copies do**, in whatever way their calls interleave. -/
theorem Tracks.run (hdisk : disk.Separates file?) (ht : h.Tracks disk file? c)
    {history : List (ι × Event)} (hhistory : ∀ e ∈ history, e.2.IsPlain)
    (hrun : Run disk h history h') : ∃ c', c.Path history c' ∧ h'.Tracks disk file? c' := by
  induction hrun generalizing c with
  | nil h => exact ⟨c, .nil c, ht⟩
  | silent hstep hrest ih => exact ih (ht.silent hdisk hstep) hhistory
  | event hstep hrest ih =>
    obtain ⟨he, hrestplain⟩ := List.forall_mem_cons.1 hhistory
    obtain ⟨c₁, hafter, ht₁⟩ := ht.event hdisk he hstep
    obtain ⟨c', hpath, ht'⟩ := ih ht₁ hrestplain
    exact ⟨c', .cons hafter hpath, ht'⟩

/-- **What the handle leaves whose call returns last.**  From a time on at which it has what is in
the document, and if it is not opened again before that call, it leaves its own writes. -/
theorem Tracks.leaves (hdisk : disk.Separates file?) (ht : h.Tracks disk file? c) {i : ι}
    (hcopy : c.copy i = c.document) {op : Operation} {middle after : List (ι × Event)}
    (hplain : ∀ e ∈ middle ++ [(i, .call op)] ++ after, e.2.IsPlain)
    (hafter : ∀ e ∈ after, e.2 = .reopen) (hmiddle : (i, .reopen) ∉ middle)
    (hrun : Run disk h (middle ++ [(i, .call op)] ++ after) h') :
    ∃ s', Document.contents disk h'.world = .ok s' ∧
      c.document.Leaves (Copies.own i (middle ++ [(i, .call op)])) s' := by
  obtain ⟨c', hpath, ht'⟩ := ht.run hdisk hplain hrun
  obtain ⟨c₁, hpath₁, hreopens⟩ := hpath.exists_of_append
  have hopen : (i, .reopen) ∉ middle ++ [(i, .call op)] := by
    simp [hmiddle]
  have hown := hpath₁.own hopen
  rw [hcopy, hpath₁.copy_eq_document, ← hreopens.document_eq hafter] at hown
  exact ⟨c'.document, ht'.contents, hown.leaves⟩

end Steps

/-! ## What a document holds in the end -/

/-- **Several handles on one document.**  Whatever calls succeed, and however they interleave, the
document can be opened in the end.  If no call returned it is as it was, and a handle alone loses
nothing.  Otherwise it is what the handle whose call returned last makes of it: what was in the
document when this handle was opened, and its own writes since, of which none is lost.  All other
records are as they were when it was opened, so no write that another handle made to them since is
there. -/
theorem contents_of_run (hdisk : disk.Separates file?) {s : Snapshot} {world : σ}
    (hopen : Document.openAt disk world = .ok ⟨s, world⟩) (hplain : s.IsPlain)
    {history : List (ι × Event)} {h : Handles ι σ} (hrun : Run disk (opened s world) history h)
    (hhistory : ∀ e ∈ history, e.2.IsPlain) :
    ∃ s', Document.contents disk h.world = .ok s' ∧
      ((∀ e ∈ history, e.2 = .reopen) → s' = s) ∧
      (∀ i, (∀ e ∈ history, e.1 = i) → NoneLost (history.map Prod.snd) s') ∧
      ∀ i op earlier middle after, history = earlier ++ (middle ++ [(i, .call op)] ++ after) →
        (∀ e ∈ after, e.2 = .reopen) →
        (earlier = [] ∨ ∃ before, earlier = before ++ [(i, .reopen)]) →
        (i, .reopen) ∉ middle →
        ∃ h₀ s₀, Run disk (opened s world) earlier h₀ ∧
          Document.contents disk h₀.world = .ok s₀ ∧
          s₀.Leaves (Copies.own i (middle ++ [(i, .call op)])) s' := by
  obtain ⟨-, hcontents⟩ := Document.openAt_eq_ok_iff.1 hopen
  have hstorable : s.Storable := ⟨hplain, Document.shallow_of_contents hcontents⟩
  have hopened : (opened s world : Handles ι σ).Tracks disk file? ⟨s, fun _ => s⟩ :=
    tracks_opened hstorable hcontents
  obtain ⟨c, hpath, ht⟩ := hopened.run hdisk hhistory hrun
  refine ⟨c.document, ht.contents, hpath.document_eq, ?_, ?_⟩
  · intro i hown
    exact (hpath.alone hown rfl).noneLost
  · rintro i op earlier middle after rfl hafter hearlier hmiddle
    obtain ⟨h₀, hrun₀, hrun'⟩ := hrun.exists_of_append
    obtain ⟨c₀, hpath₀, ht₀⟩ := hopened.run hdisk
      (fun e he => hhistory e (List.mem_append_left _ he)) hrun₀
    have hcopy : c₀.copy i = c₀.document := by
      rcases hearlier with rfl | ⟨before, rfl⟩
      · cases hpath₀
        rfl
      · exact hpath₀.copy_eq_document
    obtain ⟨s', hs', hleaves⟩ := ht₀.leaves hdisk hcopy
      (fun e he => hhistory e (List.mem_append_right _ he)) hafter hmiddle hrun'
    obtain rfl : c.document = s' := Except.ok.inj (ht.contents.symm.trans hs')
    exact ⟨h₀, c₀.document, hrun₀, ht₀.contents, hleaves⟩

end Handles

/-! ## A disk for handles -/

namespace Folder

/-- The text in the file of a name beside the document. -/
def file? (f : Folder) (name : String) : Option String := f.beside.lookup name

/-- A name that is longer than those of all files beside the document. -/
def newName (f : Folder) : String :=
  String.ofList ('.' :: f.beside.flatMap fun file => file.1.toList)

theorem file?_newName (f : Folder) : f.file? f.newName = none := by
  refine List.lookup_eq_none_iff.2 fun file hfile => ?_
  have hmem : file.1.toList ∈ f.beside.map fun file => file.1.toList := List.mem_map_of_mem hfile
  have hlength : file.1.toList.length ≤ (f.beside.flatMap fun file => file.1.toList).length := by
    rw [List.flatMap_def]
    exact (List.sublist_flatten_of_mem hmem).length_le
  have hne : f.newName ≠ file.1 := by
    intro heq
    have hlist : file.1.toList = '.' :: f.beside.flatMap fun file => file.1.toList := by
      rw [← heq, newName, String.toList_ofList]
    rw [hlist, List.length_cons] at hlength
    omega
  simpa using hne

theorem lookup_filter_ne {name other : String} (h : other ≠ name)
    (files : List (String × String)) :
    (files.filter fun file => file.1 ≠ name).lookup other = files.lookup other := by
  induction files with
  | nil => rfl
  | cons file files ih =>
    rw [List.lookup_cons]
    by_cases hfile : file.1 = name
    · have hne : (other == file.1) = false := by simpa [hfile] using h
      rw [List.filter_cons_of_neg (by simpa using hfile), ih, hne]
    · rw [List.filter_cons_of_pos (by simpa using hfile), List.lookup_cons, ih]

end Folder

/-- A folder in which files can always be written, under names that no other file has. -/
def Disk.distinct : Disk Folder where
  load := Disk.reliable.load
  stage text f := (.ok f.newName, ⟨f.document, (f.newName, text) :: f.beside⟩)
  install := Disk.reliable.install

/-- A file that is there can be moved, and is no longer beside the document then. -/
theorem Disk.install_distinct_eq_ok_iff {name : String} {f f' : Folder} :
    Disk.distinct.install name f = (.ok (), f') ↔ ∃ text, f.file? name = some text ∧
      f' = ⟨some text, f.beside.filter fun file => file.1 ≠ name⟩ := by
  simp only [distinct, reliable, Folder.file?]
  rcases f.beside.lookup name with _ | text
  · simp
  · simp [eq_comm]

theorem Disk.separates_distinct : Disk.distinct.Separates Folder.file? where
  load_stage := by
    rintro text name f f' h
    cases h
    rfl
  file?_name := by
    rintro text name f f' h
    cases h
    exact f.file?_newName
  file?_stage := by
    rintro text name f f' h
    cases h
    funext other
    by_cases hother : other = f.newName
    · subst hother
      rw [Function.update_self]
      exact List.lookup_cons_self
    · have hne : (other == f.newName) = false := by simpa using hother
      rw [Function.update_of_ne hother, Folder.file?, List.lookup_cons, hne]
      rfl
  load_install := by
    rintro text name f f' hfile h
    obtain ⟨text', hfile', rfl⟩ := install_distinct_eq_ok_iff.1 h
    rw [hfile, Option.some_inj] at hfile'
    rw [hfile']
    rfl
  file?_install := by
    rintro name f f' h other hne
    obtain ⟨text, -, rfl⟩ := install_distinct_eq_ok_iff.1 h
    exact Folder.lookup_filter_ne hne f.beside

namespace Sample

/-- The processes that hold a store of one document. -/
inductive Process
  | evaluator
  | scheduler
  deriving DecidableEq

/-- The rule after an evaluation. -/
def evaluated : Rule :=
  { rule with status := .active, failureReasons := [], version := 4, suricata := some "pass" }

/-- An evaluation stores its rule, and the scheduler stamps the bundle. -/
def calls : List (Process × Event) :=
  [(.evaluator, .call (.put [evaluated])), (.scheduler, .call (.stamp "b1" moment))]

/-- What is left of them: the stamp. -/
def stamped : Snapshot :=
  { contents with bundles := [⟨"b1", some "edge", "g1", "", ["ops"], some moment⟩] }

end Sample

namespace Handles

theorem storable_contents : Sample.contents.Storable :=
  (Document.inSync_of_openAt Document.openAt_folder Document.plain_contents).storable

theorem openAt_distinct :
    Document.openAt Disk.distinct Sample.folder = .ok ⟨Sample.contents, Sample.folder⟩ :=
  Document.openAt_eq_ok_iff.2 ⟨rfl, Document.contents_of_load storable_contents rfl⟩

theorem plain_calls : ∀ e ∈ Sample.calls, e.2.IsPlain := by
  have hmoment : Sample.moment.HasPlainYear := by decide
  simp [Sample.calls, Event.IsPlain, Operation.IsPlain, hmoment]

/-- Two calls may overlap: both change their copies before either writes a file, and both write
their files before either moves its own. -/
theorem run_overlapping {s s₁ s₂ : Snapshot} {op₁ op₂ : Operation} (h₁ : s.Written op₁ s₁)
    (h₂ : s.Written op₂ s₂) (f : Folder) :
    ∃ h, Run Disk.distinct (opened s f)
      [(Sample.Process.evaluator, .call op₁), (.scheduler, .call op₂)] h := by
  have hlaw := Disk.separates_distinct
  obtain ⟨name₁, f₁, hstage₁⟩ : ∃ name f', Disk.distinct.stage (Document.encode s₁) f =
    (.ok name, f') := ⟨_, _, rfl⟩
  obtain ⟨name₂, f₂, hstage₂⟩ : ∃ name f', Disk.distinct.stage (Document.encode s₂) f₁ =
    (.ok name, f') := ⟨_, _, rfl⟩
  have hfile₁ : f₁.file? name₁ = some (Document.encode s₁) := by
    rw [hlaw.file?_stage hstage₁, Function.update_self]
  have hne : name₁ ≠ name₂ := by
    rintro rfl
    rw [hlaw.file?_name hstage₂] at hfile₁
    cases hfile₁
  have hfile₁₂ : f₂.file? name₁ = some (Document.encode s₁) := by
    rw [hlaw.file?_stage hstage₂, Function.update_of_ne hne, hfile₁]
  have hinstall₁ := Disk.install_distinct_eq_ok_iff.2 ⟨_, hfile₁₂, rfl⟩
  have hfile₂ := hlaw.file?_install hinstall₁ name₂ hne.symm
  rw [hlaw.file?_stage hstage₂, Function.update_self] at hfile₂
  have hinstall₂ := Disk.install_distinct_eq_ok_iff.2 ⟨_, hfile₂, rfl⟩
  exact ⟨_, .silent (.change (i := .evaluator) rfl (Snapshot.written_iff.1 h₁)) <|
    .silent (.change (i := .scheduler) rfl (Snapshot.written_iff.1 h₂)) <|
    .silent (.stage (i := .evaluator) rfl hstage₁) <|
    .silent (.stage (i := .scheduler) rfl hstage₂) <|
    .event (.install rfl hinstall₁) <| .event (.install rfl hinstall₂) <| .nil _⟩

/-- The scheduler read the document before the evaluator wrote it, so its stamp is all that is
left. -/
theorem contents_of_run_stamped :
    ∃ h : Handles Sample.Process Folder,
      Run Disk.distinct (opened Sample.contents Sample.folder) Sample.calls h ∧
      ∃ s', Document.contents Disk.distinct h.world = .ok s' ∧
        (Operation.stamp "b1" Sample.moment).Shows (.bundle "b1") (s'.record? (.bundle "b1")) ∧
        s'.record? (.rule "r1") = some (.rule Sample.rule) := by
  have hput : Sample.contents.Written (.put [Sample.evaluated]) _ := .put _
  have hstamp : Sample.contents.Written (.stamp "b1" Sample.moment) Sample.stamped := .stamp rfl
  obtain ⟨h, hrun⟩ := run_overlapping hput hstamp Sample.folder
  obtain ⟨s', hs', -, -, hlast⟩ := contents_of_run Disk.separates_distinct openAt_distinct
    Document.plain_contents hrun plain_calls
  obtain ⟨h₀, s₀, hrun₀, hs₀, hleaves⟩ := hlast .scheduler (.stamp "b1" Sample.moment) []
    [(.evaluator, .call (.put [Sample.evaluated]))] [] rfl (by simp) (Or.inl rfl) (by simp)
  obtain ⟨s₁, hs₁, hsame, -⟩ := contents_of_run Disk.separates_distinct openAt_distinct
    Document.plain_contents hrun₀ (by simp)
  obtain rfl : s₀ = Sample.contents := by
    rw [hs₀, hsame (by simp)] at hs₁
    exact Except.ok.inj hs₁
  refine ⟨h, hrun, s', hs', ?_, ?_⟩
  · exact hleaves.noneLost [] (.stamp "b1" Sample.moment) [] (.bundle "b1") rfl
      List.mem_cons_self (by simp)
  · refine hleaves.others (.rule "r1") fun op hop => ?_
    obtain rfl : op = .stamp "b1" Sample.moment := by
      simpa [Copies.own] using hop
    simp [Operation.keys]

/-- **An acknowledged write is lost.**  Two processes open one document; the evaluator stores a
rule, the scheduler stamps its bundle, and both calls succeed.  The document is left with the rule
as it was at the start. -/
theorem lost_of_run :
    ∃ d₁ d₂ : Document Folder,
      Document.openAt Disk.distinct Sample.folder = .ok ⟨Sample.contents, Sample.folder⟩ ∧
      ((Document.repository Disk.distinct).answer (.put [Sample.evaluated])).perform
        ⟨Sample.contents, Sample.folder⟩ = (.ok .done, d₁) ∧
      ((Document.repository Disk.distinct).answer (.stamp "b1" Sample.moment)).perform
        ⟨Sample.contents, d₁.world⟩ = (.ok .done, d₂) ∧
      (∃ h : Handles Sample.Process Folder,
        Run Disk.distinct (opened Sample.contents Sample.folder) Sample.calls h ∧
        h.world = d₂.world) ∧
      Document.contents Disk.distinct d₂.world = .ok Sample.stamped ∧
      ¬ NoneLost (Sample.calls.map Prod.snd) Sample.stamped := by
  have hstamp : Sample.contents.Written (.stamp "b1" Sample.moment) Sample.stamped := .stamp rfl
  have hplain : (Operation.stamp "b1" Sample.moment).IsPlain :=
    plain_calls _ (List.mem_cons_of_mem _ List.mem_cons_self)
  have hstorable : Sample.stamped.Storable :=
    storable_contents.answer hplain rfl (Snapshot.written_iff.1 hstamp)
  refine ⟨_, _, openAt_distinct, rfl, rfl, run_of_answers (by decide) rfl rfl, ?_, ?_⟩
  · exact Document.contents_of_load hstorable rfl
  · intro hnone
    have hshown := hnone [] _ _ (.rule "r1") rfl (List.mem_singleton.2 rfl)
      (by simp [Operation.keys])
    cases hshown

end Handles

end Store

end Firewall
