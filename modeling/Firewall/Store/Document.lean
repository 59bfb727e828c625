/-
# Stores kept in a document

Such a store holds its contents in memory and writes the whole of them to one document after every
change.  The new text is first put in a file beside the document, and this file is then moved to its
place.  The memory is changed before either step, and a step that fails is reported.

* `Store.Disk` : where documents are kept;
* `Store.Document.openAt` : the contents that a document holds;
* `Store.Document.repository` : the store as a repository.
-/
import Firewall.Store.Repository

namespace Firewall

namespace Store

/-- A place for one document and the files beside it, over a world of type `σ`.  Each operation may
fail for a reason. -/
structure Disk (σ : Type) where
  /-- The text of the document, if there is one. -/
  load : σ → Except String (Option String)
  /-- A new file beside the document, with a text; its name. -/
  stage : String → σ → Except String String × σ
  /-- The file of a name moved to the place of the document. -/
  install : String → σ → Except String Unit × σ

/-- A step on a disk as an action; what was tried is told in front of the reason of a failure. -/
def Disk.attempt {σ α : Type} (tried : String) (f : σ → Except String α × σ) : Action σ α :=
  Action.ofFun fun world =>
    let (r, world) := f world
    (r.mapError fun reason => .storage (tried ++ reason), world)

/-- Another text for the document. -/
def Disk.replace {σ : Type} (disk : Disk σ) (text : String) : Action σ Unit := do
  let name ← Disk.attempt "failed to write " (disk.stage text)
  Disk.attempt "failed to replace " (disk.install name)

/-- A document that may be missing, and the files beside it with their names. -/
structure Folder where
  document : Option String
  beside : List (String × String)

/-- A folder in which files can always be written. -/
def Disk.reliable : Disk Folder where
  load f := .ok f.document
  stage text f :=
    let name := "." ++ Nat.repr f.beside.length ++ ".tmp"
    (.ok name, ⟨f.document, (name, text) :: f.beside⟩)
  install name f :=
    match f.beside.lookup name with
    | some text => (.ok (), ⟨some text, f.beside.filter fun file => file.1 ≠ name⟩)
    | none => (.error name, f)

/-- A store in memory together with the world that its document is in. -/
structure Document (σ : Type) where
  memory : Snapshot
  world : σ

namespace Document

variable {σ : Type}

/-- The contents that a text holds. -/
def decode? (text : String) : Option Snapshot := Json.Reading.ofText? Snapshot.reading text

/-- The text for contents. -/
def encode (s : Snapshot) : String := s.toJson.indented

/-- The contents of a store that is opened: those of its document, or none without a document. -/
def contents (disk : Disk σ) (world : σ) : Except Error Snapshot :=
  match disk.load world with
  | .error reason => .error (.storage ("failed to read " ++ reason))
  | .ok none => .ok Snapshot.empty
  | .ok (some text) =>
    match decode? text with
    | some s => .ok s
    | none => .error (.deserialization Error.unreadable)

/-- A store that is opened. -/
def openAt (disk : Disk σ) (world : σ) : Except Error (Document σ) :=
  (contents disk world).map fun memory => ⟨memory, world⟩

/-- Writing the contents in memory to the document. -/
def flush (disk : Disk σ) : Action (Document σ) Unit :=
  Action.ofFun fun d =>
    let replace := disk.replace (encode d.memory)
    (replace.within Document.world fun world d => { d with world }).perform d

/-- An action on the contents in memory. -/
def inMemory {α : Type} (a : Action Snapshot α) : Action (Document σ) α :=
  a.within Document.memory fun memory d => { d with memory }

/-- A store kept in a document as a repository. -/
def repository (disk : Disk σ) : Repository (Document σ) where
  pageBound d := Repository.inMemory.pageBound d.memory
  scan token limit := inMemory (Repository.inMemory.scan token limit)
  bundle? id := inMemory (Repository.inMemory.bundle? id)
  rulesOf bundleId := inMemory (Repository.inMemory.rulesOf bundleId)
  objectsWith ids := inMemory (Repository.inMemory.objectsWith ids)
  putRules rules := do
    inMemory (Repository.inMemory.putRules rules)
    flush disk
  stamp id time := do
    inMemory (Repository.inMemory.stamp id time)
    flush disk

end Document

end Store

end Firewall
