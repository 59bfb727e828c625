/-
# Writes that fail

A store in a document changes its memory before it writes.  An operation that finds nothing to
change fails before that, and leaves everything as it was.  But when the write itself fails, in
either of its two steps, the change is reported as failed and stays in memory: reads answer with it,
a store that is opened again does not, and the next write that succeeds puts it into the document
after all.

* `Store.Document.answer_of_error` : what a failed operation leaves behind;
* `Store.Document.answer_of_error_refused` : a file that is written and not moved, a case of it;
* `Store.Document.drifts_of_refused` : the store is not as it was before.
-/
import Firewall.Proofs.Store.Persistence

namespace Firewall

namespace Store

namespace Document

variable {σ : Type} {disk : Disk σ}

/-- A write that succeeds puts all that is in memory then into the document. -/
theorem load_of_done (hdisk : disk.Lawful) {op : Operation} (hop : op.writes = true)
    {d d' : Document σ} {a : Answer} (h : ((repository disk).answer op).perform d = (.ok a, d')) :
    (Repository.inMemory.answer op).perform d.memory = (.ok a, d'.memory) ∧
      disk.load d'.world = .ok (some (encode d'.memory)) := by
  cases serves hdisk h with
  | written _ hmemory hload => exact ⟨hmemory, hload⟩
  | unchanged herror hmemory =>
    obtain ⟨e, he⟩ := herror hop
    cases he

/-- **A failed operation leaves the document alone.**  If there was nothing to change, it leaves the
memory alone as well; if the write failed, the memory holds the change, and the next write that
succeeds puts it into the document with its own. -/
theorem answer_of_error (hdisk : disk.Lawful) {op : Operation} (hop : op.writes = true)
    {d d' : Document σ} {e : Error}
    (h : ((repository disk).answer op).perform d = (.error e, d')) :
    contents disk d'.world = contents disk d.world ∧
      ((∃ what, e = .notFound what) ∧ d' = d ∨
        e.IsWriteFailure ∧
          (Repository.inMemory.answer op).perform d.memory = (.ok .done, d'.memory)) ∧
      ∀ op' a d'', op'.writes = true →
        ((repository disk).answer op').perform d' = (.ok a, d'') →
          (Repository.inMemory.answer op').perform d'.memory = (.ok a, d''.memory) ∧
            disk.load d''.world = .ok (some (encode d''.memory)) := by
  have hlater : ∀ op' a d'', op'.writes = true →
      ((repository disk).answer op').perform d' = (.ok a, d'') →
        (Repository.inMemory.answer op').perform d'.memory = (.ok a, d''.memory) ∧
          disk.load d''.world = .ok (some (encode d''.memory)) :=
    fun op' a d'' hop' h' => load_of_done hdisk hop' h'
  cases serves hdisk h with
  | unchanged _ hmemory =>
    rcases Repository.error_of_answer hmemory with ⟨hreads, -⟩ | ⟨id, rfl⟩
    · rw [hop] at hreads
      cases hreads
    · exact ⟨rfl, Or.inl ⟨⟨_, rfl⟩, rfl⟩, hlater⟩
  | unwritten _ hmemory _ hfailed hload =>
    exact ⟨contents_congr hload, Or.inr ⟨hfailed, hmemory⟩, hlater⟩

end Document

namespace Sample

/-- A new store in an empty folder, in which the next file can be written but not moved. -/
def refusing : Document (Folder × List Bool) := ⟨.empty, ⟨none, []⟩, [true, false]⟩

/-- Contents with nothing but a rule. -/
def oneRule : Snapshot := { Snapshot.empty with rules := [rule] }

/-- The store after it could not write the rule: the file that was written is still there. -/
def refused : Document (Folder × List Bool) :=
  ⟨oneRule, ⟨none, [(".0.tmp", Document.encode oneRule)]⟩, []⟩

end Sample

namespace Document

/-- A rule that could not be written is in memory only, until a write of no rule at all puts it into
the document. -/
theorem answer_of_error_refused :
    ((repository Disk.reliable.scripted).answer (.put [Sample.rule])).perform Sample.refusing =
        (.error (.storage "failed to replace refused"), Sample.refused) ∧
      contents Disk.reliable.scripted Sample.refused.world = .ok .empty ∧
      ∃ d'', ((repository Disk.reliable.scripted).answer (.put [])).perform Sample.refused =
          (.ok .done, d'') ∧
        Disk.reliable.scripted.load d''.world = .ok (some (encode Sample.oneRule)) := by
  have hput : ((repository Disk.reliable.scripted).answer (.put [Sample.rule])).perform
      Sample.refusing = (.error (.storage "failed to replace refused"), Sample.refused) := rfl
  obtain ⟨hcontents, -, hlater⟩ := answer_of_error Disk.lawful_reliable.scripted rfl hput
  exact ⟨hput, hcontents, _, rfl, (hlater (.put []) .done _ rfl rfl).2⟩

/-- **A failed operation does not leave the store as it was.**  The rule is answered by the store,
and is gone once the store is opened again. -/
theorem drifts_of_refused :
    openAt Disk.reliable.scripted Sample.refusing.world = .ok Sample.refusing ∧
      ((repository Disk.reliable.scripted).answer (.rules "b1")).perform Sample.refusing =
        (.ok (.rules []), Sample.refusing) ∧
      ((repository Disk.reliable.scripted).answer (.put [Sample.rule])).perform Sample.refusing =
        (.error (.storage "failed to replace refused"), Sample.refused) ∧
      ((repository Disk.reliable.scripted).answer (.rules "b1")).perform Sample.refused =
        (.ok (.rules [Sample.rule]), Sample.refused) ∧
      openAt Disk.reliable.scripted Sample.refused.world =
        .ok ⟨.empty, Sample.refused.world⟩ :=
  ⟨rfl, rfl, rfl, rfl, rfl⟩

end Document

end Store

end Firewall
