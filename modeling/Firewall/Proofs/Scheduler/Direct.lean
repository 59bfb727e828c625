/-
# Evaluating by oneself

An invoker that evaluates by itself lists the ids that it was asked for in every answer, and answers
with a success exactly if the evaluation succeeds.  It writes rules and texts, and neither bundles
nor stamps.

* `Ledger.marks` : the bundles of a ledger and its stamps;
* `Deployment.keeps_direct` : evaluating leaves them alone;
* `Scheduler.faithful_direct`, `accepts_direct_iff` : the answers.
-/
import Firewall.Proofs.Evaluation.Group
import Firewall.Proofs.Scheduler.Fates

namespace Firewall

open Evaluation Scheduler

/-! ## What evaluating leaves alone -/

/-- The bundles of a ledger, and its stamps. -/
def Ledger.marks (l : Ledger) : List Bundle × List (String × Timestamp) :=
  (l.store.bundles, l.stamps)

theorem Ledger.marks_put (l : Ledger) (rules : List Rule) : (l.put rules).marks = l.marks := by
  have hstamps : (l.put rules).stamps = l.stamps := by
    unfold stamps put
    rw [List.filterMap_append]
    exact List.append_nil _
  rw [marks, hstamps, put, Store.Snapshot.bundles_putRules]
  rfl

theorem Ledger.marks_publish (l : Ledger) (u : Update) : (l.publish u).marks = l.marks := by
  have hstamps : (l.publish u).stamps = l.stamps := by
    unfold stamps publish
    rw [List.filterMap_append]
    exact List.append_nil _
  rw [marks, hstamps]
  rfl

namespace Deployment

variable {ω : Type} (d : Deployment ω)

theorem keeps_apply (g : GroupEvaluation) :
    Action.Keeps (fun w : World ω => w.ledger.marks) (d.evaluator.apply g) := by
  have hput : Action.Keeps Ledger.marks (Ledger.repository.putRules g.updatedRules) := by
    intro l
    rw [Ledger.perform_putRules, Ledger.marks_put]
  have hpublish : Action.Keeps Ledger.marks (Ledger.publisher g.update) := by
    intro l
    rw [Ledger.perform_publisher, Ledger.marks_publish]
  exact Action.keeps_bind (d.keeps_call hput) fun _ => d.keeps_call hpublish

theorem keeps_evaluateGroup (group : String × List Bundle) :
    Action.Keeps (fun w : World ω => w.ledger.marks) (d.evaluator.evaluateGroup group) := by
  refine Action.keeps_bind ((d.keeps_compileGroup group.1 group.2).comp Ledger.marks) fun g => ?_
  exact Action.keeps_bind (d.keeps_apply g) fun _ => Action.keeps_pure g

/-- **Evaluating bundles** leaves the bundles alone, and stamps nothing. -/
theorem keeps_evaluateBundles (ids : List String) :
    Action.Keeps (fun w : World ω => w.ledger.marks) (d.evaluator.evaluateBundles ids) := by
  have hload : ∀ id, Action.Keeps (fun w : World ω => w.ledger.marks) (d.evaluator.load id) :=
    fun id => (d.keeps_load id).comp Ledger.marks
  exact Action.keeps_bind (Action.keeps_mapM hload ids) fun _ =>
    Action.keeps_mapM d.keeps_evaluateGroup _

theorem keeps_direct (r : Request) :
    Action.Keeps (fun w : World ω => w.ledger.marks) (Invoker.direct d.evaluator r) :=
  fun w => d.keeps_evaluateBundles r.bundleIds w

end Deployment

/-! ## Answers -/

namespace Evaluation.Evaluator

variable {α : Type}

/-- The response to a request lists what was asked for. -/
theorem body?_responseOf (ids : List String) (result : Except Error α) :
    ∃ message, (responseOf ids result).body? = some ⟨message, ids⟩ := by
  cases result with
  | error e => exact ⟨_, Response.body?_of _ _ _⟩
  | ok x => exact ⟨_, Response.body?_of _ _ _⟩

/-- The response to a request tells whether the evaluation succeeded. -/
theorem isSuccess_responseOf (ids : List String) (result : Except Error α) :
    (responseOf ids result).isSuccess = result.isOk := by
  cases result with
  | error e => rfl
  | ok x => rfl

end Evaluation.Evaluator

namespace Scheduler

variable {σ : Type} (e : Evaluator σ) (r : Request) (s : σ)

/-- Every answer lists what was asked for. -/
theorem faithful_direct : (outcomeAt (Invoker.direct e) r s).Faithful := by
  obtain ⟨message, hbody⟩ :=
    Evaluator.body?_responseOf r.bundleIds ((e.evaluateBundles r.bundleIds).perform s).1
  intro ids hlists id
  have hids : ids = r.bundleIds := by
    obtain ⟨response, body, hanswer, hbody', rfl⟩ := Outcome.exists_body hlists
    cases hanswer
    rw [← Option.some.inj (hbody.symm.trans hbody')]
  rw [hids]
  exact Iff.rfl

/-- **An answer is a success exactly if the evaluation succeeds.** -/
theorem accepts_direct_iff :
    (∃ ids, (outcomeAt (Invoker.direct e) r s).Accepts ids) ↔
      ((e.evaluateBundles r.bundleIds).perform s).1.isOk = true := by
  rw [← Evaluator.isSuccess_responseOf r.bundleIds]
  constructor
  · rintro ⟨ids, response, body, hanswer, hsuccess, -, -⟩
    cases hanswer
    exact hsuccess
  · intro hsuccess
    obtain ⟨message, hbody⟩ :=
      Evaluator.body?_responseOf r.bundleIds ((e.evaluateBundles r.bundleIds).perform s).1
    exact ⟨_, _, _, rfl, hsuccess, hbody, rfl⟩

end Scheduler

end Firewall
