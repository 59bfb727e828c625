/-
# What evaluations publish

An evaluation publishes the updates of the groups that it compiled, and nothing else.  It does so one
group after the other, so also an evaluation that fails half-way has published such updates only.
What holds of every group that compiles therefore holds of all that is published.

* `Evaluation.Publishes` : only updates of groups with some property were published;
* `Deployment.leads_apply`, `leads_evaluateGroup` : one group;
* `Deployment.publishes_evaluateBundles` : a batch.
-/
import Firewall.Proofs.Evaluation.Compiling
import Firewall.Proofs.Grouping

namespace Firewall

open Evaluation

variable {ω : Type}

/-! ## Between two worlds -/

/-- Between two worlds, only updates of groups with some property were published. -/
def Evaluation.Publishes (P : GroupEvaluation → Prop) (w w' : World ω) : Prop :=
  ∃ gs : List GroupEvaluation, w'.published = w.published ++ gs.map (·.update) ∧ ∀ g ∈ gs, P g

namespace Evaluation.Publishes

variable {P : GroupEvaluation → Prop}

theorem of_published {w w' : World ω} (h : w'.published = w.published) : Publishes P w w' :=
  ⟨[], h.trans (List.append_nil _).symm, fun g hg => by cases hg⟩

theorem of_ledger {w w' : World ω} (h : w'.ledger = w.ledger) : Publishes P w w' :=
  of_published (congrArg (fun l => l.journal.filterMap Effect.update?) h)

theorem refl (w : World ω) : Publishes P w w := of_published rfl

theorem trans (w₁ w₂ w₃ : World ω) (h : Publishes P w₁ w₂) (h' : Publishes P w₂ w₃) :
    Publishes P w₁ w₃ := by
  obtain ⟨gs, hgs, hall⟩ := h
  obtain ⟨gs', hgs', hall'⟩ := h'
  refine ⟨gs ++ gs', ?_, fun g hg => ?_⟩
  · rw [hgs', hgs, List.map_append, List.append_assoc]
  · rcases List.mem_append.1 hg with hg | hg
    · exact hall g hg
    · exact hall' g hg

end Evaluation.Publishes

/-! ## Evaluations -/

namespace Deployment

variable (d : Deployment ω) {P : GroupEvaluation → Prop}

/-- Storing and publishing a group publishes that group, or nothing. -/
theorem leads_apply {g : GroupEvaluation} (hg : P g) :
    Action.Leads (Publishes P) (d.evaluator.apply g) := by
  refine Action.leads_bind Publishes.trans (fun w => .of_published ?_) fun _ w => ?_
  · rcases d.perform_putRules_cases g.updatedRules w with ⟨e, o, hc⟩ | ⟨o, hc⟩
    · exact congrArg (fun r => r.2.published) hc
    · exact (congrArg (fun r => r.2.published) hc).trans (Ledger.published_put _ _)
  · rcases d.perform_publisher_cases g.update w with ⟨e, o, hc⟩ | ⟨o, hc⟩
    · exact .of_ledger (congrArg (fun r => r.2.ledger) hc)
    · refine ⟨[g], ?_, fun g' hg' => List.mem_singleton.1 hg' ▸ hg⟩
      exact (congrArg (fun r => r.2.published) hc).trans (Ledger.published_publish _ _)

/-- **Evaluating a group** publishes it, or nothing. -/
theorem leads_evaluateGroup {group : String × List Bundle}
    (hP : ∀ w g w', (d.evaluator.compileGroup group.1 group.2).perform w = (.ok g, w') → P g) :
    Action.Leads (Publishes P) (d.evaluator.evaluateGroup group) := by
  refine Action.leads_bind_of_perform Publishes.trans
    (.of_keeps (d.keeps_compileGroup _ _) fun _ _ h => .of_ledger h) fun g w₁ w₂ hg => ?_
  exact Action.leads_bind Publishes.trans (d.leads_apply (hP _ _ _ hg))
    (fun _ => Action.leads_pure Publishes.refl g) w₂

/-- **Evaluating bundles** publishes groups that were compiled, and each of them has a bundle. -/
theorem publishes_evaluateBundles
    (hP : ∀ ruleGroupArn bundles w g w', bundles ≠ [] →
      (d.evaluator.compileGroup ruleGroupArn bundles).perform w = (.ok g, w') → P g)
    (ids : List String) : Action.Leads (Publishes P) (d.evaluator.evaluateBundles ids) := by
  refine Action.leads_bind Publishes.trans
    (.of_keeps (Action.keeps_mapM d.keeps_load ids) fun _ _ h => .of_ledger h) fun bundles => ?_
  refine Action.leads_mapM Publishes.refl Publishes.trans fun group hgroup => ?_
  exact d.leads_evaluateGroup fun w g w' =>
    hP group.1 group.2 w g w' (Bundle.ne_nil_of_mem_groupByArn hgroup)

end Deployment

end Firewall
