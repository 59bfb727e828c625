/-
# Evaluations side by side

Two evaluations of the same bundles, in stores that differ in findings only.  If every call is let
through and the inventory stays as it is, nothing but the versions tells them apart: they succeed or
fail alike, publish the same, and store rules that differ in the version only.

* `Deployment.Willing` : deployments that let every call through, with an inventory that stays;
* `Ledger.Parallel` : two ledgers that differ in findings, after the same was published;
* `Deployment.Willing.alikeUpTo_evaluateGroup` : the step, a group side by side;
* `Deployment.Willing.alikeUpTo_evaluateBundles` : the run, two evaluations side by side.
-/
import Firewall.Proofs.Evaluation.Findings
import Firewall.Proofs.Evaluation.Trace

namespace Firewall

open Evaluation

/-! ## Willing deployments -/

/-- Every call is let through, and what rows answer a query does not depend on what has happened
outside. -/
structure Deployment.Willing {ω : Type} (d : Deployment ω) : Prop where
  permit : ∀ c o, ((d.permit c).perform o).1 = .ok ()
  select : ∀ aggregator q o o', ((d.source.select aggregator q).perform o).1 =
    ((d.source.select aggregator q).perform o').1

theorem Deployment.Willing.steady {ω : Type} {d : Deployment ω} (h : d.Willing) : d.Steady :=
  ⟨fun c o o' => (h.permit c o).trans (h.permit c o').symm, h.select⟩

/-- A store in memory with a publisher that accepts every update, and an inventory that goes by the
query, is willing. -/
theorem Deployment.willing_inMemory {ω : Type} {accept : Update → Action ω Unit}
    {source : Inventory.Source ω} (haccept : ∀ u o, ((accept u).perform o).1 = .ok ())
    (hselect : ∀ aggregator q o o', ((source.select aggregator q).perform o).1 =
      ((source.select aggregator q).perform o').1) (chain : List Resolver) (denyRuleId : String) :
    (inMemory accept source chain denyRuleId).Willing := by
  refine ⟨fun c o => ?_, hselect⟩
  cases c with
  | publish u => exact haccept u o
  | _ => rfl

theorem Sample.willing_deployment : (deployment []).Willing :=
  Deployment.willing_inMemory (fun _ _ => rfl) (fun _ _ _ _ => rfl) _ _

/-! ## Side by side -/

/-- Two ledgers hold the same but for what evaluations found, and since two others the same was
published. -/
structure Ledger.Parallel (l₀ l₀' l l' : Ledger) : Prop where
  bare : l.store.bare = l'.store.bare
  published : ∃ updates,
    l.published = l₀.published ++ updates ∧ l'.published = l₀'.published ++ updates

namespace Ledger.Parallel

variable {l₀ l₀' l l' : Ledger}

theorem refl (h : l₀.store.bare = l₀'.store.bare) : Parallel l₀ l₀' l₀ l₀' :=
  ⟨h, [], (List.append_nil _).symm, (List.append_nil _).symm⟩

/-- Rules that differ in findings may be stored. -/
theorem put (h : Parallel l₀ l₀' l l') {rules rules' : List Rule}
    (hrules : rules.map Rule.bare = rules'.map Rule.bare) :
    Parallel l₀ l₀' (l.put rules) (l'.put rules') := by
  obtain ⟨hbare, updates, hl, hl'⟩ := h
  refine ⟨?_, updates, ?_, ?_⟩
  · show (l.store.putRules rules).bare = (l'.store.putRules rules').bare
    rw [Store.Snapshot.putRules_bare, Store.Snapshot.putRules_bare, hbare, hrules]
  · rw [published_put, hl]
  · rw [published_put, hl']

/-- The same update may be published. -/
theorem publish (h : Parallel l₀ l₀' l l') (u : Update) :
    Parallel l₀ l₀' (l.publish u) (l'.publish u) := by
  obtain ⟨hbare, updates, hl, hl'⟩ := h
  refine ⟨hbare, updates ++ [u], ?_, ?_⟩
  · rw [published_publish, hl, List.append_assoc]
  · rw [published_publish, hl', List.append_assoc]

end Ledger.Parallel

/-- Two worlds whose ledgers are parallel. -/
def World.Parallel {ω : Type} (l₀ l₀' : Ledger) (w w' : World ω) : Prop :=
  Ledger.Parallel l₀ l₀' w.ledger w'.ledger

namespace Deployment.Willing

variable {ω : Type} {d : Deployment ω} {l₀ l₀' : Ledger} (hd : d.Willing)
include hd

/-- Two calls are both let through, and do what they do to the ledgers. -/
theorem alikeUpTo_call {α γ : Type} {look : α → γ} {c c' : Call} {a a' : Action Ledger α}
    (ha : Action.AlikeUpTo look (Ledger.Parallel l₀ l₀') a a') :
    Action.AlikeUpTo look (World.Parallel l₀ l₀') (d.call c a) (d.call c' a') := by
  refine Action.Alike.bind_upTo (fun w w' h => ?_) fun _ w w' h => ha w.ledger w'.ledger h
  exact ⟨(hd.permit c w.outside).trans (hd.permit c' w'.outside).symm, h⟩

theorem alike_bundle? (id : String) :
    Action.Alike (World.Parallel l₀ l₀') (d.repository.bundle? id) (d.repository.bundle? id) := by
  refine hd.steady.alike_call fun l l' h => ⟨?_, h⟩
  show Except.ok (l.store.bare.bundle? id) = Except.ok (l'.store.bare.bundle? id)
  rw [h.bare]

theorem alikeUpTo_rulesOf (id : String) :
    Action.AlikeUpTo (List.map Rule.bare) (World.Parallel l₀ l₀') (d.repository.rulesOf id)
      (d.repository.rulesOf id) := by
  refine hd.alikeUpTo_call fun l l' h => ⟨?_, h⟩
  show Except.ok ((l.store.rulesOf id).map Rule.bare) =
    Except.ok ((l'.store.rulesOf id).map Rule.bare)
  rw [← Store.Snapshot.rulesOf_bare, ← Store.Snapshot.rulesOf_bare, h.bare]

theorem alike_objectsWith (ids : List String) :
    Action.Alike (World.Parallel l₀ l₀') (d.repository.objectsWith ids)
      (d.repository.objectsWith ids) := by
  refine hd.steady.alike_call fun l l' h => ⟨?_, h⟩
  show Except.ok (l.store.bare.objectsWith ids) = Except.ok (l'.store.bare.objectsWith ids)
  rw [h.bare]

/-- Inventories answer alike. -/
theorem alike_compiler : d.compiler.Alike (World.Parallel l₀ l₀') d.compiler :=
  ⟨rfl, ⟨fun aggregator q w w' h => ⟨hd.select aggregator q w.outside w'.outside, h⟩, rfl⟩, rfl⟩

theorem alike_load (id : String) :
    Action.Alike (World.Parallel l₀ l₀') (d.evaluator.load id) (d.evaluator.load id) := by
  refine Action.alike_bind (hd.alike_bundle? id) fun b => ?_
  cases b with
  | none => exact Action.alike_throw _
  | some b => exact Action.alike_pure b

theorem alikeUpTo_resolveBundle (offset : UInt64) (b : Bundle) :
    Action.AlikeUpTo Resolution.unversioned (World.Parallel l₀ l₀')
      (d.evaluator.resolveBundle offset b) (d.evaluator.resolveBundle offset b) := by
  refine Action.alikeUpTo_bind (hd.alikeUpTo_rulesOf b.id) fun rules rules' hrules => ?_
  rw [← referencedIds_bare rules, hrules, referencedIds_bare]
  refine (hd.alike_objectsWith _).bind_upTo fun objects => ?_
  exact hd.alike_compiler.resolveRules_bare b hrules objects offset

theorem alikeUpTo_resolveBundles (offset : UInt64) (bundles : List Bundle) :
    Action.AlikeUpTo (List.map unversionedOf) (World.Parallel l₀ l₀')
      (d.evaluator.resolveBundles offset bundles) (d.evaluator.resolveBundles offset bundles) := by
  induction bundles generalizing offset with
  | nil => exact Action.alikeUpTo_pure rfl
  | cons b bs ih =>
    refine Action.alikeUpTo_bind (hd.alikeUpTo_resolveBundle offset b) fun r r' hr => ?_
    have hlast : r.lastSid = r'.lastSid :=
      show r.unversioned.lastSid = r'.unversioned.lastSid by rw [hr]
    rw [hlast]
    refine Action.alikeUpTo_bind (ih r'.lastSid) fun rest rest' hrest => ?_
    refine Action.alikeUpTo_pure ?_
    rw [List.map_cons, List.map_cons, hrest, unversionedOf, unversionedOf, hr]

theorem alikeUpTo_compileGroup (ruleGroupArn : String) (bundles : List Bundle) :
    Action.AlikeUpTo GroupEvaluation.unversioned (World.Parallel l₀ l₀')
      (d.evaluator.compileGroup ruleGroupArn bundles)
      (d.evaluator.compileGroup ruleGroupArn bundles) := by
  refine Action.alikeUpTo_bind (hd.alikeUpTo_resolveBundles 0 bundles) fun rs rs' hrs => ?_
  refine Action.alikeUpTo_pure ?_
  rw [← GroupEvaluation.of_unversioned, hrs, GroupEvaluation.of_unversioned]

/-- **A group, side by side**: rules that differ in the version are stored, and the same is
published. -/
theorem alikeUpTo_evaluateGroup (group : String × List Bundle) :
    Action.AlikeUpTo GroupEvaluation.unversioned (World.Parallel l₀ l₀')
      (d.evaluator.evaluateGroup group) (d.evaluator.evaluateGroup group) := by
  refine Action.alikeUpTo_bind (hd.alikeUpTo_compileGroup group.1 group.2) fun g g' hg => ?_
  have hupdate : g.update = g'.update := by
    rw [← g.update_unversioned, hg, g'.update_unversioned]
  have hrules : g.updatedRules.map Rule.bare = g'.updatedRules.map Rule.bare := by
    have hunversioned : g.updatedRules.map Rule.unversioned =
        g'.updatedRules.map Rule.unversioned := by
      rw [g.map_unversioned_updatedRules, hg, g'.map_unversioned_updatedRules]
    have hbare := congrArg (List.map Rule.bare) hunversioned
    rw [List.map_map, List.map_map] at hbare
    exact hbare
  refine Action.Alike.bind_upTo ?_ fun _ => Action.alikeUpTo_pure hg
  refine Action.alike_bind (Action.alike_iff_alikeUpTo.2 (hd.alikeUpTo_call ?_)) fun _ => ?_
  · exact fun l l' h => ⟨rfl, h.put hrules⟩
  · rw [hupdate]
    exact hd.steady.alike_call fun l l' h => ⟨rfl, h.publish _⟩

/-- **Two evaluations side by side**, in stores that differ in findings only: they succeed or fail
alike, store rules that differ in the version only, and publish the same. -/
theorem alikeUpTo_evaluateBundles (ids : List String) :
    Action.AlikeUpTo (List.map GroupEvaluation.unversioned) (World.Parallel l₀ l₀')
      (d.evaluator.evaluateBundles ids) (d.evaluator.evaluateBundles ids) := by
  refine (Action.alike_mapM fun id _ => hd.alike_load id).bind_upTo fun bundles => ?_
  refine Action.alikeUpTo_mapM (rfl : (Bundle.groupByArn bundles).map id = _) ?_
  rintro group - _ - rfl
  exact hd.alikeUpTo_evaluateGroup group

end Deployment.Willing

end Firewall
