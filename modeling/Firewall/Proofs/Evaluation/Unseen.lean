/-
# Objects that nobody names

Objects that no rule of some bundles names are never fetched when these bundles are evaluated.  So
they may be stored or not, whatever they are: two evaluations in stores that differ in such objects
run side by side, and come to the same at every step.

* `Store.Snapshot.Names` : the ids that the rules of some bundles name;
* `Ledger.Unseen` : ledgers that differ in objects that are not named;
* `Deployment.alike_evaluateGroup_unseen` : the step, a group in stores that differ in this way;
* `Deployment.evaluate_unseen` : an evaluation in such stores.
-/
import Firewall.Proofs.Evaluation.Batch
import Firewall.Proofs.Evaluation.Within
import Firewall.Proofs.Resolver.Rows
import Firewall.Proofs.Resolution.Verdicts

namespace Firewall

open Evaluation

/-! ## Names -/

namespace Store.Snapshot

/-- Some rule of the bundles names the id, as its source or as its destination. -/
def Names (s : Snapshot) (bundleIds : List String) (id : String) : Prop :=
  ∃ r ∈ s.rules, r.bundleId ∈ bundleIds ∧ (r.source = id ∨ r.destination = id)

instance (s : Snapshot) (bundleIds : List String) (id : String) :
    Decidable (s.Names bundleIds id) :=
  inferInstanceAs (Decidable (∃ r ∈ s.rules, _))

end Store.Snapshot

theorem Evaluation.mem_referencedIds {rules : List Rule} {id : String} :
    id ∈ referencedIds rules ↔ ∃ r ∈ rules, r.source = id ∨ r.destination = id := by
  unfold referencedIds
  rw [mem_firstSeen, List.mem_flatMap]
  simp only [List.mem_cons, List.not_mem_nil, or_false, eq_comm]

/-- The rules of a group name nothing that the stored rules of its bundles do not name. -/
theorem Evaluation.GroupEvaluation.Evaluates.names {denyRuleId : String} {s : Store.Snapshot}
    {group : String × List Bundle} {g : GroupEvaluation} (h : g.Evaluates denyRuleId s group)
    {bundleIds : List String} (hgroup : ∀ b ∈ group.2, b.id ∈ bundleIds) {x : Rule}
    (hx : x ∈ g.updatedRules) :
    s.Names bundleIds x.source ∧ s.Names bundleIds x.destination := by
  obtain ⟨b, hb, r, hr, r', hsettled, rfl⟩ := h.exists_rule hx
  obtain ⟨hr, hbundle⟩ := Store.Snapshot.mem_rulesOf.1 hr
  have hid : r.bundleId ∈ bundleIds := hbundle ▸ hgroup b hb
  have hgiven := hsettled.given_eq
  have hsource := congrArg Rule.source hgiven
  have hdestination := congrArg Rule.destination hgiven
  exact ⟨⟨r, hr, hid, .inl hsource.symm⟩, ⟨r, hr, hid, .inr hdestination.symm⟩⟩

/-! ## Stores with other objects -/

/-- The ledger with other objects in its store. -/
def Ledger.withObjects (l : Ledger) (objects : List FlowObject) : Ledger :=
  { l with store := { l.store with objects } }

/-- The world with other objects in its store. -/
def World.withObjects {ω : Type} (w : World ω) (objects : List FlowObject) : World ω :=
  { w with ledger := w.ledger.withObjects objects }

theorem Store.Snapshot.putRules_withObjects (s : Snapshot) (objects : List FlowObject)
    (rules : List Rule) :
    { s with objects }.putRules rules = { s.putRules rules with objects } := by
  unfold putRules
  induction rules generalizing s with
  | nil => rfl
  | cons r rules ih => exact ih (s.insertRule r)

/-- The second ledger is the first with other objects, and all ids that the rules of some bundles
name are among those that are told apart. -/
structure Ledger.Unseen (bundleIds : List String) (named : String → Bool)
    (objects objects' : List FlowObject) (l l' : Ledger) : Prop where
  objects : l.store.objects = objects
  eq : l' = l.withObjects objects'
  names : ∀ id, l.store.Names bundleIds id → named id = true

section Unseen

variable {bundleIds : List String} {named : String → Bool} {objects objects' : List FlowObject}

/-- Objects that differ in none that are named are the same under all names. -/
theorem filter_contains_of_filter_named
    (h : (objects.filter fun o => named o.id) = objects'.filter fun o => named o.id)
    {ids : List String} (hids : ∀ id ∈ ids, named id = true) :
    (objects.filter fun o => ids.contains o.id) = objects'.filter fun o => ids.contains o.id := by
  have hall : ∀ xs : List FlowObject, (xs.filter fun o => ids.contains o.id) =
      (xs.filter fun o => named o.id).filter fun o => ids.contains o.id := by
    intro xs
    rw [List.filter_filter]
    refine List.filter_congr fun o _ => ?_
    cases hid : ids.contains o.id with
    | false => rfl
    | true => rw [hids o.id (List.contains_iff_mem.1 hid), Bool.and_true]
  rw [hall objects, hall objects', h]

namespace Ledger.Unseen

variable {l l' : Ledger}

theorem put (h : Unseen bundleIds named objects objects' l l') {rules : List Rule}
    (hrules : ∀ x ∈ rules, named x.source = true ∧ named x.destination = true) :
    Unseen bundleIds named objects objects' (l.put rules) (l'.put rules) where
  objects := by
    show (l.store.putRules rules).objects = objects
    rw [Store.Snapshot.objects_putRules, h.objects]
  eq := by
    rw [h.eq]
    unfold Ledger.put withObjects
    rw [Store.Snapshot.putRules_withObjects]
  names := by
    rintro id ⟨r, hr, hid, hname⟩
    -- a rule that names something was stored before, or is one of those that are stored now
    rcases Store.Snapshot.mem_rules_putRules hr with hr | hr
    · exact h.names id ⟨r, hr, hid, hname⟩
    · obtain ⟨hsource, hdestination⟩ := hrules r hr
      rcases hname with rfl | rfl
      · exact hsource
      · exact hdestination

theorem publish (h : Unseen bundleIds named objects objects' l l') (u : Update) :
    Unseen bundleIds named objects objects' (l.publish u) (l'.publish u) where
  objects := h.objects
  eq := by
    rw [h.eq]
    rfl
  names := h.names

end Ledger.Unseen

/-! ## Evaluating with other objects -/

namespace Deployment

variable {ω : Type} (d : Deployment ω)

theorem rulesOf_of_perform {id : String} {rules : List Rule} {w w' : World ω}
    (h : (d.evaluator.repository.rulesOf id).perform w = (.ok rules, w')) :
    rules = w.store.rulesOf id ∧ w'.ledger = w.ledger := by
  have hread := d.perform_call_ok h
  obtain ⟨hrules, hledger⟩ := Prod.mk.inj hread
  exact ⟨(Except.ok.inj hrules).symm, hledger.symm⟩

theorem objectsWith_of_perform {ids : List String} {objects : List FlowObject} {w w' : World ω}
    (h : (d.evaluator.repository.objectsWith ids).perform w = (.ok objects, w')) :
    objects = w.store.objectsWith ids ∧ w'.ledger = w.ledger := by
  have hread := d.perform_call_ok h
  obtain ⟨hobjects, hledger⟩ := Prod.mk.inj hread
  exact ⟨(Except.ok.inj hobjects).symm, hledger.symm⟩

theorem alike_bundle?_unseen (id : String) :
    Action.Alike (World.Along (Ledger.Unseen bundleIds named objects objects'))
      (d.repository.bundle? id) (d.repository.bundle? id) := by
  refine d.alike_call_along (fun l l' h => ⟨?_, h⟩) _
  rw [h.eq]
  rfl

theorem alike_rulesOf_unseen (id : String) :
    Action.Alike (World.Along (Ledger.Unseen bundleIds named objects objects'))
      (d.repository.rulesOf id) (d.repository.rulesOf id) := by
  refine d.alike_call_along (fun l l' h => ⟨?_, h⟩) _
  rw [h.eq]
  rfl

theorem alike_load_unseen (id : String) :
    Action.Alike (World.Along (Ledger.Unseen bundleIds named objects objects'))
      (d.evaluator.load id) (d.evaluator.load id) := by
  refine Action.alike_bind (d.alike_bundle?_unseen id) fun b => ?_
  cases b with
  | none => exact Action.alike_throw _
  | some b => exact Action.alike_pure b

theorem alike_compiler_unseen :
    d.compiler.Alike (World.Along (Ledger.Unseen bundleIds named objects objects')) d.compiler :=
  ⟨rfl, ⟨fun _ _ => World.alike_onOutside_along _ _, rfl⟩, rfl⟩

section Named

variable (h : (objects.filter fun o => named o.id) = objects'.filter fun o => named o.id)
include h

theorem alike_objectsWith_unseen {ids : List String} (hids : ∀ id ∈ ids, named id = true) :
    Action.Alike (World.Along (Ledger.Unseen bundleIds named objects objects'))
      (d.repository.objectsWith ids) (d.repository.objectsWith ids) := by
  refine d.alike_call_along (fun l l' hl => ⟨?_, hl⟩) _
  show Except.ok (l.store.objects.filter fun o => ids.contains o.id) =
    Except.ok (l'.store.objects.filter fun o => ids.contains o.id)
  rw [hl.eq, hl.objects, filter_contains_of_filter_named h hids]
  rfl

/-- A bundle is resolved alike, since only objects are fetched that its rules name. -/
theorem alike_resolveBundle_unseen (offset : UInt64) {b : Bundle} (hb : b.id ∈ bundleIds) :
    Action.Alike (World.Along (Ledger.Unseen bundleIds named objects objects'))
      (d.evaluator.resolveBundle offset b) (d.evaluator.resolveBundle offset b) := by
  refine Action.alike_bind_of_perform (d.alike_rulesOf_unseen b.id) ?_
  intro rules w w' w₁ hw hrules
  have hnamed : ∀ id ∈ referencedIds rules, named id = true := by
    intro id hid
    obtain ⟨r, hr, hname⟩ := mem_referencedIds.1 hid
    obtain ⟨hstored, -⟩ := d.rulesOf_of_perform hrules
    rw [hstored, Store.Snapshot.mem_rulesOf] at hr
    exact hw.1.names id ⟨r, hr.1, hr.2 ▸ hb, hname⟩
  refine Action.alike_bind (d.alike_objectsWith_unseen h hnamed) fun found => ?_
  exact d.alike_compiler_unseen.resolveRules b rules found offset

theorem alike_resolveBundles_unseen (offset : UInt64) {bundles : List Bundle}
    (hb : ∀ b ∈ bundles, b.id ∈ bundleIds) :
    Action.Alike (World.Along (Ledger.Unseen bundleIds named objects objects'))
      (d.evaluator.resolveBundles offset bundles) (d.evaluator.resolveBundles offset bundles) := by
  induction bundles generalizing offset with
  | nil => exact Action.alike_pure []
  | cons b bs ih =>
    rw [List.forall_mem_cons] at hb
    refine Action.alike_bind (d.alike_resolveBundle_unseen h offset hb.1) fun r => ?_
    refine Action.alike_bind (ih r.lastSid hb.2) fun rest => ?_
    exact Action.alike_pure _

/-- **The step**: a group is resolved alike, and what it stores names nothing new. -/
theorem alike_evaluateGroup_unseen {group : String × List Bundle}
    (hgroup : ∀ b ∈ group.2, b.id ∈ bundleIds) :
    Action.Alike (World.Along (Ledger.Unseen bundleIds named objects objects'))
      (d.evaluator.evaluateGroup group) (d.evaluator.evaluateGroup group) := by
  have hcompile : Action.Alike (World.Along (Ledger.Unseen bundleIds named objects objects'))
      (d.evaluator.compileGroup group.1 group.2) (d.evaluator.compileGroup group.1 group.2) :=
    Action.alike_bind (d.alike_resolveBundles_unseen h 0 hgroup) fun _ => Action.alike_pure _
  refine Action.alike_bind_of_perform hcompile fun g w w' w₁ hw hg => ?_
  have hrules : ∀ x ∈ g.updatedRules, named x.source = true ∧ named x.destination = true := by
    intro x hx
    obtain ⟨hsource, hdestination⟩ := (d.evaluates_of_compileGroup hg).names hgroup hx
    exact ⟨hw.1.names _ hsource, hw.1.names _ hdestination⟩
  have hput : Action.Alike (Ledger.Unseen bundleIds named objects objects')
      (Ledger.repository.putRules g.updatedRules) (Ledger.repository.putRules g.updatedRules) :=
    fun l l' hl => ⟨rfl, hl.put hrules⟩
  have hpublish : Action.Alike (Ledger.Unseen bundleIds named objects objects')
      (Ledger.publisher g.update) (Ledger.publisher g.update) :=
    fun l l' hl => ⟨rfl, hl.publish g.update⟩
  refine Action.alike_bind ?_ fun _ => Action.alike_pure g
  exact Action.alike_bind (d.alike_call_along hput _) fun _ => d.alike_call_along hpublish _

/-- **The run**: all groups, one after the other. -/
theorem alike_evaluateBundles_unseen :
    Action.Alike (World.Along (Ledger.Unseen bundleIds named objects objects'))
      (d.evaluator.evaluateBundles bundleIds) (d.evaluator.evaluateBundles bundleIds) := by
  refine Action.alike_bind_of_perform (Action.alike_mapM fun id _ => d.alike_load_unseen id) ?_
  intro bundles w w' w₁ _ hload
  refine Action.alike_mapM fun group hgroup => d.alike_evaluateGroup_unseen h fun b hb => ?_
  rw [Bundle.snd_of_mem_groupByArn hgroup] at hb
  rw [← (d.loads_of_perform hload).map_id]
  exact List.mem_map_of_mem (Bundle.mem_ofArn.1 hb).1

end Named

/-- **Objects that nobody names make no difference.**  If objects are added to a store or removed
from it, and no rule of the bundles names them, then the bundles are evaluated to the same response,
and the world is left as it is left without this change, with these objects in place of the
others. -/
theorem evaluate_unseen {request : Request} {response : Response} {w v : World ω}
    (h : d.evaluator.evaluate request w = (response, v)) {objects : List FlowObject}
    (hnoise : Inventory.Noise (fun o => decide (w.store.Names request.bundleIds o.id))
      w.store.objects objects) :
    d.evaluator.evaluate request (w.withObjects objects) = (response, v.withObjects objects) := by
  have hstart : World.Along (Ledger.Unseen request.bundleIds
      (fun id => decide (w.store.Names request.bundleIds id)) w.store.objects objects) w
      (w.withObjects objects) :=
    ⟨⟨rfl, rfl, fun id hid => decide_eq_true hid⟩, rfl⟩
  obtain ⟨hresponse, hledger, houtside⟩ := Evaluator.evaluate_of_alikeUpTo request
    (Action.alike_iff_alikeUpTo.1 (d.alike_evaluateBundles_unseen hnoise.filter_eq)) hstart
  rw [h] at hresponse hledger houtside
  refine Prod.ext hresponse.symm ?_
  show (d.evaluator.evaluate request (w.withObjects objects)).2 =
    ⟨v.ledger.withObjects objects, v.outside⟩
  rw [← hledger.eq, houtside]

end Deployment

end Unseen

end Firewall
