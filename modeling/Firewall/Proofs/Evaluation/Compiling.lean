/-
# Compiling groups

Compiling a group reads the rules of its bundles and the objects that they name, asks the inventory,
and writes nothing.  So what it comes to is decided by the answers: two evaluators whose reads cannot
be told apart compile alike.

* `Evaluation.Evaluator.Alike` : evaluators whose reads for some bundles are alike;
* `Evaluation.Evaluator.Alike.load`, `Alike.compileGroup` : what they read and compile is alike;
* `Deployment.keeps_load`, `keeps_compileGroup` : loading and compiling write nothing.
-/
import Firewall.Proofs.Deployment
import Firewall.Proofs.Resolution

namespace Firewall

namespace Evaluation.Evaluator

variable {σ τ : Type}

/-! ## Compiling twice -/

/-- What two evaluators read for the bundles that are meant is alike. -/
structure Alike (R : σ → τ → Prop) (meant : String → Prop) (e : Evaluator σ) (e' : Evaluator τ) :
    Prop where
  bundle? : ∀ id, meant id →
    Action.Alike R (e.repository.bundle? id) (e'.repository.bundle? id)
  rulesOf : ∀ id, meant id →
    Action.Alike R (e.repository.rulesOf id) (e'.repository.rulesOf id)
  objectsWith : ∀ ids,
    Action.Alike R (e.repository.objectsWith ids) (e'.repository.objectsWith ids)
  compiler : e.compiler.Alike R e'.compiler

namespace Alike

variable {R : σ → τ → Prop} {meant : String → Prop} {e : Evaluator σ} {e' : Evaluator τ}

theorem load (h : e.Alike R meant e') {id : String} (hid : meant id) :
    Action.Alike R (e.load id) (e'.load id) := by
  refine Action.alike_bind (h.bundle? id hid) fun b => ?_
  cases b with
  | none => exact Action.alike_throw _
  | some b => exact Action.alike_pure b

theorem resolveBundle (h : e.Alike R meant e') (offset : UInt64) {b : Bundle} (hb : meant b.id) :
    Action.Alike R (e.resolveBundle offset b) (e'.resolveBundle offset b) := by
  refine Action.alike_bind (h.rulesOf b.id hb) fun rules => ?_
  refine Action.alike_bind (h.objectsWith _) fun objects => ?_
  exact h.compiler.resolveRules b rules objects offset

theorem resolveBundles (h : e.Alike R meant e') (offset : UInt64) {bundles : List Bundle}
    (hb : ∀ b ∈ bundles, meant b.id) :
    Action.Alike R (e.resolveBundles offset bundles) (e'.resolveBundles offset bundles) := by
  induction bundles generalizing offset with
  | nil => exact Action.alike_pure []
  | cons b bs ih =>
    refine Action.alike_bind (h.resolveBundle offset (hb b List.mem_cons_self)) fun r => ?_
    refine Action.alike_bind (ih r.lastSid fun c hc => hb c (List.mem_cons_of_mem b hc)) ?_
    exact fun rest => Action.alike_pure _

/-- **Compiling is alike** for evaluators whose reads are. -/
theorem compileGroup (h : e.Alike R meant e') (ruleGroupArn : String) {bundles : List Bundle}
    (hb : ∀ b ∈ bundles, meant b.id) :
    Action.Alike R (e.compileGroup ruleGroupArn bundles) (e'.compileGroup ruleGroupArn bundles) :=
  Action.alike_bind (h.resolveBundles 0 hb) fun _ => Action.alike_pure _

end Alike

end Evaluation.Evaluator

/-! ## What compiling leaves alone -/

namespace Deployment

variable {ω : Type} (d : Deployment ω)

/-- A call that only reads leaves the ledger alone. -/
theorem keeps_read {α : Type} {c : Call} {a : Action Ledger α} (h : ∀ l, (a.perform l).2 = l) :
    Action.Keeps World.ledger (d.call c a) :=
  d.keeps_call (show Action.Keeps id a from h)

/-- In one and the same world a deployment reads like itself, and leaves the ledger alone. -/
theorem alike_self (l : Ledger) :
    d.evaluator.Alike (fun w w' => w = w' ∧ w.ledger = l) (fun _ => True) d.evaluator := by
  refine ⟨fun id _ => ?_, fun id _ => ?_, fun ids => ?_, rfl, ⟨fun aggregator q => ?_, rfl⟩, rfl⟩
  · exact Action.keeps_iff_alike.1 (d.keeps_read fun _ => rfl) l
  · exact Action.keeps_iff_alike.1 (d.keeps_read fun _ => rfl) l
  · exact Action.keeps_iff_alike.1 (d.keeps_read fun _ => rfl) l
  · exact Action.keeps_iff_alike.1 (World.keeps_onOutside _) l

theorem keeps_load (id : String) : Action.Keeps World.ledger (d.evaluator.load id) :=
  Action.keeps_iff_alike.2 fun l => (d.alike_self l).load trivial

theorem keeps_resolveBundle (offset : UInt64) (b : Bundle) :
    Action.Keeps World.ledger (d.evaluator.resolveBundle offset b) :=
  Action.keeps_iff_alike.2 fun l => (d.alike_self l).resolveBundle offset trivial

/-- Compiling a group writes nothing. -/
theorem keeps_compileGroup (ruleGroupArn : String) (bundles : List Bundle) :
    Action.Keeps World.ledger (d.evaluator.compileGroup ruleGroupArn bundles) :=
  Action.keeps_iff_alike.2 fun l =>
    (d.alike_self l).compileGroup ruleGroupArn fun _ _ => trivial

end Deployment

end Firewall
