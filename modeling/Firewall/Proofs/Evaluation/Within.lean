/-
# Evaluators on a part of the world

An evaluator may stand in a larger system, whose world holds more than what it works on.  There it
responds as it does on its own, does the same to its part of the world, and leaves the rest alone.

* `Action.Part` : a part of a world that can be seen and replaced;
* `Action.Part.alike_within` : an action on a part is like the action on its own;
* `Evaluation.Evaluator.Alike.evaluateBundles` : evaluators that read and write alike evaluate alike;
* `Evaluation.Evaluator.within`, `evaluate_within` : an evaluator on a part of the world;
* `Evaluation.Evaluator.evaluateAll` : requests one after the other.
-/
import Firewall.Proofs.Evaluation.Compiling

namespace Firewall

/-! ## Parts of a world -/

namespace Action

variable {σ τ α : Type}

/-- A part of a world: what is put there is seen there, and replaces what was put there before. -/
structure Part (view : σ → τ) (update : τ → σ → σ) : Prop where
  view_update : ∀ t s, view (update t s) = t
  update_update : ∀ t t' s, update t' (update t s) = update t' s
  update_view : ∀ s, update (view s) s = s

/-- **An action on a part of a world** is like the action on its own, and the rest of the world
stays. -/
theorem Part.alike_within {view : σ → τ} {update : τ → σ → σ} (h : Part view update) (s₀ : σ)
    (a : Action τ α) : Alike (fun s t => s = update t s₀) (a.within view update) a := by
  rintro _ t rfl
  rw [perform_within, h.view_update]
  exact ⟨rfl, h.update_update t _ s₀⟩

end Action

namespace Evaluation.Evaluator

/-! ## Evaluating alike -/

section TwoRuns

variable {σ τ : Type} {R : σ → τ → Prop} {e : Evaluator σ} {e' : Evaluator τ}

/-- **Evaluators that read and write alike** evaluate alike. -/
theorem Alike.evaluateBundles (h : e.Alike R (fun _ => True) e')
    (hput : ∀ rules, Action.Alike R (e.repository.putRules rules) (e'.repository.putRules rules))
    (hpublish : ∀ u, Action.Alike R (e.publisher u) (e'.publisher u)) (ids : List String) :
    Action.Alike R (e.evaluateBundles ids) (e'.evaluateBundles ids) := by
  refine Action.alike_bind (Action.alike_mapM fun id _ => h.load trivial) fun bundles => ?_
  refine Action.alike_mapM fun group _ => ?_
  refine Action.alike_bind (h.compileGroup group.1 fun _ _ => trivial) fun g => ?_
  refine Action.alike_bind ?_ fun _ => Action.alike_pure g
  exact Action.alike_bind (hput g.updatedRules) fun _ => hpublish g.update

/-- A response does not tell what was evaluated. -/
theorem responseOf_map {α β : Type} (ids : List String) (look : α → β) (result : Except Error α) :
    responseOf ids (result.map look) = responseOf ids result := by
  cases result <;> rfl

/-- Evaluations that look alike are answered alike. -/
theorem evaluate_of_alikeUpTo {α : Type} {look : List GroupEvaluation → α} (request : Request)
    (h : Action.AlikeUpTo look R (e.evaluateBundles request.bundleIds)
      (e'.evaluateBundles request.bundleIds)) {s : σ} {t : τ} (hst : R s t) :
    (e.evaluate request s).1 = (e'.evaluate request t).1 ∧
      R (e.evaluate request s).2 (e'.evaluate request t).2 := by
  obtain ⟨hresult, hR⟩ := h s t hst
  have hresponse := congrArg (responseOf request.bundleIds) hresult
  rw [responseOf_map, responseOf_map] at hresponse
  exact ⟨hresponse, hR⟩

end TwoRuns

/-! ## Evaluators on a part -/

section Within

variable {σ τ : Type} (view : σ → τ) (update : τ → σ → σ)

/-- An evaluator on a part of the world. -/
def within (e : Evaluator τ) : Evaluator σ where
  repository := e.repository.within view update
  compiler :=
    { chain := e.compiler.chain
      source :=
        { select := fun aggregator q => (e.compiler.source.select aggregator q).within view update
          defaultAggregator := e.compiler.source.defaultAggregator }
      denyRuleId := e.compiler.denyRuleId }
  publisher u := (e.publisher u).within view update

variable {view update}

/-- **An evaluator on a part of the world** responds as it does on its own, and changes only its
part, as it does on its own. -/
theorem evaluate_within (h : Action.Part view update) (e : Evaluator τ) (request : Request)
    (s : σ) :
    (e.within view update).evaluate request s =
      ((e.evaluate request (view s)).1, update (e.evaluate request (view s)).2 s) := by
  have hreads : (e.within view update).Alike (fun s' t => s' = update t s) (fun _ => True) e :=
    ⟨fun _ _ => h.alike_within s _, fun _ _ => h.alike_within s _, fun _ => h.alike_within s _,
      rfl, ⟨fun _ _ => h.alike_within s _, rfl⟩, rfl⟩
  have halike := hreads.evaluateBundles (fun _ => h.alike_within s _) (fun _ => h.alike_within s _)
    request.bundleIds
  obtain ⟨hresponse, hworld⟩ := evaluate_of_alikeUpTo request (Action.alike_iff_alikeUpTo.1 halike)
    (h.update_view s).symm
  exact Prod.ext hresponse hworld

end Within

/-! ## Requests one after the other -/

variable {σ : Type}

/-- The responses to requests, one after the other. -/
def evaluateAll (e : Evaluator σ) (requests : List Request) : StateM σ (List Response) :=
  requests.mapM e.evaluate

theorem evaluateAll_cons (e : Evaluator σ) (request : Request) (requests : List Request) (s : σ) :
    e.evaluateAll (request :: requests) s =
      ((e.evaluate request s).1 :: (e.evaluateAll requests (e.evaluate request s).2).1,
        (e.evaluateAll requests (e.evaluate request s).2).2) := by
  unfold evaluateAll
  rw [List.mapM_cons]
  rfl

end Evaluation.Evaluator

end Firewall
