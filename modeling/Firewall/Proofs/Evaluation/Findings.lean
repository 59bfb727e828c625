/-
# What evaluations find, and do not read

A rule carries what its last evaluation found: a status, reasons, lines and a version.  No evaluation
reads any of it.  Rules that differ in nothing else are compiled to the same lines, and what is found
of them is the same but for the version, which goes on from where it was.

* `Rule.bare`, `Rule.unversioned` : a rule without findings, and a rule without its version;
* `Resolution.ofOutcomes_bare` : numbering goes by bare rules;
* `Compiler.Alike.resolveRules_bare` : so does resolving them;
* `Evaluation.GroupEvaluation.update_unversioned` : what is published does not tell versions;
* `Store.Snapshot.bare` : a store without findings, and what it is to read and to write it.
-/
import Firewall.Proofs.Evaluation.Compiling
import Firewall.Proofs.Store.Rules

namespace Firewall

/-! ## Rules -/

namespace Rule

/-- The rule without what evaluations found of it. -/
def bare (r : Rule) : Rule :=
  { r with status := .pending, failureReasons := [], version := 0, suricata := none }

/-- The rule without its version. -/
def unversioned (r : Rule) : Rule := { r with version := 0 }

theorem id_bare (r : Rule) : r.bare.id = r.id := rfl

theorem id_unversioned (r : Rule) : r.unversioned.id = r.id := rfl

/-- What looks the same without versions looks the same without findings. -/
theorem bare_eq_of_unversioned {r r' : Rule} (h : r.unversioned = r'.unversioned) :
    r.bare = r'.bare := by
  have hbare : r.unversioned.bare = r'.unversioned.bare := congrArg bare h
  exact hbare

/-- The lines of a rule do not tell what was found of it. -/
theorem compile_bare (r : Rule) (sources destinations : List String) (last : UInt64) :
    r.bare.compile sources destinations last = r.compile sources destinations last := rfl

theorem fail_bare (r : Rule) (reason : String) :
    r.bare.fail reason = (r.fail reason).unversioned := rfl

theorem activate_bare (r : Rule) (lines : String) :
    r.bare.activate lines = (r.activate lines).unversioned := rfl

/-- Settling a rule is a finding of it. -/
theorem SettledAs.bare_eq {r r' : Rule} (h : r.SettledAs r') : r'.bare = r.bare := by
  cases h <;> rfl

/-- Rules that differ in the version at most are the same if they have the same. -/
theorem eq_of_unversioned {r r' : Rule} (h : r.unversioned = r'.unversioned)
    (hversion : r.version = r'.version) : r = r' := by
  obtain ⟨⟩ := r
  obtain ⟨⟩ := r'
  cases hversion
  simp only [unversioned, mk.injEq] at h ⊢
  exact h

end Rule

/-! ## Outcomes -/

/-- The outcome for the rule without what evaluations found of it before. -/
def RuleOutcome.bare : RuleOutcome → RuleOutcome
  | failed rule => failed rule.unversioned
  | resolved rule sources destinations => resolved rule.bare sources destinations

namespace Resolution

/-- The resolution without the versions of its rules. -/
def unversioned (r : Resolution) : Resolution := ⟨r.rules.map Rule.unversioned, r.compiled⟩

theorem isDefaultDeny_unversioned (r : Resolution) :
    r.unversioned.isDefaultDeny = r.isDefaultDeny := by
  unfold isDefaultDeny unversioned
  rw [List.all_map]
  rfl

/-- **Numbering goes by bare rules.** -/
theorem number_bare (last : UInt64) (outcomes : List RuleOutcome) :
    number last (outcomes.map RuleOutcome.bare) =
      ((number last outcomes).1.map Rule.unversioned, (number last outcomes).2) := by
  induction outcomes generalizing last with
  | nil => rfl
  | cons o os ih =>
    rw [List.map_cons]
    cases o with
    | failed rule =>
      rw [RuleOutcome.bare, number, ih]
      rfl
    | resolved rule sources destinations =>
      rw [RuleOutcome.bare, number, Rule.compile_bare, ih, Rule.activate_bare]
      rfl

theorem ofOutcomes_bare (denyRuleId : String) (offset : UInt64) (outcomes : List RuleOutcome) :
    ofOutcomes denyRuleId offset (outcomes.map RuleOutcome.bare) =
      (ofOutcomes denyRuleId offset outcomes).unversioned := by
  unfold ofOutcomes
  rw [number_bare]
  rfl

end Resolution

namespace Compiler

/-- What comes of a rule is what comes of the bare rule. -/
theorem outcome_bare (rule : Rule) (source destination : ResolvedObject) :
    outcome rule.bare source destination = (outcome rule source destination).bare := by
  unfold outcome
  split
  · rfl
  · split
    · rfl
    · rfl

section Alike

variable {σ τ : Type} {R : σ → τ → Prop} {c : Compiler σ} {c' : Compiler τ}

/-- Resolving a rule goes by the bare rule. -/
theorem Alike.resolveRule_bare (h : c.Alike R c') (bundle : Bundle) (objects : List FlowObject)
    {rule rule' : Rule} (hbare : rule.bare = rule'.bare) :
    Action.AlikeUpTo RuleOutcome.bare R (c.resolveRule bundle objects rule)
      (c'.resolveRule bundle objects rule') := by
  have hsource : rule.source = rule'.source :=
    show rule.bare.source = rule'.bare.source by rw [hbare]
  have hdestination : rule.destination = rule'.destination :=
    show rule.bare.destination = rule'.bare.destination by rw [hbare]
  unfold resolveRule
  rw [h.chain, hsource, hdestination]
  split
  · refine (Resolver.alike_resolveBy (h.source.alikeFor _) _ _).bind_upTo fun source => ?_
    refine (Resolver.alike_resolveBy (h.source.alikeFor _) _ _).bind_upTo fun destination => ?_
    refine Action.alikeUpTo_pure ?_
    rw [← outcome_bare, ← outcome_bare, hbare]
  · refine Action.alikeUpTo_pure ?_
    rw [RuleOutcome.bare, RuleOutcome.bare, ← Rule.fail_bare, ← Rule.fail_bare, hbare]

/-- **Resolving the rules of a bundle goes by the bare rules.** -/
theorem Alike.resolveRules_bare (h : c.Alike R c') (bundle : Bundle) {rules rules' : List Rule}
    (hbare : rules.map Rule.bare = rules'.map Rule.bare) (objects : List FlowObject)
    (offset : UInt64) :
    Action.AlikeUpTo Resolution.unversioned R (c.resolveRules bundle rules objects offset)
      (c'.resolveRules bundle rules' objects offset) := by
  unfold Compiler.resolveRules
  rw [h.denyRuleId]
  refine Action.alikeUpTo_bind (Action.alikeUpTo_mapError batchError (Action.alikeUpTo_mapM hbare
    fun rule _ rule' _ hrule => h.resolveRule_bare bundle objects hrule)) ?_
  intro outcomes outcomes' houtcomes
  refine Action.alikeUpTo_pure ?_
  rw [← Resolution.ofOutcomes_bare, ← Resolution.ofOutcomes_bare, houtcomes]

end Alike

end Compiler

/-! ## Groups -/

namespace Evaluation

/-- Bare rules name the objects that the rules name. -/
theorem referencedIds_bare (rules : List Rule) :
    referencedIds (rules.map Rule.bare) = referencedIds rules := by
  unfold referencedIds
  rw [List.flatMap_map]
  rfl

/-- A resolution of a bundle without the versions of its rules. -/
def unversionedOf (p : String × Resolution) : String × Resolution := (p.1, p.2.unversioned)

/-- The lines of a group do not tell versions. -/
theorem groupLines_unversioned (resolutions : List (String × Resolution)) :
    groupLines (resolutions.map unversionedOf) = groupLines resolutions := by
  have hfilter : ((resolutions.map unversionedOf).filter fun r => !r.2.isDefaultDeny) =
      (resolutions.filter fun r => !r.2.isDefaultDeny).map unversionedOf := by
    rw [List.filter_map]
    congr 2
    funext p
    rw [Function.comp_apply, unversionedOf, Resolution.isDefaultDeny_unversioned]
  unfold groupLines
  rw [hfilter, List.flatMap_map, ← List.map_take, List.flatMap_map]
  rfl

namespace GroupEvaluation

/-- The evaluation of a group without the versions of its rules. -/
def unversioned (g : GroupEvaluation) : GroupEvaluation :=
  ⟨g.ruleGroupArn, g.resolutions.map unversionedOf, g.rulesText⟩

theorem of_unversioned (ruleGroupArn : String) (resolutions : List (String × Resolution)) :
    of ruleGroupArn (resolutions.map unversionedOf) = (of ruleGroupArn resolutions).unversioned := by
  unfold of groupText
  rw [groupLines_unversioned]
  rfl

/-- **What is published does not tell versions.** -/
theorem update_unversioned (g : GroupEvaluation) : g.unversioned.update = g.update := by
  unfold update unversioned
  rw [List.map_map]
  rfl

/-- What is stored is the same but for the version. -/
theorem map_unversioned_updatedRules (g : GroupEvaluation) :
    g.updatedRules.map Rule.unversioned =
      g.unversioned.resolutions.flatMap fun p => p.2.rules := by
  unfold updatedRules unversioned
  rw [List.map_flatMap, List.flatMap_map]
  congr 1
  funext p
  rw [List.map_map]
  rfl

end GroupEvaluation

end Evaluation

/-! ## Stores -/

namespace Store

/-- Entries that keep their ids are added in the same place. -/
theorem map_upsert {α : Type} {id : α → String} {f : α → α} (hf : ∀ x, id (f x) = id x) (x : α)
    (xs : List α) : (upsert id x xs).map f = upsert id (f x) (xs.map f) := by
  induction xs with
  | nil => rfl
  | cons y ys ih =>
    rw [List.map_cons, upsert, upsert, hf, hf]
    split
    · rw [List.map_cons]
    · rw [List.map_cons, ih]

/-- Rules that keep their ids are replaced by the same rules. -/
theorem map_replacedBy_of_id {f : Rule → Rule} (hf : ∀ r, (f r).id = r.id) (batch : List Rule)
    (r : Rule) : f (replacedBy batch r) = replacedBy (batch.map f) (f r) := by
  have hid : ((fun x => decide (x.id = (f r).id)) ∘ f) = fun x => decide (x.id = r.id) := by
    funext x
    rw [Function.comp_apply, hf, hf]
  unfold replacedBy
  rw [← List.map_reverse, List.find?_map, hid, Option.getD_map]

namespace Snapshot

/-- The store without what evaluations found. -/
def bare (s : Snapshot) : Snapshot := { s with rules := s.rules.map Rule.bare }

variable (s : Snapshot)

theorem rulesOf_bare (bundleId : String) :
    s.bare.rulesOf bundleId = (s.rulesOf bundleId).map Rule.bare := by
  unfold rulesOf bare
  rw [List.filter_map, sortById_map Rule.id_bare]
  rfl

/-- **Storing goes by bare rules.** -/
theorem putRules_bare (batch : List Rule) :
    (s.putRules batch).bare = s.bare.putRules (batch.map Rule.bare) := by
  unfold putRules
  induction batch generalizing s with
  | nil => rfl
  | cons x xs ih =>
    have hinsert : (s.insertRule x).bare = s.bare.insertRule x.bare := by
      unfold insertRule bare
      rw [map_upsert Rule.id_bare]
    rw [List.map_cons, List.foldl_cons, List.foldl_cons, ih, hinsert]

end Snapshot

end Store

end Firewall
