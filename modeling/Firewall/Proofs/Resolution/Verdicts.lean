/-
# Verdicts

A resolution that succeeds gives back the rules that it was given, each with a verdict.  The verdict
goes by what looking up the two objects of the rule shows, in a fixed order: an unknown object comes
before one without addresses, and the source comes before the destination.  What was found of the
rule before plays no role, and nothing but the verdict is set.

* `Rule.given`, `Rule.FailsWith` : a rule without its verdict, and a verdict with one reason;
* `Compiler.Endpoints`, `Compiler.LooksUp` : what looking up the objects of a rule shows;
* `Rule.Decided` : the verdict on a rule, told from what was shown;
* `Compiler.FindsAll.decidesAll` : every rule of a resolution is decided in this way;
* `Compiler.resolveRules_given` : a resolution reads nothing but what rules were given;
* `Compiler.resolveRules_decided` : the rules of a resolution that succeeds.
-/
import Firewall.Proofs.Evaluation.Findings
import Firewall.Proofs.Numbering
import Firewall.Proofs.Resolver.Outcome

namespace Firewall

/-! ## Rules without their verdict -/

namespace Rule

/-- The rule as it was given, without the status, the reasons and the lines that a resolution
sets. -/
def given (r : Rule) : Rule := { r with status := .pending, failureReasons := [], suricata := none }

/-- The rule failed, for one reason alone. -/
def FailsWith (r : Rule) (reason : String) : Prop :=
  r.status = .failed ∧ r.failureReasons = [reason]

/-- Settling a rule leaves it as it was given. -/
theorem SettledAs.given_eq {r r' : Rule} (h : r.SettledAs r') : r'.given = r.given := by
  cases h <;> rfl

theorem failsWith_fail_iff {r : Rule} {reason reason' : String} :
    (r.fail reason).FailsWith reason' ↔ reason = reason' := by
  simp [FailsWith, fail]

theorem not_failsWith_activate (r : Rule) (lines reason : String) :
    ¬ (r.activate lines).FailsWith reason := by
  rintro ⟨hstatus, -⟩
  cases hstatus

/-- Rules that were given alike read alike, in all that a resolution does not set. -/
theorem map_eq_of_map_given {α : Type} {f : Rule → α} (hf : ∀ r : Rule, f r.given = f r)
    {rules rules' : List Rule} (h : rules.map given = rules'.map given) :
    rules.map f = rules'.map f := by
  have hmap : ∀ rules : List Rule, (rules.map given).map f = rules.map f := by
    intro rules
    rw [List.map_map]
    exact List.map_congr_left fun r _ => hf r
  rw [← hmap, h, hmap]

/-- Rules that differ in their versions at most are the same rules if the versions are the same. -/
theorem eq_of_map_unversioned {rules rules' : List Rule}
    (h : rules.map unversioned = rules'.map unversioned)
    (hversion : rules.map (·.version) = rules'.map (·.version)) : rules = rules' := by
  rw [← List.forall₂_eq_eq_eq, List.forall₂_map_left_iff, List.forall₂_map_right_iff] at h hversion
  rw [← List.forall₂_eq_eq_eq]
  induction h with
  | nil => exact .nil
  | cons hrule _ ih =>
    cases hversion with
    | cons hv hversion => exact .cons (eq_of_unversioned hrule hv) (ih hversion)

end Rule

/-- So are resolutions. -/
theorem Resolution.eq_of_unversioned {r r' : Resolution} (h : r.unversioned = r'.unversioned)
    (hversion : r.rules.map (·.version) = r'.rules.map (·.version)) : r = r' := by
  obtain ⟨hrules, hcompiled⟩ := Resolution.mk.inj h
  exact congrArg₂ Resolution.mk (Rule.eq_of_map_unversioned hrules hversion) hcompiled

/-! ## Looking up the objects of a rule -/

namespace Compiler

/-- What looking up the objects of a rule shows: one of them is unknown, or these are the addresses
on either side. -/
inductive Endpoints
  | unknown
  | found (sources destinations : List String)

variable {σ : Type} (c : Compiler σ) (bundle : Bundle) (objects : List FlowObject)

/-- Looking up the objects of a rule, from one world to the next.  Of objects with one id the last
counts.  The destination is looked up after the source, whether the source has addresses or not. -/
inductive LooksUp (rule : Rule) : σ → Endpoints → σ → Prop
  | unknown {s : σ}
      (h : rule.source ∉ objects.map (·.id) ∨ rule.destination ∉ objects.map (·.id)) :
      LooksUp rule s .unknown s
  | found {s t u : σ} {source destination : FlowObject} {origin target : ResolvedObject}
      (hsource : objectFor? objects rule.source = some source)
      (hdestination : objectFor? objects rule.destination = some destination)
      (horigin : (Resolver.resolveBy c.chain c.source (some bundle) source).perform s =
        (.ok origin, t))
      (htarget : (Resolver.resolveBy c.chain c.source (some bundle) destination).perform t =
        (.ok target, u)) :
      LooksUp rule s (.found origin.addresses target.addresses) u

end Compiler

/-! ## Verdicts -/

namespace Rule

/-- The reason of a rule whose source has no address. -/
def sourceReason (r : Rule) : String := "Can not resolve source object to address " ++ r.source

/-- The reason of a rule whose destination has no address. -/
def destinationReason (r : Rule) : String :=
  "Can not resolve destination object to address " ++ r.destination

theorem unresolvedReference_ne_sourceReason (r : Rule) : unresolvedReference ≠ r.sourceReason := by
  rw [← String.append_empty (s := unresolvedReference)]
  exact append_ne_append 0 (by decide) (by decide) (by decide) _ _

theorem unresolvedReference_ne_destinationReason (r : Rule) :
    unresolvedReference ≠ r.destinationReason := by
  rw [← String.append_empty (s := unresolvedReference)]
  exact append_ne_append 0 (by decide) (by decide) (by decide) _ _

theorem sourceReason_ne_destinationReason (r : Rule) : r.sourceReason ≠ r.destinationReason :=
  append_ne_append 16 (by decide) (by decide) (by decide) _ _

/-- The verdict on a rule, told from what looking up its objects shows. -/
structure Decided (ends : Compiler.Endpoints) (r r' : Rule) : Prop where
  unresolved : r'.FailsWith unresolvedReference ↔ ends = .unknown
  noSource : r'.FailsWith r.sourceReason ↔ ∃ destinations, ends = .found [] destinations
  noDestination : r'.FailsWith r.destinationReason ↔
    ∃ sources, sources ≠ [] ∧ ends = .found sources []
  active : r'.status = .active ∧ r'.failureReasons = [] ↔
    ∃ sources destinations, sources ≠ [] ∧ destinations ≠ [] ∧ ends = .found sources destinations
  settled : r'.status ≠ .pending
  text : r'.status = .failed → r'.suricata = none

section Verdicts

variable (r : Rule) {sources destinations : List String}

theorem decided_unknown : r.Decided .unknown (r.fail unresolvedReference) where
  unresolved := by simp [failsWith_fail_iff]
  noSource := by simp [failsWith_fail_iff, r.unresolvedReference_ne_sourceReason]
  noDestination := by simp [failsWith_fail_iff, r.unresolvedReference_ne_destinationReason]
  active := by simp [fail]
  settled := fun h => by cases h
  text := fun _ => rfl

theorem decided_noSource : r.Decided (.found [] destinations) (r.fail r.sourceReason) where
  unresolved := by simp [failsWith_fail_iff, r.unresolvedReference_ne_sourceReason.symm]
  noSource := by simp [failsWith_fail_iff]
  noDestination := by simp [failsWith_fail_iff, r.sourceReason_ne_destinationReason]
  active := by simp [fail]
  settled := fun h => by cases h
  text := fun _ => rfl

theorem decided_noDestination (hs : sources ≠ []) :
    r.Decided (.found sources []) (r.fail r.destinationReason) where
  unresolved := by simp [failsWith_fail_iff, r.unresolvedReference_ne_destinationReason.symm]
  noSource := by simp [failsWith_fail_iff, r.sourceReason_ne_destinationReason.symm, hs]
  noDestination := by simp [failsWith_fail_iff, hs]
  active := by simp [fail]
  settled := fun h => by cases h
  text := fun _ => rfl

theorem decided_active (hs : sources ≠ []) (hd : destinations ≠ []) (lines : String) :
    r.Decided (.found sources destinations) (r.activate lines) where
  unresolved := by simp [not_failsWith_activate]
  noSource := by simp [not_failsWith_activate, hs]
  noDestination := by simp [not_failsWith_activate, hd]
  active := by simp [activate, hs, hd]
  settled := fun h => by cases h
  text := fun h => by cases h

end Verdicts

end Rule

namespace Compiler

section Decisions

variable {σ : Type} (c : Compiler σ) (bundle : Bundle) (objects : List FlowObject)

/-- Rules with the verdicts on them, as their objects are looked up one after the other. -/
inductive DecidesAll : σ → List Rule → List Rule → σ → Prop
  | nil (s : σ) : DecidesAll s [] [] s
  | cons {s t u : σ} {ends : Endpoints} {rule rule' : Rule} {rules rules' : List Rule}
      (hends : c.LooksUp bundle objects rule s ends t) (h : rule.Decided ends rule')
      (hrest : DecidesAll t rules rules' u) : DecidesAll s (rule :: rules) (rule' :: rules') u

variable {c bundle objects}

/-- An object that was resolved is named by its id in the rule. -/
theorem id_of_resolved {id : String} {o : FlowObject} {r : ResolvedObject} {s t : σ}
    (ho : objectFor? objects id = some o)
    (hr : (Resolver.resolveBy c.chain c.source (some bundle) o).perform s = (.ok r, t)) :
    r.object.id = id := by
  rw [(Resolver.gives_outcome c.source (some bundle) o c.chain s r t hr).object,
    id_of_objectFor? ho]

/-- **What was found for rules decides them.** -/
theorem FindsAll.decidesAll {rules : List Rule} {outcomes : List RuleOutcome} {s t : σ}
    (h : c.FindsAll bundle objects s rules outcomes t) (last : UInt64) :
    c.DecidesAll bundle objects s rules (Resolution.number last outcomes).1 t := by
  induction h generalizing last with
  | nil s => exact .nil s
  | @cons s t u rule rules o outcomes hfinds _ ih =>
    cases hfinds with
    | unknown hunknown =>
      rw [objectFor?_eq_none_iff, objectFor?_eq_none_iff] at hunknown
      exact .cons (.unknown hunknown) rule.decided_unknown (ih last)
    | @noSource _ _ source destination origin target hsource hdestination horigin htarget hnone =>
      have hends := LooksUp.found hsource hdestination horigin htarget
      rw [hnone] at hends
      rw [id_of_resolved hsource horigin]
      exact .cons hends rule.decided_noSource (ih last)
    | noDestination hsource hdestination horigin htarget hsome hnone =>
      have hends := LooksUp.found hsource hdestination horigin htarget
      rw [hnone] at hends
      rw [id_of_resolved hdestination htarget]
      exact .cons hends (rule.decided_noDestination hsome) (ih last)
    | resolved hsource hdestination horigin htarget hsome hsome' =>
      exact .cons (.found hsource hdestination horigin htarget)
        (rule.decided_active hsome hsome' _) (ih _)

end Decisions

/-! ## What a resolution reads of rules -/

variable {σ : Type} (c : Compiler σ)

/-- A resolution that succeeds leaves all rules as they were given. -/
theorem map_given_of_perform {bundle : Bundle} {rules : List Rule} {objects : List FlowObject}
    {offset : UInt64} {r : Resolution} {s t : σ}
    (h : (c.resolveRules bundle rules objects offset).perform s = (.ok r, t)) :
    r.rules.map Rule.given = rules.map Rule.given := by
  have hsettles := (c.settles_of_perform h).rules.flip
  rw [← List.forall₂_eq_eq_eq, List.forall₂_map_left_iff, List.forall₂_map_right_iff]
  exact hsettles.imp fun rule' rule hrule => hrule.given_eq

/-- **A resolution reads nothing but what rules were given**: their status, reasons and lines play
no role. -/
theorem resolveRules_given (bundle : Bundle) {rules rules' : List Rule}
    (h : rules.map Rule.given = rules'.map Rule.given) (objects : List FlowObject) (offset : UInt64)
    (s : σ) :
    (c.resolveRules bundle rules objects offset).perform s =
      (c.resolveRules bundle rules' objects offset).perform s := by
  have hbare : rules.map Rule.bare = rules'.map Rule.bare :=
    Rule.map_eq_of_map_given (fun _ => rfl) h
  obtain ⟨hresult, hworld⟩ := c.alike_refl.resolveRules_bare bundle hbare objects offset s s rfl
  -- without versions the results are the same, and every rule keeps its version
  rcases hr : (c.resolveRules bundle rules objects offset).perform s with ⟨e | r, t⟩ <;>
    rcases hr' : (c.resolveRules bundle rules' objects offset).perform s with ⟨e' | r', t'⟩ <;>
    rw [hr, hr'] at hresult hworld
  · cases hresult
    cases hworld
    rfl
  · cases hresult
  · cases hresult
  · have hgiven : r.rules.map Rule.given = r'.rules.map Rule.given := by
      rw [c.map_given_of_perform hr, c.map_given_of_perform hr', h]
    have hversion : r.rules.map (·.version) = r'.rules.map (·.version) :=
      Rule.map_eq_of_map_given (fun _ => rfl) hgiven
    have hresolution : r = r' := Resolution.eq_of_unversioned (Except.ok.inj hresult) hversion
    cases hworld
    rw [hresolution]

/-! ## The rules of a resolution -/

/-- **Every rule is decided exactly.**  A resolution that succeeds gives back the rules that it was
given, in their order and with nothing changed but their verdicts.  Each verdict is the one told
from what looking up the objects of the rule showed, whatever verdict the rule had before. -/
theorem resolveRules_decided {bundle : Bundle} {rules : List Rule} {objects : List FlowObject}
    {offset : UInt64} {r : Resolution} {s t : σ}
    (h : (c.resolveRules bundle rules objects offset).perform s = (.ok r, t)) :
    c.DecidesAll bundle objects s rules r.rules t ∧
      r.rules.map Rule.given = rules.map Rule.given ∧
      ∀ rules', rules'.map Rule.given = rules.map Rule.given →
        (c.resolveRules bundle rules' objects offset).perform s = (.ok r, t) := by
  refine ⟨?_, c.map_given_of_perform h, ?_⟩
  · obtain ⟨outcomes, hfinds, rfl⟩ := c.ofOutcomes_of_perform h
    exact hfinds.decidesAll offset
  · intro rules' hrules'
    rw [c.resolveRules_given bundle hrules' objects offset s, h]

end Compiler

/-! ## One rule for each verdict -/

namespace Sample

/-- A security group, a literal address, and an object without addresses. -/
def sparseEndpoints : List FlowObject := endpoints ++ [⟨"empty", .tagged []⟩]

/-- One rule for each verdict; all of them had other verdicts before. -/
def judgedRules : List Rule :=
  [⟨"a", "b1", "pass", "tcp", "nobody", .any, "empty", .any, .active, [], none, 3, some "old"⟩,
    ⟨"b", "b1", "pass", "tcp", "empty", .any, "empty", .any, .failed, ["old", "older"], none, 4,
      none⟩,
    ⟨"c", "b1", "pass", "tcp", "host", .any, "empty", .any, .pending, [], none, 5, some "old"⟩,
    ⟨"d", "b1", "pass", "tcp", "host", .any, "group", .any, .failed, ["old"], none, 6, none⟩]

end Sample

/-- The first rule names an unknown object, the second has no address on either side. -/
theorem Compiler.resolveRules_decided_judged :
    ∃ r, (Sample.compiler.resolveRules (.new "b1" "g1" "") Sample.judgedRules
        Sample.sparseEndpoints 0).perform () = (.ok r, ()) ∧
      r.rules.map (fun rule => (rule.id, rule.status, rule.failureReasons, rule.version)) =
        [("a", .failed, [unresolvedReference], 3),
          ("b", .failed, ["Can not resolve source object to address empty"], 4),
          ("c", .failed, ["Can not resolve destination object to address empty"], 5),
          ("d", .active, [], 6)] ∧
      Sample.compiler.DecidesAll (.new "b1" "g1" "") Sample.sparseEndpoints () Sample.judgedRules
        r.rules () ∧
      r.rules.map Rule.given = Sample.judgedRules.map Rule.given ∧
      ∀ rules', rules'.map Rule.given = Sample.judgedRules.map Rule.given →
        (Sample.compiler.resolveRules (.new "b1" "g1" "") rules' Sample.sparseEndpoints 0).perform
          () = (.ok r, ()) := by
  have hverdicts : ((Sample.compiler.resolveRules (.new "b1" "g1" "") Sample.judgedRules
      Sample.sparseEndpoints 0).perform ()).1.toOption.map (fun r =>
        r.rules.map fun rule => (rule.id, rule.status, rule.failureReasons, rule.version)) =
      some [("a", .failed, [unresolvedReference], 3),
        ("b", .failed, ["Can not resolve source object to address empty"], 4),
        ("c", .failed, ["Can not resolve destination object to address empty"], 5),
        ("d", .active, [], 6)] := by
    decide +kernel
  rcases h : (Sample.compiler.resolveRules (.new "b1" "g1" "") Sample.judgedRules
      Sample.sparseEndpoints 0).perform () with ⟨e | r, ⟨⟩⟩
  · rw [h] at hverdicts
    cases hverdicts
  · rw [h] at hverdicts
    exact ⟨r, rfl, Option.some.inj hverdicts, Sample.compiler.resolveRules_decided h⟩

end Firewall
