/-
# Failed rules and their siblings

A rule that failed takes no number and has no line.  So it may be left out: the other rules come to
the same, under the same numbers, as long as the inventory answers as before.  This holds down to
the case that no rule is left, for then there were no lines before either, and all traffic is denied
in both cases.

* `Resolution.LessFailed` : rules and what became of them, less some that failed;
* `Resolution.exists_number_eq` : numbering does not see rules that failed;
* `Compiler.resolveRules_lessFailed` : a resolution without some of the rules that failed.
-/
import Firewall.Proofs.Resolver.Confinement

namespace Firewall

namespace Resolution

/-! ## Leaving out rules that failed -/

/-- Rules with what became of them, and what is left of both when some rules that failed are left
out, at any places. -/
inductive LessFailed : List Rule → List Rule → List Rule → List Rule → Prop
  | nil : LessFailed [] [] [] []
  | keep {rules found rest left : List Rule} (rule rule' : Rule)
      (h : LessFailed rules found rest left) :
      LessFailed (rule :: rules) (rule' :: found) (rule :: rest) (rule' :: left)
  | drop {rules found rest left : List Rule} (rule : Rule) {rule' : Rule}
      (hfailed : rule'.status = .failed) (h : LessFailed rules found rest left) :
      LessFailed (rule :: rules) (rule' :: found) rest left

/-- **Numbering does not see rules that failed.**  The rules that are left have outcomes of their
own, and are numbered as they were among all rules. -/
theorem exists_number_eq {R : Rule → RuleOutcome → Prop}
    (hR : ∀ rule o, R rule o → RuleOutcome.About rule o) {rules : List Rule}
    {outcomes : List RuleOutcome} (h : List.Forall₂ R rules outcomes) {last : UInt64}
    {rest left : List Rule} (hless : LessFailed rules (number last outcomes).1 rest left) :
    ∃ outcomes', List.Forall₂ R rest outcomes' ∧
      number last outcomes' = (left, (number last outcomes).2) := by
  induction h generalizing last rest left with
  | nil =>
    cases hless
    exact ⟨[], .nil, rfl⟩
  | @cons rule o rules outcomes ho _ ih =>
    cases hR rule o ho with
    | failed reason =>
      cases hless with
      | keep _ _ hless =>
        obtain ⟨outcomes', houtcomes', hnumber⟩ := ih hless
        refine ⟨_ :: outcomes', .cons ho houtcomes', ?_⟩
        rw [number, hnumber]
        rfl
      | drop _ _ hless => exact ih hless
    | @resolved sources destinations hs hd =>
      cases hless with
      | keep _ _ hless =>
        obtain ⟨outcomes', houtcomes', hnumber⟩ := ih hless
        refine ⟨_ :: outcomes', .cons ho houtcomes', ?_⟩
        simp only [number]
        rw [hnumber]
      | drop _ hfailed _ => cases hfailed

end Resolution

namespace Compiler

variable {σ : Type} {c : Compiler σ} {P : σ → Prop} {bundle : Bundle} {objects : List FlowObject}

/-- **Rules that failed do not disturb their siblings.**  If a resolution succeeds, then so does
every resolution of the same rules less some that failed, by the same inventory: every rule that is
left comes to the same as before, and the lines are the same, with the same numbers. -/
theorem resolveRules_lessFailed (hsource : c.source.SteadyIn P (some bundle)) {rules : List Rule}
    {offset : UInt64} {r : Resolution} {s t : σ} (hs : P s)
    (h : (c.resolveRules bundle rules objects offset).perform s = (.ok r, t))
    {rest left : List Rule} (hless : Resolution.LessFailed rules r.rules rest left) {u : σ}
    (hu : P u) :
    ∃ v, (c.resolveRules bundle rest objects offset).perform u = (.ok ⟨left, r.compiled⟩, v) := by
  obtain ⟨outcomes, w, houtcomes, hr⟩ := Action.perform_bind_ok_iff.1 h
  cases hr
  rw [Action.perform_mapError_ok_iff] at houtcomes
  have hyields := Action.forall₂_yields (steady_resolveRule hsource objects) hs houtcomes
  have habout : ∀ rule o, Action.Yields P (c.resolveRule bundle objects rule) o →
      RuleOutcome.About rule o := by
    intro rule o ho
    obtain ⟨v, hv, -⟩ := ho s hs
    exact c.about_of_perform hv
  obtain ⟨outcomes', hrest, hnumber⟩ := Resolution.exists_number_eq habout hyields hless
  obtain ⟨v, hv, -⟩ := Action.yields_mapM hrest u hu
  have hresolution : Resolution.ofOutcomes c.denyRuleId offset outcomes' =
      ⟨left, (Resolution.ofOutcomes c.denyRuleId offset outcomes).compiled⟩ := by
    unfold Resolution.ofOutcomes
    rw [hnumber]
  refine ⟨v, ?_⟩
  unfold resolveRules
  rw [Action.perform_bind_of_ok (Action.perform_mapError_ok_iff.2 hv), hresolution]
  rfl

end Compiler

/-! ## A machine and a host -/

namespace Sample

/-- A compiler for catalogues. -/
def catalogueCompiler : Compiler Inventory.Catalogue where
  chain := Resolver.standard
  source := Inventory.Catalogue.source "org"
  denyRuleId := defaultDenyRuleId

/-- A catalogue with the interface of the machine. -/
def oneInterface : Inventory.Catalogue :=
  Inventory.Catalogue.empty.insert "org" (some (machineInterface "10.0.0.5"))

/-- The machine, a host, and an object without addresses. -/
def threeObjects : List FlowObject := [machine, ⟨"host", .address "10.1.0.9"⟩, ⟨"none", .tagged []⟩]

/-- A rule from one object to another. -/
def link (id source destination : String) : Rule :=
  ⟨id, "b1", "pass", "tcp", source, .any, destination, .any, .pending, [], none, 0, none⟩

/-- Rules from the machine to the host and back, and two between them that fail. -/
def links : List Rule :=
  [link "a" "o1" "host", link "b" "none" "o1", link "c" "nobody" "o1", link "d" "host" "o1"]

/-- What becomes of them. -/
def judgedLinks : List Rule :=
  [(link "a" "o1" "host").activate "pass tcp 10.0.0.5 any ->  10.1.0.9 any (msg: \"a\"; sid: 8;)",
    (link "b" "none" "o1").fail "Can not resolve source object to address none",
    (link "c" "nobody" "o1").fail unresolvedReference,
    (link "d" "host" "o1").activate "pass tcp 10.1.0.9 any ->  10.0.0.5 any (msg: \"d\"; sid: 9;)"]

/-- The lines of the two that resolve. -/
def linkLines : List CompiledRule :=
  [⟨"a", 8, "pass tcp 10.0.0.5 any ->  10.1.0.9 any (msg: \"a\"; sid: 8;)"⟩,
    ⟨"d", 9, "pass tcp 10.1.0.9 any ->  10.0.0.5 any (msg: \"d\"; sid: 9;)"⟩]

end Sample

/-- Without one of the failed rules, and in the catalogue that the first resolution left, the other
rules come to the same. -/
theorem Compiler.resolveRules_lessFailed_links :
    ∃ t v, (Sample.catalogueCompiler.resolveRules (.new "b1" "g1" "") Sample.links
        Sample.threeObjects 7).perform Sample.oneInterface =
          (.ok ⟨Sample.judgedLinks, Sample.linkLines⟩, t) ∧
      Resolution.LessFailed Sample.links Sample.judgedLinks (Sample.links.eraseIdx 1)
        (Sample.judgedLinks.eraseIdx 1) ∧
      Sample.catalogueCompiler.source.SteadyIn
        (Inventory.Catalogue.AgreeOn "org" Sample.oneInterface) (some (.new "b1" "g1" "")) ∧
      Inventory.Catalogue.AgreeOn "org" Sample.oneInterface t ∧
      (Sample.catalogueCompiler.resolveRules (.new "b1" "g1" "") (Sample.links.eraseIdx 1)
        Sample.threeObjects 7).perform t =
          (.ok ⟨Sample.judgedLinks.eraseIdx 1, Sample.linkLines⟩, v) := by
  have hresult : ((Sample.catalogueCompiler.resolveRules (.new "b1" "g1" "") Sample.links
      Sample.threeObjects 7).perform Sample.oneInterface).1 =
        .ok ⟨Sample.judgedLinks, Sample.linkLines⟩ := by
    decide +kernel
  rcases h : (Sample.catalogueCompiler.resolveRules (.new "b1" "g1" "") Sample.links
      Sample.threeObjects 7).perform Sample.oneInterface with ⟨result, t⟩
  rw [h] at hresult
  cases hresult
  have hless : Resolution.LessFailed Sample.links Sample.judgedLinks (Sample.links.eraseIdx 1)
      (Sample.judgedLinks.eraseIdx 1) :=
    .keep _ _ (.drop _ rfl (.keep _ _ (.keep _ _ .nil)))
  have haggregator : (Inventory.Catalogue.source "org").aggregatorFor
      (some (.new "b1" "g1" "")) = "org" := rfl
  have hsource : Sample.catalogueCompiler.source.SteadyIn
      (Inventory.Catalogue.AgreeOn "org" Sample.oneInterface) (some (.new "b1" "g1" "")) :=
    Inventory.Catalogue.steadyIn_source haggregator Sample.oneInterface
  have ht : Inventory.Catalogue.AgreeOn "org" Sample.oneInterface t :=
    (Compiler.steady_resolveRules hsource _ _ _).world ⟨rfl, rfl⟩ h
  obtain ⟨v, hv⟩ := Compiler.resolveRules_lessFailed hsource ⟨rfl, rfl⟩ h hless ht
  exact ⟨t, v, rfl, hless, hsource, ht, hv⟩

end Firewall
