/-
# When everything is denied

Three things tell that a resolution denies all traffic: no rule is active, no rule resolved, and the
only line is the one that says so.  The first two are the same, and bring the third with them.  The
third alone does not tell: an active rule may have the id of that line and compile to just its text,
when the inventory gives `any` for the addresses on both sides.  No other line is like it, so where
no rule has this id all three are the same.

The last number tells how many lines there are as long as it fits in 64 bits; after the greatest word
numbers go on from zero, and the greatest number of a line is no longer the last.

* `Rule.LinesOf.of_singleton` : a single line is that of a single active rule;
* `Resolution.activeOf_number_eq_nil_iff` : nothing is active exactly if nothing resolved;
* `Resolution.Coherent`, `Resolution.coherent_ofOutcomes` : how the views of a resolution agree;
* `Compiler.resolveRules_coherent` : the views of every resolution that succeeds;
* `Compiler.views_apart` : an active rule with the line that denies all traffic, and lines that are
  numbered past the greatest word.
-/
import Firewall.Proofs.Evaluation.Sids
import Firewall.Proofs.Resolution.Verdicts

namespace Firewall

/-! ## Lines and their rules -/

namespace Rule

/-- The lines that a rule carries go by its id. -/
theorem Carries.ruleId_eq {r : Rule} {own : List CompiledRule} (h : r.Carries own)
    {l : CompiledRule} (hl : l ∈ own) : l.ruleId = r.id := by
  obtain ⟨sources, destinations, last, rfl⟩ := h.compiled
  obtain ⟨k, hk, rfl⟩ := List.mem_mapIdx.1 hl
  rfl

/-- A single line is that of a single active rule. -/
theorem LinesOf.of_singleton {rules : List Rule} {lines : List CompiledRule}
    (h : LinesOf rules lines) {l : CompiledRule} (hl : lines = [l]) :
    ∃ r, activeOf rules = [r] ∧ r.Carries [l] := by
  induction h with
  | nil => cases hl
  | skip hr _ ih =>
    rw [activeOf_cons_of_not_active hr]
    exact ih hl
  | active hr h _ =>
    -- the rule has a line of its own, so there is none for the others
    obtain ⟨hown, -⟩ | ⟨rfl, hrest⟩ := List.append_eq_singleton_iff.1 hl
    · exact absurd hown hr.nonempty
    · refine ⟨_, ?_, hr⟩
      rw [activeOf_cons_of_active hr.status, h.eq_nil_iff.1 hrest]

end Rule

/-! ## How the views agree -/

/-- The rule of the outcome failed. -/
def RuleOutcome.IsFailed (o : RuleOutcome) : Prop := ∃ rule, o = .failed rule

namespace Resolution

/-- No rule is active exactly if no rule resolved. -/
theorem activeOf_number_eq_nil_iff {rules : List Rule} {outcomes : List RuleOutcome}
    (h : List.Forall₂ RuleOutcome.About rules outcomes) (last : UInt64) :
    Rule.activeOf (number last outcomes).1 = [] ↔ ∀ o ∈ outcomes, o.IsFailed := by
  induction h generalizing last with
  | nil => exact ⟨fun _ => List.forall_mem_nil _, fun _ => rfl⟩
  | @cons rule o rules outcomes ho _ ih =>
    rw [List.forall_mem_cons]
    cases ho with
    | failed reason =>
      have hnot : (rule.fail reason).status ≠ .active := fun hf => by cases hf
      show Rule.activeOf (rule.fail reason :: (number last outcomes).1) = [] ↔ _
      rw [Rule.activeOf_cons_of_not_active hnot, ih last]
      exact ⟨fun hall => ⟨⟨_, rfl⟩, hall⟩, fun hall => hall.2⟩
    | resolved hs hd =>
      constructor
      · intro hnil
        exact absurd ((Rule.activeOf_cons_of_active rfl _).symm.trans hnil) (List.cons_ne_nil _ _)
      · rintro ⟨⟨rule, hrule⟩, -⟩
        cases hrule

/-- How the views of a resolution agree. -/
structure Coherent (denyRuleId : String) (offset : UInt64) (outcomes : List RuleOutcome)
    (r : Resolution) : Prop where
  nonempty : r.compiled ≠ []
  /-- Everything is denied exactly if no rule resolved. -/
  denies : r.isDefaultDeny = true ↔ ∀ o ∈ outcomes, o.IsFailed
  /-- Then the only line is the one that says so. -/
  fallback : r.isDefaultDeny = true → r.compiled = [.denyAll denyRuleId (offset + 1)]
  /-- Only an active rule with the same id may have this very line, and then it is the only active
  rule and has no other line. -/
  lookalike : r.compiled = [.denyAll denyRuleId (offset + 1)] → r.isDefaultDeny = false →
    ∃ rule, Rule.activeOf r.rules = [rule] ∧ rule.id = denyRuleId ∧
      rule.Carries [.denyAll denyRuleId (offset + 1)]
  /-- Else every line belongs to an active rule. -/
  owned : r.isDefaultDeny = false → ∀ l ∈ r.compiled, ∃ rule ∈ Rule.activeOf r.rules,
    l.ruleId = rule.id ∧ ∃ own, rule.Carries own ∧ l ∈ own
  /-- Every active rule has lines, which stand together. -/
  carried : ∀ rule ∈ Rule.activeOf r.rules, ∃ own, rule.Carries own ∧ own ≠ [] ∧
    own <:+: r.compiled
  /-- The last number tells how many lines there are, unless it passes 64 bits. -/
  lastSid : offset.toNat + r.compiled.length < UInt64.size →
    r.lastSid.toNat = offset.toNat + r.compiled.length

/-- **The views of a resolution agree.** -/
theorem coherent_ofOutcomes {rules : List Rule} {outcomes : List RuleOutcome}
    (h : List.Forall₂ RuleOutcome.About rules outcomes) (denyRuleId : String) (offset : UInt64) :
    (ofOutcomes denyRuleId offset outcomes).Coherent denyRuleId offset outcomes := by
  have hconsecutive := consecutive_ofOutcomes h denyRuleId offset
  have hlines := (settles_number h offset).2
  have hactive : (ofOutcomes denyRuleId offset outcomes).isDefaultDeny = false →
      (ofOutcomes denyRuleId offset outcomes).compiled = (number offset outcomes).2 := by
    intro hdeny
    refine if_neg fun hnil => ?_
    rw [(isDefaultDeny_iff _).2 (hlines.eq_nil_iff.1 hnil)] at hdeny
    cases hdeny
  refine ⟨hconsecutive.nonempty, ?_, hconsecutive.deny, ?_, ?_, ?_, hconsecutive.toNat_lastSid⟩
  · rw [isDefaultDeny_iff]
    exact activeOf_number_eq_nil_iff h offset
  · intro hcompiled hdeny
    rw [← hactive hdeny, hcompiled] at hlines
    obtain ⟨rule, hrule, hcarries⟩ := hlines.of_singleton rfl
    exact ⟨rule, hrule, (hcarries.ruleId_eq List.mem_cons_self).symm, hcarries⟩
  · intro hdeny l hl
    rw [hactive hdeny] at hl
    obtain ⟨rule, hrule, own, hown, hlown⟩ := hlines.exists_carries_of_mem hl
    exact ⟨rule, hrule, hown.ruleId_eq hlown, own, hown, hlown⟩
  · intro rule hrule
    have hdeny : (ofOutcomes denyRuleId offset outcomes).isDefaultDeny = false := by
      rw [← Bool.not_eq_true, isDefaultDeny_iff]
      exact List.ne_nil_of_mem hrule
    rw [hactive hdeny]
    obtain ⟨own, hown, hinfix⟩ := hlines.exists_carries_infix hrule
    exact ⟨own, hown, hown.nonempty, hinfix⟩

end Resolution

/-! ## Resolutions that succeed -/

namespace Compiler

variable {σ : Type} (c : Compiler σ)

/-- **The views of a resolution.**  A resolution that succeeds has at least one line, and the number
of the last one is the offset and the number of lines, where that fits in 64 bits.  It denies all
traffic exactly if no rule resolved, and then its only line is the one that says so, under the first
number; otherwise every line belongs to an active rule.  Every active rule has a line, and all rules
stand where they were.  Where no rule has the id of the line that denies all traffic, having just this
line tells that everything is denied. -/
theorem resolveRules_coherent {bundle : Bundle} {rules : List Rule} {objects : List FlowObject}
    {offset : UInt64} {r : Resolution} {s t : σ}
    (h : (c.resolveRules bundle rules objects offset).perform s = (.ok r, t)) :
    (∃ outcomes, c.FindsAll bundle objects s rules outcomes t ∧
      r.Coherent c.denyRuleId offset outcomes) ∧
    r.rules.map Rule.given = rules.map Rule.given ∧
    ((∀ rule ∈ rules, rule.id ≠ c.denyRuleId) →
      (r.isDefaultDeny = true ↔ r.compiled = [.denyAll c.denyRuleId (offset + 1)])) := by
  have hgiven := c.map_given_of_perform h
  obtain ⟨outcomes, hfinds, rfl⟩ := c.ofOutcomes_of_perform h
  have hcoherent := Resolution.coherent_ofOutcomes hfinds.about c.denyRuleId offset
  refine ⟨⟨outcomes, hfinds, hcoherent⟩, hgiven, fun hids => ⟨hcoherent.fallback, ?_⟩⟩
  intro hcompiled
  by_contra hdeny
  obtain ⟨rule, hactive, hid, -⟩ := hcoherent.lookalike hcompiled (Bool.not_eq_true _ ▸ hdeny)
  -- the active rule stands for one that was given, with the same id
  have hrule : rule ∈ Rule.activeOf _ := hactive ▸ List.mem_cons_self
  have hmem : rule.id ∈ rules.map (·.id) := by
    rw [← Rule.map_eq_of_map_given (fun _ => rfl) hgiven]
    exact List.mem_map_of_mem (List.mem_of_mem_filter hrule)
  obtain ⟨given, hgivenmem, hgivenid⟩ := List.mem_map.1 hmem
  exact hids given hgivenmem (hgivenid.trans hid)

end Compiler

/-- Three rules fail, one of which was active before, and everything is denied under number 8. -/
theorem Compiler.resolveRules_coherent_judged :
    ∃ r, (Sample.compiler.resolveRules (.new "b1" "g1" "") (Sample.judgedRules.take 3)
        Sample.sparseEndpoints 7).perform () = (.ok r, ()) ∧
      r.compiled = [.denyAll defaultDenyRuleId 8] ∧ r.isDefaultDeny = true ∧
      (∃ outcomes, Sample.compiler.FindsAll (.new "b1" "g1" "") Sample.sparseEndpoints ()
        (Sample.judgedRules.take 3) outcomes () ∧ r.Coherent defaultDenyRuleId 7 outcomes) ∧
      r.rules.map Rule.given = (Sample.judgedRules.take 3).map Rule.given ∧
      ((∀ rule ∈ Sample.judgedRules.take 3, rule.id ≠ defaultDenyRuleId) →
        (r.isDefaultDeny = true ↔ r.compiled = [.denyAll defaultDenyRuleId 8])) := by
  have hviews : ((Sample.compiler.resolveRules (.new "b1" "g1" "") (Sample.judgedRules.take 3)
      Sample.sparseEndpoints 7).perform ()).1.toOption.map (fun r =>
        (r.compiled, r.isDefaultDeny)) =
      some ([.denyAll defaultDenyRuleId 8], true) := by
    decide +kernel
  obtain ⟨r, ⟨⟩, h, hr⟩ := Action.exists_perform_of_seen hviews
  obtain ⟨hcompiled, hdeny⟩ := Prod.mk.inj hr
  exact ⟨r, h, hcompiled, hdeny, Sample.compiler.resolveRules_coherent h⟩

/-! ## Where the views part -/

namespace Sample

/-- A compiler whose inventory gives `any` as the address of every interface. -/
def openCompiler : Compiler Unit where
  chain := Resolver.standard
  source := ⟨fun _ _ => pure [interface "any"], "org"⟩
  denyRuleId := defaultDenyRuleId

/-- A rule that drops what the machine sends to itself, and has the id of the line that denies all
traffic. -/
def dropRule : Rule :=
  ⟨defaultDenyRuleId, "b1", "drop", "ip", "o1", .any, "o1", .any, .pending, [], none, 0, none⟩

end Sample

/-- **Where the views part.**  The only line may be that of an active rule and still be the one that
denies all traffic.  And past the greatest word numbers go on from zero, so that the greatest of them
is not the last. -/
theorem Compiler.views_apart :
    (∃ r, (Sample.openCompiler.resolveRules (.new "b1" "g1" "") [Sample.dropRule]
          [Sample.machine] 0).perform () = (.ok r, ()) ∧
        r.compiled = [.denyAll Sample.openCompiler.denyRuleId (0 + 1)] ∧
        r.rules.map (·.status) = [.active] ∧
        ¬ (r.isDefaultDeny = true ↔
          r.compiled = [.denyAll Sample.openCompiler.denyRuleId (0 + 1)])) ∧
      ∃ r, (Sample.openCompiler.resolveRules (.new "b1" "g1" "")
          [Sample.dropRule, { Sample.dropRule with id := "r2" }] [Sample.machine]
          18446744073709551614).perform () = (.ok r, ()) ∧
        r.compiled.map (·.sid) = [18446744073709551615, 0] ∧
        r.lastSid ≠ 18446744073709551614 + UInt64.ofNat r.compiled.length := by
  refine ⟨?_, ?_⟩
  · have hviews : ((Sample.openCompiler.resolveRules (.new "b1" "g1" "") [Sample.dropRule]
        [Sample.machine] 0).perform ()).1.toOption.map (fun r =>
          (r.compiled, r.rules.map (·.status), r.isDefaultDeny)) =
        some ([.denyAll Sample.openCompiler.denyRuleId (0 + 1)], [.active], false) := by
      decide +kernel
    obtain ⟨r, ⟨⟩, h, hr⟩ := Action.exists_perform_of_seen hviews
    obtain ⟨hcompiled, hrest⟩ := Prod.mk.inj hr
    obtain ⟨hstatus, hdeny⟩ := Prod.mk.inj hrest
    refine ⟨r, h, hcompiled, hstatus, fun hiff => ?_⟩
    rw [hiff.2 hcompiled] at hdeny
    cases hdeny
  · have hviews : ((Sample.openCompiler.resolveRules (.new "b1" "g1" "")
        [Sample.dropRule, { Sample.dropRule with id := "r2" }] [Sample.machine]
        18446744073709551614).perform ()).1.toOption.map (fun r => r.compiled.map (·.sid)) =
        some [18446744073709551615, 0] := by
      decide +kernel
    obtain ⟨r, ⟨⟩, h, hsids⟩ := Action.exists_perform_of_seen hviews
    have hlength : r.compiled.length = 2 := by
      rw [← List.length_map (·.sid), hsids]
      rfl
    refine ⟨r, h, hsids, ?_⟩
    rw [Resolution.lastSid, hsids, hlength]
    decide

end Firewall
