/-
# Numbers across a group

The bundles of a group are numbered one after the other: each starts after the greatest number of the
one before it.  A bundle that denies everything takes one number too, although its line may be left
out of the text.  So the lines of all bundles together carry `1, 2, 3, …`, and those that are
published are some of them, in order.

Numbers are words of 64 bits.  Whatever a bundle counts from, its lines carry the words that follow;
that the greatest of them is the last, so that the next bundle goes on from there, takes that there
are fewer than `2 ^ 64` lines up to it.

* `Resolution.Consecutive` : the numbers of one resolution;
* `Resolution.consecutive_ofOutcomes`, `Consecutive.lastSid_eq` : the step, one bundle;
* `Evaluation.Chained`, `Evaluator.chained_of_resolveBundles` : the run, bundle after bundle;
* `Evaluation.GroupEvaluation.Numbered` : the numbers of a group and of its text;
* `Deployment.evaluate_sids` : every group that compiles, and every update that is published.
-/
import Mathlib.Data.List.Flatten
import Firewall.Proofs.Evaluation.Publishing
import Firewall.Proofs.Numbering

namespace Firewall

open Evaluation

/-! ## One bundle -/

/-- The text of the line is that of a rule line with the same number. -/
def CompiledRule.ShowsSid (l : CompiledRule) : Prop :=
  ∃ line : RuleLine, l.suricata = line.render ∧ line.sid = l.sid

theorem CompiledRule.showsSid_denyAll (ruleId : String) (sid : UInt64) :
    (denyAll ruleId sid).ShowsSid :=
  ⟨_, rfl, rfl⟩

theorem Flow.showsSid_of_mem {last : UInt64} {flows : List Flow} {l : CompiledRule}
    (h : l ∈ numbered last flows) : l.ShowsSid := by
  obtain ⟨k, hk, rfl⟩ := List.mem_mapIdx.1 h
  exact ⟨flows[k].rule.line (last + 1 + UInt64.ofNat k) flows[k].source flows[k].destination, rfl,
    rfl⟩

namespace Resolution

/-- The lines of a resolution carry the numbers after `offset`, one after the other, and show them.  A
resolution that denies everything has the one line that says so. -/
structure Consecutive (denyRuleId : String) (offset : UInt64) (r : Resolution) : Prop where
  nonempty : r.compiled ≠ []
  sids : r.compiled.map (·.sid) = sidsAfter offset r.compiled.length
  shown : ∀ l ∈ r.compiled, l.ShowsSid
  deny : r.isDefaultDeny = true → r.compiled = [.denyAll denyRuleId (offset + 1)]

/-- **A resolution numbers its lines** one after the other. -/
theorem consecutive_ofOutcomes {rules : List Rule} {outcomes : List RuleOutcome}
    (h : List.Forall₂ RuleOutcome.About rules outcomes) (denyRuleId : String) (offset : UInt64) :
    (ofOutcomes denyRuleId offset outcomes).Consecutive denyRuleId offset := by
  have hlines := (settles_number h offset).2
  have hflows := lines_number offset outcomes
  have hcompiled : (ofOutcomes denyRuleId offset outcomes).compiled =
      if (number offset outcomes).2 = [] then [.denyAll denyRuleId (offset + 1)]
      else (number offset outcomes).2 := rfl
  refine ⟨compiled_ofOutcomes_ne_nil denyRuleId offset outcomes, ?_, ?_, fun hdeny => ?_⟩
  · rw [hcompiled]
    split
    · exact congrArg (fun sid => [sid]) (UInt64.add_zero (offset + 1)).symm
    · rw [hflows, Flow.map_sid_numbered, Flow.length_numbered]
  · rw [hcompiled]
    split
    · intro l hl
      rw [List.mem_singleton.1 hl]
      exact CompiledRule.showsSid_denyAll denyRuleId (offset + 1)
    · intro l hl
      rw [hflows] at hl
      exact Flow.showsSid_of_mem hl
  · rw [hcompiled, if_pos (hlines.eq_nil_iff.2 ((isDefaultDeny_iff _).1 hdeny))]

/-- The greatest of consecutive numbers is the last. -/
theorem foldl_max_range' (first n top : Nat) (h : top ≤ first) :
    (List.range' first (n + 1)).foldl max top = first + n := by
  induction n generalizing first top with
  | zero =>
    simp only [List.range'_succ, List.range'_zero, List.foldl_cons, List.foldl_nil]
    omega
  | succ n ih =>
    rw [List.range'_succ, List.foldl_cons, ih (first + 1) (max top first) (by omega)]
    omega

/-- The greatest of some words is the greatest of the numbers they are. -/
theorem toNat_foldl_max (sids : List UInt64) (top : UInt64) :
    (sids.foldl max top).toNat = (sids.map UInt64.toNat).foldl max top.toNat := by
  induction sids generalizing top with
  | nil => rfl
  | cons sid sids ih => rw [List.foldl_cons, ih, UInt64.toNat_max, List.map_cons, List.foldl_cons]

namespace Consecutive

variable {denyRuleId : String} {offset : UInt64} {r : Resolution}

/-- The numbers of a resolution follow `offset` in `ℕ` too, unless they pass 64 bits. -/
theorem map_toNat_sid (h : r.Consecutive denyRuleId offset)
    (hlen : offset.toNat + r.compiled.length < UInt64.size) :
    r.compiled.map (·.sid.toNat) = List.range' (offset.toNat + 1) r.compiled.length := by
  rw [← map_toNat_sidsAfter hlen, ← h.sids, List.map_map]
  rfl

/-- **The last number of a resolution** tells how many lines it has, unless it passes 64 bits. -/
theorem toNat_lastSid (h : r.Consecutive denyRuleId offset)
    (hlen : offset.toNat + r.compiled.length < UInt64.size) :
    r.lastSid.toNat = offset.toNat + r.compiled.length := by
  obtain ⟨n, hn⟩ := Nat.exists_eq_succ_of_ne_zero (mt List.length_eq_zero_iff.1 h.nonempty)
  have hsids : (r.compiled.map (·.sid)).map UInt64.toNat =
      List.range' (offset.toNat + 1) r.compiled.length := by
    rw [h.sids, map_toNat_sidsAfter hlen]
  rw [lastSid, toNat_foldl_max, hsids, hn]
  exact (foldl_max_range' (offset.toNat + 1) n 0 (Nat.zero_le _)).trans (by omega)

end Consecutive

end Resolution

/-! ## Bundle after bundle -/

namespace Evaluation

/-- Resolutions of which each goes on after the last number of the one before it. -/
inductive Chained (denyRuleId : String) : UInt64 → List (String × Resolution) → Prop
  | nil (offset : UInt64) : Chained denyRuleId offset []
  | cons {offset : UInt64} {id : String} {r : Resolution} {rest : List (String × Resolution)}
      (hr : r.Consecutive denyRuleId offset) (hrest : Chained denyRuleId r.lastSid rest) :
      Chained denyRuleId offset ((id, r) :: rest)

/-- The lines of resolutions, whether they are published or not. -/
def linesOf (resolutions : List (String × Resolution)) : List CompiledRule :=
  resolutions.flatMap fun p => p.2.compiled

theorem length_linesOf_cons (id : String) (r : Resolution) (rest : List (String × Resolution)) :
    (linesOf ((id, r) :: rest)).length = r.compiled.length + (linesOf rest).length := by
  rw [linesOf, List.flatMap_cons, List.length_append, ← linesOf]

namespace Chained

variable {denyRuleId : String} {offset : UInt64} {resolutions : List (String × Resolution)}

/-- **Each resolution starts** after all lines of those before it. -/
theorem consecutive (h : Chained denyRuleId offset resolutions)
    {earlier later : List (String × Resolution)} {p : String × Resolution}
    (hp : resolutions = earlier ++ p :: later) :
    ∃ first, p.2.Consecutive denyRuleId first ∧
      (offset.toNat + (linesOf earlier).length < UInt64.size →
        first.toNat = offset.toNat + (linesOf earlier).length) := by
  induction h generalizing earlier with
  | nil offset => exact absurd hp (by simp)
  | @cons offset id r rest hr hrest ih =>
    cases earlier with
    | nil =>
      cases hp
      exact ⟨offset, hr, fun _ => rfl⟩
    | cons q earlier =>
      cases hp
      obtain ⟨first, hfirst, hcount⟩ := ih rfl
      refine ⟨first, hfirst, fun hlen => ?_⟩
      rw [length_linesOf_cons] at hlen ⊢
      have hlast := hr.toNat_lastSid (by omega)
      rw [hcount (by omega), hlast, Nat.add_assoc]

/-- **All lines together** carry the numbers after the offset, one after the other. -/
theorem sids (h : Chained denyRuleId offset resolutions)
    (hlen : offset.toNat + (linesOf resolutions).length < UInt64.size) :
    (linesOf resolutions).map (·.sid.toNat) =
      List.range' (offset.toNat + 1) (linesOf resolutions).length := by
  induction h with
  | nil offset => rfl
  | @cons offset id r rest hr hrest ih =>
    rw [length_linesOf_cons] at hlen ⊢
    have hlast := hr.toNat_lastSid (by omega)
    have hrest' := ih (by omega)
    rw [hlast] at hrest'
    rw [linesOf] at hrest' ⊢
    rw [List.flatMap_cons, List.map_append, hr.map_toNat_sid (by omega), hrest',
      show offset.toNat + r.compiled.length + 1 = offset.toNat + 1 + 1 * r.compiled.length from by
        omega,
      List.range'_append]
    rfl

end Chained

/-- The lines of a group are some of the lines of its bundles, in order. -/
theorem groupLines_sublist (resolutions : List (String × Resolution)) :
    (groupLines resolutions).Sublist (linesOf resolutions) := by
  simp only [groupLines]
  split
  · exact (List.take_sublist 1 resolutions).flatMap _
  · exact List.filter_sublist.flatMap _

/-- The numbers of the lines of a group, bundle by bundle, and of those in its text.  They count the
lines for as long as there are fewer than `2 ^ 64`. -/
structure GroupEvaluation.Numbered (denyRuleId : String) (g : GroupEvaluation) : Prop where
  /-- The lines of a bundle follow those of the bundles before it, starting from one. -/
  consecutive : ∀ earlier p later, g.resolutions = earlier ++ p :: later →
    ∃ first, p.2.Consecutive denyRuleId first ∧
      ((linesOf earlier).length < UInt64.size → first.toNat = (linesOf earlier).length)
  /-- All lines together are numbered from one on. -/
  all : (linesOf g.resolutions).length < UInt64.size →
    (linesOf g.resolutions).map (·.sid.toNat) = List.range' 1 (linesOf g.resolutions).length
  /-- The text is made of some of these lines in order, so its numbers increase. -/
  text : ∃ lines, g.update.rulesText = CompiledRule.joinLines lines ∧
    lines.Sublist (linesOf g.resolutions) ∧
    ((linesOf g.resolutions).length < UInt64.size → (lines.map (·.sid)).Pairwise (· < ·)) ∧
    ∀ l ∈ lines, l.ShowsSid

/-- The evaluation of a group with chained resolutions is numbered. -/
theorem Chained.numbered {denyRuleId : String} {resolutions : List (String × Resolution)}
    (h : Chained denyRuleId 0 resolutions) (ruleGroupArn : String) :
    (GroupEvaluation.of ruleGroupArn resolutions).Numbered denyRuleId := by
  have hsublist := groupLines_sublist resolutions
  have hzero : (0 : UInt64).toNat = 0 := rfl
  have hall : (linesOf resolutions).length < UInt64.size →
      (linesOf resolutions).map (·.sid.toNat) =
        List.range' 1 (linesOf resolutions).length := by
    intro hlen
    have hsids := h.sids (by omega)
    rwa [hzero, Nat.zero_add] at hsids
  refine ⟨fun earlier p later hp => ?_, hall, groupLines resolutions, rfl, hsublist, ?_, ?_⟩
  · obtain ⟨first, hfirst, hcount⟩ := h.consecutive hp
    rw [hzero, Nat.zero_add] at hcount
    exact ⟨first, hfirst, hcount⟩
  · intro hlen
    have hincreasing : ((groupLines resolutions).map (·.sid.toNat)).Pairwise (· < ·) := by
      refine List.Pairwise.sublist (hsublist.map _) ?_
      rw [hall hlen]
      exact List.pairwise_lt_range'
    rw [List.pairwise_map] at hincreasing ⊢
    exact hincreasing.imp UInt64.lt_iff_toNat_lt.2
  · intro l hl
    obtain ⟨p, hp, hlp⟩ := List.mem_flatMap.1 (hsublist.subset hl)
    obtain ⟨earlier, later, hsplit⟩ := List.append_of_mem hp
    obtain ⟨first, hfirst, -⟩ := h.consecutive hsplit
    exact hfirst.shown l hlp

namespace Evaluator

variable {σ : Type} (e : Evaluator σ)

/-- **Bundles that are resolved** one after the other are chained. -/
theorem chained_of_resolveBundles {offset : UInt64} {bundles : List Bundle}
    {resolutions : List (String × Resolution)} {s t : σ}
    (h : (e.resolveBundles offset bundles).perform s = (.ok resolutions, t)) :
    resolutions.map (·.1) = bundles.map (·.id) ∧
      Chained e.compiler.denyRuleId offset resolutions := by
  induction bundles generalizing offset resolutions s with
  | nil =>
    cases h
    exact ⟨rfl, .nil offset⟩
  | cons b bs ih =>
    obtain ⟨r, u, hr, h⟩ := Action.perform_bind_ok_iff.1 h
    obtain ⟨rest, v, hrest, h⟩ := Action.perform_bind_ok_iff.1 h
    cases h
    obtain ⟨rules, u₁, -, hr⟩ := Action.perform_bind_ok_iff.1 hr
    obtain ⟨objects, u₂, -, hr⟩ := Action.perform_bind_ok_iff.1 hr
    obtain ⟨outcomes, hfinds, rfl⟩ := e.compiler.ofOutcomes_of_perform hr
    have hconsecutive := Resolution.consecutive_ofOutcomes hfinds.about e.compiler.denyRuleId offset
    obtain ⟨hids, hchained⟩ := ih hrest
    exact ⟨congrArg (b.id :: ·) hids, .cons hconsecutive hchained⟩

/-- A group that compiles is numbered. -/
theorem numbered_of_compileGroup {ruleGroupArn : String} {bundles : List Bundle}
    {g : GroupEvaluation} {s t : σ}
    (h : (e.compileGroup ruleGroupArn bundles).perform s = (.ok g, t)) :
    g.resolutions.map (·.1) = bundles.map (·.id) ∧ g.Numbered e.compiler.denyRuleId := by
  obtain ⟨resolutions, u, hres, h⟩ := Action.perform_bind_ok_iff.1 h
  cases h
  obtain ⟨hids, hchained⟩ := e.chained_of_resolveBundles hres
  exact ⟨hids, hchained.numbered ruleGroupArn⟩

end Evaluator

end Evaluation

/-! ## What is published -/

namespace Deployment

variable {ω : Type} (d : Deployment ω)

/-- Between two worlds, only updates of numbered groups were published. -/
def PublishesNumbered (w w' : World ω) : Prop :=
  ∃ gs : List GroupEvaluation, w'.published = w.published ++ gs.map (·.update) ∧
    ∀ g ∈ gs, g.Numbered d.denyRuleId

/-- Evaluating bundles publishes numbered groups only. -/
theorem leads_evaluateBundles (ids : List String) :
    Action.Leads d.PublishesNumbered (d.evaluator.evaluateBundles ids) :=
  d.publishes_evaluateBundles
    (fun _ _ _ _ _ _ h => (d.evaluator.numbered_of_compileGroup h).2) ids

/-- **No two lines of a group share a number.**  In every group that compiles, the lines of each bundle
carry the numbers that follow those of all bundles before it, starting from one, and every text that
an evaluation publishes, whether the evaluation succeeds or fails, is made of lines whose numbers
increase from the first to the last. -/
theorem evaluate_sids (request : Request) (w : World ω) :
    (∀ ruleGroupArn bundles w₁ g w₂,
      (d.evaluator.compileGroup ruleGroupArn bundles).perform w₁ = (.ok g, w₂) →
        g.resolutions.map (·.1) = bundles.map (·.id) ∧ g.Numbered d.denyRuleId) ∧
    ∃ gs : List GroupEvaluation,
      (d.evaluator.evaluate request w).2.published = w.published ++ gs.map (·.update) ∧
        ∀ g ∈ gs, g.Numbered d.denyRuleId :=
  ⟨fun _ _ _ _ _ h => d.evaluator.numbered_of_compileGroup h,
    d.leads_evaluateBundles request.bundleIds w⟩

end Deployment

/-! ## A group with bundles that deny everything -/

namespace Sample

/-- Four bundles of one rule group; the second and the last have a rule each, the others none. -/
def sparse : World Unit where
  ledger :=
    { store :=
        { store with
          bundles := ["b0", "b1", "b2", "b3"].map fun id => .new id "g1" ""
          rules := store.rules ++ [⟨"r3", "b3", "drop", "ip", "o2", .any, "o1", .any, .pending, [],
            none, 0, none⟩] }
      journal := [] }
  outside := ()

end Sample

/-- Two bundles without rules take a number each, and the text leaves out their lines. -/
theorem Deployment.evaluate_sids_sparse :
    ∃ g w', ((Sample.deployment []).evaluator.compileGroup "g1" Sample.sparse.store.bundles).perform
        Sample.sparse = (.ok g, w') ∧
      g.resolutions.map (fun p => p.2.compiled.map (·.sid)) = [[1], [2], [3], [4]] ∧
      (groupLines g.resolutions).map (·.sid) = [2, 4] ∧
      g.resolutions.map (·.1) = Sample.sparse.store.bundles.map (·.id) ∧
      g.Numbered "default-deny-all" := by
  have hlines : (((Sample.deployment []).evaluator.compileGroup "g1"
      Sample.sparse.store.bundles).perform Sample.sparse).1.toOption.map (fun g =>
        (g.resolutions.map (fun p => p.2.compiled.map (·.sid)),
          (groupLines g.resolutions).map (·.sid))) = some ([[1], [2], [3], [4]], [2, 4]) := by
    decide +kernel
  rcases h : ((Sample.deployment []).evaluator.compileGroup "g1"
      Sample.sparse.store.bundles).perform Sample.sparse with ⟨e | g, w'⟩
  · rw [h] at hlines
    cases hlines
  · rw [h] at hlines
    obtain ⟨hall, htext⟩ := Prod.mk.inj (Option.some.inj hlines)
    have hgroup := ((Sample.deployment []).evaluate_sids ⟨[]⟩ Sample.sparse).1 _ _ _ _ _ h
    exact ⟨g, w', rfl, hall, htext, hgroup⟩

end Firewall
