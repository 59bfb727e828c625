/-
# The lines of a text

The text of a group is its compiled rules, one on each line.  What a rule, an object or the inventory
says is copied into a compiled rule as it is, so a line break in there breaks the line.  A rule can
break its own lines only: the lines of a text are the pieces of its compiled rules, one compiled rule
after the other, and none of them is lost or runs into the next.  As long as nothing that is copied
holds a line break, the lines are the compiled rules.

* `textLines`, `textLines_joinLines` : the lines of a text, and of texts that were joined;
* `flatMap_eq_map_iff` : when every piece is a whole;
* `RuleLine.texts`, `newline_mem_render_iff` : what a line is made of, and what breaks it;
* `CompiledRule.Copies`, `Copies.newline_mem_iff` : the texts that a compiled rule copies;
* `Evaluation.GroupEvaluation.Lined`, `Evaluates.lined` : the lines of a group;
* `Deployment.evaluate_lines` : every group that compiles, and every update that is published.
-/
import Firewall.Proofs.Decimal
import Firewall.Proofs.Evaluation.Published
import Firewall.Proofs.Evaluation.Publishing

namespace Firewall

open Evaluation

/-! ## Lines -/

/-- The lines of a text: what is between its line breaks. -/
def textLines (s : String) : List String := (s.toList.splitOn '\n').map String.ofList

/-- A list falls apart at each mark in it. -/
theorem splitOn_append_cons {α : Type} [BEq α] [LawfulBEq α] (mark : α) (xs ys : List α) :
    (xs ++ mark :: ys).splitOn mark = xs.splitOn mark ++ ys.splitOn mark := by
  rw [List.splitOn_eq_splitOnP, List.splitOn_eq_splitOnP, List.splitOn_eq_splitOnP]
  exact List.splitOnP_append_cons xs ys (beq_self_eq_true mark)

theorem textLines_ne_nil (s : String) : textLines s ≠ [] := by
  unfold textLines
  rw [ne_eq, List.map_eq_nil_iff]
  exact List.splitOn_ne_nil _ _

/-- The lines of two texts with a line break between them are those of the first and those of the
second. -/
theorem textLines_append (s t : String) :
    textLines (s ++ "\n" ++ t) = textLines s ++ textLines t := by
  have hbreak : (s ++ "\n" ++ t).toList = s.toList ++ '\n' :: t.toList := by
    rw [String.toList_append, String.toList_append, List.append_assoc]
    rfl
  unfold textLines
  rw [hbreak, splitOn_append_cons, List.map_append]

/-- A text is a line of its own exactly if there is no line break in it. -/
theorem textLines_eq_singleton_iff {s : String} : textLines s = [s] ↔ '\n' ∉ s.toList := by
  unfold textLines
  constructor
  · intro h hbreak
    -- a text with a line break has two lines at least
    obtain ⟨pre, post, hsplit⟩ := List.append_of_mem hbreak
    have hlength := congrArg List.length h
    rw [hsplit, splitOn_append_cons, List.length_map, List.length_append,
      List.length_singleton] at hlength
    have hpre := List.length_pos_iff.2 (List.splitOn_ne_nil '\n' pre)
    have hpost := List.length_pos_iff.2 (List.splitOn_ne_nil '\n' post)
    omega
  · intro h
    rw [List.splitOn_eq_singleton h, List.map_singleton, String.ofList_toList]

/-- **The lines of joined texts** are their lines one after the other. -/
theorem textLines_joinLines {lines : List CompiledRule} (hne : lines ≠ []) :
    textLines (CompiledRule.joinLines lines) = lines.flatMap fun l => textLines l.suricata := by
  induction lines with
  | nil => exact absurd rfl hne
  | cons l ls ih =>
    by_cases hls : ls = []
    · rw [hls, List.flatMap_singleton, CompiledRule.joinLines, List.map_singleton,
        String.intercalate_singleton]
    · have hjoin : CompiledRule.joinLines (l :: ls) =
          l.suricata ++ "\n" ++ CompiledRule.joinLines ls :=
        String.intercalate_cons_of_ne_nil (by simpa using hls)
      rw [hjoin, textLines_append, ih hls, List.flatMap_cons]

/-- Pieces of which there is one at least for each entry are the entries exactly if each entry is one
piece. -/
theorem flatMap_eq_map_iff {α β : Type} {pieces : α → List β} {whole : α → β}
    (hne : ∀ x, pieces x ≠ []) {xs : List α} :
    xs.flatMap pieces = xs.map whole ↔ ∀ x ∈ xs, pieces x = [whole x] := by
  have hlength : ∀ ys : List α, ys.length ≤ (ys.flatMap pieces).length := by
    intro ys
    induction ys with
    | nil => exact Nat.zero_le _
    | cons y ys ih =>
      have hy := List.length_pos_iff.2 (hne y)
      rw [List.flatMap_cons, List.length_append, List.length_cons]
      omega
  induction xs with
  | nil => simp
  | cons x xs ih =>
    rw [List.flatMap_cons, List.map_cons, List.forall_mem_cons]
    constructor
    · intro h
      obtain ⟨y, ys, hx⟩ := List.exists_cons_of_ne_nil (hne x)
      rw [hx, List.cons_append, List.cons.injEq] at h
      -- the other entries have as many pieces as there are of them, so none is left for this one
      have hnone : ys = [] := by
        have hrest := congrArg List.length h.2
        rw [List.length_append, List.length_map] at hrest
        have := hlength xs
        exact List.length_eq_zero_iff.1 (by omega)
      rw [hnone, List.nil_append] at h
      exact ⟨by rw [hx, hnone, h.1], ih.1 h.2⟩
    · rintro ⟨hx, hxs⟩
      rw [hx, ih.2 hxs, List.singleton_append]

/-! ## What breaks a line -/

namespace RuleLine

/-- What a line copies. -/
def texts (l : RuleLine) : List String :=
  [l.action, l.protocol, l.source, l.sourcePort.text, l.destination, l.destinationPort.text,
    l.message] ++ l.options.flatMap fun o => [o.key, o.value]

theorem newline_not_mem_repr (n : Nat) : '\n' ∉ (Nat.repr n).toList := by
  rw [Nat.toList_repr]
  intro h
  exact absurd (List.all_eq_true.1 (Decimal.all_isDigit_toDigits n) _ h) (by decide)

/-- **A line is broken** exactly if something that it copies holds a line break. -/
theorem newline_mem_render_iff (l : RuleLine) :
    '\n' ∈ l.render.toList ↔ ∃ text ∈ l.texts, '\n' ∈ text.toList := by
  have hoption : ∀ o, '\n' ∈ (optionText o).toList ↔
      '\n' ∈ ([o.key, o.value].flatMap String.toList) := by
    intro o
    simp [optionText]
  have hoptions : '\n' ∈ (String.join (l.options.map optionText)).toList ↔
      '\n' ∈ ((l.options.flatMap fun o => [o.key, o.value]).flatMap String.toList) := by
    rw [String.toList_join, List.flatMap_map, List.flatMap_assoc, List.mem_flatMap,
      List.mem_flatMap]
    simp only [hoption]
  have hsid := newline_not_mem_repr l.sid.toNat
  -- what stands between the copied texts is written without line breaks
  rw [← List.mem_flatMap, texts, List.flatMap_append, List.mem_append, ← hoptions]
  unfold render
  simp only [String.toList_append, List.mem_append, hsid]
  simp [or_assoc]

end RuleLine

/-! ## What lines copy -/

namespace CompiledRule

/-- The texts that a line copies.  The line that denies everything copies its id only; any other is
the line of an active rule, among some rules, for two addresses. -/
inductive Copies (denyRuleId : String) (rules : List Rule) : CompiledRule → List String → Prop
  | deny (sid : UInt64) : Copies denyRuleId rules (denyAll denyRuleId sid) [denyRuleId]
  | rule {r : Rule} (hr : r ∈ Rule.activeOf rules) (sid : UInt64) (source destination : String) :
      Copies denyRuleId rules ⟨r.id, sid, (r.line sid source destination).render⟩
        (r.line sid source destination).texts

variable {denyRuleId : String} {rules : List Rule}

/-- A line is broken by the texts that it copies. -/
theorem Copies.newline_mem_iff {l : CompiledRule} {texts : List String}
    (h : l.Copies denyRuleId rules texts) :
    '\n' ∈ l.suricata.toList ↔ ∃ text ∈ texts, '\n' ∈ text.toList := by
  cases h with
  | deny sid =>
    rw [denyAll, RuleLine.newline_mem_render_iff]
    simp [RuleLine.texts, Port.text]
  | rule hr sid source destination => exact RuleLine.newline_mem_render_iff _

/-- A line that an active rule carries copies texts of this rule. -/
theorem exists_copies {r : Rule} (hr : r ∈ Rule.activeOf rules) {own : List CompiledRule}
    (hown : r.Carries own) {l : CompiledRule} (hl : l ∈ own) :
    ∃ texts, l.Copies denyRuleId rules texts := by
  obtain ⟨sources, destinations, last, rfl⟩ := hown.compiled
  obtain ⟨k, hk, rfl⟩ := List.mem_mapIdx.1 hl
  exact ⟨_, .rule hr _ _ _⟩

end CompiledRule

/-! ## Groups -/

namespace Evaluation

/-- The lines of the text of a group. -/
structure GroupEvaluation.Lined (denyRuleId : String) (g : GroupEvaluation) : Prop where
  /-- They are the pieces of its compiled rules, one compiled rule after the other. -/
  pieces : textLines g.update.rulesText =
    (groupLines g.resolutions).flatMap fun l => textLines l.suricata
  /-- No compiled rule is without a piece. -/
  kept : ∀ l ∈ groupLines g.resolutions, textLines l.suricata ≠ []
  whole : textLines g.update.rulesText = (groupLines g.resolutions).map (·.suricata) ↔
    ∀ l ∈ groupLines g.resolutions, '\n' ∉ l.suricata.toList
  /-- A compiled rule is broken by the texts that it copies, and by nothing else. -/
  broken : ∀ l ∈ groupLines g.resolutions, ∃ texts,
    l.Copies denyRuleId (g.resolutions.flatMap fun p => p.2.rules) texts ∧
      ('\n' ∈ l.suricata.toList ↔ ∃ text ∈ texts, '\n' ∈ text.toList)

/-- A group that was evaluated has lines that copy texts of its rules. -/
theorem GroupEvaluation.Evaluates.lined {denyRuleId : String} {s : Store.Snapshot}
    {group : String × List Bundle} {g : GroupEvaluation} (h : g.Evaluates denyRuleId s group)
    (hne : group.2 ≠ []) : g.Lined denyRuleId := by
  obtain ⟨lines, hlines, hgroupLines⟩ := h.resolutions.groupLines_eq hne
  have hnonempty : groupLines g.resolutions ≠ [] := by
    rw [hgroupLines]
    split
    · exact List.cons_ne_nil _ _
    · next hlines => exact hlines
  have hpieces : textLines g.update.rulesText =
      (groupLines g.resolutions).flatMap fun l => textLines l.suricata := by
    have htext : g.update.rulesText = CompiledRule.joinLines (groupLines g.resolutions) :=
      h.rulesText
    rw [htext, textLines_joinLines hnonempty]
  refine ⟨hpieces, fun l _ => textLines_ne_nil l.suricata, ?_, fun l hl => ?_⟩
  · rw [hpieces, flatMap_eq_map_iff fun l : CompiledRule => textLines_ne_nil l.suricata]
    simp only [textLines_eq_singleton_iff]
  · obtain ⟨texts, htexts⟩ : ∃ texts,
        l.Copies denyRuleId (g.resolutions.flatMap fun p => p.2.rules) texts := by
      rw [hgroupLines] at hl
      split at hl
      · rw [List.mem_singleton.1 hl]
        exact ⟨_, .deny 1⟩
      · obtain ⟨r, hr, own, hown, hlown⟩ := hlines.exists_carries_of_mem hl
        exact CompiledRule.exists_copies hr hown hlown
    exact ⟨texts, htexts, htexts.newline_mem_iff⟩

end Evaluation

namespace Deployment

variable {ω : Type} (d : Deployment ω)

theorem lined_of_compileGroup {ruleGroupArn : String} {bundles : List Bundle}
    {g : GroupEvaluation} {w w' : World ω} (hne : bundles ≠ [])
    (h : (d.evaluator.compileGroup ruleGroupArn bundles).perform w = (.ok g, w')) :
    g.Lined d.denyRuleId := by
  have heval : g.Evaluates d.denyRuleId w.store (ruleGroupArn, bundles) :=
    d.evaluates_of_compileGroup h
  exact heval.lined hne

/-- **The lines of a text are the pieces of its compiled rules**, one compiled rule after the other, in
every group that compiles and in every update that an evaluation publishes, whether it succeeds or
fails.  So no compiled rule is lost or runs into another one.  They are the compiled rules themselves
exactly if none of these is broken, and a compiled rule is broken exactly if a text that it copies is:
the id, the action, the protocol, a port or an option of its rule, or one of its two addresses. -/
theorem evaluate_lines (request : Request) (w : World ω) :
    (∀ ruleGroupArn bundles w₁ g w₂, bundles ≠ [] →
      (d.evaluator.compileGroup ruleGroupArn bundles).perform w₁ = (.ok g, w₂) →
        g.Lined d.denyRuleId) ∧
    ∃ gs : List GroupEvaluation,
      (d.evaluator.evaluate request w).2.published = w.published ++ gs.map (·.update) ∧
        ∀ g ∈ gs, g.Lined d.denyRuleId :=
  ⟨fun _ _ _ _ _ hne h => d.lined_of_compileGroup hne h,
    d.publishes_evaluateBundles (fun _ _ _ _ _ hne h => d.lined_of_compileGroup hne h)
      request.bundleIds w⟩

end Deployment

/-- Nothing in the sample holds a line break, so its one compiled rule is its one line. -/
theorem Deployment.evaluate_lines_sample :
    ∃ g w', ((Sample.deployment []).evaluator.compileGroup "g1" [.new "b1" "g1" ""]).perform
        Sample.world = (.ok g, w') ∧
      textLines g.update.rulesText =
        ["pass tcp 10.0.0.1 any ->  10.0.1.0/24 443 (msg: \"r1\"; sid: 1;)"] ∧
      g.Lined "default-deny-all" := by
  have hlines : (((Sample.deployment []).evaluator.compileGroup "g1" [.new "b1" "g1" ""]).perform
      Sample.world).1.toOption.map (fun g => textLines g.update.rulesText) =
      some ["pass tcp 10.0.0.1 any ->  10.0.1.0/24 443 (msg: \"r1\"; sid: 1;)"] := by
    decide +kernel
  rcases h : ((Sample.deployment []).evaluator.compileGroup "g1" [.new "b1" "g1" ""]).perform
      Sample.world with ⟨e | g, w'⟩
  · rw [h] at hlines
    cases hlines
  · rw [h] at hlines
    have hlined := ((Sample.deployment []).evaluate_lines ⟨[]⟩ Sample.world).1 _ _ _ _ _
      (List.cons_ne_nil _ _) h
    exact ⟨g, w', rfl, Option.some.inj hlines, hlined⟩

/-! ## A protocol with a line break -/

namespace Sample

/-- A protocol that ends a line which passes everything, and starts another. -/
def brokenProtocol : String := "ip any any ->  any any (msg: \"r1\"; sid: 2;)\ndrop tcp"

/-- A world whose only rule has this protocol. -/
def broken : World Unit where
  ledger :=
    { store := { store with rules := store.rules.map fun r => { r with protocol := brokenProtocol } }
      journal := [] }
  outside := ()

end Sample

/-- One compiled rule, and two lines. -/
theorem Deployment.evaluate_lines_broken :
    ∃ g w', ((Sample.deployment []).evaluator.compileGroup "g1" [.new "b1" "g1" ""]).perform
        Sample.broken = (.ok g, w') ∧
      ((Sample.deployment []).evaluator.evaluate ⟨["b1"]⟩ Sample.broken).2.published = [g.update] ∧
      (groupLines g.resolutions).map (·.ruleId) = ["r1"] ∧
      textLines g.update.rulesText =
        ["pass ip any any ->  any any (msg: \"r1\"; sid: 2;)",
          "drop tcp 10.0.0.1 any ->  10.0.1.0/24 443 (msg: \"r1\"; sid: 1;)"] ∧
      textLines g.update.rulesText ≠ (groupLines g.resolutions).map (·.suricata) := by
  have hlines : (((Sample.deployment []).evaluator.compileGroup "g1" [.new "b1" "g1" ""]).perform
      Sample.broken).1.toOption.map (fun g =>
        ((groupLines g.resolutions).map (·.ruleId), textLines g.update.rulesText)) =
      some (["r1"], ["pass ip any any ->  any any (msg: \"r1\"; sid: 2;)",
        "drop tcp 10.0.0.1 any ->  10.0.1.0/24 443 (msg: \"r1\"; sid: 1;)"]) := by
    decide +kernel
  have hpublished :
      ((Sample.deployment []).evaluator.evaluate ⟨["b1"]⟩ Sample.broken).2.published =
        (((Sample.deployment []).evaluator.compileGroup "g1" [.new "b1" "g1" ""]).perform
          Sample.broken).1.toOption.toList.map (·.update) := by
    decide +kernel
  rcases h : ((Sample.deployment []).evaluator.compileGroup "g1" [.new "b1" "g1" ""]).perform
      Sample.broken with ⟨e | g, w'⟩
  · rw [h] at hlines
    cases hlines
  · rw [h] at hlines hpublished
    obtain ⟨hids, htext⟩ := Prod.mk.inj (Option.some.inj hlines)
    refine ⟨g, w', rfl, hpublished, hids, htext, fun heq => ?_⟩
    have hone := congrArg List.length hids
    have htwo := congrArg List.length heq
    rw [List.length_map] at hone
    rw [htext, List.length_map, hone] at htwo
    exact absurd htwo (by decide)

end Firewall
