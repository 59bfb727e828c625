/-
# What is published is what is stored

The text of a group is made from the lines of its resolutions, and its rules are stored one by one.
When every bundle was asked for once, the two agree: the text is made of the texts that the active
rules carry in the store, bundle by bundle, each in the order of rule ids.  Only a group without any
active rule denies all traffic.

* `Evaluation.Resolves.groupLines_eq` : the lines of a group;
* `Store.Snapshot.rulesOf_putRules_resolutions` : what is stored of a resolution;
* `RuleLine.render_ne_empty` : no line is empty;
* `Deployment.evaluate_published` : the text of every update of a successful evaluation.
-/
import Firewall.Proofs.Evaluation.Batch

namespace Firewall

open Evaluation

/-! ## Texts are not empty -/

/-- No line is empty. -/
theorem RuleLine.render_ne_empty (l : RuleLine) : l.render ≠ "" := by
  intro h
  have htoList := congrArg String.toList h
  unfold render at htoList
  rw [String.toList_append] at htoList
  exact absurd (List.append_eq_nil_iff.1 htoList).2 (by decide)

/-- The text of a line that a rule compiles to is not empty. -/
theorem Rule.suricata_ne_empty {r : Rule} {sources destinations : List String} {last : UInt64}
    {l : CompiledRule} (h : l ∈ r.compile sources destinations last) : l.suricata ≠ "" := by
  unfold Rule.compile at h
  obtain ⟨k, hk, rfl⟩ := List.mem_mapIdx.1 h
  exact RuleLine.render_ne_empty _

/-- Lines that are not empty have a text that is not empty. -/
theorem CompiledRule.joinLines_ne_empty {lines : List CompiledRule} (hne : lines ≠ [])
    (h : ∀ l ∈ lines, l.suricata ≠ "") : joinLines lines ≠ "" := by
  obtain ⟨l, ls, rfl⟩ := List.exists_cons_of_ne_nil hne
  have hl := h l List.mem_cons_self
  unfold joinLines
  rw [List.map_cons]
  by_cases hls : ls.map (·.suricata) = []
  · rw [hls, String.intercalate_singleton]
    exact hl
  · rw [String.intercalate_cons_of_ne_nil hls]
    intro hempty
    have htoList := congrArg String.toList hempty
    rw [String.toList_append, String.toList_append, List.append_assoc] at htoList
    exact hl (String.toList_inj.1 (List.append_eq_nil_iff.1 htoList).1)

/-! ## The lines of a group -/

namespace Evaluation.Resolves

variable {denyRuleId : String} {s : Store.Snapshot} {offset : UInt64} {bundles : List Bundle}
  {resolutions : List (String × Resolution)}

/-- The resolutions that do not deny everything have the lines of all active rules. -/
theorem exists_linesOf (h : Resolves denyRuleId s offset bundles resolutions) :
    ∃ lines, Rule.LinesOf (resolutions.flatMap fun r => r.2.rules) lines ∧
      ((resolutions.filter fun r => !r.2.isDefaultDeny).flatMap fun r => r.2.compiled) = lines := by
  induction h with
  | nil => exact ⟨[], .nil, rfl⟩
  | @cons offset b bs r rs hr _ ih =>
    obtain ⟨lines, hlines, hrest⟩ := ih
    obtain ⟨own, hown, hcompiled⟩ := hr.compiled
    refine ⟨own ++ lines, ?_, ?_⟩
    · rw [List.flatMap_cons]
      exact hown.append hlines
    · by_cases hdeny : own = []
      · have hd : r.isDefaultDeny = true := r.isDefaultDeny_iff.2 (hown.eq_nil_iff.1 hdeny)
        rw [List.filter_cons_of_neg (by simp [hd]), hdeny, List.nil_append]
        exact hrest
      · have hd : r.isDefaultDeny = false := by
          rw [Bool.eq_false_iff, ne_eq, r.isDefaultDeny_iff, ← hown.eq_nil_iff]
          exact hdeny
        rw [List.filter_cons_of_pos (by simp [hd]), List.flatMap_cons, hcompiled, if_neg hdeny,
          hrest]

/-- **The lines of a group** are those of its active rules; if there are none, the one line that
denies all traffic. -/
theorem groupLines_eq (h : Resolves denyRuleId s 0 bundles resolutions) (hne : bundles ≠ []) :
    ∃ lines, Rule.LinesOf (resolutions.flatMap fun r => r.2.rules) lines ∧
      groupLines resolutions = if lines = [] then [.denyAll denyRuleId 1] else lines := by
  obtain ⟨lines, hlines, hfilter⟩ := h.exists_linesOf
  refine ⟨lines, hlines, ?_⟩
  simp only [groupLines, hfilter]
  by_cases hnil : lines = []
  · rw [if_pos hnil, if_pos hnil]
    -- no rule of the group is active, so the first bundle has no active rule either
    cases h with
    | nil => exact absurd rfl hne
    | @cons _ b bs r rs hr _ =>
      obtain ⟨own, hown, hcompiled⟩ := hr.compiled
      have hactive := hlines.eq_nil_iff.1 hnil
      rw [List.flatMap_cons, Rule.activeOf_append, List.append_eq_nil_iff,
        ← hown.eq_nil_iff] at hactive
      rw [hactive.1, if_pos rfl] at hcompiled
      rw [List.take_succ_cons, List.take_zero, List.flatMap_cons, List.flatMap_nil, hcompiled]
      rfl
  · rw [if_neg hnil, if_neg hnil]

end Evaluation.Resolves

/-! ## What is stored of a resolution -/

/-- **What is stored of a resolution** is found under its bundle, if no other resolution is stored
for that bundle. -/
theorem Store.Snapshot.rulesOf_putRules_resolutions {s : Snapshot}
    {resolutions : List (String × Resolution)} (hn : (s.rules.map Rule.id).Nodup)
    (hids : (resolutions.map (·.1)).Nodup)
    (h : ∀ p ∈ resolutions, List.Forall₂ Rule.SettledAs (s.rulesOf p.1) p.2.rules)
    {p : String × Resolution} (hp : p ∈ resolutions) :
    (s.putRules (resolutions.flatMap fun q => q.2.rules.map Rule.bump)).rulesOf p.1 =
      p.2.rules.map Rule.bump := by
  -- every rule that is put comes from a stored rule of the bundle that it is put for
  have hfrom : ∀ x ∈ resolutions.flatMap fun q => q.2.rules.map Rule.bump,
      ∃ q ∈ resolutions, x ∈ q.2.rules.map Rule.bump ∧
        ∃ r ∈ s.rulesOf q.1, r.id = x.id ∧ r.bundleId = x.bundleId := by
    intro x hx
    obtain ⟨q, hq, hxq⟩ := List.mem_flatMap.1 hx
    obtain ⟨r', hr', rfl⟩ := List.mem_map.1 hxq
    obtain ⟨r, hr, hrr'⟩ := exists_of_forall₂_of_mem (h q hq) hr'
    exact ⟨q, hq, hxq, r, hr, hrr'.id_eq.symm, hrr'.bundleId_eq.symm⟩
  have hholds : ∀ x ∈ resolutions.flatMap fun q => q.2.rules.map Rule.bump, s.Holds x := by
    intro x hx
    obtain ⟨q, -, -, r, hr, hid, hb⟩ := hfrom x hx
    exact ⟨r, (mem_rulesOf.1 hr).1, hid, hb⟩
  have hsame : (p.2.rules.map Rule.bump).map Rule.id = (s.rulesOf p.1).map Rule.id := by
    rw [List.map_map, ← List.forall₂_eq_eq_eq, List.forall₂_map_left_iff,
      List.forall₂_map_right_iff]
    exact (h p hp).flip.imp fun _ _ hrr' => hrr'.id_eq
  rw [rulesOf_putRules hn hholds]
  refine map_replacedBy ?_ ?_ ?_ ?_
  · rw [List.forall₂_map_right_iff]
    exact (h p hp).imp fun _ _ hrr' => hrr'.id_eq
  · rw [hsame]
    exact nodup_rulesOf hn p.1
  · exact fun r' hr' => List.mem_flatMap.2 ⟨p, hp, hr'⟩
  · intro x hx r hr hxr
    obtain ⟨q, hq, hxq, r₀, hr₀, hid, -⟩ := hfrom x hx
    rw [mem_rulesOf] at hr hr₀
    have hrr₀ : r₀ = r := List.inj_on_of_nodup_map hn hr₀.1 hr.1 (hid.trans hxr)
    have hpq : q.1 = p.1 := by rw [← hr₀.2, hrr₀, hr.2]
    rwa [List.inj_on_of_nodup_map hids hq hp hpq] at hxq

/-! ## Updates -/

/-- What an update says of a group for which some rules are stored. -/
structure Evaluation.Update.Tells (denyRuleId : String) (stored : List Rule) (u : Update) :
    Prop where
  /-- The text is that of the active rules, or else denies all traffic. -/
  text : u.rulesText =
    if Rule.activeOf stored = [] then (CompiledRule.denyAll denyRuleId 1).suricata
    else "\n".intercalate ((Rule.activeOf stored).filterMap Rule.suricata)
  nonempty : u.rulesText ≠ ""
  /-- An active rule carries lines of its own, and so it has a text. -/
  active : ∀ r ∈ Rule.activeOf stored, ∃ own, r.Carries own
  failed : ∀ r ∈ stored, r.status = .failed → r.suricata = none
  /-- If there is an active rule, every line of the text is carried by one. -/
  carried : Rule.activeOf stored ≠ [] → ∃ lines, u.rulesText = CompiledRule.joinLines lines ∧
    ∀ l ∈ lines, ∃ r ∈ Rule.activeOf stored, ∃ own, r.Carries own ∧ l ∈ own

/-- An update whose text is made of the lines of rules tells of those rules. -/
theorem Rule.LinesOf.tells {denyRuleId : String} {stored : List Rule} {lines : List CompiledRule}
    {u : Update} (h : Rule.LinesOf stored lines)
    (htext : u.rulesText =
      CompiledRule.joinLines (if lines = [] then [.denyAll denyRuleId 1] else lines))
    (hfailed : ∀ r ∈ stored, r.status = .failed → r.suricata = none) :
    u.Tells denyRuleId stored := by
  have hlines : ∀ l ∈ lines, l.suricata ≠ "" := by
    intro l hl
    obtain ⟨r, -, own, hown, hlown⟩ := h.exists_carries_of_mem hl
    obtain ⟨sources, destinations, last, rfl⟩ := hown.compiled
    exact Rule.suricata_ne_empty hlown
  -- there are no lines exactly if no rule is active
  refine ⟨?_, ?_, fun r hr => h.exists_carries hr, hfailed, fun hactive => ⟨lines, ?_, ?_⟩⟩
  · rw [htext]
    by_cases hnil : lines = []
    · rw [if_pos hnil, if_pos (h.eq_nil_iff.1 hnil)]
      exact String.intercalate_singleton
    · rw [if_neg hnil, if_neg (mt h.eq_nil_iff.2 hnil), h.joinLines_eq]
  · rw [htext]
    by_cases hnil : lines = []
    · rw [if_pos hnil]
      refine CompiledRule.joinLines_ne_empty (List.cons_ne_nil _ _) fun l hl => ?_
      rw [List.mem_singleton.1 hl]
      exact RuleLine.render_ne_empty _
    · rw [if_neg hnil]
      exact CompiledRule.joinLines_ne_empty hnil hlines
  · rw [htext, if_neg (mt h.eq_nil_iff.1 hactive)]
  · exact fun l hl => h.exists_carries_of_mem hl

namespace Deployment

variable {ω : Type} (d : Deployment ω)

/-- An evaluation is answered with a success exactly if its batch succeeds. -/
theorem evaluateBundles_of_statusOk {request : Request} {response : Response} {w w' : World ω}
    (h : d.evaluator.evaluate request w = (response, w')) (hok : response.statusCode = statusOk) :
    ∃ gs, (d.evaluator.evaluateBundles request.bundleIds).perform w = (.ok gs, w') := by
  unfold Evaluator.evaluate at h
  rcases hb : (d.evaluator.evaluateBundles request.bundleIds).perform w with ⟨e | gs, w₁⟩
  · rw [hb] at h
    cases h
    exact absurd (show statusInternalError = statusOk from hok) (by decide)
  · rw [hb] at h
    cases h
    exact ⟨gs, rfl⟩

section Run

variable {groups : List (String × List Bundle)} {gs : List GroupEvaluation} {w w' : World ω}

/-- **What is stored of the bundles of a group** after all groups were evaluated is what was
resolved for them, if no bundle is in the groups twice. -/
theorem rulesOf_of_resolution (hn : (w.store.rules.map Rule.id).Nodup)
    (hd : groups.Pairwise Bundle.Disjoint)
    (hids : (groups.flatMap fun group => group.2.map (·.id)).Nodup)
    (h : (groups.mapM d.evaluator.evaluateGroup).perform w = (.ok gs, w')) {g : GroupEvaluation}
    (hg : g ∈ gs) {p : String × Resolution} (hp : p ∈ g.resolutions) :
    w'.store.rulesOf p.1 = p.2.rules.map Rule.bump := by
  obtain ⟨heval, -⟩ := d.mapM_evaluateGroup hn hd h
  -- all that was stored is stored as one batch, resolution by resolution
  have hbatch : (gs.flatMap fun g => g.updatedRules) =
      (gs.flatMap fun g => g.resolutions).flatMap fun q => q.2.rules.map Rule.bump :=
    List.flatMap_assoc.symm
  have hfst : (gs.flatMap fun g => g.resolutions).map (·.1) =
      groups.flatMap fun group => group.2.map (·.id) := by
    rw [List.map_flatMap, List.flatMap, List.flatMap]
    congr 1
    rw [← List.forall₂_eq_eq_eq, List.forall₂_map_left_iff, List.forall₂_map_right_iff]
    exact heval.flip.imp fun g group hg => hg.resolutions.map_fst
  rw [d.store_of_mapM hn hd h, hbatch]
  refine Store.Snapshot.rulesOf_putRules_resolutions hn (hfst ▸ hids) ?_
    (List.mem_flatMap.2 ⟨g, hg, hp⟩)
  intro q hq
  obtain ⟨g', hg', hq⟩ := List.mem_flatMap.1 hq
  obtain ⟨group, -, hgroup⟩ := exists_of_forall₂_of_mem heval hg'
  obtain ⟨-, offset, hsettles⟩ := hgroup.resolutions.exists_settles hq
  exact hsettles.rules

/-- The update of a group tells of what is stored for the bundles of the group. -/
theorem tells_of_mapM (hn : (w.store.rules.map Rule.id).Nodup)
    (hd : groups.Pairwise Bundle.Disjoint)
    (hids : (groups.flatMap fun group => group.2.map (·.id)).Nodup)
    (hne : ∀ group ∈ groups, group.2 ≠ [])
    (h : (groups.mapM d.evaluator.evaluateGroup).perform w = (.ok gs, w')) {g : GroupEvaluation}
    (hg : g ∈ gs) :
    ∃ group ∈ groups, g.ruleGroupArn = group.1 ∧
      g.update.Tells d.denyRuleId (group.2.flatMap fun b => w'.store.rulesOf b.id) := by
  obtain ⟨heval, -⟩ := d.mapM_evaluateGroup hn hd h
  obtain ⟨group, hmem, hgroup⟩ := exists_of_forall₂_of_mem heval hg
  refine ⟨group, hmem, hgroup.ruleGroupArn, ?_⟩
  -- the rules that are stored now are those that the lines were made of
  have hstored : (group.2.flatMap fun b => w'.store.rulesOf b.id) =
      (g.resolutions.flatMap fun p => p.2.rules).map Rule.bump := by
    rw [List.map_flatMap, List.flatMap, ← Function.comp_def, ← List.map_map,
      ← hgroup.resolutions.map_fst, List.map_map, List.flatMap]
    congr 1
    exact List.map_congr_left fun p hp => d.rulesOf_of_resolution hn hd hids h hg hp
  obtain ⟨lines, hlines, hgroupLines⟩ := hgroup.resolutions.groupLines_eq (hne group hmem)
  rw [hstored]
  refine hlines.map_bump.tells ?_ ?_
  · have htext : g.update.rulesText = CompiledRule.joinLines (groupLines g.resolutions) :=
      hgroup.rulesText
    rw [htext, hgroupLines]
  · intro r hr hfailed
    obtain ⟨r', hr', rfl⟩ := List.mem_map.1 hr
    obtain ⟨p, hp, hr'⟩ := List.mem_flatMap.1 hr'
    obtain ⟨-, offset, hsettles⟩ := hgroup.resolutions.exists_settles hp
    obtain ⟨r₀, -, hsettled⟩ := exists_of_forall₂_of_mem hsettles.rules hr'
    exact hsettled.suricata_eq_none hfailed

end Run

/-- **The text of every update is that of the rules that are stored**, when a request with different
ids succeeds.  There is one update for each rule group, in the order of first bundles.  Its text is
made of the texts of the active rules, bundle by bundle in the order of the request and rule by rule
in the order of ids; if no rule is active, it denies all traffic. -/
theorem evaluate_published {request : Request} {response : Response} {w w' : World ω}
    (hn : (w.store.rules.map Rule.id).Nodup) (hids : request.bundleIds.Nodup)
    (h : d.evaluator.evaluate request w = (response, w')) (hok : response.statusCode = statusOk) :
    ∃ bundles updates, w.store.Loads request.bundleIds bundles ∧
      w'.published = w.published ++ updates ∧
      updates.map (·.ruleGroupArn) = firstSeen (bundles.map (·.ruleGroupArn)) ∧
      ∀ u ∈ updates, u.Tells d.denyRuleId
        ((Bundle.ofArn u.ruleGroupArn bundles).flatMap fun b => w'.store.rulesOf b.id) := by
  obtain ⟨gs, hbatch⟩ := d.evaluateBundles_of_statusOk h hok
  obtain ⟨bundles, w₁, hload, hrun⟩ := Action.perform_bind_ok_iff.1 hbatch
  have hloads := d.loads_of_perform hload
  have hledger : w₁.ledger = w.ledger :=
    (Action.keeps_mapM d.keeps_load request.bundleIds).of_perform hload
  have hstore₁ : w₁.store = w.store := congrArg Ledger.store hledger
  have hpublished₁ : w₁.published = w.published :=
    congrArg (fun l => l.journal.filterMap Effect.update?) hledger
  rw [← hstore₁] at hn
  rw [← hloads.map_id] at hids
  have hd := hloads.disjoint_groupByArn
  have happlied := d.applied_of_mapM hn hd hrun
  refine ⟨bundles, gs.map (·.update), hloads, ?_, ?_, ?_⟩
  · rw [← hpublished₁]
    exact happlied.published
  · rw [← Bundle.map_fst_groupByArn, ← happlied.ruleGroupArns, List.map_map]
    rfl
  · intro u hu
    obtain ⟨g, hg, rfl⟩ := List.mem_map.1 hu
    obtain ⟨group, hgroup, harn, htells⟩ := d.tells_of_mapM hn hd
      (Bundle.nodup_flatMap_groupByArn hids)
      (fun group hgroup => Bundle.ne_nil_of_mem_groupByArn hgroup) hrun hg
    have hmembers := Bundle.snd_of_mem_groupByArn hgroup
    rw [← harn] at hmembers
    rw [hmembers] at htells
    exact htells

/-- Two groups, one with an active rule and one without any: both are published, and their texts are
those of what is stored. -/
theorem evaluate_published_sample :
    (Sample.world.store.rules.map Rule.id).Nodup ∧ ["b1", "b2"].Nodup ∧
    ∃ response w', (Sample.deployment []).evaluator.evaluate ⟨["b1", "b2"]⟩ Sample.world =
        (response, w') ∧ response.statusCode = statusOk ∧
      ∃ bundles updates, Sample.world.store.Loads ["b1", "b2"] bundles ∧
        w'.published = Sample.world.published ++ updates ∧
        updates.map (·.ruleGroupArn) = firstSeen (bundles.map (·.ruleGroupArn)) ∧
        ∀ u ∈ updates, u.Tells "default-deny-all"
          ((Bundle.ofArn u.ruleGroupArn bundles).flatMap fun b => w'.store.rulesOf b.id) := by
  have hn : (Sample.world.store.rules.map Rule.id).Nodup := by decide
  have hids : ["b1", "b2"].Nodup := by decide
  have hok : ((Sample.deployment []).evaluator.evaluate ⟨["b1", "b2"]⟩
      Sample.world).1.statusCode = statusOk := by
    decide +kernel
  rcases h : (Sample.deployment []).evaluator.evaluate ⟨["b1", "b2"]⟩ Sample.world with
    ⟨response, w'⟩
  rw [h] at hok
  exact ⟨hn, hids, response, w', rfl, hok, evaluate_published (Sample.deployment []) hn hids h hok⟩

end Deployment

end Firewall
