/-
# Evaluation of a batch

A batch is loaded first, and nothing is written before all of it is there.  Then its groups are
stored and published one after the other, until one fails: those before it stay as they are, and
those after it are not touched.

* `Deployment.Loads` : the bundles of a batch;
* `World.Applied` : groups that were stored and published completely;
* `Deployment.Stops` : what a group that fails does;
* `Deployment.evaluateBundles_atomic` : all that a batch can do.
-/
import Firewall.Proofs.Evaluation.Group

namespace Firewall

open Evaluation

/-! ## Loading -/

/-- The bundles that some ids stand for. -/
def Store.Snapshot.Loads (s : Snapshot) (ids : List String) (bundles : List Bundle) : Prop :=
  List.Forall₂ (fun id b => s.bundle? id = some b) ids bundles

namespace Store

namespace Snapshot

variable {s : Snapshot} {ids : List String} {bundles : List Bundle}

/-- A stored bundle is found under its own id. -/
theorem id_of_bundle? {id : String} {b : Bundle} (h : s.bundle? id = some b) : b.id = id := by
  simpa using List.find?_some h

theorem Loads.map_id (h : s.Loads ids bundles) : bundles.map (·.id) = ids := by
  induction h with
  | nil => rfl
  | cons hb _ ih => rw [List.map_cons, ih, id_of_bundle? hb]

/-- Bundles that were loaded are found under their ids. -/
theorem Loads.bundle?_of_mem (h : s.Loads ids bundles) {b : Bundle} (hb : b ∈ bundles) :
    s.bundle? b.id = some b := by
  obtain ⟨id, -, hid⟩ := exists_of_forall₂_of_mem h hb
  rwa [id_of_bundle? hid]

/-- The groups of bundles that were loaded share no bundle, also if an id was given twice. -/
theorem Loads.disjoint_groupByArn (h : s.Loads ids bundles) :
    (Bundle.groupByArn bundles).Pairwise Bundle.Disjoint := by
  refine Bundle.disjoint_groupByArn fun b hb b' hb' hid => ?_
  have hfound := h.bundle?_of_mem hb
  have hfound' := h.bundle?_of_mem hb'
  rw [hid, hfound', Option.some_inj] at hfound
  rw [hfound]

end Snapshot

end Store

/-! ## Groups that were applied -/

/-- Groups were resolved from what the first world stores, and in the second all of them are stored
and published, one after the other, and nothing else was done. -/
structure World.Applied {ω : Type} (w w' : World ω) (groups : List (String × List Bundle))
    (gs : List GroupEvaluation) : Prop where
  /-- There is one update for each group, with the ids of its bundles. -/
  updates : gs.map (fun g => (g.update.ruleGroupArn, g.update.bundleIds)) =
    groups.map fun group => (group.1, group.2.map (·.id))
  /-- All rules of the bundles of a group are stored with it. -/
  ruleIds : gs.map (fun g => g.updatedRules.map Rule.id) =
    groups.map fun group => group.2.flatMap fun b => (w.store.rulesOf b.id).map Rule.id
  /-- Every group is stored and then published, in order. -/
  journal : w'.journal = w.journal ++ gs.flatMap fun g =>
    [.stored g.updatedRules, .published g.update]
  rules : w'.store.rules =
    w.store.rules.map (Store.replacedBy (gs.flatMap fun g => g.updatedRules))
  bundles : w'.store.bundles = w.store.bundles
  objects : w'.store.objects = w.store.objects

namespace World.Applied

variable {ω : Type} {w w' : World ω} {groups : List (String × List Bundle)}
  {gs : List GroupEvaluation}

theorem ruleGroupArns (h : w.Applied w' groups gs) :
    gs.map (·.ruleGroupArn) = groups.map (·.1) := by
  have harns := congrArg (List.map Prod.fst) h.updates
  rw [List.map_map, List.map_map] at harns
  exact harns

/-- One update is published for each group. -/
theorem published (h : w.Applied w' groups gs) :
    w'.published = w.published ++ gs.map (·.update) := by
  have hentries : (gs.flatMap fun g =>
      [Effect.stored g.updatedRules, .published g.update]).filterMap Effect.update? =
        gs.map (·.update) := by
    rw [List.filterMap_flatMap, List.map_eq_flatMap]
    rfl
  rw [World.published, h.journal, List.filterMap_append, hentries]
  rfl

end World.Applied

namespace Deployment

variable {ω : Type} (d : Deployment ω)

/-- Loading writes nothing. -/
theorem loads_of_perform {ids : List String} {bundles : List Bundle} {w w' : World ω}
    (h : (ids.mapM d.evaluator.load).perform w = (.ok bundles, w')) :
    w.store.Loads ids bundles := by
  refine Action.forall₂_of_perform_mapM (P := fun w₁ => w₁.ledger = w.ledger) ?_ rfl h
  intro id b w₁ w₂ hw₁ hb
  have hstore : w₁.store = w.store := congrArg Ledger.store hw₁
  rw [← hstore]
  exact ⟨d.bundle?_of_load hb, ((d.keeps_load id).of_perform hb).trans hw₁⟩

section Run

variable {groups : List (String × List Bundle)} {gs : List GroupEvaluation} {w w' : World ω}

/-- The rules to store for groups are stored already, each for a bundle of one of the groups. -/
theorem holds_of_evaluates
    (h : List.Forall₂ (fun group (g : GroupEvaluation) => g.Evaluates d.denyRuleId w.store group)
      groups gs) {x : Rule} (hx : x ∈ gs.flatMap fun g => g.updatedRules) :
    w.store.Holds x ∧ ∃ group ∈ groups, ∃ b ∈ group.2, x.bundleId = b.id := by
  obtain ⟨g, hg, hx⟩ := List.mem_flatMap.1 hx
  obtain ⟨group, hmem, hgroup⟩ := exists_of_forall₂_of_mem h hg
  obtain ⟨hheld, hb⟩ := hgroup.holds hx
  exact ⟨hheld, group, hmem, hb⟩

/-- What groups that are evaluated make of the store. -/
theorem store_of_mapM (hn : (w.store.rules.map Rule.id).Nodup)
    (hd : groups.Pairwise Bundle.Disjoint)
    (h : (groups.mapM d.evaluator.evaluateGroup).perform w = (.ok gs, w')) :
    w'.store = w.store.putRules (gs.flatMap fun g => g.updatedRules) := by
  obtain ⟨-, hledger⟩ := d.mapM_evaluateGroup hn hd h
  rw [World.store, hledger, Ledger.store_applyAll]
  rfl

/-- **Groups that are evaluated are applied.** -/
theorem applied_of_mapM (hn : (w.store.rules.map Rule.id).Nodup)
    (hd : groups.Pairwise Bundle.Disjoint)
    (h : (groups.mapM d.evaluator.evaluateGroup).perform w = (.ok gs, w')) :
    w.Applied w' groups gs := by
  obtain ⟨heval, hledger⟩ := d.mapM_evaluateGroup hn hd h
  have hstore := d.store_of_mapM hn hd h
  have hholds := fun x hx => (d.holds_of_evaluates heval (x := x) hx).1
  refine ⟨?_, ?_, ?_, ?_, ?_, ?_⟩
  · rw [← List.forall₂_eq_eq_eq, List.forall₂_map_left_iff, List.forall₂_map_right_iff]
    refine heval.flip.imp fun g group hg => ?_
    exact Prod.ext hg.ruleGroupArn hg.resolutions.map_fst
  · rw [← List.forall₂_eq_eq_eq, List.forall₂_map_left_iff, List.forall₂_map_right_iff]
    refine heval.flip.imp fun g group hg => ?_
    rw [← hg.resolutions.map_id_rules, GroupEvaluation.updatedRules_eq, List.map_flatMap]
    congr 1
    funext r
    rw [List.map_map]
    rfl
  · rw [World.journal, hledger, Ledger.journal_applyAll]
    rfl
  · rw [hstore, Store.Snapshot.rules_putRules_of_holds hn hholds]
  · rw [hstore, Store.Snapshot.bundles_putRules]
  · rw [hstore, Store.Snapshot.objects_putRules]

/-- The rules of a bundle that is in none of the groups stay. -/
theorem rulesOf_of_mapM (hn : (w.store.rules.map Rule.id).Nodup)
    (hd : groups.Pairwise Bundle.Disjoint)
    (h : (groups.mapM d.evaluator.evaluateGroup).perform w = (.ok gs, w')) {id : String}
    (hid : ∀ group ∈ groups, ∀ b ∈ group.2, b.id ≠ id) :
    w'.store.rulesOf id = w.store.rulesOf id := by
  obtain ⟨heval, -⟩ := d.mapM_evaluateGroup hn hd h
  rw [d.store_of_mapM hn hd h]
  refine Store.Snapshot.rulesOf_putRules_of_not_mem hn
    (fun x hx => (d.holds_of_evaluates heval hx).1) fun x hx hxid => ?_
  obtain ⟨-, group, hmem, b, hb, hxb⟩ := d.holds_of_evaluates heval hx
  exact hid group hmem b hb (hxb.symm.trans hxid)

end Run

/-! ## Groups that fail -/

/-- What a group that fails does, from the world `w₁` that the groups before it left.  It publishes
nothing.  Unless its update was refused, nothing at all has changed, and its rules are as they were
in the first world; the rules of the groups after it are so in any case. -/
structure Stops (w w₁ w' : World ω) (group : String × List Bundle)
    (later : List (String × List Bundle)) : Prop where
  unpublished : ∃ entries, w'.journal = w₁.journal ++ entries ∧ ∀ u, .published u ∉ entries
  itself : d.PublishRefused group w₁ w' ∨
    w'.ledger = w₁.ledger ∧ ∀ b ∈ group.2, w'.store.rulesOf b.id = w.store.rulesOf b.id
  later : ∀ group' ∈ later, ∀ b ∈ group'.2, w'.store.rulesOf b.id = w.store.rulesOf b.id

/-- **A group that fails** after others were applied. -/
theorem stops_of_error {w w₁ w' : World ω} {earlier later : List (String × List Bundle)}
    {group : String × List Bundle} {gs : List GroupEvaluation} {e : Error}
    (hn : (w.store.rules.map Rule.id).Nodup)
    (hd : (earlier ++ group :: later).Pairwise Bundle.Disjoint)
    (hearlier : (earlier.mapM d.evaluator.evaluateGroup).perform w = (.ok gs, w₁))
    (h : (d.evaluator.evaluateGroup group).perform w₁ = (.error e, w')) :
    d.Stops w w₁ w' group later := by
  obtain ⟨hdearlier, hdgroup, hdboth⟩ := List.pairwise_append.1 hd
  rw [List.pairwise_cons] at hdgroup
  -- the groups before have not touched the rules of this group or of those after it
  have hkept : ∀ group' ∈ group :: later, ∀ b ∈ group'.2,
      w₁.store.rulesOf b.id = w.store.rulesOf b.id := by
    intro group' hgroup' b hb
    refine d.rulesOf_of_mapM hn hdearlier hearlier ?_
    intro before hbefore c hc
    exact hdboth before hbefore group' hgroup' c hc b hb
  rcases d.evaluateGroup_error h with hledger | hrefused
  · have hstore : w'.store = w₁.store := congrArg Ledger.store hledger
    refine ⟨⟨[], ?_, fun u hu => by cases hu⟩, Or.inr ⟨hledger, ?_⟩, ?_⟩
    · rw [World.journal, hledger, List.append_nil]
      rfl
    · rw [hstore]
      exact hkept group List.mem_cons_self
    · rw [hstore]
      exact fun group' hgroup' => hkept group' (List.mem_cons_of_mem _ hgroup')
  · obtain ⟨g, heval, hledger⟩ := hrefused.exists_put
    have hstore : w'.store = w₁.store.putRules g.updatedRules := congrArg Ledger.store hledger
    have hn₁ : (w₁.store.rules.map Rule.id).Nodup := by
      rw [d.store_of_mapM hn hdearlier hearlier, Store.Snapshot.map_id_putRules hn]
      · exact hn
      · intro x hx
        exact (d.holds_of_evaluates (d.mapM_evaluateGroup hn hdearlier hearlier).1 hx).1
    refine ⟨⟨[.stored g.updatedRules], ?_, fun u hu => by simp at hu⟩, Or.inl hrefused, ?_⟩
    · rw [World.journal, hledger]
      rfl
    · intro group' hgroup' b hb
      rw [hstore, ← hkept group' (List.mem_cons_of_mem _ hgroup') b hb]
      refine Store.Snapshot.rulesOf_putRules_of_not_mem hn₁ (fun x hx => (heval.holds hx).1) ?_
      intro x hx hid
      obtain ⟨-, c, hc, hxc⟩ := heval.holds hx
      exact hdgroup.1 group' hgroup' c hc b hb (hxc.symm.trans hid)

/-! ## Batches -/

/-- **A batch is applied group by group, and what is applied is a beginning of its groups.**  If
loading fails, nothing is written.  If the batch succeeds, all groups were stored and published in
the order of their first bundles.  If a group fails, exactly those before it were. -/
theorem evaluateBundles_atomic (ids : List String) (w : World ω)
    (hn : (w.store.rules.map Rule.id).Nodup) :
    (∀ e w₁, (ids.mapM d.evaluator.load).perform w = (.error e, w₁) →
      (d.evaluator.evaluateBundles ids).perform w = (.error e, w₁) ∧ w₁.ledger = w.ledger) ∧
    ∀ bundles w₁, (ids.mapM d.evaluator.load).perform w = (.ok bundles, w₁) →
      w₁.ledger = w.ledger ∧
      (∀ gs w', (d.evaluator.evaluateBundles ids).perform w = (.ok gs, w') →
        gs.map (·.ruleGroupArn) = firstSeen (bundles.map (·.ruleGroupArn)) ∧
        w₁.Applied w' (Bundle.groupByArn bundles) gs) ∧
      ∀ e w', (d.evaluator.evaluateBundles ids).perform w = (.error e, w') →
        ∃ earlier group later gs w₂,
          Bundle.groupByArn bundles = earlier ++ group :: later ∧
          (earlier.mapM d.evaluator.evaluateGroup).perform w₁ = (.ok gs, w₂) ∧
          (d.evaluator.evaluateGroup group).perform w₂ = (.error e, w') ∧
          w₁.Applied w₂ earlier gs ∧ d.Stops w₁ w₂ w' group later := by
  -- loading reads only, so the groups start from the ledger as it was
  have hkeeps := Action.keeps_mapM d.keeps_load ids
  refine ⟨fun e w₁ hload => ⟨Action.perform_bind_of_error hload _, hkeeps.of_perform hload⟩, ?_⟩
  intro bundles w₁ hload
  have hledger : w₁.ledger = w.ledger := hkeeps.of_perform hload
  have hstore : w₁.store = w.store := congrArg Ledger.store hledger
  have hd := (d.loads_of_perform hload).disjoint_groupByArn
  have hbatch : (d.evaluator.evaluateBundles ids).perform w =
      ((Bundle.groupByArn bundles).mapM d.evaluator.evaluateGroup).perform w₁ :=
    Action.perform_bind_of_ok hload _
  rw [← hstore] at hn
  refine ⟨hledger, fun gs w' h => ?_, fun e w' h => ?_⟩
  · have happlied := d.applied_of_mapM hn hd (hbatch ▸ h)
    rw [← Bundle.map_fst_groupByArn, ← happlied.ruleGroupArns]
    exact ⟨rfl, happlied⟩
  · obtain ⟨earlier, group, later, gs, w₂, hgroups, hearlier, hgroup⟩ :=
      Action.perform_mapM_error (hbatch ▸ h)
    rw [hgroups] at hd
    have happlied := d.applied_of_mapM hn (List.pairwise_append.1 hd).1 hearlier
    exact ⟨earlier, group, later, gs, w₂, hgroups, hearlier, hgroup, happlied,
      d.stops_of_error hn hd hearlier hgroup⟩

/-- Two groups, of which the publisher refuses the second: the first was applied, and the batch
stopped at the second. -/
theorem evaluateBundles_atomic_refused :
    (Sample.world.store.rules.map Rule.id).Nodup ∧
    ∃ e w', ((Sample.deployment ["g2"]).evaluator.evaluateBundles ["b1", "b2"]).perform
        Sample.world = (.error e, w') ∧
      ∃ w₁ earlier group later gs w₂,
        Bundle.groupByArn Sample.store.bundles = earlier ++ group :: later ∧
        w₁.Applied w₂ earlier gs ∧ (Sample.deployment ["g2"]).Stops w₁ w₂ w' group later := by
  have hn : (Sample.world.store.rules.map Rule.id).Nodup := by decide
  obtain ⟨-, hloaded⟩ :=
    evaluateBundles_atomic (Sample.deployment ["g2"]) ["b1", "b2"] Sample.world hn
  refine ⟨hn, ?_⟩
  have hload : (["b1", "b2"].mapM (Sample.deployment ["g2"]).evaluator.load).perform
      Sample.world = (.ok Sample.store.bundles, Sample.world) := by
    rfl
  have hfails : ((Sample.deployment ["g2"]).evaluator.evaluateBundles ["b1", "b2"]).perform
      Sample.world |>.1.toOption.isNone = true := by
    decide +kernel
  obtain ⟨-, -, herror⟩ := hloaded _ _ hload
  rcases h : ((Sample.deployment ["g2"]).evaluator.evaluateBundles ["b1", "b2"]).perform
      Sample.world with ⟨e | gs, w'⟩
  · obtain ⟨earlier, group, later, gs, w₂, hgroups, -, -, happlied, hstops⟩ := herror e w' h
    exact ⟨e, w', rfl, _, earlier, group, later, gs, w₂, hgroups, happlied, hstops⟩
  · rw [h] at hfails
    cases hfails

end Deployment

end Firewall
