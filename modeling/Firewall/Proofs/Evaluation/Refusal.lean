/-
# Refused updates

The rules of a group are stored before its text is published.  So when a group fails, its stored
rules are as they were before, unless it failed with the publisher: then every rule of the group is
stored a version later, with the status and the text that it would have been published with, and
nothing is published.

* `Store.Snapshot.renewed_replacedBy` : what a batch of renewed rules makes of a stored one;
* `Evaluation.GroupEvaluation.Evaluates.forall₂_putRules` : what is stored of a group;
* `Deployment.PublishRefused.rulesOf` : the rules of a group whose update was refused;
* `Deployment.evaluateGroup_refusal` : all that a group that fails can do;
* `Deployment.evaluateGroup_refused_active` : a rule that is active without having been published.
-/
import Firewall.Proofs.Evaluation.Group

namespace Firewall

open Evaluation

/-- A rule as an evaluation stores it: settled, and a version later. -/
def Rule.Renewed (r r' : Rule) : Prop := ∃ settled, r.SettledAs settled ∧ r' = settled.bump

/-- A rule that is stored again is not what it was. -/
theorem Rule.Renewed.ne {r r' : Rule} (h : r.Renewed r') : r' ≠ r := by
  obtain ⟨settled, hsettled, rfl⟩ := h
  intro heq
  have hversion : settled.version + 1 = r.version := congrArg Rule.version heq
  rw [hsettled.version_eq] at hversion
  -- also where the version wraps around
  exact absurd (UInt64.add_eq_left.1 hversion) (by decide)

theorem Rule.Renewed.id_eq {r r' : Rule} (h : r.Renewed r') : r'.id = r.id := by
  obtain ⟨settled, hsettled, rfl⟩ := h
  exact hsettled.id_eq

/-- **A stored rule is renewed** by a batch of renewed rules, if its id is among them. -/
theorem Store.Snapshot.renewed_replacedBy {s : Snapshot} {batch : List Rule}
    (hn : (s.rules.map Rule.id).Nodup) (hbatch : ∀ x ∈ batch, ∃ r ∈ s.rules, r.Renewed x)
    {r : Rule} (hr : r ∈ s.rules) (hid : r.id ∈ batch.map Rule.id) :
    r.Renewed (replacedBy batch r) := by
  obtain ⟨r₀, hr₀, hrenewed⟩ := hbatch _ (replacedBy_mem hid)
  -- the rule that was renewed has the id of this one, so it is this one
  have hsame : r₀.id = r.id := hrenewed.id_eq.symm.trans (id_replacedBy batch r)
  rwa [List.inj_on_of_nodup_map hn hr₀ hr hsame] at hrenewed

namespace Evaluation.GroupEvaluation.Evaluates

variable {denyRuleId : String} {s : Store.Snapshot} {group : String × List Bundle}
  {g : GroupEvaluation}

/-- What is stored of a group are its stored rules, renewed. -/
theorem exists_renewed (h : g.Evaluates denyRuleId s group) {x : Rule} (hx : x ∈ g.updatedRules) :
    ∃ r ∈ s.rules, r.Renewed x := by
  obtain ⟨b, -, r, hr, settled, hsettled, hxr⟩ := h.exists_rule hx
  exact ⟨r, (Store.Snapshot.mem_rulesOf.1 hr).1, settled, hsettled, hxr⟩

/-- All rules of the bundles of a group are stored with it. -/
theorem map_id_updatedRules (h : g.Evaluates denyRuleId s group) :
    g.updatedRules.map Rule.id = group.2.flatMap fun b => (s.rulesOf b.id).map Rule.id := by
  rw [← h.resolutions.map_id_rules, updatedRules_eq, List.map_flatMap]
  congr 1
  funext r
  rw [List.map_map]
  rfl

/-- **What is stored of a group**: each of its rules, renewed. -/
theorem forall₂_putRules (h : g.Evaluates denyRuleId s group) (hn : (s.rules.map Rule.id).Nodup)
    {b : Bundle} (hb : b ∈ group.2) :
    List.Forall₂ Rule.Renewed (s.rulesOf b.id) ((s.putRules g.updatedRules).rulesOf b.id) := by
  rw [Store.Snapshot.rulesOf_putRules hn fun x hx => (h.holds hx).1, List.forall₂_map_right_iff,
    List.forall₂_same]
  intro r hr
  have hid : r.id ∈ g.updatedRules.map Rule.id := by
    rw [h.map_id_updatedRules, List.mem_flatMap]
    exact ⟨b, hb, List.mem_map_of_mem hr⟩
  exact Store.Snapshot.renewed_replacedBy hn (fun x hx => h.exists_renewed hx)
    (Store.Snapshot.mem_rulesOf.1 hr).1 hid

end Evaluation.GroupEvaluation.Evaluates

namespace Deployment

variable {ω : Type} {d : Deployment ω} {group : String × List Bundle} {w w' : World ω}

/-- A group whose update was refused publishes nothing. -/
theorem PublishRefused.published (h : d.PublishRefused group w w') :
    w'.published = w.published := by
  obtain ⟨g, -, hledger⟩ := h.exists_put
  exact (congrArg Ledger.published hledger).trans (Ledger.published_put _ _)

/-- **The rules of a group whose update was refused** are all stored, renewed. -/
theorem PublishRefused.rulesOf (h : d.PublishRefused group w w')
    (hn : (w.store.rules.map Rule.id).Nodup) {b : Bundle} (hb : b ∈ group.2) :
    List.Forall₂ Rule.Renewed (w.store.rulesOf b.id) (w'.store.rulesOf b.id) := by
  obtain ⟨g, heval, hledger⟩ := h.exists_put
  rw [show w'.store = w.store.putRules g.updatedRules from congrArg Ledger.store hledger]
  exact heval.forall₂_putRules hn hb

/-- **A group that fails**, with whatever call it fails.  Unless its update was refused, nothing has
changed.  If its update was refused, nothing is published, and its rules are renewed; so the stored
rules of a group that fails are as they were exactly if its update was not refused, or it has no
rules.  That rules are distinct matters only when they are stored. -/
theorem evaluateGroup_refusal {e : Error}
    (h : (d.evaluator.evaluateGroup group).perform w = (.error e, w')) :
    (¬ d.PublishRefused group w w' → w'.ledger = w.ledger) ∧
    (d.PublishRefused group w w' → w'.published = w.published) ∧
    ((w.store.rules.map Rule.id).Nodup →
      (d.PublishRefused group w w' → ∀ b ∈ group.2,
        List.Forall₂ Rule.Renewed (w.store.rulesOf b.id) (w'.store.rulesOf b.id)) ∧
      ((∀ b ∈ group.2, w'.store.rulesOf b.id = w.store.rulesOf b.id) ↔
        ¬ d.PublishRefused group w w' ∨ ∀ b ∈ group.2, w.store.rulesOf b.id = [])) := by
  have hkept : ¬ d.PublishRefused group w w' → w'.ledger = w.ledger :=
    fun hrefused => (d.evaluateGroup_error h).resolve_right hrefused
  have hstore : ¬ d.PublishRefused group w w' → w'.store = w.store :=
    fun hrefused => congrArg Ledger.store (hkept hrefused)
  refine ⟨hkept, fun hrefused => hrefused.published, fun hn =>
    ⟨fun hrefused b hb => hrefused.rulesOf hn hb, fun hsame => ?_, ?_⟩⟩
  · by_cases hrefused : d.PublishRefused group w w'
    · refine Or.inr fun b hb => ?_
      have hrenewed := hrefused.rulesOf hn hb
      rw [hsame b hb, List.forall₂_same] at hrenewed
      exact List.eq_nil_iff_forall_not_mem.2 fun r hr => (hrenewed r hr).ne rfl
    · exact Or.inl hrefused
  · rintro (hrefused | hnil) b hb
    · rw [hstore hrefused]
    · by_cases hrefused : d.PublishRefused group w w'
      · have hrenewed := hrefused.rulesOf hn hb
        rw [hnil b hb, List.forall₂_nil_left_iff] at hrenewed
        rw [hrenewed, hnil b hb]
      · rw [hstore hrefused]

/-- The publisher refuses `g1`: nothing is published, and the rule of its only bundle is renewed. -/
theorem evaluateGroup_refusal_sample :
    (Sample.world.store.rules.map Rule.id).Nodup ∧
    ∃ e w', ((Sample.deployment ["g1"]).evaluator.evaluateGroup
        ("g1", [.new "b1" "g1" ""])).perform Sample.world = (.error e, w') ∧
      (Sample.deployment ["g1"]).PublishRefused ("g1", [.new "b1" "g1" ""]) Sample.world w' ∧
      w'.published = [] ∧
      List.Forall₂ Rule.Renewed (Sample.store.rulesOf "b1") (w'.store.rulesOf "b1") := by
  have hn : (Sample.world.store.rules.map Rule.id).Nodup := by decide
  have hrefused : (Sample.deployment ["g1"]).PublishRefused ("g1", [.new "b1" "g1" ""])
      Sample.world _ := ⟨_, _, _, .publish "refused", rfl, rfl, rfl⟩
  have hfails : ((Sample.deployment ["g1"]).evaluator.evaluateGroup
      ("g1", [.new "b1" "g1" ""])).perform Sample.world = (.error (.publish "refused"), _) := rfl
  obtain ⟨-, hpublished, hrules⟩ := evaluateGroup_refusal hfails
  exact ⟨hn, _, _, rfl, hrefused, hpublished hrefused,
    (hrules hn).1 hrefused _ List.mem_cons_self⟩

/-- **A rule is active without having been published**: its group fails with a transport error, and
what is stored of the rule has changed. -/
theorem evaluateGroup_refused_active :
    ∃ e w' before after, ((Sample.deployment ["g1"]).evaluator.evaluateGroup
        ("g1", [.new "b1" "g1" ""])).perform Sample.world = (.error e, w') ∧
      e.isTransport = true ∧ w'.published = [] ∧
      Sample.store.rulesOf "b1" = [before] ∧ before.status = .pending ∧ before.version = 0 ∧
      w'.store.rulesOf "b1" = [after] ∧ after.status = .active ∧ after.version = 1 ∧
      after.suricata.isSome = true := by
  refine ⟨.publish "refused", _, _, _, rfl, rfl, rfl, rfl, rfl, rfl, rfl, rfl, rfl, rfl⟩

end Deployment

end Firewall
