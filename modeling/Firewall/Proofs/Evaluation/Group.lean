/-
# Evaluation of groups

A group is resolved from what is stored, before anything is written; then its rules are stored in
one call and its text is published.  So an evaluation either leaves the ledger alone, or fails with
the publisher after its rules were stored, or does both.  Groups of different bundles do not disturb
each other: each is resolved from the rules that were stored before any of them.

* `Evaluation.Resolves`, `GroupEvaluation.Evaluates` : what was resolved, from which rules;
* `Deployment.evaluateGroup_cases` : the step, one group;
* `Deployment.mapM_evaluateGroup` : the run, group after group;
* `Ledger.applyAll` : what the run makes of the ledger.
-/
import Firewall.Proofs.Evaluation.Compiling
import Firewall.Proofs.Grouping
import Firewall.Proofs.Store.Rules

namespace Firewall

namespace Evaluation

/-! ## Resolutions of bundles -/

/-- Resolutions of bundles by the rules in a store, each with the sids after those of the one
before. -/
inductive Resolves (denyRuleId : String) (s : Store.Snapshot) :
    UInt64 → List Bundle → List (String × Resolution) → Prop
  | nil (offset : UInt64) : Resolves denyRuleId s offset [] []
  | cons {offset : UInt64} {b : Bundle} {bs : List Bundle} {r : Resolution}
      {rs : List (String × Resolution)}
      (hr : Resolution.Settles denyRuleId offset (s.rulesOf b.id) r)
      (hrs : Resolves denyRuleId s r.lastSid bs rs) :
      Resolves denyRuleId s offset (b :: bs) ((b.id, r) :: rs)

namespace Resolves

variable {denyRuleId : String} {s s' : Store.Snapshot} {offset : UInt64} {bundles : List Bundle}
  {resolutions : List (String × Resolution)}

/-- Only the rules of the bundles matter. -/
theorem congr (h : Resolves denyRuleId s offset bundles resolutions)
    (hs : ∀ b ∈ bundles, s'.rulesOf b.id = s.rulesOf b.id) :
    Resolves denyRuleId s' offset bundles resolutions := by
  induction h with
  | nil offset => exact .nil offset
  | @cons offset b bs r rs hr hrs ih =>
    have hb := hs b List.mem_cons_self
    exact .cons (hb ▸ hr) (ih fun c hc => hs c (List.mem_cons_of_mem b hc))

theorem map_fst (h : Resolves denyRuleId s offset bundles resolutions) :
    resolutions.map (·.1) = bundles.map (·.id) := by
  induction h with
  | nil => rfl
  | cons _ _ ih => rw [List.map_cons, List.map_cons, ih]

/-- The rules that were resolved are all rules of the bundles, bundle by bundle. -/
theorem map_id_rules (h : Resolves denyRuleId s offset bundles resolutions) :
    (resolutions.flatMap fun r => r.2.rules.map Rule.id) =
      bundles.flatMap fun b => (s.rulesOf b.id).map Rule.id := by
  induction h with
  | nil => rfl
  | @cons offset b bs r rs hr _ ih =>
    rw [List.flatMap_cons, List.flatMap_cons, ih]
    congr 1
    rw [← List.forall₂_eq_eq_eq, List.forall₂_map_left_iff, List.forall₂_map_right_iff]
    exact hr.rules.flip.imp fun _ _ hrr' => hrr'.id_eq

/-- Every resolution settles the rules of one of the bundles. -/
theorem exists_settles (h : Resolves denyRuleId s offset bundles resolutions) {id : String}
    {r : Resolution} (hr : (id, r) ∈ resolutions) :
    (∃ b ∈ bundles, b.id = id) ∧
      ∃ offset, Resolution.Settles denyRuleId offset (s.rulesOf id) r := by
  induction h with
  | nil => cases hr
  | @cons offset b bs r' rs hr' _ ih =>
    rcases List.mem_cons.1 hr with hr | hr
    · cases hr
      exact ⟨⟨b, List.mem_cons_self, rfl⟩, offset, hr'⟩
    · obtain ⟨⟨c, hc, hid⟩, hsettles⟩ := ih hr
      exact ⟨⟨c, List.mem_cons_of_mem b hc, hid⟩, hsettles⟩

end Resolves

/-! ## Evaluations of groups -/

namespace GroupEvaluation

/-- What the evaluation of a group is, when it is resolved by the rules in a store. -/
structure Evaluates (denyRuleId : String) (s : Store.Snapshot) (group : String × List Bundle)
    (g : GroupEvaluation) : Prop where
  ruleGroupArn : g.ruleGroupArn = group.1
  resolutions : Resolves denyRuleId s 0 group.2 g.resolutions
  rulesText : g.rulesText = groupText g.resolutions

theorem updatedRules_eq (g : GroupEvaluation) :
    g.updatedRules = g.resolutions.flatMap fun r => r.2.rules.map Rule.bump := rfl

namespace Evaluates

variable {denyRuleId : String} {s s' : Store.Snapshot} {group : String × List Bundle}
  {g : GroupEvaluation}

/-- Only the rules of the bundles of the group matter. -/
theorem congr (h : Evaluates denyRuleId s group g)
    (hs : ∀ b ∈ group.2, s'.rulesOf b.id = s.rulesOf b.id) : Evaluates denyRuleId s' group g :=
  ⟨h.ruleGroupArn, h.resolutions.congr hs, h.rulesText⟩

/-- A rule to store comes from a stored rule of a bundle of the group. -/
theorem exists_rule (h : Evaluates denyRuleId s group g) {x : Rule} (hx : x ∈ g.updatedRules) :
    ∃ b ∈ group.2, ∃ r ∈ s.rulesOf b.id, ∃ r', r.SettledAs r' ∧ x = r'.bump := by
  rw [updatedRules_eq, List.mem_flatMap] at hx
  obtain ⟨⟨id, resolution⟩, hmem, hx⟩ := hx
  obtain ⟨r', hr', rfl⟩ := List.mem_map.1 hx
  obtain ⟨⟨b, hb, rfl⟩, offset, hsettles⟩ := h.resolutions.exists_settles hmem
  obtain ⟨r, hr, hrr'⟩ := exists_of_forall₂_of_mem hsettles.rules hr'
  exact ⟨b, hb, r, hr, r', hrr', rfl⟩

/-- A rule to store is stored already, for a bundle of the group. -/
theorem holds (h : Evaluates denyRuleId s group g) {x : Rule} (hx : x ∈ g.updatedRules) :
    s.Holds x ∧ ∃ b ∈ group.2, x.bundleId = b.id := by
  obtain ⟨b, hb, r, hr, r', hrr', rfl⟩ := h.exists_rule hx
  rw [Store.Snapshot.mem_rulesOf] at hr
  have hbundleId : r'.bump.bundleId = r.bundleId := hrr'.bundleId_eq
  exact ⟨⟨r, hr.1, hrr'.id_eq.symm, hbundleId.symm⟩, b, hb, hbundleId.trans hr.2⟩

end Evaluates

end GroupEvaluation

end Evaluation

open Evaluation

/-! ## What groups make of a ledger -/

namespace Ledger

/-- What the journal says of a group that was stored and published. -/
def entriesOf (g : GroupEvaluation) : List Effect := [.stored g.updatedRules, .published g.update]

/-- The ledger after groups were stored and published, one after the other. -/
def applyAll (l : Ledger) (gs : List GroupEvaluation) : Ledger := gs.foldl apply l

theorem store_applyAll (l : Ledger) (gs : List GroupEvaluation) :
    (l.applyAll gs).store = l.store.putRules (gs.flatMap fun g => g.updatedRules) := by
  induction gs generalizing l with
  | nil => rfl
  | cons g gs ih =>
    unfold applyAll at ih ⊢
    rw [List.foldl_cons, ih, List.flatMap_cons]
    unfold Store.Snapshot.putRules
    rw [List.foldl_append]
    rfl

theorem journal_applyAll (l : Ledger) (gs : List GroupEvaluation) :
    (l.applyAll gs).journal = l.journal ++ gs.flatMap entriesOf := by
  induction gs generalizing l with
  | nil => exact (List.append_nil _).symm
  | cons g gs ih =>
    unfold applyAll at ih ⊢
    have happly : (l.apply g).journal = l.journal ++ entriesOf g :=
      List.append_assoc _ _ _
    rw [List.foldl_cons, ih, List.flatMap_cons, happly, List.append_assoc]

end Ledger

/-! ## The step -/

namespace Deployment

variable {ω : Type} (d : Deployment ω)

/-- A bundle that is loaded is the stored one. -/
theorem bundle?_of_load {id : String} {b : Bundle} {w w' : World ω}
    (h : (d.evaluator.load id).perform w = (.ok b, w')) : w.store.bundle? id = some b := by
  obtain ⟨found, w₁, hfound, h⟩ := Action.perform_bind_ok_iff.1 h
  have hread := d.perform_call_ok hfound
  cases found with
  | none => cases h
  | some b' =>
    cases h
    exact Except.ok.inj (Prod.mk.inj hread).1

theorem settles_of_resolveBundle {offset : UInt64} {b : Bundle} {r : Resolution} {w w' : World ω}
    (h : (d.evaluator.resolveBundle offset b).perform w = (.ok r, w')) :
    Resolution.Settles d.denyRuleId offset (w.store.rulesOf b.id) r := by
  obtain ⟨rules, w₁, hrules, h⟩ := Action.perform_bind_ok_iff.1 h
  obtain ⟨objects, w₂, -, h⟩ := Action.perform_bind_ok_iff.1 h
  have hread := d.perform_call_ok hrules
  have hstored : w.store.rulesOf b.id = rules := Except.ok.inj (Prod.mk.inj hread).1
  rw [hstored]
  exact d.compiler.settles_of_perform h

theorem resolves_of_resolveBundles {offset : UInt64} {bundles : List Bundle}
    {resolutions : List (String × Resolution)} {w w' : World ω}
    (h : (d.evaluator.resolveBundles offset bundles).perform w = (.ok resolutions, w')) :
    Resolves d.denyRuleId w.store offset bundles resolutions := by
  induction bundles generalizing offset resolutions w with
  | nil =>
    cases h
    exact .nil offset
  | cons b bs ih =>
    obtain ⟨r, w₁, hr, h⟩ := Action.perform_bind_ok_iff.1 h
    obtain ⟨rest, w₂, hrest, h⟩ := Action.perform_bind_ok_iff.1 h
    cases h
    have hledger : w₁.ledger = w.ledger := (d.keeps_resolveBundle offset b).of_perform hr
    have hstore : w₁.store = w.store := congrArg Ledger.store hledger
    refine .cons (d.settles_of_resolveBundle hr) ?_
    rw [← hstore]
    exact ih hrest

/-- **A group is compiled from what is stored.** -/
theorem evaluates_of_compileGroup {group : String × List Bundle} {g : GroupEvaluation}
    {w w' : World ω}
    (h : (d.evaluator.compileGroup group.1 group.2).perform w = (.ok g, w')) :
    g.Evaluates d.denyRuleId w.store group := by
  obtain ⟨resolutions, w₁, hres, h⟩ := Action.perform_bind_ok_iff.1 h
  cases h
  exact ⟨rfl, d.resolves_of_resolveBundles hres, rfl⟩

/-- The update of a group was refused by the publisher, after the group had been compiled and its
rules stored. -/
def PublishRefused (group : String × List Bundle) (w w' : World ω) : Prop :=
  ∃ g w₁ w₂ e, (d.evaluator.compileGroup group.1 group.2).perform w = (.ok g, w₁) ∧
    (d.repository.putRules g.updatedRules).perform w₁ = (.ok (), w₂) ∧
    (d.publisher g.update).perform w₂ = (.error e, w')

/-- What a refused update leaves behind: the rules of the group are stored. -/
theorem PublishRefused.exists_put {d : Deployment ω} {group : String × List Bundle}
    {w w' : World ω} (h : d.PublishRefused group w w') :
    ∃ g : GroupEvaluation, g.Evaluates d.denyRuleId w.store group ∧
      w'.ledger = w.ledger.put g.updatedRules := by
  obtain ⟨g, w₁, w₂, e, hg, hput, hpublish⟩ := h
  have hcompile : w₁.ledger = w.ledger := (d.keeps_compileGroup _ _).of_perform hg
  refine ⟨g, d.evaluates_of_compileGroup hg, ?_⟩
  rcases d.perform_putRules_cases g.updatedRules w₁ with ⟨e', o, hc⟩ | ⟨o, hc⟩
  · rw [hc] at hput
    cases hput
  · rw [hc] at hput
    cases hput
    rcases d.perform_publisher_cases g.update ⟨w₁.ledger.put g.updatedRules, o⟩ with
      ⟨e', o', hc'⟩ | ⟨o', hc'⟩
    · rw [hc'] at hpublish
      cases hpublish
      rw [hcompile]
    · rw [hc'] at hpublish
      cases hpublish

/-- **The step**: a group is stored and published, or fails before anything is written, or fails
with the publisher. -/
theorem evaluateGroup_cases (group : String × List Bundle) (w : World ω) :
    (∃ g w', (d.evaluator.evaluateGroup group).perform w = (.ok g, w') ∧
      g.Evaluates d.denyRuleId w.store group ∧ w'.ledger = w.ledger.apply g) ∨
    ∃ e w', (d.evaluator.evaluateGroup group).perform w = (.error e, w') ∧
      (w'.ledger = w.ledger ∨ d.PublishRefused group w w') := by
  rcases hg : (d.evaluator.compileGroup group.1 group.2).perform w with ⟨e | g, w₁⟩
  · have hcompile : w₁.ledger = w.ledger := (d.keeps_compileGroup _ _).of_perform hg
    exact Or.inr ⟨e, w₁, Action.perform_bind_of_error hg _, Or.inl hcompile⟩
  · have hcompile : w₁.ledger = w.ledger := (d.keeps_compileGroup _ _).of_perform hg
    have hrest : (d.evaluator.evaluateGroup group).perform w =
        (d.evaluator.apply g >>= fun _ => pure g).perform w₁ :=
      Action.perform_bind_of_ok hg _
    rcases d.perform_putRules_cases g.updatedRules w₁ with ⟨e, o, hput⟩ | ⟨o, hput⟩
    · have happly : (d.evaluator.apply g).perform w₁ = (.error e, ⟨w₁.ledger, o⟩) :=
        Action.perform_bind_of_error hput _
      rw [hrest, Action.perform_bind_of_error happly]
      exact Or.inr ⟨e, _, rfl, Or.inl hcompile⟩
    · -- the rules are stored, and now it is up to the publisher
      have happly : (d.evaluator.apply g).perform w₁ =
          (d.publisher g.update).perform ⟨w₁.ledger.put g.updatedRules, o⟩ :=
        Action.perform_bind_of_ok hput _
      rcases d.perform_publisher_cases g.update ⟨w₁.ledger.put g.updatedRules, o⟩ with
        ⟨e, o', hpublish⟩ | ⟨o', hpublish⟩
      · rw [hrest, Action.perform_bind_of_error (happly.trans hpublish)]
        exact Or.inr ⟨e, _, rfl, Or.inr ⟨g, w₁, _, e, hg, hput, hpublish⟩⟩
      · rw [hrest, Action.perform_bind_of_ok (happly.trans hpublish)]
        refine Or.inl ⟨g, _, rfl, d.evaluates_of_compileGroup hg, ?_⟩
        rw [← hcompile]
        rfl

theorem evaluateGroup_ok {group : String × List Bundle} {g : GroupEvaluation} {w w' : World ω}
    (h : (d.evaluator.evaluateGroup group).perform w = (.ok g, w')) :
    g.Evaluates d.denyRuleId w.store group ∧ w'.ledger = w.ledger.apply g := by
  rcases d.evaluateGroup_cases group w with ⟨g', w₁, h', hg⟩ | ⟨e, w₁, h', -⟩
  · rw [h'] at h
    cases h
    exact hg
  · rw [h'] at h
    cases h

theorem evaluateGroup_error {group : String × List Bundle} {e : Error} {w w' : World ω}
    (h : (d.evaluator.evaluateGroup group).perform w = (.error e, w')) :
    w'.ledger = w.ledger ∨ d.PublishRefused group w w' := by
  rcases d.evaluateGroup_cases group w with ⟨g', w₁, h', -⟩ | ⟨e, w₁, h', hw⟩
  · rw [h'] at h
    cases h
  · rw [h'] at h
    cases h
    exact hw

/-! ## The run -/

/-- **Group after group**: if groups share no bundle, each is resolved from the rules that were
stored before any of them. -/
theorem mapM_evaluateGroup {groups : List (String × List Bundle)} {gs : List GroupEvaluation}
    {w w' : World ω} (hn : (w.store.rules.map Rule.id).Nodup)
    (hd : groups.Pairwise Bundle.Disjoint)
    (h : (groups.mapM d.evaluator.evaluateGroup).perform w = (.ok gs, w')) :
    List.Forall₂ (fun group (g : GroupEvaluation) => g.Evaluates d.denyRuleId w.store group)
        groups gs ∧ w'.ledger = w.ledger.applyAll gs := by
  induction groups generalizing gs w with
  | nil =>
    cases h
    exact ⟨.nil, rfl⟩
  | cons group groups ih =>
    obtain ⟨g, w₁, gs, hg, hgs, rfl⟩ := Action.perform_mapM_ok_iff.1 h
    obtain ⟨heval, hw₁⟩ := d.evaluateGroup_ok hg
    rw [List.pairwise_cons] at hd
    have hstore : w₁.store = w.store.putRules g.updatedRules := congrArg Ledger.store hw₁
    have hholds : ∀ x ∈ g.updatedRules, w.store.Holds x := fun x hx => (heval.holds hx).1
    have hn₁ : (w₁.store.rules.map Rule.id).Nodup := by
      rw [hstore, Store.Snapshot.map_id_putRules hn hholds]
      exact hn
    obtain ⟨hrest, hw'⟩ := ih hn₁ hd.2 hgs
    refine ⟨.cons heval ?_, ?_⟩
    · -- the later groups have bundles of their own, whose rules the first group did not touch
      have hboth := (List.forall₂_and_left groups gs).2 ⟨hd.1, hrest⟩
      refine hboth.imp fun group' g' h' => h'.2.congr fun b hb => ?_
      rw [hstore]
      refine (Store.Snapshot.rulesOf_putRules_of_not_mem hn hholds ?_).symm
      intro x hx hid
      obtain ⟨-, c, hc, hxc⟩ := heval.holds hx
      exact h'.1 c hc b hb (hxc.symm.trans hid)
    · rw [hw', hw₁]
      rfl

end Deployment

end Firewall
