/-
# Objects that rules name

An evaluation looks up the objects that the rules of its bundles name, and no other.  So a rule
fails for an unknown object exactly if it names one that is not stored; and objects that none of
these rules names may be stored or not, whatever they are: the evaluation comes to the same, and
leaves them as they are.

* `Rule.ToldFrom` : a rule that failed for an unknown object exactly if it names one;
* `Compiler.DecidesAll.toldFrom` : the rules of a resolution;
* `Deployment.toldFrom_of_evaluateGroup`, `toldFrom_of_evaluateBundles` : the rules that a group,
  and an evaluation, stores;
* `Deployment.evaluate_references` : evaluations and the objects that rules name.
-/
import Firewall.Proofs.Evaluation.Repetition
import Firewall.Proofs.Evaluation.Unseen
import Firewall.Proofs.Resolution.Failures
import Firewall.Proofs.Resolver.Dispatch

namespace Firewall

open Evaluation

/-- Among the objects that are fetched for a rule, it finds what it finds among all. -/
theorem Compiler.known_objectsWith_iff {s : Store.Snapshot} {ids : List String} {r : Rule}
    (hs : r.source ∈ ids) (hd : r.destination ∈ ids) :
    Known (s.objectsWith ids) r ↔ Known s.objects r := by
  have hmem : ∀ id ∈ ids, id ∈ (s.objectsWith ids).map (·.id) ↔ id ∈ s.objects.map (·.id) := by
    intro id hid
    simp only [Store.Snapshot.objectsWith, List.mem_map, List.mem_filter, List.contains_iff_mem]
    constructor
    · rintro ⟨o, ⟨ho, -⟩, rfl⟩
      exact ⟨o, ho, rfl⟩
    · rintro ⟨o, ho, rfl⟩
      exact ⟨o, ⟨ho, hid⟩, rfl⟩
  unfold Known
  rw [hmem _ hs, hmem _ hd]

/-! ## Rules that name unknown objects -/

/-- The rule failed for an unknown object exactly if it names one. -/
def Rule.ToldFrom (objects : List FlowObject) (r : Rule) : Prop :=
  r.FailsWith unresolvedReference ↔ ¬ Compiler.Known objects r

namespace Compiler

variable {σ : Type} {c : Compiler σ} {bundle : Bundle} {objects : List FlowObject}

/-- Looking up the objects of a rule shows that one is unknown exactly if one is. -/
theorem LooksUp.eq_unknown_iff {rule : Rule} {ends : Endpoints} {s t : σ}
    (h : c.LooksUp bundle objects rule s ends t) : ends = .unknown ↔ ¬ Known objects rule := by
  cases h with
  | unknown hunknown =>
    refine ⟨fun _ hknown => ?_, fun _ => rfl⟩
    exact hunknown.elim (fun hs => hs hknown.1) fun hd => hd hknown.2
  | found hsource hdestination _ _ =>
    refine ⟨fun h => (by cases h), fun hnot => ?_⟩
    exact absurd ⟨mem_of_objectFor? hsource, mem_of_objectFor? hdestination⟩ hnot

theorem DecidesAll.toldFrom {rules rules' : List Rule} {s t : σ}
    (h : c.DecidesAll bundle objects s rules rules' t)
    (hgiven : rules'.map Rule.given = rules.map Rule.given) :
    ∀ r ∈ rules', r.ToldFrom objects := by
  induction h with
  | nil s => exact List.forall_mem_nil _
  | @cons s t u ends rule rule' rules rules' hends hdecided _ ih =>
    rw [List.map_cons, List.map_cons, List.cons.injEq] at hgiven
    rw [List.forall_mem_cons]
    refine ⟨?_, ih hgiven.2⟩
    -- the rule names what it named when it was given
    have hknown : Known objects rule' ↔ Known objects rule := by
      show Known objects rule'.given ↔ Known objects rule.given
      rw [hgiven.1]
    rw [Rule.ToldFrom, hdecided.unresolved, hends.eq_unknown_iff, hknown]

end Compiler

namespace Deployment

variable {ω : Type} (d : Deployment ω)

/-- **A bundle is resolved from all objects**, though only those are fetched that its rules name. -/
theorem toldFrom_of_resolveBundle {offset : UInt64} {b : Bundle} {r : Resolution} {w w' : World ω}
    (h : (d.evaluator.resolveBundle offset b).perform w = (.ok r, w')) :
    ∀ x ∈ r.rules, x.ToldFrom w.store.objects := by
  obtain ⟨rules, w₁, hrules, h⟩ := Action.perform_bind_ok_iff.1 h
  obtain ⟨objects, w₂, hobjects, h⟩ := Action.perform_bind_ok_iff.1 h
  obtain ⟨-, hledger⟩ := d.rulesOf_of_perform hrules
  obtain ⟨rfl, -⟩ := d.objectsWith_of_perform hobjects
  have hstore : w₁.store = w.store := congrArg Ledger.store hledger
  obtain ⟨hdecided, hgiven, -⟩ := d.compiler.resolveRules_decided h
  intro x hx
  have hnamed : x.source ∈ referencedIds rules ∧ x.destination ∈ referencedIds rules := by
    obtain ⟨r₀, hr₀, hgiven₀⟩ := List.mem_map.1 (hgiven ▸ List.mem_map_of_mem hx)
    have hsource := congrArg Rule.source hgiven₀
    have hdestination := congrArg Rule.destination hgiven₀
    rw [mem_referencedIds, mem_referencedIds]
    exact ⟨⟨r₀, hr₀, .inl hsource⟩, ⟨r₀, hr₀, .inr hdestination⟩⟩
  have htold := hdecided.toldFrom hgiven x hx
  rwa [Rule.ToldFrom, Compiler.known_objectsWith_iff hnamed.1 hnamed.2, hstore] at htold

theorem toldFrom_of_resolveBundles {offset : UInt64} {bundles : List Bundle}
    {resolutions : List (String × Resolution)} {w w' : World ω}
    (h : (d.evaluator.resolveBundles offset bundles).perform w = (.ok resolutions, w')) :
    ∀ p ∈ resolutions, ∀ x ∈ p.2.rules, x.ToldFrom w.store.objects := by
  induction bundles generalizing offset resolutions w with
  | nil =>
    cases h
    exact List.forall_mem_nil _
  | cons b bs ih =>
    obtain ⟨r, w₁, hr, h⟩ := Action.perform_bind_ok_iff.1 h
    obtain ⟨rest, w₂, hrest, h⟩ := Action.perform_bind_ok_iff.1 h
    cases h
    have hledger : w₁.ledger = w.ledger := (d.keeps_resolveBundle offset b).of_perform hr
    have hstore : w₁.store = w.store := congrArg Ledger.store hledger
    rw [List.forall_mem_cons, ← hstore]
    exact ⟨hstore ▸ d.toldFrom_of_resolveBundle hr, ih hrest⟩

theorem toldFrom_of_compileGroup {ruleGroupArn : String} {bundles : List Bundle}
    {g : GroupEvaluation} {w w' : World ω}
    (h : (d.evaluator.compileGroup ruleGroupArn bundles).perform w = (.ok g, w')) :
    ∀ x ∈ g.updatedRules, x.ToldFrom w.store.objects := by
  obtain ⟨resolutions, w₁, hres, h⟩ := Action.perform_bind_ok_iff.1 h
  cases h
  intro x hx
  rw [GroupEvaluation.updatedRules_eq, List.mem_flatMap] at hx
  obtain ⟨p, hp, hx⟩ := hx
  obtain ⟨settled, hsettled, rfl⟩ := List.mem_map.1 hx
  exact d.toldFrom_of_resolveBundles hres p hp settled hsettled

/-- The step: a group stores rules that were told from the stored objects, and leaves these. -/
theorem toldFrom_of_evaluateGroup {group : String × List Bundle} {g : GroupEvaluation}
    {w w' : World ω} (h : (d.evaluator.evaluateGroup group).perform w = (.ok g, w')) :
    (∀ x ∈ g.updatedRules, x.ToldFrom w.store.objects) ∧ w'.store.objects = w.store.objects := by
  have hledger := (d.evaluateGroup_ok h).2
  obtain ⟨g', w₁, hcompile, h⟩ := Action.perform_bind_ok_iff.1 h
  obtain ⟨-, w₂, -, h⟩ := Action.perform_bind_ok_iff.1 h
  cases h
  refine ⟨d.toldFrom_of_compileGroup hcompile, ?_⟩
  have hstore : w'.store = w.store.putRules g.updatedRules := congrArg Ledger.store hledger
  rw [hstore, Store.Snapshot.objects_putRules]

/-- **The run**: all rules that an evaluation stores were told from the objects that are stored. -/
theorem toldFrom_of_evaluateBundles {ids : List String} {gs : List GroupEvaluation} {w w' : World ω}
    (h : (d.evaluator.evaluateBundles ids).perform w = (.ok gs, w')) :
    ∀ x ∈ gs.flatMap fun g => g.updatedRules, x.ToldFrom w.store.objects := by
  obtain ⟨bundles, w₁, hload, hrun⟩ := Action.perform_bind_ok_iff.1 h
  have hledger : w₁.ledger = w.ledger := (Action.keeps_mapM d.keeps_load ids).of_perform hload
  have hobjects : w₁.store.objects = w.store.objects := congrArg (fun l => l.store.objects) hledger
  have htold : List.Forall₂ (fun _ (g : GroupEvaluation) =>
      ∀ x ∈ g.updatedRules, x.ToldFrom w.store.objects) (Bundle.groupByArn bundles) gs := by
    refine Action.forall₂_of_perform_mapM (P := fun w₂ => w₂.store.objects = w.store.objects) ?_
      hobjects hrun
    intro group g w₂ w₃ hw₂ hg
    obtain ⟨htold, hkept⟩ := d.toldFrom_of_evaluateGroup hg
    exact ⟨hw₂ ▸ htold, hkept.trans hw₂⟩
  intro x hx
  obtain ⟨g, hg, hx⟩ := List.mem_flatMap.1 hx
  obtain ⟨-, -, hgroup⟩ := exists_of_forall₂_of_mem htold hg
  exact hgroup x hx

/-- **What is stored of a rule** of the bundles that were evaluated. -/
theorem forall₂_toldFrom {ids : List String} {gs : List GroupEvaluation} {w w' : World ω}
    (hn : (w.store.rules.map Rule.id).Nodup)
    (h : (d.evaluator.evaluateBundles ids).perform w = (.ok gs, w')) :
    List.Forall₂ (fun r r' : Rule => r.bundleId ∈ ids →
      r'.bare = r.bare ∧ r'.ToldFrom w.store.objects) w.store.rules w'.store.rules := by
  have hrenewed := d.renewedBy_of_evaluateBundles hn h
  have hrules := congrArg Store.Snapshot.rules (hrenewed.eq hn)
  rw [hrules, List.forall₂_map_right_iff, List.forall₂_same]
  intro r hr hid
  have hmem := Store.replacedBy_mem (hrenewed.covered r hr hid)
  exact ⟨(hrenewed.renewed r hr hid).bare_eq, d.toldFrom_of_evaluateBundles h _ hmem⟩

/-- **An evaluation sees the objects that its rules name, and no other.**  If it succeeds, then
every rule of its bundles is stored as it was given, and fails for an unknown object exactly if its
source or its destination is not the id of a stored object.  And whether it succeeds or fails,
objects that no rule of its bundles names may be added to the store or removed from it, at any
places and whatever they are: the response is the same, and the world is left as it would have been,
rules, journal and all, with these objects in place of the others. -/
theorem evaluate_references {request : Request} {response : Response} {w v : World ω}
    (h : d.evaluator.evaluate request w = (response, v)) :
    ((w.store.rules.map Rule.id).Nodup → response.statusCode = statusOk →
      List.Forall₂ (fun r r' : Rule => r.bundleId ∈ request.bundleIds → r'.bare = r.bare ∧
        (r'.FailsWith unresolvedReference ↔ r.source ∉ w.store.objects.map (·.id) ∨
          r.destination ∉ w.store.objects.map (·.id))) w.store.rules v.store.rules) ∧
    ∀ objects, Inventory.Noise (fun o => decide (w.store.Names request.bundleIds o.id))
        w.store.objects objects →
      d.evaluator.evaluate request (w.withObjects objects) =
        (response, v.withObjects objects) := by
  refine ⟨fun hn hok => ?_, fun objects hnoise => d.evaluate_unseen h hnoise⟩
  obtain ⟨gs, hgs⟩ := d.evaluateBundles_of_statusOk h hok
  refine (d.forall₂_toldFrom hn hgs).imp fun r r' htold hid => ?_
  obtain ⟨hbare, htold⟩ := htold hid
  refine ⟨hbare, htold.trans ?_⟩
  -- the stored rule names what it named before
  show ¬ Compiler.Known w.store.objects r'.bare ↔ _
  rw [hbare]
  exact not_and_or

end Deployment

/-! ## Objects that are there for nothing -/

namespace Sample

/-- The first bundle has a second rule, to an object that is not stored; and an object is stored
that no rule names. -/
def dangling : World Unit where
  ledger :=
    { store :=
        { store with
          rules := store.rules ++
            [⟨"r2", "b1", "drop", "ip", "o1", .any, "nobody", .any, .active, [], none, 0, none⟩]
          objects := store.objects ++ [⟨"spare", .tagged []⟩] }
      journal := [] }
  outside := ()

/-- The objects without the one that is not named, and with one in front that nobody takes. -/
def otherObjects : List FlowObject := bucket :: store.objects

end Sample

/-- The second rule fails for the unknown object, and the other objects make no difference. -/
theorem Deployment.evaluate_references_dangling :
    ∃ response v, (Sample.deployment []).evaluator.evaluate ⟨["b1", "b2"]⟩ Sample.dangling =
        (response, v) ∧
      (Sample.dangling.store.rules.map Rule.id).Nodup ∧ response.statusCode = statusOk ∧
      v.store.rules.map (fun r => (r.id, r.status, r.failureReasons)) =
        [("r1", .active, []), ("r2", .failed, [unresolvedReference])] ∧
      List.Forall₂ (fun r r' : Rule => r.bundleId ∈ ["b1", "b2"] → r'.bare = r.bare ∧
        (r'.FailsWith unresolvedReference ↔ r.source ∉ Sample.dangling.store.objects.map (·.id) ∨
          r.destination ∉ Sample.dangling.store.objects.map (·.id)))
        Sample.dangling.store.rules v.store.rules ∧
      (Sample.deployment []).evaluator.evaluate ⟨["b1", "b2"]⟩
        (Sample.dangling.withObjects Sample.otherObjects) =
          (response, v.withObjects Sample.otherObjects) := by
  have hn : (Sample.dangling.store.rules.map Rule.id).Nodup := by decide
  have hseen : ((Sample.deployment []).evaluator.evaluate ⟨["b1", "b2"]⟩
        Sample.dangling).1.statusCode = statusOk ∧
      ((Sample.deployment []).evaluator.evaluate ⟨["b1", "b2"]⟩
        Sample.dangling).2.store.rules.map (fun r => (r.id, r.status, r.failureReasons)) =
          [("r1", .active, []), ("r2", .failed, [unresolvedReference])] := by
    decide +kernel
  rcases h : (Sample.deployment []).evaluator.evaluate ⟨["b1", "b2"]⟩ Sample.dangling with
    ⟨response, v⟩
  rw [h] at hseen
  obtain ⟨hrules, hobjects⟩ := (Sample.deployment []).evaluate_references h
  have hbucket : decide (Sample.dangling.store.Names ["b1", "b2"] "bucket") = false := by decide
  have hspare : decide (Sample.dangling.store.Names ["b1", "b2"] "spare") = false := by decide
  have hnoise : Inventory.Noise
      (fun o => decide (Sample.dangling.store.Names ["b1", "b2"] o.id))
      Sample.dangling.store.objects Sample.otherObjects :=
    .insert hbucket (.keep _ (.keep _ (.delete hspare .nil)))
  exact ⟨response, v, rfl, hn, hseen.1, hseen.2, hrules hn hseen.1, hobjects _ hnoise⟩

end Firewall
