/-
# Evaluating again

Where every call is let through and the inventory stays as it is, evaluating the same bundles again
finds the same again: the response is the same, the same is published, and the stored rules stay as
they are, but for the version, which counts the evaluations.  What carries this is that two
evaluations in stores that differ in findings only run side by side.

* `Store.Snapshot.RenewedBy` : what an evaluation makes of the store;
* `Store.Snapshot.later` : a store whose rules of some bundles are some versions later;
* `Deployment.Willing.evaluate_of_bare` : what was found before makes no difference;
* `Deployment.Willing.evaluate_later` : the step, one more evaluation;
* `Deployment.evaluate_repeated` : any number of evaluations.
-/
import Firewall.Proofs.Evaluation.Parallel
import Firewall.Proofs.Evaluation.Published
import Firewall.Proofs.Evaluation.Refusal
import Firewall.Proofs.Evaluation.Within

namespace Firewall

open Evaluation

/-! ## What is made of the store -/

theorem Rule.Renewed.bare_eq {r r' : Rule} (h : r.Renewed r') : r'.bare = r.bare := by
  obtain ⟨settled, hsettled, rfl⟩ := h
  exact hsettled.bare_eq

theorem Rule.Renewed.version_eq {r r' : Rule} (h : r.Renewed r') : r'.version = r.version + 1 := by
  obtain ⟨settled, hsettled, rfl⟩ := h
  exact congrArg (· + 1) hsettled.version_eq

/-- A batch stores the rules of some bundles again, all of them renewed. -/
structure Store.Snapshot.RenewedBy (s s' : Snapshot) (ids : List String) (batch : List Rule) :
    Prop where
  holds : ∀ x ∈ batch, s.Holds x
  store : s' = s.putRules batch
  covered : ∀ r ∈ s.rules, r.bundleId ∈ ids → r.id ∈ batch.map Rule.id
  renewed : ∀ r ∈ s.rules, r.bundleId ∈ ids → r.Renewed (replacedBy batch r)
  kept : ∀ r ∈ s.rules, r.bundleId ∉ ids → replacedBy batch r = r

namespace Store.Snapshot.Loads

variable {denyRuleId : String} {s : Snapshot} {ids : List String} {bundles : List Bundle}
  {gs : List GroupEvaluation} (h : s.Loads ids bundles)
  (heval : List.Forall₂ (fun group (g : GroupEvaluation) => g.Evaluates denyRuleId s group)
    (Bundle.groupByArn bundles) gs)
include h heval

/-- Every rule of the bundles is stored with its group. -/
theorem id_mem_updatedRules {r : Rule} (hr : r ∈ s.rules) (hid : r.bundleId ∈ ids) :
    r.id ∈ (gs.flatMap fun g => g.updatedRules).map Rule.id := by
  rw [← h.map_id] at hid
  obtain ⟨b, hb, hbid⟩ := List.mem_map.1 hid
  obtain ⟨g, hg, hgroup⟩ := exists_of_forall₂_of_mem heval.flip (Bundle.group_mem_groupByArn hb)
  rw [List.map_flatMap]
  refine List.mem_flatMap.2 ⟨g, hg, ?_⟩
  rw [hgroup.map_id_updatedRules]
  refine List.mem_flatMap.2 ⟨b, Bundle.mem_ofArn.2 ⟨hb, rfl⟩, List.mem_map_of_mem ?_⟩
  exact mem_rulesOf.2 ⟨hr, hbid.symm⟩

/-- All that is stored are rules of the bundles, renewed. -/
theorem exists_renewed {x : Rule} (hx : x ∈ gs.flatMap fun g => g.updatedRules) :
    x.bundleId ∈ ids ∧ s.Holds x ∧ ∃ r ∈ s.rules, r.Renewed x := by
  obtain ⟨g, hg, hx⟩ := List.mem_flatMap.1 hx
  obtain ⟨group, hmem, hgroup⟩ := exists_of_forall₂_of_mem heval hg
  obtain ⟨hheld, b, hb, hxb⟩ := hgroup.holds hx
  refine ⟨?_, hheld, hgroup.exists_renewed hx⟩
  rw [Bundle.snd_of_mem_groupByArn hmem] at hb
  rw [hxb, ← h.map_id]
  exact List.mem_map_of_mem (Bundle.mem_ofArn.1 hb).1

end Store.Snapshot.Loads

/-- **What evaluating bundles makes of the store.** -/
theorem Deployment.renewedBy_of_evaluateBundles {ω : Type} (d : Deployment ω) {ids : List String}
    {gs : List GroupEvaluation} {w w' : World ω} (hn : (w.store.rules.map Rule.id).Nodup)
    (h : (d.evaluator.evaluateBundles ids).perform w = (.ok gs, w')) :
    w.store.RenewedBy w'.store ids (gs.flatMap fun g => g.updatedRules) := by
  obtain ⟨bundles, w₁, hload, hrun⟩ := Action.perform_bind_ok_iff.1 h
  have hloads := d.loads_of_perform hload
  have hledger : w₁.ledger = w.ledger := (Action.keeps_mapM d.keeps_load ids).of_perform hload
  have hstore : w₁.store = w.store := congrArg Ledger.store hledger
  rw [← hstore] at hn hloads ⊢
  have hd := hloads.disjoint_groupByArn
  obtain ⟨heval, -⟩ := d.mapM_evaluateGroup hn hd hrun
  have hholds : ∀ x ∈ gs.flatMap fun g => g.updatedRules, w₁.store.Holds x :=
    fun x hx => (hloads.exists_renewed heval hx).2.1
  have hcovered := fun r hr hid => hloads.id_mem_updatedRules heval (r := r) hr hid
  refine ⟨hholds, d.store_of_mapM hn hd hrun, hcovered, fun r hr hid => ?_, fun r hr hid => ?_⟩
  · exact Store.Snapshot.renewed_replacedBy hn
      (fun x hx => (hloads.exists_renewed heval hx).2.2) hr (hcovered r hr hid)
  · refine Store.replacedBy_of_not_mem fun hmem => hid ?_
    -- what would replace the rule is a rule of its bundle, and only the given bundles have any
    rw [← Store.Snapshot.bundleId_replacedBy hn hholds hr]
    exact (hloads.exists_renewed heval (Store.replacedBy_mem hmem)).1

namespace Store.Snapshot.RenewedBy

variable {s s' : Snapshot} {ids : List String} {batch : List Rule}

/-- Bundles and objects stay, and every rule stays in its place. -/
theorem eq (h : s.RenewedBy s' ids batch) (hn : (s.rules.map Rule.id).Nodup) :
    s' = { s with rules := s.rules.map (replacedBy batch) } := by
  rw [h.store, putRules_eq hn h.holds]

/-- **Only findings change.** -/
theorem bare_eq (h : s.RenewedBy s' ids batch) (hn : (s.rules.map Rule.id).Nodup) :
    s'.bare = s.bare := by
  rw [h.eq hn]
  unfold bare
  congr 1
  rw [List.map_map]
  refine List.map_congr_left fun r hr => ?_
  by_cases hid : r.bundleId ∈ ids
  · exact (h.renewed r hr hid).bare_eq
  · exact congrArg Rule.bare (h.kept r hr hid)

/-- What is stored for the bundles, but for the versions, goes by the bare store and the batch
without its versions. -/
theorem map_unversioned_rulesOf (h : s.RenewedBy s' ids batch)
    (hn : (s.rules.map Rule.id).Nodup) {id : String} (hid : id ∈ ids) :
    (s'.rulesOf id).map Rule.unversioned =
      (s.bare.rulesOf id).map (replacedBy (batch.map Rule.unversioned)) := by
  rw [h.store, rulesOf_putRules hn h.holds, rulesOf_bare, List.map_map, List.map_map]
  refine List.map_congr_left fun r hr => ?_
  obtain ⟨hr, hbundle⟩ := mem_rulesOf.1 hr
  have hmem : r.unversioned.id ∈ (batch.map Rule.unversioned).map Rule.id := by
    rw [List.map_map]
    exact h.covered r hr (hbundle.symm ▸ hid)
  exact (map_replacedBy_of_id Rule.id_unversioned batch r).trans (replacedBy_congr rfl hmem)

end Store.Snapshot.RenewedBy

/-! ## Versions -/

namespace Rule

/-- What evaluating some bundles a number of times makes of a rule.  A rule of the bundles differs
in what was found, and its version counts the evaluations, within 64 bits; any other rule stays as
it is. -/
def EvaluatedIn (ids : List String) (n : Nat) (r r' : Rule) : Prop :=
  (r.bundleId ∈ ids →
    r'.bare = r.bare ∧ r'.version.toNat = (r.version.toNat + n) % UInt64.size) ∧
  (r.bundleId ∉ ids → r' = r)

/-- The rule some versions later, if it belongs to some bundles. -/
def laterIn (ids : List String) (k : Nat) (r : Rule) : Rule :=
  if r.bundleId ∈ ids then { r with version := r.version + UInt64.ofNat k } else r

variable {ids : List String} {r : Rule}

theorem laterIn_of_mem (h : r.bundleId ∈ ids) (k : Nat) :
    r.laterIn ids k = { r with version := r.version + UInt64.ofNat k } := if_pos h

theorem laterIn_of_not_mem (h : r.bundleId ∉ ids) (k : Nat) : r.laterIn ids k = r := if_neg h

theorem laterIn_zero (ids : List String) (r : Rule) : r.laterIn ids 0 = r := by
  by_cases h : r.bundleId ∈ ids
  · have hversion : r.version + UInt64.ofNat 0 = r.version := UInt64.add_zero r.version
    rw [laterIn_of_mem h, hversion]
  · exact laterIn_of_not_mem h 0

theorem unversioned_laterIn (ids : List String) (k : Nat) (r : Rule) :
    (r.laterIn ids k).unversioned = r.unversioned := by
  by_cases h : r.bundleId ∈ ids
  · rw [laterIn_of_mem h]
    rfl
  · rw [laterIn_of_not_mem h]

theorem bundleId_laterIn (ids : List String) (k : Nat) (r : Rule) :
    (r.laterIn ids k).bundleId = r.bundleId := by
  have hbundle := congrArg Rule.bundleId (unversioned_laterIn ids k r)
  exact hbundle

theorem version_laterIn (h : r.bundleId ∈ ids) (k : Nat) :
    (r.laterIn ids k).version = r.version + UInt64.ofNat k := by
  rw [laterIn_of_mem h]

end Rule

namespace Store.Snapshot

/-- The store with the rules of some bundles some versions later. -/
def later (ids : List String) (k : Nat) (s : Snapshot) : Snapshot :=
  { s with rules := s.rules.map (Rule.laterIn ids k) }

theorem later_zero (ids : List String) (s : Snapshot) : s.later ids 0 = s := by
  have hrules : s.rules.map (Rule.laterIn ids 0) = s.rules :=
    (List.map_congr_left fun r _ => Rule.laterIn_zero ids r).trans (List.map_id' s.rules)
  unfold later
  rw [hrules]

theorem bare_later (ids : List String) (k : Nat) (s : Snapshot) :
    (s.later ids k).bare = s.bare := by
  unfold later bare
  rw [List.map_map]
  congr 1
  exact List.map_congr_left fun r _ =>
    Rule.bare_eq_of_unversioned (Rule.unversioned_laterIn ids k r)

/-- Stores that differ in findings only have the same rules by their ids. -/
theorem map_id_of_bare {s s' : Snapshot} (h : s.bare = s'.bare) :
    s.rules.map Rule.id = s'.rules.map Rule.id := by
  have hrules := congrArg (fun t : Snapshot => t.rules.map Rule.id) h
  unfold bare at hrules
  rw [List.map_map, List.map_map] at hrules
  exact hrules

section Later

variable {s s₁ s' : Snapshot} {ids : List String} {batch batch' : List Rule} {k : Nat}

/-- What a batch has stored is what it stores. -/
theorem RenewedBy.replacedBy_eq (h : s.RenewedBy s₁ ids batch) (hn : (s.rules.map Rule.id).Nodup)
    {r : Rule} (hr : r ∈ s₁.rules) : replacedBy batch r = r := by
  rw [h.eq hn] at hr
  obtain ⟨r₀, -, rfl⟩ := List.mem_map.1 hr
  exact replacedBy_replacedBy batch r₀

/-- A rule that was renewed is renewed by the same batch, but for the versions: only its version
goes on. -/
theorem RenewedBy.replacedBy_laterIn (hn : (s.rules.map Rule.id).Nodup)
    (h : s.RenewedBy s₁ ids batch) (h' : (s₁.later ids k).RenewedBy s' ids batch')
    (hbatch : batch'.map Rule.unversioned = batch.map Rule.unversioned) {r : Rule}
    (hr : r ∈ s₁.rules) : replacedBy batch' (r.laterIn ids k) = r.laterIn ids (k + 1) := by
  have hmem : r.laterIn ids k ∈ (s₁.later ids k).rules := List.mem_map_of_mem hr
  by_cases hbundle : r.bundleId ∈ ids
  · refine Rule.eq_of_unversioned ?_ ?_
    · calc (replacedBy batch' (r.laterIn ids k)).unversioned
        _ = replacedBy (batch'.map Rule.unversioned) (r.laterIn ids k).unversioned :=
          map_replacedBy_of_id Rule.id_unversioned _ _
        _ = replacedBy (batch.map Rule.unversioned) r.unversioned := by
          rw [hbatch, Rule.unversioned_laterIn]
        _ = (replacedBy batch r).unversioned := (map_replacedBy_of_id Rule.id_unversioned _ _).symm
        _ = (r.laterIn ids (k + 1)).unversioned := by
          rw [h.replacedBy_eq hn hr, Rule.unversioned_laterIn]
    · have hversion := (h'.renewed _ hmem ((r.bundleId_laterIn ids k).symm ▸ hbundle)).version_eq
      rw [hversion, Rule.version_laterIn hbundle, Rule.version_laterIn hbundle,
        UInt64.ofNat_add, ← UInt64.add_assoc]
      rfl
  · rw [h'.kept _ hmem ((r.bundleId_laterIn ids k).symm ▸ hbundle),
      Rule.laterIn_of_not_mem hbundle, Rule.laterIn_of_not_mem hbundle]

/-- **The same batch, but for the versions, once more**: the rules that were renewed are one
version later. -/
theorem RenewedBy.eq_later (hn : (s.rules.map Rule.id).Nodup) (h : s.RenewedBy s₁ ids batch)
    (h' : (s₁.later ids k).RenewedBy s' ids batch')
    (hbatch : batch'.map Rule.unversioned = batch.map Rule.unversioned) :
    s' = s₁.later ids (k + 1) := by
  have hn' : ((s₁.later ids k).rules.map Rule.id).Nodup := by
    rwa [map_id_of_bare ((bare_later ids k s₁).trans (h.bare_eq hn))]
  rw [h'.eq hn']
  unfold later
  rw [List.map_map]
  congr 1
  exact List.map_congr_left fun r hr => RenewedBy.replacedBy_laterIn hn h h' hbatch hr

end Later

/-- Since before they were renewed, the versions of the rules have counted one more. -/
theorem RenewedBy.evaluatedIn_later {s s₁ : Snapshot} {ids : List String} {batch : List Rule}
    (h : s.RenewedBy s₁ ids batch) (hn : (s.rules.map Rule.id).Nodup) (n : Nat) :
    List.Forall₂ (Rule.EvaluatedIn ids (n + 1)) s.rules (s₁.later ids n).rules := by
  rw [h.eq hn]
  unfold later
  rw [List.map_map, List.forall₂_map_right_iff, List.forall₂_same]
  intro r hr
  have hbundle := bundleId_replacedBy hn h.holds hr
  refine ⟨fun hid => ?_, fun hid => ?_⟩
  · have hrenewed := h.renewed r hr hid
    rw [Function.comp_apply]
    have hcount : 1 + UInt64.ofNat n = UInt64.ofNat (n + 1) := by
      rw [UInt64.ofNat_add, UInt64.add_comm]
      rfl
    refine ⟨?_, ?_⟩
    · rw [Rule.bare_eq_of_unversioned (Rule.unversioned_laterIn ids n _), hrenewed.bare_eq]
    · rw [Rule.version_laterIn (hbundle.symm ▸ hid), hrenewed.version_eq, UInt64.add_assoc, hcount,
        UInt64.toNat_add, UInt64.toNat_ofNat', Nat.add_mod_mod]
  · rw [Function.comp_apply, h.kept r hr hid, Rule.laterIn_of_not_mem hid]

end Store.Snapshot

/-! ## Evaluating again -/

namespace Evaluation

/-- A batch of rules without their versions goes by the groups without versions. -/
theorem map_unversioned_batch (gs : List GroupEvaluation) :
    (gs.flatMap fun g => g.updatedRules).map Rule.unversioned =
      (gs.map GroupEvaluation.unversioned).flatMap fun g => g.resolutions.flatMap fun p =>
        p.2.rules := by
  rw [List.map_flatMap, List.flatMap_map]
  congr 1
  funext g
  exact g.map_unversioned_updatedRules

end Evaluation

namespace Deployment

variable {ω : Type} {d : Deployment ω} {request : Request} {response : Response}
  {w w₁ v v₁ : World ω} {updates : List Update}

namespace Willing

variable (hd : d.Willing)
include hd

/-- **What was found before makes no difference**: in a store that differs in findings only, a
request is answered the same, and publishes the same. -/
theorem evaluate_of_bare (hbare : v.store.bare = w.store.bare)
    (h : d.evaluator.evaluate request w = (response, w₁)) :
    ∃ updates v₁, d.evaluator.evaluate request v = (response, v₁) ∧
      w₁.published = w.published ++ updates ∧ v₁.published = v.published ++ updates := by
  obtain ⟨hresponse, -, updates, hw, hv⟩ := Evaluator.evaluate_of_alikeUpTo request
    (hd.alikeUpTo_evaluateBundles request.bundleIds)
    (show World.Parallel w.ledger v.ledger w v from .refl hbare.symm)
  rw [h] at hresponse hw
  exact ⟨updates, (d.evaluator.evaluate request v).2, Prod.ext hresponse.symm rfl, hw, hv⟩

/-- What is stored then differs in versions only. -/
theorem exists_renewedBy (hbare : v.store.bare = w.store.bare)
    (hn : (w.store.rules.map Rule.id).Nodup)
    (h : d.evaluator.evaluate request w = (response, w₁))
    (h' : d.evaluator.evaluate request v = (response, v₁)) (hok : response.statusCode = statusOk) :
    ∃ batch batch', w.store.RenewedBy w₁.store request.bundleIds batch ∧
      v.store.RenewedBy v₁.store request.bundleIds batch' ∧
      batch'.map Rule.unversioned = batch.map Rule.unversioned := by
  obtain ⟨gs, hgs⟩ := d.evaluateBundles_of_statusOk h hok
  obtain ⟨gs', hgs'⟩ := d.evaluateBundles_of_statusOk h' hok
  have hn' : (v.store.rules.map Rule.id).Nodup := by
    rwa [Store.Snapshot.map_id_of_bare hbare]
  obtain ⟨hgroups, -⟩ := hd.alikeUpTo_evaluateBundles request.bundleIds w v
    (show World.Parallel w.ledger v.ledger w v from .refl hbare.symm)
  rw [hgs, hgs'] at hgroups
  have hrenewed := d.renewedBy_of_evaluateBundles hn hgs
  have hrenewed' := d.renewedBy_of_evaluateBundles hn' hgs'
  refine ⟨_, _, hrenewed, hrenewed', ?_⟩
  rw [map_unversioned_batch, map_unversioned_batch, ← Except.ok.inj hgroups]

/-- **The step**: some evaluations after a first one, one more is answered the same, publishes the
same, and leaves the rules of its bundles one version later. -/
theorem evaluate_later (hn : (w.store.rules.map Rule.id).Nodup)
    (h : d.evaluator.evaluate request w = (response, w₁)) (hok : response.statusCode = statusOk)
    (hpublished : w₁.published = w.published ++ updates) {k : Nat}
    (hv : v.store = w₁.store.later request.bundleIds k) :
    ∃ v₁, d.evaluator.evaluate request v = (response, v₁) ∧
      v₁.published = v.published ++ updates ∧
      v₁.store = w₁.store.later request.bundleIds (k + 1) := by
  -- the first evaluation has changed findings, and so have those after it
  have hbare : v.store.bare = w.store.bare := by
    obtain ⟨batch, -, hrenewed, -⟩ := hd.exists_renewedBy rfl hn h h hok
    rw [hv, Store.Snapshot.bare_later, hrenewed.bare_eq hn]
  obtain ⟨updates', v₁, h', hw, hv₁⟩ := hd.evaluate_of_bare hbare h
  obtain ⟨batch, batch', hrenewed, hrenewed', hbatch⟩ := hd.exists_renewedBy hbare hn h h' hok
  rw [hv] at hrenewed'
  rw [← List.append_cancel_left (hpublished.symm.trans hw)] at hv₁
  exact ⟨v₁, h', hv₁, hrenewed.eq_later hn hrenewed' hbatch⟩

/-- **The run**: any number of evaluations after a first one. -/
theorem evaluateAll_later (hn : (w.store.rules.map Rule.id).Nodup)
    (h : d.evaluator.evaluate request w = (response, w₁)) (hok : response.statusCode = statusOk)
    (hpublished : w₁.published = w.published ++ updates) (n : Nat) {k : Nat}
    (hv : v.store = w₁.store.later request.bundleIds k) :
    ∃ v', d.evaluator.evaluateAll (List.replicate n request) v = (List.replicate n response, v') ∧
      v'.published = v.published ++ (List.replicate n updates).flatten ∧
      v'.store = w₁.store.later request.bundleIds (k + n) := by
  induction n generalizing v k with
  | zero => exact ⟨v, rfl, (List.append_nil _).symm, hv⟩
  | succ n ih =>
    obtain ⟨v₁, hfirst, hpublished₁, hstore₁⟩ := hd.evaluate_later hn h hok hpublished hv
    obtain ⟨v', hrest, hpublished', hstore'⟩ := ih hstore₁
    refine ⟨v', ?_, ?_, ?_⟩
    · rw [List.replicate_succ, Evaluator.evaluateAll_cons, hfirst, hrest]
      rfl
    · rw [hpublished', hpublished₁, List.replicate_succ, List.flatten_cons, List.append_assoc]
    · rw [hstore', Nat.add_right_comm, Nat.add_assoc]

end Willing

/-- **Evaluating again finds the same again.**  Every call is let through, and the inventory stays
as it is.  In whatever store that differs in findings only, that is in status, reasons, lines and
versions, a request is answered the same, publishes the same, and, if it succeeds, stores the same
but for the versions.  So after a success any number of evaluations are all answered the same and
publish the same.  What they leave is what the first one left, with the rules of the bundles as many
versions later as there were further evaluations; since before the first one, versions have counted
all of them, and nothing else is changed. -/
theorem evaluate_repeated (hd : d.Willing) (hn : (w.store.rules.map Rule.id).Nodup)
    (h : d.evaluator.evaluate request w = (response, w₁)) :
    ∃ updates, w₁.published = w.published ++ updates ∧
      (∀ v, v.store.bare = w.store.bare → ∃ v₁,
        d.evaluator.evaluate request v = (response, v₁) ∧
        v₁.published = v.published ++ updates ∧
        (response.statusCode = statusOk → ∀ id ∈ request.bundleIds,
          (v₁.store.rulesOf id).map Rule.unversioned =
            (w₁.store.rulesOf id).map Rule.unversioned)) ∧
      (response.statusCode = statusOk → ∀ n, ∃ w',
        d.evaluator.evaluateAll (List.replicate (n + 1) request) w =
          (List.replicate (n + 1) response, w') ∧
        w'.published = w.published ++ (List.replicate (n + 1) updates).flatten ∧
        w'.store = w₁.store.later request.bundleIds n ∧
        w'.store.bundles = w.store.bundles ∧ w'.store.objects = w.store.objects ∧
        List.Forall₂ (Rule.EvaluatedIn request.bundleIds (n + 1)) w.store.rules
          w'.store.rules) := by
  obtain ⟨updates, -, -, hpublished, -⟩ := hd.evaluate_of_bare (v := w) rfl h
  refine ⟨updates, hpublished, fun v hbare => ?_, fun hok n => ?_⟩
  · obtain ⟨updates', v₁, h', hw, hv₁⟩ := hd.evaluate_of_bare hbare h
    rw [← List.append_cancel_left (hpublished.symm.trans hw)] at hv₁
    refine ⟨v₁, h', hv₁, fun hok id hid => ?_⟩
    obtain ⟨batch, batch', hrenewed, hrenewed', hbatch⟩ := hd.exists_renewedBy hbare hn h h' hok
    have hn' : (v.store.rules.map Rule.id).Nodup := by
      rwa [Store.Snapshot.map_id_of_bare hbare]
    rw [hrenewed'.map_unversioned_rulesOf hn' hid, hrenewed.map_unversioned_rulesOf hn hid, hbare,
      hbatch]
  · obtain ⟨batch, -, hrenewed, -⟩ := hd.exists_renewedBy rfl hn h h hok
    obtain ⟨w', hrest, hpublished', hstore⟩ := hd.evaluateAll_later hn h hok hpublished n
      (w₁.store.later_zero request.bundleIds).symm
    rw [Nat.zero_add] at hstore
    refine ⟨w', ?_, ?_, hstore, ?_, ?_, ?_⟩
    · rw [List.replicate_succ, Evaluator.evaluateAll_cons, h, hrest]
      rfl
    · rw [hpublished', hpublished, List.replicate_succ, List.flatten_cons, List.append_assoc]
    · rw [hstore, hrenewed.eq hn]
      rfl
    · rw [hstore, hrenewed.eq hn]
      rfl
    · rw [hstore]
      exact hrenewed.evaluatedIn_later hn n

/-- Two bundles, of which the first has a rule: whatever number of times they are evaluated, each
time the same is published for both, and the version of the rule tells that number. -/
theorem evaluate_repeated_sample :
    (Sample.deployment []).Willing ∧ (Sample.world.store.rules.map Rule.id).Nodup ∧
    ∃ response w₁, (Sample.deployment []).evaluator.evaluate ⟨["b1", "b2"]⟩ Sample.world =
        (response, w₁) ∧ response.statusCode = statusOk ∧
      ∃ updates, w₁.published = Sample.world.published ++ updates ∧
        updates.map (·.ruleGroupArn) = ["g1", "g2"] ∧
        ∀ n, ∃ w', (Sample.deployment []).evaluator.evaluateAll
              (List.replicate (n + 1) ⟨["b1", "b2"]⟩) Sample.world =
            (List.replicate (n + 1) response, w') ∧
          w'.published = Sample.world.published ++ (List.replicate (n + 1) updates).flatten ∧
          List.Forall₂ (Rule.EvaluatedIn ["b1", "b2"] (n + 1)) Sample.store.rules
            w'.store.rules := by
  have hd : (Sample.deployment []).Willing := Sample.willing_deployment
  have hn : (Sample.world.store.rules.map Rule.id).Nodup := by decide
  have hok : ((Sample.deployment []).evaluator.evaluate ⟨["b1", "b2"]⟩
      Sample.world).1.statusCode = statusOk := by
    decide +kernel
  have harns : ((Sample.deployment []).evaluator.evaluate ⟨["b1", "b2"]⟩
      Sample.world).2.published.map (·.ruleGroupArn) = ["g1", "g2"] := by
    decide +kernel
  rcases h : (Sample.deployment []).evaluator.evaluate ⟨["b1", "b2"]⟩ Sample.world with
    ⟨response, w₁⟩
  rw [h] at hok harns
  obtain ⟨updates, hpublished, -, hruns⟩ := evaluate_repeated hd hn h
  refine ⟨hd, hn, response, w₁, rfl, hok, updates, hpublished, ?_, fun n => ?_⟩
  · rw [← harns, hpublished]
    rfl
  · obtain ⟨w', hall, hpublished', -, -, -, hrules⟩ := hruns hok n
    exact ⟨w', hall, hpublished', hrules⟩

end Deployment

end Firewall
