/-
# Groups that are asked for

A cycle divides the bundles that it lists by rule group, and asks for each group by the ids of its
members.  An evaluation loads bundles by their ids and divides them again.  As long as no two bundles
have the same id, what it comes to is the group that the cycle meant.

* `Deployment.Regroups` : what evaluating the ids of a group comes to;
* `Deployment.perform_load_inMemory`, `perform_mapM_load_inMemory` : loading by ids;
* `Deployment.regroups_of_mem` : a group of the store is found again;
* `Deployment.cycle_regroups` : cycles and evaluations divide alike.
-/
import Firewall.Proofs.Evaluation.Batch
import Firewall.Proofs.Scheduler.Direct
import Firewall.Proofs.Store.Listing

namespace Firewall

open Evaluation Scheduler

namespace Sample

/-- A world in which the bundles of a rule group do not stand side by side. -/
def interleaved : World Unit where
  ledger.store.bundles := [.new "b1" "g1" "", .new "b2" "g2" "", .new "b3" "g1" ""]
  ledger.store.rules := store.rules
  ledger.store.objects := store.objects
  ledger.journal := []
  outside := ()

end Sample

namespace Deployment

variable {ω : Type}

/-! ## Loading -/

section Loading

variable (accept : Update → Action ω Unit) (source : Inventory.Source ω) (chain : List Resolver)
  (denyRuleId : String)

/-- A bundle that is stored can be loaded. -/
theorem perform_load_inMemory {w : World ω} {id : String} {b : Bundle}
    (h : w.store.bundle? id = some b) :
    ((inMemory accept source chain denyRuleId).evaluator.load id).perform w = (.ok b, w) := by
  have hread : ((inMemory accept source chain denyRuleId).repository.bundle? id).perform w =
      (.ok (some b), w) := congrArg (fun found => (Except.ok found, w)) h
  exact Action.perform_bind_of_ok hread _

/-- **Ids that stand for bundles** are loaded as these bundles, and nothing is changed. -/
theorem perform_mapM_load_inMemory {w : World ω} {ids : List String} {bundles : List Bundle}
    (h : w.store.Loads ids bundles) :
    (ids.mapM (inMemory accept source chain denyRuleId).evaluator.load).perform w =
      (.ok bundles, w) := by
  induction h with
  | nil => rfl
  | cons hb _ ih =>
    exact Action.perform_mapM_ok_iff.2
      ⟨_, w, _, perform_load_inMemory accept source chain denyRuleId hb, ih, rfl⟩

end Loading

/-! ## Groups that are found again -/

/-- What evaluating the ids of a group comes to: they are loaded as the members of the group, these
make up the group alone, and so the evaluation is that of the group. -/
structure Regroups (d : Deployment ω) (w : World ω) (group : String × List Bundle) : Prop where
  loads : ((group.2.map (·.id)).mapM d.evaluator.load).perform w = (.ok group.2, w)
  alone : Bundle.groupByArn group.2 = [group]
  evaluates : (d.evaluator.evaluateBundles (group.2.map (·.id))).perform w =
    ((fun g => [g]) <$> d.evaluator.evaluateGroup group).perform w

/-- The ids of a group stand for its members. -/
theorem loads_of_mem_groupByArn {s : Store.Snapshot} (hids : (s.bundles.map (·.id)).Nodup)
    {group : String × List Bundle} (h : group ∈ Bundle.groupByArn s.bundles) :
    s.Loads (group.2.map (·.id)) group.2 := by
  have hstored : ∀ b ∈ group.2, s.bundle? b.id = some b := by
    intro b hb
    rw [Bundle.snd_of_mem_groupByArn h] at hb
    exact Store.Snapshot.bundle?_of_mem hids (Bundle.mem_ofArn.1 hb).1
  rw [Store.Snapshot.Loads, List.forall₂_map_left_iff]
  exact List.forall₂_same.2 hstored

/-- **A group of the store is found again** when it is evaluated by ids. -/
theorem regroups_of_mem (accept : Update → Action ω Unit) (source : Inventory.Source ω)
    (chain : List Resolver) (denyRuleId : String) {w : World ω}
    (hids : (w.store.bundles.map (·.id)).Nodup) {group : String × List Bundle}
    (h : group ∈ Bundle.groupByArn w.store.bundles) :
    (inMemory accept source chain denyRuleId).Regroups w group := by
  have hload := perform_mapM_load_inMemory accept source chain denyRuleId
    (loads_of_mem_groupByArn hids h)
  have halone := Bundle.groupByArn_of_mem h
  refine ⟨hload, halone, ?_⟩
  rw [Evaluator.evaluateBundles, Action.perform_bind_of_ok hload, halone, List.mapM_cons,
    List.mapM_nil]
  rfl

/-- The bundles are the same at every turn of a dispatch. -/
theorem bundles_worldAt (d : Deployment ω) (schedule : Schedule (World ω))
    (requests : List Request) (r : Request) (w : World ω) :
    (schedule.worldAt (Invoker.direct d.evaluator) requests r w).store.bundles =
      w.store.bundles :=
  congrArg Prod.fst (keeps_inOrder d.keeps_direct _ w)

/-! ## Cycles and evaluations -/

/-- **Cycles and evaluations divide alike.**  Any list of bundles has one stable division, and its
groups are that.  What a cycle lists are the bundles of the store, and what it dispatches are the ids
of their groups, one request for each.  Wherever the store has these bundles, evaluating the ids of a
group finds exactly its members, and they make up that group alone; and the store does have them at
every turn of the dispatch. -/
theorem cycle_regroups (accept : Update → Action ω Unit) (source : Inventory.Source ω)
    (chain : List Resolver) (denyRuleId : String) {w : World ω}
    (hids : (w.store.bundles.map (·.id)).Nodup) :
    (∀ bundles groups, Bundle.Divides groups bundles ↔ groups = Bundle.groupByArn bundles) ∧
    (w.store.bundles.length ≤ UInt64.size →
      (inMemory accept source chain denyRuleId).repository.listBundles.perform w =
        (.ok w.store.bundles, w)) ∧
    (∀ bundles w',
      (inMemory accept source chain denyRuleId).repository.listBundles.perform w =
        (.ok bundles, w') →
      w'.store = w.store ∧
      ∀ (dispatch : Dispatch (World ω)) time outcomes v,
        dispatch ((Bundle.groupByArn w.store.bundles).map fun group => ⟨group.2.map (·.id)⟩) w' =
          (outcomes, v) →
        (cycle (inMemory accept source chain denyRuleId).repository dispatch time).perform w =
          (settle (inMemory accept source chain denyRuleId).repository time
            (Bundle.groupByArn w.store.bundles).length outcomes).perform v) ∧
    (∀ v, v.store.bundles = w.store.bundles → ∀ group ∈ Bundle.groupByArn w.store.bundles,
      (inMemory accept source chain denyRuleId).Regroups v group) ∧
    ∀ (schedule : Schedule (World ω)) requests r,
      (schedule.worldAt (Invoker.direct (inMemory accept source chain denyRuleId).evaluator)
        requests r w).store.bundles = w.store.bundles := by
  refine ⟨fun bundles groups => Bundle.divides_iff,
    perform_listBundles_inMemory accept source chain denyRuleId, fun bundles w' hlist => ?_,
    fun v hv group hgroup => ?_, fun schedule requests r => bundles_worldAt _ schedule requests r w⟩
  · obtain ⟨rfl, hledger⟩ := bundles_of_listBundles _ hlist
    refine ⟨congrArg Ledger.store hledger, fun dispatch time outcomes v hdispatch => ?_⟩
    rw [perform_cycle hlist hdispatch, requestsFor, List.length_map]
  · rw [← hv] at hgroup
    exact regroups_of_mem accept source chain denyRuleId (hv ▸ hids) hgroup

/-- The members of a rule group that stand apart in the store are found again together. -/
theorem cycle_regroups_interleaved :
    (Sample.interleaved.store.bundles.map (·.id)).Nodup ∧
    Bundle.groupByArn Sample.interleaved.store.bundles =
      [("g1", [.new "b1" "g1" "", .new "b3" "g1" ""]), ("g2", [.new "b2" "g2" ""])] ∧
    (Sample.deployment []).Regroups Sample.interleaved
      ("g1", [.new "b1" "g1" "", .new "b3" "g1" ""]) := by
  have hids : (Sample.interleaved.store.bundles.map (·.id)).Nodup := by decide
  have hgroups : Bundle.groupByArn Sample.interleaved.store.bundles =
      [("g1", [.new "b1" "g1" "", .new "b3" "g1" ""]), ("g2", [.new "b2" "g2" ""])] := by
    decide
  obtain ⟨-, -, -, hregroups, -⟩ := cycle_regroups (ω := Unit)
    (fun u => if u.ruleGroupArn ∈ [] then throw (.publish "refused") else pure ())
    ⟨fun _ _ => pure [], ""⟩ Resolver.standard "default-deny-all" hids
  refine ⟨hids, hgroups, hregroups _ rfl _ ?_⟩
  rw [hgroups]
  exact List.mem_cons_self

end Deployment

end Firewall
