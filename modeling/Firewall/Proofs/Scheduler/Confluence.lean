/-
# Cycles by different schedules

In a steady deployment the requests of a cycle come to the same in every order, and so do their
outcomes when they are settled.  So a schedule decides nothing but the order of the entries in the
journal: the store, the updates of every rule group and the result of the cycle are the same by
all schedules.

* `Deployment.Steady.settle_congr` : settling in two worlds with the same store;
* `Deployment.published_settle` : settling publishes nothing;
* `Deployment.cycle_confluent` : two schedules come to the same.
-/
import Firewall.Proofs.Scheduler.Order

namespace Firewall

open Evaluation Scheduler

namespace Sample

/-- The schedule that turns both orders around. -/
def reversed {σ : Type} : Schedule σ where
  turns requests _ := requests.reverse
  arrivals outcomes _ := outcomes.reverse
  perm_turns requests _ := requests.reverse_perm
  perm_arrivals outcomes _ := outcomes.reverse_perm

end Sample

namespace Deployment

variable {ω : Type} {d : Deployment ω}

/-! ## Settling -/

/-- A steady deployment stamps alike in two worlds with the same store. -/
theorem Steady.stampAll_congr (hd : d.Steady) (time : Timestamp) (ids : List String)
    {w w' : World ω} (h : w.store = w'.store) :
    (stampAll d.repository time ids w).1 = (stampAll d.repository time ids w').1 ∧
      (stampAll d.repository time ids w).2.store =
        (stampAll d.repository time ids w').2.store := by
  induction ids generalizing w w' with
  | nil => exact ⟨rfl, h⟩
  | cons id ids ih =>
    have hstamp : Action.Alike (fun l l' : Ledger => l.store = l'.store)
        (Ledger.repository.stamp id time) (Ledger.repository.stamp id time) := by
      intro l l' hl
      rw [Ledger.perform_stamp, Ledger.perform_stamp, hl]
      cases Store.Snapshot.stampIn id time l'.store.bundles with
      | none => exact ⟨rfl, hl⟩
      | some bundles => exact ⟨rfl, rfl⟩
    obtain ⟨hresult, hstore⟩ := hd.alike_call (c := .stamp id time) hstamp w w' h
    rcases hw : (d.repository.stamp id time).perform w with ⟨e | ⟨⟩, v⟩ <;>
      rcases hw' : (d.repository.stamp id time).perform w' with ⟨e' | ⟨⟩, v'⟩
    all_goals
      have hcall : (d.call (.stamp id time) (Ledger.repository.stamp id time)).perform w = _ := hw
      have hcall' : (d.call (.stamp id time) (Ledger.repository.stamp id time)).perform w' = _ :=
        hw'
      rw [hcall, hcall'] at hresult hstore
    · obtain ⟨hrefused, hlast⟩ := ih hstore
      rw [stampAll_cons_of_error hw, stampAll_cons_of_error hw', hrefused]
      exact ⟨rfl, hlast⟩
    · cases hresult
    · cases hresult
    · rw [stampAll_cons_of_ok hw, stampAll_cons_of_ok hw']
      exact ih hstore

/-- **Settling the same outcomes** in two worlds with the same store, whatever their order. -/
theorem Steady.settle_congr (hd : d.Steady) (time : Timestamp) (dispatched : Nat)
    {outcomes outcomes' : List Outcome} (hperm : outcomes.Perm outcomes') {w w' : World ω}
    (h : w.store = w'.store) :
    ((settle d.repository time dispatched outcomes).perform w).1 =
        ((settle d.repository time dispatched outcomes').perform w').1 ∧
      ((settle d.repository time dispatched outcomes).perform w).2.store =
        ((settle d.repository time dispatched outcomes').perform w').2.store := by
  obtain ⟨hrefused, hstore⟩ := hd.stampAll_congr time (toStamp outcomes') h
  rw [settle_perm hperm]
  refine ⟨?_, hstore⟩
  show resultOf (reportOf dispatched outcomes' (stampAll _ _ _ w).1) =
    resultOf (reportOf dispatched outcomes' (stampAll _ _ _ w').1)
  rw [hrefused]

/-- Settling publishes nothing. -/
theorem published_settle (d : Deployment ω) (time : Timestamp) (dispatched : Nat)
    (outcomes : List Outcome) (w : World ω) :
    ((settle d.repository time dispatched outcomes).perform w).2.published = w.published := by
  rcases hsettle : (settle d.repository time dispatched outcomes).perform w with ⟨result, w'⟩
  obtain ⟨done, refused, hsettled⟩ := d.settled_of_settle hsettle
  exact hsettled.stamps.published

/-! ## Cycles -/

/-- **A cycle is the same by all schedules**: the same result, the same store with everything in the
same place, and the same updates for every rule group. -/
theorem cycle_confluent (hd : d.Steady) {w : World ω} (hb : (w.store.bundles.map (·.id)).Nodup)
    (hn : (w.store.rules.map Rule.id).Nodup) (time : Timestamp)
    (schedule schedule' : Schedule (World ω)) {result result' : Except Error Report}
    {v v' : World ω}
    (h : (cycle d.repository (schedule.dispatch (Invoker.direct d.evaluator)) time).perform w =
      (result, v))
    (h' : (cycle d.repository (schedule'.dispatch (Invoker.direct d.evaluator)) time).perform w =
      (result', v')) :
    result = result' ∧ v.store = v'.store ∧ ∀ ruleGroupArn,
      v.published.filter (·.ruleGroupArn = ruleGroupArn) =
        v'.published.filter (·.ruleGroupArn = ruleGroupArn) := by
  rcases hlist : d.repository.listBundles.perform w with ⟨e | bundles, w₁⟩
  · -- nobody is asked if the bundles cannot be listed
    rw [cycle, Action.perform_bind_of_error hlist] at h h'
    cases h
    cases h'
    exact ⟨rfl, rfl, fun _ => rfl⟩
  · obtain ⟨rfl, hledger⟩ := d.bundles_of_listBundles hlist
    have hstore : w₁.store = w.store := congrArg Ledger.store hledger
    rw [← hstore] at hlist hb hn
    rw [cycle, Action.perform_bind_of_ok hlist] at h h'
    rcases hask : schedule.dispatch (Invoker.direct d.evaluator) (requestsFor w₁.store.bundles) w₁
      with ⟨outcomes, w₂⟩
    rcases hask' : schedule'.dispatch (Invoker.direct d.evaluator)
      (requestsFor w₁.store.bundles) w₁ with ⟨outcomes', w₂'⟩
    rw [Action.perform_bind_of_ok (by rw [Action.perform_liftM, hask])] at h
    rw [Action.perform_bind_of_ok (by rw [Action.perform_liftM, hask'])] at h'
    have hasked := asked_of_dispatch hd schedule hb hn hask
    have hasked' := asked_of_dispatch hd schedule' hb hn hask'
    have hstores : w₂.store = w₂'.store := hasked.store.trans hasked'.store.symm
    obtain ⟨hresults, hlast⟩ := hd.settle_congr time (requestsFor w₁.store.bundles).length
      (hasked.outcomes.trans hasked'.outcomes.symm) hstores
    have hpublished := d.published_settle time (requestsFor w₁.store.bundles).length outcomes w₂
    have hpublished' :=
      d.published_settle time (requestsFor w₁.store.bundles).length outcomes' w₂'
    rw [h] at hresults hlast hpublished
    rw [h'] at hresults hlast hpublished'
    refine ⟨hresults, hlast, fun ruleGroupArn => ?_⟩
    rw [hpublished, hpublished', hasked.published, hasked'.published]

/-- Two rule groups, published in one order and in the other: the store, the result and the update
of the first rule group are the same. -/
theorem cycle_confluent_reversed :
    (Sample.deployment []).Steady ∧ (Sample.world.store.bundles.map (·.id)).Nodup ∧
    (Sample.world.store.rules.map Rule.id).Nodup ∧
    ∃ result result' v v',
      (cycle (Sample.deployment []).repository
        (Schedule.plain.dispatch (Invoker.direct (Sample.deployment []).evaluator))
        Sample.time).perform Sample.world = (result, v) ∧
      (cycle (Sample.deployment []).repository
        (Sample.reversed.dispatch (Invoker.direct (Sample.deployment []).evaluator))
        Sample.time).perform Sample.world = (result', v') ∧
      v.published.map (·.ruleGroupArn) = ["g1", "g2"] ∧
      v'.published.map (·.ruleGroupArn) = ["g2", "g1"] ∧
      result = result' ∧ v.store = v'.store ∧
      v.published.filter (·.ruleGroupArn = "g1") = v'.published.filter (·.ruleGroupArn = "g1") := by
  have hd : (Sample.deployment []).Steady := Sample.steady_deployment []
  have hb : (Sample.world.store.bundles.map (·.id)).Nodup := by decide
  have hn : (Sample.world.store.rules.map Rule.id).Nodup := by decide
  obtain ⟨hresult, hstore, hpublished⟩ :=
    cycle_confluent hd hb hn Sample.time Schedule.plain Sample.reversed rfl rfl
  refine ⟨hd, hb, hn, _, _, _, _, rfl, rfl, ?_, ?_, hresult, hstore, hpublished "g1"⟩
  · decide +kernel
  · decide +kernel

end Deployment

end Firewall
