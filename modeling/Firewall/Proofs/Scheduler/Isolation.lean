/-
# Rule groups do not see each other

In a steady deployment with a store in memory, a cycle does to the bundles of a rule group what these
bundles, their rules and the objects make it do.  What other bundles and rules there are, how many
there are, whether their evaluation fails, and who has a turn first makes no difference.

* `Deployment.brings_eq` : a rule group at its turn is as good as at first;
* `Deployment.cycle_shares` : what a cycle stores and publishes, rule group by rule group;
* `Store.Snapshot.AgreeOnGroup` : two stores that agree on a rule group;
* `Deployment.cycle_isolated` : two cycles in such stores.
-/
import Firewall.Proofs.Scheduler.Order
import Firewall.Proofs.Scheduler.Rounds

namespace Firewall

open Evaluation Scheduler

namespace Sample

/-- A world with two rule groups.  The rule of the first names an object that is no address. -/
def crowded : World Unit where
  ledger.store.bundles := [.new "b2" "g2" "", .new "b1" "g1" ""]
  ledger.store.rules :=
    [⟨"r2", "b2", "pass", "tcp", "o3", .any, "o2", .any, .pending, [], none, 0, none⟩,
      ⟨"r1", "b1", "pass", "tcp", "o1", .any, "o2", .single "443", .pending, [], none, 0, none⟩]
  ledger.store.objects :=
    [⟨"o1", .address "10.0.0.1"⟩, ⟨"o2", .address "10.0.1.0/24"⟩, ⟨"o3", .address "here"⟩]
  ledger.journal := []
  outside := ()

/-- The same world without the first rule group. -/
def quiet : World Unit where
  ledger.store.bundles := [.new "b1" "g1" ""]
  ledger.store.rules :=
    [⟨"r1", "b1", "pass", "tcp", "o1", .any, "o2", .single "443", .pending, [], none, 0, none⟩]
  ledger.store.objects := crowded.store.objects
  ledger.journal := []
  outside := ()

end Sample

namespace Deployment

variable {ω : Type}

/-! ## Turns -/

/-- **A rule group that has its turn** is evaluated as it would have been at first. -/
theorem brings_eq {d : Deployment ω} (hd : d.Steady) (r : Round ω) {w : World ω}
    (hb : (w.store.bundles.map (·.id)).Nodup) (hn : (w.store.rules.map Rule.id).Nodup) {b : Bundle}
    (hmem : b ∈ w.store.bundles) :
    r.brings d w b.ruleGroupArn =
      (d.resultFor w (groupIds w.store.bundles b.ruleGroupArn)).isOk := by
  -- what lies outside has changed when the round starts, and the store has not
  have hn₁ : ((r.enter w).store.rules.map Rule.id).Nodup := hn
  have hentered := (trace_congr hd hn hn₁
    (.refl (groupIds w.store.bundles b.ruleGroupArn) w.store)).1
  have hperm := r.schedule.perm_turns (requestsFor w.store.bundles) (r.enter w)
  obtain ⟨after, hturns⟩ :=
    exists_takeWhile_append (hperm.mem_iff.2 (groupIds_mem_requestsFor hmem))
  have hapart := (hperm.pairwise_iff Apart.symm).2 (pairwise_requestsFor hb)
  rw [hturns, List.pairwise_append] at hapart
  obtain ⟨hbefore, -, hboth⟩ := hapart
  obtain ⟨-, hledger⟩ := inOrder_direct hd hbefore hn₁
  obtain ⟨hn₂, hagree⟩ := agree_record (groupIds w.store.bundles b.ruleGroupArn) hn₁ hledger
    fun e he => by
      obtain ⟨r', hr', he⟩ := List.mem_flatMap.1 he
      exact ⟨_, (record_entriesFor hd hn₁ r'.bundleIds).2 e he,
        hboth r' hr' _ List.mem_cons_self⟩
  rw [hentered, (trace_congr hd hn₁ hn₂ hagree).1]
  rfl

/-! ## Rule groups -/

/-- The share of a bundle is that of its rule group. -/
theorem shareOf_of_mem (d : Deployment ω) {w : World ω} (hb : (w.store.bundles.map (·.id)).Nodup)
    {b : Bundle} (hmem : b ∈ w.store.bundles) :
    d.shareOf w b.id = d.entriesFor w (groupIds w.store.bundles b.ruleGroupArn) := by
  unfold shareOf
  rw [Store.Snapshot.bundle?_of_mem hb hmem]

/-- **What a cycle stores and publishes**: every rule is replaced by its share, and every rule group
gets the updates that evaluating it at first would bring. -/
theorem cycle_shares {d : Deployment ω} (hd : d.Steady) {w v : World ω}
    (hb : (w.store.bundles.map (·.id)).Nodup) (hn : (w.store.rules.map Rule.id).Nodup)
    (hlen : w.store.bundles.length ≤ UInt64.size)
    (hlist : d.repository.listBundles.perform w = (.ok w.store.bundles, w)) {time : Timestamp}
    {schedule : Schedule (World ω)} {result : Except Error Report}
    (h : (cycle d.repository (schedule.dispatch (Invoker.direct d.evaluator)) time).perform w =
      (result, v)) :
    (∀ id, v.store.rulesOf id =
      (w.store.rulesOf id).map (Store.replacedBy ((d.shareOf w id).flatMap Effect.rules))) ∧
    (∀ ruleGroupArn, v.published.filter (·.ruleGroupArn = ruleGroupArn) =
      w.published.filter (·.ruleGroupArn = ruleGroupArn) ++
        (d.entriesFor w (groupIds w.store.bundles ruleGroupArn)).filterMap Effect.update?) ∧
    v.store.objects = w.store.objects := by
  obtain ⟨e, hfails, -, -⟩ | ⟨w₁, outcomes, w₂, done, refused, hlist', -, hask, hsettled⟩ :=
    d.cycle_cases _ hlen h
  · rw [hlist] at hfails
    cases hfails
  · rw [hlist] at hlist'
    cases hlist'
    have hasked := asked_of_dispatch hd schedule hb hn hask
    refine ⟨fun id => ?_, fun ruleGroupArn => ?_, ?_⟩
    · rw [← hasked.rulesOf]
      unfold Store.Snapshot.rulesOf
      rw [hsettled.stamps.rules]
    · rw [hsettled.stamps.published, hasked.published]
    · rw [hsettled.stamps.objects, hasked.store]

/-- The bundles of a rule group after a round: all of them are stamped, or none. -/
theorem ofArn_of_sorts {d : Deployment ω} {r : Round ω} {w : World ω} (h : r.Sorts d w)
    (ruleGroupArn : String) :
    Bundle.ofArn ruleGroupArn (r.run d w).2.store.bundles =
      (Bundle.ofArn ruleGroupArn w.store.bundles).map fun b =>
        if r.brings d w ruleGroupArn then b.stampedAt r.time else b := by
  have harn : ∀ b : Bundle, (if r.brings d w b.ruleGroupArn then b.stampedAt r.time
      else b).ruleGroupArn = b.ruleGroupArn := by
    intro b
    split <;> rfl
  unfold Bundle.ofArn
  rw [h.bundles, List.filter_map]
  simp only [Function.comp_def, harn]
  refine List.map_congr_left fun b hb => ?_
  have hb := (Bundle.mem_ofArn.1 hb).2
  rw [hb]

/-- A bundle is named after a round exactly if its rule group was not evaluated with success. -/
theorem named_iff_of_sorts {d : Deployment ω} {r : Round ω} {w : World ω} (h : r.Sorts d w)
    (hb : (w.store.bundles.map (·.id)).Nodup) {b : Bundle} (hmem : b ∈ w.store.bundles) :
    Named (r.run d w).1 b.id ↔ r.brings d w b.ruleGroupArn = false := by
  rw [h.named]
  constructor
  · rintro ⟨c, hc, hid, hfalse⟩
    rwa [List.inj_on_of_nodup_map hb hc hmem hid] at hfalse
  · exact fun hfalse => ⟨b, hmem, rfl, hfalse⟩

end Deployment

/-! ## Stores that agree on a rule group -/

namespace Store.Snapshot

/-- Two stores agree on a rule group: on its bundles in order, on their rules, and on all
objects. -/
structure AgreeOnGroup (ruleGroupArn : String) (s s' : Snapshot) : Prop where
  bundles : Bundle.ofArn ruleGroupArn s.bundles = Bundle.ofArn ruleGroupArn s'.bundles
  rulesOf : ∀ b ∈ Bundle.ofArn ruleGroupArn s.bundles, s.rulesOf b.id = s'.rulesOf b.id
  objects : s.objects = s'.objects

namespace AgreeOnGroup

variable {ruleGroupArn : String} {s s' : Snapshot} (h : s.AgreeOnGroup ruleGroupArn s')
include h

theorem groupIds_eq : groupIds s.bundles ruleGroupArn = groupIds s'.bundles ruleGroupArn :=
  congrArg (List.map Bundle.id) h.bundles

/-- A bundle of the rule group is in both stores. -/
theorem mem_bundles {b : Bundle} (hb : b ∈ Bundle.ofArn ruleGroupArn s.bundles) :
    b ∈ s.bundles ∧ b ∈ s'.bundles ∧ b.ruleGroupArn = ruleGroupArn := by
  have hb' := hb
  rw [h.bundles] at hb'
  exact ⟨(Bundle.mem_ofArn.1 hb).1, Bundle.mem_ofArn.1 hb'⟩

/-- An evaluation of the rule group finds the same in both stores. -/
theorem agree (hb : (s.bundles.map (·.id)).Nodup) (hb' : (s'.bundles.map (·.id)).Nodup) :
    s.Agree (groupIds s.bundles ruleGroupArn) s' := by
  refine ⟨fun id hid => ?_, fun id hid => ?_, h.objects⟩
  · obtain ⟨b, hmem, rfl⟩ := List.mem_map.1 hid
    obtain ⟨hs, hs', -⟩ := h.mem_bundles hmem
    rw [bundle?_of_mem hb hs, bundle?_of_mem hb' hs']
  · obtain ⟨b, hmem, rfl⟩ := List.mem_map.1 hid
    exact h.rulesOf b hmem

end AgreeOnGroup

end Store.Snapshot

namespace Deployment

variable {ω : Type}

/-! ## Two cycles -/

/-- A rule group that two stores agree on is evaluated with success in rounds of both, or of
neither. -/
theorem brings_congr {d : Deployment ω} (hd : d.Steady) (r r' : Round ω) {w w' : World ω}
    (hb : (w.store.bundles.map (·.id)).Nodup) (hb' : (w'.store.bundles.map (·.id)).Nodup)
    (hn : (w.store.rules.map Rule.id).Nodup) (hn' : (w'.store.rules.map Rule.id).Nodup)
    {ruleGroupArn : String} (hgroup : w.store.AgreeOnGroup ruleGroupArn w'.store) {b : Bundle}
    (hmem : b ∈ Bundle.ofArn ruleGroupArn w.store.bundles) :
    r.brings d w ruleGroupArn = r'.brings d w' ruleGroupArn := by
  obtain ⟨hs, hs', rfl⟩ := hgroup.mem_bundles hmem
  have hresult := (trace_congr hd hn hn' (hgroup.agree hb hb')).1
  rw [hgroup.groupIds_eq] at hresult
  rw [brings_eq hd r hb hn hs, brings_eq hd r' hb' hn' hs', hgroup.groupIds_eq, hresult]

/-- **Rule groups do not see each other.**  If two stores agree on a rule group, then two cycles at
the same time do the same to it, whatever else there is in either store: they publish the same
updates of it and name the same of its bundles, and the stores agree on it again, with the same
rules and the same times. -/
theorem cycle_isolated {accept : Update → Action ω Unit} {source : Inventory.Source ω}
    {chain : List Resolver} {denyRuleId : String}
    (hd : (inMemory accept source chain denyRuleId).Steady) {w w' : World ω}
    (hb : (w.store.bundles.map (·.id)).Nodup) (hb' : (w'.store.bundles.map (·.id)).Nodup)
    (hn : (w.store.rules.map Rule.id).Nodup) (hn' : (w'.store.rules.map Rule.id).Nodup)
    (hlen : w.store.bundles.length ≤ UInt64.size) (hlen' : w'.store.bundles.length ≤ UInt64.size)
    {ruleGroupArn : String} (hgroup : w.store.AgreeOnGroup ruleGroupArn w'.store)
    (time : Timestamp) (schedule schedule' : Schedule (World ω))
    {result result' : Except Error Report} {v v' : World ω}
    (h : (cycle (inMemory accept source chain denyRuleId).repository (schedule.dispatch
      (Invoker.direct (inMemory accept source chain denyRuleId).evaluator)) time).perform w =
        (result, v))
    (h' : (cycle (inMemory accept source chain denyRuleId).repository (schedule'.dispatch
      (Invoker.direct (inMemory accept source chain denyRuleId).evaluator)) time).perform w' =
        (result', v')) :
    (∃ updates,
      v.published.filter (·.ruleGroupArn = ruleGroupArn) =
        w.published.filter (·.ruleGroupArn = ruleGroupArn) ++ updates ∧
      v'.published.filter (·.ruleGroupArn = ruleGroupArn) =
        w'.published.filter (·.ruleGroupArn = ruleGroupArn) ++ updates) ∧
    v.store.AgreeOnGroup ruleGroupArn v'.store ∧
    ∀ b ∈ Bundle.ofArn ruleGroupArn w.store.bundles, Named result b.id ↔ Named result' b.id := by
  have hentries := (trace_congr hd hn hn' (hgroup.agree hb hb')).2
  rw [hgroup.groupIds_eq] at hentries
  obtain ⟨hrules, hpublished, hobjects⟩ := cycle_shares hd hb hn hlen
    (perform_listBundles_inMemory accept source chain denyRuleId hlen) h
  obtain ⟨hrules', hpublished', hobjects'⟩ := cycle_shares hd hb' hn' hlen'
    (perform_listBundles_inMemory accept source chain denyRuleId hlen') h'
  -- the cycles are rounds in which nothing changes outside
  have hsorts := sorts_round accept source chain denyRuleId ⟨time, id, schedule⟩ hb hlen
  have hsorts' := sorts_round accept source chain denyRuleId ⟨time, id, schedule'⟩ hb' hlen'
  have hbrings := fun b hmem => brings_congr hd ⟨time, id, schedule⟩ ⟨time, id, schedule'⟩ hb hb'
    hn hn' hgroup (b := b) hmem
  have hrun : Round.run _ ⟨time, id, schedule⟩ w = (result, v) := h
  have hrun' : Round.run _ ⟨time, id, schedule'⟩ w' = (result', v') := h'
  have hofArn := ofArn_of_sorts hsorts ruleGroupArn
  have hofArn' := ofArn_of_sorts hsorts' ruleGroupArn
  rw [hrun] at hofArn
  rw [hrun'] at hofArn'
  refine ⟨⟨_, hpublished ruleGroupArn, ?_⟩, ⟨?_, fun b hmem => ?_, ?_⟩, fun b hmem => ?_⟩
  · rw [hpublished', hgroup.groupIds_eq, hentries]
  · rw [hofArn, hofArn', ← hgroup.bundles]
    exact List.map_congr_left fun b hmem => by rw [hbrings b hmem]
  · -- a bundle of the rule group after the cycle has the id of one before it
    obtain ⟨c, hc, hid⟩ : ∃ c ∈ Bundle.ofArn ruleGroupArn w.store.bundles, b.id = c.id := by
      rw [hofArn] at hmem
      obtain ⟨c, hc, rfl⟩ := List.mem_map.1 hmem
      exact ⟨c, hc, by split <;> rfl⟩
    obtain ⟨hs, hs', rfl⟩ := hgroup.mem_bundles hc
    rw [hid, hrules, hrules', hgroup.rulesOf c hc, shareOf_of_mem _ hb hs,
      shareOf_of_mem _ hb' hs', hgroup.groupIds_eq, hentries]
  · rw [hobjects, hobjects', hgroup.objects]
  · obtain ⟨hs, hs', harn⟩ := hgroup.mem_bundles hmem
    have hnamed := named_iff_of_sorts hsorts hb hs
    have hnamed' := named_iff_of_sorts hsorts' hb' hs'
    rw [hrun] at hnamed
    rw [hrun'] at hnamed'
    rw [hnamed, hnamed', harn, hbrings b hmem]

/-- A world with another rule group in front, whose evaluation fails, and the world without it: one
cycle fails and the other succeeds, and the rule group that both have fares the same. -/
theorem cycle_isolated_crowded :
    (Sample.deployment []).Steady ∧
    (Sample.crowded.store.bundles.map (·.id)).Nodup ∧
    (Sample.quiet.store.bundles.map (·.id)).Nodup ∧
    (Sample.crowded.store.rules.map Rule.id).Nodup ∧ (Sample.quiet.store.rules.map Rule.id).Nodup ∧
    Sample.crowded.store.bundles.length ≤ UInt64.size ∧
    Sample.quiet.store.bundles.length ≤ UInt64.size ∧
    Sample.crowded.store.AgreeOnGroup "g1" Sample.quiet.store ∧
    ∃ result result' v v',
      (cycle (Sample.deployment []).repository
        (Schedule.plain.dispatch (Invoker.direct (Sample.deployment []).evaluator))
        Sample.time).perform Sample.crowded = (result, v) ∧
      (cycle (Sample.deployment []).repository
        (Schedule.plain.dispatch (Invoker.direct (Sample.deployment []).evaluator))
        Sample.time).perform Sample.quiet = (result', v') ∧
      result.isOk = false ∧ result'.isOk = true ∧
      (∃ updates, v.published.filter (·.ruleGroupArn = "g1") =
          Sample.crowded.published.filter (·.ruleGroupArn = "g1") ++ updates ∧
        v'.published.filter (·.ruleGroupArn = "g1") =
          Sample.quiet.published.filter (·.ruleGroupArn = "g1") ++ updates) ∧
      v.store.AgreeOnGroup "g1" v'.store ∧
      ∀ b ∈ Bundle.ofArn "g1" Sample.crowded.store.bundles,
        Named result b.id ↔ Named result' b.id := by
  have hd : (Sample.deployment []).Steady := Sample.steady_deployment []
  have hb : (Sample.crowded.store.bundles.map (·.id)).Nodup := by decide
  have hb' : (Sample.quiet.store.bundles.map (·.id)).Nodup := by decide
  have hn : (Sample.crowded.store.rules.map Rule.id).Nodup := by decide
  have hn' : (Sample.quiet.store.rules.map Rule.id).Nodup := by decide
  have hlen : Sample.crowded.store.bundles.length ≤ UInt64.size := by decide
  have hlen' : Sample.quiet.store.bundles.length ≤ UInt64.size := by decide
  have hgroup : Sample.crowded.store.AgreeOnGroup "g1" Sample.quiet.store :=
    ⟨by decide, by decide, rfl⟩
  obtain ⟨hupdates, hstores, hnamed⟩ := cycle_isolated hd hb hb' hn hn' hlen hlen' hgroup
    Sample.time Schedule.plain Schedule.plain rfl rfl
  refine ⟨hd, hb, hb', hn, hn', hlen, hlen', hgroup, _, _, _, _, rfl, rfl, ?_, ?_, hupdates,
    hstores, hnamed⟩
  · decide +kernel
  · decide +kernel

end Deployment

end Firewall
