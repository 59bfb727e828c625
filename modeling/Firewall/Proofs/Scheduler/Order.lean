/-
# Turns in any order

The requests of a cycle ask for different bundles, and an evaluation goes by its own bundles and
writes rules of these alone.  So in a steady deployment every request is answered as if it were the
first, whoever had a turn before it; the entries of a rule group are the same in every order; and
what is stored and published in the end is put together from them, rule by rule and rule group by
rule group.

* `Scheduler.Apart` : requests for different bundles;
* `Deployment.inOrder_direct` : one request after the other;
* `Deployment.Foreign` : entries that are about other rule groups;
* `Deployment.exists_split_entries` : the entries of one rule group among all;
* `Deployment.Asked`, `asked_of_dispatch` : what asking for all rule groups does, whatever the
  schedule.
-/
import Firewall.Proofs.Evaluation.Trace
import Firewall.Proofs.Scheduler.Direct

namespace Firewall

open Evaluation Scheduler

/-! ## Requests for different bundles -/

namespace Scheduler

/-- Two requests have no bundle in common. -/
def Apart (r r' : Request) : Prop := ∀ id ∈ r.bundleIds, id ∉ r'.bundleIds

theorem Apart.symm {r r' : Request} (h : Apart r r') : Apart r' r :=
  fun id hid' hid => h id hid hid'

/-- The requests of a cycle have no bundle in common. -/
theorem pairwise_requestsFor {bundles : List Bundle} (hn : (bundles.map (·.id)).Nodup) :
    (requestsFor bundles).Pairwise Apart := by
  have hd : (Bundle.groupByArn bundles).Pairwise Bundle.Disjoint := by
    refine Bundle.disjoint_groupByArn fun b hb b' hb' hid => ?_
    rw [List.inj_on_of_nodup_map hn hb hb' hid]
  rw [requestsFor, List.pairwise_map]
  refine hd.imp fun {group group'} hgroups id hid hid' => ?_
  obtain ⟨b, hb, rfl⟩ := List.mem_map.1 hid
  obtain ⟨b', hb', heq⟩ := List.mem_map.1 hid'
  exact hgroups b hb b' hb' heq.symm

end Scheduler

namespace Deployment

variable {ω : Type} {d : Deployment ω}

/-! ## The run -/

/-- What evaluating other bundles leaves is as good as what was there before. -/
theorem agree_record {w w' : World ω} {entries : List Effect} (ids : List String)
    (hn : (w.store.rules.map Rule.id).Nodup) (hledger : w'.ledger = w.ledger.record entries)
    (hwithin : ∀ e ∈ entries, ∃ ids', e.Within ids' w.store ∧ ∀ id ∈ ids', id ∉ ids) :
    (w'.store.rules.map Rule.id).Nodup ∧ w.store.Agree ids w'.store := by
  have hstore : w'.store = w.store.putRules (entries.flatMap Effect.rules) :=
    congrArg Ledger.store hledger
  have hrules : ∀ x ∈ entries.flatMap Effect.rules, w.store.Holds x ∧ x.bundleId ∉ ids := by
    intro x hx
    obtain ⟨e, he, hx⟩ := List.mem_flatMap.1 hx
    obtain ⟨ids', hwithin, hids⟩ := hwithin e he
    exact ⟨(hwithin.holds hx).1, hids _ (hwithin.holds hx).2⟩
  rw [hstore, Store.Snapshot.map_id_putRules hn fun x hx => (hrules x hx).1]
  exact ⟨hn, Store.Snapshot.agree_putRules hn (fun x hx => (hrules x hx).1)
    fun x hx => (hrules x hx).2⟩

/-- An answer tells what the evaluation came to. -/
theorem outcomeAt_direct (d : Deployment ω) (r : Request) (w : World ω) :
    outcomeAt (Invoker.direct d.evaluator) r w =
      ⟨r.bundleIds, .ok (Evaluator.responseOf r.bundleIds (d.resultFor w r.bundleIds))⟩ := rfl

/-- **Requests one after the other**, each answered as if it were the first. -/
theorem inOrder_direct (hd : d.Steady) {rs : List Request} (hapart : rs.Pairwise Apart)
    {w : World ω} (hn : (w.store.rules.map Rule.id).Nodup) :
    (Dispatch.inOrder (Invoker.direct d.evaluator) rs w).1 =
        rs.map (fun r => outcomeAt (Invoker.direct d.evaluator) r w) ∧
      (Dispatch.inOrder (Invoker.direct d.evaluator) rs w).2.ledger =
        w.ledger.record (rs.flatMap fun r => d.entriesFor w r.bundleIds) := by
  induction rs generalizing w with
  | nil => exact ⟨rfl, (Ledger.record_nil _).symm⟩
  | cons r rs ih =>
    rw [List.pairwise_cons] at hapart
    obtain ⟨hrecord, hwithin⟩ := record_entriesFor hd hn r.bundleIds
    rw [inOrder_cons]
    generalize hv : ((Invoker.direct d.evaluator r).perform w).2 = v
    have hledger : v.ledger = w.ledger.record (d.entriesFor w r.bundleIds) := by
      rw [← hv]
      exact hrecord
    -- the other requests find their bundles as they were before the first
    have hsame : ∀ r' ∈ rs, d.resultFor w r'.bundleIds = d.resultFor v r'.bundleIds ∧
        d.entriesFor w r'.bundleIds = d.entriesFor v r'.bundleIds := by
      intro r' hr'
      obtain ⟨hn', hagree⟩ := agree_record r'.bundleIds hn hledger
        fun e he => ⟨_, hwithin e he, hapart.1 r' hr'⟩
      exact trace_congr hd hn hn' hagree
    have hn' := (agree_record [] hn hledger
      fun e he => ⟨_, hwithin e he, fun _ _ => List.not_mem_nil⟩).1
    obtain ⟨houtcomes, hrest⟩ := ih hapart.2 hn'
    constructor
    · show _ :: (Dispatch.inOrder (Invoker.direct d.evaluator) rs v).1 = _
      rw [houtcomes, List.map_cons]
      congr 1
      refine List.map_congr_left fun r' hr' => ?_
      rw [outcomeAt_direct, outcomeAt_direct, (hsame r' hr').1]
    · have hentries : (rs.flatMap fun r' => d.entriesFor v r'.bundleIds) =
          rs.flatMap fun r' => d.entriesFor w r'.bundleIds :=
        List.flatMap_congr fun r' hr' => (hsame r' hr').2.symm
      rw [hrest, hentries, List.flatMap_cons, Ledger.record_append, ← hledger]

/-! ## The entries of one rule group -/

/-- An entry that is about other rule groups: it stores rules of other bundles, or publishes another
rule group. -/
structure Foreign (s : Store.Snapshot) (ruleGroupArn : String) (e : Effect) : Prop where
  rules : ∀ x ∈ e.rules, s.Holds x ∧ x.bundleId ∉ groupIds s.bundles ruleGroupArn
  update : ∀ u, e.update? = some u → u.ruleGroupArn ≠ ruleGroupArn

/-- A request that has no bundle in common with a rule group writes about others only. -/
theorem foreign_of_within {s : Store.Snapshot} {ids : List String} {ruleGroupArn : String}
    {e : Effect} (h : e.Within ids s) (hids : ∀ id ∈ ids, id ∉ groupIds s.bundles ruleGroupArn) :
    Foreign s ruleGroupArn e := by
  cases e with
  | stored rules =>
    exact ⟨fun x hx => ⟨(h x hx).1, hids _ (h x hx).2⟩, fun u hu => by cases hu⟩
  | published u =>
    refine ⟨fun x hx => (by cases hx), fun u' hu' harn => ?_⟩
    cases hu'
    obtain ⟨b, hb, hfound, hbarn⟩ := h
    have hmem := mem_groupIds (List.mem_of_find?_eq_some hfound)
    rw [hbarn, harn] at hmem
    exact hids b.id hb hmem
  | stamped id time => exact h.elim

/-- The updates for a rule group among entries that are about the group or about others. -/
theorem filter_updates {s : Store.Snapshot} {ruleGroupArn : String} {before own after : List Effect}
    (hforeign : ∀ e ∈ before ++ after, Foreign s ruleGroupArn e)
    (hown : ∀ e ∈ own, ∀ u, e.update? = some u → u.ruleGroupArn = ruleGroupArn) :
    ((before ++ own ++ after).filterMap Effect.update?).filter (·.ruleGroupArn = ruleGroupArn) =
      own.filterMap Effect.update? := by
  have hnone : ∀ entries : List Effect, (∀ e ∈ entries, Foreign s ruleGroupArn e) →
      (entries.filterMap Effect.update?).filter (·.ruleGroupArn = ruleGroupArn) = [] := by
    intro entries hentries
    rw [List.filter_eq_nil_iff]
    intro u hu
    obtain ⟨e, he, hu⟩ := List.mem_filterMap.1 hu
    simpa using (hentries e he).update u hu
  have hall : (own.filterMap Effect.update?).filter (·.ruleGroupArn = ruleGroupArn) =
      own.filterMap Effect.update? := by
    rw [List.filter_eq_self]
    intro u hu
    obtain ⟨e, he, hu⟩ := List.mem_filterMap.1 hu
    simpa using hown e he u hu
  rw [List.filterMap_append, List.filterMap_append, List.filter_append, List.filter_append, hall,
    hnone before fun e he => hforeign e (List.mem_append_left _ he),
    hnone after fun e he => hforeign e (List.mem_append_right _ he), List.append_nil]
  rfl

/-- An evaluation of a rule group publishes no other. -/
theorem ruleGroupArn_of_mem_entriesFor {w : World ω} (hd : d.Steady)
    (hb : (w.store.bundles.map (·.id)).Nodup) (hn : (w.store.rules.map Rule.id).Nodup)
    {ruleGroupArn : String} {e : Effect}
    (he : e ∈ d.entriesFor w (groupIds w.store.bundles ruleGroupArn)) {u : Update}
    (hu : e.update? = some u) : u.ruleGroupArn = ruleGroupArn := by
  have hwithin := (record_entriesFor hd hn _).2 e he
  cases e with
  | published u' =>
    cases hu
    -- the bundle that the update is for is the one of its id in the rule group
    obtain ⟨b, hid, hfound, harn⟩ := hwithin
    obtain ⟨c, hc, hcb⟩ := List.mem_map.1 hid
    obtain ⟨hcs, hcarn⟩ := Bundle.mem_ofArn.1 hc
    rw [← harn, ← hcarn, List.inj_on_of_nodup_map hb hcs (List.mem_of_find?_eq_some hfound) hcb]
  | _ => cases hu

/-- The entries for the rule group of a bundle; none if there is no such bundle. -/
def shareOf (d : Deployment ω) (w : World ω) (bundleId : String) : List Effect :=
  match w.store.bundle? bundleId with
  | some b => d.entriesFor w (groupIds w.store.bundles b.ruleGroupArn)
  | none => []

section Shares

variable {w : World ω} {requests : List Request} (hd : d.Steady)
  (hb : (w.store.bundles.map (·.id)).Nodup) (hn : (w.store.rules.map Rule.id).Nodup)
  (hperm : requests.Perm (requestsFor w.store.bundles))
include hd hn hperm

/-- Every entry is about the bundles of a request. -/
theorem exists_request_of_mem {e : Effect}
    (he : e ∈ requests.flatMap fun r => d.entriesFor w r.bundleIds) :
    ∃ r ∈ requestsFor w.store.bundles, e.Within r.bundleIds w.store := by
  obtain ⟨r, hr, he⟩ := List.mem_flatMap.1 he
  exact ⟨r, hperm.mem_iff.1 hr, (record_entriesFor hd hn r.bundleIds).2 e he⟩

/-- The rules that are stored are held, for bundles that are there. -/
theorem holds_of_mem_rules {x : Rule}
    (hx : x ∈ (requests.flatMap fun r => d.entriesFor w r.bundleIds).flatMap Effect.rules) :
    w.store.Holds x ∧ x.bundleId ∈ w.store.bundles.map (·.id) := by
  obtain ⟨e, he, hx⟩ := List.mem_flatMap.1 hx
  obtain ⟨r, hr, hwithin⟩ := exists_request_of_mem hd hn hperm he
  exact ⟨(hwithin.holds hx).1, mem_of_mem_requestsFor hr (hwithin.holds hx).2⟩

include hb

/-- **The entries of one rule group among all**: those before and after it are about others. -/
theorem exists_split_entries (ruleGroupArn : String) :
    ∃ before after, (requests.flatMap fun r => d.entriesFor w r.bundleIds) =
        before ++ d.entriesFor w (groupIds w.store.bundles ruleGroupArn) ++ after ∧
      ∀ e ∈ before ++ after, Foreign w.store ruleGroupArn e := by
  by_cases hmem : ⟨groupIds w.store.bundles ruleGroupArn⟩ ∈ requests
  · obtain ⟨before, after, rfl⟩ := List.append_of_mem hmem
    refine ⟨before.flatMap fun r => d.entriesFor w r.bundleIds,
      after.flatMap fun r => d.entriesFor w r.bundleIds, ?_, fun e he => ?_⟩
    · rw [List.flatMap_append, List.flatMap_cons, List.append_assoc]
    · have hpairs := (hperm.pairwise_iff Apart.symm).2 (pairwise_requestsFor hb)
      rw [List.pairwise_append, List.pairwise_cons] at hpairs
      obtain ⟨-, ⟨hafter, -⟩, hbefore⟩ := hpairs
      rw [← List.flatMap_append] at he
      obtain ⟨r, hr, he⟩ := List.mem_flatMap.1 he
      have hapart : Apart r ⟨groupIds w.store.bundles ruleGroupArn⟩ := by
        rcases List.mem_append.1 hr with hr | hr
        · exact hbefore r hr _ List.mem_cons_self
        · exact (hafter r hr).symm
      exact foreign_of_within ((record_entriesFor hd hn r.bundleIds).2 e he) hapart
  · -- there is no bundle of the rule group, so nothing is written for it
    have hnil : groupIds w.store.bundles ruleGroupArn = [] := by
      by_contra hne
      obtain ⟨id, hid⟩ := List.exists_mem_of_ne_nil _ hne
      obtain ⟨b, hmemb, -⟩ := List.mem_map.1 hid
      obtain ⟨hstored, rfl⟩ := Bundle.mem_ofArn.1 hmemb
      exact hmem (hperm.mem_iff.2 (groupIds_mem_requestsFor hstored))
    have hown : d.entriesFor w [] = [] := List.drop_length
    refine ⟨_, [], by rw [hnil, hown, List.append_nil, List.append_nil], fun e he => ?_⟩
    rw [List.append_nil] at he
    obtain ⟨r, -, hwithin⟩ := exists_request_of_mem hd hn hperm he
    refine foreign_of_within hwithin fun id _ => ?_
    rw [hnil]
    exact List.not_mem_nil

/-- **A rule is replaced by its share**: only the entries for its own rule group matter. -/
theorem replacedBy_eq_share {y : Rule} (hy : y ∈ w.store.rules) :
    Store.replacedBy
        ((requests.flatMap fun r => d.entriesFor w r.bundleIds).flatMap Effect.rules) y =
      Store.replacedBy ((d.shareOf w y.bundleId).flatMap Effect.rules) y := by
  -- a rule that is held with the id of `y` is a rule of its bundle
  have hbundle : ∀ x : Rule, w.store.Holds x → x.id = y.id → x.bundleId = y.bundleId := by
    rintro x ⟨r, hr, hid, hrb⟩ hxy
    rw [← hrb, List.inj_on_of_nodup_map hn hr hy (hid.trans hxy)]
  unfold shareOf
  cases hfound : w.store.bundle? y.bundleId with
  | none =>
    refine Store.replacedBy_of_not_mem fun hid => ?_
    obtain ⟨x, hx, hxy⟩ := List.mem_map.1 hid
    obtain ⟨hheld, hmem⟩ := holds_of_mem_rules hd hn hperm hx
    rw [hbundle x hheld hxy] at hmem
    obtain ⟨b, hmemb, hbid⟩ := List.mem_map.1 hmem
    exact List.find?_eq_none.1 hfound b hmemb (by simpa using hbid)
  | some b =>
    obtain ⟨before, after, hsplit, hforeign⟩ :=
      exists_split_entries hd hb hn hperm b.ruleGroupArn
    have hown : y.bundleId ∈ groupIds w.store.bundles b.ruleGroupArn := by
      rw [← Store.Snapshot.id_of_bundle? hfound]
      exact mem_groupIds (List.mem_of_find?_eq_some hfound)
    have hother : ∀ entries : List Effect, (∀ e ∈ entries, Foreign w.store b.ruleGroupArn e) →
        ∀ z : Rule, z.id = y.id → Store.replacedBy (entries.flatMap Effect.rules) z = z := by
      intro entries hentries z hz
      refine Store.replacedBy_of_not_mem fun hid => ?_
      obtain ⟨x, hx, hxz⟩ := List.mem_map.1 hid
      obtain ⟨e, he, hx⟩ := List.mem_flatMap.1 hx
      obtain ⟨hheld, hnot⟩ := (hentries e he).rules x hx
      rw [hbundle x hheld (hxz.trans hz)] at hnot
      exact hnot hown
    rw [hsplit, List.flatMap_append, List.flatMap_append, Store.replacedBy_append,
      Store.replacedBy_append,
      hother before (fun e he => hforeign e (List.mem_append_left _ he)) y rfl,
      hother after (fun e he => hforeign e (List.mem_append_right _ he)) _ (by simp)]

end Shares

/-! ## Asking for all rule groups -/

/-- What asking for all rule groups does, whatever the schedule: all of it is said by evaluations in
the world before. -/
structure Asked (d : Deployment ω) (w : World ω) (outcomes : List Outcome) (w' : World ω) :
    Prop where
  outcomes : outcomes.Perm ((requestsFor w.store.bundles).map fun r =>
    outcomeAt (Invoker.direct d.evaluator) r w)
  store : w'.store = { w.store with
    rules := w.store.rules.map fun y =>
      Store.replacedBy ((d.shareOf w y.bundleId).flatMap Effect.rules) y }
  rulesOf : ∀ id, w'.store.rulesOf id = (w.store.rulesOf id).map
    (Store.replacedBy ((d.shareOf w id).flatMap Effect.rules))
  published : ∀ ruleGroupArn, w'.published.filter (·.ruleGroupArn = ruleGroupArn) =
    w.published.filter (·.ruleGroupArn = ruleGroupArn) ++
      (d.entriesFor w (groupIds w.store.bundles ruleGroupArn)).filterMap Effect.update?

/-- What dispatching by a schedule does: every request is answered as if it were the first, and the
entries follow each other in the order of the turns. -/
theorem dispatch_direct (hd : d.Steady) (schedule : Schedule (World ω)) {w : World ω}
    (hb : (w.store.bundles.map (·.id)).Nodup) (hn : (w.store.rules.map Rule.id).Nodup) :
    (schedule.dispatch (Invoker.direct d.evaluator) (requestsFor w.store.bundles) w).1.Perm
        ((requestsFor w.store.bundles).map fun r =>
          outcomeAt (Invoker.direct d.evaluator) r w) ∧
      (schedule.dispatch (Invoker.direct d.evaluator) (requestsFor w.store.bundles) w).2.ledger =
        w.ledger.record ((schedule.turns (requestsFor w.store.bundles) w).flatMap fun r =>
          d.entriesFor w r.bundleIds) := by
  have hperm := schedule.perm_turns (requestsFor w.store.bundles) w
  have hapart := (hperm.pairwise_iff Apart.symm).2 (pairwise_requestsFor hb)
  obtain ⟨houtcomes, hledger⟩ := inOrder_direct hd hapart hn
  have harrive := perm_fst_dispatch schedule (Invoker.direct d.evaluator)
    (requestsFor w.store.bundles) w
  rw [houtcomes] at harrive
  exact ⟨harrive.trans (hperm.map _), hledger⟩

/-- **Asking for all rule groups comes to the same by every schedule.** -/
theorem asked_of_dispatch (hd : d.Steady) (schedule : Schedule (World ω)) {w w' : World ω}
    {outcomes : List Outcome} (hb : (w.store.bundles.map (·.id)).Nodup)
    (hn : (w.store.rules.map Rule.id).Nodup)
    (h : schedule.dispatch (Invoker.direct d.evaluator) (requestsFor w.store.bundles) w =
      (outcomes, w')) : d.Asked w outcomes w' := by
  have hperm := schedule.perm_turns (requestsFor w.store.bundles) w
  obtain ⟨houtcomes, hledger⟩ := dispatch_direct hd schedule hb hn
  rw [h] at houtcomes hledger
  have hstore : w'.store = w.store.putRules _ := congrArg Ledger.store hledger
  have hholds := fun x hx => (holds_of_mem_rules hd hn hperm (x := x) hx).1
  have hshare := fun y hy => replacedBy_eq_share hd hb hn hperm (y := y) hy
  refine ⟨houtcomes, ?_, fun id => ?_, fun ruleGroupArn => ?_⟩
  · rw [hstore, Store.Snapshot.putRules_eq hn hholds, List.map_congr_left hshare]
  · rw [hstore, Store.Snapshot.rulesOf_putRules hn hholds]
    refine List.map_congr_left fun y hy => ?_
    obtain ⟨hmem, rfl⟩ := Store.Snapshot.mem_rulesOf.1 hy
    exact hshare y hmem
  · obtain ⟨before, after, hsplit, hforeign⟩ :=
      exists_split_entries hd hb hn hperm ruleGroupArn
    have hjournal : w'.journal = w.journal ++ _ := congrArg Ledger.journal hledger
    unfold World.published
    rw [hjournal, List.filterMap_append, List.filter_append, hsplit,
      filter_updates hforeign fun e he u hu => ruleGroupArn_of_mem_entriesFor hd hb hn he hu]

end Deployment

end Firewall
