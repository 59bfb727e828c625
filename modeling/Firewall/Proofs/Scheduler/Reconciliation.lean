/-
# What a cycle makes of its answers

Over a store in memory a stamp fails only for an id that no bundle has.  So the answers of a cycle,
and the bundles that are there, decide everything: who is stamped, who is named, and what is
reported.  The order in which the answers arrive decides nothing.

* `Store.Snapshot.forall₂_stampIn` : one stamp, bundle by bundle;
* `Deployment.stampAll_inMemory` : which stamps are written;
* `Scheduler.Reconciled` : all that a cycle makes of its answers;
* `Deployment.cycle_reconciled` : a cycle over a store in memory does this.
-/
import Firewall.Proofs.Scheduler.Fates

namespace Firewall

/-! ## Bundle by bundle -/

/-- A bundle is as it was, or it has one of some ids and is stamped at a time. -/
def Bundle.StampedIn (ids : List String) (time : Timestamp) (b b' : Bundle) : Prop :=
  b' = b ∨ b.id ∈ ids ∧ b' = b.stampedAt time

/-- Stamps of some ids and then of others are stamps of all of them. -/
theorem Bundle.StampedIn.trans {ids ids' : List String} {time : Timestamp} (b b' b'' : Bundle)
    (h : b.StampedIn ids time b') (h' : b'.StampedIn ids' time b'') :
    b.StampedIn (ids ++ ids') time b'' := by
  rcases h with rfl | ⟨hid, rfl⟩
  · exact h'.imp_right fun hid' => ⟨List.mem_append_right ids hid'.1, hid'.2⟩
  · refine Or.inr ⟨List.mem_append_left ids' hid, ?_⟩
    rcases h' with rfl | ⟨-, rfl⟩
    · rfl
    · rfl

namespace Store.Snapshot

/-- **A stamp changes the time of a bundle with its id**, and nothing else. -/
theorem forall₂_stampIn {id : String} {time : Timestamp} {bundles bundles' : List Bundle}
    (h : stampIn id time bundles = some bundles') :
    List.Forall₂ (Bundle.StampedIn [id] time) bundles bundles' := by
  induction bundles generalizing bundles' with
  | nil => cases h
  | cons b bs ih =>
    rw [stampIn] at h
    by_cases hb : b.id = id
    · rw [if_pos hb] at h
      cases h
      refine .cons (Or.inr ⟨?_, rfl⟩) (List.forall₂_same.2 fun c _ => Or.inl rfl)
      exact List.mem_singleton.2 hb
    · rw [if_neg hb, Option.map_eq_some_iff] at h
      obtain ⟨bs', hbs', rfl⟩ := h
      exact .cons (Or.inl rfl) (ih hbs')

/-- An id that some bundle has is found. -/
theorem exists_bundle? {s : Snapshot} {id : String} (h : id ∈ s.bundles.map (·.id)) :
    ∃ b, s.bundle? id = some b := by
  obtain ⟨b, hb, rfl⟩ := List.mem_map.1 h
  rw [← Option.isSome_iff_exists]
  exact List.find?_isSome.2 ⟨b, hb, decide_eq_true rfl⟩

end Store.Snapshot

namespace Deployment

variable {ω : Type}

/-- **The step**: one stamp, bundle by bundle. -/
theorem forall₂_stamp (d : Deployment ω) (id : String) (time : Timestamp) (w : World ω) :
    List.Forall₂ (Bundle.StampedIn [id] time) w.store.bundles
      ((d.repository.stamp id time).perform w).2.store.bundles := by
  have hsame : List.Forall₂ (Bundle.StampedIn [id] time) w.store.bundles w.store.bundles :=
    List.forall₂_same.2 fun b _ => Or.inl rfl
  rcases d.perform_call_cases (.stamp id time) (Ledger.repository.stamp id time) w with
    ⟨e, o, hcall⟩ | ⟨o, hcall⟩
  · rw [show (d.repository.stamp id time).perform w = _ from hcall]
    exact hsame
  · rw [show (d.repository.stamp id time).perform w = _ from hcall, Ledger.perform_stamp]
    cases hstamp : Store.Snapshot.stampIn id time w.ledger.store.bundles with
    | none => exact hsame
    | some bundles => exact Store.Snapshot.forall₂_stampIn hstamp

/-- **The run**: stamps of some ids, bundle by bundle. -/
theorem forall₂_stampAll (d : Deployment ω) (time : Timestamp) (ids : List String) (w : World ω) :
    List.Forall₂ (Bundle.StampedIn ids time) w.store.bundles
      (Scheduler.stampAll d.repository time ids w).2.store.bundles := by
  induction ids generalizing w with
  | nil => exact List.forall₂_same.2 fun b _ => Or.inl rfl
  | cons id ids ih =>
    rw [Scheduler.snd_stampAll_cons]
    exact forall₂_trans Bundle.StampedIn.trans (d.forall₂_stamp id time w) (ih _)

/-- **A store in memory writes the stamps of the ids that it has**, and refuses the others. -/
theorem stampAll_inMemory (accept : Evaluation.Update → Action ω Unit)
    (source : Inventory.Source ω) (chain : List Resolver) (denyRuleId : String) (time : Timestamp)
    (ids : List String) (w : World ω) :
    ∃ done refused w',
      Scheduler.stampAll (inMemory accept source chain denyRuleId).repository time ids w =
        (refused, w') ∧
      w.Stamps time w' done ∧
      (∀ id, id ∈ done ↔ id ∈ ids ∧ id ∈ w.store.bundles.map (·.id)) ∧
      ∀ id, id ∈ refused ↔ id ∈ ids ∧ id ∉ w.store.bundles.map (·.id) := by
  obtain ⟨done, refused, w', hstampAll, hperm, hstamps, hrefused⟩ :=
    (inMemory accept source chain denyRuleId).stampAll_spec time ids w
  have hmem : ∀ id, id ∈ done ∨ id ∈ refused ↔ id ∈ ids := fun id => by
    rw [← hperm.mem_iff, List.mem_append]
  have habsent : ∀ id ∈ refused, id ∉ w.store.bundles.map (·.id) := by
    intro id hid
    obtain ⟨before, after, e, v, -, hfailed⟩ := hrefused id hid
    rw [← map_id_stampAll _ time before]
    exact not_mem_of_stamp_inMemory hfailed
  refine ⟨done, refused, w', hstampAll, hstamps, fun id => ⟨fun hid => ?_, fun hid => ?_⟩,
    fun id => ⟨fun hid => ?_, fun hid => ?_⟩⟩
  · exact ⟨(hmem id).1 (Or.inl hid), hstamps.held id hid⟩
  · exact ((hmem id).2 hid.1).resolve_right fun h => habsent id h hid.2
  · exact ⟨(hmem id).1 (Or.inr hid), habsent id hid⟩
  · exact ((hmem id).2 hid.1).resolve_left fun h => hid.2 (hstamps.held id h)

end Deployment

/-! ## What is made of answers -/

namespace Scheduler

variable {ω : Type}

/-- All that a cycle makes of its outcomes, from the world that answering them has left: it stamps
the ids in `done`, and gives its result. -/
structure Reconciled (time : Timestamp) (dispatched : Nat) (outcomes : List Outcome) (w : World ω)
    (result : Except Error Report) (w' : World ω) (done : List String) : Prop where
  /-- What is stamped succeeded, did not fail, and is there. -/
  mem_done : ∀ id, id ∈ done ↔
    (Succeeds outcomes id ∧ ¬ Fails outcomes id) ∧ id ∈ w.store.bundles.map (·.id)
  journal : w'.journal = w.journal ++ done.map fun id => .stamped id time
  /-- Nobody is stamped and named. -/
  unnamed : ∀ id ∈ done, ¬ Named result id
  /-- The cycle succeeds if nobody failed, and everybody who succeeded is there. -/
  ok_iff : (∃ report, result = .ok report) ↔
    (∀ id, ¬ Fails outcomes id) ∧ ∀ id, Succeeds outcomes id → id ∈ w.store.bundles.map (·.id)
  /-- A success reports those who succeeded, in increasing order; all of them are stamped. -/
  reported : ∀ report, result = .ok report →
    report.dispatchedGroups = dispatched ∧ report.failed = [] ∧
    report.succeeded.Pairwise (· < ·) ∧ (∀ id, id ∈ report.succeeded ↔ Succeeds outcomes id) ∧
    ∀ id ∈ report.succeeded, id ∈ done ∧
      ∃ b, w'.store.bundle? id = some b ∧ b.lastSuccessSync = some time
  /-- A failure names somebody: those who failed, and those who succeeded only and are not there, in
  increasing order. -/
  failed : ∀ e, result = .error e → ∃ ids, e = .evaluationFailed ids ∧ ids ≠ [] ∧
    ids.Pairwise (· < ·) ∧ ∀ id, id ∈ ids ↔ Fails outcomes id ∨
      (Succeeds outcomes id ∧ ¬ Fails outcomes id) ∧ id ∉ w.store.bundles.map (·.id)
  bundles : List.Forall₂ (Bundle.StampedIn done time) w.store.bundles w'.store.bundles
  rules : w'.store.rules = w.store.rules
  objects : w'.store.objects = w.store.objects

/-- Those whose stamp was refused are not reported. -/
theorem mem_succeeded_reportOf {dispatched : Nat} {outcomes : List Outcome} {refused : List String}
    {id : String} :
    id ∈ (reportOf dispatched outcomes refused).succeeded ↔
      Succeeds outcomes id ∧ id ∉ refused := by
  unfold reportOf Succeeds
  rw [List.mem_filter, mem_sortedIds, List.mem_flatMap, Bool.not_eq_true', List.contains_eq_mem,
    decide_eq_false_iff_not]

/-- A result is a success with a report that counts nobody as failed, or a failure that names
somebody. -/
theorem resultOf_cases (report : Report) :
    (report.failed = [] ∧ resultOf report = .ok report) ∨
      report.failed ≠ [] ∧ resultOf report = .error (.evaluationFailed report.failed) := by
  unfold resultOf
  by_cases h : report.failed = []
  · exact Or.inl ⟨h, if_pos h⟩
  · exact Or.inr ⟨h, if_neg h⟩

/-- A report that counts nobody as failed: nobody failed, nobody was refused, and all who succeeded are
reported. -/
theorem reportOf_of_failed_eq_nil {dispatched : Nat} {outcomes : List Outcome}
    {refused : List String} (h : (reportOf dispatched outcomes refused).failed = []) (id : String) :
    (¬ Fails outcomes id ∧ id ∉ refused) ∧
      (id ∈ (reportOf dispatched outcomes refused).succeeded ↔ Succeeds outcomes id) := by
  have hnobody : ¬ Fails outcomes id ∧ id ∉ refused := by
    rw [← not_or, ← mem_failed_reportOf, h]
    exact List.not_mem_nil
  exact ⟨hnobody, mem_succeeded_reportOf.trans (and_iff_left hnobody.2)⟩

end Scheduler

open Evaluation Scheduler

namespace Deployment

variable {ω : Type} {accept : Update → Action ω Unit} {source : Inventory.Source ω}
  {chain : List Resolver} {denyRuleId : String} {time : Timestamp} {outcomes : List Outcome}
  {w w' : World ω} {result : Except Error Report}

/-- All that a success reports is stamped, since nobody was refused. -/
theorem reported_of_stamps {dispatched : Nat} {done refused : List String} {report : Report}
    (hstamps : w.Stamps time w' done)
    (hdone : ∀ id, id ∈ done ↔ id ∈ toStamp outcomes ∧ id ∈ w.store.bundles.map (·.id))
    (hrefused : ∀ id, id ∈ refused ↔ id ∈ toStamp outcomes ∧ id ∉ w.store.bundles.map (·.id))
    (h : resultOf (reportOf dispatched outcomes refused) = .ok report) :
    report.dispatchedGroups = dispatched ∧ report.failed = [] ∧
      report.succeeded.Pairwise (· < ·) ∧ (∀ id, id ∈ report.succeeded ↔ Succeeds outcomes id) ∧
      ∀ id ∈ report.succeeded, id ∈ done ∧
        ∃ b, w'.store.bundle? id = some b ∧ b.lastSuccessSync = some time := by
  rcases resultOf_cases (reportOf dispatched outcomes refused) with ⟨hnil, hok⟩ | ⟨-, herror⟩
  · rw [hok] at h
    cases h
    have hnobody := reportOf_of_failed_eq_nil hnil
    refine ⟨rfl, hnil, (pairwise_sortedIds _).filter _, fun id => (hnobody id).2, fun id hid => ?_⟩
    have htoStamp : id ∈ toStamp outcomes :=
      mem_toStamp.2 ⟨(hnobody id).2.1 hid, (hnobody id).1.1⟩
    have hheld : id ∈ w.store.bundles.map (·.id) := by
      by_contra habsent
      exact (hnobody id).1.2 ((hrefused id).2 ⟨htoStamp, habsent⟩)
    have hstamped : id ∈ done := (hdone id).2 ⟨htoStamp, hheld⟩
    obtain ⟨b, hb⟩ := Store.Snapshot.exists_bundle? hheld
    refine ⟨hstamped, b.stampedAt time, ?_, rfl⟩
    rw [hstamps.bundle? id, if_pos hstamped, hb, Option.map_some]
  · rw [herror] at h
    cases h

/-- **Settling over a store in memory.** -/
theorem reconciled_of_settle {dispatched : Nat}
    (h : (settle (inMemory accept source chain denyRuleId).repository time dispatched
      outcomes).perform w = (result, w')) :
    ∃ done, Reconciled time dispatched outcomes w result w' done := by
  obtain ⟨done, refused, w₁, hstampAll, hstamps, hdone, hrefused⟩ :=
    stampAll_inMemory accept source chain denyRuleId time (toStamp outcomes) w
  have hpointwise := forall₂_stampAll (inMemory accept source chain denyRuleId) time
    (toStamp outcomes) w
  rw [hstampAll] at hpointwise
  have hsettle : (settle (inMemory accept source chain denyRuleId).repository time dispatched
      outcomes).perform w = (resultOf (reportOf dispatched outcomes refused), w₁) := by
    unfold settle
    rw [Action.perform_ofFun, hstampAll]
  rw [hsettle] at h
  cases h
  have hfailed : ∀ id, id ∈ (reportOf dispatched outcomes refused).failed ↔ Fails outcomes id ∨
      (Succeeds outcomes id ∧ ¬ Fails outcomes id) ∧ id ∉ w.store.bundles.map (·.id) := fun id => by
    rw [mem_failed_reportOf, hrefused, mem_toStamp]
  refine ⟨done, fun id => ?_, hstamps.journal, fun id hid => ?_, ?_, fun report hreport => ?_,
    fun e he => ?_, ?_, hstamps.rules, hstamps.objects⟩
  · rw [hdone, mem_toStamp]
  · rw [named_resultOf, hfailed]
    rintro (hfails | ⟨-, habsent⟩)
    · exact (mem_toStamp.1 ((hdone id).1 hid).1).2 hfails
    · exact habsent ((hdone id).1 hid).2
  · rw [resultOf_eq_ok_iff]
    simp only [named_resultOf, hfailed, not_or]
    constructor
    · intro hnobody
      refine ⟨fun id => (hnobody id).1, fun id hsucceeds => ?_⟩
      by_contra habsent
      exact (hnobody id).2 ⟨⟨hsucceeds, (hnobody id).1⟩, habsent⟩
    · rintro ⟨hfails, hheld⟩ id
      exact ⟨hfails id, fun habsent => habsent.2 (hheld id habsent.1.1)⟩
  · exact reported_of_stamps hstamps hdone hrefused hreport
  · rcases resultOf_cases (reportOf dispatched outcomes refused) with ⟨-, hok⟩ | ⟨hne, herror⟩
    · rw [hok] at he
      cases he
    · rw [herror] at he
      cases he
      exact ⟨_, rfl, hne, pairwise_sortedIds _, hfailed⟩
  · refine ((List.forall₂_and_left _ _).2 ⟨fun b hb => hb, hpointwise⟩).imp fun b b' hb => ?_
    exact hb.2.imp_right fun hid => ⟨(hdone b.id).2 ⟨hid.1, List.mem_map_of_mem hb.1⟩, hid.2⟩

/-- **What a cycle over a store in memory makes of its answers**, whatever they are.  If the same
answers arrive in another order, and answering them has left the same world, the result is the same,
and so is the world in the end. -/
theorem cycle_reconciled {dispatch : Dispatch (World ω)} {w₂ : World ω}
    (hlen : w.store.bundles.length ≤ UInt64.size)
    (hdispatch : dispatch (requestsFor w.store.bundles) w = (outcomes, w₂))
    (h : (cycle (inMemory accept source chain denyRuleId).repository dispatch time).perform w =
      (result, w')) :
    (∀ (dispatch' : Dispatch (World ω)) outcomes', outcomes.Perm outcomes' →
      dispatch' (requestsFor w.store.bundles) w = (outcomes', w₂) →
      (cycle (inMemory accept source chain denyRuleId).repository dispatch' time).perform w =
        (result, w')) ∧
    ∃ done, Reconciled time (requestsFor w.store.bundles).length outcomes w₂ result w' done := by
  have hlist := perform_listBundles_inMemory accept source chain denyRuleId hlen
  rw [perform_cycle hlist hdispatch] at h
  refine ⟨fun dispatch' outcomes' hperm hdispatch' => ?_, reconciled_of_settle h⟩
  rw [perform_cycle hlist hdispatch', ← settle_perm hperm, h]

end Deployment

/-! ## Answers that overlap -/

namespace Sample

/-- The answers to two requests: a success that lists both bundles and one that is not there, and
no answer for the second. -/
def overlapping : List Outcome :=
  [⟨["b1"], .ok (.of statusOk "done" ["b1", "b2", "b3"])⟩,
    ⟨["b2"], .error (.invocation "no responders")⟩]

/-- The ids that the answers speak for. -/
theorem speaks_overlapping :
    (∀ id, Succeeds overlapping id ↔ id ∈ ["b1", "b2", "b3"]) ∧
      ∀ id, Fails overlapping id ↔ id = "b2" := by
  have haccepts : Outcome.Accepts ⟨["b1"], .ok (.of statusOk "done" ["b1", "b2", "b3"])⟩
      ["b1", "b2", "b3"] :=
    ⟨_, _, rfl, rfl, Response.body?_of _ _ _, rfl⟩
  constructor
  · intro id
    unfold Succeeds overlapping
    rw [List.exists_mem_cons_iff, haccepts.speaks.1]
    simp [Outcome.succeeded]
  · intro id
    unfold Fails overlapping
    rw [List.exists_mem_cons_iff, haccepts.speaks.2]
    simp [Outcome.failed]

end Sample

namespace Deployment

/-- Of three bundles that succeeded, one failed too and one is not there: the first is stamped, and the
others are named, in either order of the answers. -/
theorem cycle_reconciled_overlapping :
    Sample.world.store.bundles.length ≤ UInt64.size ∧
    ∃ result w', (cycle (Sample.deployment []).repository (fun _ => pure Sample.overlapping)
        Sample.time).perform Sample.world = (result, w') ∧
      (cycle (Sample.deployment []).repository (fun _ => pure Sample.overlapping.reverse)
        Sample.time).perform Sample.world = (result, w') ∧
      ∃ done, Reconciled Sample.time 2 Sample.overlapping Sample.world result w' done ∧
        (∀ id, id ∈ done ↔ id = "b1") ∧
        ∃ ids, result = .error (.evaluationFailed ids) ∧ ∀ id, id ∈ ids ↔ id = "b2" ∨ id = "b3" := by
  have hlen : Sample.world.store.bundles.length ≤ UInt64.size := by decide
  refine ⟨hlen, ?_⟩
  rcases h : (cycle (Sample.deployment []).repository (fun _ => pure Sample.overlapping)
    Sample.time).perform Sample.world with ⟨result, w'⟩
  obtain ⟨horder, done, hdone⟩ := cycle_reconciled hlen rfl h
  obtain ⟨hsucceeds, hfails⟩ := Sample.speaks_overlapping
  have hids : Sample.world.store.bundles.map (·.id) = ["b1", "b2"] := rfl
  refine ⟨result, w', rfl, horder _ _ (List.reverse_perm _).symm rfl, done, hdone, ?_, ?_⟩
  · intro id
    rw [hdone.mem_done, hsucceeds, hfails, hids]
    grind
  · rcases result with e | report
    · obtain ⟨ids, rfl, -, -, hmem⟩ := hdone.failed e rfl
      refine ⟨ids, rfl, fun id => ?_⟩
      rw [hmem, hsucceeds, hfails, hids]
      grind
    · exact absurd ((hfails "b2").2 rfl) ((hdone.ok_iff.1 ⟨report, rfl⟩).1 "b2")

end Deployment

end Firewall
