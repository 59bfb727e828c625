/-
# Settling

A cycle goes by the outcomes as a whole: an id that some outcome fails is named in the failure and
not stamped; an id that succeeded in some outcome and failed in none is stamped, or named if its
stamp fails; and any other id is left alone.

* `Scheduler.Named` : the ids that a cycle names in its failure;
* `Scheduler.settle_perm` : the order of the outcomes makes no difference;
* `Scheduler.perform_cycle` : a cycle settles what it dispatches;
* `Scheduler.Settled` : all that settling does, id by id;
* `Deployment.settled_of_settle` : settling outcomes does this.
-/
import Firewall.Proofs.Scheduler.Stamps

namespace Firewall

namespace Scheduler

/-! ## What is named -/

/-- The failure of a cycle names an id. -/
def Named (result : Except Error Report) (id : String) : Prop :=
  ∃ ids, result = .error (.evaluationFailed ids) ∧ id ∈ ids

/-- Some outcome fails an id. -/
def Fails (outcomes : List Outcome) (id : String) : Prop := ∃ o ∈ outcomes, id ∈ o.failed

/-- An id succeeded in some outcome. -/
def Succeeds (outcomes : List Outcome) (id : String) : Prop := ∃ o ∈ outcomes, id ∈ o.succeeded

/-- The ids to stamp succeeded and did not fail. -/
theorem mem_toStamp {outcomes : List Outcome} {id : String} :
    id ∈ toStamp outcomes ↔ Succeeds outcomes id ∧ ¬ Fails outcomes id := by
  unfold toStamp Succeeds Fails
  rw [List.mem_filter, mem_sortedIds, List.mem_flatMap, Bool.not_eq_true', List.contains_eq_mem,
    decide_eq_false_iff_not, List.mem_flatMap]

theorem nodup_toStamp (outcomes : List Outcome) : (toStamp outcomes).Nodup :=
  (nodup_sortedIds _).filter _

/-- A cycle names exactly the ids that its report counts as failed. -/
theorem named_resultOf {report : Report} {id : String} :
    Named (resultOf report) id ↔ id ∈ report.failed := by
  unfold Named resultOf
  by_cases h : report.failed = []
  · rw [if_pos h, h]
    exact ⟨fun ⟨ids, hids, _⟩ => (by cases hids), fun hid => (by cases hid)⟩
  · rw [if_neg h]
    constructor
    · rintro ⟨ids, hids, hid⟩
      cases hids
      exact hid
    · exact fun hid => ⟨_, rfl, hid⟩

/-- **A cycle succeeds exactly if it names nobody.** -/
theorem resultOf_eq_ok_iff {report : Report} :
    (∃ r, resultOf report = .ok r) ↔ ∀ id, ¬ Named (resultOf report) id := by
  simp only [named_resultOf]
  unfold resultOf
  by_cases h : report.failed = []
  · rw [if_pos h, h]
    exact ⟨fun _ id hid => (by cases hid), fun _ => ⟨report, rfl⟩⟩
  · rw [if_neg h]
    obtain ⟨id, hid⟩ := List.exists_mem_of_ne_nil _ h
    exact ⟨fun ⟨r, hr⟩ => (by cases hr), fun hall => absurd hid (hall id)⟩

theorem mem_failed_reportOf {dispatched : Nat} {outcomes : List Outcome} {refused : List String}
    {id : String} :
    id ∈ (reportOf dispatched outcomes refused).failed ↔ Fails outcomes id ∨ id ∈ refused := by
  unfold reportOf Fails
  rw [mem_sortedIds, List.mem_append, List.mem_flatMap]

/-- Outcomes that speak for nobody make a success, and nothing is done. -/
theorem perform_settle_of_silent {σ : Type} (repository : Store.Repository σ) (time : Timestamp)
    (dispatched : Nat) {outcomes : List Outcome}
    (h : ∀ o ∈ outcomes, o.succeeded = [] ∧ o.failed = []) (s : σ) :
    (settle repository time dispatched outcomes).perform s = (.ok ⟨dispatched, [], []⟩, s) := by
  have hsucceeded : outcomes.flatMap Outcome.succeeded = [] :=
    List.flatMap_eq_nil_iff.2 fun o ho => (h o ho).1
  have hfailed : outcomes.flatMap Outcome.failed = [] :=
    List.flatMap_eq_nil_iff.2 fun o ho => (h o ho).2
  have hstamp : toStamp outcomes = [] := by
    rw [toStamp, hsucceeded]
    rfl
  have hreport : reportOf dispatched outcomes [] = ⟨dispatched, [], []⟩ := by
    rw [reportOf, hsucceeded, hfailed]
    rfl
  rw [settle, Action.perform_ofFun, hstamp]
  show (resultOf (reportOf dispatched outcomes []), s) = _
  rw [hreport]
  rfl

/-! ## Outcomes in another order -/

/-- Sorted ids are told by which ids there are. -/
theorem sortedIds_congr {ids ids' : List String} (h : ∀ id, id ∈ ids ↔ id ∈ ids') :
    sortedIds ids = sortedIds ids' := by
  have hperm : (sortedIds ids).Perm (sortedIds ids') := by
    rw [List.perm_ext_iff_of_nodup (nodup_sortedIds ids) (nodup_sortedIds ids')]
    intro id
    rw [mem_sortedIds, mem_sortedIds, h]
  refine hperm.eq_of_pairwise (fun a b _ _ hab hba => ?_) (pairwise_sortedIds ids)
    (pairwise_sortedIds ids')
  exact absurd hba (String.lt_asymm hab)

section Arrivals

variable {outcomes outcomes' : List Outcome} (h : outcomes.Perm outcomes')
include h

/-- The ids to stamp do not depend on the order of the outcomes. -/
theorem toStamp_perm : toStamp outcomes = toStamp outcomes' := by
  unfold toStamp
  rw [sortedIds_congr fun id => (h.flatMap_right Outcome.succeeded).mem_iff]
  refine List.filter_congr fun id _ => ?_
  rw [(h.flatMap_right Outcome.failed).contains_eq]

/-- Neither does the report. -/
theorem reportOf_perm (dispatched : Nat) (refused : List String) :
    reportOf dispatched outcomes refused = reportOf dispatched outcomes' refused := by
  have hsucceeded : sortedIds (outcomes.flatMap Outcome.succeeded) =
      sortedIds (outcomes'.flatMap Outcome.succeeded) :=
    sortedIds_congr fun id => (h.flatMap_right Outcome.succeeded).mem_iff
  have hfailed : sortedIds (outcomes.flatMap Outcome.failed ++ refused) =
      sortedIds (outcomes'.flatMap Outcome.failed ++ refused) :=
    sortedIds_congr fun id => ((h.flatMap_right Outcome.failed).append_right refused).mem_iff
  unfold reportOf
  rw [hsucceeded, hfailed]

/-- **Settling does not depend on the order in which outcomes arrive.** -/
theorem settle_perm {σ : Type} (repository : Store.Repository σ) (time : Timestamp)
    (dispatched : Nat) :
    settle repository time dispatched outcomes = settle repository time dispatched outcomes' := by
  unfold settle
  simp only [toStamp_perm h, reportOf_perm h]

end Arrivals

/-! ## Cycles -/

/-- A cycle settles the outcomes of what it dispatches for the bundles that it lists. -/
theorem perform_cycle {σ : Type} {repository : Store.Repository σ} {dispatch : Dispatch σ}
    {bundles : List Bundle} {outcomes : List Outcome} {s t u : σ}
    (hlist : repository.listBundles.perform s = (.ok bundles, t))
    (hdispatch : dispatch (requestsFor bundles) t = (outcomes, u)) (time : Timestamp) :
    (cycle repository dispatch time).perform s =
      (settle repository time (requestsFor bundles).length outcomes).perform u := by
  rw [cycle, Action.perform_bind_of_ok hlist]
  refine Action.perform_bind_of_ok ?_ _
  rw [Action.perform_liftM, hdispatch]

/-! ## What settling does -/

/-- What settling outcomes does: it stamps some bundles, and the stamps of others fail. -/
structure Settled {ω : Type} (d : Deployment ω) (time : Timestamp) (outcomes : List Outcome)
    (w : World ω) (result : Except Error Report) (w' : World ω) (done refused : List String) :
    Prop where
  stamps : w.Stamps time w' done
  toStamp : ∀ id, id ∈ done ∨ id ∈ refused ↔ Succeeds outcomes id ∧ ¬ Fails outcomes id
  disjoint : ∀ id ∈ done, id ∉ refused
  unwritten : ∀ id ∈ refused, d.Unwritten time (Scheduler.toStamp outcomes) w id
  named : ∀ id, Named result id ↔ Fails outcomes id ∨ id ∈ refused
  ok_iff : (∃ report, result = .ok report) ↔ ∀ id, ¬ Named result id

/-- The stamp of a bundle fails only if the bundle is not there. -/
def StampsAll {ω : Type} (d : Deployment ω) (time : Timestamp) : Prop :=
  ∀ id v e v', (d.repository.stamp id time).perform v = (.error e, v') →
    id ∉ v.store.bundles.map (·.id)

/-- No bundle that is there is refused, if stamps fail only for others. -/
theorem Settled.not_mem_refused {ω : Type} {d : Deployment ω} {time : Timestamp}
    {outcomes : List Outcome} {w w' : World ω} {result : Except Error Report}
    {done refused : List String} (h : Settled d time outcomes w result w' done refused)
    (hwrites : StampsAll d time) {id : String} (hid : id ∈ w.store.bundles.map (·.id)) :
    id ∉ refused := by
  intro hrefused
  obtain ⟨before, after, e, v, -, hfailed⟩ := h.unwritten id hrefused
  refine hwrites id _ e v hfailed ?_
  rw [d.map_id_stampAll]
  exact hid

end Scheduler

open Scheduler

/-- **Settling outcomes.** -/
theorem Deployment.settled_of_settle {ω : Type} (d : Deployment ω) {time : Timestamp}
    {dispatched : Nat} {outcomes : List Outcome} {w w' : World ω} {result : Except Error Report}
    (h : (settle d.repository time dispatched outcomes).perform w = (result, w')) :
    ∃ done refused, Settled d time outcomes w result w' done refused := by
  obtain ⟨done, refused, w₁, hstampAll, hperm, hstamps, hrefused⟩ :=
    d.stampAll_spec time (toStamp outcomes) w
  have hsettle : (settle d.repository time dispatched outcomes).perform w =
      (resultOf (reportOf dispatched outcomes refused), w₁) := by
    unfold settle
    rw [Action.perform_ofFun, hstampAll]
  rw [hsettle] at h
  cases h
  have hn : (done ++ refused).Nodup := hperm.nodup_iff.2 (nodup_toStamp outcomes)
  refine ⟨done, refused, hstamps, fun id => ?_, fun id hdone hid => ?_, hrefused, fun id => ?_, ?_⟩
  · rw [← mem_toStamp, ← hperm.mem_iff, List.mem_append]
  · exact (List.nodup_append.1 hn).2.2 id hdone id hid rfl
  · rw [named_resultOf, mem_failed_reportOf]
  · exact resultOf_eq_ok_iff

end Firewall
