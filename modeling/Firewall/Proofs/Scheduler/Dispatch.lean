/-
# Turns and arrivals

Requests that are dispatched together get their turns in some order, and their outcomes arrive in
some order.  A schedule fixes both; whatever it is, every request is answered exactly once, from the
world that the requests before it left.

* `Scheduler.Schedule`, `Schedule.dispatch` : schedules, and dispatching by them;
* `Scheduler.inOrder_append` : the requests before a turn, and those after it;
* `Scheduler.mem_dispatch_iff` : the outcomes of a dispatch;
* `Scheduler.Schedule.outcomeOf` : the outcome of one request;
* `Scheduler.eq_outcomeOf` : every bundle has one outcome of its own;
* `Scheduler.keeps_dispatch` : what all answers leave alone;
* `Scheduler.exists_schedule_inFlight` : requests in flight follow a schedule.
-/
import Mathlib.Data.List.Pairwise
import Mathlib.Data.List.Perm.Basic
import Firewall.Proofs.Action
import Firewall.Proofs.Grouping
import Firewall.Scheduler.Flight

namespace Firewall

namespace Scheduler

open Evaluation

/-! ## Schedules -/

/-- The order in which requests get their turns, and the order in which their outcomes arrive.  Both
may depend on the world. -/
structure Schedule (σ : Type) where
  turns : List Request → σ → List Request
  arrivals : List Outcome → σ → List Outcome
  perm_turns : ∀ requests s, (turns requests s).Perm requests
  perm_arrivals : ∀ outcomes s, (arrivals outcomes s).Perm outcomes

variable {σ : Type}

/-- The schedule without any change of order. -/
def Schedule.plain : Schedule σ where
  turns requests _ := requests
  arrivals outcomes _ := outcomes
  perm_turns _ _ := List.Perm.refl _
  perm_arrivals _ _ := List.Perm.refl _

/-- Dispatching by a schedule. -/
def Schedule.dispatch (schedule : Schedule σ) (invoker : Invoker σ) : Dispatch σ :=
  fun requests s =>
    let (outcomes, s') := Dispatch.inOrder invoker (schedule.turns requests s) s
    (schedule.arrivals outcomes s', s')

/-! ## Turns -/

/-- The outcome of a request whose turn comes in a world. -/
def outcomeAt (invoker : Invoker σ) (r : Request) (s : σ) : Outcome :=
  ⟨r.bundleIds, ((invoker r).perform s).1⟩

theorem inOrder_cons (invoker : Invoker σ) (r : Request) (rs : List Request) (s : σ) :
    Dispatch.inOrder invoker (r :: rs) s =
      (outcomeAt invoker r s :: (Dispatch.inOrder invoker rs ((invoker r).perform s).2).1,
        (Dispatch.inOrder invoker rs ((invoker r).perform s).2).2) := by
  unfold Dispatch.inOrder
  rw [List.mapM_cons]
  rfl

/-- **Requests one after the other**: those behind start from the world that those before them
left. -/
theorem inOrder_append (invoker : Invoker σ) (rs rs' : List Request) (s : σ) :
    Dispatch.inOrder invoker (rs ++ rs') s =
      ((Dispatch.inOrder invoker rs s).1 ++
          (Dispatch.inOrder invoker rs' (Dispatch.inOrder invoker rs s).2).1,
        (Dispatch.inOrder invoker rs' (Dispatch.inOrder invoker rs s).2).2) := by
  induction rs generalizing s with
  | nil => rfl
  | cons r rs ih => rw [List.cons_append, inOrder_cons, ih, inOrder_cons, List.cons_append]

/-- Every request has its outcome, in order. -/
theorem map_bundleIds_inOrder (invoker : Invoker σ) (rs : List Request) (s : σ) :
    (Dispatch.inOrder invoker rs s).1.map (·.bundleIds) = rs.map (·.bundleIds) := by
  induction rs generalizing s with
  | nil => rfl
  | cons r rs ih => rw [inOrder_cons, List.map_cons, List.map_cons, ih, outcomeAt]

/-- An outcome is that of a request at its turn. -/
theorem mem_inOrder_iff {invoker : Invoker σ} {rs : List Request} {s : σ} {o : Outcome} :
    o ∈ (Dispatch.inOrder invoker rs s).1 ↔
      ∃ before r after, rs = before ++ r :: after ∧
        o = outcomeAt invoker r (Dispatch.inOrder invoker before s).2 := by
  constructor
  · intro h
    induction rs generalizing s with
    | nil => cases h
    | cons r rs ih =>
      rw [inOrder_cons, List.mem_cons] at h
      rcases h with rfl | h
      · exact ⟨[], r, rs, rfl, rfl⟩
      · obtain ⟨before, r', after, rfl, ho⟩ := ih h
        refine ⟨r :: before, r', after, rfl, ?_⟩
        rw [ho, inOrder_cons]
  · rintro ⟨before, r, after, rfl, rfl⟩
    rw [inOrder_append, inOrder_cons]
    exact List.mem_append_right _ List.mem_cons_self

/-- What every answer leaves alone is left alone by all of them. -/
theorem keeps_inOrder {γ : Type} {view : σ → γ} {invoker : Invoker σ}
    (h : ∀ r, Action.Keeps view (invoker r)) (rs : List Request) (s : σ) :
    view (Dispatch.inOrder invoker rs s).2 = view s := by
  induction rs generalizing s with
  | nil => rfl
  | cons r rs ih =>
    rw [inOrder_cons, ih]
    exact h r s

/-! ## Dispatching by a schedule -/

/-- The world in which a request has its turn: the one that the requests before it left. -/
def Schedule.worldAt (schedule : Schedule σ) (invoker : Invoker σ) (requests : List Request)
    (r : Request) (s : σ) : σ :=
  (Dispatch.inOrder invoker ((schedule.turns requests s).takeWhile (· ≠ r)) s).2

/-- The outcome of a request at its turn. -/
def Schedule.outcomeOf (schedule : Schedule σ) (invoker : Invoker σ) (requests : List Request)
    (r : Request) (s : σ) : Outcome :=
  outcomeAt invoker r (schedule.worldAt invoker requests r s)

section Dispatch

variable (schedule : Schedule σ) (invoker : Invoker σ) (requests : List Request) (s : σ)

theorem perm_fst_dispatch :
    (schedule.dispatch invoker requests s).1.Perm
      (Dispatch.inOrder invoker (schedule.turns requests s) s).1 :=
  schedule.perm_arrivals _ _

/-- **Every request is answered once.** -/
theorem perm_map_bundleIds_dispatch :
    ((schedule.dispatch invoker requests s).1.map (·.bundleIds)).Perm
      (requests.map (·.bundleIds)) := by
  refine ((perm_fst_dispatch schedule invoker requests s).map _).trans ?_
  rw [map_bundleIds_inOrder]
  exact (schedule.perm_turns requests s).map _

variable {schedule invoker requests s}

/-- **The outcomes of a dispatch** are those of the requests at their turns. -/
theorem mem_dispatch_iff {o : Outcome} :
    o ∈ (schedule.dispatch invoker requests s).1 ↔
      ∃ before r after, schedule.turns requests s = before ++ r :: after ∧
        o = outcomeAt invoker r (Dispatch.inOrder invoker before s).2 := by
  rw [(perm_fst_dispatch schedule invoker requests s).mem_iff, mem_inOrder_iff]

theorem keeps_dispatch {γ : Type} {view : σ → γ} (h : ∀ r, Action.Keeps view (invoker r)) :
    view (schedule.dispatch invoker requests s).2 = view s :=
  keeps_inOrder h _ s

/-- A request stands behind those that come before it. -/
theorem exists_takeWhile_append {r : Request} {rs : List Request} (h : r ∈ rs) :
    ∃ after, rs = rs.takeWhile (· ≠ r) ++ r :: after := by
  induction rs with
  | nil => cases h
  | cons r' rs ih =>
    by_cases heq : r' = r
    · refine ⟨rs, ?_⟩
      rw [List.takeWhile_cons_of_neg (by simpa using heq), heq]
      rfl
    · obtain ⟨after, hafter⟩ := ih ((List.mem_cons.1 h).resolve_left (Ne.symm heq))
      refine ⟨after, ?_⟩
      rw [List.takeWhile_cons_of_pos (by simpa using heq), List.cons_append, ← hafter]

variable (schedule invoker s) in
/-- A request has its outcome at its turn. -/
theorem outcomeOf_mem_dispatch {r : Request} (hr : r ∈ requests) :
    schedule.outcomeOf invoker requests r s ∈ (schedule.dispatch invoker requests s).1 := by
  have hturn : r ∈ schedule.turns requests s := (schedule.perm_turns requests s).mem_iff.2 hr
  obtain ⟨after, hafter⟩ := exists_takeWhile_append hturn
  exact mem_dispatch_iff.2 ⟨_, r, after, hafter, rfl⟩

end Dispatch

/-! ## Requests for groups -/

/-- The ids of the bundles of a rule group. -/
def groupIds (bundles : List Bundle) (ruleGroupArn : String) : List String :=
  (Bundle.ofArn ruleGroupArn bundles).map (·.id)

theorem mem_groupIds {bundles : List Bundle} {b : Bundle} (hb : b ∈ bundles) :
    b.id ∈ groupIds bundles b.ruleGroupArn :=
  List.mem_map_of_mem (Bundle.mem_ofArn.2 ⟨hb, rfl⟩)

/-- The rule group of a bundle is asked for as a whole. -/
theorem groupIds_mem_requestsFor {bundles : List Bundle} {b : Bundle} (hb : b ∈ bundles) :
    ⟨groupIds bundles b.ruleGroupArn⟩ ∈ requestsFor bundles :=
  List.mem_map.2 ⟨_, Bundle.group_mem_groupByArn hb, rfl⟩

/-- Only bundles are asked for. -/
theorem mem_of_mem_requestsFor {bundles : List Bundle} {r : Request} (hr : r ∈ requestsFor bundles)
    {id : String} (hid : id ∈ r.bundleIds) : id ∈ bundles.map (·.id) := by
  obtain ⟨group, hgroup, rfl⟩ := List.mem_map.1 hr
  obtain ⟨b, hb, rfl⟩ := List.mem_map.1 hid
  rw [Bundle.snd_of_mem_groupByArn hgroup] at hb
  exact List.mem_map_of_mem (Bundle.mem_ofArn.1 hb).1

section Own

variable {bundles : List Bundle} {outcomes : List Outcome}

/-- The outcomes that requests for bundles have ask for every id once. -/
theorem nodup_flatMap_bundleIds (hn : (bundles.map (·.id)).Nodup)
    (h : (outcomes.map (·.bundleIds)).Perm ((requestsFor bundles).map (·.bundleIds))) :
    (outcomes.flatMap (·.bundleIds)).Nodup := by
  have hperm : (outcomes.map (·.bundleIds)).flatten.Perm
      ((requestsFor bundles).map (·.bundleIds)).flatten := h.flatten
  rw [List.flatMap, hperm.nodup_iff, requestsFor, List.map_map]
  exact Bundle.nodup_flatMap_groupByArn hn

/-- **Every bundle has an outcome of its own**: no outcome but that of its rule group has been asked
for it. -/
theorem eq_outcomeOf (hn : (bundles.map (·.id)).Nodup) (schedule : Schedule σ)
    (invoker : Invoker σ) (s : σ) {b : Bundle} (hb : b ∈ bundles) {o : Outcome}
    (ho : o ∈ (schedule.dispatch invoker (requestsFor bundles) s).1) (hid : b.id ∈ o.bundleIds) :
    o = schedule.outcomeOf invoker (requestsFor bundles) ⟨groupIds bundles b.ruleGroupArn⟩ s := by
  have hasked := perm_map_bundleIds_dispatch schedule invoker (requestsFor bundles) s
  have hdisjoint := (List.nodup_flatMap.1 (nodup_flatMap_bundleIds hn hasked)).2
  have : Std.Symm (Function.onFun List.Disjoint fun o : Outcome => o.bundleIds) :=
    ⟨fun _ _ hd _ ha ha' => hd ha' ha⟩
  by_contra hne
  have hown : schedule.outcomeOf invoker (requestsFor bundles)
      ⟨groupIds bundles b.ruleGroupArn⟩ s ∈
        (schedule.dispatch invoker (requestsFor bundles) s).1 :=
    outcomeOf_mem_dispatch schedule invoker s (groupIds_mem_requestsFor hb)
  exact (hdisjoint.forall ho hown hne) hid (mem_groupIds hb)

/-- Only bundles are asked for in a dispatch. -/
theorem mem_of_mem_dispatch {schedule : Schedule σ} {invoker : Invoker σ} {s : σ} {o : Outcome}
    (ho : o ∈ (schedule.dispatch invoker (requestsFor bundles) s).1) {id : String}
    (hid : id ∈ o.bundleIds) : id ∈ bundles.map (·.id) := by
  obtain ⟨before, r, after, hturns, rfl⟩ := mem_dispatch_iff.1 ho
  have hr : r ∈ requestsFor bundles := by
    rw [← (schedule.perm_turns (requestsFor bundles) s).mem_iff, hturns]
    exact List.mem_append_right _ List.mem_cons_self
  exact mem_of_mem_requestsFor hr hid

end Own

/-! ## Requests in flight -/

/-- A timed invoker gives the answers of another, whatever the clock says. -/
def Timed.Answers (invoke : Timed σ) (invoker : Invoker σ) : Prop :=
  ∀ r (s : Clocked σ), (invoke r s).1.1 = ((invoker r).perform s.world).1 ∧
    (invoke r s).2.world = ((invoker r).perform s.world).2

/-- Requests in flight have their turns in the order in which they are sent. -/
theorem launch_eq_inOrder {invoke : Timed σ} {invoker : Invoker σ} (h : invoke.Answers invoker)
    (limit : Nat) (rs : List Request) (busy : List Nat) (s : Clocked σ) :
    (launch limit invoke rs busy s).1.map (·.2) = (Dispatch.inOrder invoker rs s.world).1 ∧
      (launch limit invoke rs busy s).2.world = (Dispatch.inOrder invoker rs s.world).2 := by
  induction rs generalizing busy s with
  | nil => exact ⟨rfl, rfl⟩
  | cons r rs ih =>
    rw [inOrder_cons]
    simp only [launch]
    -- when the request is sent makes no difference to its answer
    generalize (if busy.length < limit then s.now else max s.now (earliest s.now busy)) = now
    obtain ⟨hanswer, hworld⟩ := h r { s with now }
    rcases hinvoke : invoke r { s with now } with ⟨⟨answer, time⟩, s'⟩
    rw [hinvoke] at hanswer hworld
    obtain ⟨hrest, hlast⟩ :=
      ih (((now + time) :: busy).filter fun t => now < t) { s' with now }
    simp only at hanswer hworld hrest hlast ⊢
    rcases hlaunch : launch limit invoke rs (((now + time) :: busy).filter fun t => now < t)
      { s' with now } with ⟨rest, s''⟩
    rw [hlaunch] at hrest hlast
    rw [← hworld, ← hrest, ← hlast, List.map_cons, outcomeAt, ← hanswer]
    exact ⟨rfl, rfl⟩

theorem perm_insertByTime (x : Nat × Outcome) (ys : List (Nat × Outcome)) :
    (insertByTime x ys).Perm (x :: ys) := by
  induction ys with
  | nil => exact List.Perm.refl _
  | cons y ys ih =>
    rw [insertByTime]
    by_cases h : y.1 < x.1
    · rw [if_pos h]
      exact (ih.cons y).trans (List.Perm.swap x y ys)
    · rw [if_neg h]

/-- Outcomes arrive in an order of their own. -/
theorem perm_inOrderOfArrival (outcomes : List (Nat × Outcome)) :
    (inOrderOfArrival outcomes).Perm (outcomes.map (·.2)) := by
  refine List.Perm.map _ ?_
  induction outcomes with
  | nil => exact List.Perm.refl _
  | cons x xs ih => exact (perm_insertByTime x _).trans (ih.cons x)

open Classical in
/-- **Requests in flight follow a schedule**: what they bring about is what dispatching by it does.
-/
theorem exists_schedule_inFlight {invoke : Timed σ} {invoker : Invoker σ}
    (h : invoke.Answers invoker) (limit : Nat) (requests : List Request) (s : Clocked σ) :
    ∃ schedule : Schedule σ, schedule.dispatch invoker requests s.world =
      ((Dispatch.inFlight limit invoke requests s).1,
        (Dispatch.inFlight limit invoke requests s).2.world) := by
  obtain ⟨houtcomes, hworld⟩ := launch_eq_inOrder h (max limit 1) requests [] s
  rcases hlaunch : launch (max limit 1) invoke requests [] s with ⟨launched, s'⟩
  rw [hlaunch] at houtcomes hworld
  -- the outcomes that were launched arrive in their order, and any others as they come
  let schedule : Schedule σ :=
    { turns := fun requests _ => requests
      arrivals := fun outcomes _ =>
        if outcomes = launched.map (·.2) then inOrderOfArrival launched else outcomes
      perm_turns := fun _ _ => List.Perm.refl _
      perm_arrivals := fun outcomes _ => by
        by_cases hout : outcomes = launched.map (·.2)
        · rw [if_pos hout, hout]
          exact perm_inOrderOfArrival launched
        · rw [if_neg hout] }
  refine ⟨schedule, ?_⟩
  have hflight : Dispatch.inFlight limit invoke requests s = (inOrderOfArrival launched, s') := by
    rw [Dispatch.inFlight, hlaunch]
  have hdispatch : schedule.dispatch invoker requests s.world =
      (schedule.arrivals (Dispatch.inOrder invoker requests s.world).1
          (Dispatch.inOrder invoker requests s.world).2,
        (Dispatch.inOrder invoker requests s.world).2) := rfl
  have harrivals : schedule.arrivals (launched.map (·.2)) s'.world = inOrderOfArrival launched :=
    if_pos rfl
  rw [hflight, hdispatch, ← houtcomes, ← hworld, harrivals]

end Scheduler

end Firewall
