/-
# Rounds

A scheduler and an evaluator share one store in memory.  They go through round after round; between
two rounds what lies outside may change, and in every round requests may get their turns in another
order.  In every round each bundle is either stamped or named: stamped exactly if its rule group was
evaluated with success.  So after any number of rounds a bundle has the time of the last round in
which that was so.

* `Scheduler.Round`, `Round.run` : rounds;
* `Scheduler.Round.brings` : whether a rule group is evaluated with success in a round;
* `Scheduler.Round.Sorts` : what a round does to the bundles;
* `Scheduler.Round.sorts` : the step, one round;
* `Scheduler.afterRounds`, `successTimes` : several rounds;
* `Deployment.rounds_spec` : the run, any number of rounds.
-/
import Firewall.Proofs.Scheduler.Direct

namespace Firewall

namespace Scheduler

open Evaluation

/-! ## Rounds -/

/-- A round of the scheduler. -/
structure Round (ω : Type) where
  time : Timestamp
  /-- What has changed outside since the round before. -/
  change : ω → ω
  schedule : Schedule (World ω)

variable {ω : Type}

namespace Round

/-- The world in which a round starts. -/
def enter (r : Round ω) (w : World ω) : World ω := { w with outside := r.change w.outside }

/-- The outcomes of the requests of a round, and the world after them. -/
def ask (d : Deployment ω) (r : Round ω) (w : World ω) : List Outcome × World ω :=
  r.schedule.dispatch (Invoker.direct d.evaluator) (requestsFor w.store.bundles) (r.enter w)

/-- The outcome for a rule group in a round. -/
def outcomeFor (d : Deployment ω) (r : Round ω) (w : World ω) (ruleGroupArn : String) : Outcome :=
  r.schedule.outcomeOf (Invoker.direct d.evaluator) (requestsFor w.store.bundles)
    ⟨groupIds w.store.bundles ruleGroupArn⟩ (r.enter w)

/-- A round: a cycle, whose requests are answered by the evaluator of the same deployment. -/
def run (d : Deployment ω) (r : Round ω) (w : World ω) : Except Error Report × World ω :=
  (cycle d.repository (r.schedule.dispatch (Invoker.direct d.evaluator)) r.time).perform
    (r.enter w)

/-- Whether all bundles of a rule group are evaluated with success when it has its turn. -/
def brings (d : Deployment ω) (r : Round ω) (w : World ω) (ruleGroupArn : String) : Bool :=
  let ids := groupIds w.store.bundles ruleGroupArn
  let turn := r.schedule.worldAt (Invoker.direct d.evaluator) (requestsFor w.store.bundles) ⟨ids⟩
    (r.enter w)
  ((d.evaluator.evaluateBundles ids).perform turn).1.isOk

/-- **What a round does to the bundles.** -/
structure Sorts (d : Deployment ω) (r : Round ω) (w : World ω) : Prop where
  /-- The bundles of the rule groups that were evaluated with success have the time of the round. -/
  bundles : (r.run d w).2.store.bundles = w.store.bundles.map fun b =>
    if r.brings d w b.ruleGroupArn then b.stampedAt r.time else b
  /-- They, and nobody else, were stamped. -/
  stamps : ∃ done : List String,
    (r.run d w).2.stamps = w.stamps ++ done.map (fun id => (id, r.time)) ∧
    ∀ id, id ∈ done ↔ ∃ b ∈ w.store.bundles, b.id = id ∧ r.brings d w b.ruleGroupArn = true
  /-- The other bundles, and nobody else, are named. -/
  named : ∀ id, Named (r.run d w).1 id ↔
    ∃ b ∈ w.store.bundles, b.id = id ∧ r.brings d w b.ruleGroupArn = false
  ok_iff : (∃ report, (r.run d w).1 = .ok report) ↔
    ∀ b ∈ w.store.bundles, r.brings d w b.ruleGroupArn = true

end Round

/-! ## The step -/

section Step

variable {d : Deployment ω} {r : Round ω} {w w₂ : World ω} {outcomes : List Outcome}

/-- Every outcome of a round lists what was asked for, which are bundles. -/
theorem faithful_of_ask (h : r.ask d w = (outcomes, w₂)) {o : Outcome} (ho : o ∈ outcomes) :
    o.Faithful ∧ ∀ id ∈ o.bundleIds, id ∈ w.store.bundles.map (·.id) := by
  have hmem : o ∈ (r.ask d w).1 := by
    rw [h]
    exact ho
  refine ⟨?_, fun id hid => mem_of_mem_dispatch hmem hid⟩
  obtain ⟨before, r', after, -, rfl⟩ := mem_dispatch_iff.1 hmem
  exact faithful_direct _ _ _

/-- A success is the answer for a rule group exactly if it was evaluated with success. -/
theorem accepts_outcomeFor_iff (ruleGroupArn : String) :
    (∃ ids, (r.outcomeFor d w ruleGroupArn).Accepts ids) ↔ r.brings d w ruleGroupArn = true :=
  accepts_direct_iff d.evaluator _ _

/-- **The evaluation of its rule group decides for a bundle.** -/
theorem decides_of_ask (hn : (w.store.bundles.map (·.id)).Nodup)
    (h : r.ask d w = (outcomes, w₂)) {b : Bundle} (hb : b ∈ w.store.bundles) :
    (r.brings d w b.ruleGroupArn = true → Succeeds outcomes b.id ∧ ¬ Fails outcomes b.id) ∧
    (r.brings d w b.ruleGroupArn = false → Fails outcomes b.id) := by
  have hmem : r.outcomeFor d w b.ruleGroupArn ∈ (r.ask d w).1 :=
    outcomeOf_mem_dispatch r.schedule _ _ (groupIds_mem_requestsFor hb)
  have hown : ∀ o ∈ (r.ask d w).1, b.id ∈ o.bundleIds → o = r.outcomeFor d w b.ruleGroupArn :=
    fun o ho hid => eq_outcomeOf hn r.schedule _ _ hb ho hid
  rw [h] at hmem hown
  obtain ⟨haccepts, hno⟩ := decides_of_faithful (fun o ho => (faithful_of_ask h ho).1) hmem
    (mem_groupIds hb) hown
  rw [accepts_outcomeFor_iff] at haccepts hno
  exact ⟨haccepts, fun hfalse => hno (by rw [hfalse]; exact Bool.false_ne_true)⟩

/-- An id that an outcome speaks for is that of a bundle. -/
theorem exists_bundle_of_ask (h : r.ask d w = (outcomes, w₂)) {id : String}
    (hid : Succeeds outcomes id ∨ Fails outcomes id) : ∃ b ∈ w.store.bundles, b.id = id := by
  have hspoken : ∃ o ∈ outcomes, id ∈ o.succeeded ∨ id ∈ o.failed := by
    rcases hid with ⟨o, ho, hid⟩ | ⟨o, ho, hid⟩
    · exact ⟨o, ho, Or.inl hid⟩
    · exact ⟨o, ho, Or.inr hid⟩
  obtain ⟨o, ho, hid⟩ := hspoken
  obtain ⟨hfaithful, hbundles⟩ := faithful_of_ask h ho
  exact List.mem_map.1 (hbundles id (hfaithful.mem_bundleIds hid))

theorem succeeds_iff_of_ask (hn : (w.store.bundles.map (·.id)).Nodup)
    (h : r.ask d w = (outcomes, w₂)) (id : String) :
    Succeeds outcomes id ∧ ¬ Fails outcomes id ↔
      ∃ b ∈ w.store.bundles, b.id = id ∧ r.brings d w b.ruleGroupArn = true := by
  constructor
  · rintro ⟨hsucceeds, hfails⟩
    obtain ⟨b, hb, rfl⟩ := exists_bundle_of_ask h (Or.inl hsucceeds)
    refine ⟨b, hb, rfl, ?_⟩
    rw [← Bool.not_eq_false]
    exact fun hfalse => hfails ((decides_of_ask hn h hb).2 hfalse)
  · rintro ⟨b, hb, rfl, htrue⟩
    exact (decides_of_ask hn h hb).1 htrue

theorem fails_iff_of_ask (hn : (w.store.bundles.map (·.id)).Nodup)
    (h : r.ask d w = (outcomes, w₂)) (id : String) :
    Fails outcomes id ↔
      ∃ b ∈ w.store.bundles, b.id = id ∧ r.brings d w b.ruleGroupArn = false := by
  constructor
  · intro hfails
    obtain ⟨b, hb, rfl⟩ := exists_bundle_of_ask h (Or.inr hfails)
    refine ⟨b, hb, rfl, ?_⟩
    rw [← Bool.not_eq_true]
    exact fun htrue => ((decides_of_ask hn h hb).1 htrue).2 hfails
  · rintro ⟨b, hb, rfl, hfalse⟩
    exact (decides_of_ask hn h hb).2 hfalse

/-- The requests of a round leave bundles and stamps alone. -/
theorem marks_of_ask (h : r.ask d w = (outcomes, w₂)) : w₂.ledger.marks = w.ledger.marks := by
  have hkept : (r.ask d w).2.ledger.marks = (r.enter w).ledger.marks :=
    keeps_dispatch d.keeps_direct
  rw [h] at hkept
  exact hkept

/-- What settling the outcomes of a round does, if a stamp fails only for what is not there: it
stamps the bundles whose rule groups were evaluated with success, and names the others. -/
theorem done_and_named_of_settled (hn : (w.store.bundles.map (·.id)).Nodup)
    (hwrites : StampsAll d r.time) (h : r.ask d w = (outcomes, w₂))
    {result : Except Error Report} {w' : World ω} {done refused : List String}
    (hsettled : Settled d r.time outcomes w₂ result w' done refused) (id : String) :
    (id ∈ done ↔ ∃ b ∈ w.store.bundles, b.id = id ∧ r.brings d w b.ruleGroupArn = true) ∧
    (Named result id ↔
      ∃ b ∈ w.store.bundles, b.id = id ∧ r.brings d w b.ruleGroupArn = false) := by
  have hbundles : w₂.store.bundles = w.store.bundles := congrArg Prod.fst (marks_of_ask h)
  -- only bundles are stamped, and they are all still there
  have hrefused : id ∉ refused := by
    intro hid
    have hsucceeds := (hsettled.toStamp id).1 (Or.inr hid)
    obtain ⟨b, hb, rfl⟩ := exists_bundle_of_ask h (Or.inl hsucceeds.1)
    refine hsettled.not_mem_refused hwrites ?_ hid
    rw [hbundles]
    exact List.mem_map_of_mem hb
  constructor
  · rw [← succeeds_iff_of_ask hn h, ← hsettled.toStamp, or_iff_left hrefused]
  · rw [hsettled.named, or_iff_left hrefused, fails_iff_of_ask hn h]

/-- **A round sorts the bundles**, if they can be listed and a stamp fails only for what is not
there. -/
theorem Round.sorts (hn : (w.store.bundles.map (·.id)).Nodup)
    (hlen : w.store.bundles.length ≤ UInt64.size)
    (hlists : d.repository.listBundles.perform (r.enter w) = (.ok w.store.bundles, r.enter w))
    (hwrites : StampsAll d r.time) : r.Sorts d w := by
  rcases hrun : r.run d w with ⟨result, w'⟩
  obtain ⟨e, hlist, -, -⟩ | ⟨w₁, outcomes, w₂, done, refused, hlist, -, hdispatch, hsettled⟩ :=
    d.cycle_cases (w := r.enter w) _ hlen hrun
  · rw [hlists] at hlist
    cases hlist
  · rw [hlists] at hlist
    cases hlist
    have hmarks : w₂.ledger.marks = w.ledger.marks := marks_of_ask hdispatch
    have hbundles : w₂.store.bundles = w.store.bundles := congrArg Prod.fst hmarks
    have hstamps : w₂.stamps = w.stamps := congrArg Prod.snd hmarks
    have hdone := fun id => (done_and_named_of_settled hn hwrites hdispatch hsettled id).1
    have hnamed := fun id => (done_and_named_of_settled hn hwrites hdispatch hsettled id).2
    -- the rule group of a bundle tells whether its id, which no other bundle has, is stamped
    have hmem : ∀ b ∈ w.store.bundles, b.id ∈ done ↔ r.brings d w b.ruleGroupArn = true := by
      intro b hb
      rw [hdone]
      refine ⟨?_, fun htrue => ⟨b, hb, rfl, htrue⟩⟩
      rintro ⟨c, hc, hid, htrue⟩
      rwa [List.inj_on_of_nodup_map hn hc hb hid] at htrue
    refine ⟨?_, ⟨done, ?_, hdone⟩, ?_, ?_⟩
    · rw [hrun, hsettled.stamps.bundles_eq (by rw [hbundles]; exact hn), hbundles]
      refine List.map_congr_left fun b hb => ?_
      by_cases htrue : r.brings d w b.ruleGroupArn = true
      · rw [if_pos htrue, if_pos ((hmem b hb).2 htrue)]
      · rw [if_neg htrue, if_neg fun hid => htrue ((hmem b hb).1 hid)]
    · rw [hrun, hsettled.stamps.stamps, hstamps]
    · rw [hrun]
      exact hnamed
    · rw [hrun, hsettled.ok_iff]
      constructor
      · intro hnobody b hb
        rw [← Bool.not_eq_false]
        exact fun hfalse => hnobody b.id ((hnamed b.id).2 ⟨b, hb, rfl, hfalse⟩)
      · intro hall id hid
        obtain ⟨b, hb, -, hfalse⟩ := (hnamed id).1 hid
        rw [hall b hb] at hfalse
        cases hfalse

end Step

namespace Round.Sorts

variable {d : Deployment ω} {r : Round ω} {w : World ω}

/-- A round leaves the ids of all bundles where they are. -/
theorem ids (h : r.Sorts d w) :
    (r.run d w).2.store.bundles.map (·.id) = w.store.bundles.map (·.id) := by
  rw [h.bundles, List.map_map]
  refine List.map_congr_left fun b hb => ?_
  rw [Function.comp_apply]
  by_cases htrue : r.brings d w b.ruleGroupArn = true
  · rw [if_pos htrue]
    rfl
  · rw [if_neg htrue]

theorem length (h : r.Sorts d w) :
    (r.run d w).2.store.bundles.length = w.store.bundles.length := by
  rw [h.bundles, List.length_map]

end Round.Sorts

/-! ## Several rounds -/

/-- The world after some rounds. -/
def afterRounds (d : Deployment ω) : List (Round ω) → World ω → World ω
  | [], w => w
  | r :: rounds, w => afterRounds d rounds (r.run d w).2

/-- The times of the rounds in which a rule group was evaluated with success, in order. -/
def successTimes (d : Deployment ω) (ruleGroupArn : String) :
    List (Round ω) → World ω → List Timestamp
  | [], _ => []
  | r :: rounds, w =>
    (if r.brings d w ruleGroupArn then [r.time] else []) ++
      successTimes d ruleGroupArn rounds (r.run d w).2

end Scheduler

/-! ## Two rounds to try statements on -/

namespace Sample

open Evaluation

/-- A publisher that refuses the rule groups that the world outside names. -/
def acceptUnlessNamed : Update → Action (List String) Unit := fun u =>
  Action.read fun refused =>
    if u.ruleGroupArn ∈ refused then .error (.publish "refused") else .ok ()

/-- A deployment with this publisher and an empty inventory. -/
def fickle : Deployment (List String) :=
  .inMemory acceptUnlessNamed ⟨fun _ _ => pure [], ""⟩ Resolver.standard "default-deny-all"

/-- A world with the two bundles, in which nothing is refused. -/
def fickleWorld : World (List String) := ⟨⟨store, []⟩, []⟩

/-- A round in which nothing is refused, and a later one in which `g2` is. -/
def rounds : List (Scheduler.Round (List String)) :=
  [⟨time, fun _ => [], .plain⟩, ⟨later, fun _ => ["g2"], .plain⟩]

end Sample

/-- A bundle with the last of some times, or with its own if there are none. -/
def Bundle.syncedAt (times : List Timestamp) (b : Bundle) : Bundle :=
  { b with lastSuccessSync := times.getLast?.or b.lastSuccessSync }

theorem Bundle.syncedAt_stampedAt (times : List Timestamp) (time : Timestamp) (b : Bundle) :
    (b.stampedAt time).syncedAt times = b.syncedAt (time :: times) := by
  unfold syncedAt stampedAt
  rw [List.getLast?_cons]
  cases times.getLast? <;> rfl

open Scheduler Evaluation

namespace Deployment

variable {ω : Type} (accept : Update → Action ω Unit) (source : Inventory.Source ω)
  (chain : List Resolver) (denyRuleId : String)

/-- **The step**: a round sorts the bundles of a store in memory into those that are stamped and
those that are named. -/
theorem sorts_round (r : Round ω) {w : World ω} (hn : (w.store.bundles.map (·.id)).Nodup)
    (hlen : w.store.bundles.length ≤ UInt64.size) :
    r.Sorts (inMemory accept source chain denyRuleId) w :=
  Round.sorts hn hlen (perform_listBundles_inMemory accept source chain denyRuleId hlen)
    fun _ _ _ _ => not_mem_of_stamp_inMemory

/-- **Any number of rounds.**  Every round stamps the bundles whose rule groups were evaluated with
success in it, and names the others.  After all of them, every bundle has the time of the last round
in which its rule group was evaluated with success, or the one that it had at first. -/
theorem rounds_spec (rounds : List (Round ω)) {w : World ω}
    (hn : (w.store.bundles.map (·.id)).Nodup) (hlen : w.store.bundles.length ≤ UInt64.size) :
    (∀ before r after, rounds = before ++ r :: after →
      r.Sorts (inMemory accept source chain denyRuleId)
        (afterRounds (inMemory accept source chain denyRuleId) before w)) ∧
    (afterRounds (inMemory accept source chain denyRuleId) rounds w).store.bundles =
      w.store.bundles.map fun b =>
        b.syncedAt (successTimes (inMemory accept source chain denyRuleId) b.ruleGroupArn
          rounds w) := by
  -- a round changes the times of bundles only, so the rounds after it start like the first one
  induction rounds generalizing w with
  | nil =>
    refine ⟨fun before r after h => ?_, ?_⟩
    · have := congrArg List.length h
      simp at this
    · have hnone : ∀ b : Bundle, b.syncedAt [] = b := fun _ => rfl
      exact (List.map_id'' hnone w.store.bundles).symm
  | cons r rounds ih =>
    have hsorts := sorts_round accept source chain denyRuleId r hn hlen
    have hn₁ := hsorts.ids ▸ hn
    have hlen₁ := hsorts.length ▸ hlen
    obtain ⟨hrounds, hbundles⟩ := ih hn₁ hlen₁
    refine ⟨fun before r' after h => ?_, ?_⟩
    · cases before with
      | nil =>
        cases h
        exact hsorts
      | cons r₁ before =>
        cases h
        exact hrounds before r' after rfl
    · -- a later success hides this one, and if there is none this one counts
      rw [afterRounds, hbundles, hsorts.bundles, List.map_map]
      refine List.map_congr_left fun b _ => ?_
      rw [Function.comp_apply, successTimes]
      by_cases htrue : r.brings (inMemory accept source chain denyRuleId) w b.ruleGroupArn = true
      · rw [if_pos htrue, if_pos htrue, Bundle.syncedAt_stampedAt]
        rfl
      · rw [if_neg htrue, if_neg htrue]
        rfl

/-- Two rounds, and the publisher refuses the second of two rule groups in the later one: the bundle
of the first has the time of the later round, and the other that of the earlier round. -/
theorem rounds_spec_fickle :
    (Sample.store.bundles.map (·.id)).Nodup ∧ Sample.store.bundles.length ≤ UInt64.size ∧
    (afterRounds Sample.fickle Sample.rounds Sample.fickleWorld).store.bundles =
      [{ Bundle.new "b1" "g1" "" with lastSuccessSync := some Sample.later },
        { Bundle.new "b2" "g2" "" with lastSuccessSync := some Sample.time }] := by
  have hn : (Sample.store.bundles.map (·.id)).Nodup := by decide
  have hlen : Sample.store.bundles.length ≤ UInt64.size := by decide
  have hfirst : successTimes Sample.fickle "g1" Sample.rounds Sample.fickleWorld =
      [Sample.time, Sample.later] := by
    decide +kernel
  have hsecond : successTimes Sample.fickle "g2" Sample.rounds Sample.fickleWorld =
      [Sample.time] := by
    decide +kernel
  obtain ⟨-, hbundles⟩ := rounds_spec Sample.acceptUnlessNamed ⟨fun _ _ => pure [], ""⟩
    Resolver.standard "default-deny-all" Sample.rounds (w := Sample.fickleWorld) hn hlen
  refine ⟨hn, hlen, hbundles.trans ?_⟩
  show [Bundle.syncedAt (successTimes Sample.fickle "g1" _ _) _,
    Bundle.syncedAt (successTimes Sample.fickle "g2" _ _) _] = _
  rw [hfirst, hsecond]
  rfl

end Deployment

end Firewall
