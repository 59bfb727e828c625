/-
# The fate of a bundle

A cycle goes by the ids that answers list, and not by those that were asked for.  So a success
speaks for the bundles that it lists, also for those of other rule groups; and a bundle that its own
answer leaves out is judged by the answers that do list it, or by nobody.  An answer that lists
nothing readable fails all that was asked for.  As long as every list is that of its request, the
answer for the rule group alone decides.

* `Scheduler.Outcome.Mute`, `Accepts`, `Rejects` : the three kinds of answers;
* `Scheduler.BroughtUp`, `GivenUp` : a bundle that is stamped, and one that is named;
* `Scheduler.Fates` : the fate of every id, by all outcomes;
* `Scheduler.OwnFate` : the fate of a bundle, by the outcome for its rule group;
* `Deployment.cycle_fates` : the fates of all bundles in a cycle.
-/
import Firewall.Proofs.Evaluation.Message
import Firewall.Proofs.Scheduler.Dispatch
import Firewall.Proofs.Scheduler.Settling
import Firewall.Proofs.Store.Listing

namespace Firewall

namespace Scheduler

open Evaluation

/-! ## Kinds of answers -/

namespace Outcome

/-- There is no answer, or none whose body can be read. -/
def Mute (o : Outcome) : Prop := ∀ response, o.answer = .ok response → response.body? = none

/-- The answer is a success that lists some ids. -/
def Accepts (o : Outcome) (ids : List String) : Prop :=
  ∃ response body, o.answer = .ok response ∧ response.isSuccess = true ∧
    response.body? = some body ∧ body.bundleIds = ids

/-- The answer is a failure that lists some ids. -/
def Rejects (o : Outcome) (ids : List String) : Prop :=
  ∃ response body, o.answer = .ok response ∧ response.isSuccess = false ∧
    response.body? = some body ∧ body.bundleIds = ids

/-- The answer lists what was asked for, if it lists anything. -/
def Faithful (o : Outcome) : Prop :=
  ∀ ids, o.Accepts ids ∨ o.Rejects ids → ∀ id, id ∈ ids ↔ id ∈ o.bundleIds

variable {o : Outcome} {ids : List String}

/-- Every answer is of one of the three kinds. -/
theorem mute_or_accepts_or_rejects (o : Outcome) :
    o.Mute ∨ (∃ ids, o.Accepts ids) ∨ ∃ ids, o.Rejects ids := by
  rcases hanswer : o.answer with e | response
  · refine Or.inl fun response h => ?_
    rw [hanswer] at h
    cases h
  · rcases hbody : response.body? with - | body
    · refine Or.inl fun response' h => ?_
      rw [hanswer] at h
      cases h
      exact hbody
    · rcases hsuccess : response.isSuccess with - | -
      · exact Or.inr (Or.inr ⟨_, response, body, hanswer, hsuccess, hbody, rfl⟩)
      · exact Or.inr (Or.inl ⟨_, response, body, hanswer, hsuccess, hbody, rfl⟩)

/-- The ids that an answer lists are those of its body. -/
theorem exists_body (h : o.Accepts ids ∨ o.Rejects ids) :
    ∃ response body, o.answer = .ok response ∧ response.body? = some body ∧
      body.bundleIds = ids := by
  rcases h with haccepts | hrejects
  · obtain ⟨response, body, hanswer, -, hbody, hids⟩ := haccepts
    exact ⟨response, body, hanswer, hbody, hids⟩
  · obtain ⟨response, body, hanswer, -, hbody, hids⟩ := hrejects
    exact ⟨response, body, hanswer, hbody, hids⟩

/-- An answer that cannot be read fails all that was asked for. -/
theorem Mute.speaks (h : o.Mute) : o.succeeded = [] ∧ o.failed = o.bundleIds := by
  unfold succeeded failed
  rcases hanswer : o.answer with e | response
  · exact ⟨rfl, rfl⟩
  · have hbody : response.body? = none := h response hanswer
    cases hsuccess : response.isSuccess <;> simp [hsuccess, hbody]

/-- A success speaks for the ids that it lists. -/
theorem Accepts.speaks (h : o.Accepts ids) : o.succeeded = ids ∧ o.failed = [] := by
  obtain ⟨response, body, hanswer, hsuccess, hbody, rfl⟩ := h
  unfold succeeded failed
  simp [hanswer, hsuccess, hbody]

/-- A failure speaks for the ids that it lists, and for what was asked for if it lists none. -/
theorem Rejects.speaks (h : o.Rejects ids) :
    o.succeeded = [] ∧ o.failed = if ids = [] then o.bundleIds else ids := by
  obtain ⟨response, body, hanswer, hsuccess, hbody, rfl⟩ := h
  unfold succeeded failed
  simp [hanswer, hsuccess, hbody]

/-- An answer that lists what was asked for speaks for nothing else. -/
theorem Faithful.mem_bundleIds (h : o.Faithful) {id : String}
    (hid : id ∈ o.succeeded ∨ id ∈ o.failed) : id ∈ o.bundleIds := by
  rcases o.mute_or_accepts_or_rejects with hmute | ⟨ids, haccepts⟩ | ⟨ids, hrejects⟩
  · rw [hmute.speaks.1, hmute.speaks.2] at hid
    exact hid.resolve_left List.not_mem_nil
  · rw [haccepts.speaks.1, haccepts.speaks.2] at hid
    exact (h ids (Or.inl haccepts) id).1 (hid.resolve_right List.not_mem_nil)
  · rw [hrejects.speaks.1, hrejects.speaks.2] at hid
    have hfailed := hid.resolve_left List.not_mem_nil
    by_cases hids : ids = []
    · rwa [if_pos hids] at hfailed
    · rw [if_neg hids] at hfailed
      exact (h ids (Or.inr hrejects) id).1 hfailed

end Outcome

/-! ## Fates -/

section Fates

variable {ω : Type}

/-- A bundle is stamped, and not named in the failure. -/
structure BroughtUp (time : Timestamp) (w : World ω) (result : Except Error Report) (w' : World ω)
    (id : String) : Prop where
  held : id ∈ w.store.bundles.map (·.id)
  bundle? : w'.store.bundle? id = (w.store.bundle? id).map (Bundle.stampedAt time)
  noted : ∃ entries, w'.journal = w.journal ++ entries ∧ .stamped id time ∈ entries
  unnamed : ¬ Named result id

/-- A bundle is named in the failure, and left as it was. -/
structure GivenUp (w : World ω) (result : Except Error Report) (w' : World ω) (id : String) :
    Prop where
  bundle? : w'.store.bundle? id = w.store.bundle? id
  named : Named result id

/-- A bundle is stamped, or named because its stamp cannot be written. -/
def Accepted (d : Deployment ω) (time : Timestamp) (outcomes : List Outcome) (w : World ω)
    (result : Except Error Report) (w' : World ω) (id : String) : Prop :=
  BroughtUp time w result w' id ∨
    GivenUp w result w' id ∧ d.Unwritten time (toStamp outcomes) w id

/-- **The fate of every id**: one failed answer is enough to fail it, and a bundle that no answer
speaks for is left alone and not named. -/
structure Fates (d : Deployment ω) (time : Timestamp) (outcomes : List Outcome) (w : World ω)
    (result : Except Error Report) (w' : World ω) : Prop where
  failed : ∀ id, Fails outcomes id → GivenUp w result w' id
  succeeded : ∀ id, Succeeds outcomes id → ¬ Fails outcomes id →
    Accepted d time outcomes w result w' id
  unmentioned : ∀ id, ¬ Succeeds outcomes id → ¬ Fails outcomes id →
    w'.store.bundle? id = w.store.bundle? id ∧ ¬ Named result id
  ok_iff : (∃ report, result = .ok report) ↔ ∀ id, ¬ Named result id

variable {d : Deployment ω} {time : Timestamp} {outcomes : List Outcome} {w w' : World ω}
  {result : Except Error Report}

theorem Settled.fates {done refused : List String}
    (h : Settled d time outcomes w result w' done refused) :
    Fates d time outcomes w result w' := by
  have hleft : ∀ id, id ∉ done → w'.store.bundle? id = w.store.bundle? id := fun id hid => by
    rw [h.stamps.bundle? id, if_neg hid]
  -- only what succeeded and did not fail is to be stamped
  refine ⟨fun id hfails => ?_, fun id hsucceeds hfails => ?_, fun id hsucceeds hfails => ?_,
    h.ok_iff⟩
  · have hdone : id ∉ done := fun hid => ((h.toStamp id).1 (Or.inl hid)).2 hfails
    exact ⟨hleft id hdone, (h.named id).2 (Or.inl hfails)⟩
  · rcases (h.toStamp id).2 ⟨hsucceeds, hfails⟩ with hdone | hrefused
    · have hunnamed : ¬ Named result id := fun hnamed =>
        h.disjoint id hdone (((h.named id).1 hnamed).resolve_left hfails)
      refine Or.inl ⟨h.stamps.held id hdone, ?_, ⟨_, h.stamps.journal, ?_⟩, hunnamed⟩
      · rw [h.stamps.bundle? id, if_pos hdone]
      · exact List.mem_map.2 ⟨id, hdone, rfl⟩
    · have hdone : id ∉ done := fun hdone => h.disjoint id hdone hrefused
      exact Or.inr ⟨⟨hleft id hdone, (h.named id).2 (Or.inr hrefused)⟩, h.unwritten id hrefused⟩
  · have hstamp : ¬ (id ∈ done ∨ id ∈ refused) := fun hid => hsucceeds ((h.toStamp id).1 hid).1
    rw [not_or] at hstamp
    exact ⟨hleft id hstamp.1, fun hnamed => ((h.named id).1 hnamed).elim hfails hstamp.2⟩

/-! ## The fate of a bundle by its own answer -/

/-- What the outcome `o` for the rule group of a bundle says of its fate. -/
structure OwnFate (d : Deployment ω) (time : Timestamp) (outcomes : List Outcome) (w : World ω)
    (result : Except Error Report) (w' : World ω) (o : Outcome) (id : String) : Prop where
  mute : o.Mute → GivenUp w result w' id
  rejects : ∀ ids, o.Rejects ids → ids = [] ∨ id ∈ ids → GivenUp w result w' id
  accepts : ∀ ids, o.Accepts ids → id ∈ ids → ¬ Fails outcomes id →
    Accepted d time outcomes w result w' id
  /-- If all answers list what was asked for, this one decides. -/
  alone : (∀ o' ∈ outcomes, o'.Faithful) →
    ((∃ ids, o.Accepts ids) → Accepted d time outcomes w result w' id) ∧
    ((¬ ∃ ids, o.Accepts ids) → GivenUp w result w' id)

/-- **If all answers list what was asked for, the only one that was asked for an id decides**: no
other can speak for it. -/
theorem decides_of_faithful (hfaithful : ∀ o ∈ outcomes, o.Faithful) {o : Outcome} {id : String}
    (ho : o ∈ outcomes) (hid : id ∈ o.bundleIds)
    (hown : ∀ o' ∈ outcomes, id ∈ o'.bundleIds → o' = o) :
    ((∃ ids, o.Accepts ids) → Succeeds outcomes id ∧ ¬ Fails outcomes id) ∧
    ((¬ ∃ ids, o.Accepts ids) → Fails outcomes id) := by
  constructor
  · rintro ⟨ids, haccepts⟩
    have hlisted : id ∈ ids := (hfaithful o ho ids (Or.inl haccepts) id).2 hid
    refine ⟨⟨o, ho, by rwa [haccepts.speaks.1]⟩, ?_⟩
    -- an answer that fails the id has been asked for it, so it is this one
    rintro ⟨o', ho', hfailed⟩
    have hasked := (hfaithful o' ho').mem_bundleIds (Or.inr hfailed)
    rw [hown o' ho' hasked, haccepts.speaks.2] at hfailed
    cases hfailed
  · intro hno
    refine ⟨o, ho, ?_⟩
    rcases o.mute_or_accepts_or_rejects with hmute | haccepts | ⟨ids, hrejects⟩
    · rwa [hmute.speaks.2]
    · exact absurd haccepts hno
    · have hlisted : id ∈ ids := (hfaithful o ho ids (Or.inr hrejects) id).2 hid
      rwa [hrejects.speaks.2, if_neg (List.ne_nil_of_mem hlisted)]

theorem Fates.own (h : Fates d time outcomes w result w') {o : Outcome} {id : String}
    (ho : o ∈ outcomes) (hid : id ∈ o.bundleIds)
    (hown : ∀ o' ∈ outcomes, id ∈ o'.bundleIds → o' = o) :
    OwnFate d time outcomes w result w' o id := by
  refine ⟨fun hmute => ?_, fun ids hrejects hmem => ?_, fun ids haccepts hmem hfails => ?_,
    fun hfaithful => ?_⟩
  · exact h.failed id ⟨o, ho, by rwa [hmute.speaks.2]⟩
  · refine h.failed id ⟨o, ho, ?_⟩
    rw [hrejects.speaks.2]
    by_cases hids : ids = []
    · rwa [if_pos hids]
    · rw [if_neg hids]
      exact hmem.resolve_left hids
  · exact h.succeeded id ⟨o, ho, by rwa [haccepts.speaks.1]⟩ hfails
  · obtain ⟨haccepts, hno⟩ := decides_of_faithful hfaithful ho hid hown
    exact ⟨fun hids => h.succeeded id (haccepts hids).1 (haccepts hids).2,
      fun hids => h.failed id (hno hids)⟩

end Fates

end Scheduler

open Evaluation Scheduler

/-! ## Invokers to try statements on -/

namespace Sample

/-- An invoker that succeeds and lists nobody. -/
def forgetful : Invoker (World Unit) := fun _ => pure (.of statusOk "done" [])

/-- An invoker that succeeds for `b1` and cannot be asked for anybody else. -/
def oneSided : Invoker (World Unit) := fun r =>
  if "b1" ∈ r.bundleIds then pure (.of statusOk "done" r.bundleIds)
  else throw (.invocation "no responders")

end Sample

/-! ## Cycles -/

namespace Deployment

variable {ω : Type} (d : Deployment ω)

/-- **A cycle lists, dispatches and settles**, or it fails to list and does nothing. -/
theorem cycle_cases (dispatch : Dispatch (World ω)) {time : Timestamp} {w w' : World ω}
    {result : Except Error Report} (hlen : w.store.bundles.length ≤ UInt64.size)
    (h : (cycle d.repository dispatch time).perform w = (result, w')) :
    (∃ e, d.repository.listBundles.perform w = (.error e, w') ∧ result = .error e ∧
      w'.ledger = w.ledger) ∨
    ∃ w₁ outcomes w₂ done refused,
      d.repository.listBundles.perform w = (.ok w.store.bundles, w₁) ∧ w₁.ledger = w.ledger ∧
      dispatch (requestsFor w.store.bundles) w₁ = (outcomes, w₂) ∧
      Settled d time outcomes w₂ result w' done refused := by
  obtain ⟨w₁, hledger, hlist | ⟨e, hlist⟩⟩ := d.perform_listBundles hlen
  · refine Or.inr ?_
    rcases hdispatch : dispatch (requestsFor w.store.bundles) w₁ with ⟨outcomes, w₂⟩
    rw [perform_cycle hlist hdispatch] at h
    obtain ⟨done, refused, hsettled⟩ := d.settled_of_settle h
    exact ⟨w₁, outcomes, w₂, done, refused, hlist, hledger, hdispatch, hsettled⟩
  · rw [cycle, Action.perform_bind_of_error hlist] at h
    cases h
    exact Or.inl ⟨e, hlist, rfl, hledger⟩

/-- **The fates of all bundles in a cycle**, whatever the invoker does and whichever calls to the
store are refused.  Every bundle has the outcome for its own rule group, and the outcomes together
decide. -/
theorem cycle_fates (invoker : Invoker (World ω)) (schedule : Schedule (World ω)) {time : Timestamp}
    {w w' : World ω} {result : Except Error Report} (hn : (w.store.bundles.map (·.id)).Nodup)
    (hlen : w.store.bundles.length ≤ UInt64.size)
    (h : (cycle d.repository (schedule.dispatch invoker) time).perform w = (result, w')) :
    (∃ e, d.repository.listBundles.perform w = (.error e, w') ∧ result = .error e ∧
      w'.ledger = w.ledger) ∨
    ∃ w₁ outcomes w₂, d.repository.listBundles.perform w = (.ok w.store.bundles, w₁) ∧
      w₁.ledger = w.ledger ∧
      schedule.dispatch invoker (requestsFor w.store.bundles) w₁ = (outcomes, w₂) ∧
      ((∀ r, Action.Keeps (fun v : World ω => v.store.bundles) (invoker r)) →
        w₂.store.bundles = w.store.bundles) ∧
      Fates d time outcomes w₂ result w' ∧
      ∀ b ∈ w.store.bundles, ∃ o ∈ outcomes,
        o = schedule.outcomeOf invoker (requestsFor w.store.bundles)
          ⟨groupIds w.store.bundles b.ruleGroupArn⟩ w₁ ∧
        (∀ o' ∈ outcomes, b.id ∈ o'.bundleIds → o' = o) ∧
        OwnFate d time outcomes w₂ result w' o b.id := by
  rcases d.cycle_cases _ hlen h with
    hfails | ⟨w₁, outcomes, w₂, done, refused, hlist, hledger, hdispatch, hsettled⟩
  · exact Or.inl hfails
  · have hfates := hsettled.fates
    have houtcomes :
        (schedule.dispatch invoker (requestsFor w.store.bundles) w₁).1 = outcomes := by
      rw [hdispatch]
    refine Or.inr ⟨w₁, outcomes, w₂, hlist, hledger, hdispatch, fun hkeeps => ?_, hfates, ?_⟩
    · have hbundles : (schedule.dispatch invoker (requestsFor w.store.bundles) w₁).2.store.bundles =
          w₁.store.bundles := keeps_dispatch hkeeps
      rw [hdispatch] at hbundles
      exact hbundles.trans (congrArg (fun l => l.store.bundles) hledger)
    · intro b hb
      have hmem := outcomeOf_mem_dispatch schedule invoker w₁ (groupIds_mem_requestsFor hb)
      rw [houtcomes] at hmem
      have hown : ∀ o ∈ outcomes, b.id ∈ o.bundleIds → o =
          schedule.outcomeOf invoker (requestsFor w.store.bundles)
            ⟨groupIds w.store.bundles b.ruleGroupArn⟩ w₁ := by
        rw [← houtcomes]
        exact fun o ho hid => eq_outcomeOf hn schedule invoker w₁ hb ho hid
      exact ⟨_, hmem, rfl, hown, hfates.own hmem (mem_groupIds hb) hown⟩

/-- A success for `b1` and no answer for `b2`: the bundle without an answer is named and left as it
was. -/
theorem cycle_fates_oneSided :
    (Sample.world.store.bundles.map (·.id)).Nodup ∧
    Sample.world.store.bundles.length ≤ UInt64.size ∧
    ∃ outcomes w₂ result w',
      (cycle (Sample.deployment []).repository (Schedule.plain.dispatch Sample.oneSided)
        Sample.time).perform Sample.world = (result, w') ∧
      Fates (Sample.deployment []) Sample.time outcomes w₂ result w' ∧
      GivenUp w₂ result w' "b2" := by
  have hn : (Sample.world.store.bundles.map (·.id)).Nodup := by decide
  have hlen : Sample.world.store.bundles.length ≤ UInt64.size := by decide
  have hlists : (Sample.deployment []).repository.listBundles.perform Sample.world =
      (.ok Sample.store.bundles, Sample.world) :=
    perform_listBundles_inMemory _ _ _ _ hlen
  refine ⟨hn, hlen, ?_⟩
  rcases h : (cycle (Sample.deployment []).repository (Schedule.plain.dispatch Sample.oneSided)
    Sample.time).perform Sample.world with ⟨result, w'⟩
  obtain ⟨e, hlist, -, -⟩ | ⟨w₁, outcomes, w₂, -, -, -, -, hfates, hown⟩ :=
    cycle_fates (Sample.deployment []) Sample.oneSided Schedule.plain hn hlen h
  · rw [hlists] at hlist
    cases hlist
  · obtain ⟨o, -, ho, -, hfate⟩ :=
      hown (.new "b2" "g2" "") (List.mem_cons_of_mem _ List.mem_cons_self)
    refine ⟨outcomes, w₂, result, w', rfl, hfates, hfate.mute fun response hanswer => ?_⟩
    have herror : o.answer = .error (.invocation "no responders") := by
      rw [ho]
      rfl
    rw [herror] at hanswer
    cases hanswer

/-- **Successes that list nobody lose all bundles**: the cycle succeeds, so nobody is named, and
nobody is stamped either. -/
theorem cycle_forgetful :
    (∀ r w, ∃ response body, (Sample.forgetful r).perform w = (.ok response, w) ∧
      response.isSuccess = true ∧ response.body? = some body) ∧
    (∀ b ∈ Sample.world.store.bundles, b.lastSuccessSync = none) ∧
    ∃ report, (cycle (Sample.deployment []).repository (Dispatch.inOrder Sample.forgetful)
      Sample.time).perform Sample.world = (.ok report, Sample.world) := by
  have hanswer : (Response.of statusOk "done" []).body? = some ⟨"done", []⟩ :=
    Response.body?_of statusOk "done" []
  refine ⟨fun r w => ⟨_, _, rfl, rfl, hanswer⟩, by decide, ⟨2, [], []⟩, ?_⟩
  have hlist : (Sample.deployment []).repository.listBundles.perform Sample.world =
      (.ok Sample.store.bundles, Sample.world) :=
    perform_listBundles_inMemory _ _ _ _ (by decide)
  have hdispatch : Dispatch.inOrder Sample.forgetful (requestsFor Sample.store.bundles)
      Sample.world = ([⟨["b1"], .ok (.of statusOk "done" [])⟩,
        ⟨["b2"], .ok (.of statusOk "done" [])⟩], Sample.world) := by
    rfl
  rw [perform_cycle hlist hdispatch]
  refine perform_settle_of_silent _ _ _ (fun o ho => ?_) _
  have haccepts : o.Accepts [] := by
    rcases List.mem_pair.1 ho with rfl | rfl <;> exact ⟨_, _, rfl, rfl, hanswer, rfl⟩
  exact haccepts.speaks

end Deployment

end Firewall
