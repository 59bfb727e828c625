/-
# Found or missed

An object that a resolver accepts is found, with addresses and no reason, or it is missed, with no
address and one reason.  It is missed where a stored value is malformed and where the rows of the
inventory show no address.  The only failures are that nobody accepts the object, and those of the
inventory: the first query that fails is the last that is asked, and its error is handed on.

* `ResolvedObject.IsFound`, `IsMissed` : the two outcomes;
* `Resolver.gives_outcome` : whatever is resolved is found or missed;
* `Inventory.Explains`, `Explained` : notes from which the failure of a run can be told;
* `Resolver.explains_inquiries` : what is asked explains what comes of an object;
* `Resolver.resolveBy_outcome` : when resolving succeeds, with which outcome, and why it fails.
-/
import Firewall.Proofs.Resolver.Dispatch
import Firewall.Proofs.Resolver.Noise
import Firewall.Proofs.Resolver.Origin

namespace Firewall

open Inventory

/-! ## Outcomes -/

namespace ResolvedObject

/-- There are addresses, and no reason why there should be none. -/
structure IsFound (r : ResolvedObject) : Prop where
  addresses : r.addresses ≠ []
  failureReasons : r.failureReasons = []

/-- There is no address, for one reason. -/
structure IsMissed (r : ResolvedObject) : Prop where
  addresses : r.addresses = []
  failureReasons : ∃ reason, r.failureReasons = [reason]

/-- The object as it was, either found or missed. -/
structure IsOutcomeOf (o : FlowObject) (r : ResolvedObject) : Prop where
  object : r.object = o
  decided : r.IsFound ∨ r.IsMissed

theorem IsFound.not_isMissed {r : ResolvedObject} (h : r.IsFound) : ¬ r.IsMissed :=
  fun hmissed => h.addresses hmissed.addresses

variable (o : FlowObject)

theorem isMissed_missed (reason : String) : (missed o reason).IsMissed := ⟨rfl, reason, rfl⟩

theorem isOutcomeOf_found {addresses : List String} (h : addresses ≠ []) :
    IsOutcomeOf o (found o addresses) := ⟨rfl, .inl ⟨h, rfl⟩⟩

theorem isOutcomeOf_missed (reason : String) : IsOutcomeOf o (missed o reason) :=
  ⟨rfl, .inr (isMissed_missed o reason)⟩

/-- What is made of addresses is an outcome, whether there are any or not. -/
theorem isOutcomeOf_ofAddresses (addresses : List String) (reason : String) :
    IsOutcomeOf o (ofAddresses o addresses reason) := by
  unfold ofAddresses
  split
  · exact isOutcomeOf_missed o reason
  · next h => exact isOutcomeOf_found o h

/-- An outcome is one of the two and not the other. -/
theorem IsOutcomeOf.xor {o : FlowObject} {r : ResolvedObject} (h : IsOutcomeOf o r) :
    Xor r.IsFound r.IsMissed := by
  rcases h.decided with hfound | hmissed
  · exact .inl ⟨hfound, hfound.not_isMissed⟩
  · exact .inr ⟨hmissed, fun hfound => hfound.not_isMissed hmissed⟩

end ResolvedObject

namespace Resolver

section Outcomes

open ResolvedObject

variable {σ : Type} (source : Source σ) (bundle : Option Bundle) (o : FlowObject)

theorem gives_outcome_resolveAsg (arn : Arn) :
    Action.Gives (IsOutcomeOf o) (resolveAsg source bundle o arn) := by
  apply Action.gives_bind
  intro rows
  dsimp only
  split
  · exact Action.gives_pure (isOutcomeOf_missed o _)
  · exact Action.gives_bind fun _ => Action.gives_pure (isOutcomeOf_ofAddresses o _ _)

theorem gives_outcome_resolveTagged (tags : List Tag) :
    Action.Gives (IsOutcomeOf o) (resolveTagged source bundle o tags) := by
  unfold resolveTagged
  split
  · exact Action.gives_pure (isOutcomeOf_missed o _)
  · exact Action.gives_bind fun _ => Action.gives_pure (isOutcomeOf_ofAddresses o _ _)

theorem gives_outcome_resolveLambda (raw : Json.Ordered) :
    Action.Gives (IsOutcomeOf o) (resolveLambda source bundle o raw) := by
  unfold resolveLambda
  split
  · apply Action.gives_bind
    intro rows
    dsimp only
    split
    · exact Action.gives_pure (isOutcomeOf_missed o _)
    · exact Action.gives_bind fun _ => Action.gives_pure (isOutcomeOf_ofAddresses o _ _)
  · exact Action.gives_pure (isOutcomeOf_missed o _)

/-- **Whatever is resolved is the object as it was**, and either found or missed. -/
theorem gives_outcome (chain : List Resolver) :
    Action.Gives (IsOutcomeOf o) (resolveBy chain source bundle o) := by
  unfold resolveBy
  split
  · next resolver _ =>
    -- a resolver that does not take the object fails at once
    cases resolver <;> rw [resolve] <;> split <;> try exact Action.gives_throw _
    · exact Action.gives_pure (isOutcomeOf_found o (List.cons_ne_nil _ _))
    · exact Action.gives_bind fun _ => Action.gives_pure (isOutcomeOf_ofAddresses o _ _)
    · exact Action.gives_bind fun _ => Action.gives_pure (isOutcomeOf_ofAddresses o _ _)
    · exact gives_outcome_resolveAsg source bundle o _
    · exact gives_outcome_resolveTagged source bundle o _
    · exact gives_outcome_resolveLambda source bundle o _
  · exact Action.gives_throw _

end Outcomes

end Resolver

/-! ## Notes that explain a result -/

namespace Inventory

/-- The query was answered by rows. -/
def Inquiry.Answered (i : Inquiry) : Prop := ∃ rows, i.answer = .ok rows

/-- Notes from which it can be told why a run failed, if it did: all queries were answered, but for
the last one of a run that failed, which failed with the same error. -/
inductive Explains {α : Type} : List Inquiry → Except Error α → Prop
  | ok {notes : List Inquiry} (x : α) (h : ∀ i ∈ notes, i.Answered) : Explains notes (.ok x)
  | error {notes : List Inquiry} {last : Inquiry} {e : Error} (h : ∀ i ∈ notes, i.Answered)
      (hlast : last.answer = .error e) : Explains (notes ++ [last]) (.error e)

section Explains

variable {α : Type} {notes : List Inquiry}

/-- Queries that were answered before a run explain nothing else. -/
theorem Explains.prepend {result : Except Error α} (h : Explains notes result)
    {earlier : List Inquiry} (hearlier : ∀ i ∈ earlier, i.Answered) :
    Explains (earlier ++ notes) result := by
  cases h with
  | ok x h => exact .ok x (List.forall_mem_append.2 ⟨hearlier, h⟩)
  | error h hlast =>
    rw [← List.append_assoc]
    exact .error (List.forall_mem_append.2 ⟨hearlier, h⟩) hlast

theorem Explains.answered {x : α} (h : Explains notes (.ok x)) : ∀ i ∈ notes, i.Answered := by
  cases h with
  | ok _ h => exact h

theorem Explains.exists_last {e : Error} (h : Explains notes (.error e : Except Error α)) :
    ∃ before last, notes = before ++ [last] ∧ (∀ i ∈ before, i.Answered) ∧
      last.answer = .error e := by
  cases h with
  | error h hlast => exact ⟨_, _, rfl, h, hlast⟩

/-- A run succeeds exactly if all its queries are answered. -/
theorem Explains.exists_ok_iff {result : Except Error α} (h : Explains notes result) :
    (∃ x, result = .ok x) ↔ ∀ i ∈ notes, i.Answered := by
  constructor
  · rintro ⟨x, rfl⟩
    exact h.answered
  · intro hanswered
    cases h with
    | ok x _ => exact ⟨x, rfl⟩
    | @error notes last e _ hlast =>
      obtain ⟨rows, hrows⟩ := hanswered last (List.mem_append_right _ (List.mem_singleton_self _))
      cases hlast.symm.trans hrows

end Explains

/-- The action takes notes that explain its result, after those that were there. -/
def Explained {σ α : Type} (a : Action (σ × List Inquiry) α) : Prop :=
  ∀ w, ∃ notes, (a.perform w).2.2 = w.2 ++ notes ∧ Explains notes (a.perform w).1

/-- **A sequence takes notes that explain its result** if its parts do: it goes on only after queries
that were all answered. -/
theorem closed_explained {σ : Type} :
    Action.Closed fun _ (a : Action (σ × List Inquiry) _) => Explained a where
  pure x w := ⟨[], (List.append_nil _).symm, .ok x fun _ h => absurd h List.not_mem_nil⟩
  bind := by
    intro α β a f ha hf w
    obtain ⟨notes, hnotes, hexplains⟩ := ha w
    rw [Action.perform_bind]
    rcases hw : a.perform w with ⟨e | x, w'⟩ <;> rw [hw] at hnotes hexplains
    · obtain ⟨before, last, rfl, hbefore, hlast⟩ := hexplains.exists_last
      exact ⟨_, hnotes, .error hbefore hlast⟩
    · obtain ⟨notes', hnotes', hexplains'⟩ := hf x w'
      refine ⟨notes ++ notes', ?_, hexplains'.prepend hexplains.answered⟩
      dsimp only at hnotes ⊢
      rw [hnotes', hnotes, List.append_assoc]

variable {σ : Type} (source : Source σ) (bundle : Option Bundle)

/-- A query is explained by the note of it. -/
theorem explained_ask (q : Query) : Explained (source.noted.ask bundle q) := by
  intro w
  rw [Source.perform_ask_noted]
  refine ⟨[_], rfl, ?_⟩
  dsimp only
  rcases ((source.ask bundle q).perform w.1).1 with e | rows
  · rw [← List.nil_append [_]]
    exact .error (fun _ h => absurd h List.not_mem_nil) rfl
  · refine .ok rows fun i hi => ?_
    rw [List.mem_singleton.1 hi]
    exact ⟨rows, rfl⟩

end Inventory

/-! ## What comes of an object -/

namespace Resolver

section Outcome

variable {σ : Type} {chain : List Resolver} (source : Source σ) (bundle : Option Bundle)
  (o : FlowObject) (s : σ)

/-- **What is asked explains what comes of an object** that a resolver of the chain accepts. -/
theorem explains_inquiries {r : Resolver} (hr : r ∈ chain) (haccepts : r.accepts o = true) :
    Explains (inquiries chain source bundle o s) ((resolveBy chain source bundle o).perform s).1 := by
  obtain ⟨notes, hnotes, hexplains⟩ := closed_resolve closed_explained
    (explained_ask source bundle) haccepts (s, [])
  rw [← resolveBy_of_accepts source.noted bundle o hr haccepts] at hnotes hexplains
  rw [perform_noted] at hexplains
  rw [inquiries, hnotes]
  exact hexplains

/-- Nothing is asked for an object that nobody accepts. -/
theorem inquiries_of_not_accepts (h : ∀ r ∈ chain, r.accepts o = false) :
    inquiries chain source bundle o s = [] := by
  rw [inquiries, resolveBy_of_not_accepts source.noted bundle o h]
  rfl

theorem not_accepts_of_not_exists (h : ¬ ∃ r ∈ chain, r.accepts o = true) :
    ∀ r ∈ chain, r.accepts o = false := by
  simpa only [not_exists, not_and, Bool.not_eq_true] using h

/-- **An object is resolved** exactly if somebody accepts it and all queries for it are answered. -/
theorem exists_perform_resolveBy_iff :
    (∃ r t, (resolveBy chain source bundle o).perform s = (.ok r, t)) ↔
      (∃ resolver ∈ chain, resolver.accepts o = true) ∧
        ∀ i ∈ inquiries chain source bundle o s, i.Answered := by
  by_cases h : ∃ resolver ∈ chain, resolver.accepts o = true
  · obtain ⟨resolver, hresolver, haccepts⟩ := h
    rw [← (explains_inquiries source bundle o s hresolver haccepts).exists_ok_iff,
      and_iff_right ⟨resolver, hresolver, haccepts⟩]
    simp only [Prod.ext_iff, exists_and_left, exists_eq', and_true]
  · refine iff_of_false ?_ fun hboth => h hboth.1
    rintro ⟨r, t, hr⟩
    rw [resolveBy_of_not_accepts source bundle o (not_accepts_of_not_exists o h)] at hr
    cases hr

variable {source bundle o s}

/-- **An object is not resolved** if nobody accepts it, or because of the last query for it. -/
theorem exists_last_of_perform_resolveBy {e : Error} {t : σ}
    (h : (resolveBy chain source bundle o).perform s = (.error e, t)) :
    ((∀ resolver ∈ chain, resolver.accepts o = false) ∧ e = unsupported o ∧ t = s ∧
      inquiries chain source bundle o s = []) ∨
    ((∃ resolver ∈ chain, resolver.accepts o = true) ∧
      ∃ before last, inquiries chain source bundle o s = before ++ [last] ∧
        (∀ i ∈ before, i.Answered) ∧ last.answer = .error e) := by
  by_cases haccepts : ∃ resolver ∈ chain, resolver.accepts o = true
  · obtain ⟨resolver, hresolver, ho⟩ := haccepts
    have hexplains := explains_inquiries source bundle o s hresolver ho
    rw [h] at hexplains
    exact .inr ⟨⟨resolver, hresolver, ho⟩, hexplains.exists_last⟩
  · have hnone := not_accepts_of_not_exists o haccepts
    rw [resolveBy_of_not_accepts source bundle o hnone] at h
    cases h
    exact .inl ⟨hnone, rfl, rfl, inquiries_of_not_accepts source bundle o s hnone⟩

/-- A stored function tag that is malformed is a miss, about which nothing is asked. -/
theorem resolveBy_of_malformed (hlambda : lambda ∈ chain) {raw : Json.Ordered}
    (ho : o.value = .lambda raw) (hraw : Json.Reading.ofJson? Tag.reading raw.doc = none) :
    resolveBy chain source bundle o = pure (.missed o "Invalid tag value") := by
  rw [resolveBy_of_lambda source bundle hlambda ho, resolveLambda, hraw]

/-- Nothing is found among rows that show nothing. -/
theorem isMissed_of_not_shown {r : ResolvedObject} {t : σ}
    (h : (resolveBy chain source bundle o).perform s = (.ok r, t))
    (hliteral : ∀ text, o.value ≠ .address text)
    (hshown : ∀ text, ¬ Shown (inquiries chain source bundle o s) text) : r.IsMissed := by
  rcases (gives_outcome source bundle o chain s r t h).decided with hfound | hmissed
  · obtain ⟨text, htext⟩ := List.exists_mem_of_ne_nil _ hfound.addresses
    rcases origin_of_mem h htext with ⟨hvalue, -⟩ | hshows
    · exact absurd hvalue (hliteral text)
    · exact absurd hshows (hshown text)
  · exact hmissed

variable (source bundle o s)

/-- **What comes of an object.**  If it is resolved, it is the object as it was, and either it is found,
with addresses and no reason, or it is missed, with no address and one reason, and never both.  It
is resolved exactly if a resolver accepts it and the inventory answers all that is asked for it, by
whatever rows.  Otherwise nobody accepts it, and nothing is asked; or the last query failed, after
others that were answered, and its error is what comes of the object.  A function tag that is malformed
is a miss, and so is every object that somebody accepts, unless it is an address itself, for which no
row shows anything that could be its address. -/
theorem resolveBy_outcome (chain : List Resolver) :
    (∀ r t, (resolveBy chain source bundle o).perform s = (.ok r, t) →
      r.object = o ∧ Xor r.IsFound r.IsMissed) ∧
    ((∃ r t, (resolveBy chain source bundle o).perform s = (.ok r, t)) ↔
      (∃ resolver ∈ chain, resolver.accepts o = true) ∧
        ∀ i ∈ inquiries chain source bundle o s, i.Answered) ∧
    (∀ e t, (resolveBy chain source bundle o).perform s = (.error e, t) →
      ((∀ resolver ∈ chain, resolver.accepts o = false) ∧ e = unsupported o ∧ t = s ∧
        inquiries chain source bundle o s = []) ∨
      ((∃ resolver ∈ chain, resolver.accepts o = true) ∧
        ∃ before last, inquiries chain source bundle o s = before ++ [last] ∧
          (∀ i ∈ before, i.Answered) ∧ last.answer = .error e)) ∧
    (lambda ∈ chain → ∀ raw, o.value = .lambda raw →
      Json.Reading.ofJson? Tag.reading raw.doc = none →
      (resolveBy chain source bundle o).perform s = (.ok (.missed o "Invalid tag value"), s)) ∧
    ((∃ resolver ∈ chain, resolver.accepts o = true) → (∀ text, o.value ≠ .address text) →
      (∀ i ∈ inquiries chain source bundle o s, ∃ rows, i.answer = .ok rows ∧
        ∀ row ∈ rows, ∀ text, ¬ Shows row text) →
      ∃ r t, (resolveBy chain source bundle o).perform s = (.ok r, t) ∧ r.object = o ∧
        r.IsMissed) := by
  refine ⟨fun r t h => ?_, exists_perform_resolveBy_iff source bundle o s,
    fun e t h => exists_last_of_perform_resolveBy h, fun hlambda raw ho hraw => ?_,
    fun haccepts hliteral hshows => ?_⟩
  · have houtcome := gives_outcome source bundle o chain s r t h
    exact ⟨houtcome.object, houtcome.xor⟩
  · rw [resolveBy_of_malformed hlambda ho hraw]
    rfl
  · have hanswered : ∀ i ∈ inquiries chain source bundle o s, i.Answered := fun i hi =>
      (hshows i hi).imp fun rows hrows => hrows.1
    obtain ⟨r, t, h⟩ := (exists_perform_resolveBy_iff source bundle o s).2 ⟨haccepts, hanswered⟩
    refine ⟨r, t, h, (gives_outcome source bundle o chain s r t h).object,
      isMissed_of_not_shown h hliteral ?_⟩
    rintro text ⟨i, hi, rows, hrows, row, hrow, htext⟩
    obtain ⟨rows', hrows', hnothing⟩ := hshows i hi
    cases hrows.symm.trans hrows'
    exact hnothing row hrow text htext

end Outcome

end Resolver

/-! ## An inventory that stops answering -/

namespace Sample

/-- An inventory that tells which machines are in a group, and fails when it is asked for more. -/
def throttled : Source Unit where
  select := fun _ q =>
    if q.resourceTypes = [ResourceType.autoScalingGroup] then pure [groupItem.row]
    else throw (.inventory "throttled")
  defaultAggregator := "org"

end Sample

/-- The machine of the group is asked for in vain, and the group fails with what was answered. -/
theorem Resolver.resolveBy_outcome_throttled :
    (resolveBy standard Sample.throttled none Sample.scalingGroup).perform () =
      (.error (.inventory "throttled"), ()) ∧
    ∃ before last, inquiries standard Sample.throttled none Sample.scalingGroup () =
      before ++ [last] ∧ before.map Inquiry.question = [("org", groupQuery "web")] ∧
      last.question = ("org", interfaceQuery ["i-1"] []) ∧
      last.answer = .error (.inventory "throttled") := by
  have herror : ((resolveBy standard Sample.throttled none Sample.scalingGroup).perform ()).1.map
      ResolvedObject.addresses = .error (.inventory "throttled") := by
    decide +kernel
  have hfails : (resolveBy standard Sample.throttled none Sample.scalingGroup).perform () =
      (.error (.inventory "throttled"), ()) := by
    rcases h : (resolveBy standard Sample.throttled none Sample.scalingGroup).perform () with
      ⟨e | r, u⟩ <;> rw [h] at herror <;> cases herror
    rfl
  have hquestions : (inquiries standard Sample.throttled none Sample.scalingGroup ()).map
      Inquiry.question = [("org", groupQuery "web"), ("org", interfaceQuery ["i-1"] [])] := by
    decide +kernel
  obtain ⟨-, -, herrors, -⟩ := resolveBy_outcome Sample.throttled none Sample.scalingGroup () standard
  rcases herrors _ _ hfails with ⟨-, hnobody, -⟩ | ⟨-, before, last, hinquiries, -, hlast⟩
  · cases hnobody
  · rw [hinquiries, List.map_append, List.map_singleton] at hquestions
    obtain ⟨hbefore, hquestion⟩ := List.append_inj' (show before.map Inquiry.question ++
      [last.question] = [("org", groupQuery "web")] ++ [("org", interfaceQuery ["i-1"] [])]
      from hquestions) rfl
    exact ⟨hfails, before, last, hinquiries, hbefore, List.singleton_inj.1 hquestion, hlast⟩

end Firewall
