/-
# What an evaluation goes by

In a deployment that answers every call in the same way whenever it is asked, evaluating bundles goes
by these bundles, their rules and the objects alone: in two stores that agree on them it gives the
same result, and writes the same entries to the journal.  The entries are all that it does, and they
are about these bundles only.

* `Deployment.Steady` : deployments whose answers do not depend on what has happened outside;
* `Store.Snapshot.Agree` : stores that agree on some bundles;
* `Ledger.record` : what entries make of a ledger;
* `Effect.Within` : entries that are about some bundles only;
* `Ledger.Traced` : two ledgers after the same entries;
* `Deployment.alike_evaluateBundles` : two evaluations of the same bundles;
* `Deployment.entriesFor` : the entries that an evaluation writes.
-/
import Firewall.Proofs.Evaluation.Batch

namespace Firewall

open Evaluation

/-! ## Steady deployments -/

/-- Whether a call is let through, and what rows answer a query, does not depend on what has
happened outside. -/
structure Deployment.Steady {ω : Type} (d : Deployment ω) : Prop where
  permit : ∀ c o o', ((d.permit c).perform o).1 = ((d.permit c).perform o').1
  select : ∀ aggregator q o o', ((d.source.select aggregator q).perform o).1 =
    ((d.source.select aggregator q).perform o').1

/-- A store in memory with a publisher that goes by the update, and an inventory that goes by the
query, is steady. -/
theorem Deployment.steady_inMemory {ω : Type} {accept : Update → Action ω Unit}
    {source : Inventory.Source ω}
    (haccept : ∀ u o o', ((accept u).perform o).1 = ((accept u).perform o').1)
    (hselect : ∀ aggregator q o o', ((source.select aggregator q).perform o).1 =
      ((source.select aggregator q).perform o').1) (chain : List Resolver) (denyRuleId : String) :
    (inMemory accept source chain denyRuleId).Steady := by
  refine ⟨fun c o o' => ?_, hselect⟩
  cases c with
  | publish u => exact haccept u o o'
  | _ => rfl

theorem Sample.steady_deployment (refused : List String) : (deployment refused).Steady :=
  Deployment.steady_inMemory (fun _ _ _ => rfl) (fun _ _ _ _ => rfl) _ _

/-! ## Entries -/

/-- The rules that an entry stores. -/
def Effect.rules : Effect → List Rule
  | stored rules => rules
  | _ => []

/-- The ledger after some entries, none of which is a stamp. -/
def Ledger.record (l : Ledger) (entries : List Effect) : Ledger :=
  ⟨l.store.putRules (entries.flatMap Effect.rules), l.journal ++ entries⟩

/-- An entry that is about some bundles of a store only: it stores rules that they have, or
publishes the rule group of one of them. -/
def Effect.Within (ids : List String) (s : Store.Snapshot) : Effect → Prop
  | stored rules => ∀ x ∈ rules, s.Holds x ∧ x.bundleId ∈ ids
  | published u => ∃ b, b.id ∈ ids ∧ s.bundle? b.id = some b ∧ b.ruleGroupArn = u.ruleGroupArn
  | stamped _ _ => False

namespace Store.Snapshot

/-- Two stores agree on some bundles and their rules, and on the objects. -/
structure Agree (ids : List String) (s s' : Snapshot) : Prop where
  bundle? : ∀ id ∈ ids, s.bundle? id = s'.bundle? id
  rulesOf : ∀ id ∈ ids, s.rulesOf id = s'.rulesOf id
  objects : s.objects = s'.objects

variable {ids : List String} {s s' : Snapshot} {batch : List Rule}

theorem Agree.refl (ids : List String) (s : Snapshot) : s.Agree ids s :=
  ⟨fun _ _ => rfl, fun _ _ => rfl, rfl⟩

/-- A bundle is found after rules were put if it is found before. -/
theorem bundle?_putRules (s : Snapshot) (batch : List Rule) (id : String) :
    (s.putRules batch).bundle? id = s.bundle? id := by
  unfold Snapshot.bundle?
  rw [bundles_putRules]

/-- A rule is held after rules were put exactly if it is held before. -/
theorem holds_putRules_iff (hn : (s.rules.map Rule.id).Nodup) (h : ∀ x ∈ batch, s.Holds x)
    {x : Rule} : (s.putRules batch).Holds x ↔ s.Holds x := by
  refine ⟨?_, Holds.putRules hn h⟩
  rintro ⟨r', hr', hid, hb⟩
  rw [rules_putRules_of_holds hn h] at hr'
  obtain ⟨r, hr, rfl⟩ := List.mem_map.1 hr'
  rw [id_replacedBy] at hid
  rw [bundleId_replacedBy hn h hr] at hb
  exact ⟨r, hr, hid, hb⟩

/-- What agrees before the same rules are put agrees after it. -/
theorem Agree.putRules (h : s.Agree ids s') (hn : (s.rules.map Rule.id).Nodup)
    (hn' : (s'.rules.map Rule.id).Nodup) (hb : ∀ x ∈ batch, s.Holds x)
    (hb' : ∀ x ∈ batch, s'.Holds x) : (s.putRules batch).Agree ids (s'.putRules batch) := by
  refine ⟨fun id hid => ?_, fun id hid => ?_, ?_⟩
  · rw [bundle?_putRules, bundle?_putRules, h.bundle? id hid]
  · rw [rulesOf_putRules hn hb, rulesOf_putRules hn' hb', h.rulesOf id hid]
  · rw [objects_putRules, objects_putRules, h.objects]

/-- Putting rules of other bundles makes no difference. -/
theorem agree_putRules (hn : (s.rules.map Rule.id).Nodup) (hb : ∀ x ∈ batch, s.Holds x)
    (hids : ∀ x ∈ batch, x.bundleId ∉ ids) : s.Agree ids (s.putRules batch) := by
  refine ⟨fun id _ => (bundle?_putRules s batch id).symm, fun id hid => ?_,
    (objects_putRules s batch).symm⟩
  refine (rulesOf_putRules_of_not_mem hn hb fun x hx hxid => ?_).symm
  exact hids x hx (hxid ▸ hid)

end Store.Snapshot

section Entries

variable {ids : List String} {s : Store.Snapshot} {entries : List Effect}

/-- The rules that an entry about some bundles stores are held for these bundles. -/
theorem Effect.Within.holds {e : Effect} (h : e.Within ids s) {x : Rule} (hx : x ∈ e.rules) :
    s.Holds x ∧ x.bundleId ∈ ids := by
  cases e with
  | stored rules => exact h x hx
  | published u => cases hx
  | stamped id time => cases hx

theorem Effect.holds_of_within (h : ∀ e ∈ entries, e.Within ids s) {x : Rule}
    (hx : x ∈ entries.flatMap Effect.rules) : s.Holds x := by
  obtain ⟨e, he, hx⟩ := List.mem_flatMap.1 hx
  exact ((h e he).holds hx).1

namespace Ledger

theorem record_nil (l : Ledger) : l.record [] = l := by
  rw [record, List.append_nil]
  rfl

theorem record_append (l : Ledger) (entries entries' : List Effect) :
    l.record (entries ++ entries') = (l.record entries).record entries' := by
  unfold record
  rw [List.flatMap_append, Store.Snapshot.putRules_append, List.append_assoc]

/-- Storing rules is one entry. -/
theorem put_eq_record (l : Ledger) (rules : List Rule) :
    l.put rules = l.record [.stored rules] := by
  have hrules : [Effect.stored rules].flatMap Effect.rules = rules := List.append_nil rules
  rw [record, hrules]
  rfl

/-- Publishing an update is one entry. -/
theorem publish_eq_record (l : Ledger) (u : Update) : l.publish u = l.record [.published u] := rfl

end Ledger

end Entries

/-! ## Two ledgers -/

/-- Two ledgers were left by the same entries, and these are about some bundles only. -/
def Ledger.Traced (ids : List String) (l₀ l₀' l l' : Ledger) : Prop :=
  ∃ entries, l = l₀.record entries ∧ l' = l₀'.record entries ∧
    ∀ e ∈ entries, e.Within ids l₀.store ∧ e.Within ids l₀'.store

namespace Ledger.Traced

variable {ids : List String} {l₀ l₀' l l' : Ledger}

theorem refl (ids : List String) (l₀ l₀' : Ledger) : Traced ids l₀ l₀' l₀ l₀' :=
  ⟨[], (record_nil _).symm, (record_nil _).symm, fun e he => by cases he⟩

theorem record (h : Traced ids l₀ l₀' l l') {e : Effect} (he : e.Within ids l₀.store)
    (he' : e.Within ids l₀'.store) : Traced ids l₀ l₀' (l.record [e]) (l'.record [e]) := by
  obtain ⟨entries, rfl, rfl, hwithin⟩ := h
  refine ⟨entries ++ [e], (record_append _ _ _).symm, (record_append _ _ _).symm, ?_⟩
  intro e' hmem
  rcases List.mem_append.1 hmem with hmem | hmem
  · exact hwithin e' hmem
  · rw [List.mem_singleton.1 hmem]
    exact ⟨he, he'⟩

theorem bundle? (h : Traced ids l₀ l₀' l l') (id : String) :
    l.store.bundle? id = l₀.store.bundle? id := by
  obtain ⟨entries, rfl, -, -⟩ := h
  exact Store.Snapshot.bundle?_putRules _ _ id

section Stored

variable (hn : (l₀.store.rules.map Rule.id).Nodup) (hn' : (l₀'.store.rules.map Rule.id).Nodup)
include hn hn'

theorem agree (hagree : l₀.store.Agree ids l₀'.store) (h : Traced ids l₀ l₀' l l') :
    l.store.Agree ids l'.store := by
  obtain ⟨entries, rfl, rfl, hwithin⟩ := h
  have hwithin₁ := fun e he => (hwithin e he).1
  have hwithin₂ := fun e he => (hwithin e he).2
  exact hagree.putRules hn hn' (fun _ hx => Effect.holds_of_within hwithin₁ hx)
    fun _ hx => Effect.holds_of_within hwithin₂ hx

/-- Nothing is held later that was not held at first. -/
theorem holds_iff (h : Traced ids l₀ l₀' l l') (x : Rule) :
    (l.store.Holds x ↔ l₀.store.Holds x) ∧ (l'.store.Holds x ↔ l₀'.store.Holds x) := by
  obtain ⟨entries, rfl, rfl, hwithin⟩ := h
  have hwithin₁ := fun e he => (hwithin e he).1
  have hwithin₂ := fun e he => (hwithin e he).2
  exact ⟨Store.Snapshot.holds_putRules_iff hn fun _ hx => Effect.holds_of_within hwithin₁ hx,
    Store.Snapshot.holds_putRules_iff hn' fun _ hx => Effect.holds_of_within hwithin₂ hx⟩

end Stored

end Ledger.Traced

/-! ## Two evaluations -/

namespace Deployment

variable {ω : Type} {d : Deployment ω}

/-- A steady deployment lets a call through in both worlds, or refuses it in both. -/
theorem Steady.alike_call {α : Type} {R : Ledger → Ledger → Prop} (hd : d.Steady) {c : Call}
    {a : Action Ledger α} (ha : Action.Alike R a a) :
    Action.Alike (fun w w' => R w.ledger w'.ledger) (d.call c a) (d.call c a) := by
  refine Action.alike_bind (fun w w' h => ?_) fun _ w w' h => ha w.ledger w'.ledger h
  exact ⟨hd.permit c w.outside w'.outside, h⟩

section TwoRuns

variable {ids : List String} {l₀ l₀' : Ledger} (hd : d.Steady)
  (hn : (l₀.store.rules.map Rule.id).Nodup) (hn' : (l₀'.store.rules.map Rule.id).Nodup)
  (hagree : l₀.store.Agree ids l₀'.store)
include hd hn hn' hagree

/-- What is read of the bundles that two stores agree on is the same. -/
theorem alike_reads :
    d.evaluator.Alike (fun w w' => Ledger.Traced ids l₀ l₀' w.ledger w'.ledger) (· ∈ ids)
      d.evaluator := by
  refine ⟨fun id hid => ?_, fun id hid => ?_, fun objectIds => ?_, rfl,
    ⟨fun aggregator q w w' h => ⟨hd.select aggregator q w.outside w'.outside, h⟩, rfl⟩, rfl⟩
  · refine hd.alike_call fun l l' h => ⟨?_, h⟩
    exact congrArg Except.ok ((h.agree hn hn' hagree).bundle? id hid)
  · refine hd.alike_call fun l l' h => ⟨?_, h⟩
    exact congrArg Except.ok ((h.agree hn hn' hagree).rulesOf id hid)
  · refine hd.alike_call fun l l' h => ⟨?_, h⟩
    show Except.ok (l.store.objectsWith objectIds) = Except.ok (l'.store.objectsWith objectIds)
    unfold Store.Snapshot.objectsWith
    rw [(h.agree hn hn' hagree).objects]

/-- **The step**: a group of bundles that two stores agree on. -/
theorem alike_evaluateGroup {group : String × List Bundle} (hids : ∀ b ∈ group.2, b.id ∈ ids)
    (harn : ∃ b ∈ group.2, b.ruleGroupArn = group.1 ∧ l₀.store.bundle? b.id = some b) :
    Action.Alike (fun w w' => Ledger.Traced ids l₀ l₀' w.ledger w'.ledger)
      (d.evaluator.evaluateGroup group) (d.evaluator.evaluateGroup group) := by
  have hcompile := (alike_reads hd hn hn' hagree).compileGroup group.1 hids
  refine Action.alike_bind_of_perform hcompile fun g w w' v h hg => ?_
  -- the group was compiled from a store that holds what was held at first, and so does the other
  have heval : g.Evaluates d.denyRuleId w.store group := d.evaluates_of_compileGroup hg
  have heval' : g.Evaluates d.denyRuleId w'.store group :=
    heval.congr fun b hb => ((h.agree hn hn' hagree).rulesOf b.id (hids b hb)).symm
  have hstored : (Effect.stored g.updatedRules).Within ids l₀.store ∧
      (Effect.stored g.updatedRules).Within ids l₀'.store := by
    constructor
    · intro x hx
      obtain ⟨hheld, b, hb, hxb⟩ := heval.holds hx
      exact ⟨((h.holds_iff hn hn' x).1).1 hheld, hxb ▸ hids b hb⟩
    · intro x hx
      obtain ⟨hheld, b, hb, hxb⟩ := heval'.holds hx
      exact ⟨((h.holds_iff hn hn' x).2).1 hheld, hxb ▸ hids b hb⟩
  have hpublished : (Effect.published g.update).Within ids l₀.store ∧
      (Effect.published g.update).Within ids l₀'.store := by
    obtain ⟨b, hb, hbarn, hfound⟩ := harn
    have hupdate : b.ruleGroupArn = g.update.ruleGroupArn := hbarn.trans heval.ruleGroupArn.symm
    exact ⟨⟨b, hids b hb, hfound, hupdate⟩,
      ⟨b, hids b hb, (hagree.bundle? b.id (hids b hb)).symm.trans hfound, hupdate⟩⟩
  refine Action.alike_bind ?_ fun _ => Action.alike_pure g
  refine Action.alike_bind ?_ fun _ => ?_
  · refine hd.alike_call fun l l' hl => ⟨rfl, ?_⟩
    rw [Ledger.perform_putRules, Ledger.perform_putRules, Ledger.put_eq_record,
      Ledger.put_eq_record]
    exact hl.record hstored.1 hstored.2
  · refine hd.alike_call fun l l' hl => ⟨rfl, ?_⟩
    rw [Ledger.perform_publisher, Ledger.perform_publisher, Ledger.publish_eq_record,
      Ledger.publish_eq_record]
    exact hl.record hpublished.1 hpublished.2

/-- **Two evaluations of the same bundles**, in stores that agree on them, give the same result and
write the same entries. -/
theorem alike_evaluateBundles :
    Action.Alike (fun w w' => Ledger.Traced ids l₀ l₀' w.ledger w'.ledger)
      (d.evaluator.evaluateBundles ids) (d.evaluator.evaluateBundles ids) := by
  have hload : Action.Alike (fun w w' => Ledger.Traced ids l₀ l₀' w.ledger w'.ledger)
      (ids.mapM d.evaluator.load) (ids.mapM d.evaluator.load) :=
    Action.alike_mapM fun id hid => (alike_reads hd hn hn' hagree).load hid
  refine Action.alike_bind_of_perform hload fun bundles w w' v h hloads => ?_
  have hloads : w.store.Loads ids bundles := d.loads_of_perform hloads
  refine Action.alike_mapM fun group hgroup => ?_
  have hmem : ∀ b ∈ group.2, b ∈ bundles ∧ b.ruleGroupArn = group.1 := by
    intro b hb
    rw [Bundle.snd_of_mem_groupByArn hgroup] at hb
    exact Bundle.mem_ofArn.1 hb
  refine alike_evaluateGroup hd hn hn' hagree (fun b hb => ?_) ?_
  · rw [← hloads.map_id]
    exact List.mem_map_of_mem (hmem b hb).1
  · obtain ⟨b, hb⟩ := List.exists_mem_of_ne_nil _ (Bundle.ne_nil_of_mem_groupByArn hgroup)
    refine ⟨b, hb, (hmem b hb).2, ?_⟩
    rw [← h.bundle? b.id]
    exact hloads.bundle?_of_mem (hmem b hb).1

end TwoRuns

/-! ## The entries of an evaluation -/

/-- The entries that evaluating some bundles writes. -/
def entriesFor (d : Deployment ω) (w : World ω) (ids : List String) : List Effect :=
  ((d.evaluator.evaluateBundles ids).perform w).2.journal.drop w.journal.length

/-- What evaluating some bundles comes to. -/
def resultFor (d : Deployment ω) (w : World ω) (ids : List String) :
    Except Error (List GroupEvaluation) :=
  ((d.evaluator.evaluateBundles ids).perform w).1

section Entries

variable {ids : List String} {w w' : World ω} (hd : d.Steady)
  (hn : (w.store.rules.map Rule.id).Nodup)
include hd hn

/-- **Evaluating goes by the bundles that are evaluated**, their rules and the objects. -/
theorem trace_congr (hn' : (w'.store.rules.map Rule.id).Nodup)
    (hagree : w.store.Agree ids w'.store) :
    d.resultFor w ids = d.resultFor w' ids ∧ d.entriesFor w ids = d.entriesFor w' ids := by
  obtain ⟨hresult, entries, hl, hl', -⟩ := alike_evaluateBundles hd hn hn' hagree w w' (.refl _ _ _)
  refine ⟨hresult, ?_⟩
  unfold entriesFor World.journal
  rw [hl, hl', Ledger.record, Ledger.record, List.drop_left, List.drop_left]

/-- **The entries are all that evaluating does**, and they are about the bundles that are
evaluated. -/
theorem record_entriesFor (ids : List String) :
    ((d.evaluator.evaluateBundles ids).perform w).2.ledger =
        w.ledger.record (d.entriesFor w ids) ∧
      ∀ e ∈ d.entriesFor w ids, e.Within ids w.store := by
  obtain ⟨-, entries, hl, -, hwithin⟩ :=
    alike_evaluateBundles hd hn hn (.refl ids w.store) w w (.refl _ _ _)
  have hentries : d.entriesFor w ids = entries := by
    unfold entriesFor World.journal
    rw [hl, Ledger.record, List.drop_left]
  rw [hentries]
  exact ⟨hl, fun e he => (hwithin e he).1⟩

end Entries

end Deployment

end Firewall
