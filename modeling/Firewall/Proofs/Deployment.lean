/-
# Deployments

The store, the publisher and the inventory of an evaluator, put into one world.  The store is held
in memory.  Everything else is left open: what lies outside is a world of any type, which answers
the queries to the inventory, may refuse any call to the store or the publisher, and may change its
mind from one call to the next.  A refused call does nothing.  So a statement about all deployments
is a statement about every inventory, every publisher and every pattern of failures.

The world keeps a journal of what was written and published, in order.  Nobody reads it; it lets
statements speak of what happened, and of the order in which it did.

* `Ledger` : a store in memory with its journal;
* `World` : a ledger and what lies outside;
* `Deployment` : what lets calls through and answers queries;
* `Deployment.repository`, `publisher`, `evaluator` : the parts of an evaluator in a deployment;
* `Deployment.inMemory` : deployments whose store never refuses a call;
* `Sample.world`, `Sample.deployment` : a small world to try statements on.
-/
import Firewall.Evaluation.Evaluator
import Firewall.Proofs.Action
import Firewall.Proofs.Timestamp

namespace Firewall

open Evaluation

/-! ## Ledgers -/

/-- An entry of a journal. -/
inductive Effect
  /-- Rules were stored in one call. -/
  | stored (rules : List Rule)
  /-- A rule group was published. -/
  | published (update : Update)
  /-- A bundle was stamped. -/
  | stamped (id : String) (time : Timestamp)
  deriving DecidableEq

/-- The update that an entry is about. -/
def Effect.update? : Effect → Option Update
  | published update => some update
  | _ => none

/-- The bundle that an entry stamps, and the time. -/
def Effect.stamp? : Effect → Option (String × Timestamp)
  | stamped id time => some (id, time)
  | _ => none

/-- A store in memory, with a journal of what was done. -/
structure Ledger where
  store : Store.Snapshot
  journal : List Effect

namespace Ledger

/-- An action on the store of a ledger. -/
def onStore {α : Type} (a : Action Store.Snapshot α) : Action Ledger α :=
  a.within Ledger.store fun store l => { l with store }

/-- An entry at the end of the journal. -/
def note (e : Effect) : Action Ledger Unit :=
  Action.ofFun fun l => (.ok (), { l with journal := l.journal ++ [e] })

/-- The store of a ledger as a repository, with its writes noted. -/
def repository : Store.Repository Ledger where
  pageBound l := Store.Repository.inMemory.pageBound l.store
  scan token limit := onStore (Store.Repository.inMemory.scan token limit)
  bundle? id := onStore (Store.Repository.inMemory.bundle? id)
  rulesOf bundleId := onStore (Store.Repository.inMemory.rulesOf bundleId)
  objectsWith ids := onStore (Store.Repository.inMemory.objectsWith ids)
  putRules rules := do
    onStore (Store.Repository.inMemory.putRules rules)
    note (.stored rules)
  stamp id time := do
    onStore (Store.Repository.inMemory.stamp id time)
    note (.stamped id time)

/-- A ledger as a publisher. -/
def publisher : Publisher Ledger := fun u => note (.published u)

/-- The stamps of a ledger, in order. -/
def stamps (l : Ledger) : List (String × Timestamp) := l.journal.filterMap Effect.stamp?

/-- The updates that a ledger tells of, in order. -/
def published (l : Ledger) : List Update := l.journal.filterMap Effect.update?

/-- The ledger after rules were stored. -/
def put (l : Ledger) (rules : List Rule) : Ledger :=
  ⟨l.store.putRules rules, l.journal ++ [.stored rules]⟩

/-- The ledger after an update was published. -/
def publish (l : Ledger) (u : Update) : Ledger := ⟨l.store, l.journal ++ [.published u]⟩

/-- The ledger after a rule group was stored and published. -/
def apply (l : Ledger) (g : GroupEvaluation) : Ledger := (l.put g.updatedRules).publish g.update

end Ledger

/-! ## Worlds -/

/-- A ledger, and what lies outside. -/
structure World (ω : Type) where
  ledger : Ledger
  outside : ω

namespace World

variable {ω : Type}

/-- The store of a world. -/
def store (w : World ω) : Store.Snapshot := w.ledger.store

/-- The journal of a world. -/
def journal (w : World ω) : List Effect := w.ledger.journal

/-- The updates that were published, in order. -/
def published (w : World ω) : List Update := w.journal.filterMap Effect.update?

/-- The bundles that were stamped, in order, each with its time. -/
def stamps (w : World ω) : List (String × Timestamp) := w.ledger.stamps

/-- An action on what lies outside. -/
def onOutside {α : Type} (a : Action ω α) : Action (World ω) α :=
  a.within World.outside fun outside w => { w with outside }

/-- An action on the ledger. -/
def onLedger {α : Type} (a : Action Ledger α) : Action (World ω) α :=
  a.within World.ledger fun ledger w => { w with ledger }

end World

/-! ## Deployments -/

/-- A call to a store or to a publisher. -/
inductive Call
  | scan (token : Option String) (limit : Nat)
  | bundle (id : String)
  | rules (bundleId : String)
  | objects (ids : List String)
  | put (rules : List Rule)
  | stamp (id : String) (time : Timestamp)
  | publish (update : Update)

/-- What an evaluator is set up with, over a world outside of type `ω`. -/
structure Deployment (ω : Type) where
  /-- Lets a call through, or refuses it with an error. -/
  permit : Call → Action ω Unit
  source : Inventory.Source ω
  chain : List Resolver
  denyRuleId : String

namespace Deployment

variable {ω : Type}

/-- An action on the ledger that is done only if its call is let through. -/
def call {α : Type} (d : Deployment ω) (c : Call) (a : Action Ledger α) : Action (World ω) α := do
  World.onOutside (d.permit c)
  World.onLedger a

/-- The repository of a deployment. -/
def repository (d : Deployment ω) : Store.Repository (World ω) where
  pageBound w := Ledger.repository.pageBound w.ledger
  scan token limit := d.call (.scan token limit) (Ledger.repository.scan token limit)
  bundle? id := d.call (.bundle id) (Ledger.repository.bundle? id)
  rulesOf bundleId := d.call (.rules bundleId) (Ledger.repository.rulesOf bundleId)
  objectsWith ids := d.call (.objects ids) (Ledger.repository.objectsWith ids)
  putRules rules := d.call (.put rules) (Ledger.repository.putRules rules)
  stamp id time := d.call (.stamp id time) (Ledger.repository.stamp id time)

/-- The publisher of a deployment. -/
def publisher (d : Deployment ω) : Publisher (World ω) := fun u =>
  d.call (.publish u) (Ledger.publisher u)

/-- The compiler of a deployment. -/
def compiler (d : Deployment ω) : Compiler (World ω) where
  chain := d.chain
  source :=
    { select := fun aggregator q => World.onOutside (d.source.select aggregator q)
      defaultAggregator := d.source.defaultAggregator }
  denyRuleId := d.denyRuleId

/-- The evaluator of a deployment. -/
def evaluator (d : Deployment ω) : Evaluator (World ω) :=
  ⟨d.repository, d.compiler, d.publisher⟩

/-- A deployment whose store lets every call through; the publisher accepts updates or refuses
them. -/
def inMemory (accept : Update → Action ω Unit) (source : Inventory.Source ω)
    (chain : List Resolver) (denyRuleId : String) : Deployment ω where
  permit
    | .publish u => accept u
    | _ => pure ()
  source
  chain
  denyRuleId

end Deployment

/-! ## A small deployment -/

namespace Sample

/-- Two bundles of two rule groups.  The first has a rule between literal addresses, the second has
none. -/
def store : Store.Snapshot where
  bundles := [.new "b1" "g1" "", .new "b2" "g2" ""]
  rules :=
    [⟨"r1", "b1", "pass", "tcp", "o1", .any, "o2", .single "443", .pending, [], none, 0, none⟩]
  objects := [⟨"o1", .address "10.0.0.1"⟩, ⟨"o2", .address "10.0.1.0/24"⟩]

/-- A world with these bundles, in which nothing has happened yet. -/
def world : World Unit := ⟨⟨store, []⟩, ()⟩

/-- A deployment with an empty inventory, whose publisher refuses some rule groups. -/
def deployment (refused : List String) : Deployment Unit :=
  .inMemory
    (fun u => if u.ruleGroupArn ∈ refused then throw (.publish "refused") else pure ())
    ⟨fun _ _ => pure [], ""⟩ Resolver.standard "default-deny-all"

end Sample

/-! ## What calls do -/

namespace Ledger

variable {α : Type}

@[simp] theorem perform_onStore (a : Action Store.Snapshot α) (l : Ledger) :
    (onStore a).perform l =
      ((a.perform l.store).1, { l with store := (a.perform l.store).2 }) := rfl

@[simp] theorem perform_note (e : Effect) (l : Ledger) :
    (note e).perform l = (.ok (), { l with journal := l.journal ++ [e] }) := rfl

@[simp] theorem perform_putRules (rules : List Rule) (l : Ledger) :
    (repository.putRules rules).perform l = (.ok (), l.put rules) := rfl

@[simp] theorem perform_publisher (u : Update) (l : Ledger) :
    (publisher u).perform l = (.ok (), l.publish u) := rfl

/-- Storing rules publishes nothing. -/
theorem published_put (l : Ledger) (rules : List Rule) :
    (l.put rules).published = l.published := by
  unfold published put
  rw [List.filterMap_append]
  exact List.append_nil _

theorem published_publish (l : Ledger) (u : Update) :
    (l.publish u).published = l.published ++ [u] := by
  unfold published publish
  rw [List.filterMap_append]
  rfl

end Ledger

namespace World

variable {ω α : Type}

@[simp] theorem perform_onOutside (a : Action ω α) (w : World ω) :
    (onOutside a).perform w =
      ((a.perform w.outside).1, { w with outside := (a.perform w.outside).2 }) := rfl

@[simp] theorem perform_onLedger (a : Action Ledger α) (w : World ω) :
    (onLedger a).perform w =
      ((a.perform w.ledger).1, { w with ledger := (a.perform w.ledger).2 }) := rfl

/-- What lies outside has no hold on the ledger. -/
theorem keeps_onOutside (a : Action ω α) : Action.Keeps World.ledger (onOutside a) := fun _ => rfl

/-- The ledgers of two worlds are related, and outside there is no difference. -/
def Along (R : Ledger → Ledger → Prop) (w w' : World ω) : Prop :=
  R w.ledger w'.ledger ∧ w.outside = w'.outside

/-- What lies outside gives the same answers, whatever the ledgers are. -/
theorem alike_onOutside_along (R : Ledger → Ledger → Prop) (a : Action ω α) :
    Action.Alike (Along R) (onOutside a) (onOutside a) := by
  rintro w w' ⟨hledger, houtside⟩
  rw [perform_onOutside, perform_onOutside, houtside]
  exact ⟨rfl, hledger, rfl⟩

end World

namespace Deployment

variable {ω α : Type} (d : Deployment ω)

/-- **A call is refused and does nothing to the ledger, or it does what it does to the ledger
alone.** -/
theorem perform_call_cases (c : Call) (a : Action Ledger α) (w : World ω) :
    (∃ e o, (d.call c a).perform w = (.error e, ⟨w.ledger, o⟩)) ∨
      ∃ o, (d.call c a).perform w = ((a.perform w.ledger).1, ⟨(a.perform w.ledger).2, o⟩) := by
  rcases h : (d.permit c).perform w.outside with ⟨e | ⟨⟩, o⟩
  · refine Or.inl ⟨e, o, Action.perform_bind_of_error ?_ _⟩
    rw [World.perform_onOutside, h]
  · refine Or.inr ⟨o, ?_⟩
    rw [call, Action.perform_bind_of_ok (x := ()) (t := ⟨w.ledger, o⟩)]
    · rfl
    · rw [World.perform_onOutside, h]

/-- A call that succeeds did what it does to the ledger alone. -/
theorem perform_call_ok {c : Call} {a : Action Ledger α} {w w' : World ω} {x : α}
    (h : (d.call c a).perform w = (.ok x, w')) : a.perform w.ledger = (.ok x, w'.ledger) := by
  rcases d.perform_call_cases c a w with ⟨e, o, hc⟩ | ⟨o, hc⟩
  · rw [hc] at h
    cases h
  · rw [hc, Prod.mk.injEq] at h
    obtain ⟨h1, rfl⟩ := h
    rw [← h1]

/-- A view of the ledger that an action keeps is kept by its call. -/
theorem keeps_call {β : Type} {view : Ledger → β} {c : Call} {a : Action Ledger α}
    (h : Action.Keeps view a) : Action.Keeps (fun w : World ω => view w.ledger) (d.call c a) := by
  intro w
  rcases d.perform_call_cases c a w with ⟨e, o, hc⟩ | ⟨o, hc⟩
  · rw [hc]
  · rw [hc]
    exact h w.ledger

/-- Calls that do the same to related ledgers are both let through, or both refused. -/
theorem alike_call_along {R : Ledger → Ledger → Prop} {a a' : Action Ledger α}
    (h : Action.Alike R a a') (c : Call) :
    Action.Alike (World.Along R) (d.call c a) (d.call c a') := by
  refine Action.alike_bind (World.alike_onOutside_along R _) fun _ => ?_
  rintro w w' ⟨hledger, houtside⟩
  obtain ⟨hresult, hledger⟩ := h w.ledger w'.ledger hledger
  exact ⟨hresult, hledger, houtside⟩

/-- Rules are refused and nothing is stored, or they are stored. -/
theorem perform_putRules_cases (rules : List Rule) (w : World ω) :
    (∃ e o, (d.repository.putRules rules).perform w = (.error e, ⟨w.ledger, o⟩)) ∨
      ∃ o, (d.repository.putRules rules).perform w = (.ok (), ⟨w.ledger.put rules, o⟩) :=
  d.perform_call_cases _ _ w

/-- An update is refused and nothing is published, or it is published. -/
theorem perform_publisher_cases (u : Update) (w : World ω) :
    (∃ e o, (d.publisher u).perform w = (.error e, ⟨w.ledger, o⟩)) ∨
      ∃ o, (d.publisher u).perform w = (.ok (), ⟨w.ledger.publish u, o⟩) :=
  d.perform_call_cases _ _ w

/-- Every call but those to the publisher is let through by a deployment in memory. -/
theorem perform_call_inMemory {accept : Update → Action ω Unit} {source : Inventory.Source ω}
    {chain : List Resolver} {denyRuleId : String} {c : Call} (hc : ∀ u, c ≠ .publish u)
    (a : Action Ledger α) (w : World ω) :
    ((inMemory accept source chain denyRuleId).call c a).perform w =
      ((a.perform w.ledger).1, ⟨(a.perform w.ledger).2, w.outside⟩) := by
  cases c with
  | publish u => exact absurd rfl (hc u)
  | _ => rfl

end Deployment

end Firewall
