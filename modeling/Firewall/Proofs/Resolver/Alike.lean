/-
# Resolving by two inventories

Resolving an object asks an inventory on behalf of one bundle, and reads nothing but the rows that
have a configuration.  So two inventories that answer alike so far resolve every object alike, each
further query of a resolver included.

* `Inventory.Source.Alike` : two inventories answer alike;
* `Inventory.Source.AlikeFor` : they do so for one bundle and the rows that have a configuration;
* `Inventory.Source.SteadyIn` : an inventory always answers alike;
* `Resolver.alike_resolveBy` : two such inventories resolve every object alike;
* `Sample.machine`, `Sample.machineInterface` : a machine to try statements on.
-/
import Firewall.Inventory.Item
import Firewall.Proofs.Action
import Firewall.Proofs.Resolver.Rows

namespace Firewall

variable {σ τ : Type} {R : σ → τ → Prop}

/-! ## Inventories that answer alike -/

namespace Inventory

namespace Source

/-- Two inventories answer alike. -/
structure Alike (R : σ → τ → Prop) (source : Source σ) (source' : Source τ) : Prop where
  select : ∀ aggregator q,
    Action.Alike R (source.select aggregator q) (source'.select aggregator q)
  defaultAggregator : source.defaultAggregator = source'.defaultAggregator

/-- Two inventories that are asked on behalf of a bundle answer alike, as far as rows have a
configuration. -/
def AlikeFor (R : σ → τ → Prop) (bundle : Option Bundle) (source : Source σ)
    (source' : Source τ) : Prop :=
  ∀ q, Action.AlikeUpTo solid R (source.ask bundle q) (source'.ask bundle q)

/-- An inventory that is asked on behalf of a bundle answers alike in all worlds of a kind, and leaves
a world of that kind. -/
def SteadyIn (P : σ → Prop) (bundle : Option Bundle) (source : Source σ) : Prop :=
  source.AlikeFor (fun s t => P s ∧ P t) bundle source

variable {source : Source σ} {source' : Source τ}

/-- The aggregator of a bundle depends on the default one only. -/
theorem aggregatorFor_eq (h : source.defaultAggregator = source'.defaultAggregator)
    (bundle : Option Bundle) : source.aggregatorFor bundle = source'.aggregatorFor bundle := by
  unfold aggregatorFor
  rw [h]

/-- An inventory answers as itself does. -/
theorem alike_refl (source : Source σ) : source.Alike Eq source where
  select := by
    rintro aggregator q s _ rfl
    exact ⟨rfl, rfl⟩
  defaultAggregator := rfl

theorem Alike.alikeFor (h : source.Alike R source') (bundle : Option Bundle) :
    source.AlikeFor R bundle source' := by
  intro q
  unfold ask
  rw [aggregatorFor_eq h.defaultAggregator bundle]
  exact (h.select _ q).upTo solid

end Source

end Inventory

/-! ## Resolvers -/

namespace Resolver

variable {source : Inventory.Source σ} {source' : Inventory.Source τ} {bundle : Option Bundle}

theorem alike_interfaceAddresses (h : source.AlikeFor R bundle source') (ids : List String)
    (further : List Inventory.Predicate) :
    Action.Alike R (interfaceAddresses source bundle ids further)
      (interfaceAddresses source' bundle ids further) := by
  refine (h _).bind_alike fun rows rows' hrows => ?_
  rw [seesSolid_privateAddresses.eq hrows]
  exact Action.alike_pure _

theorem alike_resolveNetwork (h : source.AlikeFor R bundle source') (o : FlowObject) (arn : Arn)
    (resourceType : String) :
    Action.Alike R (resolveNetwork source bundle o arn resourceType)
      (resolveNetwork source' bundle o arn resourceType) := by
  refine (h _).bind_alike fun rows rows' hrows => ?_
  rw [seesSolid_cidrBlocks.eq hrows]
  exact Action.alike_pure _

theorem alike_resolveAsg (h : source.AlikeFor R bundle source') (o : FlowObject) (arn : Arn) :
    Action.Alike R (resolveAsg source bundle o arn) (resolveAsg source' bundle o arn) := by
  refine (h _).bind_alike fun rows rows' hrows => ?_
  rw [seesSolid_machinesInService.eq hrows]
  dsimp only
  split
  · exact Action.alike_pure _
  · refine Action.alike_bind (Action.alike_mapM fun id _ => ?_) fun _ => Action.alike_pure _
    exact alike_interfaceAddresses h [id] []

theorem alike_resolveTagged (h : source.AlikeFor R bundle source') (o : FlowObject)
    (tags : List Tag) :
    Action.Alike R (resolveTagged source bundle o tags) (resolveTagged source' bundle o tags) := by
  unfold resolveTagged
  split
  · exact Action.alike_pure _
  · refine (h _).bind_alike fun rows rows' hrows => ?_
    rw [seesSolid_addressesOrBlocks.eq hrows]
    exact Action.alike_pure _

theorem alike_resolveLambda (h : source.AlikeFor R bundle source') (o : FlowObject)
    (raw : Json.Ordered) :
    Action.Alike R (resolveLambda source bundle o raw) (resolveLambda source' bundle o raw) := by
  unfold resolveLambda
  split
  · refine (h _).bind_alike fun rows rows' hrows => ?_
    rw [seesSolid_ofRows.eq hrows]
    dsimp only
    split
    · exact Action.alike_pure _
    · exact Action.alike_bind (alike_interfaceAddresses h _ _) fun _ => Action.alike_pure _
  · exact Action.alike_pure _

/-- Resolving an object is alike wherever the inventories answer alike. -/
theorem alike_resolve (h : source.AlikeFor R bundle source') (resolver : Resolver)
    (o : FlowObject) :
    Action.Alike R (resolver.resolve source bundle o) (resolver.resolve source' bundle o) := by
  -- a resolver that does not take the object fails at once
  cases resolver <;> rw [resolve, resolve] <;> split <;> try exact Action.alike_throw _
  · exact Action.alike_pure _
  · exact Action.alike_bind (alike_interfaceAddresses h _ _) fun _ => Action.alike_pure _
  · exact alike_resolveNetwork h _ _ _
  · exact alike_resolveAsg h _ _
  · exact alike_resolveTagged h _ _
  · exact alike_resolveLambda h _ _

/-- **Resolving an object is alike** by every chain of resolvers. -/
theorem alike_resolveBy (h : source.AlikeFor R bundle source') (chain : List Resolver)
    (o : FlowObject) :
    Action.Alike R (resolveBy chain source bundle o) (resolveBy chain source' bundle o) := by
  unfold resolveBy
  split
  · exact alike_resolve h _ o
  · exact Action.alike_throw _

/-- With an inventory that always answers alike, an object is always resolved to the same. -/
theorem steady_resolveBy {P : σ → Prop} (h : source.SteadyIn P bundle) (chain : List Resolver)
    (o : FlowObject) : Action.Steady P (resolveBy chain source bundle o) :=
  alike_resolveBy h chain o

end Resolver

/-! ## A small inventory -/

namespace Sample

/-- A virtual machine. -/
def machine : FlowObject := ⟨"o1", .arn "arn:aws:ec2:eu-west-1:123456789012:instance/i-1"⟩

/-- A network interface of the machine. -/
def machineInterface (address : String) : Inventory.Item :=
  (Inventory.Item.new Inventory.ResourceType.networkInterface "eni-1"
    ⟨.object [("privateIpAddress", .string address)], rfl⟩).relatedTo "i-1"

end Sample

end Firewall
