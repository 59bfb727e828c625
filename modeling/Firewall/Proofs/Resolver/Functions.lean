/-
# Functions and their interfaces

A function is looked up by the security groups and the subnets that its network configuration
lists.  Those of all functions with a tag are taken together, and the interfaces that are in one of
the security groups and one of the subnets are found by one query.  So an interface that is found
need not be one of a single function: it may be in a security group of one and in a subnet of
another.

* `Inventory.Item.Lists` : the ids that a network configuration lists;
* `Inventory.Catalogue.Listed` : those that the functions with a tag list;
* `Inventory.Catalogue.AttachedTogether`, `AttachedToOne` : the addresses of their interfaces;
* `Resolver.resolveBy_lambda` : the addresses that are found for functions with a tag;
* `Resolver.resolveBy_lambda_crossed` : one that is attached to no single function.
-/
import Firewall.Proofs.Inventory.Catalogue
import Firewall.Proofs.Resolver.Dispatch

namespace Firewall

namespace Inventory

/-! ## Functions and interfaces -/

namespace Item

/-- The network configuration of a function lists an id under a field. -/
def Lists (item : Item) (field id : String) : Prop :=
  ∃ network ids, item.configuration.doc.get? "vpcConfig" = some network ∧
    network.get? field = some (.array ids) ∧ Json.string id ∈ ids

/-- A function that carries a tag. -/
structure IsFunction (tag : Tag) (item : Item) : Prop where
  resourceType : item.resourceType = ResourceType.function
  tagged : tag ∈ item.tags

/-- A network interface of functions, with its private address, in a security group and a subnet. -/
structure IsInterface (address group subnet : String) (item : Item) : Prop where
  resourceType : item.resourceType = ResourceType.networkInterface
  interfaceType : item.setting? "interfaceType" = some "lambda"
  address : item.setting? "privateIpAddress" = some address
  group : group ∈ item.related
  subnet : item.setting? "subnetId" = some subnet

theorem mem_attachmentIds_iff {item : Item} {field id : String} :
    id ∈ Resolver.attachmentIds field item.row ↔ item.Lists field id := by
  have hrow : item.row.get? "configuration" = some item.configuration.doc := rfl
  rw [Resolver.attachmentIds, hrow, Option.bind_some, List.mem_filterMap]
  simp only [Json.text?_eq_some_iff]
  constructor
  · rintro ⟨_, hmem, rfl⟩
    cases h : ((item.configuration.doc.get? "vpcConfig").bind fun v => v.get? field).bind
        Json.items? with
    | none =>
      rw [h] at hmem
      cases hmem
    | some ids =>
      rw [h] at hmem
      obtain ⟨value, hvalue, hids⟩ := Option.bind_eq_some_iff.1 h
      obtain ⟨network, hnetwork, hfield⟩ := Option.bind_eq_some_iff.1 hvalue
      rw [Json.items?_eq_some_iff.1 hids] at hfield
      exact ⟨network, ids, hnetwork, hfield, hmem⟩
  · rintro ⟨network, ids, hnetwork, hfield, hid⟩
    refine ⟨.string id, ?_, rfl⟩
    rw [hnetwork, Option.bind_some, hfield]
    exact hid

theorem answers_functionQuery_iff {item : Item} {tag : Tag} :
    item.answers (Resolver.functionQuery tag) = true ↔ item.IsFunction tag := by
  rw [answers_iff_of_type rfl, Resolver.functionQuery, List.forall_mem_singleton,
    satisfies_tag_iff]
  exact ⟨fun ⟨htype, htag⟩ => ⟨htype, htag⟩, fun h => ⟨h.resourceType, h.tagged⟩⟩

/-- The items that are asked for on behalf of functions. -/
theorem answers_interfaceQuery_iff {item : Item} {groups subnets : List String} {address : String} :
    item.answers (Resolver.interfaceQuery groups [.subnetIn subnets, .interfaceType "lambda"]) =
        true ∧ configured? item.row "privateIpAddress" = some address ↔
      ∃ group ∈ groups, ∃ subnet ∈ subnets, item.IsInterface address group subnet := by
  rw [answers_iff_of_type rfl, Resolver.interfaceQuery, List.forall_mem_cons, List.forall_mem_cons,
    List.forall_mem_singleton, satisfies_related_iff, satisfies_subnetIn_iff,
    satisfies_interfaceType_iff]
  constructor
  · rintro ⟨⟨htype, ⟨group, hrelated, hgroup⟩, ⟨subnet, hsubnet, hlies⟩, hkind⟩, haddress⟩
    exact ⟨group, hgroup, subnet, hsubnet, htype, hkind, haddress, hrelated, hlies⟩
  · rintro ⟨group, hgroup, subnet, hsubnet, h⟩
    exact ⟨⟨h.resourceType, ⟨group, h.group, hgroup⟩, ⟨subnet, hsubnet, h.subnet⟩,
      h.interfaceType⟩, h.address⟩

end Item

namespace Catalogue

/-- Some function with the tag lists the id under the field. -/
def Listed (c : Catalogue) (aggregator : String) (tag : Tag) (field id : String) : Prop :=
  ∃ function, c.Holds aggregator function ∧ function.IsFunction tag ∧ function.Lists field id

/-- An address is that of an interface to which the functions with the tag are attached together:
one of them lists a security group of the interface, and one of them its subnet. -/
def AttachedTogether (c : Catalogue) (aggregator : String) (tag : Tag) (address : String) : Prop :=
  ∃ interface, c.Holds aggregator interface ∧
    ∃ group, c.Listed aggregator tag "securityGroupIds" group ∧
      ∃ subnet, c.Listed aggregator tag "subnetIds" subnet ∧
        interface.IsInterface address group subnet

/-- An address is that of an interface to which one function with the tag is attached by itself: the
function lists both a security group of the interface and its subnet. -/
def AttachedToOne (c : Catalogue) (aggregator : String) (tag : Tag) (address : String) : Prop :=
  ∃ function, c.Holds aggregator function ∧ function.IsFunction tag ∧
    ∃ interface, c.Holds aggregator interface ∧
      ∃ group, function.Lists "securityGroupIds" group ∧
        ∃ subnet, function.Lists "subnetIds" subnet ∧
          interface.IsInterface address group subnet

/-- What is taken together are the ids that the functions with the tag list. -/
theorem mem_firstSeen_attachmentIds_iff {c : Catalogue} {aggregator : String} {tag : Tag}
    {field id : String} :
    id ∈ firstSeen ((c.rows aggregator (Resolver.functionQuery tag)).flatMap
        (Resolver.attachmentIds field)) ↔ c.Listed aggregator tag field id := by
  rw [mem_firstSeen, List.mem_flatMap, exists_mem_rows_iff (by exact List.not_mem_nil)]
  simp only [Item.answers_functionQuery_iff, Item.mem_attachmentIds_iff]
  rfl

end Catalogue

end Inventory

/-! ## Resolving -/

namespace Resolver

open Inventory

/-- A chain that resolves a function object does so as the function resolver does, since no other
one takes it. -/
theorem perform_resolveLambda_of_resolveBy {σ : Type} {chain : List Resolver} {source : Source σ}
    {bundle : Option Bundle} {o : FlowObject} {raw : Json.Ordered} (ho : o.value = .lambda raw)
    {s s' : σ} {r : ResolvedObject}
    (h : (resolveBy chain source bundle o).perform s = (.ok r, s')) :
    (resolveLambda source bundle o raw).perform s = (.ok r, s') := by
  unfold resolveBy at h
  cases hchoice : chooseFor? chain o with
  | none =>
    rw [hchoice] at h
    cases h
  | some resolver =>
    have htakes := (accepts_iff resolver o).1 (accepts_of_chooseFor? hchoice)
    rw [ho] at htakes
    cases htakes
    rw [hchoice] at h
    simpa only [resolve, functionTag?, ho] using h

section Catalogue

variable {d aggregator : String} {bundle : Option Bundle} {c c' : Catalogue} {tag : Tag}

/-- The addresses of interfaces in one of some security groups and one of some subnets. -/
theorem mem_of_perform_interfaceAddresses
    (hd : (Catalogue.source d).aggregatorFor bundle = aggregator)
    {groups subnets addresses : List String}
    (h : (interfaceAddresses (Catalogue.source d) bundle groups
      [.subnetIn subnets, .interfaceType "lambda"]).perform c = (.ok addresses, c'))
    {address : String} :
    address ∈ addresses ↔ ∃ interface, c.Holds aggregator interface ∧
      ∃ group ∈ groups, ∃ subnet ∈ subnets, interface.IsInterface address group subnet := by
  obtain ⟨rows, c₁, hask, h⟩ := Action.perform_bind_ok_iff.1 h
  obtain ⟨-, rfl, rfl⟩ := Catalogue.perform_ask_ok_iff.1 hask
  cases h
  rw [hd, privateAddresses, List.mem_filterMap, Catalogue.exists_mem_rows_iff (by exact nofun)]
  simp only [Item.answers_interfaceQuery_iff]

/-- Functions with a tag are resolved to the addresses of the interfaces to which they are attached
together. -/
theorem mem_of_perform_resolveFunctions
    (hd : (Catalogue.source d).aggregatorFor bundle = aggregator) {o : FlowObject}
    {r : ResolvedObject}
    (h : (resolveFunctions (Catalogue.source d) bundle o tag).perform c = (.ok r, c'))
    {address : String} :
    address ∈ r.addresses ↔ c.AttachedTogether aggregator tag address := by
  simp only [Catalogue.AttachedTogether, ← Catalogue.mem_firstSeen_attachmentIds_iff]
  obtain ⟨rows, c₁, hask, h⟩ := Action.perform_bind_ok_iff.1 h
  obtain ⟨-, rfl, rfl⟩ := Catalogue.perform_ask_ok_iff.1 hask
  rw [hd] at h
  dsimp only at h
  split at h
  · next hempty =>
    -- without a security group or a subnet nothing is asked, and nothing could be found
    cases h
    refine iff_of_false (by exact List.not_mem_nil) ?_
    rintro ⟨interface, -, group, hgroup, subnet, hsubnet, -⟩
    rw [VpcAttachment.isEmpty, Bool.or_eq_true, List.isEmpty_iff, List.isEmpty_iff] at hempty
    rcases hempty with hnone | hnone
    · exact List.ne_nil_of_mem hgroup hnone
    · exact List.ne_nil_of_mem hsubnet hnone
  · obtain ⟨addresses, c₂, haddresses, h⟩ := Action.perform_bind_ok_iff.1 h
    cases h
    rw [ResolvedObject.addresses_ofAddresses]
    exact mem_of_perform_interfaceAddresses hd haddresses

/-- **What a function object is resolved to.**  Its addresses are those of the interfaces to which
the functions with its tag are attached together.  If these functions list the same subnets, then
each of the interfaces is one to which a function is attached by itself. -/
theorem resolveBy_lambda {chain : List Resolver}
    (hd : (Catalogue.source d).aggregatorFor bundle = aggregator) {o : FlowObject}
    {raw : Json.Ordered} (ho : o.value = .lambda raw) {r : ResolvedObject}
    (h : (resolveBy chain (Catalogue.source d) bundle o).perform c = (.ok r, c')) :
    (∀ address, address ∈ r.addresses ↔
      ∃ tag, Json.Reading.ofJson? Tag.reading raw.doc = some tag ∧
        c.AttachedTogether aggregator tag address) ∧
    ∀ tag, Json.Reading.ofJson? Tag.reading raw.doc = some tag →
      (∀ f f', c.Holds aggregator f → f.IsFunction tag → c.Holds aggregator f' →
        f'.IsFunction tag → ∀ subnet, f.Lists "subnetIds" subnet → f'.Lists "subnetIds" subnet) →
      ∀ address ∈ r.addresses, c.AttachedToOne aggregator tag address := by
  have h := perform_resolveLambda_of_resolveBy ho h
  unfold resolveLambda at h
  split at h
  · next tag htag =>
    simp only [htag, Option.some.injEq, exists_eq_left', forall_eq']
    have hiff : ∀ {address}, address ∈ r.addresses ↔ _ :=
      fun {address} => mem_of_perform_resolveFunctions hd h
    refine ⟨fun address => hiff, fun hsame address haddress => ?_⟩
    obtain ⟨interface, hholds, group, ⟨f, hf, hftag, hgroup⟩, subnet, ⟨f', hf', hftag', hsubnet⟩,
      hinterface⟩ := hiff.1 haddress
    exact ⟨f, hf, hftag, interface, hholds, group, hgroup, subnet,
      hsame f' f hf' hftag' hf hftag subnet hsubnet, hinterface⟩
  · next hnone =>
    cases h
    have hinvalid : ∀ tag, Json.Reading.ofJson? Tag.reading raw.doc ≠ some tag := by
      rw [hnone]
      exact fun tag => nofun
    refine ⟨fun address => iff_of_false (by exact List.not_mem_nil) ?_, fun tag htag => ?_⟩
    · rintro ⟨tag, htag, -⟩
      exact hinvalid tag htag
    · exact absurd htag (hinvalid tag)

end Catalogue

end Resolver

/-! ## Two functions and an interface of neither -/

namespace Sample

/-- An object for the functions of one application. -/
def billing : FlowObject :=
  ⟨"o3", .lambda ⟨.object [("key", .string "app"), ("value", .string "billing")], rfl⟩⟩

/-- A function of the application in a security group and a subnet. -/
def billingFunction (group subnet : String) : Inventory.Item :=
  (Inventory.Item.new Inventory.ResourceType.function "fn"
    ⟨.object [("vpcConfig", .object [("securityGroupIds", .array [.string group]),
      ("subnetIds", .array [.string subnet])])], rfl⟩).tagged "app" "billing"

/-- A network interface of functions in a security group and a subnet. -/
def functionInterface (group subnet : String) : Inventory.Item :=
  (Inventory.Item.new Inventory.ResourceType.networkInterface "eni-7"
    ⟨.object [("interfaceType", .string "lambda"), ("privateIpAddress", .string "10.0.9.9"),
      ("subnetId", .string subnet)], rfl⟩).relatedTo group

/-- One function, and its interface. -/
def straight : Inventory.Catalogue :=
  (Inventory.Catalogue.empty.insert "org" (some (billingFunction "sg-a" "subnet-a"))).insert "org"
    (some (functionInterface "sg-a" "subnet-a"))

/-- Two functions, and an interface in the security group of one and in the subnet of the other. -/
def crossed : Inventory.Catalogue :=
  ((Inventory.Catalogue.empty.insert "org" (some (billingFunction "sg-a" "subnet-a"))).insert "org"
    (some (billingFunction "sg-b" "subnet-b"))).insert "org"
      (some (functionInterface "sg-a" "subnet-b"))

end Sample

namespace Resolver

open Inventory

/-- With one function, every interface that is found is attached to it. -/
theorem resolveBy_lambda_straight :
    ∃ r c', (resolveBy standard (Catalogue.source "org") none Sample.billing).perform
        Sample.straight = (.ok r, c') ∧ r.addresses = ["10.0.9.9"] ∧
      Sample.straight.AttachedToOne "org" ⟨"app", "billing"⟩ "10.0.9.9" := by
  obtain ⟨r, c', h, haddresses⟩ : ∃ r c', (resolveBy standard (Catalogue.source "org") none
      Sample.billing).perform Sample.straight = (.ok r, c') ∧ r.addresses = ["10.0.9.9"] :=
    ⟨_, _, rfl, rfl⟩
  have hone : ∀ f, Sample.straight.Holds "org" f → f.IsFunction ⟨"app", "billing"⟩ →
      f = Sample.billingFunction "sg-a" "subnet-a" := by
    intro f hf hfunction
    have hmem : some f ∈ [some (Sample.billingFunction "sg-a" "subnet-a"),
      some (Sample.functionInterface "sg-a" "subnet-a")] := hf
    simp only [List.mem_cons, Option.some.injEq, List.not_mem_nil, or_false] at hmem
    rcases hmem with rfl | rfl
    · rfl
    · exact absurd hfunction.resourceType (by decide)
  refine ⟨r, c', h, haddresses, (resolveBy_lambda rfl rfl h).2 ⟨"app", "billing"⟩ rfl ?_ _ ?_⟩
  · intro f f' hf hfunction hf' hfunction' subnet hsubnet
    rwa [hone f' hf' hfunction', ← hone f hf hfunction]
  · rw [haddresses]
    exact .head _

/-- With two functions, an interface may be in a security group of one and in the subnet of the
other: it is found, though no function is attached to it. -/
theorem resolveBy_lambda_crossed :
    ∃ r c', (resolveBy standard (Catalogue.source "org") none Sample.billing).perform
        Sample.crossed = (.ok r, c') ∧ r.addresses = ["10.0.9.9"] ∧
      ¬ Sample.crossed.AttachedToOne "org" ⟨"app", "billing"⟩ "10.0.9.9" := by
  refine ⟨_, _, rfl, rfl, ?_⟩
  rintro ⟨f, hf, hfunction, interface, hheld, group, hgroup, subnet, hsubnet, hinterface⟩
  have hmem : ∀ {item}, Sample.crossed.Holds "org" item →
      some item ∈ [some (Sample.billingFunction "sg-a" "subnet-a"),
        some (Sample.billingFunction "sg-b" "subnet-b"),
        some (Sample.functionInterface "sg-a" "subnet-b")] := id
  have hf := hmem hf
  have hheld := hmem hheld
  simp only [List.mem_cons, Option.some.injEq, List.not_mem_nil, or_false] at hf hheld
  rcases hheld with rfl | rfl | rfl
  · exact absurd hinterface.resourceType (by decide)
  · exact absurd hinterface.resourceType (by decide)
  have hrelated : group = "sg-a" := List.mem_singleton.1 hinterface.group
  have hlies : subnet = "subnet-b" := (Option.some.inj hinterface.subnet).symm
  rw [← Item.mem_attachmentIds_iff, hrelated] at hgroup
  rw [← Item.mem_attachmentIds_iff, hlies] at hsubnet
  rcases hf with rfl | rfl | rfl
  · exact absurd hsubnet (by decide)
  · exact absurd hgroup (by decide)
  · exact absurd hfunction.resourceType (by decide)

end Resolver

end Firewall
