/-
# Looking up addresses

What each resolver asks the inventory, and what it takes from the rows.  Rows that are null, or lack
what is looked for, are passed over.

* `Resolver.interfaceQuery`, `tagQuery`, … : the queries;
* `Resolver.privateAddresses`, `cidrBlocks`, `machinesInService`, `VpcAttachment.ofRows` : what is taken
  from rows;
* `Resolver.resolve` : resolving an object by one resolver.
-/
import Firewall.FirstSeen
import Firewall.Inventory.Source
import Firewall.Resolver.Basic

namespace Firewall

namespace Resolver

open Inventory

/-! ## Queries -/

/-- The network interfaces related to one of some resources, under further conditions. -/
def interfaceQuery (ids : List String) (further : List Predicate) : Query where
  fields := ["resourceId", "configuration.privateIpAddress"]
  resourceTypes := [ResourceType.networkInterface]
  predicates := .related ids :: further

/-- The network or subnet with an id. -/
def blockQuery (resourceType id : String) : Query where
  fields := ["resourceId", "configuration.cidrBlock"]
  resourceTypes := [resourceType]
  predicates := [.resourceId id]

/-- The autoscaling group with a name. -/
def groupQuery (name : String) : Query where
  fields := ["resourceName", "configuration.instances"]
  resourceTypes := [ResourceType.autoScalingGroup]
  predicates := [.resourceName name]

/-- The machines, subnets and networks that carry all of some tags. -/
def tagQuery (tags : List Tag) : Query where
  fields := ["resourceId", "configuration.privateIpAddress", "configuration.cidrBlock"]
  resourceTypes := [ResourceType.machine, ResourceType.subnet, ResourceType.vpc]
  predicates := tags.map fun tag => .tag tag.key tag.value

/-- The functions that carry a tag. -/
def functionQuery (tag : Tag) : Query where
  fields := ["resourceId", "configuration.vpcConfig"]
  resourceTypes := [ResourceType.function]
  predicates := [.tag tag.key tag.value]

/-! ## Rows -/

/-- The private addresses of network interfaces. -/
def privateAddresses (rows : List Json) : List String :=
  rows.filterMap fun row => configured? row "privateIpAddress"

/-- The address blocks of networks and subnets. -/
def cidrBlocks (rows : List Json) : List String :=
  rows.filterMap fun row => configured? row "cidrBlock"

/-- The private address of each row, or else its address block. -/
def addressesOrBlocks (rows : List Json) : List String :=
  rows.filterMap fun row =>
    (configured? row "privateIpAddress").orElse fun _ => configured? row "cidrBlock"

/-- The entries of an array in the configuration of a row. -/
def configuredItems (row : Json) (field : String) : List Json :=
  (((row.get? "configuration").bind fun c => c.get? field).bind Json.items?).getD []

/-- The id of a machine that is in service. -/
def inService? (machine : Json) : Option String :=
  if (machine.get? "lifecycleState").bind Json.text? = some "InService" then
    (machine.get? "instanceId").bind Json.text?
  else none

/-- The ids of the machines in service that autoscaling groups list. -/
def machinesInService (rows : List Json) : List String :=
  (rows.flatMap fun row => configuredItems row "instances").filterMap inService?

/-- The texts in an array that the network configuration of a function holds. -/
def attachmentIds (field : String) (row : Json) : List String :=
  (((((row.get? "configuration").bind fun c => c.get? "vpcConfig").bind
    fun v => v.get? field).bind Json.items?).getD []).filterMap Json.text?

/-- The security groups and subnets that functions are attached to. -/
structure VpcAttachment where
  securityGroups : List String
  subnets : List String
  deriving DecidableEq, Repr

/-- The attachment of all functions together, without repetitions, in order of first
occurrence. -/
def VpcAttachment.ofRows (rows : List Json) : VpcAttachment where
  securityGroups := firstSeen (rows.flatMap (attachmentIds "securityGroupIds"))
  subnets := firstSeen (rows.flatMap (attachmentIds "subnetIds"))

/-- Whether there is no security group or no subnet. -/
def VpcAttachment.isEmpty (a : VpcAttachment) : Bool :=
  a.securityGroups.isEmpty || a.subnets.isEmpty

/-! ## Resolving -/

variable {σ : Type}

/-- The private addresses of the interfaces related to some resources. -/
def interfaceAddresses (source : Source σ) (bundle : Option Bundle) (ids : List String)
    (further : List Predicate) : Action σ (List String) := do
  let rows ← source.ask bundle (interfaceQuery ids further)
  pure (privateAddresses rows)

/-- A machine or security group, by its interfaces. -/
def resolveEc2 (source : Source σ) (bundle : Option Bundle) (o : FlowObject) (arn : Arn) :
    Action σ ResolvedObject := do
  let addresses ← interfaceAddresses source bundle [arn.resourceId] []
  pure (.ofAddresses o addresses ("No network interfaces found for " ++ arn.text))

/-- A network or subnet, by its address blocks. -/
def resolveNetwork (source : Source σ) (bundle : Option Bundle) (o : FlowObject) (arn : Arn)
    (resourceType : String) : Action σ ResolvedObject := do
  let rows ← source.ask bundle (blockQuery resourceType arn.resourceId)
  pure (.ofAddresses o (cidrBlocks rows) ("No CIDR block found for " ++ arn.text))

/-- An autoscaling group, by the interfaces of its machines in service, machine by machine. -/
def resolveAsg (source : Source σ) (bundle : Option Bundle) (o : FlowObject) (arn : Arn) :
    Action σ ResolvedObject := do
  let rows ← source.ask bundle (groupQuery arn.resourceId)
  let machines := machinesInService rows
  if machines = [] then
    pure (.missed o ("No in-service instances found for " ++ arn.text))
  else
    let addresses ← machines.mapM fun id => interfaceAddresses source bundle [id] []
    pure (.ofAddresses o addresses.flatten
      ("No network interfaces found for instances of " ++ arn.text))

/-- A conjunction of tags, by what carries all of them.  No tags would select everything, so they
select nothing. -/
def resolveTagged (source : Source σ) (bundle : Option Bundle) (o : FlowObject)
    (tags : List Tag) : Action σ ResolvedObject :=
  if tags = [] then pure (.missed o "No tags declared")
  else do
    let rows ← source.ask bundle (tagQuery tags)
    pure (.ofAddresses o (addressesOrBlocks rows) ("No resources found for tags of " ++ o.id))

/-- Functions with a tag, by the function interfaces in their security groups and subnets. -/
def resolveFunctions (source : Source σ) (bundle : Option Bundle) (o : FlowObject) (tag : Tag) :
    Action σ ResolvedObject := do
  let rows ← source.ask bundle (functionQuery tag)
  let attachment := VpcAttachment.ofRows rows
  if attachment.isEmpty then
    pure (.missed o
      ("No VPC attached function found for tag " ++ tag.key ++ "=" ++ tag.value))
  else
    let addresses ← interfaceAddresses source bundle attachment.securityGroups
      [.subnetIn attachment.subnets, .interfaceType "lambda"]
    pure (.ofAddresses o addresses
      ("No network interfaces found for functions tagged " ++ tag.key ++ "=" ++ tag.value))

/-- A function tag as it is stored; one without the shape of a tag is a miss. -/
def resolveLambda (source : Source σ) (bundle : Option Bundle) (o : FlowObject)
    (raw : Json.Ordered) : Action σ ResolvedObject :=
  match Json.Reading.ofJson? Tag.reading raw.doc with
  | some tag => resolveFunctions source bundle o tag
  | none => pure (.missed o "Invalid tag value")

/-- An object by a resolver; an object that the resolver does not take is an error. -/
def resolve (resolver : Resolver) (source : Source σ) (bundle : Option Bundle)
    (o : FlowObject) : Action σ ResolvedObject :=
  match resolver with
  | address =>
    match literal? o with
    | some value => pure (.found o [value])
    | none => throw (unsupported o)
  | ec2 =>
    match ec2Target? o with
    | some arn => resolveEc2 source bundle o arn
    | none => throw (unsupported o)
  | network =>
    match networkTarget? o with
    | some (arn, resourceType) => resolveNetwork source bundle o arn resourceType
    | none => throw (unsupported o)
  | asg =>
    match asgTarget? o with
    | some arn => resolveAsg source bundle o arn
    | none => throw (unsupported o)
  | tagged =>
    match tags? o with
    | some tags => resolveTagged source bundle o tags
    | none => throw (unsupported o)
  | lambda =>
    match functionTag? o with
    | some raw => resolveLambda source bundle o raw
    | none => throw (unsupported o)

/-! ## Chains -/

/-- The first resolver of a chain that takes an object. -/
def chooseFor? (chain : List Resolver) (o : FlowObject) : Option Resolver :=
  chain.find? fun resolver => resolver.accepts o

/-- An object by the first resolver of a chain that takes it. -/
def resolveBy (chain : List Resolver) (source : Source σ) (bundle : Option Bundle)
    (o : FlowObject) : Action σ ResolvedObject :=
  match chooseFor? chain o with
  | some resolver => resolver.resolve source bundle o
  | none => throw (unsupported o)

end Resolver

end Firewall
