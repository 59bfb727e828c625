/-
# Resolvers

There are six resolvers, each for objects of one shape.  Whether a resolver takes an object can be
told from the object alone.

* `Resolver` : the resolvers, in order of priority;
* `Resolver.accepts` : whether a resolver takes an object;
* `Resolver.unsupported` : the error for an object that nobody takes.
-/
import Firewall.Address
import Firewall.Arn
import Firewall.Error
import Firewall.FlowObject
import Firewall.Inventory.Query

namespace Firewall

/-- The resolvers. -/
inductive Resolver
  /-- Literal addresses. -/
  | address
  /-- Virtual machines and security groups, by their network interfaces. -/
  | ec2
  /-- Virtual networks and subnets, by their address blocks. -/
  | network
  /-- Autoscaling groups, by the interfaces of their machines in service. -/
  | asg
  /-- Conjunctions of tags. -/
  | tagged
  /-- Functions selected by a tag. -/
  | lambda
  deriving DecidableEq, Repr

namespace Resolver

/-- The name of a resolver. -/
def name : Resolver → String
  | address => "address"
  | ec2 => "ec2"
  | network => "network"
  | asg => "asg"
  | tagged => "tagged"
  | lambda => "lambda"

/-- All resolvers in order of priority. -/
def standard : List Resolver := [address, ec2, network, asg, tagged, lambda]

/-! ## Which objects a resolver takes -/

/-- The resource that an object names. -/
def arnOf? (o : FlowObject) : Option Arn :=
  match o.value with
  | .arn name => Arn.ofText? name
  | _ => none

/-- The machine or security group that an object names. -/
def ec2Target? (o : FlowObject) : Option Arn :=
  (arnOf? o).filter fun a => a.isOf "ec2" "instance" || a.isOf "ec2" "security-group"

/-- The network or subnet that an object names, and its type in the inventory. -/
def networkTarget? (o : FlowObject) : Option (Arn × String) :=
  (arnOf? o).bind fun a =>
    if a.isOf "ec2" "vpc" then some (a, Inventory.ResourceType.vpc)
    else if a.isOf "ec2" "subnet" then some (a, Inventory.ResourceType.subnet)
    else none

/-- The autoscaling group that an object names. -/
def asgTarget? (o : FlowObject) : Option Arn :=
  (arnOf? o).filter fun a => a.isOf "autoscaling" "autoScalingGroup"

/-- The literal address that an object is. -/
def literal? (o : FlowObject) : Option String :=
  match o.value with
  | .address value => if Address.isLiteral value then some value else none
  | _ => none

/-- The tags that an object is a conjunction of. -/
def tags? (o : FlowObject) : Option (List Tag) :=
  match o.value with
  | .tagged tags => some tags
  | _ => none

/-- The document that an object keeps as its function tag. -/
def functionTag? (o : FlowObject) : Option Json.Ordered :=
  match o.value with
  | .lambda raw => some raw
  | _ => none

/-- Whether a resolver takes an object. -/
def accepts : Resolver → FlowObject → Bool
  | address, o => (literal? o).isSome
  | ec2, o => (ec2Target? o).isSome
  | network, o => (networkTarget? o).isSome
  | asg, o => (asgTarget? o).isSome
  | tagged, o => (tags? o).isSome
  | lambda, o => (functionTag? o).isSome

/-- The error for an object that no resolver takes. -/
def unsupported (o : FlowObject) : Error := .noResolver o.id o.kind.name

end Resolver

end Firewall
