/-
# Inventory queries

The inventory of cloud resources is asked for the resources of some types that satisfy all of a
list of predicates, and for some of their fields.  A query has a text, the expression, in which every
value stands between quotes and a quote inside a value is written twice.

* `Inventory.Query`, `Inventory.Predicate` : queries;
* `Inventory.Query.expression` : the text of a query;
* `Inventory.Query.toJson`, `Inventory.Query.reading` : queries as documents.
-/
import Firewall.Json.Record

namespace Firewall

namespace Inventory

/-! ## Types of resources -/

namespace ResourceType

/-- Virtual machines. -/
def machine : String := "AWS::EC2::Instance"

/-- Network interfaces. -/
def networkInterface : String := "AWS::EC2::NetworkInterface"

/-- Virtual networks. -/
def vpc : String := "AWS::EC2::VPC"

/-- Subnets of virtual networks. -/
def subnet : String := "AWS::EC2::Subnet"

/-- Groups of virtual machines that grow and shrink. -/
def autoScalingGroup : String := "AWS::AutoScaling::AutoScalingGroup"

/-- Serverless functions. -/
def function : String := "AWS::Lambda::Function"

end ResourceType

/-! ## Predicates and queries -/

/-- A condition on a resource. -/
inductive Predicate
  | resourceId (id : String)
  | resourceName (name : String)
  /-- The resource is related to one of these. -/
  | related (ids : List String)
  | tag (key value : String)
  /-- The resource lies in one of these subnets. -/
  | subnetIn (ids : List String)
  | interfaceType (kind : String)
  deriving DecidableEq, Repr

/-- A query: the fields asked for, the types of resources, and the conditions on them, all of which
must hold. -/
structure Query where
  fields : List String
  resourceTypes : List String
  predicates : List Predicate
  deriving DecidableEq, Repr

/-! ## Expressions -/

/-- A value between quotes; a quote inside it is written twice. -/
def quoted (value : String) : String :=
  "'" ++ String.ofList (value.toList.flatMap fun c => if c = '\'' then ['\'', '\''] else [c]) ++ "'"

/-- The condition that a field has one of some values. -/
def membership (field : String) : List String → String
  | [value] => field ++ " = " ++ quoted value
  | values => field ++ " IN (" ++ ", ".intercalate (values.map quoted) ++ ")"

/-- The text of a predicate. -/
def Predicate.expression : Predicate → String
  | resourceId id => "resourceId = " ++ quoted id
  | resourceName name => "resourceName = " ++ quoted name
  | related ids => membership "relationships.resourceId" ids
  | tag key value => "tags.tag = " ++ quoted (key ++ "=" ++ value)
  | subnetIn ids => membership "configuration.subnetId" ids
  | interfaceType kind => "configuration.interfaceType = " ++ quoted kind

namespace Query

/-- The conditions of a query, the one on the types first. -/
def clauses (q : Query) : List String :=
  (if q.resourceTypes = [] then [] else [membership "resourceType" q.resourceTypes]) ++
    q.predicates.map Predicate.expression

/-- The text of a query. -/
def expression (q : Query) : String :=
  "SELECT " ++ ", ".intercalate q.fields ++
    if q.clauses = [] then "" else " WHERE " ++ " AND ".intercalate q.clauses

end Query

/-! ## Queries as documents -/

/-- A predicate as a document: an object with the name of the condition. -/
def Predicate.toJson : Predicate → Json
  | resourceId id => .object [("ResourceId", .string id)]
  | resourceName name => .object [("ResourceName", .string name)]
  | related ids => .object [("Related", Json.ofTexts ids)]
  | tag key value => .object [("Tag", .object [("key", .string key), ("value", .string value)])]
  | subnetIn ids => .object [("SubnetIn", Json.ofTexts ids)]
  | interfaceType kind => .object [("InterfaceType", .string kind)]

/-- The key and value of a tag condition. -/
def Predicate.tagReading : Json.Reading Predicate := fun levels d => do
  let r ← Json.Record.ofDraft? ["key", "value"] false levels d
  let key ← r.field "key" Json.Reading.text
  let value ← r.field "value" Json.Reading.text
  pure (.tag key value)

/-- A predicate is read from an object with the name of the condition and nothing else. -/
def Predicate.reading : Json.Reading Predicate
  | levels + 1, .object [(some name, d)] =>
    match name with
    | "ResourceId" => (Json.Reading.text levels d).map .resourceId
    | "ResourceName" => (Json.Reading.text levels d).map .resourceName
    | "Related" => (Json.Reading.listOf Json.Reading.text levels d).map .related
    | "Tag" => Predicate.tagReading levels d
    | "SubnetIn" => (Json.Reading.listOf Json.Reading.text levels d).map .subnetIn
    | "InterfaceType" => (Json.Reading.text levels d).map .interfaceType
    | _ => none
  | _, _ => none

/-- A query as a document. -/
def Query.toJson (q : Query) : Json :=
  .object [("fields", Json.ofTexts q.fields), ("resource_types", Json.ofTexts q.resourceTypes),
    ("predicates", .array (q.predicates.map Predicate.toJson))]

/-- A query is read from its fields. -/
def Query.reading : Json.Reading Query := fun levels d => do
  let r ← Json.Record.ofDraft? ["fields", "resource_types", "predicates"] false levels d
  let fields ← r.field "fields" (Json.Reading.listOf Json.Reading.text)
  let resourceTypes ← r.field "resource_types" (Json.Reading.listOf Json.Reading.text)
  let predicates ← r.field "predicates" (Json.Reading.listOf Predicate.reading)
  pure { fields, resourceTypes, predicates }

end Inventory

end Firewall
