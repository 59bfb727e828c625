/-
# Inventory items

An item is a resource as the inventory knows it: its type, id and name, its tags, the resources it
is related to, and its configuration, which is any document.

* `Inventory.Item` : items;
* `Inventory.Item.answers` : whether an item answers a query;
* `Inventory.Item.row` : the row by which it answers.
-/
import Firewall.FlowObject
import Firewall.Inventory.Query

namespace Firewall

namespace Inventory

/-- A resource in the inventory. -/
structure Item where
  resourceType : String
  resourceId : String
  resourceName : Option String
  tags : List Tag
  /-- The ids of related resources. -/
  related : List String
  configuration : Json.Ordered

namespace Item

/-- An item without a name, tags or relations. -/
def new (resourceType resourceId : String) (configuration : Json.Ordered) : Item :=
  ⟨resourceType, resourceId, none, [], [], configuration⟩

/-- The item with a name. -/
def named (item : Item) (name : String) : Item := { item with resourceName := some name }

/-- The item with one more tag. -/
def tagged (item : Item) (key value : String) : Item :=
  { item with tags := item.tags ++ [⟨key, value⟩] }

/-- The item with one more relation. -/
def relatedTo (item : Item) (id : String) : Item := { item with related := item.related ++ [id] }

/-! ## Answering a query -/

/-- The text of a field of the configuration. -/
def setting? (item : Item) (field : String) : Option String :=
  (item.configuration.doc.get? field).bind Json.text?

/-- Whether a predicate holds of an item. -/
def satisfies (item : Item) : Predicate → Bool
  | .resourceId id => item.resourceId = id
  | .resourceName name => item.resourceName = some name
  | .related ids => item.related.any fun r => ids.contains r
  | .tag key value => item.tags.contains ⟨key, value⟩
  | .subnetIn ids =>
    match item.setting? "subnetId" with
    | some subnet => ids.contains subnet
    | none => false
  | .interfaceType kind => item.setting? "interfaceType" = some kind

/-- Whether an item answers a query: its type is one of those asked for, if any are, and all
predicates hold of it. -/
def answers (item : Item) (q : Query) : Bool :=
  (q.resourceTypes.isEmpty || q.resourceTypes.contains item.resourceType) &&
    q.predicates.all item.satisfies

/-- The row by which an item answers; it leaves out tags and relations. -/
def row (item : Item) : Json :=
  .object [("configuration", item.configuration.doc), ("resourceId", .string item.resourceId),
    ("resourceName", Json.ofOption .string item.resourceName),
    ("resourceType", .string item.resourceType)]

/-! ## Items as documents -/

/-- An item as a document. -/
def toJson (item : Item) : Json :=
  .object [("resourceType", .string item.resourceType), ("resourceId", .string item.resourceId),
    ("resourceName", Json.ofOption .string item.resourceName),
    ("tags", .array (item.tags.map Tag.toJson)), ("related", Json.ofTexts item.related),
    ("configuration", item.configuration.doc)]

/-- The fields of an item. -/
def fieldNames : List String :=
  ["resourceType", "resourceId", "resourceName", "tags", "related", "configuration"]

/-- An item is read from its fields; only type and id are required. -/
def reading : Json.Reading Item := fun levels d => do
  let r ← Json.Record.ofDraft? fieldNames false levels d
  let resourceType ← r.field "resourceType" Json.Reading.text
  let resourceId ← r.field "resourceId" Json.Reading.text
  let resourceName ← r.fieldOr "resourceName" none (Json.Reading.nullable Json.Reading.text)
  let tags ← r.fieldOr "tags" [] (Json.Reading.listOf Tag.reading)
  let related ← r.fieldOr "related" [] (Json.Reading.listOf Json.Reading.text)
  let configuration ← r.fieldOr "configuration" Json.Ordered.null Json.Reading.raw
  pure { resourceType, resourceId, resourceName, tags, related, configuration }

end Item

end Inventory

end Firewall
