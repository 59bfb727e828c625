/-
# Flow objects

A flow object is what a rule names as its source or destination: a literal address, a resource
name, a conjunction of tags, or a function selected by one tag.  Function tags are kept as the
document they were stored as, whether they have the shape of a tag or not.

* `FlowObject`, `ObjectKind`, `Tag` : the objects, their kinds and tags;
* `FlowObject.toJson`, `FlowObject.reading` : the stored form `id`, `type`, `value`;
* `ResolvedObject` : an object with the addresses found for it, or the reason why there are none.
-/
import Firewall.Json.Record

namespace Firewall

/-! ## Tags -/

/-- A tag of a cloud resource. -/
structure Tag where
  key : String
  value : String
  deriving DecidableEq, Repr

/-- A tag as a document. -/
def Tag.toJson (tag : Tag) : Json :=
  .object [("key", .string tag.key), ("value", .string tag.value)]

/-- A tag has a key and a value and nothing else. -/
def Tag.reading : Json.Reading Tag := fun levels d => do
  let r ← Json.Record.ofDraft? ["key", "value"] true levels d
  let key ← r.field "key" Json.Reading.text
  let value ← r.field "value" Json.Reading.text
  pure { key, value }

/-! ## Objects -/

/-- The kinds of objects. -/
inductive ObjectKind
  | address
  | arn
  | tagged
  | lambda
  deriving DecidableEq, Repr

/-- The name of a kind. -/
def ObjectKind.name : ObjectKind → String
  | address => "Address"
  | arn => "Arn"
  | tagged => "Tagged"
  | lambda => "Lambda"

/-- A kind is read from its name. -/
def ObjectKind.reading : Json.Reading ObjectKind :=
  Json.Reading.oneOf
    [("Address", .address), ("Arn", .arn), ("Tagged", .tagged), ("Lambda", .lambda)]

/-- What an object refers to. -/
inductive ObjectValue
  | address (literal : String)
  | arn (name : String)
  | tagged (tags : List Tag)
  | lambda (raw : Json.Ordered)

/-- The kind of a value. -/
def ObjectValue.kind : ObjectValue → ObjectKind
  | address _ => .address
  | arn _ => .arn
  | tagged _ => .tagged
  | lambda _ => .lambda

/-- A flow object. -/
structure FlowObject where
  id : String
  value : ObjectValue

namespace FlowObject

/-- The kind of an object. -/
def kind (o : FlowObject) : ObjectKind := o.value.kind

/-! ## The stored form -/

/-- The document of a value. -/
def valueJson : ObjectValue → Json
  | .address literal => .string literal
  | .arn name => .string name
  | .tagged tags => .array (tags.map Tag.toJson)
  | .lambda raw => raw.doc

/-- The value of that kind that a document holds. -/
def valueOf? (kind : ObjectKind) (raw : Json.Ordered) : Option ObjectValue :=
  match kind with
  | .address => raw.doc.text?.map .address
  | .arn => raw.doc.text?.map .arn
  | .tagged => (Json.Reading.ofJson? (Json.Reading.listOf Tag.reading) raw.doc).map .tagged
  | .lambda => some (.lambda raw)

/-- An object as a document. -/
def toJson (o : FlowObject) : Json :=
  .object [("id", .string o.id), ("type", .string o.kind.name), ("value", valueJson o.value)]

/-- An object is read from its id, its kind and a value of that kind. -/
def reading : Json.Reading FlowObject := fun levels d => do
  let r ← Json.Record.ofDraft? ["id", "type", "value"] false levels d
  let id ← r.field "id" Json.Reading.text
  let kind ← r.field "type" ObjectKind.reading
  let raw ← r.field "value" Json.Reading.raw
  let value ← valueOf? kind raw
  pure { id, value }

end FlowObject

/-! ## Resolved objects -/

/-- An object together with what resolving it found.  No address is a miss, which is not an
error: then the reasons say why. -/
structure ResolvedObject where
  object : FlowObject
  addresses : List String
  failureReasons : List String

namespace ResolvedObject

/-- An object whose addresses were found. -/
def found (object : FlowObject) (addresses : List String) : ResolvedObject :=
  ⟨object, addresses, []⟩

/-- An object without addresses. -/
def missed (object : FlowObject) (reason : String) : ResolvedObject := ⟨object, [], [reason]⟩

/-- An object whose addresses were found, or a miss if there are none. -/
def ofAddresses (object : FlowObject) (addresses : List String) (reason : String) :
    ResolvedObject :=
  if addresses = [] then missed object reason else found object addresses

/-- What is found are the addresses, whether there are any or not. -/
@[simp] theorem addresses_ofAddresses (o : FlowObject) (addresses : List String) (reason : String) :
    (ofAddresses o addresses reason).addresses = addresses := by
  unfold ofAddresses
  split
  · next h => exact h.symm
  · rfl

/-- Whether there is an address. -/
def isResolved (r : ResolvedObject) : Bool := !r.addresses.isEmpty

end ResolvedObject

end Firewall
