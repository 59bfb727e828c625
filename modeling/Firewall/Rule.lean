/-
# Rules

A rule lets traffic from one flow object to another pass, or drops it.  It belongs to one bundle,
and carries what its last evaluation found: a status, the reasons of a failure, the compiled text
and a version.

* `Rule`, `Port`, `RuleOption`, `RuleStatus` : rules and their parts;
* `Rule.fail`, `Rule.activate` : the outcomes of an evaluation;
* `Rule.toJson`, `Rule.reading` : the stored form.
-/
import Firewall.Json.Record

namespace Firewall

/-! ## Parts of a rule -/

/-- The status of a rule. -/
inductive RuleStatus
  | pending
  | active
  | failed
  deriving DecidableEq, Repr

/-- The name of a status. -/
def RuleStatus.name : RuleStatus → String
  | pending => "PENDING"
  | active => "ACTIVE"
  | failed => "FAILED"

/-- A status is read from its name. -/
def RuleStatus.reading : Json.Reading RuleStatus :=
  Json.Reading.oneOf [("PENDING", .pending), ("ACTIVE", .active), ("FAILED", .failed)]

/-- The ports that a rule applies to. -/
inductive Port
  | any
  | single (value : String)
  deriving DecidableEq, Repr

namespace Port

/-- A port as it stands in a rule line. -/
def text : Port → String
  | any => "any"
  | single value => value

/-- A port as a document. -/
def toJson : Port → Json
  | any => .object [("type", .string "Any")]
  | single value => .object [("type", .string "SinglePort"), ("value", .string value)]

/-- A port is read from an object with its type, or from an array that starts with it.  The other
members of the object must be proper documents, even if the type does not use them. -/
def reading : Json.Reading Port
  | levels + 1, .object members => do
    let ms ← Json.Record.namedMembers members
    let (tags, others) := ms.partition fun m => m.1 = "type"
    let values := others.filter fun m => m.1 = "value"
    if others.all fun m => (Json.Draft.settle levels m.2).isSome then
      match tags, values with
      | [(_, .string (some "Any"))], _ => some .any
      | [(_, .string (some "SinglePort"))], [(_, .string (some value))] => some (.single value)
      | _, _ => none
    else none
  | _ + 1, .array [.string (some "Any")] => some .any
  | _ + 1, .array [.string (some "SinglePort"), .string (some value)] => some (.single value)
  | _, _ => none

end Port

/-- An option that is copied into the rule line. -/
structure RuleOption where
  key : String
  value : String
  deriving DecidableEq, Repr

/-- An option as a document. -/
def RuleOption.toJson (o : RuleOption) : Json :=
  .object [("key", .string o.key), ("value", .string o.value)]

/-- An option is read from its key and value. -/
def RuleOption.reading : Json.Reading RuleOption := fun levels d => do
  let r ← Json.Record.ofDraft? ["key", "value"] false levels d
  let key ← r.field "key" Json.Reading.text
  let value ← r.field "value" Json.Reading.text
  pure { key, value }

/-! ## Rules -/

/-- A rule as it is stored. -/
structure Rule where
  id : String
  bundleId : String
  action : String
  protocol : String
  /-- The id of the object that traffic comes from. -/
  source : String
  sourcePort : Port
  /-- The id of the object that traffic goes to. -/
  destination : String
  destinationPort : Port
  status : RuleStatus
  failureReasons : List String
  /-- The options, if the rule has a list of them; an empty list differs from none. -/
  optionFields : Option (List RuleOption)
  version : UInt64
  /-- The compiled lines. -/
  suricata : Option String
  deriving DecidableEq, Repr

namespace Rule

/-- The options of a rule. -/
def options (r : Rule) : List RuleOption := r.optionFields.getD []

/-- The rule after a failure: the compiled lines are dropped. -/
def fail (r : Rule) (reason : String) : Rule :=
  { r with status := .failed, failureReasons := [reason], suricata := none }

/-- The rule with its compiled lines. -/
def activate (r : Rule) (lines : String) : Rule :=
  { r with status := .active, failureReasons := [], suricata := some lines }

/-! ## The stored form -/

/-- A rule as a document; empty reasons, a missing list of options and missing lines are left
out. -/
def toJson (r : Rule) : Json :=
  .object
    ([("id", .string r.id), ("ruleBundleId", .string r.bundleId), ("action", .string r.action),
      ("protocol", .string r.protocol), ("source", .string r.source),
      ("sourcePort", r.sourcePort.toJson), ("destination", .string r.destination),
      ("destinationPort", r.destinationPort.toJson), ("status", .string r.status.name)] ++
    (if r.failureReasons = [] then [] else [("failureReasons", Json.ofTexts r.failureReasons)]) ++
    Json.memberOf "optionFields" (fun os => .array (os.map RuleOption.toJson)) r.optionFields ++
    [("version", Json.ofNat r.version.toNat)] ++
    Json.memberOf "suricataString" .string r.suricata)

/-- The fields of a stored rule. -/
def fieldNames : List String :=
  ["id", "ruleBundleId", "action", "protocol", "source", "sourcePort", "destination",
    "destinationPort", "status", "failureReasons", "optionFields", "version", "suricataString"]

/-- A rule is read from its fields; those that an evaluation sets have defaults. -/
def reading : Json.Reading Rule := fun levels d => do
  let r ← Json.Record.ofDraft? fieldNames false levels d
  let id ← r.field "id" Json.Reading.text
  let bundleId ← r.field "ruleBundleId" Json.Reading.text
  let action ← r.field "action" Json.Reading.text
  let protocol ← r.field "protocol" Json.Reading.text
  let source ← r.field "source" Json.Reading.text
  let sourcePort ← r.field "sourcePort" Port.reading
  let destination ← r.field "destination" Json.Reading.text
  let destinationPort ← r.field "destinationPort" Port.reading
  let status ← r.fieldOr "status" .pending RuleStatus.reading
  let failureReasons ← r.fieldOr "failureReasons" [] (Json.Reading.listOf Json.Reading.text)
  let optionFields ← r.fieldOr "optionFields" none
    (Json.Reading.nullable (Json.Reading.listOf RuleOption.reading))
  let version ← r.fieldOr "version" 0 Json.Reading.word64
  let suricata ← r.fieldOr "suricataString" none (Json.Reading.nullable Json.Reading.text)
  pure
    { id, bundleId, action, protocol, source, sourcePort, destination, destinationPort, status,
      failureReasons, optionFields, version, suricata }

end Rule

end Firewall
