/-
# Bundles of rules

A bundle is a named collection of rules bound to one rule group of the firewall.  It names the
aggregator of the inventory that its objects are looked up in, and remembers when it was last
brought up to date.

* `Bundle`, `Bundle.new` : bundles;
* `Bundle.toJson`, `Bundle.reading` : the stored form;
* `Bundle.groupByArn` : bundles by rule group, groups and members in order of first appearance.
-/
import Firewall.Json.Record
import Firewall.Timestamp

namespace Firewall

/-- A bundle of rules. -/
structure Bundle where
  id : String
  description : Option String
  /-- The rule group that the rules of the bundle end up in. -/
  ruleGroupArn : String
  /-- The aggregator of the inventory; empty for the default one. -/
  aggregatorName : String
  ownerGroup : List String
  /-- When a cycle last brought the bundle up to date. -/
  lastSuccessSync : Option Timestamp
  deriving DecidableEq

namespace Bundle

/-- A bundle that has never been brought up to date. -/
def new (id ruleGroupArn aggregatorName : String) : Bundle :=
  ⟨id, none, ruleGroupArn, aggregatorName, [], none⟩

/-! ## The stored form -/

/-- A timestamp is read from its text. -/
def timestampReading : Json.Reading Timestamp := fun levels d =>
  (Json.Reading.text levels d).bind Timestamp.ofText?

/-- A bundle as a document; a missing timestamp is left out. -/
def toJson (b : Bundle) : Json :=
  .object
    ([("id", .string b.id), ("description", Json.ofOption .string b.description),
      ("ruleGroupArn", .string b.ruleGroupArn), ("aggregatorName", .string b.aggregatorName),
      ("ownerGroup", Json.ofTexts b.ownerGroup)] ++
    Json.memberOf "lastSuccessSyncTimestamp" (fun t => .string t.text) b.lastSuccessSync)

/-- The fields of a stored bundle. -/
def fieldNames : List String :=
  ["id", "description", "ruleGroupArn", "aggregatorName", "ownerGroup",
    "lastSuccessSyncTimestamp"]

/-- A bundle is read from its fields. -/
def reading : Json.Reading Bundle := fun levels d => do
  let r ← Json.Record.ofDraft? fieldNames false levels d
  let id ← r.field "id" Json.Reading.text
  let description ← r.option "description" Json.Reading.text
  let ruleGroupArn ← r.field "ruleGroupArn" Json.Reading.text
  let aggregatorName ← r.field "aggregatorName" Json.Reading.text
  let ownerGroup ← r.fieldOr "ownerGroup" [] (Json.Reading.listOf Json.Reading.text)
  let lastSuccessSync ← r.fieldOr "lastSuccessSyncTimestamp" none
    (Json.Reading.nullable timestampReading)
  pure { id, description, ruleGroupArn, aggregatorName, ownerGroup, lastSuccessSync }

/-! ## Rule groups -/

/-- Groups with one more bundle: it joins the group of its rule group, or opens one at the end. -/
def addToGroups (b : Bundle) : List (String × List Bundle) → List (String × List Bundle)
  | [] => [(b.ruleGroupArn, [b])]
  | (arn, members) :: groups =>
    if arn = b.ruleGroupArn then (arn, members ++ [b]) :: groups
    else (arn, members) :: addToGroups b groups

/-- The bundles by rule group.  Groups stand in the order in which their first members appear,
and members in the order of the bundles. -/
def groupByArn (bundles : List Bundle) : List (String × List Bundle) :=
  bundles.foldl (fun groups b => addToGroups b groups) []

end Bundle

end Firewall
