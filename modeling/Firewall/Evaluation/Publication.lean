/-
# Publication of rule groups

The text compiled for a rule group is handed to a publisher, together with the bundles it came from.

* `Evaluation.Update` : what is published;
* `Evaluation.Publisher` : publishers;
* `Evaluation.Update.latest?` : the last update of a rule group.
-/
import Firewall.Action
import Firewall.Json.Record

namespace Firewall

namespace Evaluation

/-- The text for a rule group. -/
structure Update where
  ruleGroupArn : String
  rulesText : String
  bundleIds : List String
  deriving DecidableEq, Repr

namespace Update

/-- An update as a document. -/
def toJson (u : Update) : Json :=
  .object [("ruleGroupArn", .string u.ruleGroupArn), ("rulesString", .string u.rulesText),
    ("ruleBundleIds", Json.ofTexts u.bundleIds)]

/-- An update is read from its fields. -/
def reading : Json.Reading Update := fun levels d => do
  let r ← Json.Record.ofDraft? ["ruleGroupArn", "rulesString", "ruleBundleIds"] false levels d
  let ruleGroupArn ← r.field "ruleGroupArn" Json.Reading.text
  let rulesText ← r.field "rulesString" Json.Reading.text
  let bundleIds ← r.field "ruleBundleIds" (Json.Reading.listOf Json.Reading.text)
  pure { ruleGroupArn, rulesText, bundleIds }

/-- The last update of a rule group. -/
def latest? (published : List Update) (ruleGroupArn : String) : Option Update :=
  published.reverse.find? fun u => u.ruleGroupArn = ruleGroupArn

end Update

/-- A publisher over a world of type `σ`. -/
abbrev Publisher (σ : Type) := Update → Action σ Unit

/-- The publisher that keeps every update, in order. -/
def Publisher.inMemory : Publisher (List Update) := fun u =>
  Action.ofFun fun published => (.ok (), published ++ [u])

end Evaluation

end Firewall
