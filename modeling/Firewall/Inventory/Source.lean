/-
# Sources of inventory rows

Resolving asks an inventory through a source: the queries go to the aggregator that the bundle
names, and to a default one outside a bundle or if the bundle names none.

* `Inventory.Source` : an inventory with its default aggregator;
* `Inventory.Source.ask` : a query on behalf of a bundle;
* `Inventory.configured?` : a text in the configuration of a row.
-/
import Firewall.Action
import Firewall.Bundle
import Firewall.Inventory.Query

namespace Firewall

namespace Inventory

/-- An inventory over a world of type `σ`.  It answers a query to an aggregator by rows, which may
be any documents. -/
structure Source (σ : Type) where
  select : String → Query → Action σ (List Json)
  defaultAggregator : String

namespace Source

variable {σ : Type}

/-- The aggregator asked on behalf of a bundle. -/
def aggregatorFor (source : Source σ) (bundle : Option Bundle) : String :=
  match bundle with
  | some b => if b.aggregatorName = "" then source.defaultAggregator else b.aggregatorName
  | none => source.defaultAggregator

/-- The rows that answer a query on behalf of a bundle. -/
def ask (source : Source σ) (bundle : Option Bundle) (query : Query) : Action σ (List Json) :=
  source.select (source.aggregatorFor bundle) query

end Source

/-- The text of a field in the configuration of a row. -/
def configured? (row : Json) (field : String) : Option String :=
  ((row.get? "configuration").bind fun c => c.get? field).bind Json.text?

end Inventory

end Firewall
