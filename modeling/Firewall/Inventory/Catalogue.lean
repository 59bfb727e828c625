/-
# Catalogues

A catalogue is an inventory held in memory: the items of each aggregator in the order in which they
were added, and null rows among them.  It can be put out of order, and it remembers every query it
was asked.

* `Inventory.Catalogue` : catalogues;
* `Inventory.Catalogue.rows` : the rows that answer a query;
* `Inventory.Catalogue.select` : a query to a catalogue.
-/
import Firewall.Inventory.Item
import Firewall.Inventory.Source

namespace Firewall

namespace Inventory

/-- An inventory held in memory. -/
structure Catalogue where
  /-- Each item with its aggregator; a missing item stands for a null row. -/
  entries : List (String × Option Item)
  /-- The reason why no query is answered, if so. -/
  outage : Option String
  /-- The expressions of all queries, in order. -/
  queries : List String

namespace Catalogue

/-- A catalogue without items. -/
def empty : Catalogue := ⟨[], none, []⟩

/-- The catalogue with one more item, or with a null row. -/
def insert (c : Catalogue) (aggregator : String) (item : Option Item) : Catalogue :=
  { c with entries := c.entries ++ [(aggregator, item)] }

/-- The catalogue out of order for a reason, or in order again. -/
def setOutage (c : Catalogue) (reason : Option String) : Catalogue := { c with outage := reason }

/-- The items and null rows of an aggregator. -/
def itemsOf (c : Catalogue) (aggregator : String) : List (Option Item) :=
  c.entries.filterMap fun e => if e.1 = aggregator then some e.2 else none

/-- The row of an item that answers a query; a null row is part of every answer. -/
def rowOf (q : Query) : Option Item → Option Json
  | some item => if item.answers q then some item.row else none
  | none => some .null

/-- The rows by which an aggregator answers a query. -/
def rows (c : Catalogue) (aggregator : String) (q : Query) : List Json :=
  (c.itemsOf aggregator).filterMap (rowOf q)

/-- A query to a catalogue. -/
def select (aggregator : String) (q : Query) : Action Catalogue (List Json) :=
  Action.ofFun fun c =>
    let answer := match c.outage with
      | some reason => .error (.inventory reason)
      | none => .ok (c.rows aggregator q)
    (answer, { c with queries := c.queries ++ [q.expression] })

/-- A catalogue as a source. -/
def source (defaultAggregator : String) : Source Catalogue := ⟨select, defaultAggregator⟩

end Catalogue

end Inventory

end Firewall
