/-
# What a catalogue answers

A catalogue that is in order answers a query by the items of an aggregator of which the query holds,
and by null rows, of which nothing can be read.  A query changes nothing but the memory of queries.

* `Inventory.Item.answers_iff` : the items of which a query holds;
* `Inventory.Catalogue.Holds` : the items of an aggregator;
* `Inventory.Catalogue.exists_mem_rows_iff` : what is true of a row of an answer;
* `Inventory.Catalogue.filterMap_rows` : what is taken from the rows of an answer;
* `Inventory.Catalogue.perform_ask_ok_iff` : a query that is answered.
-/
import Mathlib.Data.List.ReduceOption
import Firewall.Inventory.Catalogue

namespace Firewall

namespace Inventory

/-! ## Items -/

namespace Item

/-- A query holds of an item if its type is one of those asked for, if any are, and all conditions
hold of it. -/
theorem answers_iff {item : Item} {q : Query} :
    item.answers q = true ↔
      (q.resourceTypes = [] ∨ item.resourceType ∈ q.resourceTypes) ∧
        ∀ p ∈ q.predicates, item.satisfies p = true := by
  rw [answers, Bool.and_eq_true, Bool.or_eq_true, List.isEmpty_iff, List.contains_iff_mem,
    List.all_eq_true]

/-- A query for one type of resources. -/
theorem answers_iff_of_type {item : Item} {q : Query} {type : String}
    (h : q.resourceTypes = [type]) :
    item.answers q = true ↔
      item.resourceType = type ∧ ∀ p ∈ q.predicates, item.satisfies p = true := by
  rw [answers_iff, h, List.mem_singleton, or_iff_right (List.cons_ne_nil _ _)]

/-- An item is related to one of some resources. -/
theorem satisfies_related_iff {item : Item} {ids : List String} :
    item.satisfies (.related ids) = true ↔ ∃ r ∈ item.related, r ∈ ids := by
  simp only [satisfies, List.any_eq_true, List.contains_iff_mem]

/-- An item carries a tag. -/
theorem satisfies_tag_iff {item : Item} {tag : Tag} :
    item.satisfies (.tag tag.key tag.value) = true ↔ tag ∈ item.tags :=
  List.contains_iff_mem

/-- An item lies in one of some subnets. -/
theorem satisfies_subnetIn_iff {item : Item} {ids : List String} :
    item.satisfies (.subnetIn ids) = true ↔ ∃ s ∈ ids, item.setting? "subnetId" = some s := by
  rw [satisfies]
  cases item.setting? "subnetId" with
  | none => simp
  | some s => simp

/-- An item is an interface of some kind. -/
theorem satisfies_interfaceType_iff {item : Item} {kind : String} :
    item.satisfies (.interfaceType kind) = true ↔ item.setting? "interfaceType" = some kind :=
  decide_eq_true_iff

end Item

/-! ## Catalogues -/

namespace Catalogue

/-- The aggregator holds the item. -/
def Holds (c : Catalogue) (aggregator : String) (item : Item) : Prop :=
  some item ∈ c.itemsOf aggregator

variable {c c' : Catalogue} {aggregator : String} {q : Query}

/-- Every row of an answer is the row of an item of which the query holds, or null. -/
theorem mem_rows_iff {row : Json} :
    row ∈ c.rows aggregator q ↔
      (∃ item, c.Holds aggregator item ∧ item.answers q = true ∧ item.row = row) ∨
        none ∈ c.itemsOf aggregator ∧ row = .null := by
  rw [rows, List.mem_filterMap]
  constructor
  · rintro ⟨_ | item, hitem, hrow⟩
    · exact .inr ⟨hitem, (Option.some.inj hrow).symm⟩
    · rw [rowOf, Option.ite_none_right_eq_some, Option.some.injEq] at hrow
      exact .inl ⟨item, hitem, hrow⟩
  · rintro (⟨item, hitem, hanswers, rfl⟩ | ⟨hnull, rfl⟩)
    · exact ⟨some item, hitem, if_pos hanswers⟩
    · exact ⟨none, hnull, rfl⟩

/-- Whatever is not true of a null row is true of a row of an answer exactly if it is true of the row
of an item of which the query holds. -/
theorem exists_mem_rows_iff {P : Json → Prop} (hnull : ¬ P .null) :
    (∃ row, row ∈ c.rows aggregator q ∧ P row) ↔
      ∃ item, c.Holds aggregator item ∧ item.answers q = true ∧ P item.row := by
  constructor
  · rintro ⟨row, hrow, hP⟩
    rcases mem_rows_iff.1 hrow with ⟨item, hitem, hanswers, rfl⟩ | ⟨-, rfl⟩
    · exact ⟨item, hitem, hanswers, hP⟩
    · exact absurd hP hnull
  · rintro ⟨item, hitem, hanswers, hP⟩
    exact ⟨item.row, mem_rows_iff.2 (.inl ⟨item, hitem, hanswers, rfl⟩), hP⟩

/-- What is taken from the rows of an answer, if nothing is taken from a null row. -/
theorem filterMap_rows {β : Type} {f : Json → Option β} (hnull : f .null = none) :
    (c.rows aggregator q).filterMap f =
      ((c.itemsOf aggregator).reduceOption.filter fun item => item.answers q).filterMap
        fun item => f item.row := by
  rw [rows, List.filterMap_filterMap, List.reduceOption, List.filterMap_filter,
    List.filterMap_filterMap]
  congr 1
  funext entry
  cases entry with
  | none => exact hnull
  | some item =>
    rw [rowOf, id_eq, Option.bind_some]
    split <;> rfl

/-- **A query is answered** if the catalogue is in order; it changes nothing but the memory of
queries. -/
theorem perform_ask_ok_iff {d : String} {bundle : Option Bundle} {answer : List Json} :
    ((source d).ask bundle q).perform c = (.ok answer, c') ↔
      c.outage = none ∧ answer = c.rows ((source d).aggregatorFor bundle) q ∧
        c' = { c with queries := c.queries ++ [q.expression] } := by
  simp only [Source.ask, source, select, Action.perform_ofFun]
  cases c.outage with
  | some reason => simp
  | none => simp [eq_comm]

theorem perform_ask_of_inOrder {d : String} {bundle : Option Bundle} (h : c.outage = none) :
    ((source d).ask bundle q).perform c =
      (.ok (c.rows ((source d).aggregatorFor bundle) q),
        { c with queries := c.queries ++ [q.expression] }) :=
  perform_ask_ok_iff.2 ⟨h, rfl, rfl⟩

/-- A catalogue out of order fails, and remembers the query as well. -/
theorem perform_ask_of_outage {d : String} {bundle : Option Bundle} {reason : String}
    (h : c.outage = some reason) :
    ((source d).ask bundle q).perform c =
      (.error (.inventory reason), { c with queries := c.queries ++ [q.expression] }) := by
  simp only [Source.ask, source, select, Action.perform_ofFun, h]

end Catalogue

end Inventory

end Firewall
