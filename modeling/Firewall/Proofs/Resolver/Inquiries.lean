/-
# What an inventory is asked

Resolving an object may ask the inventory several times, and what is asked later may depend on
earlier answers.  An inventory that notes every query with its answer resolves as it would without
notes; so the notes tell what resolving asks, and every result can be traced to the answers.

* `Inventory.Inquiry` : a query with its answer;
* `Inventory.Source.noted` : an inventory that notes what it is asked;
* `Resolver.inquiries` : what resolving an object asks;
* `Resolver.perform_noted` : notes make no difference to the result;
* `Resolver.queries_perform_resolveBy` : a catalogue remembers the same queries.
-/
import Firewall.Inventory.Catalogue
import Firewall.Proofs.Resolver.Alike

namespace Firewall

variable {σ : Type}

/-! ## Notes -/

namespace Inventory

/-- A query that an aggregator was asked, and its answer. -/
structure Inquiry where
  aggregator : String
  query : Query
  answer : Except Error (List Json)

/-- What was asked, without the answer. -/
def Inquiry.question (i : Inquiry) : String × Query := (i.aggregator, i.query)

namespace Source

/-- The inventory with a note of every query beside its world, those that fail included. -/
def noted (source : Source σ) : Source (σ × List Inquiry) where
  select := fun aggregator query => Action.ofFun fun w =>
    let (answer, s) := (source.select aggregator query).perform w.1
    (answer, s, w.2 ++ [⟨aggregator, query, answer⟩])
  defaultAggregator := source.defaultAggregator

variable (source : Source σ)

theorem aggregatorFor_noted (bundle : Option Bundle) :
    source.noted.aggregatorFor bundle = source.aggregatorFor bundle :=
  aggregatorFor_eq rfl bundle

/-- Asking an inventory that takes notes adds a note of the query and its answer. -/
theorem perform_ask_noted (bundle : Option Bundle) (q : Query) (w : σ × List Inquiry) :
    (source.noted.ask bundle q).perform w =
      (((source.ask bundle q).perform w.1).1, ((source.ask bundle q).perform w.1).2,
        w.2 ++ [⟨source.aggregatorFor bundle, q, ((source.ask bundle q).perform w.1).1⟩]) := by
  unfold ask
  rw [aggregatorFor_noted]
  rfl

theorem perform_ask_noted_of {bundle : Option Bundle} {q : Query} {s t : σ}
    {answer : Except Error (List Json)} (h : (source.ask bundle q).perform s = (answer, t))
    (notes : List Inquiry) :
    (source.noted.ask bundle q).perform (s, notes) =
      (answer, t, notes ++ [⟨source.aggregatorFor bundle, q, answer⟩]) := by
  rw [perform_ask_noted, h]

/-- An inventory answers alike with and without notes. -/
theorem alike_noted : source.noted.Alike (fun w s => w.1 = s) source where
  select := by
    rintro aggregator q w _ rfl
    exact ⟨rfl, rfl⟩
  defaultAggregator := rfl

end Source

end Inventory

/-! ## Resolving with notes -/

namespace Resolver

open Inventory

/-- What the inventory is asked to resolve an object, in order. -/
def inquiries (chain : List Resolver) (source : Source σ) (bundle : Option Bundle)
    (o : FlowObject) (s : σ) : List Inquiry :=
  ((resolveBy chain source.noted bundle o).perform (s, [])).2.2

/-- **Taking notes makes no difference** to the result of resolving an object. -/
theorem perform_noted (chain : List Resolver) (source : Source σ) (bundle : Option Bundle)
    (o : FlowObject) (s : σ) (notes : List Inquiry) :
    ((resolveBy chain source.noted bundle o).perform (s, notes)).1 =
      ((resolveBy chain source bundle o).perform s).1 :=
  (alike_resolveBy (source.alike_noted.alikeFor bundle) chain o (s, notes) s rfl).1

/-- **A catalogue remembers what is asked**: the expressions of the inquiries, in order. -/
theorem queries_perform_resolveBy (chain : List Resolver) (d : String) (bundle : Option Bundle)
    (o : FlowObject) (c : Catalogue) :
    ((resolveBy chain (Catalogue.source d) bundle o).perform c).2.queries =
      c.queries ++
        (inquiries chain (Catalogue.source d) bundle o c).map (·.query.expression) := by
  have hnoted : (Catalogue.source d).noted.Alike (fun w c' => w.1 = c' ∧
      c'.queries = c.queries ++ w.2.map (·.query.expression)) (Catalogue.source d) := by
    refine ⟨?_, rfl⟩
    rintro aggregator q ⟨c', notes⟩ _ ⟨rfl, hqueries⟩
    refine ⟨rfl, rfl, ?_⟩
    change c'.queries ++ [q.expression] =
      c.queries ++ (notes ++ [_] : List Inquiry).map (·.query.expression)
    rw [hqueries, List.map_append, List.append_assoc]
    rfl
  have hstart : c.queries = c.queries ++ ([] : List Inquiry).map (·.query.expression) :=
    (List.append_nil _).symm
  exact (alike_resolveBy (hnoted.alikeFor bundle) chain o (c, []) c ⟨rfl, hstart⟩).2.2

end Resolver

end Firewall
