/-
# One aggregator

All queries on behalf of a bundle go to one aggregator: the one that the bundle names, or the
default one.  So what resolving finds depends on the items of this aggregator only, whatever the
others hold.

* `Inventory.Catalogue.AgreeOn` : catalogues that hold the same for an aggregator;
* `Inventory.Catalogue.alikeFor_source` : they answer alike on behalf of its bundles;
* `Inventory.Catalogue.steadyIn_source` : a catalogue always answers alike;
* `Inventory.Catalogue.AgreeOn.confined` : they resolve objects and rules to the same.
-/
import Firewall.Inventory.Catalogue
import Firewall.Proofs.Resolution

namespace Firewall

namespace Inventory

namespace Catalogue

/-- Two catalogues hold the same items and null rows for an aggregator, in the same order, and are
both in order or out of order for the same reason. -/
structure AgreeOn (aggregator : String) (c c' : Catalogue) : Prop where
  items : c.itemsOf aggregator = c'.itemsOf aggregator
  outage : c.outage = c'.outage

/-- A query to the aggregator has the same answer, and leaves the catalogues as they are but for the
memory of it. -/
theorem alike_select (aggregator : String) (q : Query) :
    Action.Alike (AgreeOn aggregator) (select aggregator q) (select aggregator q) := by
  intro c c' h
  refine ⟨?_, h.items, h.outage⟩
  unfold select rows
  rw [Action.perform_ofFun, Action.perform_ofFun, h.items, h.outage]

/-- Catalogues that hold the same for the aggregator of a bundle answer alike on its behalf. -/
theorem alikeFor_source {bundle : Option Bundle} {aggregator : String} {d d' : String}
    (hd : (source d).aggregatorFor bundle = aggregator)
    (hd' : (source d').aggregatorFor bundle = aggregator) :
    (source d).AlikeFor (AgreeOn aggregator) bundle (source d') := by
  intro q
  unfold Source.ask
  rw [hd, hd']
  exact (alike_select aggregator q).upTo solid

/-- Queries leave what a catalogue holds as it is, so it always answers alike. -/
theorem steadyIn_source {bundle : Option Bundle} {aggregator d : String}
    (hd : (source d).aggregatorFor bundle = aggregator) (c₀ : Catalogue) :
    (source d).SteadyIn (AgreeOn aggregator c₀) bundle := by
  rintro q c c' ⟨h, h'⟩
  have hboth : AgreeOn aggregator c c' :=
    ⟨h.items.symm.trans h'.items, h.outage.symm.trans h'.outage⟩
  obtain ⟨hresult, -⟩ := alikeFor_source hd hd q c c' hboth
  exact ⟨hresult, ⟨h.items, h.outage⟩, ⟨h'.items, h'.outage⟩⟩

/-! ## Resolving -/

/-- **Resolving reads one aggregator only.**  Two catalogues that hold the same for the aggregator
that a bundle names, or else for the default one, resolve every object and all rules of the bundle
to the same: the same addresses and reasons, the same error, the same rules and lines. -/
theorem AgreeOn.confined (b : Bundle) {d d' : String} (hd : b.aggregatorName = "" → d = d')
    {c c' : Catalogue}
    (h : AgreeOn (if b.aggregatorName = "" then d else b.aggregatorName) c c') :
    (∀ chain o,
      ((Resolver.resolveBy chain (source d) (some b) o).perform c).1 =
        ((Resolver.resolveBy chain (source d') (some b) o).perform c').1) ∧
    ∀ chain denyRuleId rules objects offset,
      ((Compiler.resolveRules ⟨chain, source d, denyRuleId⟩ b rules objects offset).perform c).1 =
        ((Compiler.resolveRules ⟨chain, source d', denyRuleId⟩ b rules objects offset).perform
          c').1 := by
  have hsource : (source d).AlikeFor
      (AgreeOn (if b.aggregatorName = "" then d else b.aggregatorName)) (some b) (source d') := by
    refine alikeFor_source rfl ?_
    -- the default aggregators differ only where neither is asked
    split
    · next hempty => rw [hd hempty, Source.aggregatorFor, if_pos hempty, source]
    · next hnamed => rw [Source.aggregatorFor, if_neg hnamed]
  constructor
  · intro chain o
    exact (Resolver.alike_resolveBy hsource chain o c c' h).1
  · intro chain denyRuleId rules objects offset
    refine (Compiler.alike_resolveRules ?_ ?_ ?_ rules objects offset c c' h).1
    · rfl
    · exact hsource
    · rfl

end Catalogue

end Inventory

/-! ## Two aggregators -/

namespace Sample

/-- A catalogue with an interface of the machine in production, and another one in testing. -/
def twoAggregators (address : String) : Inventory.Catalogue :=
  (Inventory.Catalogue.empty.insert "production" (some (machineInterface "10.0.0.5"))).insert "testing"
    (some (machineInterface address))

/-- A bundle in production. -/
def production : Bundle := .new "b1" "g1" "production"

end Sample

/-- What is in testing makes no difference to a bundle in production. -/
theorem Inventory.Catalogue.confined_twoAggregators :
    ((Resolver.resolveBy Resolver.standard (source "testing") (some Sample.production)
        Sample.machine).perform (Sample.twoAggregators "10.0.0.6")).1 =
      ((Resolver.resolveBy Resolver.standard (source "testing") (some Sample.production)
        Sample.machine).perform (Sample.twoAggregators "10.9.9.9")).1 ∧
    ((Resolver.resolveBy Resolver.standard (source "testing") (some Sample.production)
        Sample.machine).perform (Sample.twoAggregators "10.0.0.6")).1.toOption.map
      (·.addresses) = some ["10.0.0.5"] := by
  have h : AgreeOn (if Sample.production.aggregatorName = "" then "testing"
      else Sample.production.aggregatorName)
      (Sample.twoAggregators "10.0.0.6") (Sample.twoAggregators "10.9.9.9") := ⟨rfl, rfl⟩
  exact ⟨(AgreeOn.confined Sample.production (fun _ => rfl) h).1 _ _, by decide +kernel⟩

end Firewall
