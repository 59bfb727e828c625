/-
# Conjunctions of tags

An object with tags stands for the machines, subnets and networks that carry all of them.  So more
tags leave addresses out and bring none in, and it does not matter in which order tags are declared,
nor how often.  No tags would select everything; an object without tags is a miss instead, for
which the inventory is not asked.

* `Inventory.Item.CarriesAll` : the items that carry some tags;
* `Inventory.Catalogue.addressesTagged` : their addresses;
* `Inventory.Catalogue.addressesTagged_sublist`, `addressesTagged_congr` : lists of tags compared;
* `Resolver.resolveBy_tagged` : what objects with tags are resolved to.
-/
import Firewall.Proofs.Inventory.Catalogue
import Firewall.Proofs.Resolver.Dispatch
import Firewall.Proofs.Resolver.Inquiries

namespace Firewall

namespace Inventory

/-! ## Items with tags -/

namespace Item

/-- A machine, subnet or network that carries all of some tags. -/
structure CarriesAll (tags : List Tag) (item : Item) : Prop where
  resourceType : item.resourceType ∈ [ResourceType.machine, ResourceType.subnet, ResourceType.vpc]
  tagged : tags ⊆ item.tags

/-- The private address of an item, or else its address block. -/
def addressOrBlock? (item : Item) : Option String :=
  (item.setting? "privateIpAddress").orElse fun _ => item.setting? "cidrBlock"

theorem CarriesAll.of_subset {item : Item} {tags tags' : List Tag} (h : item.CarriesAll tags')
    (hsub : tags ⊆ tags') : item.CarriesAll tags :=
  ⟨h.resourceType, List.Subset.trans hsub h.tagged⟩

/-- The query for tags has one predicate for each of them. -/
theorem answers_tagQuery_iff {item : Item} {tags : List Tag} :
    item.answers (Resolver.tagQuery tags) = true ↔ item.CarriesAll tags := by
  rw [answers_iff, or_iff_right (by exact List.cons_ne_nil _ _)]
  simp only [Resolver.tagQuery, List.forall_mem_map, satisfies_tag_iff]
  exact ⟨fun ⟨htype, htags⟩ => ⟨htype, htags⟩, fun h => ⟨h.resourceType, h.tagged⟩⟩

instance (tags : List Tag) (item : Item) : Decidable (item.CarriesAll tags) :=
  decidable_of_iff _ answers_tagQuery_iff

end Item

namespace Catalogue

variable {c : Catalogue} {aggregator : String} {tags tags' : List Tag}

/-- The addresses and address blocks of what carries all of some tags, in the order of the
catalogue. -/
def addressesTagged (c : Catalogue) (aggregator : String) (tags : List Tag) : List String :=
  ((c.itemsOf aggregator).reduceOption.filter fun item => item.CarriesAll tags).filterMap
    Item.addressOrBlock?

/-- These are what is taken from the rows that answer the query for the tags. -/
theorem addressesOrBlocks_rows :
    Resolver.addressesOrBlocks (c.rows aggregator (Resolver.tagQuery tags)) =
      c.addressesTagged aggregator tags := by
  rw [Resolver.addressesOrBlocks, filterMap_rows rfl, addressesTagged]
  simp only [← Item.answers_tagQuery_iff, Bool.decide_eq_true]
  rfl

/-- **More tags leave addresses out**, and keep the others in order. -/
theorem addressesTagged_sublist (hsub : tags ⊆ tags') :
    (c.addressesTagged aggregator tags').Sublist (c.addressesTagged aggregator tags) := by
  apply List.Sublist.filterMap
  apply List.monotone_filter_right
  intro item h
  rw [decide_eq_true_eq] at h ⊢
  exact h.of_subset hsub

/-- Neither the order of tags matters nor how often one is repeated. -/
theorem addressesTagged_congr (hsub : tags ⊆ tags') (hsub' : tags' ⊆ tags) :
    c.addressesTagged aggregator tags' = c.addressesTagged aggregator tags :=
  (addressesTagged_sublist hsub).antisymm (addressesTagged_sublist hsub')

end Catalogue

end Inventory

/-! ## Resolving -/

namespace Resolver

open Inventory

section Tagged

variable {chain : List Resolver} {d aggregator : String} {bundle : Option Bundle} {o : FlowObject}
  {tags : List Tag}

/-- Without tags the inventory is not asked. -/
theorem resolveBy_of_untagged {σ : Type} {source : Source σ} (htagged : tagged ∈ chain)
    (ho : o.value = .tagged []) :
    resolveBy chain source bundle o = pure (.missed o "No tags declared") := by
  rw [resolveBy_of_tagged source bundle htagged ho, resolveTagged, if_pos rfl]

/-- A catalogue in order resolves tags to the addresses of what carries all of them. -/
theorem exists_perform_resolveBy_tagged (htagged : tagged ∈ chain)
    (hd : (Catalogue.source d).aggregatorFor bundle = aggregator) (ho : o.value = .tagged tags)
    (hne : tags ≠ []) {c : Catalogue} (hc : c.outage = none) :
    ∃ r, (resolveBy chain (Catalogue.source d) bundle o).perform c =
        (.ok r, { c with queries := c.queries ++ [(tagQuery tags).expression] }) ∧
      r.addresses = c.addressesTagged aggregator tags := by
  rw [resolveBy_of_tagged _ bundle htagged ho, resolveTagged, if_neg hne]
  refine ⟨_, Action.perform_bind_of_ok (Catalogue.perform_ask_of_inOrder hc) _, ?_⟩
  rw [ResolvedObject.addresses_ofAddresses, hd, Catalogue.addressesOrBlocks_rows]

theorem perform_resolveBy_tagged_of_outage (htagged : tagged ∈ chain) (ho : o.value = .tagged tags)
    (hne : tags ≠ []) {c : Catalogue} {reason : String} (hreason : c.outage = some reason) :
    (resolveBy chain (Catalogue.source d) bundle o).perform c =
      (.error (.inventory reason),
        { c with queries := c.queries ++ [(tagQuery tags).expression] }) := by
  rw [resolveBy_of_tagged _ bundle htagged ho, resolveTagged, if_neg hne]
  exact Action.perform_bind_of_error (Catalogue.perform_ask_of_outage hreason) _

/-- **What an object with tags is resolved to.**  Without tags it is a miss, and nothing is asked.
Otherwise, a catalogue out of order fails, and one in order gives the addresses of all that carries
all of the tags.  Then an object that declares all these tags, and maybe others, is resolved to some
of the addresses in the same order, and to all of them if it declares no others. -/
theorem resolveBy_tagged (htagged : tagged ∈ chain)
    (hd : (Catalogue.source d).aggregatorFor bundle = aggregator) (ho : o.value = .tagged tags)
    (c : Catalogue) :
    (tags = [] →
      (resolveBy chain (Catalogue.source d) bundle o).perform c =
          (.ok (.missed o "No tags declared"), c) ∧
        inquiries chain (Catalogue.source d) bundle o c = []) ∧
    (tags ≠ [] → ∀ reason, c.outage = some reason →
      (resolveBy chain (Catalogue.source d) bundle o).perform c =
        (.error (.inventory reason),
          { c with queries := c.queries ++ [(tagQuery tags).expression] })) ∧
    (tags ≠ [] → c.outage = none →
      ∃ r, (resolveBy chain (Catalogue.source d) bundle o).perform c =
          (.ok r, { c with queries := c.queries ++ [(tagQuery tags).expression] }) ∧
        r.addresses = c.addressesTagged aggregator tags ∧
        ∀ (o' : FlowObject) (tags' : List Tag), o'.value = .tagged tags' → tags ⊆ tags' →
          ∃ r', (resolveBy chain (Catalogue.source d) bundle o').perform c =
              (.ok r', { c with queries := c.queries ++ [(tagQuery tags').expression] }) ∧
            r'.addresses.Sublist r.addresses ∧
            (tags' ⊆ tags → r'.addresses = r.addresses)) := by
  refine ⟨?_, fun hne reason => perform_resolveBy_tagged_of_outage htagged ho hne, ?_⟩
  · rintro rfl
    rw [inquiries, resolveBy_of_untagged htagged ho, resolveBy_of_untagged htagged ho]
    exact ⟨rfl, rfl⟩
  · intro hne hc
    obtain ⟨r, hrun, haddresses⟩ := exists_perform_resolveBy_tagged htagged hd ho hne hc
    refine ⟨r, hrun, haddresses, fun o' tags' ho' hsub => ?_⟩
    have hne' : tags' ≠ [] := by
      rintro rfl
      exact hne (List.subset_nil.1 hsub)
    obtain ⟨r', hrun', haddresses'⟩ := exists_perform_resolveBy_tagged htagged hd ho' hne' hc
    refine ⟨r', hrun', ?_, fun hsub' => ?_⟩
    · rw [haddresses, haddresses']
      exact Catalogue.addressesTagged_sublist hsub
    · rw [haddresses, haddresses']
      exact Catalogue.addressesTagged_congr hsub hsub'

end Tagged

end Resolver

/-! ## One tag and two -/

namespace Sample

/-- The tag of a site. -/
def web : Tag := ⟨"app", "web"⟩

/-- The tag of what serves customers. -/
def live : Tag := ⟨"env", "live"⟩

/-- An object that declares tags. -/
def declaring (tags : List Tag) : FlowObject := ⟨"o1", .tagged tags⟩

/-- An item with tags, and one text in its configuration. -/
def taggedItem (resourceType field value : String) (tags : List Tag) : Inventory.Item where
  resourceType := resourceType
  resourceId := value
  resourceName := none
  tags := tags
  related := []
  configuration := ⟨.object [(field, .string value)], rfl⟩

/-- A subnet and two machines of a site, one of them not for customers, and a null row. -/
def site : Inventory.Catalogue where
  entries := [
    ("org", some (taggedItem Inventory.ResourceType.subnet "cidrBlock" "10.0.8.0/24" [web, live])),
    ("org", some (taggedItem Inventory.ResourceType.machine "privateIpAddress" "10.0.8.1" [web])),
    ("org", none),
    ("org", some (taggedItem Inventory.ResourceType.machine "privateIpAddress" "10.0.8.2"
      [live, web]))]
  outage := none
  queries := []

end Sample

namespace Resolver

open Inventory

/-- The second tag leaves a machine out, and it may as well come first and be repeated. -/
theorem resolveBy_tagged_site :
    (∃ r r', ((resolveBy standard (Catalogue.source "org") none
          (Sample.declaring [Sample.web])).perform Sample.site).1 = .ok r ∧
        ((resolveBy standard (Catalogue.source "org") none
          (Sample.declaring [Sample.web, Sample.live])).perform Sample.site).1 = .ok r' ∧
        r.addresses = ["10.0.8.0/24", "10.0.8.1", "10.0.8.2"] ∧
        r'.addresses.Sublist r.addresses) ∧
    ∃ r r', ((resolveBy standard (Catalogue.source "org") none
          (Sample.declaring [Sample.web, Sample.live])).perform Sample.site).1 = .ok r ∧
        ((resolveBy standard (Catalogue.source "org") none
          (Sample.declaring [Sample.live, Sample.web, Sample.live])).perform Sample.site).1 = .ok r' ∧
        r.addresses = ["10.0.8.0/24", "10.0.8.2"] ∧ r'.addresses = r.addresses := by
  have htagged : tagged ∈ standard := by decide
  constructor
  · obtain ⟨-, -, h⟩ := @resolveBy_tagged standard "org" "org" none
      (Sample.declaring [Sample.web]) [Sample.web] htagged rfl rfl Sample.site
    obtain ⟨r, hr, haddresses, hmore⟩ := h (List.cons_ne_nil _ _) rfl
    obtain ⟨r', hr', hsub, -⟩ := hmore (Sample.declaring [Sample.web, Sample.live]) _ rfl (by decide)
    exact ⟨r, r', congrArg Prod.fst hr, congrArg Prod.fst hr', haddresses.trans (by decide), hsub⟩
  · obtain ⟨-, -, h⟩ := @resolveBy_tagged standard "org" "org" none
      (Sample.declaring [Sample.web, Sample.live]) _ htagged rfl rfl Sample.site
    obtain ⟨r, hr, haddresses, hmore⟩ := h (List.cons_ne_nil _ _) rfl
    obtain ⟨r', hr', -, heq⟩ :=
      hmore (Sample.declaring [Sample.live, Sample.web, Sample.live]) _ rfl (by decide)
    exact ⟨r, r', congrArg Prod.fst hr, congrArg Prod.fst hr', haddresses.trans (by decide),
      heq (by decide)⟩

end Resolver

end Firewall
