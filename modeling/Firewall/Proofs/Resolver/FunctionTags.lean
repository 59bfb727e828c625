/-
# Stored function tags

The tag of a function object is kept as the document that was stored.  A document is read as a tag in
two forms: an object with a key and a value and no other member, or an array of both texts in this
order.  Anything else is a miss, for which the inventory is not asked.

* `Tag.listing` : a tag as an array;
* `Tag.reading_eq_some_iff` : the documents that are read as a tag;
* `Resolver.resolveBy_functionTag` : which function objects are invalid;
* `Resolver.resolveBy_functionTag_listing` : one that keeps an array is looked up.
-/
import Firewall.Proofs.Json.Ordered
import Firewall.Proofs.Json.Record
import Firewall.Proofs.Resolver.Functions
import Firewall.Proofs.Resolver.Outcome

namespace Firewall

open Inventory

/-! ## Documents that are read as a tag -/

namespace Tag

/-- The tag as an array of its key and its value. -/
def listing (tag : Tag) : Json := .array [.string tag.key, .string tag.value]

/-- Ordered members with two names at most are those under the two names, if there are both. -/
theorem members_eq {members : List (String × Json)} {key value : Json}
    (hordered : Json.keysIncrease members = true)
    (hnames : ∀ m ∈ members, m.1 ∈ ["key", "value"]) (hkey : members.lookup "key" = some key)
    (hvalue : members.lookup "value" = some value) :
    members = [("key", key), ("value", value)] := by
  have hlt : "key" < "value" := by decide
  -- the value comes last, so nothing is greater than its name
  have hlast : ∀ name ∈ ["key", "value"], ¬ "value" < name := by
    simp only [List.forall_mem_cons]
    exact ⟨String.lt_asymm hlt, String.lt_irrefl _, nofun⟩
  rw [Json.keysIncrease_iff_pairwise] at hordered
  match members, hordered with
  | [], _ => cases hkey
  | [(name, v)], _ =>
    rcases List.mem_pair.1 (hnames _ List.mem_cons_self) with rfl | rfl
    · cases hvalue
    · cases hkey
  | (name, v) :: (name', v') :: rest, hordered =>
    obtain ⟨hfirst, hrest⟩ := List.pairwise_cons.1 hordered
    have hnames' := List.forall_mem_cons.1 (List.forall_mem_cons.1 hnames).2
    have hname : name = "key" := by
      rcases List.mem_pair.1 (hnames _ List.mem_cons_self) with h | h
      · exact h
      · exact absurd (h ▸ hfirst _ List.mem_cons_self) (hlast _ hnames'.1)
    have hname' : name' = "value" := by
      rcases List.mem_pair.1 hnames'.1 with h | h
      · have hless := hfirst _ List.mem_cons_self
        rw [hname, h] at hless
        exact absurd hless (String.lt_irrefl _)
      · exact h
    have hnone : rest = [] := by
      rw [List.eq_nil_iff_forall_not_mem]
      intro m hm
      exact hlast _ (hnames'.2 m hm) (hname' ▸ (List.pairwise_cons.1 hrest).1 m hm)
    subst hname hname' hnone
    cases hkey
    cases hvalue
    rfl

/-- An ordered object is read as a tag if it has a key and a value and no other member. -/
theorem reading_object_iff {members : List (String × Json)} {tag : Tag} {levels : Nat}
    (hordered : Json.keysIncrease members = true) :
    reading (levels + 1) (Json.Draft.ofJson (.object members)) = some tag ↔
      Json.object members = tag.toJson := by
  constructor
  · intro h
    obtain ⟨r, hr, h⟩ := Option.bind_eq_some_iff.1 h
    obtain ⟨-, hnames, rfl⟩ := Json.Record.ofDraft?_closed_eq_some_iff.1 hr
    obtain ⟨key, hkey, h⟩ := Option.bind_eq_some_iff.1 h
    obtain ⟨value, hvalue, h⟩ := Option.bind_eq_some_iff.1 h
    cases h
    rw [members_eq hordered hnames (Json.Record.field_text_of_eq_some_iff.1 hkey)
      (Json.Record.field_text_of_eq_some_iff.1 hvalue)]
    rfl
  · intro h
    rw [h]
    obtain ⟨r, hr, hkey, hvalue⟩ := Json.Record.ofDraft?_keyValue true levels tag.key tag.value
    rw [reading, toJson, hr]
    simp only [Option.bind_eq_bind, Option.bind_some, hkey, hvalue]
    rfl

/-- An array is read as a tag if it has two entries, both texts. -/
theorem reading_array_iff {items : List Json} {tag : Tag} {levels : Nat} :
    reading (levels + 1) (Json.Draft.ofJson (.array items)) = some tag ↔
      Json.array items = tag.listing := by
  match items with
  | [] => exact iff_of_false nofun nofun
  | [a] =>
    refine iff_of_false (fun h => ?_) nofun
    change (Json.Reading.text levels (Json.Draft.ofJson a)).bind (fun _ => none) = some tag at h
    obtain ⟨key, -, hnone⟩ := Option.bind_eq_some_iff.1 h
    cases hnone
  | [a, b] =>
    -- the first entry is the key, and the second one the value
    change ((Json.Reading.text levels (Json.Draft.ofJson a)).bind fun key =>
      (Json.Reading.text levels (Json.Draft.ofJson b)).bind fun value =>
        some (Tag.mk key value)) = some tag ↔ _
    obtain ⟨key, value⟩ := tag
    simp [Option.bind_eq_some_iff, Json.Reading.text_ofJson_eq_some_iff, listing]
  | a :: b :: c :: rest => exact iff_of_false nofun nofun

/-- **A document is read as a tag** if it is the tag as an object or as an array. -/
theorem reading_eq_some_iff {raw : Json.Ordered} {tag : Tag} :
    Json.Reading.ofJson? reading raw.doc = some tag ↔
      raw.doc = tag.toJson ∨ raw.doc = tag.listing := by
  obtain ⟨doc, hordered⟩ := raw
  unfold Json.Reading.ofJson? Json.nestingLimit
  dsimp only
  cases doc with
  | object members =>
    rw [Json.isOrdered, Bool.and_eq_true] at hordered
    rw [reading_object_iff hordered.1, or_iff_left]
    exact nofun
  | array items =>
    rw [reading_array_iff, or_iff_right]
    exact nofun
  | _ => exact iff_of_false nofun (by rintro (h | h) <;> cases h)

end Tag

/-! ## Function objects -/

namespace Resolver

section FunctionTag

variable {σ : Type} {chain : List Resolver} (source : Source σ) (bundle : Option Bundle)
  (o : FlowObject)

/-- The reasons of functions that were looked up begin in another way. -/
theorem invalid_ne_append {p : String} (hp : p.toList[0]? = some 'N') (tag : Tag) :
    "Invalid tag value" ≠ p ++ tag.key ++ "=" ++ tag.value := by
  rw [String.append_assoc, String.append_assoc, ← String.append_empty (s := "Invalid tag value")]
  obtain ⟨hlength, -⟩ := List.getElem?_eq_some_iff.1 hp
  exact append_ne_append 0 (by decide) hlength (by rw [hp]; decide) _ _

theorem not_mem_failureReasons_ofAddresses (addresses : List String) {reason reason' : String}
    (h : reason' ≠ reason) :
    reason' ∉ (ResolvedObject.ofAddresses o addresses reason).failureReasons := by
  unfold ResolvedObject.ofAddresses
  split
  · exact fun hmem => h (List.mem_singleton.1 hmem)
  · exact List.not_mem_nil

/-- Functions that are looked up are not reported as invalid. -/
theorem gives_valid_resolveFunctions (tag : Tag) :
    Action.Gives (fun r => "Invalid tag value" ∉ r.failureReasons)
      (resolveFunctions source bundle o tag) := by
  apply Action.gives_bind
  intro rows
  dsimp only
  split
  · refine Action.gives_pure fun hmem => ?_
    exact invalid_ne_append (by decide) tag (List.mem_singleton.1 hmem)
  · apply Action.gives_bind
    intro addresses
    apply Action.gives_pure
    exact not_mem_failureReasons_ofAddresses o addresses (invalid_ne_append (by decide) tag)

/-- **Which function objects are invalid.**  If the stored document is neither an object with a key and
a value and no other member nor an array of both, then the object is missed as invalid, and nothing
is asked.  If it is one of the two, then the functions with this tag are looked up, and the object
is not reported as invalid, whatever the inventory answers. -/
theorem resolveBy_functionTag (hlambda : lambda ∈ chain) {raw : Json.Ordered}
    (ho : o.value = .lambda raw) (s : σ) :
    ((∀ tag : Tag, raw.doc ≠ tag.toJson ∧ raw.doc ≠ tag.listing) →
      (resolveBy chain source bundle o).perform s = (.ok (.missed o "Invalid tag value"), s) ∧
        inquiries chain source bundle o s = []) ∧
    ∀ tag : Tag, raw.doc = tag.toJson ∨ raw.doc = tag.listing →
      resolveBy chain source bundle o = resolveFunctions source bundle o tag ∧
        ∀ r t, (resolveBy chain source bundle o).perform s = (.ok r, t) →
          "Invalid tag value" ∉ r.failureReasons := by
  constructor
  · intro hneither
    have hraw : Json.Reading.ofJson? Tag.reading raw.doc = none := by
      rw [Option.eq_none_iff_forall_ne_some]
      intro tag htag
      rcases Tag.reading_eq_some_iff.1 htag with hobject | harray
      · exact (hneither tag).1 hobject
      · exact (hneither tag).2 harray
    rw [inquiries, resolveBy_of_malformed hlambda ho hraw, resolveBy_of_malformed hlambda ho hraw]
    exact ⟨rfl, rfl⟩
  · intro tag htag
    have hfunctions : resolveBy chain source bundle o = resolveFunctions source bundle o tag := by
      rw [resolveBy_of_lambda source bundle hlambda ho, resolveLambda,
        Tag.reading_eq_some_iff.2 htag]
    rw [hfunctions]
    exact ⟨rfl, fun r t h => gives_valid_resolveFunctions source bundle o tag s r t h⟩

end FunctionTag

end Resolver

/-! ## A text and an array -/

namespace Sample

/-- The tag of an application as one text. -/
def billingText : Json.Ordered := ⟨.string "app=billing", rfl⟩

/-- The tag of an application as an array. -/
def billingListing : Json.Ordered := ⟨(Tag.mk "app" "billing").listing, rfl⟩

end Sample

namespace Resolver

open Inventory

/-- A text is invalid, and an object with the key and the value is not. -/
theorem resolveBy_functionTag_text :
    (resolveBy standard (Catalogue.source "org") none ⟨"o3", .lambda Sample.billingText⟩).perform
        Sample.straight = (.ok (.missed ⟨"o3", .lambda Sample.billingText⟩ "Invalid tag value"),
      Sample.straight) ∧
    inquiries standard (Catalogue.source "org") none ⟨"o3", .lambda Sample.billingText⟩
      Sample.straight = [] ∧
    ∀ r t, (resolveBy standard (Catalogue.source "org") none Sample.billing).perform
      Sample.straight = (.ok r, t) → "Invalid tag value" ∉ r.failureReasons := by
  have hlambda : lambda ∈ standard := by decide
  obtain ⟨hmissed, hsilent⟩ := (resolveBy_functionTag (Catalogue.source "org") none
    ⟨"o3", .lambda Sample.billingText⟩ hlambda rfl Sample.straight).1 fun tag => ⟨nofun, nofun⟩
  exact ⟨hmissed, hsilent, ((resolveBy_functionTag (Catalogue.source "org") none Sample.billing
    hlambda rfl Sample.straight).2 ⟨"app", "billing"⟩ (.inl rfl)).2⟩

/-- An array of a key and a value is no object, but its functions are looked up and found. -/
theorem resolveBy_functionTag_listing :
    (∀ tag : Tag, Sample.billingListing.doc ≠ tag.toJson) ∧
    ((resolveBy standard (Catalogue.source "org") none
      ⟨"o3", .lambda Sample.billingListing⟩).perform Sample.straight).1.map
        ResolvedObject.addresses = .ok ["10.0.9.9"] ∧
    (inquiries standard (Catalogue.source "org") none ⟨"o3", .lambda Sample.billingListing⟩
      Sample.straight).map Inquiry.query = [functionQuery ⟨"app", "billing"⟩,
        interfaceQuery ["sg-a"] [.subnetIn ["subnet-a"], .interfaceType "lambda"]] :=
  ⟨fun tag => nofun, by decide +kernel, by decide +kernel⟩

end Resolver

end Firewall
