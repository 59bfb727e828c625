/-
# What is taken from rows

An inventory may answer with rows of any shape.  What resolving takes from a row, it takes from the
object under its configuration; so a row without such an object is passed over, wherever it stands.

* `Inventory.hasConfiguration`, `solid` : the rows that are not passed over;
* `Inventory.Noise`, `Noise.filter_eq` : entries put in or taken out that do not count;
* `Inventory.SeesSolid` : ways of reading rows that pass over all others;
* `Resolver.seesSolid_privateAddresses`, `seesSolid_machinesInService`, … : the resolvers read rows
  in no other way.
-/
import Firewall.Resolver.Lookup

namespace Firewall

namespace Inventory

/-! ## Rows with a configuration -/

/-- Whether a row is an object that has an object as its configuration. -/
def hasConfiguration (row : Json) : Bool :=
  match row.get? "configuration" with
  | some (.object _) => true
  | _ => false

/-- The rows that have a configuration. -/
def solid (rows : List Json) : List Json := rows.filter hasConfiguration

theorem solid_cons_of_not {row : Json} (h : hasConfiguration row = false) (rows : List Json) :
    solid (row :: rows) = solid rows :=
  List.filter_cons_of_neg (by rw [h]; exact Bool.false_ne_true)

/-! ## Noise -/

/-- A list after entries were put in or taken out, at any places, none of which counts. -/
inductive Noise {α : Type} (counts : α → Bool) : List α → List α → Prop
  | nil : Noise counts [] []
  | keep {xs ys : List α} (x : α) (h : Noise counts xs ys) : Noise counts (x :: xs) (x :: ys)
  | insert {xs ys : List α} {x : α} (hx : counts x = false) (h : Noise counts xs ys) :
      Noise counts xs (x :: ys)
  | delete {xs ys : List α} {x : α} (hx : counts x = false) (h : Noise counts xs ys) :
      Noise counts (x :: xs) ys

section Noise

variable {α β : Type} {counts : α → Bool} {xs ys : List α}

/-- **Noise leaves the entries that count as they are**, in the same order. -/
theorem Noise.filter_eq (h : Noise counts xs ys) : xs.filter counts = ys.filter counts := by
  induction h with
  | nil => rfl
  | keep x _ ih => rw [List.filter_cons, List.filter_cons, ih]
  | insert hx _ ih => rw [List.filter_cons_of_neg (by rw [hx]; exact Bool.false_ne_true), ih]
  | delete hx _ ih => rw [List.filter_cons_of_neg (by rw [hx]; exact Bool.false_ne_true), ih]

/-- What does not count gives nothing that counts. -/
theorem Noise.filterMap {counts' : β → Bool} {f : α → Option β}
    (hf : ∀ x y, counts x = false → f x = some y → counts' y = false) (h : Noise counts xs ys) :
    Noise counts' (xs.filterMap f) (ys.filterMap f) := by
  induction h with
  | nil => exact .nil
  | keep x _ ih =>
    cases hx : f x with
    | none => rwa [List.filterMap_cons_none hx, List.filterMap_cons_none hx]
    | some y =>
      rw [List.filterMap_cons_some hx, List.filterMap_cons_some hx]
      exact .keep y ih
  | @insert _ _ x hx _ ih =>
    cases hy : f x with
    | none => rwa [List.filterMap_cons_none hy]
    | some y =>
      rw [List.filterMap_cons_some hy]
      exact .insert (hf x y hx hy) ih
  | @delete _ _ x hx _ ih =>
    cases hy : f x with
    | none => rwa [List.filterMap_cons_none hy]
    | some y =>
      rw [List.filterMap_cons_some hy]
      exact .delete (hf x y hx hy) ih

end Noise

/-! ## Reading rows -/

/-- Reading rows this way passes over all that have no configuration. -/
def SeesSolid {α : Type} (read : List Json → α) : Prop := ∀ rows, read (solid rows) = read rows

section SeesSolid

variable {α : Type}

/-- Rows that differ by nothing but noise are read alike. -/
theorem SeesSolid.eq {read : List Json → α} (h : SeesSolid read) {rows rows' : List Json}
    (hrows : solid rows = solid rows') : read rows = read rows' := by
  rw [← h rows, hrows, h rows']

theorem seesSolid_flatMap {f : Json → List α}
    (hf : ∀ row, hasConfiguration row = false → f row = []) : SeesSolid (List.flatMap f) := by
  intro rows
  induction rows with
  | nil => rfl
  | cons row rows ih =>
    cases hrow : hasConfiguration row with
    | true =>
      rw [solid, List.filter_cons_of_pos hrow, List.flatMap_cons, List.flatMap_cons, ← ih, solid]
    | false => rw [solid_cons_of_not hrow, ih, List.flatMap_cons, hf row hrow, List.nil_append]

theorem seesSolid_filterMap {f : Json → Option α}
    (hf : ∀ row, hasConfiguration row = false → f row = none) :
    SeesSolid (List.filterMap f) := by
  intro rows
  rw [solid, List.filterMap_filter]
  congr 1
  funext row
  cases hrow : hasConfiguration row with
  | true => rw [if_pos rfl]
  | false => rw [if_neg Bool.false_ne_true, hf row hrow]

end SeesSolid

/-- A row without a configuration has no field in it. -/
theorem field_of_not_hasConfiguration {row : Json} (h : hasConfiguration row = false)
    (field : String) : ((row.get? "configuration").bind fun c => c.get? field) = none := by
  unfold hasConfiguration at h
  split at h
  · cases h
  · next hconfiguration =>
    rw [Option.bind_eq_none_iff]
    intro c hc
    cases c with
    | object members => exact absurd hc (hconfiguration members)
    | _ => rfl

theorem configured?_of_not_hasConfiguration {row : Json} (h : hasConfiguration row = false)
    (field : String) : configured? row field = none := by
  rw [configured?, field_of_not_hasConfiguration h]
  rfl

end Inventory

namespace Resolver

open Inventory

/-! ## What the resolvers read -/

theorem seesSolid_privateAddresses : SeesSolid privateAddresses :=
  seesSolid_filterMap fun _ hrow => configured?_of_not_hasConfiguration hrow _

theorem seesSolid_cidrBlocks : SeesSolid cidrBlocks :=
  seesSolid_filterMap fun _ hrow => configured?_of_not_hasConfiguration hrow _

theorem seesSolid_addressesOrBlocks : SeesSolid addressesOrBlocks := by
  refine seesSolid_filterMap fun row hrow => ?_
  rw [configured?_of_not_hasConfiguration hrow, configured?_of_not_hasConfiguration hrow]
  rfl

theorem seesSolid_machinesInService : SeesSolid machinesInService := by
  have hitems : SeesSolid (List.flatMap fun row => configuredItems row "instances") := by
    refine seesSolid_flatMap fun row hrow => ?_
    rw [configuredItems, field_of_not_hasConfiguration hrow]
    rfl
  exact fun rows => congrArg (List.filterMap inService?) (hitems rows)

theorem seesSolid_attachmentIds (field : String) :
    SeesSolid (List.flatMap (attachmentIds field)) := by
  refine seesSolid_flatMap fun row hrow => ?_
  rw [attachmentIds, field_of_not_hasConfiguration hrow]
  rfl

theorem seesSolid_ofRows : SeesSolid VpcAttachment.ofRows := by
  intro rows
  rw [VpcAttachment.ofRows, VpcAttachment.ofRows, seesSolid_attachmentIds _ rows,
    seesSolid_attachmentIds _ rows]

end Resolver

end Firewall
