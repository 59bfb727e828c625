/-
# Records read back

A record is written as an object with one member for each field, and read from it field by field.
What a field is read from is the document under its name, so reading a record back comes down to its
fields.

* `Json.Record.of` : the fields found in an object as it was written;
* `Json.Record.ofDraft?_ofJson` : an object is read as a record of its members;
* `Json.Record.ofDraft?_closed_eq_some_iff` : which objects are read as a record without more members;
* `Json.Record.field_of`, `fieldOr_of`, `option_of` : one field;
* `Json.Reading.natBelow_ofNat` : numbers below a bound;
* `Json.Reading.listOf_ofJson`, `nullable_ofJson` : lists, and values that may be null.
-/
import Firewall.Proofs.Json.RoundTrip

namespace Firewall

namespace Json

namespace Draft

theorem ofItems_eq_map (items : List Json) : ofItems items = items.map ofJson := by
  induction items with
  | nil => rfl
  | cons x xs ih => rw [ofItems, ih, List.map_cons]

end Draft

/-! ## Integral lists -/

/-- Items written from values are integral if the document of each value is. -/
theorem allIntegral_map {α : Type} {write : α → Json} {xs : List α}
    (h : ∀ x ∈ xs, (write x).isIntegral = true) : allIntegral (xs.map write) = true := by
  induction xs with
  | nil => rfl
  | cons x xs ih =>
    rw [List.map_cons, allIntegral, h x List.mem_cons_self,
      ih fun y hy => h y (List.mem_cons_of_mem x hy)]
    rfl

theorem isIntegral_ofTexts (xs : List String) : (ofTexts xs).isIntegral = true :=
  allIntegral_map fun _ _ => rfl

theorem isIntegral_ofNat {n : Nat} (h : n < UInt64.size) : (ofNat n).isIntegral = true := by
  unfold ofNat isIntegral Number.inRange
  rw [Bool.and_eq_true, decide_eq_true_eq, decide_eq_true_eq]
  omega

theorem membersIntegral_append (ms ms' : List (String × Json)) :
    membersIntegral (ms ++ ms') = (membersIntegral ms && membersIntegral ms') := by
  induction ms with
  | nil => rfl
  | cons m ms ih => rw [List.cons_append, membersIntegral, membersIntegral, ih, Bool.and_assoc]

/-- A member for a value that may be missing is integral if the document of the value is. -/
theorem membersIntegral_memberOf {α : Type} {name : String} {write : α → Json} {value : Option α}
    (h : ∀ a ∈ value, (write a).isIntegral = true) :
    membersIntegral (memberOf name write value) = true := by
  cases value with
  | none => rfl
  | some a => rw [memberOf, membersIntegral, h a rfl, membersIntegral, Bool.and_self]

/-! ## Values -/

namespace Reading

variable {α : Type}

theorem text_ofJson (levels : Nat) (s : String) :
    text levels (Draft.ofJson (.string s)) = some s := rfl

/-- A text is read from nothing but a text. -/
theorem text_ofJson_eq_some_iff {levels : Nat} {j : Json} {s : String} :
    text levels (Draft.ofJson j) = some s ↔ j = .string s := by
  cases j <;> simp [Draft.ofJson, text]

/-- A number is read from its document if it is below the bound. -/
theorem natBelow_ofNat {bound n : Nat} (h : n < bound) (levels : Nat) :
    natBelow bound levels (Draft.ofJson (ofNat n)) = some n := by
  unfold natBelow ofNat Draft.ofJson
  simp only
  rw [if_pos (by omega), Int.toNat_natCast]

theorem word64_ofNat (levels : Nat) (n : UInt64) :
    word64 levels (Draft.ofJson (ofNat n.toNat)) = some n := by
  rw [word64, natBelow_ofNat n.toNat_lt, Option.map_some, UInt64.ofNat_toNat]

theorem word16_ofNat (levels : Nat) (n : UInt16) :
    word16 levels (Draft.ofJson (ofNat n.toNat)) = some n := by
  rw [word16, natBelow_ofNat n.toNat_lt, Option.map_some, UInt16.ofNat_toNat]

/-- A list is read from the documents of its entries. -/
theorem listOf_ofJson {read : Reading α} {write : α → Json} {levels : Nat} {xs : List α}
    (h : ∀ x ∈ xs, read levels (Draft.ofJson (write x)) = some x) :
    listOf read (levels + 1) (Draft.ofJson (.array (xs.map write))) = some xs := by
  rw [Draft.ofJson, Draft.ofItems_eq_map, listOf, List.map_map, List.mapM_map]
  induction xs with
  | nil => rfl
  | cons x xs ih =>
    rw [List.mapM_cons, ih fun y hy => h y (List.mem_cons_of_mem x hy)]
    simp only [Function.comp_apply, h x List.mem_cons_self]
    rfl

/-- A list of texts is read from its document. -/
theorem listOf_text_ofTexts (levels : Nat) (xs : List String) :
    listOf text (levels + 1) (Draft.ofJson (ofTexts xs)) = some xs :=
  listOf_ofJson fun x _ => text_ofJson levels x

/-- The entries of a list that was read were read one level below it. -/
theorem exists_of_listOf {read : Reading α} {levels : Nat} {d : Draft} {xs : List α}
    (h : listOf read levels d = some xs) :
    ∃ levels', levels = levels' + 1 ∧ ∀ x ∈ xs, ∃ d', read levels' d' = some x := by
  unfold listOf at h
  split at h
  · next levels' items =>
    refine ⟨levels', rfl, ?_⟩
    induction items generalizing xs with
    | nil =>
      cases h
      intro x hx
      cases hx
    | cons d' items ih =>
      rw [List.mapM_cons] at h
      obtain ⟨y, hy, h⟩ := Option.bind_eq_some_iff.1 h
      obtain ⟨ys, hys, h⟩ := Option.bind_eq_some_iff.1 h
      cases h
      intro x hx
      rcases List.mem_cons.1 hx with rfl | hx
      · exact ⟨d', hy⟩
      · exact ih hys x hx
  · cases h

/-- A value whose document is not null is read as one that is there. -/
theorem nullable_ofJson {read : Reading α} {levels : Nat} {j : Json} {a : α} (hj : j ≠ .null)
    (h : read levels (Draft.ofJson j) = some a) :
    nullable read levels (Draft.ofJson j) = some (some a) := by
  rw [nullable.eq_def]
  split
  · next heq =>
    cases j with
    | null => exact absurd rfl hj
    | _ => cases heq
  · rw [h]
    rfl

end Reading

/-! ## Members that may be missing -/

section Optional

variable {α : Type} (name : String) (write : α → Json) (value : Option α)

theorem keys_memberOf_sublist : ((memberOf name write value).map (·.1)).Sublist [name] := by
  cases value with
  | none => exact List.nil_sublist _
  | some a => exact List.Sublist.refl _

theorem lookup_memberOf_self : (memberOf name write value).lookup name = value.map write := by
  cases value with
  | none => rfl
  | some a => simp [memberOf]

theorem lookup_memberOf_of_ne {name' : String} (h : name' ≠ name) :
    (memberOf name write value).lookup name' = none := by
  cases value with
  | none => rfl
  | some a => simp [memberOf, h]

end Optional

/-! ## Fields -/

namespace Record

variable {α : Type}

/-- The fields found in an object with some members, as it was written. -/
def of (levels : Nat) (members : List (String × Json)) : Record where
  levels
  positional := false
  found := members.map fun m => (m.1, Draft.ofJson m.2)

theorem namedMembers_ofMembers (members : List (String × Json)) :
    namedMembers (Draft.ofMembers members) =
      some (members.map fun m => (m.1, Draft.ofJson m.2)) := by
  induction members with
  | nil => rfl
  | cons m ms ih =>
    rw [Draft.ofMembers, namedMembers, ih]
    rfl

/-- **An object is read as a record** of its members, if they are some of the fields in their
order. -/
theorem ofDraft?_ofJson {fields : List String} {members : List (String × Json)}
    (hfields : fields.Nodup) (hmembers : (members.map (·.1)).Sublist fields) (closed : Bool)
    (levels : Nat) :
    ofDraft? fields closed (levels + 1) (Draft.ofJson (.object members)) =
      some (of levels members) := by
  have hknown : ((members.map fun m => (m.1, Draft.ofJson m.2)).filter fun m =>
      fields.contains m.1) = members.map fun m => (m.1, Draft.ofJson m.2) := by
    rw [List.filter_eq_self]
    intro m hm
    obtain ⟨m', hm', rfl⟩ := List.mem_map.1 hm
    simpa using hmembers.subset (List.mem_map_of_mem hm')
  have hnodup : ((members.map fun m => (m.1, Draft.ofJson m.2)).map (·.1)).Nodup := by
    rw [List.map_map]
    exact hfields.sublist hmembers
  rw [Draft.ofJson, ofDraft?, namedMembers_ofMembers, Option.bind_some]
  simp only [hknown]
  rw [if_pos ⟨hnodup, fun _ => trivial⟩]
  rfl

/-- **A closed record is read** from an object if its members are all fields, and none is given
twice. -/
theorem ofDraft?_closed_eq_some_iff {fields : List String} {members : List (String × Json)}
    {levels : Nat} {r : Record} :
    ofDraft? fields true (levels + 1) (Draft.ofJson (.object members)) = some r ↔
      (members.map (·.1)).Nodup ∧ (∀ m ∈ members, m.1 ∈ fields) ∧ of levels members = r := by
  have hkeys : (members.map fun m => (m.1, Draft.ofJson m.2)).map (·.1) = members.map (·.1) := by
    rw [List.map_map]
    rfl
  have hall : (∀ m ∈ members.map fun m => (m.1, Draft.ofJson m.2), fields.contains m.1 = true) ↔
      ∀ m ∈ members, m.1 ∈ fields := by
    simp only [List.forall_mem_map, List.contains_iff_mem]
  rw [Draft.ofJson, ofDraft?, namedMembers_ofMembers, Option.bind_some, Option.ite_none_right_eq_some]
  simp only [forall_const, List.length_filter_eq_length_iff, hall]
  constructor
  · rintro ⟨⟨hnodup, hmembers⟩, hr⟩
    rw [List.filter_eq_self.2 (hall.2 hmembers)] at hnodup hr
    rw [hkeys] at hnodup
    exact ⟨hnodup, hmembers, Option.some.inj hr⟩
  · rintro ⟨hnodup, hmembers, rfl⟩
    rw [List.filter_eq_self.2 (hall.2 hmembers), hkeys]
    exact ⟨⟨hnodup, hmembers⟩, rfl⟩

/-- A record takes up one level. -/
theorem levels_of_ofDraft? {fields : List String} {closed : Bool} {levels : Nat} {d : Draft}
    {r : Record} (h : ofDraft? fields closed levels d = some r) : levels = r.levels + 1 := by
  unfold ofDraft? at h
  split at h
  · obtain ⟨ms, -, h⟩ := Option.bind_eq_some_iff.1 h
    simp only at h
    split at h
    · cases h; rfl
    · cases h
  · split at h
    · cases h; rfl
    · cases h
  · cases h

/-- What is found under a name is the document there. -/
theorem lookup_found_of (levels : Nat) (members : List (String × Json)) (name : String) :
    (of levels members).found.lookup name = (members.lookup name).map Draft.ofJson := by
  unfold of
  induction members with
  | nil => rfl
  | cons m ms ih =>
    obtain ⟨k, v⟩ := m
    simp only [List.map_cons, List.lookup_cons] at ih ⊢
    split
    · rfl
    · exact ih

section Fields

variable {levels : Nat} {members : List (String × Json)} {name : String} {read : Reading α} {a : α}

/-- A field that holds a text. -/
theorem field_text_of_eq_some_iff {s : String} :
    (of levels members).field name Reading.text = some s ↔
      members.lookup name = some (.string s) := by
  rw [field, lookup_found_of, Option.bind_map, Option.bind_eq_some_iff]
  simp only [Function.comp_apply, of, Reading.text_ofJson_eq_some_iff, exists_eq_right]

theorem field_of {j : Json} (hj : members.lookup name = some j)
    (h : read levels (Draft.ofJson j) = some a) : (of levels members).field name read = some a := by
  rw [field, lookup_found_of, hj]
  exact h

theorem fieldOr_of {j : Json} {default : α} (hj : members.lookup name = some j)
    (h : read levels (Draft.ofJson j) = some a) :
    (of levels members).fieldOr name default read = some a := by
  rw [fieldOr, lookup_found_of, hj]
  exact h

theorem fieldOr_of_none {default : α} (hj : members.lookup name = none) :
    (of levels members).fieldOr name default read = some default := by
  rw [fieldOr, lookup_found_of, hj]
  rfl

/-- A field that is left out if there is no value. -/
theorem fieldOr_of_memberOf {write : α → Json} {value : Option α}
    (hj : members.lookup name = value.map write) (hnull : ∀ a, write a ≠ .null)
    (h : ∀ a ∈ value, read levels (Draft.ofJson (write a)) = some a) :
    (of levels members).fieldOr name none (Reading.nullable read) = some value := by
  cases value with
  | none => exact fieldOr_of_none hj
  | some a => exact fieldOr_of hj (Reading.nullable_ofJson (hnull a) (h a rfl))

/-- A field that is null if there is no value. -/
theorem option_of {write : α → Json} {value : Option α}
    (hj : members.lookup name = some (ofOption write value)) (hnull : ∀ a, write a ≠ .null)
    (h : ∀ a ∈ value, read levels (Draft.ofJson (write a)) = some a) :
    (of levels members).option name read = some value := by
  rw [option, lookup_found_of, hj]
  cases value with
  | none => rfl
  | some a => exact Reading.nullable_ofJson (hnull a) (h a rfl)

end Fields

/-- A key and a value are found as they were written. -/
theorem ofDraft?_keyValue (closed : Bool) (levels : Nat) (key value : String) :
    ∃ r, ofDraft? ["key", "value"] closed (levels + 1)
        (Draft.ofJson (.object [("key", .string key), ("value", .string value)])) = some r ∧
      r.field "key" Reading.text = some key ∧ r.field "value" Reading.text = some value := by
  refine ⟨of levels [("key", .string key), ("value", .string value)], ?_, ?_, ?_⟩
  · exact ofDraft?_ofJson (by decide) (by exact List.Sublist.refl _) closed levels
  · exact field_of rfl (Reading.text_ofJson levels key)
  · exact field_of rfl (Reading.text_ofJson levels value)

end Record

end Json

end Firewall
