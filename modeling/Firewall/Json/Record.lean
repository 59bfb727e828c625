/-
# Records in documents

A record is written as an object with one member per field, in any order, or as an array of its
fields in their own order.  A field may have a default, and then it may be left out; an optional
field may be left out of an object, and null stands for its absence.

* `Json.Reading` : how a value is read from a draft, within a limit on nesting;
* `Json.Record.ofDraft?` : the fields found in a draft;
* `Json.Record.field`, `fieldOr`, `option` : one field, required, with a default, optional.
-/
import Firewall.Json.Reader
import Firewall.Json.Writer

namespace Firewall

namespace Json

/-- How a value is read from a draft, given how many levels deep the draft may nest. -/
abbrev Reading (α : Type) := Nat → Draft → Option α

namespace Reading

/-! ## Plain values -/

/-- A text. -/
def text : Reading String
  | _, .string s => s
  | _, _ => none

/-- A natural number below a bound, written as an integer. -/
def natBelow (bound : Nat) : Reading Nat
  | _, .number (some (.integer n)) => if 0 ≤ n ∧ n < bound then some n.toNat else none
  | _, _ => none

/-- An unsigned number of 64 bits. -/
def word64 : Reading UInt64 := fun levels d => (natBelow UInt64.size levels d).map UInt64.ofNat

/-- An unsigned number of 16 bits. -/
def word16 : Reading UInt16 := fun levels d => (natBelow UInt16.size levels d).map UInt16.ofNat

/-- Any document, kept as it is. -/
def raw : Reading Ordered := Draft.ordered?

/-- A list of values. -/
def listOf {α : Type} (read : Reading α) : Reading (List α)
  | levels + 1, .array items => items.mapM (read levels)
  | _, _ => none

/-- A value, or null for none. -/
def nullable {α : Type} (read : Reading α) : Reading (Option α)
  | _, .null => some none
  | levels, d => (read levels d).map some

/-- One of several named values: its name, or an object that gives the name the value null. -/
def oneOf {α : Type} (names : List (String × α)) : Reading α
  | _, .string (some s) => names.lookup s
  | _ + 1, .object [(some s, .null)] => names.lookup s
  | _, _ => none

/-- The value that a whole text holds. -/
def ofText? {α : Type} (read : Reading α) (s : String) : Option α :=
  (Draft.ofText? s).bind (read nestingLimit)

/-- The value that a document holds. -/
def ofJson? {α : Type} (read : Reading α) (j : Json) : Option α :=
  read nestingLimit (Draft.ofJson j)

end Reading

/-! ## Records -/

/-- The fields of a record as found in a draft. -/
structure Record where
  /-- How deep the fields may nest. -/
  levels : Nat
  /-- Whether the record was written as an array. -/
  positional : Bool
  found : List (String × Draft)

namespace Record

/-- The members of an object, if every key is a proper text. -/
def namedMembers : List (Option String × Draft) → Option (List (String × Draft))
  | [] => some []
  | (none, _) :: _ => none
  | (some k, v) :: ms => (namedMembers ms).map ((k, v) :: ·)

/-- The record with the given fields that a draft holds.  No field may be given twice; members
with other names are skipped, or refused when the record is `closed`. -/
def ofDraft? (fields : List String) (closed : Bool) : Nat → Draft → Option Record
  | levels + 1, .object members =>
    (namedMembers members).bind fun ms =>
      let known := ms.filter fun m => fields.contains m.1
      if (known.map (·.1)).Nodup ∧ (closed → known.length = ms.length) then
        some ⟨levels, false, known⟩
      else none
  | levels + 1, .array items =>
    if items.length ≤ fields.length then some ⟨levels, true, fields.zip items⟩ else none
  | _, _ => none

/-- A field that must be given. -/
def field {α : Type} (r : Record) (name : String) (read : Reading α) : Option α :=
  (r.found.lookup name).bind (read r.levels)

/-- A field with a default. -/
def fieldOr {α : Type} (r : Record) (name : String) (default : α) (read : Reading α) :
    Option α :=
  match r.found.lookup name with
  | some d => read r.levels d
  | none => some default

/-- A field that may be null, and may be left out unless the record is written as an array. -/
def option {α : Type} (r : Record) (name : String) (read : Reading α) : Option (Option α) :=
  match r.found.lookup name with
  | some d => Reading.nullable read r.levels d
  | none => if r.positional then none else some none

end Record

/-! ## Writing optional fields -/

/-- A member for a value, or none. -/
def memberOf {α : Type} (name : String) (write : α → Json) (value : Option α) :
    List (String × Json) :=
  match value with
  | some a => [(name, write a)]
  | none => []

/-- A document for an optional value, null for none. -/
def ofOption {α : Type} (write : α → Json) : Option α → Json
  | some a => write a
  | none => .null

end Json

end Firewall
