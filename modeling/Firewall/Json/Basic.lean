/-
# Documents

A document is a tree of nulls, truth values, numbers, texts, arrays and objects.  Objects are lists
of members, so a record can be written in its own field order; a document whose objects are in
increasing key order is called *ordered*, and `Json.Ordered` is the type of those.

* `Json.get?`, `Json.text?`, `Json.items?` : looking into a document;
* `Json.insertMember` : setting one member of an ordered object;
* `Json.Ordered` : documents with one form per value, used for values that are kept as they came.
-/
import Firewall.Binary64

namespace Firewall

/-- A number of a document: an integer, or a floating-point number. -/
inductive Json.Number
  | integer (n : Int)
  | float (x : Binary64)
  deriving DecidableEq

/-- A document. -/
inductive Json
  | null
  | bool (b : Bool)
  | number (n : Json.Number)
  | string (s : String)
  | array (items : List Json)
  | object (members : List (String × Json))

instance : Inhabited Json := ⟨.null⟩

namespace Json

/-! ## Looking into a document -/

/-- The member of that name; nothing for anything but an object. -/
def get? (name : String) : Json → Option Json
  | .object members => members.lookup name
  | _ => none

/-- The text, for a text. -/
def text? : Json → Option String
  | .string s => some s
  | _ => none

/-- The items, for an array. -/
def items? : Json → Option (List Json)
  | .array items => some items
  | _ => none

/-- A document for a natural number. -/
def ofNat (n : Nat) : Json := .number (.integer n)

/-- A document for a list of texts. -/
def ofTexts (xs : List String) : Json := .array (xs.map .string)

@[simp] theorem get?_object (name : String) (members : List (String × Json)) :
    (Json.object members).get? name = members.lookup name := rfl

@[simp] theorem text?_string (s : String) : (Json.string s).text? = some s := rfl

@[simp] theorem items?_array (items : List Json) : (Json.array items).items? = some items := rfl

theorem text?_eq_some_iff {d : Json} {s : String} : d.text? = some s ↔ d = .string s := by
  cases d <;> simp [text?]

theorem items?_eq_some_iff {d : Json} {items : List Json} :
    d.items? = some items ↔ d = .array items := by
  cases d <;> simp [items?]

/-! ## Ordered documents -/

/-- Whether the keys of an object stand in strictly increasing order. -/
def keysIncrease : List (String × Json) → Bool
  | [] => true
  | [_] => true
  | (k, _) :: (k', v') :: rest => decide (k < k') && keysIncrease ((k', v') :: rest)

/-- Whether an integer fits 64 bits, with a sign or without. -/
def Number.inRange : Number → Bool
  | .integer n => decide (-9223372036854775808 ≤ n) && decide (n < UInt64.size)
  | .float _ => true

mutual

/-- Whether every object below has its keys in strictly increasing order and every integer fits
64 bits. -/
def isOrdered : Json → Bool
  | .null => true
  | .bool _ => true
  | .number n => n.inRange
  | .string _ => true
  | .array items => allOrdered items
  | .object members => keysIncrease members && membersOrdered members
termination_by structural x => x

/-- Whether every item is ordered. -/
def allOrdered : List Json → Bool
  | [] => true
  | x :: xs => isOrdered x && allOrdered xs
termination_by structural xs => xs

/-- Whether every member's value is ordered. -/
def membersOrdered : List (String × Json) → Bool
  | [] => true
  | (_, v) :: ms => isOrdered v && membersOrdered ms
termination_by structural ms => ms

end

/-- A document with its objects in key order and its integers in range. -/
structure Ordered where
  doc : Json
  ordered : doc.isOrdered = true

/-- The members of an ordered object with one of them set. -/
def insertMember (key : String) (value : Json) : List (String × Json) → List (String × Json)
  | [] => [(key, value)]
  | (k, v) :: rest =>
    if key < k then (key, value) :: (k, v) :: rest
    else if key = k then (k, value) :: rest
    else (k, v) :: insertMember key value rest

/-- The null document. -/
def Ordered.null : Ordered := ⟨.null, rfl⟩

instance : Inhabited Ordered := ⟨Ordered.null⟩

/-! ## Setting members keeps the order -/

/-- The order condition on a nonempty object, read off its first member. -/
theorem keysIncrease_cons (k : String) (v : Json) (ms : List (String × Json)) :
    keysIncrease ((k, v) :: ms) = true ↔
      (∀ m ∈ ms.head?, k < m.1) ∧ keysIncrease ms = true := by
  cases ms with
  | nil => simp [keysIncrease]
  | cons m ms => obtain ⟨k', v'⟩ := m; simp [keysIncrease]

/-- The first key after setting one is the new key or the old first key. -/
theorem head?_insertMember (key : String) (value : Json) (ms : List (String × Json)) :
    ∀ m ∈ (insertMember key value ms).head?, m.1 = key ∨ ∃ m' ∈ ms.head?, m.1 = m'.1 := by
  cases ms with
  | nil => simp [insertMember]
  | cons m ms =>
    obtain ⟨k, v⟩ := m
    simp only [insertMember]
    split
    · simp
    · split <;> simp

/-- Setting a member keeps the keys in strictly increasing order. -/
theorem keysIncrease_insertMember (key : String) (value : Json) (ms : List (String × Json))
    (h : keysIncrease ms = true) : keysIncrease (insertMember key value ms) = true := by
  induction ms with
  | nil => rfl
  | cons m ms ih =>
    obtain ⟨k, v⟩ := m
    obtain ⟨hk, hms⟩ := (keysIncrease_cons k v ms).1 h
    simp only [insertMember]
    split
    · next hlt => simpa [keysIncrease, hlt] using h
    · next hnlt =>
      split
      · next heq => exact (keysIncrease_cons k value ms).2 ⟨hk, hms⟩
      · next hne =>
        refine (keysIncrease_cons k v _).2 ⟨?_, ih hms⟩
        intro m hm
        rcases head?_insertMember key value ms m hm with h1 | ⟨m', hm', h1⟩
        · rw [h1]
          rcases Std.lt_trichotomy key k with hlt | heq | hgt
          · exact absurd hlt hnlt
          · exact absurd heq hne
          · exact hgt
        · rw [h1]; exact hk m' hm'

/-- Setting a member to an ordered value keeps every value ordered. -/
theorem membersOrdered_insertMember (key : String) (value : Json) (ms : List (String × Json))
    (hv : value.isOrdered = true) (h : membersOrdered ms = true) :
    membersOrdered (insertMember key value ms) = true := by
  induction ms with
  | nil => simp [insertMember, membersOrdered, hv]
  | cons m ms ih =>
    obtain ⟨k, v⟩ := m
    simp only [membersOrdered, Bool.and_eq_true] at h
    simp only [insertMember]
    split
    · simp [membersOrdered, hv, h.1, h.2]
    · split
      · simp [membersOrdered, hv, h.2]
      · simp [membersOrdered, h.1, ih h.2]

end Json

end Firewall
