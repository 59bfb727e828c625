/-
# Drafts

A draft is a document as it was written, before it is known which of its parts will be used: keys
keep their order and may repeat, a text may name half of a surrogate pair, a number may be too
large.  Such faults count only where the part is used, and so does the limit on nesting; a part
that nobody asks for may hold them.

* `Json.Draft.settle` : the document a draft stands for, the last of repeated keys winning;
* `Json.Draft.isOrdered_of_settle` : that document is ordered.
-/
import Firewall.Json.Basic

namespace Firewall

namespace Json

/-- A document as written.  `number none` is a number beyond the range of numbers, `string none`
a text with half of a surrogate pair. -/
inductive Draft
  | null
  | bool (b : Bool)
  | number (n : Option Number)
  | string (s : Option String)
  | array (items : List Draft)
  | object (members : List (Option String × Draft))

namespace Draft

instance : Inhabited Draft := ⟨.null⟩

mutual

/-- The draft that a document is written as. -/
def ofJson : Json → Draft
  | .null => .null
  | .bool b => .bool b
  | .number n => .number (some n)
  | .string s => .string (some s)
  | .array items => .array (ofItems items)
  | .object members => .object (ofMembers members)
termination_by structural x => x

/-- The drafts that items are written as. -/
def ofItems : List Json → List Draft
  | [] => []
  | x :: xs => ofJson x :: ofItems xs
termination_by structural xs => xs

/-- The drafts that members are written as. -/
def ofMembers : List (String × Json) → List (Option String × Draft)
  | [] => []
  | (k, v) :: ms => (some k, ofJson v) :: ofMembers ms
termination_by structural ms => ms

end

/-! ## Settling a draft -/

mutual

/-- The document a draft stands for, when arrays and objects may still be nested `levels` deep. -/
def settle (levels : Nat) : Draft → Option Json
  | .null => some .null
  | .bool b => some (.bool b)
  | .number none => none
  | .number (some n) => if n.inRange then some (.number n) else none
  | .string s => s.map .string
  | .array items =>
    if levels = 0 then none else (settleItems (levels - 1) items).map .array
  | .object members =>
    if levels = 0 then none else (settleMembers (levels - 1) [] members).map .object
termination_by structural x => x

/-- The documents of items. -/
def settleItems (levels : Nat) : List Draft → Option (List Json)
  | [] => some []
  | x :: xs =>
    match settle levels x, settleItems levels xs with
    | some j, some js => some (j :: js)
    | _, _ => none
termination_by structural xs => xs

/-- The members of an object in key order, set one after the other into those already there. -/
def settleMembers (levels : Nat) (done : List (String × Json)) :
    List (Option String × Draft) → Option (List (String × Json))
  | [] => some done
  | (none, _) :: _ => none
  | (some k, v) :: ms =>
    match settle levels v with
    | some j => settleMembers levels (insertMember k j done) ms
    | none => none
termination_by structural ms => ms

end

mutual

/-- What a draft settles to is ordered. -/
theorem isOrdered_of_settle {levels : Nat} {d : Draft} {j : Json}
    (h : settle levels d = some j) : j.isOrdered = true := by
  match d with
  | .null => cases h; rfl
  | .bool b => cases h; rfl
  | .number none => simp [settle] at h
  | .number (some n) =>
    simp only [settle] at h
    split at h
    · next hn => cases h; exact hn
    · simp at h
  | .string none => simp [settle] at h
  | .string (some s) => cases h; rfl
  | .array items =>
    simp only [settle] at h
    split at h
    · simp at h
    · obtain ⟨js, hjs, rfl⟩ := Option.map_eq_some_iff.1 h
      exact allOrdered_of_settleItems hjs
  | .object members =>
    simp only [settle] at h
    split at h
    · simp at h
    · obtain ⟨ms, hms, rfl⟩ := Option.map_eq_some_iff.1 h
      have := ordered_of_settleMembers hms rfl rfl
      simp [isOrdered, this.1, this.2]
termination_by structural d

/-- What items settle to is ordered. -/
theorem allOrdered_of_settleItems {levels : Nat} {ds : List Draft} {js : List Json}
    (h : settleItems levels ds = some js) : allOrdered js = true := by
  match ds with
  | [] => cases h; rfl
  | d :: ds =>
    simp only [settleItems] at h
    split at h
    · next j js' hj hjs =>
      cases h
      simp [allOrdered, isOrdered_of_settle hj, allOrdered_of_settleItems hjs]
    · simp at h
termination_by structural ds

/-- Members set into ordered members are ordered. -/
theorem ordered_of_settleMembers {levels : Nat} {ds : List (Option String × Draft)}
    {done ms : List (String × Json)} (h : settleMembers levels done ds = some ms)
    (hk : keysIncrease done = true) (hv : membersOrdered done = true) :
    keysIncrease ms = true ∧ membersOrdered ms = true := by
  match ds with
  | [] => cases h; exact ⟨hk, hv⟩
  | (none, _) :: _ => simp [settleMembers] at h
  | (some k, v) :: ds =>
    simp only [settleMembers] at h
    split at h
    · next j hj =>
      exact ordered_of_settleMembers h (keysIncrease_insertMember k j done hk)
        (membersOrdered_insertMember k j done (isOrdered_of_settle hj) hv)
    · simp at h
termination_by structural ds

end

/-- The ordered document a draft stands for. -/
def ordered? (levels : Nat) (d : Draft) : Option Ordered :=
  match h : settle levels d with
  | some j => some ⟨j, isOrdered_of_settle h⟩
  | none => none

end Draft

end Json

end Firewall
