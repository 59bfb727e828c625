/-
# Snapshots

A snapshot is what a store holds: bundles, rules and objects, each in the order in which they were
added.  An entry is added under its id, in the place of an entry that has that id already.

* `Store.Snapshot` : the contents of a store;
* `Store.upsert` : adding an entry under its id;
* `Store.Snapshot.page`, `rulesOf`, `objectsWith`, … : what a store is asked;
* `Store.Snapshot.putRules`, `stamp`, … : what is written to it.
-/
import Firewall.Bundle
import Firewall.Decimal
import Firewall.Error
import Firewall.FlowObject
import Firewall.Rule

namespace Firewall

namespace Store

/-! ## Entries under their ids -/

/-- The entries with one more, which takes the place of the first that has its id, or goes to the
end. -/
def upsert {α : Type} (id : α → String) (x : α) : List α → List α
  | [] => [x]
  | y :: ys => if id y = id x then x :: ys else y :: upsert id x ys

/-- The rule in front of the first rule with an id that is not less. -/
def insertById (rule : Rule) : List Rule → List Rule
  | [] => [rule]
  | r :: rs => if r.id < rule.id then r :: insertById rule rs else rule :: r :: rs

/-- Rules in the order of their ids; rules of one id keep their order. -/
def sortById (rules : List Rule) : List Rule := rules.foldr insertById []

/-! ## Snapshots -/

/-- The contents of a store. -/
structure Snapshot where
  bundles : List Bundle
  rules : List Rule
  objects : List FlowObject

/-- Some bundles in storage order, and the token of the next page unless this is the last. -/
structure Page where
  items : List Bundle
  nextToken : Option String
  deriving DecidableEq

namespace Snapshot

/-- The contents of a new store. -/
def empty : Snapshot := ⟨[], [], []⟩

/-! ### Reading -/

/-- The position that a page token stands for: digits with at most one plus sign in front, within
64 bits. -/
def position? (token : String) : Option Nat :=
  (Decimal.unsigned? token.toList).filter fun n => n < UInt64.size

/-- Where a page ends if there are bundles enough; at least one is asked for.  Positions are words of
64 bits, so the end for a position or a limit that goes beyond the store may be near the front again.
Two positions in a store always have a sum, as no store holds `2 ^ 63` bundles. -/
def pageEnd (s : Snapshot) (start limit : Nat) : Nat :=
  if start = 0 ∨ max start (max limit 1) ≤ s.bundles.length then start + max limit 1
  else (start + max limit 1) % UInt64.size

/-- The page of at most `limit` bundles from a position on; it is empty if it would end before it
starts. -/
def pageFrom (s : Snapshot) (start limit : Nat) : Page :=
  let stop := min (s.pageEnd start limit) s.bundles.length
  { items := (s.bundles.take stop).drop start
    nextToken := if stop < s.bundles.length then some (Nat.repr stop) else none }

/-- The page that a token stands for; without a token, the first. -/
def page (s : Snapshot) (token : Option String) (limit : Nat) : Except Error Page :=
  match token with
  | none => .ok (s.pageFrom 0 limit)
  | some token =>
    match position? token with
    | some start => .ok (s.pageFrom start limit)
    | none => .error (.storage ("Invalid page token: " ++ token))

/-- The bundle with an id. -/
def bundle? (s : Snapshot) (id : String) : Option Bundle := s.bundles.find? fun b => b.id = id

/-- The rules of a bundle in the order of their ids. -/
def rulesOf (s : Snapshot) (bundleId : String) : List Rule :=
  sortById (s.rules.filter fun r => r.bundleId = bundleId)

/-- The objects with one of some ids, in storage order. -/
def objectsWith (s : Snapshot) (ids : List String) : List FlowObject :=
  s.objects.filter fun o => ids.contains o.id

/-! ### Writing -/

/-- The contents with a bundle added. -/
def insertBundle (s : Snapshot) (b : Bundle) : Snapshot :=
  { s with bundles := upsert Bundle.id b s.bundles }

/-- The contents with a rule added. -/
def insertRule (s : Snapshot) (r : Rule) : Snapshot := { s with rules := upsert Rule.id r s.rules }

/-- The contents with an object added. -/
def insertObject (s : Snapshot) (o : FlowObject) : Snapshot :=
  { s with objects := upsert FlowObject.id o s.objects }

/-- The contents with rules added one after the other. -/
def putRules (s : Snapshot) (rules : List Rule) : Snapshot := rules.foldl insertRule s

/-- Bundles with the first one of an id stamped; nothing if there is none. -/
def stampIn (id : String) (time : Timestamp) : List Bundle → Option (List Bundle)
  | [] => none
  | b :: bs =>
    if b.id = id then some ({ b with lastSuccessSync := some time } :: bs)
    else (stampIn id time bs).map (b :: ·)

/-- The contents with a bundle stamped as up to date at a time. -/
def stamp (s : Snapshot) (id : String) (time : Timestamp) : Except Error Snapshot :=
  match stampIn id time s.bundles with
  | some bundles => .ok { s with bundles }
  | none => .error (.notFound ("rule bundle " ++ id))

/-! ### The stored form -/

/-- The contents as a document. -/
def toJson (s : Snapshot) : Json :=
  .object [("ruleBundles", .array (s.bundles.map Bundle.toJson)),
    ("rules", .array (s.rules.map Rule.toJson)),
    ("objects", .array (s.objects.map FlowObject.toJson))]

/-- Contents are read from three lists, each of which may be left out. -/
def reading : Json.Reading Snapshot := fun levels d => do
  let r ← Json.Record.ofDraft? ["ruleBundles", "rules", "objects"] false levels d
  let bundles ← r.fieldOr "ruleBundles" [] (Json.Reading.listOf Bundle.reading)
  let rules ← r.fieldOr "rules" [] (Json.Reading.listOf Rule.reading)
  let objects ← r.fieldOr "objects" [] (Json.Reading.listOf FlowObject.reading)
  pure { bundles, rules, objects }

end Snapshot

/-! ## What adding an entry does -/

/-- Adding an entry changes nothing but the entry of its id. -/
theorem find?_upsert_of_ne {α : Type} (id : α → String) (x : α) (xs : List α) {i : String}
    (h : id x ≠ i) : (upsert id x xs).find? (fun y => id y = i) = xs.find? fun y => id y = i := by
  induction xs with
  | nil => simp [upsert, h]
  | cons y ys ih =>
    simp only [upsert]
    split
    · next hy =>
      have hyi : id y ≠ i := fun e => h (hy ▸ e)
      simp [h, hyi]
    · by_cases hyi : id y = i <;> simp [hyi, ih]

/-- The entry added is found under its id. -/
theorem find?_upsert_self {α : Type} (id : α → String) (x : α) (xs : List α) :
    (upsert id x xs).find? (fun y => id y = id x) = some x := by
  induction xs with
  | nil => simp [upsert]
  | cons y ys ih =>
    simp only [upsert]
    split
    · simp
    · next hy => simp [hy, ih]

/-- The ids stay where they are, and a new one goes to the end. -/
theorem map_id_upsert {α : Type} (id : α → String) (x : α) (xs : List α) :
    (upsert id x xs).map id =
      if id x ∈ xs.map id then xs.map id else xs.map id ++ [id x] := by
  induction xs with
  | nil => simp [upsert]
  | cons y ys ih =>
    simp only [upsert]
    split
    · next hy => simp [hy]
    · next hy =>
      simp only [List.map_cons, ih, List.mem_cons]
      by_cases hm : id x ∈ ys.map id
      · simp [hm]
      · simp [hm, Ne.symm hy]

end Store

end Firewall
