/-
# Decimal digits

* `Decimal.value` : the number that digits stand for;
* `Decimal.unsigned?` : the number that a text of digits stands for, one plus sign in front allowed.
-/

namespace Firewall

namespace Decimal

/-- The number that decimal digits stand for. -/
def value (ds : List Char) : Nat := ds.foldl (fun n d => n * 10 + (d.toNat - 48)) 0

/-- The digits without a plus sign in front. -/
def dropPlus : List Char → List Char
  | '+' :: ds => ds
  | ds => ds

/-- The number that digits with at most one plus sign in front stand for. -/
def unsigned? (cs : List Char) : Option Nat :=
  let ds := dropPlus cs
  if ds ≠ [] ∧ ds.all Char.isDigit = true then some (value ds) else none

/-- The number grows by one digit at the end. -/
theorem value_append_singleton (ds : List Char) (d : Char) :
    value (ds ++ [d]) = value ds * 10 + (d.toNat - 48) := by
  simp [value]

end Decimal

end Firewall
