/-
# Binary floating-point numbers of 64 bits

A finite number is a sign, a significand below `2 ^ 53` and a power of two.  Three operations are
defined exactly, on natural numbers:

* `Binary64.ofRatio` : the nearest number to a ratio, ties to the even significand;
* `Binary64.ofDecimal` : the number a decimal literal is read as;
* `Binary64.text` : the fewest decimal digits that read back as the number.

Nothing here is rounded twice by accident: each step names the ratio it rounds.
-/

namespace Firewall

/-- A finite number `± significand · 2 ^ exponent`.  Every number built in this module has its
significand below `2 ^ 53`, and below `2 ^ 52` only at the least exponent `-1074`. -/
structure Binary64 where
  negative : Bool
  significand : Nat
  exponent : Int
  deriving DecidableEq, Repr

namespace Binary64

/-! ## Powers -/

/-- A power of two. -/
def powTwo (k : Nat) : Nat := Nat.pow 2 k

/-- A power of ten. -/
def powTen (k : Nat) : Nat := Nat.pow 10 k

/-- The least significand of full precision. -/
def leastFull : Nat := powTwo 52

/-! ## Rounding a ratio -/

/-- The integer nearest to `num / den`; of two equally near, the even one. -/
def roundDiv (num den : Nat) : Nat :=
  let quotient := num / den
  let twice := 2 * (num % den)
  if twice < den then quotient
  else if den < twice then quotient + 1
  else if quotient % 2 = 0 then quotient
  else quotient + 1

/-- The ratio `num / den` divided by `2 ^ e`, again as a ratio. -/
def shiftRatio (num den : Nat) (e : Int) : Nat × Nat :=
  (num * powTwo (-e).toNat, den * powTwo e.toNat)

/-- The power of two that leaves a ratio between `2 ^ 52` and `2 ^ 53`, but never less than
`-1074`. -/
def exponentOf (num den : Nat) : Int :=
  let guess : Int := (num.log2 : Int) - (den.log2 : Int) - 52
  let (n, d) := shiftRatio num den guess
  max (if n < leastFull * d then guess - 1 else guess) (-1074)

/-- The zero with the given sign. -/
def zero (negative : Bool) : Binary64 := ⟨negative, 0, -1074⟩

/-- The number nearest to `± num / den`, and `none` when that lies beyond the largest finite
number. -/
def ofRatio (negative : Bool) (num den : Nat) : Option Binary64 :=
  if num = 0 then some (zero negative)
  else
    let e := exponentOf num den
    let (n, d) := shiftRatio num den e
    let m := roundDiv n d
    let (m, e) := if m = 2 * leastFull then (leastFull, e + 1) else (m, e)
    if 971 < e then none else some ⟨negative, m, e⟩

/-- The absolute value as a ratio. -/
def ratio (x : Binary64) : Nat × Nat :=
  (x.significand * powTwo x.exponent.toNat, powTwo (-x.exponent).toNat)

/-! ## Reading a decimal literal -/

/-- The number nearest to a power of ten; exact up to `10 ^ 22`. -/
def powerOfTen (k : Nat) : Nat × Nat :=
  match ofRatio false (powTen k) 1 with
  | some p => p.ratio
  | none => (powTen k, 1)

/-- The absolute value of `x` times a power of ten, rounded once. -/
def timesPowerOfTen (x : Binary64) (k : Nat) : Option Binary64 :=
  let (n, d) := x.ratio
  let (p, q) := powerOfTen k
  ofRatio x.negative (n * p) (d * q)

/-- The absolute value of `x` over a power of ten, rounded once. -/
def overPowerOfTen (x : Binary64) (k : Nat) : Option Binary64 :=
  let (n, d) := x.ratio
  let (p, q) := powerOfTen k
  ofRatio x.negative (n * q) (d * p)

/-- Division by `10 ^ k` in steps of at most `10 ^ 308`, each rounded. -/
def scaleDown (x : Binary64) (k : Nat) : Option Binary64 :=
  if k ≤ 308 then x.overPowerOfTen k
  else if x.significand = 0 then some x
  else (x.overPowerOfTen 308).bind fun y => y.scaleDown (k - 308)
termination_by k

/-- The number a literal `± digits · 10 ^ exponent` is read as: the digits are rounded to a number
first, then scaled by one multiplication or division.  A literal beyond the largest finite number
has no reading. -/
def ofDecimal (negative : Bool) (digits : Nat) (exponent : Int) : Option Binary64 :=
  (ofRatio negative digits 1).bind fun x =>
    if exponent < 0 then x.scaleDown (-exponent).toNat
    else if exponent ≤ 308 then x.timesPowerOfTen exponent.toNat
    else if x.significand = 0 then some x
    else none

/-! ## The shortest decimal text -/

/-- Whether `a · 10 ^ i ≤ b · 2 ^ j`. -/
def decimalLe (a : Nat) (i : Int) (b : Nat) (j : Int) : Bool :=
  a * powTen i.toNat * powTwo (-j).toNat ≤ b * powTwo j.toNat * powTen (-i).toNat

/-- Whether `b · 2 ^ j ≤ a · 10 ^ i`. -/
def leDecimal (b : Nat) (j : Int) (a : Nat) (i : Int) : Bool :=
  b * powTwo j.toNat * powTen (-i).toNat ≤ a * powTen i.toNat * powTwo (-j).toNat

/-- Whether `c · 10 ^ i` reads back as `x`: it lies between the midpoints to the neighbours of
`x`, the midpoints themselves included when the significand is even. -/
def readsBack (x : Binary64) (c : Nat) (i : Int) : Bool :=
  let quarter := x.exponent - 2
  let low := if x.significand = leastFull ∧ -1074 < x.exponent then 4 * x.significand - 1
    else 4 * x.significand - 2
  let high := 4 * x.significand + 2
  if x.significand % 2 = 0 then leDecimal low quarter c i && decimalLe c i high quarter
  else !decimalLe c i low quarter && !leDecimal high quarter c i

/-- The least `k` with `x < 10 ^ k`, for a positive `x`. -/
def decade (x : Binary64) : Int :=
  let (n, d) := x.ratio
  if d ≤ n then (Nat.toDigits 10 (n / d)).length
  else 1 - (((List.range 400).find? fun j => d ≤ n * powTen j).getD 0 : Nat)

/-- On the grid of multiples of `10 ^ i`, the multiple that reads back as `x` and is nearest to
it; of two equally near, the even one. -/
def onGrid? (x : Binary64) (i : Int) : Option Nat :=
  let (n, d) := x.ratio
  let num := n * powTen (-i).toNat
  let den := d * powTen i.toNat
  let below := num / den
  match x.readsBack below i, x.readsBack (below + 1) i with
  | true, true => some (roundDiv num den)
  | true, false => some below
  | false, true => some (below + 1)
  | false, false => none

/-- A decimal without trailing zeros: `digits · 10 ^ exponent` with the zeros moved into the
exponent. -/
def stripZeros (digits : Nat) (exponent : Int) : Nat → Nat × Int
  | 0 => (digits, exponent)
  | fuel + 1 =>
    if digits ≠ 0 ∧ digits % 10 = 0 then stripZeros (digits / 10) (exponent + 1) fuel
    else (digits, exponent)

/-- The shortest decimal that reads back as a positive `x`: the first of the grids of
1, 2, … 17 digits that has one. -/
def shortest (x : Binary64) : Nat × Int :=
  let k := x.decade
  let candidate := (List.range 17).findSome? fun n =>
    let i : Int := k - (n + 1 : Nat)
    (x.onGrid? i).map fun c => (c, i)
  match candidate with
  | some (c, i) => stripZeros c i 18
  | none => (x.significand, 0)

/-- An exponent in writing, always with its sign. -/
def exponentText (e : Int) : List Char :=
  'e' :: (if e < 0 then '-' else '+') :: Nat.toDigits 10 e.natAbs

/-- A positive decimal in writing: positional from `0.00001` up to sixteen digits before the
point, always with a digit after the point; else with an exponent. -/
def layout (digits : List Char) (exponent : Int) : List Char :=
  let point := digits.length + exponent
  if 0 ≤ exponent ∧ point ≤ 16 then
    digits ++ List.replicate exponent.toNat '0' ++ ['.', '0']
  else if 0 < point ∧ point ≤ 16 then
    digits.take point.toNat ++ '.' :: digits.drop point.toNat
  else if -5 < point ∧ point ≤ 0 then
    '0' :: '.' :: (List.replicate (-point).toNat '0' ++ digits)
  else
    let tail := exponentText (point - 1)
    match digits with
    | [d] => d :: tail
    | d :: ds => d :: '.' :: (ds ++ tail)
    | [] => tail

/-- The text of a number. -/
def text (x : Binary64) : List Char :=
  let body :=
    if x.significand = 0 then ['0', '.', '0']
    else
      let (digits, exponent) := x.shortest
      layout (Nat.toDigits 10 digits) exponent
  if x.negative then '-' :: body else body

end Binary64

end Firewall
