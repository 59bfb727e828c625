/-
# Reading documents

The reader turns a text into a draft.  Each part is read from the front of a list of characters and
the rest is handed on; blanks are the space, the tab, the line feed and the carriage return.

* `Json.readUnits`, `Json.joinUnits` : the body of a quoted text, code unit by code unit;
* `Json.readNumber` : a number, integers of 64 bits exactly and all others as floating point;
* `Json.readDraft` : any document;
* `Json.Draft.ofText?` : a whole text, with nothing but blanks around the document.
-/
import Firewall.Decimal
import Firewall.Json.Draft

namespace Firewall

namespace Json

/-! ## Blanks -/

/-- The characters that may stand between the parts of a document. -/
def isBlank (c : Char) : Bool := c = ' ' || c = '\t' || c = '\n' || c = '\r'

/-- What follows the blanks. -/
def skipBlanks (cs : List Char) : List Char := cs.dropWhile isBlank

/-! ## Quoted texts -/

/-- The value of a hexadecimal digit in either case. -/
def hexValue? (c : Char) : Option Nat :=
  if '0' ≤ c ∧ c ≤ '9' then some (c.toNat - 48)
  else if 'a' ≤ c ∧ c ≤ 'f' then some (c.toNat - 87)
  else if 'A' ≤ c ∧ c ≤ 'F' then some (c.toNat - 55)
  else none

/-- The value of four hexadecimal digits. -/
def hexUnit? (a b c d : Char) : Option Nat :=
  match hexValue? a, hexValue? b, hexValue? c, hexValue? d with
  | some a, some b, some c, some d => some (((a * 16 + b) * 16 + c) * 16 + d)
  | _, _, _, _ => none

/-- The character that a letter after a backslash stands for. -/
def unescape? (c : Char) : Option Nat :=
  match c with
  | '"' => some 34
  | '\\' => some 92
  | '/' => some 47
  | 'b' => some 8
  | 'f' => some 12
  | 'n' => some 10
  | 'r' => some 13
  | 't' => some 9
  | _ => none

/-- The code points and surrogates of a quoted text up to its closing quote, and what follows.
Control characters may only be written as escapes. -/
def readUnits : List Char → Option (List Nat × List Char)
  | [] => none
  | '"' :: rest => some ([], rest)
  | '\\' :: 'u' :: a :: b :: c :: d :: rest =>
    match hexUnit? a b c d, readUnits rest with
    | some n, some (us, rest) => some (n :: us, rest)
    | _, _ => none
  | '\\' :: c :: rest =>
    match unescape? c, readUnits rest with
    | some n, some (us, rest) => some (n :: us, rest)
    | _, _ => none
  | c :: rest =>
    if c.toNat < 32 ∨ c = '\\' then none
    else
      match readUnits rest with
      | some (us, rest) => some (c.toNat :: us, rest)
      | none => none

/-- Whether a unit is the first half of a surrogate pair. -/
def isHigh (n : Nat) : Bool := 0xD800 ≤ n && n ≤ 0xDBFF

/-- Whether a unit is the second half of a surrogate pair. -/
def isLow (n : Nat) : Bool := 0xDC00 ≤ n && n ≤ 0xDFFF

/-- The characters that units stand for; half of a surrogate pair stands for none. -/
def joinUnits : List Nat → Option (List Char)
  | [] => some []
  | [n] => if isHigh n || isLow n then none else some [Char.ofNat n]
  | n :: m :: us =>
    if isHigh n then
      if isLow m then
        (joinUnits us).map (Char.ofNat ((n - 0xD800) * 0x400 + (m - 0xDC00) + 0x10000) :: ·)
      else none
    else if isLow n then none
    else (joinUnits (m :: us)).map (Char.ofNat n :: ·)

/-- A quoted text after its opening quote. -/
def readText (cs : List Char) : Option (Option String × List Char) :=
  (readUnits cs).map fun (us, rest) => ((joinUnits us).map String.ofList, rest)

/-! ## Numbers -/

/-- A number followed by as many of the digits as keep it within 64 bits, and how many those
are. -/
def absorbDigits (n : Nat) : List Char → Nat × Nat
  | [] => (n, 0)
  | d :: ds =>
    let n' := n * 10 + (d.toNat - 48)
    if n' < UInt64.size then
      let (m, k) := absorbDigits n' ds
      (m, k + 1)
    else (n, 0)

/-- The number with the given sign, whole digits, decimal places and exponent.  Without places or
exponent it is an integer if 64 bits hold it, except that `-0` is a floating-point number. -/
def numberOf (negative : Bool) (whole places : List Char) (exponent : Option Int) :
    Option Number :=
  let (n, k) := absorbDigits 0 whole
  let fits := k = whole.length
  if fits ∧ places = [] ∧ exponent = none ∧ (negative → 0 < n ∧ n ≤ 9223372036854775808) then
    some (.integer (if negative then -(n : Int) else n))
  else
    let (m, j) := absorbDigits n places
    let scale : Int := (whole.length : Int) - k - j + exponent.getD 0
    (Binary64.ofDecimal negative m scale).map .float

/-- The digits in front, and what follows them. -/
def spanDigits (cs : List Char) : List Char × List Char :=
  (cs.takeWhile Char.isDigit, cs.dropWhile Char.isDigit)

/-- The decimal places, if a point follows; a point needs at least one place. -/
def readPlaces : List Char → Option (List Char × List Char)
  | '.' :: rest =>
    let (ds, rest) := spanDigits rest
    if ds = [] then none else some (ds, rest)
  | cs => some ([], cs)

/-- The digits of an exponent after its sign. -/
def readExponentDigits (negative : Bool) (cs : List Char) : Option (Option Int × List Char) :=
  let (ds, rest) := spanDigits cs
  if ds = [] then none
  else
    let n : Int := Decimal.value ds
    some (some (if negative then -n else n), rest)

/-- The exponent, if one follows. -/
def readExponent : List Char → Option (Option Int × List Char)
  | c :: cs =>
    if c = 'e' ∨ c = 'E' then
      match cs with
      | '+' :: cs => readExponentDigits false cs
      | '-' :: cs => readExponentDigits true cs
      | cs => readExponentDigits false cs
    else some (none, c :: cs)
  | [] => some (none, [])

/-- A number without its sign; no further digit may follow a leading zero. -/
def readUnsigned (negative : Bool) (cs : List Char) : Option (Option Number × List Char) :=
  let (whole, rest) := spanDigits cs
  if whole = [] ∨ (whole.head? = some '0' ∧ 1 < whole.length) then none
  else
    match readPlaces rest with
    | none => none
    | some (places, rest) =>
      match readExponent rest with
      | none => none
      | some (exponent, rest) => some (numberOf negative whole places exponent, rest)

/-- A number in front of the rest; the number itself is missing when it is too large. -/
def readNumber : List Char → Option (Option Number × List Char)
  | '-' :: cs => readUnsigned true cs
  | cs => readUnsigned false cs

/-! ## Documents -/

mutual

/-- A document in front of the rest, with no blank before it. -/
def readDraft : Nat → List Char → Option (Draft × List Char)
  | 0, _ => none
  | _ + 1, 'n' :: 'u' :: 'l' :: 'l' :: rest => some (.null, rest)
  | _ + 1, 't' :: 'r' :: 'u' :: 'e' :: rest => some (.bool true, rest)
  | _ + 1, 'f' :: 'a' :: 'l' :: 's' :: 'e' :: rest => some (.bool false, rest)
  | _ + 1, '"' :: rest => (readText rest).map fun (s, rest) => (.string s, rest)
  | fuel + 1, '[' :: rest =>
    match skipBlanks rest with
    | ']' :: rest => some (.array [], rest)
    | rest => (readItems fuel rest).map fun (xs, rest) => (.array xs, rest)
  | fuel + 1, '\x7b' :: rest =>
    match skipBlanks rest with
    | '\x7d' :: rest => some (.object [], rest)
    | rest => (readMembers fuel rest).map fun (ms, rest) => (.object ms, rest)
  | _ + 1, cs => (readNumber cs).map fun (n, rest) => (.number n, rest)

/-- At least one item, and the closing bracket. -/
def readItems : Nat → List Char → Option (List Draft × List Char)
  | 0, _ => none
  | fuel + 1, cs =>
    match readDraft fuel cs with
    | none => none
    | some (x, rest) =>
      match skipBlanks rest with
      | ']' :: rest => some ([x], rest)
      | ',' :: rest =>
        (readItems fuel (skipBlanks rest)).map fun (xs, rest) => (x :: xs, rest)
      | _ => none

/-- At least one member, and the closing brace. -/
def readMembers : Nat → List Char → Option (List (Option String × Draft) × List Char)
  | 0, _ => none
  | fuel + 1, '"' :: cs =>
    match readText cs with
    | none => none
    | some (k, rest) =>
      match skipBlanks rest with
      | ':' :: rest =>
        match readDraft fuel (skipBlanks rest) with
        | none => none
        | some (v, rest) =>
          match skipBlanks rest with
          | '\x7d' :: rest => some ([(k, v)], rest)
          | ',' :: rest =>
            (readMembers fuel (skipBlanks rest)).map fun (ms, rest) => ((k, v) :: ms, rest)
          | _ => none
      | _ => none
  | _ + 1, _ => none

end

/-- The draft that a whole text holds.  Every character opens at most two parts, which bounds the
depth of the reading. -/
def Draft.ofChars? (cs : List Char) : Option Draft :=
  match readDraft (2 * cs.length + 1) (skipBlanks cs) with
  | some (d, rest) => if skipBlanks rest = [] then some d else none
  | none => none

/-- The draft that a whole text holds. -/
def Draft.ofText? (s : String) : Option Draft := Draft.ofChars? s.toList

/-- The levels of nesting that a text may use. -/
def nestingLimit : Nat := 127

/-- The ordered document that a text holds. -/
def Ordered.ofText? (s : String) : Option Ordered :=
  (Draft.ofText? s).bind (Draft.ordered? nestingLimit)

end Json

end Firewall
