/-
# Writing documents

A document is written in one of two styles: compact, without any blank, or indented by two blanks a
level.  Writing puts the text in front of a given rest, so the text of a part can be followed inside
the text of the whole.

* `Json.write` : a document in front of a rest;
* `Json.compact`, `Json.indented` : the whole text of a document.
-/
import Firewall.Json.Basic

namespace Firewall

namespace Json

/-! ## Texts -/

/-- A hexadecimal digit in lower case. -/
def hexDigit (n : Nat) : Char := if n < 10 then Char.ofNat (48 + n) else Char.ofNat (87 + n)

/-- A character inside a written text: quotes, backslashes and control characters are escaped,
everything else stands for itself. -/
def escape (c : Char) : List Char :=
  match c with
  | '"' => ['\\', '"']
  | '\\' => ['\\', '\\']
  | '\x08' => ['\\', 'b']
  | '\x0c' => ['\\', 'f']
  | '\n' => ['\\', 'n']
  | '\r' => ['\\', 'r']
  | '\t' => ['\\', 't']
  | c =>
    if c.toNat < 32 then ['\\', 'u', '0', '0', hexDigit (c.toNat / 16), hexDigit (c.toNat % 16)]
    else [c]

/-- A quoted text in front of a rest. -/
def writeText (cs : List Char) (rest : List Char) : List Char :=
  '"' :: (cs.flatMap escape ++ '"' :: rest)

/-! ## Numbers -/

/-- The digits of an integer, with a sign when it is negative. -/
def writeInt (n : Int) : List Char :=
  if n < 0 then '-' :: Nat.toDigits 10 n.natAbs else Nat.toDigits 10 n.natAbs

/-- The text of a number. -/
def Number.write : Number → List Char
  | .integer n => writeInt n
  | .float x => x.text

/-! ## Documents -/

/-- How a document is laid out. -/
inductive Style
  | compact
  | indented
  deriving DecidableEq

/-- The line break before a part at the given depth. -/
def Style.lineBreak : Style → Nat → List Char
  | .compact, _ => []
  | .indented, depth => '\n' :: List.replicate (2 * depth) ' '

/-- What stands between a key and its value. -/
def Style.colon : Style → List Char
  | .compact => [':']
  | .indented => [':', ' ']

/-- What stands before a part: a comma unless it is the first, and a line break. -/
def Style.lead (style : Style) (first : Bool) (depth : Nat) : List Char :=
  (if first then [] else [',']) ++ style.lineBreak depth

/-- The line break before a closing bracket; none in an empty array or object. -/
def Style.close (style : Style) (first : Bool) (depth : Nat) : List Char :=
  if first then [] else style.lineBreak depth

mutual

/-- A document at a depth, in front of a rest. -/
def write (style : Style) (depth : Nat) : Json → List Char → List Char
  | .null, rest => 'n' :: 'u' :: 'l' :: 'l' :: rest
  | .bool true, rest => 't' :: 'r' :: 'u' :: 'e' :: rest
  | .bool false, rest => 'f' :: 'a' :: 'l' :: 's' :: 'e' :: rest
  | .number n, rest => n.write ++ rest
  | .string s, rest => writeText s.toList rest
  | .array items, rest => '[' :: writeItems style depth true items rest
  | .object members, rest => '\x7b' :: writeMembers style depth true members rest
termination_by structural x => x

/-- The items from some position on, and the closing bracket. -/
def writeItems (style : Style) (depth : Nat) (first : Bool) :
    List Json → List Char → List Char
  | [], rest => style.close first depth ++ ']' :: rest
  | x :: xs, rest =>
    style.lead first (depth + 1) ++
      write style (depth + 1) x (writeItems style depth false xs rest)
termination_by structural xs => xs

/-- The members from some position on, and the closing brace. -/
def writeMembers (style : Style) (depth : Nat) (first : Bool) :
    List (String × Json) → List Char → List Char
  | [], rest => style.close first depth ++ '\x7d' :: rest
  | (k, v) :: ms, rest =>
    style.lead first (depth + 1) ++
      writeText k.toList
        (style.colon ++ write style (depth + 1) v (writeMembers style depth false ms rest))
termination_by structural ms => ms

end

/-- The text of a document without any blank. -/
def compact (j : Json) : String := String.ofList (j.write .compact 0 [])

/-- The text of a document on several lines. -/
def indented (j : Json) : String := String.ofList (j.write .indented 0 [])

end Json

end Firewall
