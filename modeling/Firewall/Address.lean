/-
# Literal addresses

A literal address is an IPv4 address in dotted-quad notation, alone or as a block: followed by a
slash and either a netmask in the same notation or the number of leading one bits of the mask.

* `Address.quad?` : the address a dotted quad stands for;
* `Address.maskLength?` : the number of leading bits a mask length stands for;
* `Address.isLiteral` : the texts that are literal addresses.
-/
import Firewall.Decimal
import Firewall.Pieces

namespace Firewall

namespace Address

/-! ## Dotted quads -/

/-- An octet: one to three digits, none of them a leading zero, up to 255. -/
def octet? (cs : List Char) : Option Nat :=
  let fits := cs ≠ [] ∧ cs.length ≤ 3 ∧ cs.all Char.isDigit = true ∧
    (cs.head? = some '0' → cs.length = 1)
  if fits ∧ Decimal.value cs ≤ 255 then some (Decimal.value cs) else none

/-- The address that four octets divided by points stand for. -/
def quad? (cs : List Char) : Option Nat :=
  match (pieces '.' cs).map octet? with
  | [some a, some b, some c, some d] => some (((a * 256 + b) * 256 + c) * 256 + d)
  | _ => none

/-! ## Masks -/

/-- Whether a mask consists of one bits followed by zero bits. -/
def isContiguous (mask : Nat) : Bool :=
  (List.range 33).any fun k => mask = 4294967296 - (1 <<< k)

/-- The number of leading bits that a text stands for: digits, which may have leading zeros and one
plus sign in front. -/
def maskLength? (cs : List Char) : Option Nat :=
  (Decimal.unsigned? cs).filter fun n => n ≤ 32

/-- Whether a text is a mask: a netmask, or a number of leading bits. -/
def isMask (cs : List Char) : Bool :=
  match quad? cs with
  | some mask => isContiguous mask
  | none => (maskLength? cs).isSome

/-- Whether a text is a literal address. -/
def isLiteral (s : String) : Bool :=
  match pieces '/' s.toList with
  | [quad] => (quad? quad).isSome
  | [quad, mask] => (quad? quad).isSome && isMask mask
  | _ => false

end Address

end Firewall
