/-
# Timestamps

A timestamp is a moment in UTC: a date and a time of day down to nanoseconds, the sixtieth second
included for leap seconds.  It is read from the notation of RFC 3339, with an offset that is
subtracted, and written in UTC with as few groups of three decimal places as it needs.

* `Timestamp.text` : the written form;
* `Timestamp.ofText?` : reading, which also takes blanks around the numbers, numbers of fewer
  digits, signed years and the letters `UTC`;
* `Timestamp.shift` : a local time less its offset.
-/
import Firewall.Blank
import Firewall.Calendar
import Firewall.Decimal

namespace Firewall

/-- A moment in UTC. -/
structure Timestamp where
  date : Date
  hour : Nat
  minute : Nat
  second : Nat
  nano : Nat
  hour_lt : hour < 24
  minute_lt : minute < 60
  second_le : second ≤ 60
  nano_lt : nano < 1000000000
  deriving DecidableEq

namespace Timestamp

/-! ## Writing -/

/-- The digits of a number, with zeros in front up to the given width. -/
def padded (width n : Nat) : List Char :=
  let ds := Nat.toDigits 10 n
  List.replicate (width - ds.length) '0' ++ ds

/-- A year in four digits; years outside of 0 to 9999 carry a sign. -/
def yearText (year : Int) : List Char :=
  if 0 ≤ year ∧ year ≤ 9999 then padded 4 year.toNat
  else (if year < 0 then '-' else '+') :: padded 4 year.natAbs

/-- The decimal places of a second: none, three, six or nine, the fewest that are exact. -/
def placesText (nano : Nat) : List Char :=
  if nano = 0 then []
  else if nano % 1000000 = 0 then '.' :: padded 3 (nano / 1000000)
  else if nano % 1000 = 0 then '.' :: padded 6 (nano / 1000)
  else '.' :: padded 9 nano

/-- The characters of a timestamp. -/
def chars (t : Timestamp) : List Char :=
  yearText t.date.year ++ '-' :: (padded 2 t.date.month ++ '-' :: (padded 2 t.date.day ++ 'T' ::
    (padded 2 t.hour ++ ':' :: (padded 2 t.minute ++ ':' :: (padded 2 t.second ++
      (placesText t.nano ++ ['Z']))))))

/-- The text of a timestamp. -/
def text (t : Timestamp) : String := String.ofList t.chars

/-! ## Reading numbers -/

/-- A number of one up to `width` digits, and what follows. -/
def readDigits (width : Nat) (cs : List Char) : Option (Nat × List Char) :=
  let ds := (cs.take width).takeWhile Char.isDigit
  if ds = [] then none else some (Decimal.value ds, cs.drop ds.length)

/-- A number of one or two digits after blanks. -/
def readPair (cs : List Char) : Option (Nat × List Char) := readDigits 2 (dropBlanks cs)

/-- A year after blanks: up to four digits, or a sign and any number of them. -/
def readYear (cs : List Char) : Option (Int × List Char) :=
  match dropBlanks cs with
  | '-' :: cs => (readDigits cs.length cs).map fun (n, rest) => (-(n : Int), rest)
  | '+' :: cs => (readDigits cs.length cs).map fun (n, rest) => ((n : Int), rest)
  | cs => (readDigits 4 cs).map fun (n, rest) => ((n : Int), rest)

/-- What follows a separator and the blanks before it. -/
def readMark (mark : Char) (cs : List Char) : Option (List Char) :=
  match dropBlanks cs with
  | c :: rest => if c = mark then some rest else none
  | [] => none

/-- The nanoseconds of the decimal places, if a point follows; places after the ninth are
dropped. -/
def readPlaces : List Char → Option (Nat × List Char)
  | '.' :: cs =>
    let ds := cs.takeWhile Char.isDigit
    if ds = [] then none
    else
      let kept := ds.take 9 ++ List.replicate (9 - ds.length) '0'
      some (Decimal.value kept, cs.drop ds.length)
  | cs => some (0, cs)

/-- Exactly two digits. -/
def readTwo : List Char → Option (Nat × List Char)
  | a :: b :: rest => if a.isDigit ∧ b.isDigit then some (Decimal.value [a, b], rest) else none
  | _ => none

/-- The sign of an offset. -/
def readSign : List Char → Option (Bool × List Char)
  | '+' :: cs => some (false, cs)
  | '-' :: cs => some (true, cs)
  | '\u2212' :: cs => some (true, cs)
  | _ => none

/-- An offset from UTC in minutes: `Z`, `UTC`, or hours and minutes with a sign, which colons and
blanks may divide. -/
def readOffset (cs : List Char) : Option (Int × List Char) :=
  if (cs.take 3).map Char.toUpper = ['U', 'T', 'C'] then some (0, cs.drop 3)
  else if (cs.take 1).map Char.toUpper = ['Z'] then some (0, cs.drop 1)
  else
    match readSign cs with
    | none => none
    | some (negative, cs) =>
      match readTwo cs with
      | none => none
      | some (hours, cs) =>
        match readTwo (cs.dropWhile fun c => c = ':' || isBlank c) with
        | none => none
        | some (minutes, rest) =>
          if hours < 24 ∧ minutes < 60 then
            let total : Int := hours * 60 + minutes
            some (if negative then -total else total, rest)
          else none

/-! ## Reading a timestamp -/

/-- The years that timestamps can be read in. -/
def yearInRange (year : Int) : Bool := decide (-262143 ≤ year) && decide (year ≤ 262142)

/-- The time of day that is `minutes` minutes less; the day before or after if need be. -/
def shift (t : Timestamp) (minutes : Int) : Timestamp :=
  let total : Int := t.hour * 60 + t.minute - minutes
  let date := if total < 0 then t.date.prev else if total < 1440 then t.date else t.date.next
  let local' := (total % 1440).toNat
  { t with
    date
    hour := local' / 60
    minute := local' % 60
    hour_lt := by omega
    minute_lt := by omega }

/-- The timestamp with these numbers, if it exists. -/
def of? (date : Date) (hour minute second nano : Nat) : Option Timestamp :=
  if h : (hour < 24 ∧ minute < 60) ∧ second ≤ 60 ∧ nano < 1000000000 then
    some ⟨date, hour, minute, second, nano, h.1.1, h.1.2, h.2.1, h.2.2⟩
  else none

/-- A date in front of the rest. -/
def readDate (cs : List Char) : Option (Date × List Char) := do
  let (year, cs) ← readYear cs
  let cs ← readMark '-' cs
  let (month, cs) ← readPair cs
  let cs ← readMark '-' cs
  let (day, cs) ← readPair cs
  let date ← if yearInRange year then Date.of? year month day else none
  pure (date, cs)

/-- The divider of date and time: a letter T in either case, or a blank. -/
def readDivider : List Char → Option (List Char)
  | c :: rest => if c = 'T' ∨ c = 't' ∨ c = ' ' then some rest else none
  | [] => none

/-- The timestamp that a whole text holds. -/
def ofChars? (cs : List Char) : Option Timestamp := do
  let (date, cs) ← readDate cs
  let cs ← readDivider cs
  let (hour, cs) ← readPair cs
  let cs ← readMark ':' cs
  let (minute, cs) ← readPair cs
  let cs ← readMark ':' cs
  let (second, cs) ← readPair cs
  let (nano, cs) ← readPlaces cs
  let (offset, cs) ← readOffset (dropBlanks cs)
  let moment ← of? date hour minute second nano
  let moment := moment.shift offset
  if dropBlanks cs = [] ∧ yearInRange moment.date.year then some moment else none

/-- The timestamp that a whole text holds. -/
def ofText? (s : String) : Option Timestamp := ofChars? s.toList

/-! ## Shifting -/

/-- A shift by nothing changes nothing. -/
theorem shift_zero (t : Timestamp) : t.shift 0 = t := by
  obtain ⟨date, hour, minute, second, nano, h₁, h₂, h₃, h₄⟩ := t
  simp only [shift]
  have e : ((hour : Int) * 60 + minute - 0) % 1440 = hour * 60 + minute := by omega
  have e₁ : ((hour : Int) * 60 + minute).toNat / 60 = hour := by omega
  have e₂ : ((hour : Int) * 60 + minute).toNat % 60 = minute := by omega
  simp only [e, e₁, e₂]
  rw [if_neg (by omega), if_pos (by omega)]

end Timestamp

end Firewall
