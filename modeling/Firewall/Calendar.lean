/-
# Calendar dates

Dates of the Gregorian calendar, extended to all years.  A date carries the proof that its day
exists.

* `Date.next`, `Date.prev` : the days after and before;
* `Date.prev_next`, `Date.next_prev` : they undo each other.
-/

namespace Firewall

/-- Whether a year has a 29th of February. -/
def isLeapYear (year : Int) : Bool :=
  year % 4 = 0 && (year % 100 ≠ 0 || year % 400 = 0)

/-- The number of days of a month; no days for a number that names no month. -/
def daysIn (year : Int) : Nat → Nat
  | 1 => 31
  | 2 => if isLeapYear year then 29 else 28
  | 3 => 31
  | 4 => 30
  | 5 => 31
  | 6 => 30
  | 7 => 31
  | 8 => 31
  | 9 => 30
  | 10 => 31
  | 11 => 30
  | 12 => 31
  | _ => 0

/-- Every month has at least 28 days. -/
theorem daysIn_pos (year : Int) {month : Nat} (h₁ : 1 ≤ month) (h₂ : month ≤ 12) :
    1 ≤ daysIn year month := by
  obtain h | h | h | h | h | h | h | h | h | h | h | h :
      month = 1 ∨ month = 2 ∨ month = 3 ∨ month = 4 ∨ month = 5 ∨ month = 6 ∨ month = 7 ∨
        month = 8 ∨ month = 9 ∨ month = 10 ∨ month = 11 ∨ month = 12 := by omega
  all_goals subst h; simp only [daysIn]; first | omega | (split <;> omega)

/-- A day that exists. -/
structure Date where
  year : Int
  month : Nat
  day : Nat
  month_pos : 1 ≤ month
  month_le : month ≤ 12
  day_pos : 1 ≤ day
  day_le : day ≤ daysIn year month
  deriving DecidableEq

namespace Date

/-- The date with these numbers, if it exists. -/
def of? (year : Int) (month day : Nat) : Option Date :=
  if h : (1 ≤ month ∧ month ≤ 12) ∧ 1 ≤ day ∧ day ≤ daysIn year month then
    some ⟨year, month, day, h.1.1, h.1.2, h.2.1, h.2.2⟩
  else none

/-- The day after. -/
def next (d : Date) : Date :=
  if h : d.day < daysIn d.year d.month then
    ⟨d.year, d.month, d.day + 1, d.month_pos, d.month_le, by omega, h⟩
  else if h : d.month < 12 then
    ⟨d.year, d.month + 1, 1, by omega, h, by omega, daysIn_pos d.year (by omega) h⟩
  else ⟨d.year + 1, 1, 1, by omega, by omega, by omega, daysIn_pos _ (by omega) (by omega)⟩

/-- The day before. -/
def prev (d : Date) : Date :=
  if h : 1 < d.day then
    ⟨d.year, d.month, d.day - 1, d.month_pos, d.month_le, by omega,
      Nat.le_trans (Nat.sub_le _ _) d.day_le⟩
  else if h : 1 < d.month then
    ⟨d.year, d.month - 1, daysIn d.year (d.month - 1), by omega,
      Nat.le_trans (Nat.sub_le _ _) d.month_le,
      daysIn_pos d.year (by omega) (Nat.le_trans (Nat.sub_le _ _) d.month_le), Nat.le_refl _⟩
  else ⟨d.year - 1, 12, 31, by omega, by omega, by omega, by simp [daysIn]⟩

/-- Reading a date off its numbers gives it back. -/
theorem of?_self (d : Date) : of? d.year d.month d.day = some d := by
  simp [of?, d.month_pos, d.month_le, d.day_pos, d.day_le]

/-- The day before the next day is the day itself. -/
theorem prev_next (d : Date) : d.next.prev = d := by
  obtain ⟨year, month, day, hm, hm', hd, hd'⟩ := d
  simp only [next]
  split
  · simp [prev, show 1 < day + 1 by omega]
  · next h =>
    have hday : day = daysIn year month := by omega
    split
    · simp [prev, show 1 < month + 1 by omega, hday]
    · next h' =>
      have hmonth : month = 12 := by omega
      subst hmonth
      simp only [daysIn] at hday
      simp [prev, hday]

/-- The day after the previous day is the day itself. -/
theorem next_prev (d : Date) : d.prev.next = d := by
  obtain ⟨year, month, day, hm, hm', hd, hd'⟩ := d
  simp only [prev]
  split
  · next h =>
    simp [next, show day - 1 < daysIn year month by omega, show day - 1 + 1 = day by omega]
  · next h =>
    have hday : day = 1 := by omega
    split
    · next h' =>
      simp [next, show month - 1 < 12 by omega, show month - 1 + 1 = month by omega, hday]
    · next h' =>
      have hmonth : month = 1 := by omega
      simp [next, daysIn, hday, hmonth]

end Date

end Firewall
