/-
# Timestamps read back

A timestamp is written with two digits for each number and as many decimal places as it needs, so
each number ends where its digits do.  The years 0 to 9999 have four digits and no sign; timestamps
in these years are read as they were written.  Other years are not looked at here.

* `Timestamp.readDigits_padded` : digits of a fixed width;
* `Timestamp.readPlaces_placesText` : decimal places;
* `Timestamp.ofText?_text` : whole timestamps;
* `Sample.time`, `Sample.later` : two times to try statements on.
-/
import Firewall.Proofs.Decimal
import Firewall.Timestamp

namespace Firewall

namespace Timestamp

/-! ## Padded numbers -/

theorem length_padded {width n : Nat} (hwidth : 0 < width) (h : n < 10 ^ width) :
    (padded width n).length = width := by
  have hlen : (Nat.toDigits 10 n).length ≤ width :=
    (Nat.length_toDigits_le_iff (by decide) hwidth).2 h
  rw [padded, List.length_append, List.length_replicate]
  omega

theorem isDigit_of_mem_padded {width n : Nat} {c : Char} (h : c ∈ padded width n) :
    c.isDigit = true := by
  rw [padded, List.mem_append] at h
  rcases h with h | h
  · rw [List.eq_of_mem_replicate h]
    rfl
  · exact List.all_eq_true.1 (Decimal.all_isDigit_toDigits n) c h

@[simp] theorem value_padded (width n : Nat) : Decimal.value (padded width n) = n := by
  rw [padded, Decimal.value_append, Decimal.value_replicate_zero, Decimal.value_toDigits,
    Nat.zero_mul, Nat.zero_add]

theorem padded_ne_nil (width n : Nat) : padded width n ≠ [] := by
  rw [padded]
  exact List.append_ne_nil_of_right_ne_nil _ Nat.toDigits_ne_nil

/-- Digits of a fixed width end there, whatever follows. -/
theorem readDigits_padded {width n : Nat} (hwidth : 0 < width) (h : n < 10 ^ width)
    (rest : List Char) : readDigits width (padded width n ++ rest) = some (n, rest) := by
  have hlen := length_padded hwidth h
  have htake : (padded width n ++ rest).take width = padded width n := List.take_left' hlen
  have hdigits : (padded width n).takeWhile Char.isDigit = padded width n := by
    rw [← List.append_nil (padded width n),
      List.takeWhile_append_of_pos fun _ hc => isDigit_of_mem_padded hc]
    rfl
  unfold readDigits
  simp only [htake, hdigits]
  rw [if_neg (padded_ne_nil width n), value_padded, List.drop_left]

/-! ## Numbers and marks after blanks -/

theorem isBlank_of_isDigit {c : Char} (h : c.isDigit = true) : isBlank c = false := by
  rw [Char.isDigit, Bool.and_eq_true, decide_eq_true_eq, decide_eq_true_eq] at h
  have hlow : 48 ≤ c.toNat := h.1
  have hhigh : c.toNat ≤ 57 := h.2
  simp [isBlank]
  omega

theorem dropBlanks_cons {c : Char} (h : isBlank c = false) (cs : List Char) :
    dropBlanks (c :: cs) = c :: cs := by
  rw [dropBlanks, List.dropWhile_cons_of_neg (by rw [h]; decide)]

/-- No blank stands in front of digits. -/
theorem dropBlanks_padded (width n : Nat) (rest : List Char) :
    dropBlanks (padded width n ++ rest) = padded width n ++ rest := by
  obtain ⟨d, ds, hds⟩ := List.exists_cons_of_ne_nil (padded_ne_nil width n)
  have hd : d ∈ padded width n := by rw [hds]; exact List.mem_cons_self
  rw [hds, List.cons_append, dropBlanks_cons (isBlank_of_isDigit (isDigit_of_mem_padded hd))]

theorem readPair_padded {n : Nat} (h : n < 100) (rest : List Char) :
    readPair (padded 2 n ++ rest) = some (n, rest) := by
  rw [readPair, dropBlanks_padded, readDigits_padded (by decide) h]

theorem readMark_cons (mark : Char) (h : isBlank mark = false) (rest : List Char) :
    readMark mark (mark :: rest) = some rest := by
  rw [readMark, dropBlanks_cons h]
  exact if_pos rfl

/-- A year of four digits is read as it was written. -/
theorem readYear_yearText {year : Int} (h : 0 ≤ year ∧ year ≤ 9999) (rest : List Char) :
    readYear (yearText year ++ rest) = some (year, rest) := by
  have hread : readDigits 4 (padded 4 year.toNat ++ rest) = some (year.toNat, rest) :=
    readDigits_padded (by decide) (by omega) rest
  obtain ⟨d, ds, hds⟩ := List.exists_cons_of_ne_nil (padded_ne_nil 4 year.toNat)
  have hd : d.isDigit = true := isDigit_of_mem_padded (by rw [hds]; exact List.mem_cons_self)
  rw [yearText, if_pos h, readYear, dropBlanks_padded]
  rw [hds, List.cons_append] at hread ⊢
  -- the digit in front is not taken for a sign
  split
  · next heq => rw [(List.cons.inj heq).1] at hd; cases hd
  · next heq => rw [(List.cons.inj heq).1] at hd; cases hd
  · have hyear : (year.toNat : Int) = year := Int.toNat_of_nonneg h.1
    simp only [hread, Option.map_some, hyear]

/-! ## Decimal places -/

/-- Up to nine decimal places count as if there were nine of them. -/
theorem readPlaces_padded {width n : Nat} (hwidth : 0 < width) (hnine : width ≤ 9)
    (h : n < 10 ^ width) (rest : List Char) :
    readPlaces ('.' :: (padded width n ++ 'Z' :: rest)) =
      some (n * 10 ^ (9 - width), 'Z' :: rest) := by
  have hlen := length_padded hwidth h
  have hdigits : (padded width n ++ 'Z' :: rest).takeWhile Char.isDigit = padded width n := by
    rw [List.takeWhile_append_of_pos fun _ hc => isDigit_of_mem_padded hc,
      List.takeWhile_cons_of_neg (by decide), List.append_nil]
  unfold readPlaces
  simp only [hdigits]
  rw [if_neg (padded_ne_nil width n), List.take_of_length_le (by omega), hlen,
    Decimal.value_append, value_padded, Decimal.value_replicate_zero, List.length_replicate,
    List.drop_left' hlen, Nat.add_zero]

/-- The decimal places are read as they were written. -/
theorem readPlaces_placesText {nano : Nat} (h : nano < 1000000000) (rest : List Char) :
    readPlaces (placesText nano ++ 'Z' :: rest) = some (nano, 'Z' :: rest) := by
  unfold placesText
  split
  · next h0 => rw [h0]; rfl
  · split
    · have hnano : nano / 1000000 * 10 ^ (9 - 3) = nano := by omega
      rw [List.cons_append, readPlaces_padded (by decide) (by decide) (by omega), hnano]
    · split
      · have hnano : nano / 1000 * 10 ^ (9 - 6) = nano := by omega
        rw [List.cons_append, readPlaces_padded (by decide) (by decide) (by omega), hnano]
      · rw [List.cons_append, readPlaces_padded (by decide) (by decide) h]
        simp

/-! ## Whole timestamps -/

theorem of?_self (t : Timestamp) : of? t.date t.hour t.minute t.second t.nano = some t := by
  simp [of?, t.hour_lt, t.minute_lt, t.second_le, t.nano_lt]

/-- Whether the year of a timestamp is written with four digits and no sign. -/
def HasPlainYear (t : Timestamp) : Prop := 0 ≤ t.date.year ∧ t.date.year ≤ 9999

instance (t : Timestamp) : Decidable t.HasPlainYear :=
  inferInstanceAs (Decidable (0 ≤ t.date.year ∧ t.date.year ≤ 9999))

theorem HasPlainYear.yearInRange {t : Timestamp} (h : t.HasPlainYear) :
    yearInRange t.date.year = true := by
  unfold Timestamp.yearInRange
  rw [Bool.and_eq_true, decide_eq_true_eq, decide_eq_true_eq]
  have := h.1
  have := h.2
  omega

theorem daysIn_le (year : Int) (month : Nat) : daysIn year month ≤ 31 := by
  unfold daysIn
  split <;> first | omega | (split <;> omega)

theorem readDate_chars {t : Timestamp} (h : t.HasPlainYear) (rest : List Char) :
    readDate (yearText t.date.year ++ '-' :: (padded 2 t.date.month ++ '-' ::
      (padded 2 t.date.day ++ rest))) = some (t.date, rest) := by
  have hday : t.date.day < 100 := by
    have := t.date.day_le
    have := daysIn_le t.date.year t.date.month
    omega
  have hmonth : t.date.month < 100 := by
    have := t.date.month_le
    omega
  unfold readDate
  simp only [readYear_yearText h, readMark_cons '-' rfl, readPair_padded hmonth,
    readPair_padded hday, Option.bind_eq_bind, Option.bind_some, h.yearInRange, if_true,
    Date.of?_self]
  rfl

theorem readDivider_T (rest : List Char) : readDivider ('T' :: rest) = some rest := rfl

theorem readOffset_Z : readOffset (dropBlanks ['Z']) = some (0, []) := rfl

/-- **A timestamp is read as it was written**, in the years 0 to 9999. -/
theorem ofText?_text {t : Timestamp} (h : t.HasPlainYear) : ofText? t.text = some t := by
  have hhour : t.hour < 100 := by have := t.hour_lt; omega
  have hminute : t.minute < 100 := by have := t.minute_lt; omega
  have hsecond : t.second < 100 := by have := t.second_le; omega
  rw [ofText?, text, String.toList_ofList, ofChars?, chars, readDate_chars h,
    Option.bind_eq_bind, Option.bind_some]
  dsimp only [Option.bind_eq_bind]
  -- every part ends where the next begins, so they are read one after the other
  rw [readDivider_T, Option.bind_some, readPair_padded hhour, Option.bind_some,
    readMark_cons ':' rfl, Option.bind_some, readPair_padded hminute, Option.bind_some,
    readMark_cons ':' rfl, Option.bind_some, readPair_padded hsecond, Option.bind_some,
    readPlaces_placesText t.nano_lt, Option.bind_some, readOffset_Z, Option.bind_some, of?_self,
    Option.bind_some, shift_zero, if_pos ⟨rfl, h.yearInRange⟩]

end Timestamp

/-! ## Two times -/

namespace Sample

/-- A time at which nothing has happened yet. -/
def time : Timestamp :=
  ⟨⟨2025, 1, 1, by decide, by decide, by decide, by decide⟩, 0, 0, 0, 0, by decide, by decide,
    by decide, by decide⟩

/-- A later time. -/
def later : Timestamp :=
  ⟨⟨2025, 1, 2, by decide, by decide, by decide, by decide⟩, 0, 0, 0, 0, by decide, by decide,
    by decide, by decide⟩

end Sample

end Firewall
