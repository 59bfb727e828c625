/-
# Texts and numbers read back

A text is written between quotes with its special characters escaped, an integer in decimal digits.
Reading either gives it back, and hands on what follows.

* `Json.readText_write` : quoted texts;
* `Json.readNumber_writeInt` : integers of 64 bits.
-/
import Firewall.Json.Reader
import Firewall.Json.Writer
import Firewall.Proofs.Decimal

namespace Firewall

namespace Json

/-! ## Characters -/

/-- What was read, with one more unit in front. -/
def pushUnit (n : Nat) (read : Option (List Nat × List Char)) : Option (List Nat × List Char) :=
  read.map fun p => (n :: p.1, p.2)

/-- A character that stands for itself. -/
theorem readUnits_plain {c : Char} (hq : c ≠ '"') (hb : c ≠ '\\') (hc : ¬ c.toNat < 32)
    (cs : List Char) : readUnits (c :: cs) = pushUnit c.toNat (readUnits cs) := by
  rw [readUnits.eq_def]
  split
  · next h => cases h
  · next h => exact absurd (List.cons.inj h).1 hq
  · next h => exact absurd (List.cons.inj h).1 hb
  · next h => exact absurd (List.cons.inj h).1 hb
  · next h =>
    cases h
    rw [if_neg (by simp [hc, hb])]
    cases readUnits cs <;> rfl

/-- A character written as a letter after a backslash. -/
theorem readUnits_letter {c : Char} {n : Nat} (h : unescape? c = some n) (cs : List Char) :
    readUnits ('\\' :: c :: cs) = pushUnit n (readUnits cs) := by
  have hu : c ≠ 'u' := by
    rintro rfl
    cases h
  rw [readUnits, h]
  · cases readUnits cs <;> rfl
  · intro a b c' d rest hc
    exact absurd hc hu

/-- A character written by its number. -/
theorem readUnits_code {a b c d : Char} {n : Nat} (h : hexUnit? a b c d = some n)
    (cs : List Char) :
    readUnits ('\\' :: 'u' :: a :: b :: c :: d :: cs) = pushUnit n (readUnits cs) := by
  rw [readUnits, h]
  cases readUnits cs <;> rfl

theorem hexUnit?_hexDigit : ∀ n < 32,
    hexUnit? '0' '0' (hexDigit (n / 16)) (hexDigit (n % 16)) = some n := by
  decide

/-- **An escaped character** is read as one unit, its own. -/
theorem readUnits_escape (c : Char) (cs : List Char) :
    readUnits (escape c ++ cs) = pushUnit c.toNat (readUnits cs) := by
  unfold escape
  split
  case h_8 hq hb _ _ _ _ _ =>
    by_cases hc : c.toNat < 32
    · rw [if_pos hc]
      exact readUnits_code (hexUnit?_hexDigit c.toNat hc) cs
    · rw [if_neg hc]
      exact readUnits_plain hq hb hc cs
  all_goals exact readUnits_letter (by rfl) cs

/-! ## Texts -/

/-- The units of a text are its characters. -/
theorem readUnits_write (cs rest : List Char) :
    readUnits (cs.flatMap escape ++ '"' :: rest) = some (cs.map Char.toNat, rest) := by
  induction cs with
  | nil => rfl
  | cons c cs ih =>
    rw [List.flatMap_cons, List.append_assoc, readUnits_escape, ih]
    rfl

/-- No character is half of a surrogate pair. -/
theorem isHigh_toNat (c : Char) : isHigh c.toNat = false ∧ isLow c.toNat = false := by
  have h := c.valid
  unfold isHigh isLow
  rw [UInt32.isValidChar, Nat.isValidChar] at h
  change (c.toNat < 0xD800 ∨ 0xDFFF < c.toNat ∧ c.toNat < 0x110000) at h
  simp only [Bool.and_eq_false_iff, decide_eq_false_iff_not]
  omega

/-- Characters are joined to themselves. -/
theorem joinUnits_map_toNat (cs : List Char) : joinUnits (cs.map Char.toNat) = some cs := by
  induction cs with
  | nil => rfl
  | cons c cs ih =>
    obtain ⟨hhigh, hlow⟩ := isHigh_toNat c
    cases cs with
    | nil => simp [joinUnits, hhigh, hlow, Char.ofNat_toNat]
    | cons c' cs =>
      rw [List.map_cons] at ih
      simp [joinUnits, hhigh, hlow, ih, Char.ofNat_toNat]

/-- **A quoted text is read as it was.** -/
theorem readText_write (cs rest : List Char) :
    readText (cs.flatMap escape ++ '"' :: rest) = some (some (String.ofList cs), rest) := by
  simp only [readText, readUnits_write, joinUnits_map_toNat, Option.map_some]

/-! ## Integers -/

/-- What follows does not go on with a number. -/
def EndsNumber (rest : List Char) : Prop :=
  ∀ c ∈ rest.head?, c.isDigit = false ∧ c ≠ '.' ∧ c ≠ 'e' ∧ c ≠ 'E'

/-- Digits end where no digit follows. -/
theorem spanDigits_append {ds rest : List Char} (hds : ds.all Char.isDigit = true)
    (hrest : EndsNumber rest) : spanDigits (ds ++ rest) = (ds, rest) := by
  have hds' : ∀ c ∈ ds, c.isDigit = true := List.all_eq_true.1 hds
  unfold spanDigits
  rw [List.takeWhile_append_of_pos hds', List.dropWhile_append_of_pos hds']
  cases rest with
  | nil => simp
  | cons c cs =>
    have hc := (hrest c rfl).1
    rw [List.takeWhile_cons_of_neg (by rw [hc]; decide),
      List.dropWhile_cons_of_neg (by rw [hc]; decide), List.append_nil]

theorem readPlaces_of_endsNumber {rest : List Char} (h : EndsNumber rest) :
    readPlaces rest = some ([], rest) := by
  unfold readPlaces
  split
  · next cs => exact absurd rfl (h '.' rfl).2.1
  · rfl

theorem readExponent_of_endsNumber {rest : List Char} (h : EndsNumber rest) :
    readExponent rest = some (none, rest) := by
  cases rest with
  | nil => rfl
  | cons c cs =>
    obtain ⟨-, -, he, hE⟩ := h c rfl
    rw [readExponent.eq_def]
    simp only [he, hE, or_self, if_false]

/-- More digits make no number less. -/
theorem le_foldl_digits (ds : List Char) (n : Nat) :
    n ≤ ds.foldl (fun n d => n * 10 + (d.toNat - 48)) n := by
  induction ds generalizing n with
  | nil => exact Nat.le_refl n
  | cons d ds ih =>
    have hn : n ≤ n * 10 + (d.toNat - 48) := by omega
    exact Nat.le_trans hn (ih _)

/-- Digits within 64 bits are taken all. -/
theorem absorbDigits_eq {ds : List Char} {n : Nat}
    (h : ds.foldl (fun n d => n * 10 + (d.toNat - 48)) n < UInt64.size) :
    absorbDigits n ds = (ds.foldl (fun n d => n * 10 + (d.toNat - 48)) n, ds.length) := by
  induction ds generalizing n with
  | nil => rfl
  | cons d ds ih =>
    rw [List.foldl_cons] at h ⊢
    have hd := Nat.lt_of_le_of_lt (le_foldl_digits ds _) h
    rw [absorbDigits]
    simp only [if_pos hd, ih h, List.length_cons]

/-- The digits of a number of 64 bits are taken all. -/
theorem absorbDigits_toDigits {n : Nat} (h : n < UInt64.size) :
    absorbDigits 0 (Nat.toDigits 10 n) = (n, (Nat.toDigits 10 n).length) := by
  have hvalue : (Nat.toDigits 10 n).foldl (fun n d => n * 10 + (d.toNat - 48)) 0 = n :=
    Decimal.value_toDigits n
  rw [absorbDigits_eq (by rwa [hvalue]), hvalue]

/-- Written digits are read as an integer with the given sign. -/
theorem readUnsigned_toDigits (negative : Bool) {n : Nat} (h : n < UInt64.size)
    (hneg : negative = true → 0 < n ∧ n ≤ 9223372036854775808) {rest : List Char}
    (hrest : EndsNumber rest) :
    readUnsigned negative (Nat.toDigits 10 n ++ rest) =
      some (some (.integer (if negative then -(n : Int) else n)), rest) := by
  have hzero : ¬ ((Nat.toDigits 10 n).head? = some '0' ∧ 1 < (Nat.toDigits 10 n).length) := by
    rintro ⟨h0, h1⟩
    rcases Nat.eq_zero_or_pos n with rfl | hn
    · exact absurd h1 (by decide)
    · exact Decimal.head?_toDigits_ne_zero hn h0
  have hnumber : numberOf negative (Nat.toDigits 10 n) [] none =
      some (.integer (if negative then -(n : Int) else n)) := by
    simp only [numberOf, absorbDigits_toDigits h, true_and]
    rw [if_pos hneg]
  simp only [readUnsigned, spanDigits_append (Decimal.all_isDigit_toDigits n) hrest]
  rw [if_neg (not_or.2 ⟨Nat.toDigits_ne_nil, hzero⟩), readPlaces_of_endsNumber hrest]
  simp only [readExponent_of_endsNumber hrest, hnumber]

/-- **A written integer is read as it was**, if 64 bits hold it. -/
theorem readNumber_writeInt {n : Int} (h : Number.inRange (.integer n) = true)
    {rest : List Char} (hrest : EndsNumber rest) :
    readNumber (writeInt n ++ rest) = some (some (.integer n), rest) := by
  rw [Number.inRange, Bool.and_eq_true, decide_eq_true_eq, decide_eq_true_eq] at h
  have hsize : UInt64.size = 18446744073709551616 := rfl
  unfold writeInt
  by_cases hn : n < 0
  · rw [if_pos hn, List.cons_append, readNumber, readUnsigned_toDigits true (by omega) _ hrest]
    · rw [if_pos rfl, Int.ofNat_natAbs_of_nonpos (Int.le_of_lt hn), Int.neg_neg]
    · intro _
      omega
  · -- a number without a sign starts with a digit, so it is not taken for a negative one
    have hsign : readNumber (Nat.toDigits 10 n.natAbs ++ rest) =
        readUnsigned false (Nat.toDigits 10 n.natAbs ++ rest) := by
      unfold readNumber
      split
      · next cs hcs =>
        obtain ⟨d, ds, hds⟩ := List.exists_cons_of_ne_nil (Nat.toDigits_ne_nil (n := n.natAbs))
        have hd := List.all_eq_true.1 (Decimal.all_isDigit_toDigits n.natAbs) d
          (by rw [hds]; exact List.mem_cons_self)
        rw [hds, List.cons_append] at hcs
        rw [(List.cons.inj hcs).1] at hd
        exact absurd hd (by decide)
      · rfl
    have hread := readUnsigned_toDigits false (n := n.natAbs) (by omega)
      (fun hf => Bool.noConfusion hf) hrest
    rw [if_neg hn, hsign, hread, if_neg Bool.false_ne_true, Int.natAbs_of_nonneg (by omega)]

end Json

end Firewall
