/-
# Digits read back

A natural number is written in decimal digits; reading the digits gives the number back.

* `Decimal.value_toDigits` : the number that written digits stand for;
* `Decimal.toDigits_value` : digits without a zero in front are how their number is written;
* `Decimal.exists_replicate_toDigits` : other digits have zeros in front of that;
* `Decimal.unsigned?_toDigits` : a written number is read as it was.
-/
import Mathlib.Data.List.Induction
import Mathlib.Tactic.Ring
import Firewall.Decimal

namespace Firewall

namespace Decimal

/-- The number that written digits stand for. -/
@[simp] theorem value_toDigits (n : Nat) : value (Nat.toDigits 10 n) = n := by
  have h := Nat.ofDigitChars_ten_toDigits (n := n)
  rw [Nat.ofDigitChars_eq_foldl] at h
  unfold value
  simpa only [Nat.mul_comm 10, Char.reduceToNat] using h

/-- Digits in front of others count as often as the others have places. -/
theorem value_append (ds ds' : List Char) :
    value (ds ++ ds') = value ds * 10 ^ ds'.length + value ds' := by
  induction ds' using List.reverseRecOn with
  | nil => simp [value]
  | append_singleton ds' d ih =>
    rw [← List.append_assoc, value_append_singleton, ih, value_append_singleton, List.length_append,
      List.length_singleton, Nat.pow_succ]
    ring

@[simp] theorem value_replicate_zero (k : Nat) : value (List.replicate k '0') = 0 := by
  induction k with
  | zero => rfl
  | succ k ih => rw [List.replicate_succ', value_append_singleton, ih]; rfl

/-- A number is written in digits only. -/
theorem all_isDigit_toDigits (n : Nat) : (Nat.toDigits 10 n).all Char.isDigit = true := by
  rw [List.all_eq_true]
  intro c hc
  exact Nat.isDigit_of_mem_toDigits (by decide) (by decide) hc

/-- No number but zero is written with a zero in front. -/
theorem head?_toDigits_ne_zero {n : Nat} (h : 0 < n) :
    (Nat.toDigits 10 n).head? ≠ some '0' := by
  induction n using Nat.strongRecOn with
  | ind n ih =>
    by_cases hn : n < 10
    · rw [Nat.toDigits_of_lt_base hn, List.head?_cons]
      intro h0
      rw [Option.some_inj, Nat.digitChar_eq_zero] at h0
      omega
    · obtain ⟨d, ds, hds⟩ := List.exists_cons_of_ne_nil (Nat.toDigits_ne_nil (n := n / 10))
      have hd := ih (n / 10) (by omega) (by omega)
      rw [Nat.toDigits_of_base_le (by decide) (by omega), hds, List.cons_append, List.head?_cons]
      rwa [hds, List.head?_cons] at hd

theorem digitChar_of_isDigit {c : Char} (h : c.isDigit = true) :
    Nat.digitChar (c.toNat - 48) = c := by
  obtain ⟨hlow, hhigh⟩ := Char.isDigit_iff_toNat.1 h
  have hzero : '0'.toNat = 48 := rfl
  have hnine : '9'.toNat = 57 := rfl
  apply Char.toNat_inj.1
  rw [Nat.toNat_digitChar_of_lt_ten (by omega)]
  omega

/-- **Digits without a zero in front are how their number is written**; so is a single zero. -/
theorem toDigits_value {ds : List Char} (hne : ds ≠ []) (hdigits : ds.all Char.isDigit = true)
    (hzero : ds.head? = some '0' → ds.length = 1) : Nat.toDigits 10 (value ds) = ds := by
  induction ds using List.reverseRecOn with
  | nil => exact absurd rfl hne
  | append_singleton ds d ih =>
    rw [List.all_append, Bool.and_eq_true, List.all_cons, Bool.and_eq_true] at hdigits
    obtain ⟨hds, hd, -⟩ := hdigits
    have hlt : d.toNat - 48 < 10 := by
      have hhigh := (Char.isDigit_iff_toNat.1 hd).2
      have hnine : '9'.toNat = 57 := rfl
      omega
    have hlast : Nat.toDigits 10 (d.toNat - 48) = [d] := by
      rw [Nat.toDigits_of_lt_base hlt, digitChar_of_isDigit hd]
    rw [value_append_singleton]
    by_cases hnil : ds = []
    · rw [hnil, List.nil_append, ← hlast]
      exact congrArg _ (Nat.zero_add _)
    · -- two digits or more, so the first one is no zero, and neither is the number of all but the last
      have hhead : ds.head? ≠ some '0' := by
        intro h0
        have hone := hzero (by rw [List.head?_append, h0]; rfl)
        rw [List.length_append, List.length_singleton] at hone
        exact hnil (List.length_eq_zero_iff.1 (by omega))
      have hrest := ih hnil hds fun h0 => absurd h0 hhead
      have hpos : 0 < value ds := by
        rw [Nat.pos_iff_ne_zero]
        intro h0
        rw [h0] at hrest
        exact hhead (by rw [← hrest]; rfl)
      calc Nat.toDigits 10 (value ds * 10 + (d.toNat - 48))
          = Nat.toDigits 10 (10 * value ds + (d.toNat - 48)) := by rw [Nat.mul_comm]
        _ = Nat.toDigits 10 (value ds) ++ Nat.toDigits 10 (d.toNat - 48) :=
            (Nat.toDigits_append_toDigits (by decide) hpos hlt).symm
        _ = ds ++ [d] := by rw [hrest, hlast]

/-- Digits are the zeros in front and then how their number is written. -/
theorem exists_replicate_toDigits {ds : List Char} (hne : ds ≠ [])
    (hdigits : ds.all Char.isDigit = true) :
    ∃ zeros, ds = List.replicate zeros '0' ++ Nat.toDigits 10 (value ds) := by
  induction ds with
  | nil => exact absurd rfl hne
  | cons d ds ih =>
    by_cases hlead : d = '0' ∧ ds ≠ []
    · obtain ⟨rfl, hds⟩ := hlead
      rw [List.all_cons, Bool.and_eq_true] at hdigits
      obtain ⟨zeros, hzeros⟩ := ih hds hdigits.2
      have hvalue : value ('0' :: ds) = value ds := rfl
      exact ⟨zeros + 1, by rw [hvalue, List.replicate_succ, List.cons_append, ← hzeros]⟩
    · refine ⟨0, (toDigits_value hne hdigits fun h0 => ?_).symm⟩
      rw [List.head?_cons, Option.some_inj] at h0
      rw [not_and_not_right] at hlead
      rw [hlead h0, List.length_singleton]

/-- The digits of a number have no sign in front. -/
theorem dropPlus_toDigits (n : Nat) : dropPlus (Nat.toDigits 10 n) = Nat.toDigits 10 n := by
  unfold dropPlus
  split
  · next ds h =>
    have hplus := List.all_eq_true.1 (all_isDigit_toDigits n) '+'
      (by rw [h]; exact List.mem_cons_self)
    exact absurd hplus (by decide)
  · rfl

/-- **A written number is read as it was.** -/
theorem unsigned?_toDigits (n : Nat) : unsigned? (Nat.toDigits 10 n) = some n := by
  unfold unsigned?
  rw [dropPlus_toDigits, if_pos ⟨Nat.toDigits_ne_nil, all_isDigit_toDigits n⟩, value_toDigits]

end Decimal

end Firewall
