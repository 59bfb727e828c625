/-
# How literal addresses are written

A literal address is a dotted quad, alone or with a mask after a slash.  A mask is the number of its
leading bits, which may have a plus sign in front, or a netmask, which is a dotted quad itself.  An
address is *plain* if its mask, if any, is a number of bits in digits alone.

* `Address.Quad`, `quad?_eq_some_iff` : dotted quads and the addresses that they stand for;
* `Address.Mask`, `isMask_iff` : masks;
* `Address.Written`, `isLiteral_iff` : the literal addresses are those with a mask of any form;
* `Address.IsPlain`, `IsPlain.isLiteral` : plain addresses are literal addresses.
-/
import Firewall.Address
import Firewall.Proofs.Decimal

namespace Firewall

namespace Address

/-! ## Octets -/

/-- **An octet is a number up to 255 in decimal digits.** -/
theorem octet?_eq_some_iff {cs : List Char} {n : Nat} :
    octet? cs = some n ↔ n ≤ 255 ∧ cs = Nat.toDigits 10 n := by
  unfold octet?
  constructor
  · intro h
    rw [Option.ite_none_right_eq_some, Option.some_inj] at h
    obtain ⟨⟨⟨hne, -, hdigits, hzero⟩, hle⟩, rfl⟩ := h
    exact ⟨hle, (Decimal.toDigits_value hne hdigits hzero).symm⟩
  · rintro ⟨hle, rfl⟩
    have hlength : (Nat.toDigits 10 n).length ≤ 3 :=
      (Nat.length_toDigits_le_iff (by decide) (by decide)).2 (by omega)
    have hzero : (Nat.toDigits 10 n).head? = some '0' → (Nat.toDigits 10 n).length = 1 := by
      intro h0
      rcases Nat.eq_zero_or_pos n with rfl | hpos
      · rfl
      · exact absurd h0 (Decimal.head?_toDigits_ne_zero hpos)
    rw [Decimal.value_toDigits, if_pos
      ⟨⟨Nat.toDigits_ne_nil, hlength, Decimal.all_isDigit_toDigits n, hzero⟩, hle⟩]

/-! ## Dotted quads -/

/-- A text is the dotted quad of an address: its four octets in decimal digits, divided by points. -/
inductive Quad : List Char → Nat → Prop
  | mk {a b c d : Nat} (ha : a ≤ 255) (hb : b ≤ 255) (hc : c ≤ 255) (hd : d ≤ 255) :
      Quad (joinPieces '.' ([a, b, c, d].map (Nat.toDigits 10))) (((a * 256 + b) * 256 + c) * 256 + d)

theorem not_mem_toDigits {c : Char} (hc : c.isDigit = false) (n : Nat) :
    c ∉ Nat.toDigits 10 n := by
  intro h
  rw [List.all_eq_true.1 (Decimal.all_isDigit_toDigits n) c h] at hc
  cases hc

/-- **Reading dotted quads.** -/
theorem quad?_eq_some_iff {cs : List Char} {n : Nat} : quad? cs = some n ↔ Quad cs n := by
  constructor
  · intro h
    unfold quad? at h
    split at h
    · next a b c d hpieces =>
      obtain ⟨p, ps, hp, ha, hps⟩ := List.map_eq_cons_iff.1 hpieces
      obtain ⟨q, qs, rfl, hb, hqs⟩ := List.map_eq_cons_iff.1 hps
      obtain ⟨r, rs, rfl, hc, hrs⟩ := List.map_eq_cons_iff.1 hqs
      obtain ⟨s, ss, rfl, hd, hss⟩ := List.map_eq_cons_iff.1 hrs
      rw [List.map_eq_nil_iff] at hss
      obtain ⟨hlea, rfl⟩ := octet?_eq_some_iff.1 ha
      obtain ⟨hleb, rfl⟩ := octet?_eq_some_iff.1 hb
      obtain ⟨hlec, rfl⟩ := octet?_eq_some_iff.1 hc
      obtain ⟨hled, rfl⟩ := octet?_eq_some_iff.1 hd
      cases h
      rw [← joinPieces_pieces '.' cs, hp, hss]
      exact .mk hlea hleb hlec hled
    · cases h
  · rintro ⟨ha, hb, hc, hd⟩
    have hread : ∀ m ≤ 255, octet? (Nat.toDigits 10 m) = some m := fun m hm =>
      octet?_eq_some_iff.2 ⟨hm, rfl⟩
    unfold quad?
    rw [pieces_joinPieces (by simp) (by simp [not_mem_toDigits])]
    simp only [List.map_cons, List.map_nil, hread _ ha, hread _ hb, hread _ hc, hread _ hd]

/-- There is nothing but digits and points in a dotted quad. -/
theorem Quad.isDigit_or {cs : List Char} {n : Nat} (h : Quad cs n) {c : Char} (hc : c ∈ cs) :
    c.isDigit = true ∨ c = '.' := by
  have hdigit : ∀ {m : Nat}, c ∈ Nat.toDigits 10 m → c.isDigit = true := fun hm =>
    Nat.isDigit_of_mem_toDigits (by decide) (by decide) hm
  cases h
  simp only [List.map_cons, List.map_nil, joinPieces, List.mem_append, List.mem_cons] at hc
  rcases hc with hc | hc | hc | hc | hc | hc | hc
  all_goals first | exact Or.inr hc | exact Or.inl (hdigit hc)

/-! ## Masks -/

/-- A number of leading bits, in decimal digits. -/
structure Length (cs : List Char) : Prop where
  ne_nil : cs ≠ []
  digits : ∀ c ∈ cs, c.isDigit = true
  le : Decimal.value cs ≤ 32

/-- A mask: a number of leading bits, which may have a plus sign in front, or a netmask, whose bits
are ones followed by zeros. -/
inductive Mask : List Char → Prop
  | length {cs : List Char} (h : Length cs) : Mask cs
  | signed {cs : List Char} (h : Length cs) : Mask ('+' :: cs)
  | netmask {cs : List Char} {zeros : Nat} (h : Quad cs (2 ^ 32 - 2 ^ zeros)) (hzeros : zeros ≤ 32) :
      Mask cs

theorem isContiguous_iff {n : Nat} :
    isContiguous n = true ↔ ∃ zeros ≤ 32, n = 2 ^ 32 - 2 ^ zeros := by
  unfold isContiguous
  rw [List.any_eq_true]
  constructor
  · rintro ⟨k, hk, h⟩
    rw [List.mem_range] at hk
    rw [decide_eq_true_eq, Nat.one_shiftLeft] at h
    exact ⟨k, by omega, h⟩
  · rintro ⟨k, hk, h⟩
    refine ⟨k, List.mem_range.2 (by omega), ?_⟩
    rw [decide_eq_true_eq, Nat.one_shiftLeft]
    exact h

/-- A number of leading bits is read with a plus sign or without. -/
theorem maskLength?_isSome_iff {cs : List Char} :
    (maskLength? cs).isSome = true ↔ Length (Decimal.dropPlus cs) := by
  unfold maskLength? Decimal.unsigned?
  by_cases h : Decimal.dropPlus cs ≠ [] ∧ (Decimal.dropPlus cs).all Char.isDigit = true
  · rw [if_pos h, Option.filter_some]
    constructor
    · intro hsome
      refine ⟨h.1, List.all_eq_true.1 h.2, ?_⟩
      by_contra hle
      rw [if_neg (by simpa using hle)] at hsome
      cases hsome
    · intro hlength
      rw [if_pos (by simpa using hlength.le)]
      rfl
  · rw [if_neg h]
    constructor
    · intro hsome
      cases hsome
    · intro hlength
      exact absurd ⟨hlength.ne_nil, List.all_eq_true.2 hlength.digits⟩ h

/-- There is a point in a dotted quad. -/
theorem Quad.point_mem {cs : List Char} {n : Nat} (h : Quad cs n) : '.' ∈ cs := by
  cases h
  simp [joinPieces]

theorem dropPlus_cases (cs : List Char) :
    cs = Decimal.dropPlus cs ∨ cs = '+' :: Decimal.dropPlus cs := by
  unfold Decimal.dropPlus
  split
  · exact Or.inr rfl
  · exact Or.inl rfl

/-- A number of leading bits is no dotted quad, with a plus sign or without. -/
theorem quad?_eq_none_of_length {cs : List Char} (h : Length (Decimal.dropPlus cs)) :
    quad? cs = none := by
  rw [Option.eq_none_iff_forall_ne_some]
  intro n hn
  have hpoint := (quad?_eq_some_iff.1 hn).point_mem
  -- a point is no plus sign, so it would stand in the number
  have hmem : '.' ∈ Decimal.dropPlus cs := by
    rcases dropPlus_cases cs with heq | heq
    · rwa [← heq]
    · rw [heq, List.mem_cons] at hpoint
      exact hpoint.resolve_left (by decide)
  exact absurd (h.digits '.' hmem) (by decide)

/-- **The masks that are read** are those that are written as one. -/
theorem isMask_iff {cs : List Char} : isMask cs = true ↔ Mask cs := by
  constructor
  · intro h
    unfold isMask at h
    split at h
    · next n hquad =>
      obtain ⟨zeros, hzeros, rfl⟩ := isContiguous_iff.1 h
      exact .netmask (quad?_eq_some_iff.1 hquad) hzeros
    · have hlength := maskLength?_isSome_iff.1 h
      rcases dropPlus_cases cs with heq | heq
      · rw [← heq] at hlength
        exact .length hlength
      · rw [heq]
        exact .signed hlength
  · intro h
    unfold isMask
    cases h with
    | length h =>
      have hplus : Decimal.dropPlus cs = cs := by
        rcases dropPlus_cases cs with heq | heq
        · exact heq.symm
        · exact absurd (h.digits '+' (by rw [heq]; exact List.mem_cons_self)) (by decide)
      rw [← hplus] at h
      simp only [quad?_eq_none_of_length h, maskLength?_isSome_iff.2 h]
    | @signed cs h =>
      have hlength : Length (Decimal.dropPlus ('+' :: cs)) := h
      simp only [quad?_eq_none_of_length hlength, maskLength?_isSome_iff.2 hlength]
    | netmask h hzeros =>
      simp only [quad?_eq_some_iff.2 h]
      exact isContiguous_iff.2 ⟨_, hzeros, rfl⟩

/-! ## Addresses -/

/-- A text is a dotted quad, alone or followed by a slash and a mask of some form. -/
inductive Written (mask : List Char → Prop) : List Char → Prop
  | host {cs : List Char} {n : Nat} (h : Quad cs n) : Written mask cs
  | block {cs ms : List Char} {n : Nat} (h : Quad cs n) (hmask : mask ms) :
      Written mask (cs ++ '/' :: ms)

/-- A dotted quad, alone or with a number of leading bits in digits. -/
def IsPlain (s : String) : Prop := Written Length s.toList

theorem Quad.slash_not_mem {cs : List Char} {n : Nat} (h : Quad cs n) : '/' ∉ cs := by
  intro hc
  exact absurd (h.isDigit_or hc) (by decide)

theorem Length.slash_not_mem {cs : List Char} (h : Length cs) : '/' ∉ cs := by
  intro hc
  exact absurd (h.digits '/' hc) (by decide)

theorem Mask.slash_not_mem {cs : List Char} (h : Mask cs) : '/' ∉ cs := by
  cases h with
  | length h => exact h.slash_not_mem
  | signed h => exact fun hc => h.slash_not_mem (by simpa using hc)
  | netmask h _ => exact h.slash_not_mem

/-- **The literal addresses** are the dotted quads, alone or with a mask. -/
theorem isLiteral_iff {s : String} : isLiteral s = true ↔ Written Mask s.toList := by
  constructor
  · intro h
    have hjoin := joinPieces_pieces '/' s.toList
    unfold isLiteral at h
    split at h
    · next quad hpieces =>
      obtain ⟨n, hn⟩ := Option.isSome_iff_exists.1 h
      rw [← hjoin, hpieces]
      exact .host (quad?_eq_some_iff.1 hn)
    · next quad mask hpieces =>
      rw [Bool.and_eq_true] at h
      obtain ⟨n, hn⟩ := Option.isSome_iff_exists.1 h.1
      rw [← hjoin, hpieces]
      exact .block (quad?_eq_some_iff.1 hn) (isMask_iff.1 h.2)
    · cases h
  · intro h
    generalize hcs : s.toList = cs at h
    unfold isLiteral
    rw [hcs]
    cases h with
    | host h =>
      rw [pieces_of_not_mem h.slash_not_mem]
      simp only [quad?_eq_some_iff.2 h, Option.isSome_some]
    | block h hmask =>
      rw [pieces_append_cons h.slash_not_mem, pieces_of_not_mem hmask.slash_not_mem]
      simp only [quad?_eq_some_iff.2 h, isMask_iff.2 hmask, Option.isSome_some, Bool.and_self]

theorem Written.imp {mask mask' : List Char → Prop} (h : ∀ ms, mask ms → mask' ms)
    {cs : List Char} (hcs : Written mask cs) : Written mask' cs := by
  cases hcs with
  | host hquad => exact .host hquad
  | block hquad hmask => exact .block hquad (h _ hmask)

/-- Plain addresses are literal addresses. -/
theorem IsPlain.isLiteral {s : String} (h : IsPlain s) : isLiteral s = true :=
  isLiteral_iff.2 (h.imp fun _ => Mask.length)

/-- There is no plus sign in a plain address. -/
theorem IsPlain.plus_not_mem {s : String} (h : IsPlain s) : '+' ∉ s.toList := by
  unfold IsPlain at h
  intro hplus
  generalize s.toList = cs at h hplus
  cases h with
  | host h => exact absurd (h.isDigit_or hplus) (by decide)
  | block h hlength =>
    rcases List.mem_append.1 hplus with hplus | hplus
    · exact absurd (h.isDigit_or hplus) (by decide)
    · rcases List.mem_cons.1 hplus with hplus | hplus
      · cases hplus
      · exact absurd (hlength.digits '+' hplus) (by decide)

end Address

end Firewall
