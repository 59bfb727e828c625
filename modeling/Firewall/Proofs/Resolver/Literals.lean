/-
# The texts that are taken as literal addresses

A text is checked in two steps: what stands before its first slash must have four parts, and a reader
of networks must take it.  Whatever the reader makes of abbreviated addresses, exactly the literal
addresses pass: a dotted quad, alone or with a netmask or a number of leading bits after one slash.
They are copied into rule lines as they stand, and hold nothing but digits, points, a slash and a plus
sign.

* `Address.OnesThenZeros`, `onesThenZeros_iff` : the bits of netmasks;
* `Address.MaskText`, `mask_iff` : how masks are written;
* `Address.ReadsNetworks`, `isScreened_eq_isLiteral` : the check in two steps, for any reader;
* `Address.Copied`, `copied_of_isLiteral` : literal addresses stand in rule lines as they are;
* `Address.isLiteral_spec` : the literal addresses.
-/
import Mathlib.Data.Nat.Bitwise
import Firewall.Proofs.Address
import Firewall.Proofs.Resolver.Dispatch
import Firewall.RuleLine

namespace Firewall

namespace Address

/-! ## The bits of netmasks -/

/-- The bits of a number below `2 ^ 32`, from the left, are ones followed by zeros. -/
def OnesThenZeros (n : Nat) : Prop := ∃ ones ≤ 32, ∀ i < 32, n.testBit (31 - i) = decide (i < ones)

theorem testBit_netmask {zeros : Nat} (hzeros : zeros ≤ 32) (i : Nat) :
    (2 ^ 32 - 2 ^ zeros).testBit i = (decide (i < 32) && !decide (i < zeros)) := by
  have hpos : 0 < 2 ^ zeros := Nat.two_pow_pos zeros
  have hle : 2 ^ zeros ≤ 2 ^ 32 := Nat.pow_le_pow_right (by decide) hzeros
  have hpred : 2 ^ 32 - 2 ^ zeros = 2 ^ 32 - (2 ^ zeros - 1 + 1) := by omega
  rw [hpred, Nat.testBit_two_pow_sub_succ (by omega), Nat.testBit_two_pow_sub_one]

/-- **Netmasks by their bits.** -/
theorem onesThenZeros_iff {n : Nat} (hn : n < 2 ^ 32) :
    OnesThenZeros n ↔ ∃ zeros ≤ 32, n = 2 ^ 32 - 2 ^ zeros := by
  constructor
  · rintro ⟨ones, hones, hbits⟩
    refine ⟨32 - ones, by omega, Nat.eq_of_testBit_eq fun i => ?_⟩
    rw [testBit_netmask (by omega)]
    by_cases hi : i < 32
    · have hbit := hbits (31 - i) (by omega)
      rw [show 31 - (31 - i) = i by omega] at hbit
      rw [hbit, decide_eq_true hi, Bool.true_and, ← decide_not, decide_eq_decide]
      omega
    · have hlarge : 2 ^ 32 ≤ 2 ^ i := Nat.pow_le_pow_right (by decide) (by omega)
      rw [Nat.testBit_lt_two_pow (by omega), decide_eq_false hi, Bool.false_and]
  · rintro ⟨zeros, hzeros, rfl⟩
    refine ⟨32 - zeros, by omega, fun i hi => ?_⟩
    rw [testBit_netmask hzeros, decide_eq_true (by omega : 31 - i < 32), Bool.true_and,
      ← decide_not, decide_eq_decide]
    omega

theorem Quad.lt_two_pow {cs : List Char} {n : Nat} (h : Quad cs n) : n < 2 ^ 32 := by
  cases h
  omega

/-! ## How masks are written -/

/-- A mask is written as a netmask, whose bits are ones followed by zeros, or as a number of leading
bits up to 32, which may have zeros in front, and one plus sign in front of those. -/
inductive MaskText : List Char → Prop
  | netmask {cs : List Char} {n : Nat} (h : Quad cs n) (hbits : OnesThenZeros n) : MaskText cs
  | number {plus : List Char} (hplus : plus = [] ∨ plus = ['+']) (zeros : Nat) {n : Nat}
      (hn : n ≤ 32) : MaskText (plus ++ (List.replicate zeros '0' ++ Nat.toDigits 10 n))

/-- A number of leading bits is written with any number of zeros in front. -/
theorem length_iff {cs : List Char} :
    Length cs ↔ ∃ zeros, ∃ n ≤ 32, cs = List.replicate zeros '0' ++ Nat.toDigits 10 n := by
  constructor
  · intro h
    obtain ⟨zeros, hzeros⟩ :=
      Decimal.exists_replicate_toDigits h.ne_nil (List.all_eq_true.2 h.digits)
    exact ⟨zeros, Decimal.value cs, h.le, hzeros⟩
  · rintro ⟨zeros, n, hn, rfl⟩
    refine ⟨fun hnil => Nat.toDigits_ne_nil (List.append_eq_nil_iff.1 hnil).2, fun c hc => ?_, ?_⟩
    · rcases List.mem_append.1 hc with hc | hc
      · rw [List.eq_of_mem_replicate hc]
        rfl
      · exact List.all_eq_true.1 (Decimal.all_isDigit_toDigits n) c hc
    · rw [Decimal.value_append, Decimal.value_replicate_zero, Decimal.value_toDigits]
      omega

/-- **The masks** are what is written as one. -/
theorem mask_iff {cs : List Char} : Mask cs ↔ MaskText cs := by
  constructor
  · intro h
    cases h with
    | length h =>
      obtain ⟨zeros, n, hn, rfl⟩ := length_iff.1 h
      exact .number (.inl rfl) zeros hn
    | signed h =>
      obtain ⟨zeros, n, hn, rfl⟩ := length_iff.1 h
      exact .number (.inr rfl) zeros hn
    | netmask h hzeros => exact .netmask h ((onesThenZeros_iff h.lt_two_pow).2 ⟨_, hzeros, rfl⟩)
  · intro h
    cases h with
    | netmask h hbits =>
      obtain ⟨zeros, hzeros, rfl⟩ := (onesThenZeros_iff h.lt_two_pow).1 hbits
      exact .netmask h hzeros
    | number hplus zeros hn =>
      have hlength := length_iff.2 ⟨zeros, _, hn, rfl⟩
      rcases hplus with rfl | rfl
      · exact .length hlength
      · exact .signed hlength

/-! ## The check in two steps -/

/-- Whether a text has four parts divided by points. -/
def hasFourParts (cs : List Char) : Bool := (pieces '.' cs).length = 4

/-- The check of a text with a reader of networks: what stands before the first slash has four parts,
and the reader takes the text. -/
def isScreened (reads : String → Bool) (s : String) : Bool :=
  hasFourParts (s.toList.takeWhile fun c => c ≠ '/') && reads s

/-- What a reader takes after the slash: the netmask of a number of leading bits, or, if it is no
address, that number. -/
def ReadsAsMask (cs : List Char) : Prop :=
  (∃ ones ≤ 32, quad? cs = some (2 ^ 32 - 2 ^ (32 - ones))) ∨
    quad? cs = none ∧ ∃ n ≤ 32, Decimal.unsigned? cs = some n

/-- A reader of networks takes an address that can be read, alone or with a mask that can be read after
one slash.  Nothing is said about addresses without four parts: a reader may fill up abbreviated
ones. -/
structure ReadsNetworks (reads : String → Bool) : Prop where
  host {s : String} (hslash : '/' ∉ s.toList) (hparts : hasFourParts s.toList = true) :
    reads s = true ↔ ∃ n, quad? s.toList = some n
  block {s : String} {cs ms : List Char} (hs : s.toList = cs ++ '/' :: ms) (hslash : '/' ∉ cs)
    (hparts : hasFourParts cs = true) :
    reads s = true ↔ (∃ n, quad? cs = some n) ∧ '/' ∉ ms ∧ ReadsAsMask ms

theorem readsAsMask_iff {cs : List Char} : ReadsAsMask cs ↔ Mask cs := by
  rw [← isMask_iff, isMask, ReadsAsMask]
  cases hquad : quad? cs with
  | some n =>
    simp only [Option.some_inj, reduceCtorEq, false_and, or_false, isContiguous_iff]
    constructor
    · rintro ⟨ones, hones, hn⟩
      exact ⟨32 - ones, by omega, hn⟩
    · rintro ⟨zeros, hzeros, hn⟩
      exact ⟨32 - zeros, by omega, by rwa [show 32 - (32 - zeros) = zeros by omega]⟩
  | none =>
    simp only [reduceCtorEq, and_false, exists_false, false_or, true_and]
    unfold maskLength?
    cases hnumber : Decimal.unsigned? cs <;> simp

theorem Quad.hasFourParts {cs : List Char} {n : Nat} (h : Quad cs n) :
    Address.hasFourParts cs = true := by
  cases h
  unfold Address.hasFourParts
  rw [pieces_joinPieces (by simp) (by simp [not_mem_toDigits])]
  rfl

/-- Without a slash, there is only the address. -/
theorem written_host_iff {mask : List Char → Prop} {cs : List Char} (hslash : '/' ∉ cs) :
    Written mask cs ↔ ∃ n, Quad cs n := by
  constructor
  · intro h
    cases h with
    | host h => exact ⟨_, h⟩
    | block h hmask => simp at hslash
  · rintro ⟨n, h⟩
    exact .host h

/-- The address is what stands before the first slash. -/
theorem written_block_iff {mask : List Char → Prop} {cs ms : List Char} (hslash : '/' ∉ cs) :
    Written mask (cs ++ '/' :: ms) ↔ (∃ n, Quad cs n) ∧ mask ms := by
  constructor
  · intro h
    generalize hwhole : cs ++ '/' :: ms = whole at h
    cases h with
    | host h =>
      subst hwhole
      exact absurd (by simp) h.slash_not_mem
    | @block cs' ms' n h hmask =>
      have hpieces := congrArg (pieces '/') hwhole
      rw [pieces_append_cons hslash, pieces_append_cons h.slash_not_mem, List.cons.injEq] at hpieces
      obtain ⟨rfl, -⟩ := hpieces
      rw [List.append_cancel_left_eq, List.cons.injEq] at hwhole
      obtain ⟨-, rfl⟩ := hwhole
      exact ⟨⟨n, h⟩, hmask⟩
  · rintro ⟨⟨n, h⟩, hmask⟩
    exact .block h hmask

theorem takeWhile_ne_slash {cs : List Char} (hslash : '/' ∉ cs) (rest : List Char) :
    (cs ++ rest).takeWhile (fun c => c ≠ '/') = cs ++ rest.takeWhile fun c => c ≠ '/' :=
  List.takeWhile_append_of_pos fun _ hc => decide_eq_true fun heq => hslash (heq ▸ hc)

/-- **The check in two steps** finds the literal addresses, with any reader of networks. -/
theorem isScreened_eq_isLiteral {reads : String → Bool} (h : ReadsNetworks reads) (s : String) :
    isScreened reads s = isLiteral s := by
  rw [Bool.eq_iff_iff, isLiteral_iff]
  unfold isScreened
  rw [Bool.and_eq_true]
  by_cases hslash : '/' ∈ s.toList
  · obtain ⟨cs, ms, hs, hcs⟩ := List.eq_append_cons_of_mem hslash
    have haddress : s.toList.takeWhile (fun c => c ≠ '/') = cs := by
      rw [hs, takeWhile_ne_slash hcs]
      simp
    rw [haddress, hs, written_block_iff hcs]
    constructor
    · rintro ⟨hparts, hreads⟩
      obtain ⟨⟨n, hn⟩, -, hmask⟩ := (h.block hs hcs hparts).1 hreads
      exact ⟨⟨n, quad?_eq_some_iff.1 hn⟩, readsAsMask_iff.1 hmask⟩
    · rintro ⟨⟨n, hn⟩, hmask⟩
      exact ⟨hn.hasFourParts, (h.block hs hcs hn.hasFourParts).2
        ⟨⟨n, quad?_eq_some_iff.2 hn⟩, hmask.slash_not_mem, readsAsMask_iff.2 hmask⟩⟩
  · have haddress : s.toList.takeWhile (fun c => c ≠ '/') = s.toList := by
      simpa using takeWhile_ne_slash hslash []
    rw [haddress, written_host_iff hslash]
    constructor
    · rintro ⟨hparts, hreads⟩
      obtain ⟨n, hn⟩ := (h.host hslash hparts).1 hreads
      exact ⟨n, quad?_eq_some_iff.1 hn⟩
    · rintro ⟨n, hn⟩
      exact ⟨hn.hasFourParts, (h.host hslash hn.hasFourParts).2 ⟨n, quad?_eq_some_iff.2 hn⟩⟩

/-- Taking the literal addresses, and nothing else, is a way to read networks. -/
theorem readsNetworks_isLiteral : ReadsNetworks isLiteral where
  host hslash _ := by
    rw [isLiteral_iff, written_host_iff hslash]
    simp only [quad?_eq_some_iff]
  block hs hslash _ := by
    rw [isLiteral_iff, hs, written_block_iff hslash, readsAsMask_iff]
    simp only [quad?_eq_some_iff]
    exact ⟨fun ⟨hquad, hmask⟩ => ⟨hquad, hmask.slash_not_mem, hmask⟩,
      fun ⟨hquad, _, hmask⟩ => ⟨hquad, hmask⟩⟩

/-! ## Characters -/

/-- What stands in a literal address. -/
def IsAddressChar (c : Char) : Prop := c.isDigit = true ∨ c = '.' ∨ c = '/' ∨ c = '+'

theorem Quad.isAddressChar {cs : List Char} {n : Nat} (h : Quad cs n) {c : Char} (hc : c ∈ cs) :
    IsAddressChar c :=
  (h.isDigit_or hc).imp_right .inl

theorem Mask.isAddressChar {cs : List Char} (h : Mask cs) {c : Char} (hc : c ∈ cs) :
    IsAddressChar c := by
  cases h with
  | length h => exact .inl (h.digits c hc)
  | signed h =>
    rcases List.mem_cons.1 hc with hc | hc
    · exact .inr (.inr (.inr hc))
    · exact .inl (h.digits c hc)
  | netmask h _ => exact h.isAddressChar hc

/-- Nothing but digits, points, a slash and a plus sign stands in a literal address. -/
theorem Written.isAddressChar {cs : List Char} (h : Written Mask cs) {c : Char} (hc : c ∈ cs) :
    IsAddressChar c := by
  cases h with
  | host h => exact h.isAddressChar hc
  | block h hmask =>
    rcases List.mem_append.1 hc with hc | hc
    · exact h.isAddressChar hc
    · rcases List.mem_cons.1 hc with hc | hc
      · exact .inr (.inr (.inl hc))
      · exact hmask.isAddressChar hc

end Address

/-! ## Rule lines -/

/-- The addresses of a line stand in it as they are, the source before the arrow and the destination
behind it. -/
theorem RuleLine.exists_render_eq (l : RuleLine) :
    ∃ rest, l.render = l.action ++ " " ++ l.protocol ++ " " ++ l.source ++ " " ++
      l.sourcePort.text ++ " ->  " ++ l.destination ++ " " ++ l.destinationPort.text ++ rest := by
  refine ⟨" (msg: \"" ++ l.message ++ "\"; sid: " ++ Nat.repr l.sid.toNat ++ ";" ++
    String.join (l.options.map optionText) ++ ")", ?_⟩
  unfold render
  repeat rw [← String.append_assoc]

/-- Every line of a rule is for one of the sources and one of the destinations. -/
theorem Rule.exists_of_mem_compile {r : Rule} {sources destinations : List String} {last : UInt64}
    {l : CompiledRule} (h : l ∈ r.compile sources destinations last) :
    ∃ source ∈ sources, ∃ destination ∈ destinations, ∃ rest,
      l.suricata = r.action ++ " " ++ r.protocol ++ " " ++ source ++ " " ++ r.sourcePort.text ++
        " ->  " ++ destination ++ " " ++ r.destinationPort.text ++ rest := by
  obtain ⟨k, hk, rfl⟩ := List.mem_mapIdx.1 h
  obtain ⟨source, hsource, hpair⟩ := List.mem_flatMap.1 (List.getElem_mem hk)
  obtain ⟨destination, hdestination, hpair⟩ := List.mem_map.1 hpair
  rw [← hpair]
  exact ⟨source, hsource, destination, hdestination,
    (r.line (last + 1 + UInt64.ofNat k) source destination).exists_render_eq⟩

namespace Address

/-- An address is copied as it stands.  An object that holds it is resolved to it alone, and nothing is
asked for that; the lines of a rule that comes from there or goes there hold it in its place. -/
structure Copied (s : String) : Prop where
  resolved {σ : Type} {chain : List Resolver} (hchain : Resolver.address ∈ chain)
    (inventory : Inventory.Source σ) (bundle : Option Bundle) (id : String) (state : σ) :
    (Resolver.resolveBy chain inventory bundle ⟨id, .address s⟩).perform state =
      (.ok (.found ⟨id, .address s⟩ [s]), state)
  source {r : Rule} {destinations : List String} {last : UInt64} {l : CompiledRule}
    (hl : l ∈ r.compile [s] destinations last) :
    ∃ destination ∈ destinations, ∃ rest,
      l.suricata = r.action ++ " " ++ r.protocol ++ " " ++ s ++ " " ++ r.sourcePort.text ++
        " ->  " ++ destination ++ " " ++ r.destinationPort.text ++ rest
  destination {r : Rule} {sources : List String} {last : UInt64} {l : CompiledRule}
    (hl : l ∈ r.compile sources [s] last) :
    ∃ source ∈ sources, ∃ rest,
      l.suricata = r.action ++ " " ++ r.protocol ++ " " ++ source ++ " " ++ r.sourcePort.text ++
        " ->  " ++ s ++ " " ++ r.destinationPort.text ++ rest

theorem copied_of_isLiteral {s : String} (h : isLiteral s = true) : Copied s where
  resolved {σ chain} hchain inventory bundle id state := by
    have haccepts : Resolver.address.accepts ⟨id, .address s⟩ = true :=
      (Resolver.accepts_iff _ _).2 ⟨rfl, h⟩
    rw [Resolver.resolveBy_of_accepts inventory bundle _ hchain haccepts]
    simp only [Resolver.resolve, Resolver.literal?, h, if_true]
    rfl
  source hl := by
    obtain ⟨source, hsource, hline⟩ := Rule.exists_of_mem_compile hl
    rwa [List.mem_singleton.1 hsource] at hline
  destination hl := by
    obtain ⟨source, hsource, destination, hdestination, hline⟩ := Rule.exists_of_mem_compile hl
    rw [List.mem_singleton.1 hdestination] at hline
    exact ⟨source, hsource, hline⟩

/-! ## Literal addresses -/

/-- **The literal addresses** are the texts that pass the check in two steps, with any reader of
networks.  They are the dotted quads, alone or with a netmask or a number of leading bits after one
slash.  They hold nothing but digits, points, a slash and a plus sign, and are copied as they stand. -/
theorem isLiteral_spec {reads : String → Bool} (h : ReadsNetworks reads) (s : String) :
    isScreened reads s = isLiteral s ∧
    (isLiteral s = true ↔ Written MaskText s.toList) ∧
    (isLiteral s = true → (∀ c ∈ s.toList, IsAddressChar c) ∧ Copied s) := by
  refine ⟨isScreened_eq_isLiteral h s, ?_, fun hs => ?_⟩
  · rw [isLiteral_iff]
    exact ⟨Written.imp fun _ => mask_iff.1, Written.imp fun _ => mask_iff.2⟩
  · exact ⟨fun c hc => (isLiteral_iff.1 hs).isAddressChar hc, copied_of_isLiteral hs⟩

/-- A number of bits may have a plus sign and zeros in front; the ones of a netmask stand together. -/
theorem isLiteral_spec_signed :
    isScreened isLiteral "1.1.1.1/+08" = true ∧ Written MaskText "1.1.1.1/+08".toList ∧
    (∀ c ∈ "1.1.1.1/+08".toList, IsAddressChar c) ∧ Copied "1.1.1.1/+08" ∧
    Written MaskText "10.0.0.1/255.255.0.0".toList ∧
    ¬ Written MaskText "10.0.0.1/255.0.255.0".toList := by
  have hsigned : isLiteral "1.1.1.1/+08" = true := by decide +kernel
  obtain ⟨hscreened, hwritten, hcopied⟩ := isLiteral_spec readsNetworks_isLiteral "1.1.1.1/+08"
  refine ⟨hscreened.trans hsigned, hwritten.1 hsigned, (hcopied hsigned).1, (hcopied hsigned).2, ?_, ?_⟩
  · exact (isLiteral_spec readsNetworks_isLiteral _).2.1.1 (by decide +kernel)
  · intro hgap
    exact absurd ((isLiteral_spec readsNetworks_isLiteral "10.0.0.1/255.0.255.0").2.1.2 hgap)
      (by decide +kernel)

end Address

end Firewall
