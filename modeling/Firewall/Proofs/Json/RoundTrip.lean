/-
# Documents read back

The text of a document, in either style, is read as the draft of that document.  Floating-point
numbers are left out: only documents whose numbers are integers of 64 bits are followed here.

* `Json.isIntegral` : documents without floating-point numbers;
* `Json.readDraft_write` : a document in front of a rest;
* `Json.Draft.ofText?_compact`, `ofText?_indented` : whole texts;
* `Json.Reading.ofText?_compact` : a value is read from a text as from the document itself.
-/
import Firewall.Json.Record
import Firewall.Proofs.Json.Text

namespace Firewall

namespace Json

/-! ## Documents without floating-point numbers -/

mutual

/-- Whether all numbers below are integers of 64 bits. -/
def isIntegral : Json → Bool
  | .null => true
  | .bool _ => true
  | .number (.integer n) => Number.inRange (.integer n)
  | .number (.float _) => false
  | .string _ => true
  | .array items => allIntegral items
  | .object members => membersIntegral members
termination_by structural x => x

/-- Whether all numbers in items are integers of 64 bits. -/
def allIntegral : List Json → Bool
  | [] => true
  | x :: xs => isIntegral x && allIntegral xs
termination_by structural xs => xs

/-- Whether all numbers in members are integers of 64 bits. -/
def membersIntegral : List (String × Json) → Bool
  | [] => true
  | (_, v) :: ms => isIntegral v && membersIntegral ms
termination_by structural ms => ms

end

/-! ## Lengths -/

mutual

/-- Writing a document makes a text longer. -/
theorem length_lt_write (style : Style) (depth : Nat) (j : Json) (h : j.isIntegral = true)
    (rest : List Char) : rest.length < (write style depth j rest).length := by
  match j, h with
  | .null, _ => simp only [write, List.length_cons]; omega
  | .bool true, _ => simp only [write, List.length_cons]; omega
  | .bool false, _ => simp only [write, List.length_cons]; omega
  | .number (.integer n), _ =>
    have hpos : 0 < (writeInt n).length := by
      unfold writeInt
      split
      · exact Nat.succ_pos _
      · exact List.length_pos_iff.2 Nat.toDigits_ne_nil
    rw [write, Number.write, List.length_append]
    omega
  | .string s, _ =>
    simp only [write, writeText, List.length_cons, List.length_append]
    omega
  | .array items, h =>
    have := length_lt_writeItems style depth true items h rest
    rw [write, List.length_cons]
    omega
  | .object members, h =>
    have := length_lt_writeMembers style depth true members h rest
    rw [write, List.length_cons]
    omega
termination_by structural j

theorem length_lt_writeItems (style : Style) (depth : Nat) (first : Bool) (items : List Json)
    (h : allIntegral items = true) (rest : List Char) :
    rest.length < (writeItems style depth first items rest).length := by
  match items, h with
  | [], _ =>
    rw [writeItems, List.length_append, List.length_cons]
    omega
  | x :: xs, h =>
    rw [allIntegral, Bool.and_eq_true] at h
    have hx := length_lt_write style (depth + 1) x h.1 (writeItems style depth false xs rest)
    have hxs := length_lt_writeItems style depth false xs h.2 rest
    rw [writeItems, List.length_append]
    omega
termination_by structural items

theorem length_lt_writeMembers (style : Style) (depth : Nat) (first : Bool)
    (members : List (String × Json)) (h : membersIntegral members = true) (rest : List Char) :
    rest.length < (writeMembers style depth first members rest).length := by
  match members, h with
  | [], _ =>
    rw [writeMembers, List.length_append, List.length_cons]
    omega
  | (k, v) :: ms, h =>
    rw [membersIntegral, Bool.and_eq_true] at h
    have hv := length_lt_write style (depth + 1) v h.1 (writeMembers style depth false ms rest)
    have hms := length_lt_writeMembers style depth false ms h.2 rest
    rw [writeMembers, writeText, List.length_append, List.length_cons, List.length_append,
      List.length_cons, List.length_append]
    omega
termination_by structural members

end

/-! ## Blanks -/

theorem skipBlanks_cons {c : Char} (h : isBlank c = false) (cs : List Char) :
    skipBlanks (c :: cs) = c :: cs := by
  unfold skipBlanks
  rw [List.dropWhile_cons_of_neg (by rw [h]; decide)]

/-- A line break consists of blanks. -/
theorem skipBlanks_lineBreak (style : Style) (depth : Nat) (cs : List Char) :
    skipBlanks (style.lineBreak depth ++ cs) = skipBlanks cs := by
  unfold skipBlanks
  apply List.dropWhile_append_of_pos
  intro c hc
  cases style with
  | compact => cases hc
  | indented =>
    rw [Style.lineBreak, List.mem_cons] at hc
    rcases hc with rfl | hc
    · rfl
    · rw [List.eq_of_mem_replicate hc]
      rfl

/-- An integer starts with a digit or a sign. -/
theorem head_writeInt (n : Int) :
    ∃ c cs, writeInt n = c :: cs ∧ (c = '-' ∨ c.isDigit = true) := by
  unfold writeInt
  split
  · exact ⟨_, _, rfl, Or.inl rfl⟩
  · obtain ⟨c, cs, hcs⟩ := List.exists_cons_of_ne_nil (Nat.toDigits_ne_nil (n := n.natAbs))
    refine ⟨c, cs, hcs, Or.inr ?_⟩
    exact List.all_eq_true.1 (Decimal.all_isDigit_toDigits n.natAbs) c
      (by rw [hcs]; exact List.mem_cons_self)

/-- A character that an integer may start with is none of some others. -/
theorem ne_of_startsInt {c d : Char} (hc : c = '-' ∨ c.isDigit = true) (hd : d ≠ '-')
    (hd' : d.isDigit = false) : c ≠ d := by
  rintro rfl
  rcases hc with rfl | hc
  · exact hd rfl
  · rw [hd'] at hc
    cases hc

/-- What stands in front of the text of a document is no blank and no closing bracket. -/
theorem head_write (style : Style) (depth : Nat) (j : Json) (h : j.isIntegral = true)
    (rest : List Char) :
    ∃ c cs, write style depth j rest = c :: cs ∧ isBlank c = false ∧ c ≠ ']' := by
  match j, h with
  | .null, _ => exact ⟨_, _, rfl, rfl, by decide⟩
  | .bool true, _ => exact ⟨_, _, rfl, rfl, by decide⟩
  | .bool false, _ => exact ⟨_, _, rfl, rfl, by decide⟩
  | .string s, _ => exact ⟨_, _, rfl, rfl, by decide⟩
  | .array items, _ => exact ⟨_, _, rfl, rfl, by decide⟩
  | .object members, _ => exact ⟨_, _, rfl, rfl, by decide⟩
  | .number (.integer n), _ =>
    obtain ⟨c, cs, hcs, hc⟩ := head_writeInt n
    refine ⟨c, cs ++ rest, ?_, ?_, ne_of_startsInt hc (by decide) rfl⟩
    · rw [write, Number.write, hcs, List.cons_append]
    · simp only [isBlank, Bool.or_eq_false_iff, decide_eq_false_iff_not]
      exact ⟨⟨⟨ne_of_startsInt hc (by decide) rfl, ne_of_startsInt hc (by decide) rfl⟩,
        ne_of_startsInt hc (by decide) rfl⟩, ne_of_startsInt hc (by decide) rfl⟩

/-- Blanks end where the text of a document starts. -/
theorem skipBlanks_write (style : Style) (depth : Nat) (j : Json) (h : j.isIntegral = true)
    (rest : List Char) : skipBlanks (write style depth j rest) = write style depth j rest := by
  obtain ⟨c, cs, hcs, hc, -⟩ := head_write style depth j h rest
  rw [hcs, skipBlanks_cons hc]

/-- What follows an item does not go on with a number. -/
theorem endsNumber_writeItems (style : Style) (depth : Nat) (items : List Json)
    (rest : List Char) : EndsNumber (writeItems style depth false items rest) := by
  intro c hc
  cases items with
  | nil =>
    cases style <;>
    · cases hc
      decide
  | cons x xs =>
    cases hc
    decide

/-- What follows a member does not go on with a number. -/
theorem endsNumber_writeMembers (style : Style) (depth : Nat) (members : List (String × Json))
    (rest : List Char) : EndsNumber (writeMembers style depth false members rest) := by
  intro c hc
  cases members with
  | nil =>
    cases style <;>
    · cases hc
      decide
  | cons m ms =>
    cases hc
    decide

/-! ## Reading what was written -/

/-- What starts like a number is read as a number. -/
theorem readDraft_number {c : Char} (hc : c = '-' ∨ c.isDigit = true) (fuel : Nat)
    (cs : List Char) :
    readDraft (fuel + 1) (c :: cs) =
      (readNumber (c :: cs)).map fun (n, rest) => (.number n, rest) := by
  rw [readDraft.eq_def]
  split
  · next h => exact absurd h (Nat.succ_ne_zero fuel)
  · next h => exact absurd (List.cons.inj h).1 (ne_of_startsInt hc (by decide) rfl)
  · next h => exact absurd (List.cons.inj h).1 (ne_of_startsInt hc (by decide) rfl)
  · next h => exact absurd (List.cons.inj h).1 (ne_of_startsInt hc (by decide) rfl)
  · next h => exact absurd (List.cons.inj h).1 (ne_of_startsInt hc (by decide) rfl)
  · next h => exact absurd (List.cons.inj h).1 (ne_of_startsInt hc (by decide) rfl)
  · next h => exact absurd (List.cons.inj h).1 (ne_of_startsInt hc (by decide) rfl)
  · rfl

/-- Items after others stand behind a comma. -/
theorem writeItems_false (style : Style) (depth : Nat) {items : List Json} (h : items ≠ [])
    (rest : List Char) :
    writeItems style depth false items rest = ',' :: writeItems style depth true items rest := by
  cases items with
  | nil => exact absurd rfl h
  | cons x xs => rfl

/-- Members after others stand behind a comma. -/
theorem writeMembers_false (style : Style) (depth : Nat) {members : List (String × Json)}
    (h : members ≠ []) (rest : List Char) :
    writeMembers style depth false members rest =
      ',' :: writeMembers style depth true members rest := by
  cases members with
  | nil => exact absurd rfl h
  | cons m ms => rfl

/-- The first item, after the line break in front of it. -/
theorem skipBlanks_writeItems (style : Style) (depth : Nat) (x : Json) (xs : List Json)
    (h : x.isIntegral = true) (rest : List Char) :
    skipBlanks (writeItems style depth true (x :: xs) rest) =
      write style (depth + 1) x (writeItems style depth false xs rest) := by
  rw [writeItems, Style.lead, if_pos rfl, List.nil_append, skipBlanks_lineBreak,
    skipBlanks_write style (depth + 1) x h]

/-- The first member, after the line break in front of it. -/
theorem skipBlanks_writeMembers (style : Style) (depth : Nat) (k : String) (v : Json)
    (ms : List (String × Json)) (rest : List Char) :
    skipBlanks (writeMembers style depth true ((k, v) :: ms) rest) =
      writeText k.toList
        (style.colon ++ write style (depth + 1) v (writeMembers style depth false ms rest)) := by
  rw [writeMembers, Style.lead, if_pos rfl, List.nil_append, skipBlanks_lineBreak, writeText,
    skipBlanks_cons rfl]

theorem head_writeItems (style : Style) (depth : Nat) {items : List Json}
    (h : allIntegral items = true) (hne : items ≠ []) (rest : List Char) :
    ∃ c cs, skipBlanks (writeItems style depth true items rest) = c :: cs ∧ c ≠ ']' := by
  obtain ⟨x, xs, rfl⟩ := List.exists_cons_of_ne_nil hne
  rw [allIntegral, Bool.and_eq_true] at h
  obtain ⟨c, cs, hcs, -, hc⟩ := head_write style (depth + 1) x h.1
    (writeItems style depth false xs rest)
  exact ⟨c, cs, (skipBlanks_writeItems style depth x xs h.1 rest).trans hcs, hc⟩

theorem head_writeMembers (style : Style) (depth : Nat) {members : List (String × Json)}
    (hne : members ≠ []) (rest : List Char) :
    ∃ cs, skipBlanks (writeMembers style depth true members rest) = '"' :: cs := by
  obtain ⟨⟨k, v⟩, ms, rfl⟩ := List.exists_cons_of_ne_nil hne
  exact ⟨_, skipBlanks_writeMembers style depth k v ms rest⟩

/-- The closing bracket, after the line break in front of it. -/
theorem skipBlanks_close (style : Style) (depth : Nat) {c : Char} (h : isBlank c = false)
    (rest : List Char) : skipBlanks (style.close false depth ++ c :: rest) = c :: rest := by
  rw [Style.close, if_neg Bool.false_ne_true, skipBlanks_lineBreak, skipBlanks_cons h]

/-- A value, after its colon and the blank behind it. -/
theorem skipBlanks_colon (style : Style) (cs : List Char) :
    ∃ cs', skipBlanks (style.colon ++ cs) = ':' :: cs' ∧ skipBlanks cs' = skipBlanks cs := by
  cases style with
  | compact => exact ⟨cs, rfl, rfl⟩
  | indented => exact ⟨' ' :: cs, rfl, rfl⟩

mutual

/-- **A document is read as it was written**, and what follows it is handed on.  The length of the
text is fuel enough. -/
theorem readDraft_write (style : Style) (depth : Nat) (j : Json) (h : j.isIntegral = true)
    (fuel : Nat) {rest : List Char} (hrest : EndsNumber rest)
    (hfuel : (write style depth j rest).length ≤ fuel + rest.length) :
    readDraft fuel (write style depth j rest) = some (.ofJson j, rest) := by
  -- every document takes up some text, so there is fuel for it
  have hlt := length_lt_write style depth j h rest
  obtain ⟨fuel, rfl⟩ := Nat.exists_eq_succ_of_ne_zero (show fuel ≠ 0 by omega)
  match j, h with
  | .null, _ => rfl
  | .bool true, _ => rfl
  | .bool false, _ => rfl
  | .number (.integer n), h =>
    obtain ⟨c, cs, hcs, hc⟩ := head_writeInt n
    have hread := readNumber_writeInt h hrest
    rw [write, Number.write]
    rw [hcs, List.cons_append] at hread ⊢
    rw [readDraft_number hc, hread]
    rfl
  | .string s, _ =>
    rw [write, writeText, readDraft, readText_write, Option.map_some, String.ofList_toList]
    rfl
  | .array items, h =>
    rw [write, List.length_cons] at hfuel
    rw [write, readDraft]
    by_cases hitems : items = []
    · rw [hitems]
      rfl
    · -- a first item does not start like the end of the list
      have hread := readItems_write style depth items h hitems fuel rest (by omega)
      obtain ⟨c, cs, hcs, hc⟩ := head_writeItems style depth h hitems rest
      rw [hcs] at hread ⊢
      split
      · next heq => exact absurd (List.cons.inj heq).1 hc
      · rw [hread]
        rfl
  | .object members, h =>
    rw [write, List.length_cons] at hfuel
    rw [write, readDraft]
    by_cases hmembers : members = []
    · rw [hmembers]
      rfl
    · have hread := readMembers_write style depth members h hmembers fuel rest (by omega)
      obtain ⟨cs, hcs⟩ := head_writeMembers style depth hmembers rest
      rw [hcs] at hread ⊢
      split
      · next heq => exact absurd (List.cons.inj heq).1 (by decide)
      · rw [hread]
        rfl
termination_by structural j

/-- Items are read as they were written. -/
theorem readItems_write (style : Style) (depth : Nat) (items : List Json)
    (h : allIntegral items = true) (hne : items ≠ []) (fuel : Nat) (rest : List Char)
    (hfuel : (writeItems style depth true items rest).length ≤ fuel + rest.length) :
    readItems fuel (skipBlanks (writeItems style depth true items rest)) =
      some (Draft.ofItems items, rest) := by
  have hlt := length_lt_writeItems style depth true items h rest
  obtain ⟨fuel, rfl⟩ := Nat.exists_eq_succ_of_ne_zero (show fuel ≠ 0 by omega)
  match items, h with
  | [], _ => exact absurd rfl hne
  | x :: xs, h =>
    rw [allIntegral, Bool.and_eq_true] at h
    have hxs := length_lt_writeItems style depth false xs h.2 rest
    rw [writeItems, List.length_append] at hfuel
    have hread := readDraft_write style (depth + 1) x h.1 fuel
      (endsNumber_writeItems style depth xs rest) (by omega)
    have hlen := length_lt_write style (depth + 1) x h.1 (writeItems style depth false xs rest)
    rw [skipBlanks_writeItems style depth x xs h.1, readItems, hread]
    by_cases hnil : xs = []
    · rw [hnil, writeItems]
      simp only [skipBlanks_close style depth (c := ']') rfl]
      rfl
    · -- the comma is the text that pays for the fuel of the item before it
      have hcomma := congrArg List.length (writeItems_false style depth hnil rest)
      rw [List.length_cons] at hcomma
      have hrest := readItems_write style depth xs h.2 hnil fuel rest (by omega)
      simp only [writeItems_false style depth hnil, skipBlanks_cons (c := ',') rfl, hrest]
      rfl
termination_by structural items

/-- Members are read as they were written. -/
theorem readMembers_write (style : Style) (depth : Nat) (members : List (String × Json))
    (h : membersIntegral members = true) (hne : members ≠ []) (fuel : Nat) (rest : List Char)
    (hfuel : (writeMembers style depth true members rest).length ≤ fuel + rest.length) :
    readMembers fuel (skipBlanks (writeMembers style depth true members rest)) =
      some (Draft.ofMembers members, rest) := by
  have hlt := length_lt_writeMembers style depth true members h rest
  obtain ⟨fuel, rfl⟩ := Nat.exists_eq_succ_of_ne_zero (show fuel ≠ 0 by omega)
  match members, h with
  | [], _ => exact absurd rfl hne
  | (k, v) :: ms, h =>
    rw [membersIntegral, Bool.and_eq_true] at h
    have hms := length_lt_writeMembers style depth false ms h.2 rest
    have hlen := length_lt_write style (depth + 1) v h.1 (writeMembers style depth false ms rest)
    rw [writeMembers, writeText, List.length_append, List.length_cons, List.length_append,
      List.length_cons, List.length_append] at hfuel
    have hread := readDraft_write style (depth + 1) v h.1 fuel
      (endsNumber_writeMembers style depth ms rest) (by omega)
    obtain ⟨cs, hcs, hcolon⟩ := skipBlanks_colon style
      (write style (depth + 1) v (writeMembers style depth false ms rest))
    rw [skipBlanks_write style (depth + 1) v h.1] at hcolon
    rw [skipBlanks_writeMembers, writeText, readMembers, readText_write]
    simp only [hcs, hcolon, hread, String.ofList_toList]
    by_cases hnil : ms = []
    · rw [hnil, writeMembers]
      simp only [skipBlanks_close style depth (c := '\x7d') rfl]
      rfl
    · have hcomma := congrArg List.length (writeMembers_false style depth hnil rest)
      rw [List.length_cons] at hcomma
      have hrest := readMembers_write style depth ms h.2 hnil fuel rest (by omega)
      simp only [writeMembers_false style depth hnil, skipBlanks_cons (c := ',') rfl, hrest]
      rfl
termination_by structural members

end

/-! ## Whole texts -/

namespace Draft

/-- The text of a document is read as it was written. -/
theorem ofChars?_write (style : Style) {j : Json} (h : j.isIntegral = true) :
    ofChars? (write style 0 j []) = some (.ofJson j) := by
  have hend : EndsNumber [] := fun c hc => by cases hc
  have hread := readDraft_write style 0 j h (2 * (write style 0 j []).length + 1) hend (by omega)
  unfold ofChars?
  rw [skipBlanks_write style 0 j h, hread]
  rfl

/-- **A compact text is read as the document that it was written for.** -/
theorem ofText?_compact {j : Json} (h : j.isIntegral = true) :
    ofText? j.compact = some (.ofJson j) := by
  rw [ofText?, compact, String.toList_ofList, ofChars?_write .compact h]

/-- **An indented text is read as the document that it was written for.** -/
theorem ofText?_indented {j : Json} (h : j.isIntegral = true) :
    ofText? j.indented = some (.ofJson j) := by
  rw [ofText?, indented, String.toList_ofList, ofChars?_write .indented h]

end Draft

/-- A value is read from the text of a document as from the document itself. -/
theorem Reading.ofText?_compact {α : Type} (read : Reading α) {j : Json}
    (h : j.isIntegral = true) : Reading.ofText? read j.compact = Reading.ofJson? read j := by
  rw [Reading.ofText?, Draft.ofText?_compact h, Option.bind_some, Reading.ofJson?]

end Json

end Firewall
