/-
# Pieces of a text

A text is divided at every place where a character stands; the pieces put together again with that
character between them are the text.

* `pieces` : the pieces;
* `joinPieces_pieces` : nothing is lost;
* `pieces_joinPieces` : pieces without that character are found again.
-/

namespace Firewall

/-- The pieces of a text between the places where a character stands; always at least one. -/
def pieces (mark : Char) : List Char → List (List Char)
  | [] => [[]]
  | c :: cs =>
    if c = mark then [] :: pieces mark cs
    else
      match pieces mark cs with
      | p :: ps => (c :: p) :: ps
      | [] => [[c]]

/-- The text with a character between the pieces. -/
def joinPieces (mark : Char) : List (List Char) → List Char
  | [] => []
  | [p] => p
  | p :: q :: ps => p ++ mark :: joinPieces mark (q :: ps)

/-- There is always a piece. -/
theorem pieces_ne_nil (mark : Char) (cs : List Char) : pieces mark cs ≠ [] := by
  cases cs with
  | nil => simp [pieces]
  | cons c cs =>
    simp only [pieces]
    split
    · simp
    · split <;> simp

/-- The pieces put together are the text. -/
theorem joinPieces_pieces (mark : Char) (cs : List Char) :
    joinPieces mark (pieces mark cs) = cs := by
  induction cs with
  | nil => rfl
  | cons c cs ih =>
    cases h : pieces mark cs with
    | nil => exact absurd h (pieces_ne_nil mark cs)
    | cons p ps =>
      simp only [pieces, h]
      rw [h] at ih
      split
      · next hc => simp [joinPieces, ih, hc]
      · cases ps with
        | nil => simpa [joinPieces] using ih
        | cons q qs => simpa [joinPieces] using ih

/-- A text without that character is one piece. -/
theorem pieces_of_not_mem {mark : Char} {cs : List Char} (h : mark ∉ cs) :
    pieces mark cs = [cs] := by
  induction cs with
  | nil => rfl
  | cons c cs ih =>
    rw [List.mem_cons, not_or] at h
    simp only [pieces, if_neg (Ne.symm h.1), ih h.2]

/-- The first piece ends where that character first stands. -/
theorem pieces_append_cons {mark : Char} {cs : List Char} (h : mark ∉ cs) (rest : List Char) :
    pieces mark (cs ++ mark :: rest) = cs :: pieces mark rest := by
  induction cs with
  | nil => simp [pieces]
  | cons c cs ih =>
    rw [List.mem_cons, not_or] at h
    simp only [List.cons_append, pieces, if_neg (Ne.symm h.1), ih h.2]

/-- **Pieces without that character are found again.** -/
theorem pieces_joinPieces {mark : Char} {ps : List (List Char)} (hne : ps ≠ [])
    (h : ∀ p ∈ ps, mark ∉ p) : pieces mark (joinPieces mark ps) = ps := by
  induction ps with
  | nil => exact absurd rfl hne
  | cons p ps ih =>
    have hp := h p List.mem_cons_self
    cases ps with
    | nil => exact pieces_of_not_mem hp
    | cons q qs =>
      rw [joinPieces, pieces_append_cons hp,
        ih (List.cons_ne_nil q qs) fun r hr => h r (List.mem_cons_of_mem p hr)]

end Firewall
