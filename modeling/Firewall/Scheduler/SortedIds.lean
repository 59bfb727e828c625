/-
# Sorted ids

Ids are reported in increasing order, each once.

* `Scheduler.sortedIds` : ids in increasing order without repetitions;
* `Scheduler.mem_sortedIds` : the ids are the same.
-/

namespace Firewall

namespace Scheduler

/-- Increasing ids with one more. -/
def insertId (id : String) : List String → List String
  | [] => [id]
  | x :: xs => if id < x then id :: x :: xs else if id = x then x :: xs else x :: insertId id xs

/-- The ids in increasing order, each once. -/
def sortedIds (ids : List String) : List String := ids.foldr insertId []

/-- One more id is all that is added. -/
theorem mem_insertId {id x : String} {xs : List String} :
    x ∈ insertId id xs ↔ x = id ∨ x ∈ xs := by
  induction xs with
  | nil => simp [insertId]
  | cons y ys ih =>
    simp only [insertId]
    split
    · simp
    · split
      · next h => subst h; simp
      · simp only [List.mem_cons, ih]
        constructor
        · rintro (h | h | h)
          · exact .inr (.inl h)
          · exact .inl h
          · exact .inr (.inr h)
        · rintro (h | h | h)
          · exact .inr (.inl h)
          · exact .inl h
          · exact .inr (.inr h)

/-- Sorting loses no id and makes up none. -/
theorem mem_sortedIds {x : String} {ids : List String} : x ∈ sortedIds ids ↔ x ∈ ids := by
  induction ids with
  | nil => simp [sortedIds]
  | cons y ys ih =>
    simp only [sortedIds, List.foldr_cons] at ih ⊢
    rw [mem_insertId, ih, List.mem_cons]

end Scheduler

end Firewall
