/-
# First-seen order

A list without its repetitions, each entry at the place where it first occurs.

* `firstSeen` : the list without repetitions;
* `mem_firstSeen`, `nodup_firstSeen` : it has the same entries, each once.
-/

namespace Firewall

variable {α : Type} [DecidableEq α]

/-- Entries already seen, and one more unless it is among them. -/
def addUnseen (seen : List α) (x : α) : List α := if x ∈ seen then seen else seen ++ [x]

/-- The list without repetitions, in order of first occurrence. -/
def firstSeen (xs : List α) : List α := xs.foldl addUnseen []

/-- Adding an entry adds nothing but the entry. -/
theorem mem_addUnseen {seen : List α} {x y : α} : y ∈ addUnseen seen x ↔ y ∈ seen ∨ y = x := by
  unfold addUnseen
  split
  · next h =>
    constructor
    · exact Or.inl
    · rintro (h' | rfl)
      · exact h'
      · exact h
  · simp

/-- Adding an entry keeps the entries apart. -/
theorem nodup_addUnseen {seen : List α} (x : α) (h : seen.Nodup) : (addUnseen seen x).Nodup := by
  unfold addUnseen
  split
  · exact h
  · next hx =>
    refine List.nodup_append.2 ⟨h, by simp, ?_⟩
    intro a ha b hb
    simp only [List.mem_singleton] at hb
    subst hb
    rintro rfl
    exact hx ha

/-- Adding all entries of a list adds just those. -/
theorem mem_foldl_addUnseen {xs seen : List α} {y : α} :
    y ∈ xs.foldl addUnseen seen ↔ y ∈ seen ∨ y ∈ xs := by
  induction xs generalizing seen with
  | nil => simp
  | cons x xs ih => simp [ih, mem_addUnseen, or_assoc]

/-- Nothing is lost and nothing is made up. -/
theorem mem_firstSeen {xs : List α} {y : α} : y ∈ firstSeen xs ↔ y ∈ xs := by
  simp [firstSeen, mem_foldl_addUnseen]

/-- No entry is repeated. -/
theorem nodup_firstSeen (xs : List α) : (firstSeen xs).Nodup := by
  suffices h : ∀ seen : List α, seen.Nodup → (xs.foldl addUnseen seen).Nodup from h [] (by simp)
  induction xs with
  | nil => exact fun _ h => h
  | cons x xs ih => exact fun seen h => ih _ (nodup_addUnseen x h)

end Firewall
