/-
# First occurrences

In first-seen order, a list without repetitions has its entries at the places at which they first
occur.  Reading a list entry by entry keeps this up, and no other order does so.

* `FirstOccurrences` : the entries of a list, in the order in which they occur first;
* `FirstOccurrences.concat` : one more entry;
* `firstOccurrences_iff` : first-seen order is this order;
* `foldl_addUnseen` : reading a list after others were seen.
-/
import Mathlib.Data.List.Induction
import Mathlib.Data.List.Sort
import Firewall.FirstSeen

namespace Firewall

variable {α : Type} [DecidableEq α] {xs ys : List α}

/-- The first occurrences in a list with one more entry. -/
theorem firstSeen_concat (xs : List α) (x : α) :
    firstSeen (xs ++ [x]) = addUnseen (firstSeen xs) x := by
  unfold firstSeen
  rw [List.foldl_append, List.foldl_cons, List.foldl_nil]

/-- The entries of a list, each once, in the order in which they occur first. -/
structure FirstOccurrences (xs ys : List α) : Prop where
  nodup : ys.Nodup
  mem_iff : ∀ x, x ∈ ys ↔ x ∈ xs
  ordered : ys.Pairwise fun x y => xs.idxOf x < xs.idxOf y

namespace FirstOccurrences

/-- A list has its first occurrences in one order. -/
theorem unique {zs : List α} (h : FirstOccurrences xs ys) (h' : FirstOccurrences xs zs) :
    ys = zs := by
  have : Std.Irrefl fun x y => xs.idxOf x < xs.idxOf y := ⟨fun x => Nat.lt_irrefl _⟩
  have : Std.Asymm fun x y => xs.idxOf x < xs.idxOf y := ⟨fun x y => Nat.lt_asymm⟩
  exact h.ordered.eq_of_mem_iff h'.ordered fun {x} => (h.mem_iff x).trans (h'.mem_iff x).symm

/-- An entry that is read next goes to the end, unless it occurred before. -/
theorem concat (h : FirstOccurrences xs ys) (x : α) :
    FirstOccurrences (xs ++ [x]) (addUnseen ys x) where
  nodup := nodup_addUnseen x h.nodup
  mem_iff y := by
    rw [mem_addUnseen, h.mem_iff, List.mem_append, List.mem_singleton]
  ordered := by
    -- what occurred before keeps its place
    have hkept : ys.Pairwise fun y z => (xs ++ [x]).idxOf y < (xs ++ [x]).idxOf z := by
      refine h.ordered.imp_of_mem fun hy hz hlt => ?_
      rwa [List.idxOf_append_of_mem ((h.mem_iff _).1 hy),
        List.idxOf_append_of_mem ((h.mem_iff _).1 hz)]
    unfold addUnseen
    split
    · exact hkept
    · next hx =>
      rw [h.mem_iff] at hx
      refine List.pairwise_append.2 ⟨hkept, List.pairwise_singleton _ _, fun y hy z hz => ?_⟩
      rw [h.mem_iff] at hy
      rw [List.mem_singleton.1 hz, List.idxOf_append_of_mem hy, List.idxOf_append_of_notMem hx]
      exact Nat.lt_add_right _ (List.idxOf_lt_length_of_mem hy)

end FirstOccurrences

/-- **First-seen order is the order of first occurrence.** -/
theorem firstOccurrences_iff : FirstOccurrences xs ys ↔ ys = firstSeen xs := by
  have hfirstSeen : FirstOccurrences xs (firstSeen xs) := by
    induction xs using List.reverseRecOn with
    | nil => exact ⟨.nil, fun x => Iff.rfl, .nil⟩
    | append_singleton xs x ih =>
      rw [firstSeen_concat]
      exact ih.concat x
  constructor
  · exact fun h => h.unique hfirstSeen
  · rintro rfl
    exact hfirstSeen

/-- An entry that was not seen at first goes behind all that were. -/
theorem addUnseen_append {seen : List α} {x : α} (h : x ∉ seen) :
    addUnseen (seen ++ ys) x = seen ++ addUnseen ys x := by
  unfold addUnseen
  by_cases hx : x ∈ ys
  · rw [if_pos (List.mem_append_right seen hx), if_pos hx]
  · rw [if_neg (by simp [h, hx]), if_neg hx, List.append_assoc]

/-- **Reading a list after others were seen** adds the first occurrences of what is new. -/
theorem foldl_addUnseen (seen xs : List α) :
    xs.foldl addUnseen seen = seen ++ firstSeen (xs.filter fun x => x ∉ seen) := by
  induction xs using List.reverseRecOn with
  | nil => exact (List.append_nil seen).symm
  | append_singleton xs x ih =>
    rw [List.foldl_append, List.foldl_cons, List.foldl_nil, ih, List.filter_append]
    by_cases hx : x ∈ seen
    · rw [List.filter_cons_of_neg (by simpa using hx), List.filter_nil, List.append_nil, addUnseen,
        if_pos (List.mem_append_left _ hx)]
    · rw [List.filter_cons_of_pos (by simpa using hx), List.filter_nil, firstSeen_concat,
        addUnseen_append hx]

end Firewall
