/-
# Ordered documents

An ordered document has one form: written as a draft and settled again, it is what it was, as long
as it does not nest too deep.  What was settled within a limit nests no deeper than that, so a value
that was read once can be written and read any number of times.

* `Json.depth` : how deep arrays and objects are nested;
* `Json.keysIncrease_iff_pairwise` : increasing keys, pair by pair;
* `Json.Draft.settle_ofJson` : an ordered document settles to itself;
* `Json.Draft.depth_of_settle` : the depth of what was settled;
* `Json.Reading.raw_ofJson` : a document that is kept as it is.
-/
import Firewall.Json.Record

namespace Firewall

namespace Json

/-! ## Depth -/

mutual

/-- How deep the arrays and objects of a document are nested. -/
def depth : Json → Nat
  | .null => 0
  | .bool _ => 0
  | .number _ => 0
  | .string _ => 0
  | .array items => itemsDepth items + 1
  | .object members => membersDepth members + 1
termination_by structural x => x

/-- How deep the deepest of some items is nested. -/
def itemsDepth : List Json → Nat
  | [] => 0
  | x :: xs => max (depth x) (itemsDepth xs)
termination_by structural xs => xs

/-- How deep the deepest of some members is nested. -/
def membersDepth : List (String × Json) → Nat
  | [] => 0
  | (_, v) :: ms => max (depth v) (membersDepth ms)
termination_by structural ms => ms

end

/-! ## Increasing keys -/

/-- The keys increase from each member to the next exactly if they increase from each to all later
ones. -/
theorem keysIncrease_iff_pairwise (ms : List (String × Json)) :
    keysIncrease ms = true ↔ ms.Pairwise fun m m' => m.1 < m'.1 := by
  induction ms with
  | nil => simp [keysIncrease]
  | cons m ms ih =>
    obtain ⟨k, v⟩ := m
    rw [keysIncrease_cons, List.pairwise_cons, ih]
    refine and_congr_left fun hms => ⟨fun hhead m hm => ?_, fun hall m hm => ?_⟩
    · cases ms with
      | nil => cases hm
      | cons m' ms =>
        have hk := hhead m' rfl
        rcases List.mem_cons.1 hm with rfl | hm
        · exact hk
        · exact String.lt_trans hk ((List.pairwise_cons.1 hms).1 m hm)
    · exact hall m (List.mem_of_mem_head? hm)

/-- A member with a greater key than all others is set at the end. -/
theorem insertMember_of_lt {k : String} {done : List (String × Json)} (h : ∀ m ∈ done, m.1 < k)
    (v : Json) : insertMember k v done = done ++ [(k, v)] := by
  induction done with
  | nil => rfl
  | cons m done ih =>
    obtain ⟨k', v'⟩ := m
    have hk : k' < k := h _ List.mem_cons_self
    have hne : k ≠ k' := by
      rintro rfl
      exact String.lt_irrefl k hk
    rw [insertMember, if_neg (String.lt_asymm hk), if_neg hne,
      ih fun m hm => h m (List.mem_cons_of_mem _ hm), List.cons_append]

theorem membersDepth_insertMember {levels : Nat} {k : String} {v : Json}
    {done : List (String × Json)} (hv : v.depth ≤ levels) (h : membersDepth done ≤ levels) :
    membersDepth (insertMember k v done) ≤ levels := by
  induction done with
  | nil =>
    simp only [insertMember, membersDepth]
    omega
  | cons m done ih =>
    obtain ⟨k', v'⟩ := m
    simp only [membersDepth] at h
    have hrest := ih (by omega)
    simp only [insertMember]
    split
    · simp only [membersDepth]
      omega
    · split <;> simp only [membersDepth] <;> omega

/-! ## Settling what was written -/

namespace Draft

mutual

/-- **An ordered document settles to itself**, if it does not nest too deep. -/
theorem settle_ofJson {levels : Nat} {j : Json} (h : j.isOrdered = true) (hd : j.depth ≤ levels) :
    settle levels (ofJson j) = some j := by
  match j, h with
  | .null, _ => rfl
  | .bool b, _ => rfl
  | .number n, h => exact if_pos h
  | .string s, _ => rfl
  | .array items, h =>
    simp only [depth] at hd
    rw [ofJson, settle, if_neg (by omega), settleItems_ofItems h (by omega)]
    rfl
  | .object members, h =>
    simp only [depth] at hd
    rw [isOrdered, Bool.and_eq_true] at h
    have hmembers : settleMembers (levels - 1) [] (ofMembers members) = some members :=
      settleMembers_ofMembers h.1 h.2 (by omega)
    rw [ofJson, settle, if_neg (by omega), hmembers]
    rfl
termination_by structural j

/-- Ordered items settle to themselves. -/
theorem settleItems_ofItems {levels : Nat} {items : List Json} (h : allOrdered items = true)
    (hd : itemsDepth items ≤ levels) : settleItems levels (ofItems items) = some items := by
  match items, h with
  | [], _ => rfl
  | x :: xs, h =>
    simp only [itemsDepth] at hd
    rw [allOrdered, Bool.and_eq_true] at h
    rw [ofItems, settleItems, settle_ofJson h.1 (by omega), settleItems_ofItems h.2 (by omega)]
termination_by structural items

/-- Members in key order are set one behind the other. -/
theorem settleMembers_ofMembers {levels : Nat} {done members : List (String × Json)}
    (hk : keysIncrease (done ++ members) = true) (h : membersOrdered members = true)
    (hd : membersDepth members ≤ levels) :
    settleMembers levels done (ofMembers members) = some (done ++ members) := by
  match members, h with
  | [], _ =>
    rw [List.append_nil]
    rfl
  | (k, v) :: ms, h =>
    simp only [membersDepth] at hd
    rw [membersOrdered, Bool.and_eq_true] at h
    -- the key is greater than all that were set before, so the member goes to the end
    have hpairs := (keysIncrease_iff_pairwise _).1 hk
    have hlast : ∀ m ∈ done, m.1 < k := fun m hm =>
      (List.pairwise_append.1 hpairs).2.2 m hm (k, v) List.mem_cons_self
    have happend : done ++ (k, v) :: ms = done ++ [(k, v)] ++ ms := by
      rw [List.append_assoc, List.singleton_append]
    rw [happend] at hk ⊢
    rw [ofMembers, settleMembers, settle_ofJson h.1 (by omega)]
    simp only [insertMember_of_lt hlast]
    exact settleMembers_ofMembers hk h.2 (by omega)
termination_by structural members

end

/-! ## The depth of what was settled -/

mutual

/-- What is settled within a limit nests no deeper. -/
theorem depth_of_settle {levels : Nat} {d : Draft} {j : Json} (h : settle levels d = some j) :
    j.depth ≤ levels := by
  match d with
  | .null => cases h; exact Nat.zero_le _
  | .bool b => cases h; exact Nat.zero_le _
  | .number none => simp [settle] at h
  | .number (some n) =>
    simp only [settle] at h
    split at h
    · cases h; exact Nat.zero_le _
    · simp at h
  | .string none => simp [settle] at h
  | .string (some s) => cases h; exact Nat.zero_le _
  | .array items =>
    simp only [settle] at h
    split at h
    · simp at h
    · obtain ⟨js, hjs, rfl⟩ := Option.map_eq_some_iff.1 h
      have := itemsDepth_of_settleItems hjs
      simp only [depth]
      omega
  | .object members =>
    simp only [settle] at h
    split at h
    · simp at h
    · obtain ⟨ms, hms, rfl⟩ := Option.map_eq_some_iff.1 h
      have := membersDepth_of_settleMembers hms (Nat.zero_le _)
      simp only [depth]
      omega
termination_by structural d

theorem itemsDepth_of_settleItems {levels : Nat} {ds : List Draft} {js : List Json}
    (h : settleItems levels ds = some js) : itemsDepth js ≤ levels := by
  match ds with
  | [] => cases h; exact Nat.zero_le _
  | d :: ds =>
    simp only [settleItems] at h
    split at h
    · next j js' hj hjs =>
      cases h
      exact Nat.max_le.2 ⟨depth_of_settle hj, itemsDepth_of_settleItems hjs⟩
    · simp at h
termination_by structural ds

theorem membersDepth_of_settleMembers {levels : Nat} {ds : List (Option String × Draft)}
    {done ms : List (String × Json)} (h : settleMembers levels done ds = some ms)
    (hdone : membersDepth done ≤ levels) : membersDepth ms ≤ levels := by
  match ds with
  | [] => cases h; exact hdone
  | (none, _) :: _ => simp [settleMembers] at h
  | (some k, v) :: ds =>
    simp only [settleMembers] at h
    split at h
    · next j hj =>
      exact membersDepth_of_settleMembers h (membersDepth_insertMember (depth_of_settle hj) hdone)
    · simp at h
termination_by structural ds

end

/-- The ordered document of a draft is what the draft settles to. -/
theorem ordered?_eq_some {levels : Nat} {d : Draft} {raw : Ordered} :
    ordered? levels d = some raw ↔ settle levels d = some raw.doc := by
  obtain ⟨j, hj⟩ := raw
  unfold ordered?
  split
  · next j' h => simp [h]
  · next h => simp [h]

end Draft

/-- **A document that is kept as it is** is read as it was written. -/
theorem Reading.raw_ofJson {levels : Nat} (raw : Ordered) (hd : raw.doc.depth ≤ levels) :
    Reading.raw levels (Draft.ofJson raw.doc) = some raw :=
  Draft.ordered?_eq_some.2 (Draft.settle_ofJson raw.ordered hd)

end Json

end Firewall
