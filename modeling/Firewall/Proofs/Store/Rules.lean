/-
# Storing rules again

An evaluation stores rules that are in the store already, each under its own id and for its own
bundle.  Then nothing is added and nothing moves: every stored rule is replaced by the last rule of
its id that was put, and all others stay.

* `Store.upsert_eq_map` : an entry whose id is there takes the place of the entry with that id;
* `Store.Snapshot.putRules_putRules` : rules that are put are lost when their ids are put again;
* `Store.Snapshot.rules_putRules` : all rules after rules were put;
* `Store.Snapshot.rulesOf_putRules` : the rules of a bundle after rules were put;
* `Store.Snapshot.rulesOf_putRules_of_not_mem` : bundles that no rule was put for;
* `Store.Snapshot.rulesOf_putRules_of_ne` : the same, when rules are moved between other bundles.
-/
import Mathlib.Data.List.Forall2
import Mathlib.Data.List.Nodup
import Firewall.Store.Snapshot

namespace Firewall

namespace Store

/-! ## Entries that are there -/

/-- **An entry whose id is there** takes the place of the entry with that id. -/
theorem upsert_eq_map {α : Type} (id : α → String) {x : α} {xs : List α} (hn : (xs.map id).Nodup)
    (h : id x ∈ xs.map id) : upsert id x xs = xs.map fun y => if id y = id x then x else y := by
  induction xs with
  | nil => cases h
  | cons y ys ih =>
    rw [List.map_cons, List.nodup_cons] at hn
    rw [upsert, List.map_cons]
    by_cases hy : id y = id x
    · -- no later entry has the id, so the rest of the list is left as it is
      rw [if_pos hy, if_pos hy]
      congr 1
      refine (List.map_id' ys).symm.trans (List.map_congr_left ?_)
      intro z hz
      have hne : id z ≠ id x := by
        intro hzx
        refine hn.1 ?_
        rw [hy, ← hzx]
        exact List.mem_map_of_mem hz
      rw [if_neg hne]
    · rw [if_neg hy, if_neg hy]
      congr 1
      refine ih hn.2 ?_
      rw [List.map_cons, List.mem_cons] at h
      exact h.resolve_left (Ne.symm hy)

/-- The entries after one was added are that one and some of those before. -/
theorem mem_upsert {α : Type} {id : α → String} {x y : α} {xs : List α}
    (h : y ∈ upsert id x xs) : y = x ∨ y ∈ xs := by
  induction xs with
  | nil => exact .inl (List.mem_singleton.1 h)
  | cons z zs ih =>
    rw [upsert] at h
    split at h
    · exact (List.mem_cons.1 h).imp_right (List.mem_cons_of_mem z)
    · rcases List.mem_cons.1 h with rfl | h
      · exact .inr List.mem_cons_self
      · exact (ih h).imp_right (List.mem_cons_of_mem z)

/-- An entry takes the place of one that was just added under its id. -/
theorem upsert_upsert_of_eq {α : Type} (id : α → String) {x y : α} (h : id x = id y)
    (xs : List α) : upsert id y (upsert id x xs) = upsert id y xs := by
  induction xs with
  | nil =>
    show upsert id y [x] = [y]
    rw [upsert, if_pos h]
  | cons z zs ih =>
    rw [upsert]
    by_cases hz : id z = id x
    · rw [if_pos hz, upsert, if_pos h, upsert, if_pos (hz.trans h)]
    · have hzy : id z ≠ id y := fun heq => hz (heq.trans h.symm)
      rw [if_neg hz, upsert, if_neg hzy, ih, upsert, if_neg hzy]

/-- Entries of two ids can be added in either order, if one of the ids is there. -/
theorem upsert_comm {α : Type} (id : α → String) {x y : α} (h : id x ≠ id y) {xs : List α}
    (hx : id x ∈ xs.map id) :
    upsert id y (upsert id x xs) = upsert id x (upsert id y xs) := by
  induction xs with
  | nil => cases hx
  | cons z zs ih =>
    rw [upsert, upsert]
    by_cases hzx : id z = id x
    · have hzy : id z ≠ id y := fun heq => h (hzx.symm.trans heq)
      rw [if_pos hzx, if_neg hzy, upsert, if_neg h, upsert, if_pos hzx]
    · by_cases hzy : id z = id y
      · rw [if_neg hzx, if_pos hzy, upsert, if_pos hzy, upsert, if_neg h.symm]
      · rw [if_neg hzx, if_neg hzy, upsert, if_neg hzy, upsert, if_neg hzx, ih]
        exact (List.mem_cons.1 hx).resolve_left (Ne.symm hzx)

/-! ## The order of ids -/

theorem mem_insertById {rule r : Rule} {rules : List Rule} :
    r ∈ insertById rule rules ↔ r = rule ∨ r ∈ rules := by
  induction rules with
  | nil => simp [insertById]
  | cons x xs ih =>
    rw [insertById]
    split
    · rw [List.mem_cons, ih, List.mem_cons, or_left_comm]
    · rw [List.mem_cons]

/-- Rules in the order of their ids are the same rules. -/
theorem mem_sortById {r : Rule} {rules : List Rule} : r ∈ sortById rules ↔ r ∈ rules := by
  induction rules with
  | nil => rfl
  | cons x xs ih =>
    unfold sortById at ih ⊢
    rw [List.foldr_cons, mem_insertById, ih, List.mem_cons]

theorem insertById_perm (rule : Rule) (rules : List Rule) :
    (insertById rule rules).Perm (rule :: rules) := by
  induction rules with
  | nil => exact List.Perm.refl _
  | cons x xs ih =>
    rw [insertById]
    split
    · exact (ih.cons x).trans (List.Perm.swap rule x xs)
    · exact List.Perm.refl _

theorem sortById_perm (rules : List Rule) : (sortById rules).Perm rules := by
  induction rules with
  | nil => exact List.Perm.refl _
  | cons x xs ih =>
    unfold sortById at ih ⊢
    rw [List.foldr_cons]
    exact (insertById_perm x _).trans (ih.cons x)

theorem insertById_map {f : Rule → Rule} (hf : ∀ r, (f r).id = r.id) (rule : Rule)
    (rules : List Rule) :
    insertById (f rule) (rules.map f) = (insertById rule rules).map f := by
  induction rules with
  | nil => rfl
  | cons x xs ih =>
    rw [List.map_cons, insertById, insertById, hf, hf]
    split
    · rw [List.map_cons, ih]
    · rw [List.map_cons, List.map_cons]

/-- Rules that keep their ids keep their order. -/
theorem sortById_map {f : Rule → Rule} (hf : ∀ r, (f r).id = r.id) (rules : List Rule) :
    sortById (rules.map f) = (sortById rules).map f := by
  induction rules with
  | nil => rfl
  | cons x xs ih =>
    unfold sortById at ih ⊢
    rw [List.map_cons, List.foldr_cons, List.foldr_cons, ih, insertById_map hf]

/-- A rule is inserted where it belongs. -/
theorem pairwise_insertById (rule : Rule) {rules : List Rule}
    (h : rules.Pairwise fun r r' => r.id ≤ r'.id) :
    (insertById rule rules).Pairwise fun r r' => r.id ≤ r'.id := by
  induction rules with
  | nil => exact List.pairwise_singleton _ _
  | cons x xs ih =>
    rw [List.pairwise_cons] at h
    rw [insertById]
    by_cases hx : x.id < rule.id
    · rw [if_pos hx, List.pairwise_cons]
      refine ⟨fun y hy => ?_, ih h.2⟩
      rcases mem_insertById.1 hy with rfl | hy
      · exact String.lt_asymm hx
      · exact h.1 y hy
    · -- texts are ordered totally, so what is not less is at least as great
      have hle : rule.id ≤ x.id := hx
      rw [if_neg hx, List.pairwise_cons]
      refine ⟨fun y hy => ?_, List.pairwise_cons.2 h⟩
      rcases List.mem_cons.1 hy with rfl | hy
      · exact hle
      · exact Std.le_trans hle (h.1 y hy)

/-- **Rules are sorted by their ids.** -/
theorem pairwise_sortById (rules : List Rule) :
    (sortById rules).Pairwise fun r r' => r.id ≤ r'.id := by
  induction rules with
  | nil => exact List.Pairwise.nil
  | cons x xs ih => exact pairwise_insertById x ih

/-! ## Putting rules -/

/-- The last of some rules that has the id of a rule, and the rule itself if there is none. -/
def replacedBy (batch : List Rule) (r : Rule) : Rule :=
  (batch.reverse.find? fun x => x.id = r.id).getD r

@[simp] theorem id_replacedBy (batch : List Rule) (r : Rule) : (replacedBy batch r).id = r.id := by
  unfold replacedBy
  cases h : batch.reverse.find? fun x => x.id = r.id with
  | none => rfl
  | some x => simpa using List.find?_some h

/-- What replaces a rule is the rule itself or one of the batch. -/
theorem replacedBy_eq_or_mem (batch : List Rule) (r : Rule) :
    replacedBy batch r = r ∨ replacedBy batch r ∈ batch := by
  unfold replacedBy
  cases h : batch.reverse.find? fun x => x.id = r.id with
  | none => exact Or.inl rfl
  | some x => exact Or.inr (List.mem_reverse.1 (List.mem_of_find?_eq_some h))

/-- A rule whose id is in the batch is replaced by one of the batch. -/
theorem replacedBy_mem {batch : List Rule} {r : Rule} (h : r.id ∈ batch.map Rule.id) :
    replacedBy batch r ∈ batch := by
  obtain ⟨x, hx, hid⟩ := List.mem_map.1 h
  unfold replacedBy
  cases hfind : batch.reverse.find? fun x => x.id = r.id with
  | none => exact absurd (by simpa using hid) (List.find?_eq_none.1 hfind x (List.mem_reverse.2 hx))
  | some y => exact List.mem_reverse.1 (List.mem_of_find?_eq_some hfind)

/-- A rule whose id is not in the batch stays. -/
theorem replacedBy_of_not_mem {batch : List Rule} {r : Rule} (h : r.id ∉ batch.map Rule.id) :
    replacedBy batch r = r := by
  have hnone : (batch.reverse.find? fun x => x.id = r.id) = none := by
    rw [List.find?_eq_none]
    intro x hx
    rw [decide_eq_true_eq]
    intro hid
    exact h (hid ▸ List.mem_map_of_mem (List.mem_reverse.1 hx))
  unfold replacedBy
  rw [hnone, Option.getD_none]

/-- What replaces a rule goes by its id, if the id is in the batch. -/
theorem replacedBy_congr {batch : List Rule} {r r' : Rule} (h : r.id = r'.id)
    (hmem : r.id ∈ batch.map Rule.id) : replacedBy batch r = replacedBy batch r' := by
  obtain ⟨x, hx, hid⟩ := List.mem_map.1 hmem
  rw [h] at hid
  unfold replacedBy
  rw [h]
  cases hfind : batch.reverse.find? fun x => x.id = r'.id with
  | none => exact absurd (by simpa using hid) (List.find?_eq_none.1 hfind x (List.mem_reverse.2 hx))
  | some y => rfl

/-- Replacing a rule a second time makes no difference. -/
theorem replacedBy_replacedBy (batch : List Rule) (r : Rule) :
    replacedBy batch (replacedBy batch r) = replacedBy batch r := by
  by_cases hmem : r.id ∈ batch.map Rule.id
  · exact (replacedBy_congr (id_replacedBy batch r).symm hmem).symm
  · rw [replacedBy_of_not_mem hmem, replacedBy_of_not_mem hmem]

/-- The only rule of the batch with an id replaces the rule of that id. -/
theorem replacedBy_of_mem {batch : List Rule} {x r : Rule} (hx : x ∈ batch) (h : x.id = r.id)
    (honly : ∀ y ∈ batch, y.id = r.id → y = x) : replacedBy batch r = x := by
  unfold replacedBy
  cases hf : batch.reverse.find? fun x => x.id = r.id with
  | none =>
    rw [List.find?_eq_none] at hf
    exact absurd (by simpa using h) (hf x (List.mem_reverse.2 hx))
  | some y =>
    have hy : y ∈ batch := List.mem_reverse.1 (List.mem_of_find?_eq_some hf)
    have hyr : y.id = r.id := by simpa using List.find?_some hf
    rw [Option.getD_some]
    exact honly y hy hyr

/-- One batch after another: the second has the last word. -/
theorem replacedBy_append (batch batch' : List Rule) (r : Rule) :
    replacedBy (batch ++ batch') r = replacedBy batch' (replacedBy batch r) := by
  have hid := id_replacedBy batch r
  have h : ∀ x : Rule, x.id = r.id →
      (batch'.reverse.find? fun y => y.id = x.id) = batch'.reverse.find? fun y => y.id = r.id := by
    intro x hx
    rw [hx]
  rw [replacedBy, List.reverse_append, List.find?_append, replacedBy, h _ hid]
  cases batch'.reverse.find? fun y => y.id = r.id with
  | some y => rfl
  | none =>
    rw [Option.none_or, Option.getD_none]
    rfl

/-- Rules are replaced by given ones if those are all that the batch has for their ids. -/
theorem map_replacedBy {batch rules rules' : List Rule}
    (h : List.Forall₂ (fun r r' => r'.id = r.id) rules rules') (hn : (rules'.map Rule.id).Nodup)
    (hmem : ∀ r' ∈ rules', r' ∈ batch)
    (honly : ∀ x ∈ batch, ∀ r ∈ rules, x.id = r.id → x ∈ rules') :
    rules.map (replacedBy batch) = rules' := by
  rw [← List.forall₂_eq_eq_eq, List.forall₂_map_left_iff, List.forall₂_iff_zip]
  refine ⟨h.length_eq, fun {r r'} hzip => ?_⟩
  obtain ⟨hr, hr'⟩ := List.of_mem_zip hzip
  have hid := List.forall₂_zip h hzip
  refine replacedBy_of_mem (hmem r' hr') hid fun y hy hyr => ?_
  exact List.inj_on_of_nodup_map hn (honly y hy r hr hyr) hr' (hyr.trans hid.symm)

namespace Snapshot

/-- A rule with the id and the bundle of a given one is stored. -/
def Holds (s : Snapshot) (x : Rule) : Prop :=
  ∃ r ∈ s.rules, r.id = x.id ∧ r.bundleId = x.bundleId

@[simp] theorem bundles_putRules (s : Snapshot) (batch : List Rule) :
    (s.putRules batch).bundles = s.bundles := by
  unfold putRules
  induction batch generalizing s with
  | nil => rfl
  | cons x xs ih => exact ih (s.insertRule x)

@[simp] theorem objects_putRules (s : Snapshot) (batch : List Rule) :
    (s.putRules batch).objects = s.objects := by
  unfold putRules
  induction batch generalizing s with
  | nil => rfl
  | cons x xs ih => exact ih (s.insertRule x)

theorem putRules_append (s : Snapshot) (batch batch' : List Rule) :
    s.putRules (batch ++ batch') = (s.putRules batch).putRules batch' :=
  List.foldl_append

/-- The rules after rules were put are among those before and those that were put. -/
theorem mem_rules_putRules {s : Snapshot} {batch : List Rule} {r : Rule}
    (h : r ∈ (s.putRules batch).rules) : r ∈ s.rules ∨ r ∈ batch := by
  induction batch generalizing s with
  | nil => exact .inl h
  | cons x xs ih =>
    rcases ih (s := s.insertRule x) h with h | h
    · rcases mem_upsert h with rfl | h
      · exact .inr List.mem_cons_self
      · exact .inl h
    · exact .inr (List.mem_cons_of_mem x h)

theorem mem_map_id_insertRule {s : Snapshot} (x : Rule) {id : String}
    (h : id ∈ s.rules.map Rule.id) : id ∈ (s.insertRule x).rules.map Rule.id := by
  rw [insertRule, map_id_upsert]
  split
  · exact h
  · exact List.mem_append_left _ h

/-- A rule that is there is lost when its id is put afterwards. -/
theorem putRules_insertRule {s : Snapshot} {x : Rule} {batch : List Rule}
    (hs : x.id ∈ s.rules.map Rule.id) (hx : x.id ∈ batch.map Rule.id) :
    (s.insertRule x).putRules batch = s.putRules batch := by
  induction batch generalizing s with
  | nil => cases hx
  | cons y ys ih =>
    show ((s.insertRule x).insertRule y).putRules ys = (s.insertRule y).putRules ys
    by_cases hxy : x.id = y.id
    · unfold insertRule
      rw [upsert_upsert_of_eq Rule.id hxy]
    · have hcomm : (s.insertRule x).insertRule y = (s.insertRule y).insertRule x := by
        unfold insertRule
        rw [upsert_comm Rule.id hxy hs]
      rw [hcomm]
      exact ih (mem_map_id_insertRule y hs) ((List.mem_cons.1 hx).resolve_left hxy)

/-- **Rules that are put are lost** when the same ids are put afterwards. -/
theorem putRules_putRules {s : Snapshot} {made batch : List Rule}
    (hs : ∀ x ∈ made, x.id ∈ s.rules.map Rule.id) (hmade : ∀ x ∈ made, x.id ∈ batch.map Rule.id) :
    (s.putRules made).putRules batch = s.putRules batch := by
  induction made generalizing s with
  | nil => rfl
  | cons x xs ih =>
    have hrest :
        ((s.insertRule x).putRules xs).putRules batch = (s.insertRule x).putRules batch := by
      refine ih (fun y hy => ?_) fun y hy => hmade y (List.mem_cons_of_mem x hy)
      exact mem_map_id_insertRule x (hs y (List.mem_cons_of_mem x hy))
    exact hrest.trans (putRules_insertRule (hs x List.mem_cons_self) (hmade x List.mem_cons_self))

/-- **All rules after rules were put** that are there already. -/
theorem rules_putRules {s : Snapshot} {batch : List Rule} (hn : (s.rules.map Rule.id).Nodup)
    (h : ∀ x ∈ batch, x.id ∈ s.rules.map Rule.id) :
    (s.putRules batch).rules = s.rules.map (replacedBy batch) := by
  induction batch generalizing s with
  | nil => exact (List.map_id' s.rules).symm
  | cons x xs ih =>
    have hx := h x List.mem_cons_self
    have hins : (s.insertRule x).rules = s.rules.map (replacedBy [x]) := by
      rw [insertRule, upsert_eq_map Rule.id hn hx]
      apply List.map_congr_left
      intro y _
      by_cases hy : y.id = x.id
      · rw [if_pos hy, replacedBy_of_mem List.mem_cons_self hy.symm]
        intro z hz _
        exact List.mem_singleton.1 hz
      · rw [if_neg hy, replacedBy_of_not_mem (by simpa using hy)]
    have hids : (s.insertRule x).rules.map Rule.id = s.rules.map Rule.id := by
      rw [hins, List.map_map]
      exact List.map_congr_left fun y _ => id_replacedBy _ y
    have hrest := ih (s := s.insertRule x) (hids ▸ hn)
      fun y hy => hids ▸ h y (List.mem_cons_of_mem x hy)
    rw [show s.putRules (x :: xs) = (s.insertRule x).putRules xs from rfl, hrest, hins,
      List.map_map]
    apply List.map_congr_left
    intro y _
    exact (replacedBy_append [x] xs y).symm

section Stored

variable {s : Snapshot} {batch : List Rule}

theorem Holds.id_mem {x : Rule} (h : s.Holds x) : x.id ∈ s.rules.map Rule.id := by
  obtain ⟨r, hr, hid, -⟩ := h
  exact hid ▸ List.mem_map_of_mem hr

theorem rules_putRules_of_holds (hn : (s.rules.map Rule.id).Nodup)
    (h : ∀ x ∈ batch, s.Holds x) :
    (s.putRules batch).rules = s.rules.map (replacedBy batch) :=
  rules_putRules hn fun x hx => (h x hx).id_mem

/-- **The contents after rules were put** that are there already: nothing but these rules is
changed, and nothing moves. -/
theorem putRules_eq (hn : (s.rules.map Rule.id).Nodup) (h : ∀ x ∈ batch, s.Holds x) :
    s.putRules batch = { s with rules := s.rules.map (replacedBy batch) } := by
  rw [← rules_putRules_of_holds hn h, ← bundles_putRules s batch, ← objects_putRules s batch]

/-- A stored rule is replaced by a rule of its bundle. -/
theorem bundleId_replacedBy (hn : (s.rules.map Rule.id).Nodup) (h : ∀ x ∈ batch, s.Holds x)
    {r : Rule} (hr : r ∈ s.rules) : (replacedBy batch r).bundleId = r.bundleId := by
  rcases replacedBy_eq_or_mem batch r with he | hm
  · rw [he]
  · obtain ⟨r', hr', hid, hb⟩ := h _ hm
    rw [id_replacedBy] at hid
    rw [← hb, List.inj_on_of_nodup_map hn hr' hr hid]

/-- The ids of the rules stay where they are. -/
theorem map_id_putRules (hn : (s.rules.map Rule.id).Nodup) (h : ∀ x ∈ batch, s.Holds x) :
    (s.putRules batch).rules.map Rule.id = s.rules.map Rule.id := by
  rw [rules_putRules_of_holds hn h, List.map_map]
  exact List.map_congr_left fun y _ => id_replacedBy _ y

/-- What was held is held. -/
theorem Holds.putRules (hn : (s.rules.map Rule.id).Nodup) (h : ∀ x ∈ batch, s.Holds x) {x : Rule}
    (hx : s.Holds x) : (s.putRules batch).Holds x := by
  obtain ⟨r, hr, hid, hb⟩ := hx
  refine ⟨replacedBy batch r, ?_, ?_, ?_⟩
  · rw [rules_putRules_of_holds hn h]
    exact List.mem_map_of_mem hr
  · rw [id_replacedBy, hid]
  · rw [bundleId_replacedBy hn h hr, hb]

/-- **The rules of a bundle after rules were put.** -/
theorem rulesOf_putRules (hn : (s.rules.map Rule.id).Nodup) (h : ∀ x ∈ batch, s.Holds x)
    (bundleId : String) :
    (s.putRules batch).rulesOf bundleId = (s.rulesOf bundleId).map (replacedBy batch) := by
  have hfilter : (s.rules.map (replacedBy batch)).filter (fun r => r.bundleId = bundleId) =
      (s.rules.filter fun r => r.bundleId = bundleId).map (replacedBy batch) := by
    rw [List.filter_map]
    congr 1
    apply List.filter_congr
    intro r hr
    rw [Function.comp_apply, bundleId_replacedBy hn h hr]
  unfold rulesOf
  rw [rules_putRules_of_holds hn h, hfilter, sortById_map (id_replacedBy batch)]

theorem mem_rulesOf {bundleId : String} {r : Rule} :
    r ∈ s.rulesOf bundleId ↔ r ∈ s.rules ∧ r.bundleId = bundleId := by
  unfold rulesOf
  rw [mem_sortById, List.mem_filter, decide_eq_true_eq]

/-- The rules of a bundle stand in the order of their ids. -/
theorem pairwise_rulesOf (s : Snapshot) (bundleId : String) :
    (s.rulesOf bundleId).Pairwise fun r r' => r.id ≤ r'.id :=
  pairwise_sortById _

/-- The rules of a bundle are told apart by their ids. -/
theorem nodup_rulesOf (hn : (s.rules.map Rule.id).Nodup) (bundleId : String) :
    ((s.rulesOf bundleId).map Rule.id).Nodup := by
  unfold rulesOf
  rw [((sortById_perm _).map Rule.id).nodup_iff]
  exact hn.sublist (List.filter_sublist.map Rule.id)

/-- **The rules of a bundle stay** when no rule was put for it. -/
theorem rulesOf_putRules_of_not_mem (hn : (s.rules.map Rule.id).Nodup)
    (h : ∀ x ∈ batch, s.Holds x) {bundleId : String} (hb : ∀ x ∈ batch, x.bundleId ≠ bundleId) :
    (s.putRules batch).rulesOf bundleId = s.rulesOf bundleId := by
  rw [rulesOf_putRules hn h]
  refine (List.map_congr_left ?_).trans (List.map_id' _)
  intro r hr
  obtain ⟨hrs, hrb⟩ := mem_rulesOf.1 hr
  apply (replacedBy_eq_or_mem batch r).resolve_right
  intro hm
  exact hb _ hm (by rw [bundleId_replacedBy hn h hrs, hrb])

/-- A rule that is in no place of a bundle, neither before nor after it was added, makes no difference
to the bundle. -/
theorem filter_upsert_of_ne {bundleId : String} {x : Rule} (hx : x.bundleId ≠ bundleId)
    {rules : List Rule} (hrules : ∀ r ∈ rules, r.id = x.id → r.bundleId ≠ bundleId) :
    (upsert Rule.id x rules).filter (fun r => r.bundleId = bundleId) =
      rules.filter fun r => r.bundleId = bundleId := by
  induction rules with
  | nil => simp [upsert, hx]
  | cons r rules ih =>
    obtain ⟨hr, hrest⟩ := List.forall_mem_cons.1 hrules
    rw [upsert]
    split
    · next hid => rw [List.filter_cons_of_neg (by simpa using hx),
        List.filter_cons_of_neg (by simpa using hr hid)]
    · rw [List.filter_cons, List.filter_cons, ih hrest]

/-- **The rules of a bundle stay** when rules of other bundles are put for other bundles. -/
theorem rulesOf_putRules_of_ne {s : Snapshot} {made : List Rule} {bundleId : String}
    (h : ∀ x ∈ made, x.bundleId ≠ bundleId ∧ x.id ∉ (s.rulesOf bundleId).map Rule.id) :
    (s.putRules made).rulesOf bundleId = s.rulesOf bundleId := by
  induction made generalizing s with
  | nil => rfl
  | cons x made ih =>
    obtain ⟨⟨hbundle, hid⟩, hrest⟩ := List.forall_mem_cons.1 h
    have hstep : (s.insertRule x).rulesOf bundleId = s.rulesOf bundleId := by
      refine congrArg sortById (filter_upsert_of_ne hbundle fun r hr heq hb => hid ?_)
      rw [← heq]
      exact List.mem_map_of_mem (mem_rulesOf.2 ⟨hr, hb⟩)
    exact (ih (hstep.symm ▸ hrest)).trans hstep

end Stored

end Snapshot

end Store

end Firewall
