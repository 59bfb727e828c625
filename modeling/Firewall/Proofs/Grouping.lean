/-
# Bundles by rule group

Grouping is a stable division: the rule groups stand in the order of their first bundles, and the
members of each are the bundles of that rule group in their own order.

* `Bundle.groupByArn_eq` : the groups, said without the loop that forms them;
* `Bundle.map_fst_groupByArn`, `snd_of_mem_groupByArn` : the rule groups and their members;
* `Bundle.disjoint_groupByArn`, `nodup_flatMap_groupByArn` : groups share no id;
* `Bundle.Divides`, `divides_iff` : the groups are the one stable division;
* `Bundle.groupByArn_of_mem` : the members of a group make up that group alone.
-/
import Mathlib.Data.List.Nodup
import Firewall.Bundle
import Firewall.Proofs.FirstSeen

namespace Firewall

namespace Bundle

/-! ## The groups -/

/-- The bundles of a rule group. -/
def ofArn (arn : String) (bundles : List Bundle) : List Bundle :=
  bundles.filter fun b => b.ruleGroupArn = arn

theorem mem_ofArn {arn : String} {bundles : List Bundle} {b : Bundle} :
    b ∈ ofArn arn bundles ↔ b ∈ bundles ∧ b.ruleGroupArn = arn := by
  unfold ofArn
  rw [List.mem_filter, decide_eq_true_eq]

theorem ofArn_concat (arn : String) (bundles : List Bundle) (b : Bundle) :
    ofArn arn (bundles ++ [b]) =
      if b.ruleGroupArn = arn then ofArn arn bundles ++ [b] else ofArn arn bundles := by
  unfold ofArn
  rw [List.filter_append]
  by_cases h : b.ruleGroupArn = arn
  · rw [if_pos h, List.filter_cons_of_pos (by rw [decide_eq_true h]), List.filter_nil]
  · rw [if_neg h, List.filter_cons_of_neg (by simpa using h), List.filter_nil, List.append_nil]

/-- A bundle joins the group of its rule group where that is. -/
theorem addToGroups_of_mem (b : Bundle) (members : String → List Bundle) {arns : List String}
    (hn : arns.Nodup) (h : b.ruleGroupArn ∈ arns) :
    addToGroups b (arns.map fun arn => (arn, members arn)) =
      arns.map fun arn =>
        (arn, if b.ruleGroupArn = arn then members arn ++ [b] else members arn) := by
  induction arns with
  | nil => cases h
  | cons a arns ih =>
    rw [List.nodup_cons] at hn
    rw [List.map_cons, List.map_cons, addToGroups]
    by_cases ha : a = b.ruleGroupArn
    · -- the head is the group that is joined, and no other group has its rule group
      rw [if_pos ha, if_pos ha.symm]
      congr 1
      apply List.map_congr_left
      intro c hc
      have hne : ¬ b.ruleGroupArn = c := by
        rintro rfl
        exact hn.1 (ha ▸ hc)
      rw [if_neg hne]
    · rw [if_neg ha, if_neg (Ne.symm ha)]
      congr 1
      refine ih hn.2 ?_
      rcases List.mem_cons.1 h with h | h
      · exact absurd h.symm ha
      · exact h

/-- A bundle of a new rule group opens a group at the end. -/
theorem addToGroups_of_not_mem (b : Bundle) (members : String → List Bundle) {arns : List String}
    (h : b.ruleGroupArn ∉ arns) :
    addToGroups b (arns.map fun arn => (arn, members arn)) =
      (arns.map fun arn => (arn, members arn)) ++ [(b.ruleGroupArn, [b])] := by
  induction arns with
  | nil => rfl
  | cons a arns ih =>
    rw [List.mem_cons, not_or] at h
    rw [List.map_cons, addToGroups, if_neg (Ne.symm h.1), ih h.2, List.cons_append]

/-- **The groups of bundles**: one for each rule group in the order of first bundles, with the
bundles of that rule group in order. -/
theorem groupByArn_eq (bundles : List Bundle) :
    groupByArn bundles =
      (firstSeen (bundles.map (·.ruleGroupArn))).map fun arn => (arn, ofArn arn bundles) := by
  -- the groups grow at the end of the list of bundles, so the induction is on its reverse
  induction bundles using List.reverseRecOn with
  | nil => rfl
  | append_singleton bundles b ih =>
    unfold groupByArn at ih ⊢
    rw [List.foldl_append, List.foldl_cons, List.foldl_nil, ih, List.map_append, List.map_cons,
      List.map_nil, firstSeen_concat, addUnseen]
    by_cases h : b.ruleGroupArn ∈ firstSeen (bundles.map (·.ruleGroupArn))
    · rw [if_pos h, addToGroups_of_mem b (fun arn => ofArn arn bundles) (nodup_firstSeen _) h]
      apply List.map_congr_left
      intro arn _
      rw [ofArn_concat]
    · rw [if_neg h, addToGroups_of_not_mem b (fun arn => ofArn arn bundles) h, List.map_append]
      congr 1
      · apply List.map_congr_left
        intro arn harn
        have hne : ¬ b.ruleGroupArn = arn := by
          rintro rfl
          exact h harn
        rw [ofArn_concat, if_neg hne]
      · have hnil : ofArn b.ruleGroupArn bundles = [] := by
          rw [List.eq_nil_iff_forall_not_mem]
          intro c hc
          obtain ⟨hcb, hca⟩ := mem_ofArn.1 hc
          exact h (mem_firstSeen.2 (hca ▸ List.mem_map_of_mem hcb))
        rw [List.map_cons, List.map_nil, ofArn_concat, if_pos rfl, hnil, List.nil_append]

/-! ## Rule groups and members -/

/-- The rule groups stand in the order of their first bundles. -/
theorem map_fst_groupByArn (bundles : List Bundle) :
    (groupByArn bundles).map (·.1) = firstSeen (bundles.map (·.ruleGroupArn)) := by
  rw [groupByArn_eq, List.map_map]
  exact List.map_id _

/-- The members of a group are the bundles of its rule group. -/
theorem snd_of_mem_groupByArn {bundles : List Bundle} {group : String × List Bundle}
    (h : group ∈ groupByArn bundles) : group.2 = ofArn group.1 bundles := by
  rw [groupByArn_eq, List.mem_map] at h
  obtain ⟨arn, -, rfl⟩ := h
  rfl

theorem mem_groupByArn {bundles : List Bundle} {group : String × List Bundle} :
    group ∈ groupByArn bundles ↔
      (∃ b ∈ bundles, b.ruleGroupArn = group.1) ∧ group.2 = ofArn group.1 bundles := by
  rw [groupByArn_eq, List.mem_map]
  constructor
  · rintro ⟨arn, harn, rfl⟩
    exact ⟨List.mem_map.1 (mem_firstSeen.1 harn), rfl⟩
  · rintro ⟨hb, h⟩
    exact ⟨group.1, mem_firstSeen.2 (List.mem_map.2 hb), Prod.ext rfl h.symm⟩

/-- A bundle is in the group of its rule group. -/
theorem group_mem_groupByArn {bundles : List Bundle} {b : Bundle} (h : b ∈ bundles) :
    (b.ruleGroupArn, ofArn b.ruleGroupArn bundles) ∈ groupByArn bundles :=
  mem_groupByArn.2 ⟨⟨b, h, rfl⟩, rfl⟩

/-- Two groups share no id: the ids of their bundles are different. -/
def Disjoint (group group' : String × List Bundle) : Prop :=
  ∀ b ∈ group.2, ∀ b' ∈ group'.2, b.id ≠ b'.id

/-- **Different groups share no id**, if bundles of one id are of one rule group. -/
theorem disjoint_groupByArn {bundles : List Bundle}
    (h : ∀ b ∈ bundles, ∀ b' ∈ bundles, b.id = b'.id → b.ruleGroupArn = b'.ruleGroupArn) :
    (groupByArn bundles).Pairwise Disjoint := by
  rw [groupByArn_eq, List.pairwise_map]
  refine (nodup_firstSeen (bundles.map (·.ruleGroupArn))).imp ?_
  intro arn arn' hne b hb b' hb' hid
  rw [mem_ofArn] at hb hb'
  exact hne (hb.2 ▸ hb'.2 ▸ h b hb.1 b' hb'.1 hid)

/-- No group is empty. -/
theorem ne_nil_of_mem_groupByArn {bundles : List Bundle} {group : String × List Bundle}
    (h : group ∈ groupByArn bundles) : group.2 ≠ [] := by
  obtain ⟨⟨b, hb, harn⟩, hmembers⟩ := mem_groupByArn.1 h
  have hmem : b ∈ group.2 := by
    rw [hmembers]
    exact mem_ofArn.2 ⟨hb, harn⟩
  exact List.ne_nil_of_mem hmem

/-- **No id stands in the groups twice**, if no two bundles have the same. -/
theorem nodup_flatMap_groupByArn {bundles : List Bundle} (h : (bundles.map (·.id)).Nodup) :
    ((groupByArn bundles).flatMap fun group => group.2.map (·.id)).Nodup := by
  rw [List.nodup_flatMap]
  constructor
  · intro group hgroup
    rw [snd_of_mem_groupByArn hgroup]
    exact h.sublist (List.filter_sublist.map _)
  · have hd : (groupByArn bundles).Pairwise Disjoint := by
      refine disjoint_groupByArn fun b hb b' hb' hid => ?_
      rw [List.inj_on_of_nodup_map h hb hb' hid]
    refine hd.imp fun {group group'} hdis => ?_
    intro id hid hid'
    obtain ⟨b, hb, rfl⟩ := List.mem_map.1 hid
    obtain ⟨b', hb', hbb'⟩ := List.mem_map.1 hid'
    exact hdis b hb b' hb' hbb'.symm

/-! ## Stable divisions -/

/-- Groups divide bundles by rule group, and stably: nothing changes its order. -/
structure Divides (groups : List (String × List Bundle)) (bundles : List Bundle) : Prop where
  /-- Every rule group has one group, at the place of its first bundle. -/
  order : FirstOccurrences (bundles.map (·.ruleGroupArn)) (groups.map (·.1))
  nonempty : ∀ group ∈ groups, group.2 ≠ []
  members : ∀ group ∈ groups, group.2 = bundles.filter fun b => b.ruleGroupArn = group.1
  once : ∀ b ∈ bundles, ∃! group, group ∈ groups ∧ b ∈ group.2
  /-- A bundle that is listed several times is as often in its group. -/
  complete : (groups.flatMap (·.2)).Perm bundles

/-- A bundle that is added to groups is one more member. -/
theorem flatMap_addToGroups_perm (b : Bundle) (groups : List (String × List Bundle)) :
    ((addToGroups b groups).flatMap (·.2)).Perm (groups.flatMap (·.2) ++ [b]) := by
  induction groups with
  | nil => exact List.Perm.refl _
  | cons group groups ih =>
    obtain ⟨arn, members⟩ := group
    rw [addToGroups]
    split
    · -- the bundle moves past the members of the later groups
      rw [List.flatMap_cons, List.flatMap_cons, List.append_assoc, List.append_assoc]
      exact List.perm_append_comm.append_left members
    · rw [List.flatMap_cons, List.flatMap_cons, List.append_assoc]
      exact ih.append_left members

/-- No bundle is lost, and none is made up. -/
theorem flatMap_groupByArn_perm (bundles : List Bundle) :
    ((groupByArn bundles).flatMap (·.2)).Perm bundles := by
  induction bundles using List.reverseRecOn with
  | nil => exact List.Perm.refl _
  | append_singleton bundles b ih =>
    unfold groupByArn at ih ⊢
    rw [List.foldl_append, List.foldl_cons, List.foldl_nil]
    exact (flatMap_addToGroups_perm b _).trans (ih.append_right [b])

/-- **The groups are the one stable division.** -/
theorem divides_iff {groups : List (String × List Bundle)} {bundles : List Bundle} :
    Divides groups bundles ↔ groups = groupByArn bundles := by
  constructor
  · intro h
    rw [groupByArn_eq, ← firstOccurrences_iff.1 h.order, List.map_map]
    refine (List.map_id' groups).symm.trans (List.map_congr_left ?_)
    intro group hgroup
    exact Prod.ext rfl (h.members group hgroup)
  · rintro rfl
    refine ⟨firstOccurrences_iff.2 (map_fst_groupByArn bundles), fun _ => ne_nil_of_mem_groupByArn,
      fun _ => snd_of_mem_groupByArn, fun b hb => ?_, flatMap_groupByArn_perm bundles⟩
    refine ⟨_, ⟨group_mem_groupByArn hb, mem_ofArn.2 ⟨hb, rfl⟩⟩, ?_⟩
    rintro group ⟨hgroup, hmem⟩
    have hsnd := snd_of_mem_groupByArn hgroup
    rw [hsnd] at hmem
    have harn := (mem_ofArn.1 hmem).2
    exact Prod.ext harn.symm (by rw [hsnd, harn])

/-- **The members of a group make up that group alone.** -/
theorem groupByArn_of_mem {bundles : List Bundle} {group : String × List Bundle}
    (h : group ∈ groupByArn bundles) : groupByArn group.2 = [group] := by
  have harn : ∀ b ∈ group.2, b.ruleGroupArn = group.1 := by
    intro b hb
    rw [snd_of_mem_groupByArn h] at hb
    exact (mem_ofArn.1 hb).2
  have hone : FirstOccurrences (group.2.map (·.ruleGroupArn)) [group.1] := by
    refine ⟨List.nodup_singleton _, fun arn => ?_, List.pairwise_singleton _ _⟩
    rw [List.mem_singleton, List.mem_map]
    constructor
    · rintro rfl
      obtain ⟨b, hb⟩ := List.exists_mem_of_ne_nil _ (ne_nil_of_mem_groupByArn h)
      exact ⟨b, hb, harn b hb⟩
    · rintro ⟨b, hb, rfl⟩
      exact harn b hb
  have hall : ofArn group.1 group.2 = group.2 :=
    List.filter_eq_self.2 fun b hb => decide_eq_true (harn b hb)
  rw [groupByArn_eq, ← firstOccurrences_iff.1 hone, List.map_singleton, hall]

end Bundle

end Firewall
