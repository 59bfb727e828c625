/-
# Entries and their ids

An entry is told from others of its kind by its id.  Whatever is written to a store, ids stay
distinct, none is lost and none moves: an entry that is written again stays where it is, and new ones
go to the end in the order in which they are first written.

* `Store.Write`, `Store.Snapshot.afterAll` : what can be written to a store;
* `Store.Snapshot.Keyed` : stores in which ids are distinct;
* `Store.GrownBy` : ids to which some were added;
* `Store.Snapshot.ids_after`, `grows_afterAll` : the ids after one write, and after a run of writes;
* `Store.Snapshot.Updated`, `updated_putRules` : the rules after a batch of them was put;
* `Store.Snapshot.pairwise_lt_rulesOf` : the rules of a bundle;
* `Store.Snapshot.afterAll_keyed` : all that can be reached by writing.
-/
import Firewall.Proofs.FirstSeen
import Firewall.Proofs.Scheduler.Stamps
import Firewall.Proofs.Store.Rules
import Firewall.Proofs.Timestamp

namespace Firewall

namespace Store

/-! ## Writes -/

/-- What can be written to a store. -/
inductive Write
  | bundle (b : Bundle)
  | rule (r : Rule)
  | object (o : FlowObject)
  | rules (rules : List Rule)
  | stamp (id : String) (time : Timestamp)

namespace Snapshot

/-- The contents after a write.  A bundle that is not there cannot be stamped, so then nothing is
written. -/
def after (s : Snapshot) : Write → Snapshot
  | .bundle b => s.insertBundle b
  | .rule r => s.insertRule r
  | .object o => s.insertObject o
  | .rules rules => ((Repository.inMemory.putRules rules).perform s).2
  | .stamp id time => ((Repository.inMemory.stamp id time).perform s).2

/-- The contents after some writes, one after the other. -/
def afterAll (s : Snapshot) (writes : List Write) : Snapshot := writes.foldl after s

/-- The ids of the bundles, in storage order. -/
def bundleIds (s : Snapshot) : List String := s.bundles.map Bundle.id

end Snapshot

/-! ## Growing ids -/

/-- The ids before stay in their places, and behind them come those that are new, in the order in
which they are first written. -/
def GrownBy (before written after : List String) : Prop :=
  ∃ new, after = before ++ new ∧ FirstOccurrences (written.filter fun i => i ∉ before) new

theorem grownBy_foldl (before written : List String) :
    GrownBy before written (written.foldl addUnseen before) :=
  ⟨_, foldl_addUnseen before written, firstOccurrences_iff.2 rfl⟩

/-- Ids that are distinct stay so. -/
theorem GrownBy.nodup {before written after : List String} (h : GrownBy before written after)
    (hn : before.Nodup) : after.Nodup := by
  obtain ⟨new, rfl, hnew⟩ := h
  refine List.nodup_append'.2 ⟨hn, hnew.nodup, fun i hi hi' => ?_⟩
  rw [hnew.mem_iff, List.mem_filter, decide_eq_true_eq] at hi'
  exact hi'.2 hi

/-! ## The ids that are written -/

namespace Write

/-- The ids of the bundles that a write adds or replaces. -/
def bundleIds : Write → List String
  | .bundle b => [b.id]
  | _ => []

/-- The ids of the rules that a write adds or replaces, in order. -/
def ruleIds : Write → List String
  | .rule r => [r.id]
  | .rules batch => batch.map Rule.id
  | _ => []

/-- The ids of the objects that a write adds or replaces. -/
def objectIds : Write → List String
  | .object o => [o.id]
  | _ => []

end Write

namespace Snapshot

/-- The ids of the rules, in storage order. -/
def ruleIds (s : Snapshot) : List String := s.rules.map Rule.id

/-- The ids of the objects, in storage order. -/
def objectIds (s : Snapshot) : List String := s.objects.map FlowObject.id

/-- The rule with an id. -/
def rule? (s : Snapshot) (id : String) : Option Rule := s.rules.find? fun r => r.id = id

/-- No two bundles have the same id, no two rules, and no two objects. -/
structure Keyed (s : Snapshot) : Prop where
  bundles : s.bundleIds.Nodup
  rules : s.ruleIds.Nodup
  objects : s.objectIds.Nodup

theorem keyed_empty : empty.Keyed := ⟨List.nodup_nil, List.nodup_nil, List.nodup_nil⟩

/-- The ids of the first contents have grown by what was written, and are those of the second. -/
structure Grows (s : Snapshot) (writes : List Write) (s' : Snapshot) : Prop where
  bundles : GrownBy s.bundleIds (writes.flatMap Write.bundleIds) s'.bundleIds
  rules : GrownBy s.ruleIds (writes.flatMap Write.ruleIds) s'.ruleIds
  objects : GrownBy s.objectIds (writes.flatMap Write.objectIds) s'.objectIds

theorem Grows.keyed {s s' : Snapshot} {writes : List Write} (h : s.Grows writes s')
    (hs : s.Keyed) : s'.Keyed :=
  ⟨h.bundles.nodup hs.bundles, h.rules.nodup hs.rules, h.objects.nodup hs.objects⟩

/-! ## Writing -/

/-- The ids of rules that are put are seen one after the other. -/
theorem ruleIds_putRules (s : Snapshot) (batch : List Rule) :
    (s.putRules batch).ruleIds = (batch.map Rule.id).foldl addUnseen s.ruleIds := by
  induction batch generalizing s with
  | nil => rfl
  | cons x xs ih =>
    have hone : (s.insertRule x).ruleIds = addUnseen s.ruleIds x.id := map_id_upsert Rule.id x s.rules
    rw [List.map_cons, List.foldl_cons, ← hone]
    exact ih (s.insertRule x)

/-- **The ids after a write** are those before, and the new ones that are written. -/
theorem ids_after (s : Snapshot) (write : Write) :
    (s.after write).bundleIds = write.bundleIds.foldl addUnseen s.bundleIds ∧
      (s.after write).ruleIds = write.ruleIds.foldl addUnseen s.ruleIds ∧
      (s.after write).objectIds = write.objectIds.foldl addUnseen s.objectIds := by
  cases write with
  | bundle b => exact ⟨map_id_upsert Bundle.id b s.bundles, rfl, rfl⟩
  | rule r => exact ⟨rfl, map_id_upsert Rule.id r s.rules, rfl⟩
  | object o => exact ⟨rfl, rfl, map_id_upsert FlowObject.id o s.objects⟩
  | rules rules =>
    exact ⟨congrArg (List.map Bundle.id) (s.bundles_putRules rules), s.ruleIds_putRules rules,
      congrArg (List.map FlowObject.id) (s.objects_putRules rules)⟩
  | stamp id time =>
    -- a bundle that is stamped keeps its id, and where there is none nothing is written
    rcases hstamp : stampIn id time s.bundles with - | bundles
    · have hsame : s.after (.stamp id time) = s := by
        simp [after, Repository.inMemory, stamp, hstamp]
      rw [hsame]
      exact ⟨rfl, rfl, rfl⟩
    · have hstamped : s.after (.stamp id time) = { s with bundles } := by
        simp [after, Repository.inMemory, stamp, hstamp]
      rw [hstamped]
      exact ⟨map_id_stampIn hstamp, rfl, rfl⟩

theorem ids_afterAll (s : Snapshot) (writes : List Write) :
    (s.afterAll writes).bundleIds =
        (writes.flatMap Write.bundleIds).foldl addUnseen s.bundleIds ∧
      (s.afterAll writes).ruleIds =
        (writes.flatMap Write.ruleIds).foldl addUnseen s.ruleIds ∧
      (s.afterAll writes).objectIds =
        (writes.flatMap Write.objectIds).foldl addUnseen s.objectIds := by
  induction writes generalizing s with
  | nil => exact ⟨rfl, rfl, rfl⟩
  | cons write writes ih =>
    obtain ⟨hbundles, hrules, hobjects⟩ := s.ids_after write
    have hrest := ih (s.after write)
    rw [hbundles, hrules, hobjects] at hrest
    simp only [List.flatMap_cons, List.foldl_append]
    exact hrest

/-- **Whatever is written**, ids stay in their places, and new ones come behind. -/
theorem grows_afterAll (s : Snapshot) (writes : List Write) :
    s.Grows writes (s.afterAll writes) := by
  obtain ⟨hbundles, hrules, hobjects⟩ := s.ids_afterAll writes
  refine ⟨?_, ?_, ?_⟩
  · rw [hbundles]
    exact grownBy_foldl _ _
  · rw [hrules]
    exact grownBy_foldl _ _
  · rw [hobjects]
    exact grownBy_foldl _ _

/-! ## Batches of rules -/

/-- The second contents are the first after a batch of rules was put. -/
structure Updated (s : Snapshot) (batch : List Rule) (s' : Snapshot) : Prop where
  /-- The last rule that the batch has for an id is stored under it. -/
  rule? : ∀ id, s'.rule? id = (batch.reverse.find? fun r => r.id = id).or (s.rule? id)
  ids : GrownBy s.ruleIds (batch.map Rule.id) s'.ruleIds
  bundles : s'.bundles = s.bundles
  objects : s'.objects = s.objects

/-- The rule under an id after a batch was put. -/
theorem rule?_putRules (s : Snapshot) (batch : List Rule) (id : String) :
    (s.putRules batch).rule? id =
      (batch.reverse.find? fun r => r.id = id).or (s.rule? id) := by
  -- the last rule is put last, so the induction is on the end of the batch
  induction batch using List.reverseRecOn with
  | nil => rfl
  | append_singleton batch x ih =>
    have hlast : (s.putRules (batch ++ [x])).rules = upsert Rule.id x (s.putRules batch).rules := by
      rw [putRules_append]
      rfl
    rw [rule?, hlast, List.reverse_append, List.reverse_singleton, List.singleton_append]
    by_cases hx : x.id = id
    · subst hx
      rw [find?_upsert_self, List.find?_cons_of_pos (by simp), Option.some_or]
    · rw [find?_upsert_of_ne Rule.id x _ hx, List.find?_cons_of_neg (by simpa using hx), ← ih]
      rfl

/-- **A batch that is put** replaces the rules of its ids, each by the last one of that id. -/
theorem updated_putRules (s : Snapshot) (batch : List Rule) :
    s.Updated batch (s.putRules batch) := by
  refine ⟨s.rule?_putRules batch, ?_, s.bundles_putRules batch, s.objects_putRules batch⟩
  rw [ruleIds_putRules]
  exact grownBy_foldl _ _

/-! ## The rules of a bundle -/

/-- **The ids of the rules of a bundle increase strictly**, as rules do not share them. -/
theorem pairwise_lt_rulesOf {s : Snapshot} (hn : s.ruleIds.Nodup) (bundleId : String) :
    (s.rulesOf bundleId).Pairwise fun r r' => r.id < r'.id := by
  have hne := List.pairwise_map.1 (nodup_rulesOf hn bundleId)
  exact (pairwise_rulesOf s bundleId).imp₂ (fun r r' hle hne => Std.lt_of_le_of_ne hle hne) hne

/-! ## Runs -/

/-- **All that can be reached by writing.**  From a store in which ids are distinct, however many
bundles, rules, objects, batches and stamps are written: ids are distinct, and whatever is written
later, they stay in their places.  A batch of rules that is put leaves under every id the last rule
that it has for that id, and the one before if it has none.  The rules of a bundle are those that are
stored for it, with strictly increasing ids. -/
theorem afterAll_keyed {s : Snapshot} (h : s.Keyed) (writes : List Write) :
    (s.afterAll writes).Keyed ∧
    (∀ later, (s.afterAll writes).Grows later (s.afterAll (writes ++ later))) ∧
    (∀ batch, ∃ s', (Repository.inMemory.putRules batch).perform (s.afterAll writes) = (.ok (), s') ∧
      (s.afterAll writes).Updated batch s') ∧
    ∀ bundleId, ∃ rules,
      (Repository.inMemory.rulesOf bundleId).perform (s.afterAll writes) =
        (.ok rules, s.afterAll writes) ∧
      (rules.Pairwise fun r r' => r.id < r'.id) ∧
      ∀ r, r ∈ rules ↔ r ∈ (s.afterAll writes).rules ∧ r.bundleId = bundleId := by
  have hkeyed := (s.grows_afterAll writes).keyed h
  refine ⟨hkeyed, fun later => ?_, fun batch => ⟨_, rfl, updated_putRules _ batch⟩,
    fun bundleId => ⟨_, rfl, pairwise_lt_rulesOf hkeyed.rules bundleId, fun r => mem_rulesOf⟩⟩
  have hrun : s.afterAll (writes ++ later) = (s.afterAll writes).afterAll later := List.foldl_append
  rw [hrun]
  exact grows_afterAll _ later

end Snapshot

namespace Sample

/-- A rule that has not been evaluated. -/
def ruleOf (id bundleId : String) : Rule where
  id
  bundleId
  action := "pass"
  protocol := "tcp"
  source := "o1"
  sourcePort := .any
  destination := "o1"
  destinationPort := .any
  status := .pending
  failureReasons := []
  optionFields := none
  version := 0
  suricata := none

/-- Two bundles, a rule and an object come to a store, and a bundle is stamped. -/
def writes : List Write :=
  [.bundle (.new "b1" "g1" ""), .rule (ruleOf "r2" "b1"), .bundle (.new "b2" "g1" ""),
    .object ⟨"o1", .address "10.0.0.1"⟩, .stamp "b1" Firewall.Sample.time]

/-- The rule goes over to the other bundle, and a new rule stands in the batch twice. -/
def batch : List Rule :=
  [ruleOf "r3" "b1", ruleOf "r2" "b2", ruleOf "r1" "b1", ruleOf "r3" "b2"]

end Sample

/-- A rule that goes over to another bundle keeps its place, and the last one of a batch is stored. -/
theorem Snapshot.afterAll_keyed_moved :
    Snapshot.empty.Keyed ∧ (Snapshot.empty.afterAll Sample.writes).Keyed ∧
    ∃ s', (Repository.inMemory.putRules Sample.batch).perform
        (Snapshot.empty.afterAll Sample.writes) = (.ok (), s') ∧
      s'.ruleIds = ["r2", "r3", "r1"] ∧ s'.rule? "r2" = some (Sample.ruleOf "r2" "b2") ∧
      s'.rule? "r3" = some (Sample.ruleOf "r3" "b2") := by
  obtain ⟨hkeyed, -, hput, -⟩ := Snapshot.afterAll_keyed Snapshot.keyed_empty Sample.writes
  obtain ⟨s', hs', hupdated⟩ := hput Sample.batch
  refine ⟨Snapshot.keyed_empty, hkeyed, s', hs', ?_, (hupdated.rule? "r2").trans rfl,
    (hupdated.rule? "r3").trans rfl⟩
  cases hs'
  rfl

end Store

end Firewall
