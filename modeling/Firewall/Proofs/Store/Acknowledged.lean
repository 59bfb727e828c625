/-
# Acknowledged writes

A call that succeeds acknowledges what it wrote.  In a store in memory no such write is lost: the
record shows it until a later call writes the same record again, and a call leaves all other records
alone.

* `Store.Key`, `Store.Snapshot.record?` : the records that calls write;
* `Store.Snapshot.Written` : what a call that succeeds does;
* `Store.NoneLost` : contents that show every acknowledged write;
* `Store.Snapshot.Path` : events that succeed, one after the other;
* `Store.Snapshot.Path.leaves` : what they leave.
-/
import Firewall.Proofs.Store.Keys
import Firewall.Proofs.Store.Persistence

namespace Firewall

namespace Store

/-! ## Records -/

/-- What a record is found under. -/
inductive Key
  | rule (id : String)
  | bundle (id : String)

/-- A record that calls write. -/
inductive Record
  | rule (r : Rule)
  | bundle (b : Bundle)

/-- The record under a key. -/
def Snapshot.record? (s : Snapshot) : Key → Option Record
  | .rule id => (s.rule? id).map .rule
  | .bundle id => (s.bundle? id).map .bundle

namespace Operation

/-- The keys of the records that an operation writes. -/
def keys : Operation → List Key
  | put batch => batch.map fun r => .rule r.id
  | stamp id _ => [.bundle id]
  | _ => []

/-- Whether a record shows what an operation wrote under its key: the last rule of a batch with the
id, or the time of a stamp. -/
def Shows : Operation → Key → Option Record → Prop
  | put batch, .rule id, record => record = (batch.reverse.find? fun r => r.id = id).map .rule
  | stamp _ time, .bundle _, record =>
    ∃ b, record = some (.bundle b) ∧ b.lastSuccessSync = some time
  | _, _, _ => False

end Operation

/-- Contents show every acknowledged write of some events: what a call wrote under a key is there,
unless a later call wrote under the same key. -/
def NoneLost (events : List Event) (s : Snapshot) : Prop :=
  ∀ before op after key, events = before ++ .call op :: after → key ∈ op.keys →
    (∀ op', .call op' ∈ after → key ∉ op'.keys) → op.Shows key (s.record? key)

namespace Snapshot

/-! ## Calls that succeed -/

/-- What a call that succeeds makes of contents. -/
inductive Written (s : Snapshot) : Operation → Snapshot → Prop
  | put (batch : List Rule) : Written s (.put batch) (s.putRules batch)
  | stamp {id : String} {time : Timestamp} {bundles : List Bundle}
      (h : stampIn id time s.bundles = some bundles) : Written s (.stamp id time) { s with bundles }

variable {s s' : Snapshot} {op : Operation} {key : Key}

/-- **A call is acknowledged** if it puts rules, or stamps a bundle that is there. -/
theorem written_iff :
    s.Written op s' ↔ (Repository.inMemory.answer op).perform s = (.ok .done, s') := by
  constructor
  · intro h
    cases h with
    | put batch => rfl
    | @stamp id time bundles hstamp =>
      have hperform : (Repository.inMemory.stamp id time).perform s =
          (.ok (), { s with bundles }) := by
        simp [Repository.inMemory, Snapshot.stamp, hstamp]
      exact Action.perform_bind_of_ok hperform _
  · intro h
    cases op with
    | put batch =>
      cases h
      exact .put batch
    | stamp id time =>
      obtain ⟨⟨⟩, t, hstamp, h⟩ := Action.perform_bind_ok_iff.1 h
      cases h
      simp only [Repository.inMemory, Action.perform_ofFun, Snapshot.stamp] at hstamp
      rcases hbundles : stampIn id time s.bundles with _ | bundles
      · rw [hbundles] at hstamp
        cases hstamp
      · rw [hbundles] at hstamp
        cases hstamp
        exact .stamp hbundles
    | _ =>
      obtain ⟨_, _, _, h⟩ := Action.perform_bind_ok_iff.1 h
      cases h

theorem Written.writes (h : s.Written op s') : op.writes = true := by
  cases h <;> rfl

/-- A bundle that was stamped was there. -/
theorem exists_bundle?_of_stampIn {id : String} {time : Timestamp} {bundles : List Bundle}
    (h : stampIn id time s.bundles = some bundles) : ∃ b, s.bundle? id = some b := by
  refine Option.ne_none_iff_exists'.1 fun hnone => ?_
  have hmissing : id ∉ s.bundles.map (·.id) := by
    intro hmem
    obtain ⟨b, hb, rfl⟩ := List.mem_map.1 hmem
    exact (List.find?_eq_none.1 hnone b hb) (by simp)
  rw [stampIn_eq_none_iff.2 hmissing] at h
  cases h

/-- **What is written is shown.** -/
theorem Written.shows (h : s.Written op s') (hkey : key ∈ op.keys) :
    op.Shows key (s'.record? key) := by
  cases h with
  | put batch =>
    obtain ⟨r, hr, rfl⟩ : ∃ r ∈ batch, Key.rule r.id = key := List.mem_map.1 hkey
    have hfound : (batch.reverse.find? fun r' => r'.id = r.id).isSome := by
      rw [List.find?_isSome]
      exact ⟨r, List.mem_reverse.2 hr, by simp⟩
    obtain ⟨last, hlast⟩ := Option.isSome_iff_exists.1 hfound
    show Option.map _ ((s.putRules batch).rule? r.id) = _
    rw [rule?_putRules, hlast, Option.some_or]
  | @stamp id time bundles hstamp =>
    obtain rfl : key = .bundle id := List.mem_singleton.1 hkey
    obtain ⟨b, hb⟩ := exists_bundle?_of_stampIn hstamp
    refine ⟨b.stampedAt time, ?_, rfl⟩
    have hstamped := find?_stampIn hstamp id
    rw [if_pos rfl] at hstamped
    show Option.map _ (bundles.find? fun c => c.id = id) = _
    rw [hstamped]
    exact congrArg (fun found => (Option.map (Bundle.stampedAt time) found).map Record.bundle) hb

/-- **Other records stay.** -/
theorem Written.record?_eq (h : s.Written op s') (hkey : key ∉ op.keys) :
    s'.record? key = s.record? key := by
  cases h with
  | put batch =>
    cases key with
    | bundle id =>
      show Option.map _ ((s.putRules batch).bundles.find? _) = _
      rw [bundles_putRules]
      rfl
    | rule id =>
      have hnone : (batch.reverse.find? fun r => r.id = id) = none := by
        refine List.find?_eq_none.2 fun r hr heq => hkey ?_
        rw [decide_eq_true_eq] at heq
        exact List.mem_map.2 ⟨r, List.mem_reverse.1 hr, congrArg Key.rule heq⟩
      show Option.map _ ((s.putRules batch).rule? id) = _
      rw [rule?_putRules, hnone, Option.none_or]
      rfl
  | @stamp id time bundles hstamp =>
    cases key with
    | rule id' => rfl
    | bundle id' =>
      have hne : id' ≠ id := fun heq => hkey (List.mem_singleton.2 (congrArg Key.bundle heq))
      have hstamped := find?_stampIn hstamp id'
      rw [if_neg hne] at hstamped
      exact congrArg (Option.map Record.bundle) hstamped

/-! ## Events that succeed -/

/-- Contents before and after some events, all of which succeed. -/
inductive Path : Snapshot → List Event → Snapshot → Prop
  | nil (s : Snapshot) : Path s [] s
  | call {s s' t : Snapshot} {op : Operation} {events : List Event} (h : s.Written op s')
      (hrest : Path s' events t) : Path s (.call op :: events) t
  | reopen {s t : Snapshot} {events : List Event} (hrest : Path s events t) :
      Path s (.reopen :: events) t

/-- What some events leave in contents. -/
structure Leaves (s : Snapshot) (events : List Event) (s' : Snapshot) : Prop where
  /-- The contents are those of a store in memory that was asked nothing else. -/
  session : (session events s).2 = s'
  noneLost : NoneLost events s'
  /-- The records that no call wrote are as before. -/
  others : ∀ key, (∀ op, .call op ∈ events → key ∉ op.keys) → s'.record? key = s.record? key

variable {events : List Event}

theorem Path.session_eq (h : Path s events s') : (session events s).2 = s' := by
  induction h with
  | nil s => rfl
  | call h hrest ih =>
    simp only [session, Action.replay, process, written_iff.1 h]
    exact ih
  | reopen hrest ih => exact ih

theorem Path.record?_eq (h : Path s events s')
    (hkey : ∀ op, .call op ∈ events → key ∉ op.keys) : s'.record? key = s.record? key := by
  induction h with
  | nil s => rfl
  | call h hrest ih =>
    rw [ih fun op hop => hkey op (List.mem_cons_of_mem _ hop),
      h.record?_eq (hkey _ List.mem_cons_self)]
  | reopen hrest ih => exact ih fun op hop => hkey op (List.mem_cons_of_mem _ hop)

/-- **A store in memory loses nothing.**  A write is shown when its call returns, and stays there as
long as no call writes the record again. -/
theorem Path.noneLost (h : Path s events s') : NoneLost events s' := by
  induction h with
  | nil s =>
    intro before op after key heq
    cases before <;> cases heq
  | @call s s₁ t op events h hrest ih =>
    intro before op' after key heq hkey hlater
    cases before with
    | nil =>
      cases heq
      rw [hrest.record?_eq hlater]
      exact h.shows hkey
    | cons e before => exact ih before op' after key (List.cons.inj heq).2 hkey hlater
  | @reopen s t events hrest ih =>
    intro before op' after key heq hkey hlater
    cases before with
    | nil => cases heq
    | cons e before => exact ih before op' after key (List.cons.inj heq).2 hkey hlater

/-- **What events leave** that all succeed. -/
theorem Path.leaves (h : Path s events s') : s.Leaves events s' :=
  ⟨h.session_eq, h.noneLost, fun _ hkey => h.record?_eq hkey⟩

end Snapshot

end Store

end Firewall
