/-
# Stamping

A cycle stamps the bundles that succeeded one by one.  A stamp that cannot be written is passed over
and has no effect; the others change the time of one bundle each, and nothing else.

* `Store.Snapshot.find?_stampIn` : one stamp, seen from all bundles;
* `World.Stamps` : what stamping some bundles makes of a world;
* `World.Stamps.bundles_eq` : the same, bundle by bundle;
* `Deployment.stampAll_spec` : stamping ids, of which some are refused;
* `Scheduler.nodup_sortedIds` : ids to stamp are different.
-/
import Mathlib.Data.List.Nodup
import Firewall.Proofs.Deployment
import Firewall.Scheduler.Cycle

namespace Firewall

namespace Bundle

/-- A bundle that is stamped at a time. -/
def stampedAt (time : Timestamp) (b : Bundle) : Bundle := { b with lastSuccessSync := some time }

end Bundle

/-! ## One stamp -/

namespace Store.Snapshot

/-- If ids are different, every bundle is found under its own. -/
theorem bundle?_of_mem {s : Snapshot} (hn : (s.bundles.map (·.id)).Nodup) {b : Bundle}
    (hb : b ∈ s.bundles) : s.bundle? b.id = some b := by
  show (s.bundles.find? fun c => c.id = b.id) = some b
  generalize s.bundles = bundles at hn hb ⊢
  induction bundles with
  | nil => cases hb
  | cons c cs ih =>
    rw [List.map_cons, List.nodup_cons] at hn
    rcases List.mem_cons.1 hb with rfl | hb
    · rw [List.find?_cons_of_pos (by simp)]
    · have hne : c.id ≠ b.id := fun heq => hn.1 (heq ▸ List.mem_map_of_mem hb)
      rw [List.find?_cons_of_neg (by simpa using hne)]
      exact ih hn.2 hb

variable {id : String} {time : Timestamp} {bundles bundles' : List Bundle}

/-- A stamp can be written exactly if there is a bundle with the id. -/
theorem stampIn_eq_none_iff : stampIn id time bundles = none ↔ id ∉ bundles.map (·.id) := by
  induction bundles with
  | nil => simp [stampIn]
  | cons b bs ih =>
    rw [stampIn, List.map_cons, List.mem_cons, not_or]
    by_cases hb : b.id = id
    · rw [if_pos hb]
      exact ⟨fun h => (by cases h), fun h => absurd hb.symm h.1⟩
    · rw [if_neg hb, Option.map_eq_none_iff, ih]
      exact ⟨fun h => ⟨Ne.symm hb, h⟩, fun h => h.2⟩

/-- A stamp leaves all ids where they are. -/
theorem map_id_stampIn (h : stampIn id time bundles = some bundles') :
    bundles'.map (·.id) = bundles.map (·.id) := by
  induction bundles generalizing bundles' with
  | nil => cases h
  | cons b bs ih =>
    rw [stampIn] at h
    by_cases hb : b.id = id
    · rw [if_pos hb] at h
      cases h
      rfl
    · rw [if_neg hb, Option.map_eq_some_iff] at h
      obtain ⟨bs', hbs', rfl⟩ := h
      rw [List.map_cons, List.map_cons, ih hbs']

/-- **A stamp changes the bundle that is found under its id**, and no other. -/
theorem find?_stampIn (h : stampIn id time bundles = some bundles') (i : String) :
    (bundles'.find? fun b => b.id = i) =
      if i = id then (bundles.find? fun b => b.id = i).map (Bundle.stampedAt time)
      else bundles.find? fun b => b.id = i := by
  induction bundles generalizing bundles' with
  | nil => cases h
  | cons b bs ih =>
    rw [stampIn] at h
    by_cases hb : b.id = id
    · rw [if_pos hb] at h
      cases h
      by_cases hi : i = id
      · rw [if_pos hi, List.find?_cons_of_pos (by simp [hb, hi]),
          List.find?_cons_of_pos (by simp [hb, hi])]
        rfl
      · rw [if_neg hi, List.find?_cons_of_neg (by simpa [hb] using Ne.symm hi),
          List.find?_cons_of_neg (by simpa [hb] using Ne.symm hi)]
    · rw [if_neg hb, Option.map_eq_some_iff] at h
      obtain ⟨bs', hbs', rfl⟩ := h
      by_cases hi : b.id = i
      · have hne : i ≠ id := fun hid => hb (hi.trans hid)
        rw [if_neg hne, List.find?_cons_of_pos (by simpa using hi),
          List.find?_cons_of_pos (by simpa using hi)]
      · rw [List.find?_cons_of_neg (by simpa using hi), List.find?_cons_of_neg (by simpa using hi)]
        exact ih hbs'

end Store.Snapshot

/-- The stamp of a ledger. -/
theorem Ledger.perform_stamp (id : String) (time : Timestamp) (l : Ledger) :
    (repository.stamp id time).perform l =
      match Store.Snapshot.stampIn id time l.store.bundles with
      | some bundles => (.ok (), ⟨{ l.store with bundles }, l.journal ++ [.stamped id time]⟩)
      | none => (.error (.notFound ("rule bundle " ++ id)), l) := by
  have hstamp : repository.stamp id time =
      (onStore (Store.Repository.inMemory.stamp id time) >>= fun _ => note (.stamped id time)) :=
    rfl
  rw [hstamp, Action.perform_bind, perform_onStore]
  simp only [Store.Repository.inMemory, Action.perform_ofFun, Store.Snapshot.stamp]
  cases Store.Snapshot.stampIn id time l.store.bundles <;> rfl

namespace Scheduler

variable {σ : Type} {repository : Store.Repository σ} {id : String} {time : Timestamp}
  {ids : List String} {s t : σ}

theorem stampAll_cons_of_ok (h : (repository.stamp id time).perform s = (.ok (), t)) :
    stampAll repository time (id :: ids) s = stampAll repository time ids t := by
  simp only [stampAll, bind, StateT.bind, Action.attempt, h]

theorem stampAll_cons_of_error {e : Error}
    (h : (repository.stamp id time).perform s = (.error e, t)) :
    stampAll repository time (id :: ids) s =
      (id :: (stampAll repository time ids t).1, (stampAll repository time ids t).2) := by
  simp only [stampAll, bind, StateT.bind, Action.attempt, h]
  rfl

/-- Whatever became of a stamp, the others start from the world that it left. -/
theorem snd_stampAll_cons (repository : Store.Repository σ) (time : Timestamp) (id : String)
    (ids : List String) (s : σ) :
    (stampAll repository time (id :: ids) s).2 =
      (stampAll repository time ids ((repository.stamp id time).perform s).2).2 := by
  rcases h : (repository.stamp id time).perform s with ⟨e | ⟨⟩, t⟩
  · rw [stampAll_cons_of_error h]
  · rw [stampAll_cons_of_ok h]

end Scheduler

/-! ## Several stamps -/

/-- Some bundles are stamped at a time, and nothing else is changed. -/
structure World.Stamps {ω : Type} (time : Timestamp) (w w' : World ω) (done : List String) :
    Prop where
  journal : w'.journal = w.journal ++ done.map fun id => .stamped id time
  ids : w'.store.bundles.map (·.id) = w.store.bundles.map (·.id)
  bundle? : ∀ i, w'.store.bundle? i =
    if i ∈ done then (w.store.bundle? i).map (Bundle.stampedAt time) else w.store.bundle? i
  held : ∀ i ∈ done, i ∈ w.store.bundles.map (·.id)
  rules : w'.store.rules = w.store.rules
  objects : w'.store.objects = w.store.objects

namespace World.Stamps

variable {ω : Type} {time : Timestamp} {w w₁ w' : World ω}

theorem nil (h : w'.ledger = w.ledger) : w.Stamps time w' [] := by
  have hstore : w'.store = w.store := congrArg Ledger.store h
  refine ⟨?_, (by rw [hstore]), fun i => ?_, fun i hi => (by cases hi), (by rw [hstore]),
    (by rw [hstore])⟩
  · rw [World.journal, h, List.map_nil, List.append_nil]
    rfl
  · rw [if_neg List.not_mem_nil, hstore]

theorem of_ledger_eq {done : List String} (h : w₁.Stamps time w' done)
    (hw : w₁.ledger = w.ledger) : w.Stamps time w' done := by
  obtain ⟨l, o⟩ := w
  obtain ⟨l₁, o₁⟩ := w₁
  cases hw
  exact ⟨h.journal, h.ids, h.bundle?, h.held, h.rules, h.objects⟩

/-- One stamp before others. -/
theorem cons {id : String} {done : List String} (h : w.Stamps time w₁ [id])
    (h' : w₁.Stamps time w' done) : w.Stamps time w' (id :: done) := by
  refine ⟨?_, h'.ids.trans h.ids, fun i => ?_, fun i hi => ?_, h'.rules.trans h.rules,
    h'.objects.trans h.objects⟩
  · rw [h'.journal, h.journal, List.append_assoc]
    rfl
  · have hi := h.bundle? i
    simp only [List.mem_singleton] at hi
    simp only [h'.bundle?, hi, List.mem_cons]
    by_cases hid : i = id
    · by_cases hdone : i ∈ done
      · -- stamped twice at the same time
        rw [if_pos hdone, if_pos hid, if_pos (Or.inl hid), Option.map_map]
        rfl
      · rw [if_neg hdone, if_pos hid, if_pos (Or.inl hid)]
    · by_cases hdone : i ∈ done
      · rw [if_pos hdone, if_neg hid, if_pos (Or.inr hdone)]
      · rw [if_neg hdone, if_neg hid, if_neg (not_or.2 ⟨hid, hdone⟩)]
  · rcases List.mem_cons.1 hi with rfl | hi
    · exact h.held _ List.mem_cons_self
    · rw [← h.ids]
      exact h'.held i hi

theorem stamps {done : List String} (h : w.Stamps time w' done) :
    w'.stamps = w.stamps ++ done.map fun id => (id, time) := by
  have hdone : (done.map fun id => Effect.stamped id time).filterMap Effect.stamp? =
      done.map fun id => (id, time) := by
    rw [List.filterMap_map]
    exact congrFun List.filterMap_eq_map' done
  have hjournal : w'.stamps = w'.journal.filterMap Effect.stamp? := rfl
  rw [hjournal, h.journal, List.filterMap_append, hdone]
  rfl

/-- Stamping publishes nothing. -/
theorem published {done : List String} (h : w.Stamps time w' done) :
    w'.published = w.published := by
  have hdone : (done.map fun id => Effect.stamped id time).filterMap Effect.update? = [] := by
    rw [List.filterMap_eq_nil_iff]
    intro e he
    obtain ⟨id, -, rfl⟩ := List.mem_map.1 he
    rfl
  rw [World.published, h.journal, List.filterMap_append, hdone, List.append_nil]
  rfl

/-- If ids are different, every bundle is stamped by its id. -/
theorem bundles_eq {done : List String} (h : w.Stamps time w' done)
    (hn : (w.store.bundles.map (·.id)).Nodup) :
    w'.store.bundles =
      w.store.bundles.map fun b => if b.id ∈ done then b.stampedAt time else b := by
  have hn' : (w'.store.bundles.map (·.id)).Nodup := by
    rw [h.ids]
    exact hn
  have hlength : w'.store.bundles.length = w.store.bundles.length := by
    simpa using congrArg List.length h.ids
  refine List.ext_getElem (by rw [hlength, List.length_map]) fun i hi' hi => ?_
  rw [List.length_map] at hi
  have hid : (w'.store.bundles[i]).id = (w.store.bundles[i]).id := by
    have := List.getElem_of_eq h.ids (i := i) (by simpa using hi')
    simpa using this
  -- both bundles in a place are found under the id that they share
  have hfound' := Store.Snapshot.bundle?_of_mem hn' (List.getElem_mem hi')
  have hfound := Store.Snapshot.bundle?_of_mem hn (List.getElem_mem hi)
  have hlookup := h.bundle? (w.store.bundles[i]).id
  rw [← hid, hfound', hid, hfound, Option.map_some] at hlookup
  rw [List.getElem_map]
  by_cases hdone : (w.store.bundles[i]).id ∈ done
  · rw [if_pos hdone] at hlookup ⊢
    exact Option.some.inj hlookup
  · rw [if_neg hdone] at hlookup ⊢
    exact Option.some.inj hlookup

end World.Stamps

namespace Deployment

variable {ω : Type} (d : Deployment ω)

/-- What a stamp that is written makes of a world. -/
theorem stamps_of_stampIn {id : String} {time : Timestamp} {w w' : World ω} {bundles : List Bundle}
    (h : Store.Snapshot.stampIn id time w.store.bundles = some bundles)
    (hw : w'.ledger = ⟨{ w.store with bundles }, w.journal ++ [.stamped id time]⟩) :
    w.Stamps time w' [id] := by
  have hstore : w'.store = { w.store with bundles } := congrArg Ledger.store hw
  refine ⟨congrArg Ledger.journal hw, ?_, fun i => ?_, fun i hi => ?_, (by rw [hstore]),
    (by rw [hstore])⟩
  · rw [hstore]
    exact Store.Snapshot.map_id_stampIn h
  · simp only [List.mem_singleton]
    rw [hstore]
    exact Store.Snapshot.find?_stampIn h i
  · rw [List.mem_singleton.1 hi]
    by_contra hid
    rw [Store.Snapshot.stampIn_eq_none_iff.2 hid] at h
    cases h

/-- **A stamp fails and does nothing**, or it is written. -/
theorem perform_stamp_cases (id : String) (time : Timestamp) (w : World ω) :
    (∃ e w', (d.repository.stamp id time).perform w = (.error e, w') ∧ w'.ledger = w.ledger) ∨
      ∃ w', (d.repository.stamp id time).perform w = (.ok (), w') ∧ w.Stamps time w' [id] := by
  rcases d.perform_call_cases (.stamp id time) (Ledger.repository.stamp id time) w with
    ⟨e, o, hcall⟩ | ⟨o, hcall⟩
  · exact Or.inl ⟨e, _, hcall, rfl⟩
  · rw [Ledger.perform_stamp] at hcall
    cases hstamp : Store.Snapshot.stampIn id time w.ledger.store.bundles with
    | none =>
      rw [hstamp] at hcall
      exact Or.inl ⟨_, _, hcall, rfl⟩
    | some bundles =>
      rw [hstamp] at hcall
      exact Or.inr ⟨_, hcall, stamps_of_stampIn hstamp rfl⟩

/-- The stamp of an id cannot be written when its turn comes among some ids. -/
def Unwritten (time : Timestamp) (ids : List String) (w : World ω) (id : String) : Prop :=
  ∃ before after e v, ids = before ++ id :: after ∧
    (d.repository.stamp id time).perform (Scheduler.stampAll d.repository time before w).2 =
      (.error e, v)

variable {d} in
theorem Unwritten.cons {time : Timestamp} {ids : List String} {w : World ω} {i id : String}
    (h : d.Unwritten time ids ((d.repository.stamp id time).perform w).2 i) :
    d.Unwritten time (id :: ids) w i := by
  obtain ⟨before, after, e, v, rfl, hstamp⟩ := h
  refine ⟨id :: before, after, e, v, rfl, ?_⟩
  rw [Scheduler.snd_stampAll_cons]
  exact hstamp

/-- **Stamping ids one by one**: some are stamped, and the stamps of the others failed. -/
theorem stampAll_spec (time : Timestamp) (ids : List String) (w : World ω) :
    ∃ done refused w', Scheduler.stampAll d.repository time ids w = (refused, w') ∧
      (done ++ refused).Perm ids ∧ w.Stamps time w' done ∧
      ∀ id ∈ refused, d.Unwritten time ids w id := by
  induction ids generalizing w with
  | nil => exact ⟨[], [], w, rfl, List.Perm.refl _, .nil rfl, fun id hid => by cases hid⟩
  | cons id ids ih =>
    rcases d.perform_stamp_cases id time w with ⟨e, w₁, hstamp, hledger⟩ | ⟨w₁, hstamp, hstamps⟩
    · obtain ⟨done, refused, w', hrest, hperm, hdone, hrefused⟩ := ih w₁
      refine ⟨done, id :: refused, w', ?_, ?_, hdone.of_ledger_eq hledger, ?_⟩
      · rw [Scheduler.stampAll_cons_of_error hstamp, hrest]
      · exact List.perm_middle.trans (hperm.cons id)
      · intro i hi
        rcases List.mem_cons.1 hi with rfl | hi
        · exact ⟨[], ids, e, w₁, rfl, hstamp⟩
        · exact .cons (by rw [hstamp]; exact hrefused i hi)
    · obtain ⟨done, refused, w', hrest, hperm, hdone, hrefused⟩ := ih w₁
      refine ⟨id :: done, refused, w', ?_, hperm.cons id, hstamps.cons hdone, ?_⟩
      · rw [Scheduler.stampAll_cons_of_ok hstamp, hrest]
      · exact fun i hi => .cons (by rw [hstamp]; exact hrefused i hi)

/-- Stamping leaves the ids of all bundles where they are. -/
theorem map_id_stampAll (time : Timestamp) (ids : List String) (w : World ω) :
    (Scheduler.stampAll d.repository time ids w).2.store.bundles.map (·.id) =
      w.store.bundles.map (·.id) := by
  obtain ⟨done, refused, w', hstampAll, -, hstamps, -⟩ := d.stampAll_spec time ids w
  rw [hstampAll]
  exact hstamps.ids

/-- A store in memory fails to stamp only what it does not have. -/
theorem not_mem_of_stamp_inMemory {accept : Evaluation.Update → Action ω Unit}
    {source : Inventory.Source ω} {chain : List Resolver} {denyRuleId id : String}
    {time : Timestamp} {w w' : World ω} {e : Error}
    (h : ((inMemory accept source chain denyRuleId).repository.stamp id time).perform w =
      (.error e, w')) : id ∉ w.store.bundles.map (·.id) := by
  have hcall : ((inMemory accept source chain denyRuleId).repository.stamp id time).perform w =
      (((Ledger.repository.stamp id time).perform w.ledger).1, _) :=
    perform_call_inMemory (fun u hu => by cases hu) (Ledger.repository.stamp id time) w
  rw [hcall, Ledger.perform_stamp] at h
  cases hstamp : Store.Snapshot.stampIn id time w.ledger.store.bundles with
  | none => exact Store.Snapshot.stampIn_eq_none_iff.1 hstamp
  | some bundles =>
    rw [hstamp] at h
    cases h

end Deployment

/-! ## Different ids -/

namespace Scheduler

/-- An id is inserted where it belongs. -/
theorem pairwise_insertId (id : String) {xs : List String} (h : xs.Pairwise (· < ·)) :
    (insertId id xs).Pairwise (· < ·) := by
  induction xs with
  | nil => exact List.pairwise_singleton _ _
  | cons x xs ih =>
    rw [insertId]
    rw [List.pairwise_cons] at h
    by_cases hlt : id < x
    · rw [if_pos hlt, List.pairwise_cons]
      refine ⟨fun y hy => ?_, List.pairwise_cons.2 h⟩
      rcases List.mem_cons.1 hy with rfl | hy
      · exact hlt
      · exact Std.lt_trans hlt (h.1 y hy)
    · rw [if_neg hlt]
      by_cases heq : id = x
      · rw [if_pos heq]
        exact List.pairwise_cons.2 h
      · rw [if_neg heq, List.pairwise_cons]
        refine ⟨fun y hy => ?_, ih h.2⟩
        rcases mem_insertId.1 hy with rfl | hy
        · exact ((Std.lt_trichotomy y x).resolve_left hlt).resolve_left heq
        · exact h.1 y hy

theorem pairwise_sortedIds (ids : List String) : (sortedIds ids).Pairwise (· < ·) := by
  induction ids with
  | nil => exact List.Pairwise.nil
  | cons id ids ih => exact pairwise_insertId id ih

/-- **Sorted ids are different.** -/
theorem nodup_sortedIds (ids : List String) : (sortedIds ids).Nodup := by
  refine (pairwise_sortedIds ids).imp fun {a b} hlt heq => ?_
  rw [heq] at hlt
  exact String.lt_asymm hlt hlt

end Scheduler

end Firewall
