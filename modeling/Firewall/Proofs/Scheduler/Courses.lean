/-
# Courses of the loop

Whatever is delivered to the loop, in whatever order, and whatever its cycles come to: it runs one
cycle for each tick that comes before the first event that ends it, each from the world that the
cycle before left, and none after that event.  A flag that is not set makes no difference.

On a clock, the loop does what it does over the events that the timetable delivers, and it does not
fall asleep before the signals are over.

* `Scheduler.awake`, `tickTimes` : the events before the one that ends the loop, and their ticks;
* `Scheduler.Course.Follows` : what the loop does over a history;
* `Scheduler.follows_of_stops`, `follows_tick`, `follows_shutdown_false` : the step, one event;
* `Scheduler.follows_run` : the run, event by event;
* `Scheduler.run_events_react`, `runTimed_eq_run` : the loop on a clock is a loop over events;
* `Scheduler.stopped_runForever` : it ends if its last signal ends it;
* `Scheduler.run_spec` : every history.
-/
import Firewall.Proofs.Deployment
import Firewall.Scheduler.Loop

namespace Firewall

namespace Scheduler

/-! ## Histories -/

/-- The events before the first that ends the loop. -/
def awake (history : List (Nat × Event)) : List (Nat × Event) :=
  history.takeWhile fun e => !e.2.stops

/-- The times of the ticks among some events. -/
def tickTimes (history : List (Nat × Event)) : List Nat :=
  (history.filter fun e => e.2 = .tick).map (·.1)

theorem awake_cons_of_stops {now : Nat} {event : Event} (h : event.stops = true)
    (history : List (Nat × Event)) : awake ((now, event) :: history) = [] := by
  simp [awake, h]

theorem awake_cons_of_not_stops {now : Nat} {event : Event} (h : event.stops = false)
    (history : List (Nat × Event)) :
    awake ((now, event) :: history) = (now, event) :: awake history := by
  simp [awake, h]

/-- An event that does not end the loop is none of those that end it. -/
theorem exists_stops_cons_iff {now : Nat} {event : Event} (h : event.stops = false)
    (history : List (Nat × Event)) :
    (∃ e ∈ (now, event) :: history, e.2.stops = true) ↔ ∃ e ∈ history, e.2.stops = true := by
  simp [h]

/-- The first event that ends the loop comes behind one that does not. -/
theorem eq_awake_append_of_cons {now now' : Nat} {event event' : Event} (h : event.stops = false)
    {history after : List (Nat × Event)}
    (heq : (now, event) :: history = awake ((now, event) :: history) ++ (now', event') :: after) :
    history = awake history ++ (now', event') :: after := by
  rw [awake_cons_of_not_stops h, List.cons_append] at heq
  exact (List.cons.inj heq).2

theorem tickTimes_cons_tick (now : Nat) (history : List (Nat × Event)) :
    tickTimes ((now, .tick) :: history) = now :: tickTimes history := by
  simp [tickTimes]

theorem tickTimes_cons_of_ne {event : Event} (h : event ≠ .tick) (now : Nat)
    (history : List (Nat × Event)) :
    tickTimes ((now, event) :: history) = tickTimes history := by
  simp [tickTimes, h]

/-- An event ends the loop, is a tick, or is a flag that is not set. -/
theorem Event.stops_or_tick_or_unset (event : Event) :
    event.stops = true ∨ event = .tick ∨ event = .shutdown false := by
  cases event with
  | tick => exact Or.inr (Or.inl rfl)
  | shutdown flag =>
    cases flag with
    | false => exact Or.inr (Or.inr rfl)
    | true => exact Or.inl rfl
  | abandoned => exact Or.inl rfl

variable {σ : Type}

/-! ## One event -/

/-- What the loop does over a history, from a world. -/
structure Course.Follows (c : Course σ) (cycle : Action (Clocked σ) Report)
    (history : List (Nat × Event)) (s : Clocked σ) : Prop where
  /-- One cycle for each tick before the first event that ends the loop, at its time; and no
  other. -/
  times : c.laps.map (·.start.now) = tickTimes (awake history)
  /-- Every lap is a cycle, whether it succeeds or fails. -/
  performed : ∀ lap ∈ c.laps, cycle.perform lap.start = (lap.result, lap.finish)
  /-- The first cycle starts from the world at the start, and every other from the one that the
  cycle before left; that of the last is the world at the end. -/
  chained : s.world :: c.laps.map (·.finish.world) = c.laps.map (·.start.world) ++ [c.world.world]
  /-- The loop takes in the first event that ends it, and nothing behind it. -/
  taken : c.events = history.take ((awake history).length + 1)
  /-- It stops exactly if there is such an event. -/
  stopped_iff : c.stopped = true ↔ ∃ e ∈ history, e.2.stops = true
  /-- It stops when this event comes. -/
  stops_at : ∀ now event after, history = awake history ++ (now, event) :: after → c.world.now = now

section Step

variable {cycle : Action (Clocked σ) Report} {rest : Clocked σ → Course σ} {now : Nat}
  {event : Event} {history : List (Nat × Event)} {s : Clocked σ}

/-- An event that ends the loop is the last that it takes in. -/
theorem follows_of_stops (h : event.stops = true) :
    (react cycle rest now event s).Follows cycle ((now, event) :: history) s := by
  have hawake : awake ((now, event) :: history) = [] := awake_cons_of_stops h history
  rw [react_of_stops cycle rest now s h]
  refine ⟨?_, ?_, rfl, ?_, ?_, ?_⟩
  · rw [hawake]
    rfl
  · intro lap hlap
    cases hlap
  · rw [hawake]
    rfl
  · exact ⟨fun _ => ⟨(now, event), List.mem_cons_self, h⟩, fun _ => rfl⟩
  · intro now' event' after heq
    rw [hawake] at heq
    cases heq
    rfl

/-- **A tick is a lap.**  The loop goes on from the world that the cycle left, whether it failed or
not. -/
theorem follows_tick {result : Except Error Report} {s' : Clocked σ}
    (h : cycle.perform { s with now } = (result, s'))
    (hrest : (rest s').Follows cycle history s') :
    (react cycle rest now .tick s).Follows cycle ((now, .tick) :: history) s := by
  have hawake : awake ((now, .tick) :: history) = (now, .tick) :: awake history :=
    awake_cons_of_not_stops rfl history
  rw [react_tick cycle rest now s h]
  refine ⟨?_, ?_, ?_, ?_, ?_, ?_⟩
  · rw [hawake, tickTimes_cons_tick, ← hrest.times]
    rfl
  · exact List.forall_mem_cons.2 ⟨h, hrest.performed⟩
  · rw [List.map_cons, List.map_cons, List.cons_append, ← hrest.chained]
  · rw [hawake, List.length_cons, List.take_succ_cons, ← hrest.taken]
  · rw [exists_stops_cons_iff rfl, ← hrest.stopped_iff]
  · intro now' event' after heq
    exact hrest.stops_at now' event' after (eq_awake_append_of_cons rfl heq)

/-- **A flag that is not set is passed over.** -/
theorem follows_shutdown_false
    (hrest : (rest { s with now }).Follows cycle history { s with now }) :
    (react cycle rest now (.shutdown false) s).Follows cycle
      ((now, .shutdown false) :: history) s := by
  have hawake : awake ((now, .shutdown false) :: history) =
      (now, .shutdown false) :: awake history :=
    awake_cons_of_not_stops rfl history
  rw [react_shutdown_false cycle rest now s]
  refine ⟨?_, hrest.performed, hrest.chained, ?_, ?_, ?_⟩
  · rw [hawake, tickTimes_cons_of_ne (by decide), ← hrest.times]
  · rw [hawake, List.length_cons, List.take_succ_cons, ← hrest.taken]
  · rw [exists_stops_cons_iff rfl, ← hrest.stopped_iff]
  · intro now' event' after heq
    exact hrest.stops_at now' event' after (eq_awake_append_of_cons rfl heq)

end Step

/-! ## Every history -/

/-- **The loop over a history**, event by event. -/
theorem follows_run (cycle : Action (Clocked σ) Report) (history : List (Nat × Event))
    (s : Clocked σ) : (run cycle history s).Follows cycle history s := by
  induction history generalizing s with
  | nil =>
    refine ⟨rfl, ?_, rfl, rfl, ?_, ?_⟩
    · intro lap hlap
      cases hlap
    · exact ⟨fun h => (by cases h), fun ⟨e, he, _⟩ => (by cases he)⟩
    · intro now event after heq
      cases heq
  | cons e history ih =>
    obtain ⟨now, event⟩ := e
    rw [run]
    rcases event.stops_or_tick_or_unset with hstops | rfl | rfl
    · exact follows_of_stops hstops
    · exact follows_tick rfl (ih _)
    · exact follows_shutdown_false (ih _)

/-! ## What makes no difference -/

/-- Two loops did the same: the same laps, and the same at the end, but for the clock. -/
structure Course.SameWork (c c' : Course σ) : Prop where
  laps : c.laps = c'.laps
  world : c.world.world = c'.world.world
  stopped : c.stopped = c'.stopped

namespace Course.SameWork

variable {c c' c'' : Course σ}

theorem refl (c : Course σ) : c.SameWork c := ⟨rfl, rfl, rfl⟩

theorem trans (h : c.SameWork c') (h' : c'.SameWork c'') : c.SameWork c'' :=
  ⟨h.laps.trans h'.laps, h.world.trans h'.world, h.stopped.trans h'.stopped⟩

/-- Loops that do the same after an event do the same from that event on. -/
theorem react {cycle : Action (Clocked σ) Report} {rest rest' : Clocked σ → Course σ}
    (h : ∀ s, (rest s).SameWork (rest' s)) (now : Nat) (event : Event) (s : Clocked σ) :
    (react cycle rest now event s).SameWork (react cycle rest' now event s) := by
  rcases event.stops_or_tick_or_unset with hstops | rfl | rfl
  · rw [react_of_stops cycle rest now s hstops, react_of_stops cycle rest' now s hstops]
    exact refl _
  · rw [react_tick cycle rest now s rfl, react_tick cycle rest' now s rfl]
    exact ⟨congrArg (_ :: ·) (h _).laps, (h _).world, (h _).stopped⟩
  · rw [react_shutdown_false, react_shutdown_false]
    exact ⟨(h _).laps, (h _).world, (h _).stopped⟩

end Course.SameWork

/-- The clock at the start makes no difference, as every event sets it. -/
theorem sameWork_run_of_world (cycle : Action (Clocked σ) Report) (history : List (Nat × Event))
    {s s' : Clocked σ} (h : s.world = s'.world) :
    (run cycle history s).SameWork (run cycle history s') := by
  cases history with
  | nil => exact ⟨rfl, h, rfl⟩
  | cons e history =>
    have hclock : run cycle (e :: history) s = run cycle (e :: history) s' := by
      simp only [run, react, h]
    rw [hclock]
    exact Course.SameWork.refl _

/-- **Flags that are not set make no difference.** -/
theorem sameWork_run_filter (cycle : Action (Clocked σ) Report) (history : List (Nat × Event))
    (s : Clocked σ) :
    (run cycle (history.filter fun e => e.2 ≠ .shutdown false) s).SameWork
      (run cycle history s) := by
  induction history generalizing s with
  | nil => exact Course.SameWork.refl _
  | cons e history ih =>
    obtain ⟨now, event⟩ := e
    by_cases hunset : event = .shutdown false
    · subst hunset
      have hrest : (run cycle history { s with now }).SameWork
          (run cycle ((now, .shutdown false) :: history) s) := by
        rw [run, react_shutdown_false]
        exact ⟨rfl, rfl, rfl⟩
      have hclock : (run cycle (history.filter fun e => e.2 ≠ .shutdown false) s).SameWork
          (run cycle (history.filter fun e => e.2 ≠ .shutdown false) { s with now }) :=
        sameWork_run_of_world cycle _ rfl
      rw [List.filter_cons_of_neg (by simp)]
      exact (hclock.trans (ih { s with now })).trans hrest
    · rw [List.filter_cons_of_pos (by simpa using hunset), run, run]
      exact Course.SameWork.react ih now event s

/-! ## The loop on a clock -/

/-- A loop that goes over the events that it takes in after an event goes over this event as
well. -/
theorem run_events_react {cycle : Action (Clocked σ) Report} {rest : Clocked σ → Course σ}
    (h : ∀ s, run cycle (rest s).events s = rest s) (now : Nat) (event : Event) (s : Clocked σ) :
    run cycle (react cycle rest now event s).events s = react cycle rest now event s := by
  rcases event.stops_or_tick_or_unset with hstops | rfl | rfl
  · rw [react_of_stops cycle rest now s hstops, run, react_of_stops cycle _ now s hstops]
  · rw [react_tick cycle rest now s rfl, run, react_tick cycle _ now s rfl, h]
  · rw [react_shutdown_false, run, react_shutdown_false, h]

/-- **Only the events that the loop takes in count.** -/
theorem run_events_run (cycle : Action (Clocked σ) Report) (history : List (Nat × Event))
    (s : Clocked σ) : run cycle (run cycle history s).events s = run cycle history s := by
  induction history generalizing s with
  | nil => rfl
  | cons e history ih => exact run_events_react ih e.1 e.2 s

/-- **The loop on a clock is the loop over the events that it takes in.** -/
theorem runTimed_eq_run (cycle : Action (Clocked σ) Report) (fuel : Nat) (t : Timetable)
    (s : Clocked σ) :
    run cycle (runTimed cycle fuel t s).events s = runTimed cycle fuel t s := by
  induction fuel generalizing t s with
  | zero => rfl
  | succ fuel ih =>
    rw [runTimed]
    rcases t.next? s.now with _ | ⟨event, now, t'⟩
    · rfl
    · exact run_events_react (ih t') now event s

namespace Timetable

/-- The signals that are seen are the last of those to come. -/
theorem unseen_suffix (now : Nat) (signals : List (Nat × Event)) :
    unseen now signals <:+ signals := by
  fun_induction unseen now signals with
  | case1 x y signals _ ih => exact ih.trans (List.suffix_cons x _)
  | case2 x y signals _ => exact List.suffix_refl _
  | case3 signals _ => exact List.suffix_refl _

theorem unseen_ne_nil (now : Nat) {signals : List (Nat × Event)} (h : signals ≠ []) :
    unseen now signals ≠ [] := by
  fun_induction unseen now signals with
  | case1 x y signals _ ih => exact ih (List.cons_ne_nil _ _)
  | case2 x y signals _ => exact List.cons_ne_nil _ _
  | case3 signals _ => exact h

theorem foldl_max_le_iff {ns : List Nat} {m n : Nat} :
    ns.foldl max m ≤ n ↔ m ≤ n ∧ ∀ k ∈ ns, k ≤ n := by
  induction ns generalizing m with
  | nil => simp
  | cons k ns ih =>
    rw [List.foldl_cons, ih, List.forall_mem_cons, Nat.max_le, and_assoc]

/-- The time of the latest signal. -/
def latest (t : Timetable) : Nat := (t.signals.map (·.1)).foldl max 0

theorem le_latest {t : Timetable} {e : Nat × Event} (h : e ∈ t.signals) : e.1 ≤ t.latest :=
  (foldl_max_le_iff.1 (Nat.le_refl t.latest)).2 e.1 (List.mem_map_of_mem h)

theorem latest_le_latest {t t' : Timetable} (h : t'.signals ⊆ t.signals) :
    t'.latest ≤ t.latest := by
  refine foldl_max_le_iff.2 ⟨Nat.zero_le _, fun time htime => ?_⟩
  obtain ⟨e, he, rfl⟩ := List.mem_map.1 htime
  exact le_latest (h he)

/-- At most so many events are still to come. -/
def left (t : Timetable) : Nat := t.signals.length + (t.latest - t.due)

theorem left_lt_bound (t : Timetable) : t.left < t.bound := by
  unfold left bound latest
  omega

theorem due_lt_dueAfter {t : Timetable} (h : 0 < t.interval) (now : Nat) :
    t.due < t.dueAfter now := by
  unfold dueAfter
  split <;> omega

/-- **What comes next**: a tick, before the first signal that is seen was sent; or that signal, no
later than the next tick. -/
theorem next?_cases {t t' : Timetable} {now time : Nat} {event : Event}
    (h : t.next? now = some (event, time, t')) :
    (event = .tick ∧ time = max t.due now ∧ t' = { t with due := t.dueAfter time } ∧
      ∃ sent signal signals, unseen now t.signals = (sent, signal) :: signals ∧ time < sent) ∨
    ∃ sent signals, unseen now t.signals = (sent, event) :: signals ∧ time = max sent now ∧
      time ≤ max t.due now ∧ t' = { t with signals } := by
  rw [next?] at h
  rcases hunseen : unseen now t.signals with _ | ⟨⟨sent, signal⟩, signals⟩
  · rw [hunseen] at h
    cases h
  · rw [hunseen] at h
    simp only at h
    split at h
    · next htick =>
      cases h
      exact Or.inl ⟨rfl, rfl, rfl, sent, signal, signals, rfl, by omega⟩
    · next htick =>
      cases h
      exact Or.inr ⟨sent, signals, rfl, rfl, by omega, rfl⟩

theorem interval_of_next? {t t' : Timetable} {now time : Nat} {event : Event}
    (h : t.next? now = some (event, time, t')) : t'.interval = t.interval := by
  rcases next?_cases h with ⟨-, -, rfl, -⟩ | ⟨_, _, -, -, -, rfl⟩ <;> rfl

/-- With every event, less is left. -/
theorem left_lt_of_next? {t t' : Timetable} {now time : Nat} {event : Event}
    (hinterval : 0 < t.interval) (h : t.next? now = some (event, time, t')) :
    t'.left < t.left := by
  unfold left
  rcases next?_cases h with
    ⟨-, htime, rfl, sent, signal, signals, hunseen, hsent⟩ | ⟨sent, signals, hunseen, -, -, rfl⟩
  · have hsuffix := unseen_suffix now t.signals
    rw [hunseen] at hsuffix
    have hlatest : sent ≤ t.latest := le_latest (hsuffix.subset List.mem_cons_self)
    have hdue := due_lt_dueAfter hinterval time
    show t.signals.length + (t.latest - t.dueAfter time) < _
    omega
  · have hsuffix := unseen_suffix now t.signals
    rw [hunseen] at hsuffix
    have hlength := hsuffix.length_le
    have hlatest : ({ t with signals } : Timetable).latest ≤ t.latest :=
      latest_le_latest fun e he => hsuffix.subset (List.mem_cons_of_mem _ he)
    rw [List.length_cons] at hlength
    show signals.length + (_ - t.due) < _
    omega

/-- Whether the last signal ends the loop. -/
def Ends (t : Timetable) : Prop := ∃ e, t.signals.getLast? = some e ∧ e.2.stops = true

theorem Ends.next?_ne_none {t : Timetable} (h : t.Ends) (now : Nat) : t.next? now ≠ none := by
  obtain ⟨e, he, -⟩ := h
  have hne : unseen now t.signals ≠ [] := by
    refine unseen_ne_nil now fun hnil => ?_
    rw [hnil] at he
    cases he
  rw [next?]
  rcases hunseen : unseen now t.signals with _ | ⟨⟨sent, signal⟩, signals⟩
  · exact absurd hunseen hne
  · simp only
    split <;> exact Option.some_ne_none _

/-- Until the loop ends, the last signal is still to come. -/
theorem Ends.of_next? {t t' : Timetable} (h : t.Ends) {now time : Nat} {event : Event}
    (hnext : t.next? now = some (event, time, t')) (hstops : event.stops = false) : t'.Ends := by
  obtain ⟨e, he, hends⟩ := h
  rcases next?_cases hnext with ⟨-, -, rfl, -⟩ | ⟨sent, signals, hunseen, -, -, rfl⟩
  · exact ⟨e, he, hends⟩
  · obtain ⟨before, heq⟩ := unseen_suffix now t.signals
    rw [← heq, hunseen, List.getLast?_append_of_ne_nil _ (List.cons_ne_nil _ _), List.getLast?_cons,
      Option.some_inj] at he
    -- the event is not the last signal, as it does not end the loop
    rcases hlast : signals.getLast? with _ | last
    · rw [hlast, Option.getD_none] at he
      rw [← he, hstops] at hends
      cases hends
    · rw [hlast, Option.getD_some] at he
      exact ⟨last, hlast, he ▸ hends⟩

end Timetable

/-- The loop over a timetable whose last signal ends it does not fall asleep before. -/
theorem stopped_runTimed (cycle : Action (Clocked σ) Report) {fuel : Nat} {t : Timetable}
    (hinterval : 0 < t.interval) (hends : t.Ends) (hfuel : t.left < fuel) (s : Clocked σ) :
    (runTimed cycle fuel t s).stopped = true := by
  induction fuel generalizing t s with
  | zero => omega
  | succ fuel ih =>
    rw [runTimed]
    rcases hnext : t.next? s.now with _ | ⟨event, now, t'⟩
    · exact absurd hnext (hends.next?_ne_none s.now)
    · show (react cycle (runTimed cycle fuel t') now event s).stopped = true
      have hleft := Timetable.left_lt_of_next? hinterval hnext
      have hrest : event.stops = false → ∀ s', (runTimed cycle fuel t' s').stopped = true :=
        fun hstops => ih (Timetable.interval_of_next? hnext ▸ hinterval)
          (hends.of_next? hnext hstops) (by omega)
      rcases event.stops_or_tick_or_unset with hstops | rfl | rfl
      · rw [react_of_stops cycle _ now s hstops]
      · rw [react_tick cycle _ now s rfl]
        exact hrest rfl _
      · rw [react_shutdown_false]
        exact hrest rfl _

/-- **A loop whose last signal ends it does end**, whatever its cycles do to the clock. -/
theorem stopped_runForever (cycle : Action (Clocked σ) Report) {interval : Nat}
    (hinterval : 0 < interval) {signals : List (Nat × Event)} {e : Nat × Event}
    (hlast : signals.getLast? = some e) (hstops : e.2.stops = true) (s : Clocked σ) :
    (runForever cycle interval signals s).stopped = true := by
  have hends : Timetable.Ends ⟨s.now, interval, signals⟩ := ⟨e, hlast, hstops⟩
  exact stopped_runTimed cycle hinterval hends (Timetable.left_lt_bound _) s

/-! ## Cycles of a scheduler -/

/-- **Every history of the loop.**  Whatever is delivered to it, it runs one cycle for each tick
that comes before the first event that ends it, at the time of the tick and from the world that the
cycle before left, whether that one failed or not.  It takes in that event and nothing behind it,
and flags that are not set make no difference.  On a clock it is such a loop, and it ends if its
last signal ends it. -/
theorem run_spec (repository : Store.Repository (Clocked σ)) (dispatch : Dispatch (Clocked σ))
    (calendar : Nat → Timestamp) (s : Clocked σ) :
    let cycle := cycleNow repository dispatch calendar
    (∀ history,
      (run cycle history s).Follows cycle history s ∧
      run cycle (run cycle history s).events s = run cycle history s ∧
      (run cycle (history.filter fun e => e.2 ≠ .shutdown false) s).SameWork
        (run cycle history s)) ∧
    ∀ interval signals,
      run cycle (runForever cycle interval signals s).events s =
        runForever cycle interval signals s ∧
      (0 < interval → (∃ e, signals.getLast? = some e ∧ e.2.stops = true) →
        (runForever cycle interval signals s).stopped = true) := by
  intro cycle
  constructor
  · intro history
    exact ⟨follows_run _ history s, run_events_run _ history s, sameWork_run_filter _ history s⟩
  · intro interval signals
    refine ⟨runTimed_eq_run _ _ _ s, ?_⟩
    rintro hinterval ⟨e, hlast, hstops⟩
    exact stopped_runForever _ hinterval hlast hstops s

end Scheduler

namespace Sample

open Scheduler

/-- A store in memory, in a world with a clock. -/
def clockedStore : Store.Repository (Clocked Store.Snapshot) :=
  Store.Repository.inMemory.within Clocked.world fun world s => { s with world }

/-- Nobody answers before the time is 100; from then on all requests succeed. -/
def lateAnswers : Dispatch (Clocked Store.Snapshot) := fun requests s =>
  let answer (r : Evaluation.Request) : Except Error Evaluation.Response :=
    if s.now < 100 then .error (.invocation "no responders")
    else .ok (.of Evaluation.statusOk "ok" r.bundleIds)
  (requests.map fun r => ⟨r.bundleIds, answer r⟩, s)

/-- Ticks before and after the time at which the answers come, with a flag that is not set between
them; then the flag is set, and there are more events behind that. -/
def history : List (Nat × Scheduler.Event) :=
  [(0, .tick), (40, .shutdown false), (100, .tick), (150, .shutdown true), (200, .tick),
    (210, .abandoned)]

end Sample

namespace Scheduler

/-- The first cycle fails and the second stamps both bundles; the third tick comes too late. -/
theorem run_spec_late :
    ∃ c, run (cycleNow Sample.clockedStore Sample.lateAnswers fun _ => Sample.time) Sample.history
        ⟨0, Sample.store⟩ = c ∧
      c.laps.map (·.start.now) = [0, 100] ∧ c.laps.map (·.result.isOk) = [false, true] ∧
      c.world.world.bundles.map (·.lastSuccessSync) = [some Sample.time, some Sample.time] ∧
      c.stopped = true ∧ c.world.now = 150 := by
  obtain ⟨hhistory, -⟩ :=
    run_spec Sample.clockedStore Sample.lateAnswers (fun _ => Sample.time) ⟨0, Sample.store⟩
  obtain ⟨hfollows, -, -⟩ := hhistory Sample.history
  refine ⟨_, rfl, hfollows.times, ?_, ?_, hfollows.stopped_iff.2 ?_, hfollows.stops_at 150 _ _ rfl⟩
  · decide +kernel
  · decide +kernel
  · exact ⟨(150, .shutdown true), by decide, rfl⟩

end Scheduler

end Firewall
