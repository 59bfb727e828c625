/-
# The loop on a clock

On a clock, what the loop takes in is what the timetable says: the ticks that are due, and the signals
that are sent.  A cycle starts when its tick is due, or once the loop is free, and the loop is not
over before a tick that is due.  A signal is taken in when it is sent, or once the loop is free; only
a change of the flag may be passed over, if another one comes before the loop looks.  No cycle starts
while a signal waits.

* `Scheduler.Timetable.Drives`, `drives_runTimed` : the loop, event by event;
* `Scheduler.Timetable.OnTime`, `Drives.onTime` : when cycles start;
* `Scheduler.Seen`, `Timetable.Drives.seen` : which signals are taken in, and when;
* `Scheduler.Timetable.Drives.waits` : no cycle starts while a signal waits;
* `Scheduler.Course.KeepsTime`, `keepsTime_runForever` : the loop keeps its timetable.
-/
import Firewall.Proofs.Scheduler.Courses

namespace Firewall

namespace Scheduler

variable {σ : Type}

/-! ## Timetables -/

namespace Timetable

/-- Ticks are apart, and the signals are no ticks and are told in order. -/
structure Proper (t : Timetable) : Prop where
  interval : 0 < t.interval
  signal : ∀ e ∈ t.signals, e.2 ≠ .tick
  ordered : t.signals.Pairwise fun e e' => e.1 ≤ e'.1

theorem overtakes_iff {now : Nat} {e e' : Nat × Event} :
    overtakes now e e' = true ↔
      ∃ flag flag', e.2 = .shutdown flag ∧ e'.2 = .shutdown flag' ∧ e'.1 ≤ max e.1 now := by
  obtain ⟨sent, event⟩ := e
  obtain ⟨sent', event'⟩ := e'
  cases event <;> cases event' <;> simp [overtakes]

/-- What is overtaken stays so. -/
theorem overtakes_mono {now now' : Nat} (h : now ≤ now') {e e' : Nat × Event}
    (ho : overtakes now e e' = true) : overtakes now' e e' = true := by
  obtain ⟨flag, flag', he, he', htime⟩ := overtakes_iff.1 ho
  exact overtakes_iff.2 ⟨flag, flag', he, he', by omega⟩

/-- Looking again later is looking later. -/
theorem unseen_unseen {now now' : Nat} (h : now ≤ now') (signals : List (Nat × Event)) :
    unseen now' (unseen now signals) = unseen now' signals := by
  fun_induction unseen now signals with
  | case1 x y signals ho ih =>
    rw [ih]
    exact (if_pos (overtakes_mono h ho)).symm
  | case2 x y signals _ => rfl
  | case3 signals _ => rfl

/-- What is seen later was to be seen before. -/
theorem unseen_subset {now now' : Nat} (h : now ≤ now') (signals : List (Nat × Event)) :
    unseen now' signals ⊆ unseen now signals := by
  rw [← unseen_unseen h]
  exact (unseen_suffix now' _).subset

theorem unseen_eq_nil_of_next? {t : Timetable} {now : Nat} (h : t.next? now = none) :
    unseen now t.signals = [] := by
  rw [next?] at h
  rcases hunseen : unseen now t.signals with _ | ⟨⟨sent, signal⟩, signals⟩
  · rfl
  · rw [hunseen] at h
    simp only at h
    split at h <;> cases h

section Proper

variable {t : Timetable} {now : Nat} {e : Nat × Event} {signals : List (Nat × Event)}

theorem Proper.of_due (ht : t.Proper) (due : Nat) : ({ t with due } : Timetable).Proper :=
  ⟨ht.interval, ht.signal, ht.ordered⟩

theorem Proper.of_unseen (ht : t.Proper) (h : unseen now t.signals = e :: signals) :
    ({ t with signals } : Timetable).Proper := by
  have hsuffix : signals <:+ t.signals :=
    (List.suffix_cons e signals).trans (h ▸ unseen_suffix now t.signals)
  exact ⟨ht.interval, fun e he => ht.signal e (hsuffix.subset he),
    ht.ordered.sublist hsuffix.sublist⟩

/-- A signal that is taken in is no tick. -/
theorem Proper.ne_tick (ht : t.Proper) (h : unseen now t.signals = e :: signals) : e.2 ≠ .tick :=
  ht.signal e ((unseen_suffix now t.signals).subset (h ▸ List.mem_cons_self))

/-- All signals that wait were sent after the first of them. -/
theorem Proper.le_of_mem_unseen (ht : t.Proper) (h : unseen now t.signals = e :: signals)
    {e' : Nat × Event} (he' : e' ∈ e :: signals) : e.1 ≤ e'.1 := by
  have hordered := ht.ordered.sublist (unseen_suffix now t.signals).sublist
  rw [h] at hordered
  rcases List.mem_cons.1 he' with rfl | he'
  · exact Nat.le_refl _
  · exact List.rel_of_pairwise_cons hordered he'

end Proper

/-! ## The loop, event by event -/

/-- What a loop does with the ticks and signals of a timetable. -/
inductive Drives (cycle : Action (Clocked σ) Report) : Timetable → Clocked σ → Course σ → Prop
  /-- No signal is left, and the loop waits for more. -/
  | asleep {t : Timetable} {s : Clocked σ} (hunseen : unseen s.now t.signals = []) :
      Drives cycle t s ⟨[], [], s, false⟩
  /-- A tick is due, or was, before the next signal was sent. -/
  | tick {t : Timetable} {s s' : Clocked σ} {now sent : Nat} {signal : Event}
      {signals : List (Nat × Event)} {result : Except Error Report} {c : Course σ}
      (hnow : now = max t.due s.now)
      (hunseen : unseen s.now t.signals = (sent, signal) :: signals) (hsent : now < sent)
      (hcycle : cycle.perform { s with now } = (result, s'))
      (hrest : Drives cycle { t with due := t.dueAfter now } s' c) :
      Drives cycle t s ⟨(now, .tick) :: c.events, ⟨{ s with now }, result, s'⟩ :: c.laps, c.world,
        c.stopped⟩
  /-- The next signal ends the loop. -/
  | stop {t : Timetable} {s : Clocked σ} {now sent : Nat} {signal : Event}
      {signals : List (Nat × Event)} (hnow : now = max sent s.now)
      (hunseen : unseen s.now t.signals = (sent, signal) :: signals) (hdue : now ≤ max t.due s.now)
      (hstops : signal.stops = true) :
      Drives cycle t s ⟨[(now, signal)], [], { s with now }, true⟩
  /-- The next signal is a flag that is not set. -/
  | look {t : Timetable} {s : Clocked σ} {now sent : Nat} {signals : List (Nat × Event)}
      {c : Course σ} (hnow : now = max sent s.now)
      (hunseen : unseen s.now t.signals = (sent, .shutdown false) :: signals)
      (hdue : now ≤ max t.due s.now) (hrest : Drives cycle { t with signals } { s with now } c) :
      Drives cycle t s ⟨(now, .shutdown false) :: c.events, c.laps, c.world, c.stopped⟩

/-- **The loop on a clock is driven by its timetable.** -/
theorem drives_runTimed (cycle : Action (Clocked σ) Report) {fuel : Nat} {t : Timetable}
    (ht : t.Proper) (hfuel : t.left < fuel) (s : Clocked σ) :
    t.Drives cycle s (runTimed cycle fuel t s) := by
  induction fuel generalizing t s with
  | zero => omega
  | succ fuel ih =>
    rw [runTimed]
    rcases hnext : t.next? s.now with _ | ⟨event, time, t'⟩
    · exact .asleep (unseen_eq_nil_of_next? hnext)
    · have hleft := left_lt_of_next? ht.interval hnext
      simp only
      rcases next?_cases hnext with
        ⟨rfl, htime, rfl, sent, signal, signals, hunseen, hsent⟩ |
        ⟨sent, signals, hunseen, htime, hdue, rfl⟩
      · rw [react_tick cycle _ time s rfl]
        exact .tick htime hunseen hsent rfl (ih (ht.of_due _) (by omega) _)
      · rcases event.stops_or_tick_or_unset with hstops | rfl | rfl
        · rw [react_of_stops cycle _ time s hstops]
          exact .stop htime hunseen hdue hstops
        · exact absurd rfl (ht.ne_tick hunseen)
        · rw [react_shutdown_false]
          exact .look htime hunseen hdue (ih (ht.of_unseen hunseen) (by omega) _)

/-! ## Ticks -/

/-- Cycles of a loop that is over at `stop` and was free at some time.  Each starts when its tick is
due, or once the loop is free; and no tick is left that was due before the loop was over. -/
def OnTime (stop : Nat) : Timetable → Nat → List (Lap σ) → Prop
  | t, free, [] => stop ≤ max t.due free
  | t, free, lap :: laps =>
    lap.start.now = max t.due free ∧
      OnTime stop { t with due := t.dueAfter lap.start.now } lap.finish.now laps

/-- Ticks do not go by the signals. -/
theorem OnTime.of_signals {stop free : Nat} {t : Timetable} {signals : List (Nat × Event)}
    {laps : List (Lap σ)} (h : OnTime stop { t with signals } free laps) :
    t.OnTime stop free laps := by
  induction laps generalizing t free with
  | nil => exact h
  | cons lap laps ih => exact ⟨h.1, ih h.2⟩

/-- A look at the clock before the next tick is due makes no difference. -/
theorem OnTime.of_look {stop free look : Nat} {t : Timetable} {laps : List (Lap σ)}
    (hfree : free ≤ look) (hlook : look ≤ max t.due free) (h : t.OnTime stop look laps) :
    t.OnTime stop free laps := by
  have hsame : max t.due look = max t.due free := by omega
  cases laps with
  | nil => exact Nat.le_trans h (Nat.le_of_eq hsame)
  | cons lap laps => exact ⟨h.1.trans hsame, h.2⟩

end Timetable

open Timetable

/-- **Cycles start on time.** -/
theorem Timetable.Drives.onTime {cycle : Action (Clocked σ) Report} {t : Timetable} {s : Clocked σ}
    {c : Course σ} (h : t.Drives cycle s c) : t.OnTime c.world.now s.now c.laps := by
  induction h with
  | asleep => exact Nat.le_max_right _ _
  | tick hnow _ _ _ _ ih => exact ⟨hnow, ih⟩
  | stop _ _ hdue _ => exact hdue
  | look hnow _ hdue _ ih => exact OnTime.of_look (by omega) hdue (OnTime.of_signals ih)

/-! ## Signals -/

/-- The signals among some events. -/
def signalsOf (events : List (Nat × Event)) : List (Nat × Event) :=
  events.filter fun e => e.2 ≠ .tick

theorem signalsOf_cons_tick (time : Nat) (events : List (Nat × Event)) :
    signalsOf ((time, .tick) :: events) = signalsOf events := by
  simp [signalsOf]

theorem signalsOf_cons_of_ne {event : Event} (h : event ≠ .tick) (time : Nat)
    (events : List (Nat × Event)) :
    signalsOf ((time, event) :: events) = (time, event) :: signalsOf events := by
  simp [signalsOf, h]

/-- The signals that are sent, those that a loop takes in, and those that are left in the end.  Between
some times the loop is busy and does not look. -/
inductive Seen (busy : Nat → Nat → Prop) :
    List (Nat × Event) → List (Nat × Event) → List (Nat × Event) → Prop
  | left (signals : List (Nat × Event)) : Seen busy signals [] signals
  /-- A change of the flag is passed over if another one comes before the loop looks. -/
  | overtaken {sent sent' : Nat} {flag flag' : Bool} {signals events rest : List (Nat × Event)}
      (h : sent' ≤ sent ∨ busy sent sent')
      (hseen : Seen busy ((sent', .shutdown flag') :: signals) events rest) :
      Seen busy ((sent, .shutdown flag) :: (sent', .shutdown flag') :: signals) events rest
  /-- Any other signal is taken in when it is sent, or once the loop is free. -/
  | taken {sent time : Nat} {event : Event} {signals events rest : List (Nat × Event)}
      (h : time = sent ∨ sent < time ∧ busy sent time) (hseen : Seen busy signals events rest) :
      Seen busy ((sent, event) :: signals) ((time, event) :: events) rest

/-- The loop does not look from when a signal comes until some time, for each of these signals. -/
def BusyUntil (busy : Nat → Nat → Prop) (signals : List (Nat × Event)) (now : Nat) : Prop :=
  ∀ e ∈ signals, ∀ time, e.1 < time → time ≤ now → busy e.1 time

/-- The loop is busy for the signals that wait if they were sent during its cycle. -/
theorem BusyUntil.of_cycle {busy : Nat → Nat → Prop} {t : Timetable} (ht : t.Proper)
    {now start finish : Nat} {e : Nat × Event} {signals : List (Nat × Event)}
    (h : unseen now t.signals = e :: signals) (hstart : start < e.1)
    (hbusy : ∀ sent time, start < sent → time ≤ finish → busy sent time) :
    BusyUntil busy (unseen now t.signals) finish := by
  intro e' he' time _ hfinish
  have hfirst := ht.le_of_mem_unseen h (h ▸ he')
  exact hbusy e'.1 time (Nat.lt_of_lt_of_le hstart hfirst) hfinish

/-- A signal that is taken in as soon as the loop looks was sent then, or while the loop was busy. -/
theorem BusyUntil.taken {busy : Nat → Nat → Prop} {now look : Nat} {e : Nat × Event}
    {signals : List (Nat × Event)} (hbusy : BusyUntil busy (e :: signals) now)
    (hlook : look = max e.1 now) : look = e.1 ∨ e.1 < look ∧ busy e.1 look := by
  rcases Nat.lt_or_ge e.1 now with hlt | hle
  · have hnow : look = now := by omega
    rw [hnow]
    exact Or.inr ⟨hlt, hbusy _ List.mem_cons_self now hlt (Nat.le_refl _)⟩
  · exact Or.inl (by omega)

/-- When a signal is taken in, a later one waits only if this one had to wait. -/
theorem BusyUntil.of_look {busy : Nat → Nat → Prop} {now look : Nat} {e : Nat × Event}
    {signals : List (Nat × Event)} (hbusy : BusyUntil busy (e :: signals) now)
    (hordered : ∀ e' ∈ signals, e.1 ≤ e'.1) (hlook : look = max e.1 now) :
    BusyUntil busy signals look := by
  intro e' he' time hlt htime
  have hfirst := hordered e' he'
  exact hbusy e' (List.mem_cons_of_mem _ he') time hlt (by omega)

/-- What is not seen was overtaken while the loop was busy. -/
theorem Seen.of_unseen {busy : Nat → Nat → Prop} {now : Nat}
    {signals events rest : List (Nat × Event)} (hbusy : BusyUntil busy signals now)
    (h : Seen busy (unseen now signals) events rest) : Seen busy signals events rest := by
  fun_induction unseen now signals with
  | case1 x y signals ho ih =>
    obtain ⟨sent, event⟩ := x
    obtain ⟨sent', event'⟩ := y
    obtain ⟨flag, flag', rfl, rfl, htime⟩ := overtakes_iff.1 ho
    refine .overtaken ?_ (ih (fun e he => hbusy e (List.mem_cons_of_mem _ he)) h)
    rcases Nat.lt_or_ge sent sent' with hlt | hle
    · exact Or.inr (hbusy _ List.mem_cons_self sent' hlt (by simp only at htime; omega))
    · exact Or.inl hle
  | case2 x y signals _ => exact h
  | case3 signals _ => exact h

section Signals

variable {cycle : Action (Clocked σ) Report} (hclock : ∀ s, s.now ≤ (cycle.perform s).2.now)
  {t : Timetable} {s : Clocked σ} {c : Course σ}
include hclock

theorem le_now_of_perform {start finish : Clocked σ} {result : Except Error Report}
    (h : cycle.perform start = (result, finish)) : start.now ≤ finish.now := by
  have hstart := hclock start
  rwa [h] at hstart

/-- **Signals are taken in when they are sent, or once the loop is free**, and none is left unless one
of them ended the loop. -/
theorem Timetable.Drives.seen (h : t.Drives cycle s c) (ht : t.Proper) {busy : Nat → Nat → Prop}
    (hbusy : BusyUntil busy (unseen s.now t.signals) s.now)
    (hlaps : ∀ lap ∈ c.laps, ∀ sent time,
      lap.start.now < sent → time ≤ lap.finish.now → busy sent time) :
    ∃ rest, Seen busy (unseen s.now t.signals) (signalsOf c.events) rest ∧
      (c.stopped = false → rest = []) := by
  induction h with
  | asleep hunseen =>
    rw [hunseen]
    exact ⟨[], .left [], fun _ => rfl⟩
  | @tick t s s' now sent signal signals result c hnow hunseen hsent hcycle hrest ih =>
    -- the signals that wait were sent during the cycle that starts now
    have hwaiting : BusyUntil busy (unseen s.now t.signals) s'.now :=
      .of_cycle ht hunseen hsent (hlaps _ List.mem_cons_self)
    have hlater : s.now ≤ s'.now := by
      have hstart : now ≤ s'.now := le_now_of_perform hclock hcycle
      omega
    obtain ⟨rest, hseen, hleft⟩ := ih (ht.of_due _)
      (fun e he => hwaiting e (unseen_subset hlater t.signals he))
      (fun lap hlap => hlaps lap (List.mem_cons_of_mem _ hlap))
    rw [signalsOf_cons_tick]
    refine ⟨rest, Seen.of_unseen hwaiting ?_, hleft⟩
    rwa [unseen_unseen hlater]
  | @stop t s now sent signal signals hnow hunseen hdue hstops =>
    rw [hunseen] at hbusy ⊢
    rw [signalsOf_cons_of_ne (ht.ne_tick hunseen)]
    exact ⟨signals, .taken (hbusy.taken hnow) (.left signals), fun h => by cases h⟩
  | @look t s now sent signals c hnow hunseen hdue hrest ih =>
    have hlater : BusyUntil busy signals now := (hunseen ▸ hbusy).of_look
      (fun e he => ht.le_of_mem_unseen hunseen (List.mem_cons_of_mem _ he)) hnow
    obtain ⟨rest, hseen, hleft⟩ := ih (ht.of_unseen hunseen)
      (fun e he => hlater e ((unseen_suffix now signals).subset he)) hlaps
    rw [hunseen] at hbusy ⊢
    rw [signalsOf_cons_of_ne (ht.ne_tick hunseen)]
    exact ⟨rest, .taken (hbusy.taken hnow) (Seen.of_unseen hlater hseen), hleft⟩

/-- **No cycle starts while a signal waits**: all ticks before a signal came before it was sent. -/
theorem Timetable.Drives.waits (h : t.Drives cycle s c) (ht : t.Proper)
    {before after : List (Nat × Event)} {time : Nat} {event : Event}
    (hevents : c.events = before ++ (time, event) :: after) (hsignal : event ≠ .tick) :
    ∃ sent, (sent, event) ∈ unseen s.now t.signals ∧ sent ≤ time ∧
      ∀ tick ∈ tickTimes before, tick < sent := by
  induction h generalizing before with
  | asleep => cases before <;> cases hevents
  | @tick t s s' now first signal signals result c hnow hunseen hfirst hcycle hrest ih =>
    rcases before with _ | ⟨e, before⟩
    · cases hevents
      exact absurd rfl hsignal
    · obtain ⟨rfl, htail⟩ := List.cons.inj hevents
      obtain ⟨sent, hmem, hsent, hticks⟩ := ih (ht.of_due _) htail
      have hlater : s.now ≤ s'.now := by
        have hstart : now ≤ s'.now := le_now_of_perform hclock hcycle
        omega
      have hmem' := unseen_subset hlater t.signals hmem
      have hle := ht.le_of_mem_unseen hunseen (hunseen ▸ hmem')
      refine ⟨sent, hmem', hsent, ?_⟩
      rw [tickTimes_cons_tick]
      exact List.forall_mem_cons.2 ⟨Nat.lt_of_lt_of_le hfirst hle, hticks⟩
  | @stop t s now sent signal signals hnow hunseen hdue hstops =>
    rw [hunseen]
    rcases before with _ | ⟨e, before⟩
    · cases hevents
      exact ⟨sent, List.mem_cons_self, by omega, fun tick htick => by cases htick⟩
    · cases before <;> cases (List.cons.inj hevents).2
  | @look t s now sent signals c hnow hunseen hdue hrest ih =>
    rw [hunseen]
    rcases before with _ | ⟨e, before⟩
    · cases hevents
      exact ⟨sent, List.mem_cons_self, by omega, fun tick htick => by cases htick⟩
    · obtain ⟨rfl, htail⟩ := List.cons.inj hevents
      obtain ⟨sent', hmem, hsent, hticks⟩ := ih (ht.of_unseen hunseen) htail
      rw [tickTimes_cons_of_ne (ht.ne_tick hunseen)]
      exact ⟨sent', List.mem_cons_of_mem _ ((unseen_suffix now signals).subset hmem), hsent, hticks⟩

end Signals

/-! ## Loops that keep their timetable -/

/-- The loop does not look between two times: it has not begun, or is in a cycle. -/
def Course.Busy (c : Course σ) (start sent time : Nat) : Prop :=
  time ≤ start ∨ ∃ lap ∈ c.laps, lap.start.now < sent ∧ time ≤ lap.finish.now

/-- What a loop does that begins at some time, with the ticks and signals of a timetable. -/
structure Course.KeepsTime (c : Course σ) (t : Timetable) (start : Nat) : Prop where
  /-- A cycle starts when its tick is due, or once the loop is free. -/
  ticks : t.OnTime c.world.now start c.laps
  /-- A signal is taken in when it is sent, or once the loop is free, except for changes of the flag
  that are overtaken.  None is left unless one ended the loop. -/
  signals : ∃ rest, Seen (c.Busy start) t.signals (signalsOf c.events) rest ∧
    (c.stopped = false → rest = [])
  /-- No cycle starts while a signal waits. -/
  waits : ∀ before time event after, c.events = before ++ (time, event) :: after →
    event ≠ .tick → ∃ sent, (sent, event) ∈ t.signals ∧ sent ≤ time ∧
      ∀ tick ∈ tickTimes before, tick < sent

/-- **The loop keeps its timetable**, whatever its cycles come to, if they do not turn back the
clock. -/
theorem keepsTime_runForever {cycle : Action (Clocked σ) Report}
    (hclock : ∀ s, s.now ≤ (cycle.perform s).2.now) {interval : Nat} (hinterval : 0 < interval)
    {signals : List (Nat × Event)} (hsignals : ∀ e ∈ signals, e.2 ≠ .tick)
    (hordered : signals.Pairwise fun e e' => e.1 ≤ e'.1) (s : Clocked σ) :
    (runForever cycle interval signals s).KeepsTime ⟨s.now, interval, signals⟩ s.now := by
  have ht : Timetable.Proper ⟨s.now, interval, signals⟩ := ⟨hinterval, hsignals, hordered⟩
  have hdrives := drives_runTimed cycle ht (left_lt_bound _) s
  have hbefore : ∀ sent : List (Nat × Event),
      BusyUntil ((runForever cycle interval signals s).Busy s.now) sent s.now :=
    fun _ _ _ _ _ htime => Or.inl htime
  refine ⟨hdrives.onTime, ?_, ?_⟩
  · obtain ⟨rest, hseen, hrest⟩ := hdrives.seen hclock ht (hbefore _)
      fun lap hlap sent time hsent htime => Or.inr ⟨lap, hlap, hsent, htime⟩
    exact ⟨rest, Seen.of_unseen (hbefore _) hseen, hrest⟩
  · intro before time event after h hsignal
    obtain ⟨sent, hmem, hsent, hticks⟩ := hdrives.waits hclock ht h hsignal
    exact ⟨sent, (unseen_suffix _ _).subset hmem, hsent, hticks⟩

/-- Cycles of 70 ms and ticks that are due every 50 ms.  The flag changes twice during the first cycle,
and only the second change is seen, when that cycle is over. -/
example :
    (runForever (Action.ofFun fun s => (.ok ⟨0, [], []⟩, { s with now := s.now + 70 })) 50
      [(10, .shutdown true), (20, .shutdown false), (160, .shutdown true)] ⟨0, ()⟩).events =
    [(0, .tick), (70, .shutdown false), (70, .tick), (140, .tick), (210, .shutdown true)] := by
  decide +kernel

end Scheduler

end Firewall
