/-
# The scheduling loop

The loop runs a cycle at every tick, until it is told to stop or nobody is left who could tell it.
It looks at signals between cycles only, and goes on after a cycle that fails.

* `Scheduler.Event` : what the loop reacts to;
* `Scheduler.Course` : what the loop did;
* `Scheduler.run` : the loop over events as they are delivered;
* `Scheduler.Timetable` : ticks and signals on a clock, which make up such events;
* `Scheduler.cycleNow` : a cycle by the clock.
-/
import Firewall.Scheduler.Cycle

namespace Firewall

namespace Scheduler

/-! ## Events -/

/-- What the loop reacts to. -/
inductive Event
  /-- It is time for a cycle. -/
  | tick
  /-- The shutdown flag was set. -/
  | shutdown (flag : Bool)
  /-- Nobody can set the shutdown flag any more. -/
  | abandoned
  deriving DecidableEq, Repr

/-- Whether an event ends the loop. -/
def Event.stops : Event → Bool
  | tick => false
  | shutdown flag => flag
  | abandoned => true

/-! ## Courses -/

/-- A world with a clock. -/
structure Clocked (σ : Type) where
  now : Nat
  world : σ

/-- A lap of the loop: a cycle that it ran. -/
structure Lap (σ : Type) where
  /-- The world when the tick came. -/
  start : Clocked σ
  /-- What the cycle reported.  The loop does not act upon it. -/
  result : Except Error Report
  /-- The world that the cycle left. -/
  finish : Clocked σ

/-- What the loop did. -/
structure Course (σ : Type) where
  /-- The events that it took in, each with its time. -/
  events : List (Nat × Event)
  laps : List (Lap σ)
  /-- The world at the end. -/
  world : Clocked σ
  /-- Whether an event ended the loop.  If none did, it waits for more. -/
  stopped : Bool

variable {σ : Type}

/-- The loop at an event that is delivered at a time.  What it does from then on is `rest`, unless
the event ends it; whether a cycle fails makes no difference. -/
def react (cycle : Action (Clocked σ) Report) (rest : Clocked σ → Course σ) (now : Nat)
    (event : Event) (s : Clocked σ) : Course σ :=
  let s := { s with now }
  if event.stops then ⟨[(now, event)], [], s, true⟩
  else
    match event with
    | .tick =>
      let (result, s') := cycle.perform s
      let c := rest s'
      ⟨(now, event) :: c.events, ⟨s, result, s'⟩ :: c.laps, c.world, c.stopped⟩
    | _ =>
      let c := rest s
      ⟨(now, event) :: c.events, c.laps, c.world, c.stopped⟩

/-- The loop over the events that are delivered to it, each with its time.  Several changes of the
flag between two looks at it are one event, with the last value. -/
def run (cycle : Action (Clocked σ) Report) : List (Nat × Event) → Clocked σ → Course σ
  | [], s => ⟨[], [], s, false⟩
  | (now, event) :: events, s => react cycle (run cycle events) now event s

/-! ## Timetables -/

/-- The loop's view of the clock, in milliseconds. -/
structure Timetable where
  /-- When the next tick is due. -/
  due : Nat
  /-- The time between ticks. -/
  interval : Nat
  /-- The signals to come, each with its time. -/
  signals : List (Nat × Event)

namespace Timetable

/-- How late a tick may be without moving those after it. -/
def tolerance : Nat := 5

/-- When the tick after one that was due at `due` and came at `now` is due: ticks that come too late
move those after them. -/
def dueAfter (t : Timetable) (now : Nat) : Nat :=
  if t.due + tolerance < now then now + t.interval else t.due + t.interval

/-- Whether the second of two signals takes the place of the first before anyone looks: both set the
flag, and the second is over by the time at which the first is looked at. -/
def overtakes (now : Nat) : Nat × Event → Nat × Event → Bool
  | (time, .shutdown _), (time', .shutdown _) => time' ≤ max time now
  | _, _ => false

/-- The signals from the next one on that is seen after `now`.  Of several changes of the flag since
the last look, only the last is seen. -/
def unseen (now : Nat) : List (Nat × Event) → List (Nat × Event)
  | x :: y :: signals =>
    if overtakes now x y then unseen now (y :: signals) else x :: y :: signals
  | signals => signals

/-- What comes next after `now`, when it comes, and the timetable from then on.  Nothing comes once
all signals are over. -/
def next? (t : Timetable) (now : Nat) : Option (Event × Nat × Timetable) :=
  match unseen now t.signals with
  | [] => none
  | (time, signal) :: signals =>
    let time := max time now
    let tick := max t.due now
    if tick < time then some (.tick, tick, { t with due := t.dueAfter tick })
    else some (signal, time, { t with signals })

/-- At most so many events can come from a timetable. -/
def bound (t : Timetable) : Nat :=
  t.signals.length + (t.signals.map (·.1)).foldl max 0 + 1

end Timetable

/-- The loop over at most `fuel` events of a timetable. -/
def runTimed (cycle : Action (Clocked σ) Report) : Nat → Timetable → Clocked σ → Course σ
  | 0, _, s => ⟨[], [], s, false⟩
  | fuel + 1, t, s =>
    match t.next? s.now with
    | none => ⟨[], [], s, false⟩
    | some (event, now, t') => react cycle (runTimed cycle fuel t') now event s

/-- The loop on a clock, with the first tick at once. -/
def runForever (cycle : Action (Clocked σ) Report) (interval : Nat) (signals : List (Nat × Event))
    (s : Clocked σ) : Course σ :=
  let t : Timetable := ⟨s.now, interval, signals⟩
  runTimed cycle t.bound t s

/-- A cycle at the time that the clock shows. -/
def cycleNow (repository : Store.Repository (Clocked σ)) (dispatch : Dispatch (Clocked σ))
    (calendar : Nat → Timestamp) : Action (Clocked σ) Report :=
  Action.ofFun fun s => (cycle repository dispatch (calendar s.now)).perform s

/-! ## What events do -/

section React

variable (cycle : Action (Clocked σ) Report) (rest : Clocked σ → Course σ) (now : Nat)
  (s : Clocked σ)

/-- Nothing happens after an event that ends the loop. -/
theorem react_of_stops {event : Event} (h : event.stops = true) :
    react cycle rest now event s = ⟨[(now, event)], [], { s with now }, true⟩ := by
  simp [react, h]

/-- A flag that is not set changes nothing. -/
theorem react_shutdown_false :
    react cycle rest now (.shutdown false) s =
      ⟨(now, .shutdown false) :: (rest { s with now }).events, (rest { s with now }).laps,
        (rest { s with now }).world, (rest { s with now }).stopped⟩ := by
  simp [react, Event.stops]

/-- A tick runs one cycle. -/
theorem react_tick {result : Except Error Report} {s' : Clocked σ}
    (h : cycle.perform { s with now } = (result, s')) :
    react cycle rest now .tick s =
      ⟨(now, .tick) :: (rest s').events, ⟨{ s with now }, result, s'⟩ :: (rest s').laps,
        (rest s').world, (rest s').stopped⟩ := by
  simp [react, Event.stops, h]

end React

end Scheduler

end Firewall
