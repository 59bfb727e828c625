/-
# Requests in flight

Requests are sent in order, but only so many are under way at once; the next is sent the moment that
one is answered.  The answers arrive in the order of the times at which they are ready.

* `Scheduler.Timed` : an invoker that tells how long its answers take;
* `Scheduler.launch` : when each request is sent and answered;
* `Scheduler.Dispatch.inFlight` : the dispatch that this makes.
-/
import Firewall.Scheduler.Cycle
import Firewall.Scheduler.Loop

namespace Firewall

namespace Scheduler

open Evaluation

/-- An invoker over a world with a clock that gives, for each request, the answer and the time that
it takes. -/
abbrev Timed (σ : Type) := Request → StateM (Clocked σ) (Except Error Response × Nat)

variable {σ : Type}

/-- The least of some times; `now` if there is none. -/
def earliest (now : Nat) : List Nat → Nat
  | [] => now
  | t :: ts => ts.foldl min t

/-- The outcomes of requests with the times at which they are ready.  `busy` holds the times at which
the requests under way will be answered; the clock ends at the last of all. -/
def launch (limit : Nat) (invoke : Timed σ) :
    List Request → List Nat → StateM (Clocked σ) (List (Nat × Outcome))
  | [], busy => fun s => ([], { s with now := busy.foldl max s.now })
  | request :: requests, busy => fun s =>
    let now := if busy.length < limit then s.now else max s.now (earliest s.now busy)
    let ((answer, time), s') := invoke request { s with now }
    let ready := now + time
    let busy := (ready :: busy).filter fun t => now < t
    let (rest, s'') := launch limit invoke requests busy { s' with now }
    ((ready, ⟨request.bundleIds, answer⟩) :: rest, s'')

/-- An outcome in front of the first that is ready later. -/
def insertByTime (x : Nat × Outcome) : List (Nat × Outcome) → List (Nat × Outcome)
  | [] => [x]
  | y :: ys => if y.1 < x.1 then y :: insertByTime x ys else x :: y :: ys

/-- Outcomes in the order in which they are ready. -/
def inOrderOfArrival (outcomes : List (Nat × Outcome)) : List Outcome :=
  (outcomes.foldr insertByTime []).map (·.2)

/-- At most `limit` requests at once, and never less than one. -/
def Dispatch.inFlight (limit : Nat) (invoke : Timed σ) : Dispatch (Clocked σ) := fun requests s =>
  let (outcomes, s') := launch (max limit 1) invoke requests [] s
  (inOrderOfArrival outcomes, s')

end Scheduler

end Firewall
