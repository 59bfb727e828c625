/-
# Cycles

A cycle brings all bundles up to date: it lists them, asks for one evaluation for each rule group,
and goes by the answers.  Bundles that succeeded are stamped with the time of the cycle; the others
are named in the failure.  A group that fails does not undo what the others did.

* `Scheduler.Outcome` : the answer for a rule group;
* `Scheduler.Outcome.succeeded`, `failed` : the ids that an answer speaks for;
* `Scheduler.settle` : going by the answers;
* `Scheduler.cycle` : a whole cycle.
-/
import Firewall.Evaluation.Evaluator
import Firewall.Scheduler.SortedIds

namespace Firewall

namespace Scheduler

open Evaluation

/-! ## Outcomes -/

/-- The answer for a rule group, together with the ids that were asked for. -/
structure Outcome where
  bundleIds : List String
  answer : Except Error Response

namespace Outcome

/-- The ids that succeeded: those named in the body of a success. -/
def succeeded (o : Outcome) : List String :=
  match o.answer with
  | .error _ => []
  | .ok response =>
    if response.isSuccess then
      match response.body? with
      | some body => body.bundleIds
      | none => []
    else []

/-- The ids that failed: those named in the body of a failure, and those asked for if there is no
such body or no answer. -/
def failed (o : Outcome) : List String :=
  match o.answer with
  | .error _ => o.bundleIds
  | .ok response =>
    match response.isSuccess, response.body? with
    | true, some _ => []
    | true, none => o.bundleIds
    | false, some body => if body.bundleIds = [] then o.bundleIds else body.bundleIds
    | false, none => o.bundleIds

end Outcome

/-! ## Settling -/

/-- What a cycle without failures reports. -/
structure Report where
  dispatchedGroups : Nat
  /-- The bundles brought up to date, in increasing order of their ids. -/
  succeeded : List String
  /-- The bundles that failed, in increasing order of their ids. -/
  failed : List String
  deriving DecidableEq, Repr

variable {σ : Type}

/-- Stamping bundles one after the other; gives the ids whose stamp could not be written. -/
def stampAll (repository : Store.Repository σ) (time : Timestamp) :
    List String → StateM σ (List String)
  | [] => pure []
  | id :: ids => do
    match ← (repository.stamp id time).attempt with
    | .ok () => stampAll repository time ids
    | .error _ => do
      let refused ← stampAll repository time ids
      pure (id :: refused)

/-- The ids to stamp: those that succeeded and did not fail too. -/
def toStamp (outcomes : List Outcome) : List String :=
  let failed := outcomes.flatMap Outcome.failed
  (sortedIds (outcomes.flatMap Outcome.succeeded)).filter fun id => !failed.contains id

/-- The report for outcomes, given the ids whose stamp could not be written. -/
def reportOf (dispatched : Nat) (outcomes : List Outcome) (refused : List String) : Report where
  dispatchedGroups := dispatched
  succeeded :=
    (sortedIds (outcomes.flatMap Outcome.succeeded)).filter fun id => !refused.contains id
  failed := sortedIds (outcomes.flatMap Outcome.failed ++ refused)

/-- The result of a cycle: its report, or the ids that failed if there are any. -/
def resultOf (report : Report) : Except Error Report :=
  if report.failed = [] then .ok report else .error (.evaluationFailed report.failed)

/-- Going by the outcomes: stamping, and then the result. -/
def settle (repository : Store.Repository σ) (time : Timestamp) (dispatched : Nat)
    (outcomes : List Outcome) : Action σ Report :=
  Action.ofFun fun s =>
    let (refused, s') := stampAll repository time (toStamp outcomes) s
    (resultOf (reportOf dispatched outcomes refused), s')

/-! ## Cycles -/

/-- A way to have several requests answered: the outcomes, in the order in which they arrive. -/
abbrev Dispatch (σ : Type) := List Request → StateM σ (List Outcome)

/-- One request after the other. -/
def Dispatch.inOrder (invoker : Invoker σ) : Dispatch σ := fun requests =>
  requests.mapM fun request => do
    let answer ← (invoker request).attempt
    pure ⟨request.bundleIds, answer⟩

/-- The requests for bundles: one for each rule group. -/
def requestsFor (bundles : List Bundle) : List Request :=
  (Bundle.groupByArn bundles).map fun group => ⟨group.2.map (·.id)⟩

/-- A cycle at a time. -/
def cycle (repository : Store.Repository σ) (dispatch : Dispatch σ) (time : Timestamp) :
    Action σ Report := do
  let bundles ← repository.listBundles
  let requests := requestsFor bundles
  let outcomes ← (dispatch requests : StateM σ (List Outcome))
  settle repository time requests.length outcomes

end Scheduler

end Firewall
