/-
# Evaluation of bundles

A batch of bundles is loaded and divided by rule group.  Each group is compiled as a whole before
anything of it is written: bundle by bundle, with the sids going on from one bundle to the next.  Then
its rules are stored and its text is published.

* `Evaluation.Evaluator` : evaluators;
* `Evaluation.groupText` : the text for a group;
* `Evaluation.Evaluator.evaluateBundles` : a batch, with its failure if it fails;
* `Evaluation.Evaluator.evaluate` : a batch, with a response in either case.
-/
import Firewall.Evaluation.Message
import Firewall.Evaluation.Publication
import Firewall.Resolution
import Firewall.Store.Repository

namespace Firewall

namespace Evaluation

/-- What evaluation needs: a store, a compiler and a publisher. -/
structure Evaluator (σ : Type) where
  repository : Store.Repository σ
  compiler : Compiler σ
  publisher : Publisher σ

/-- What came of a rule group. -/
structure GroupEvaluation where
  ruleGroupArn : String
  /-- The bundles of the group by id, each with its resolution. -/
  resolutions : List (String × Resolution)
  rulesText : String
  deriving DecidableEq

/-! ## Groups -/

/-- The ids of the objects that rules name, without repetitions, in order. -/
def referencedIds (rules : List Rule) : List String :=
  firstSeen (rules.flatMap fun r => [r.source, r.destination])

/-- The lines of a group: those of all bundles that do not deny everything, and if there is none, those
of the first bundle.  So a bundle without resolvable rules does not deny what its siblings allow. -/
def groupLines (resolutions : List (String × Resolution)) : List CompiledRule :=
  let lines := (resolutions.filter fun r => !r.2.isDefaultDeny).flatMap fun r => r.2.compiled
  if lines = [] then (resolutions.take 1).flatMap fun r => r.2.compiled else lines

/-- The text for a group. -/
def groupText (resolutions : List (String × Resolution)) : String :=
  CompiledRule.joinLines (groupLines resolutions)

namespace GroupEvaluation

/-- The evaluation of a group with its text. -/
def of (ruleGroupArn : String) (resolutions : List (String × Resolution)) : GroupEvaluation :=
  ⟨ruleGroupArn, resolutions, groupText resolutions⟩

/-- The rules to store for a group, each a version later. -/
def updatedRules (g : GroupEvaluation) : List Rule :=
  g.resolutions.flatMap fun r => r.2.rules.map fun rule => { rule with version := rule.version + 1 }

/-- What is published for a group. -/
def update (g : GroupEvaluation) : Update :=
  ⟨g.ruleGroupArn, g.rulesText, g.resolutions.map (·.1)⟩

end GroupEvaluation

namespace Evaluator

variable {σ : Type}

/-! ## Evaluating -/

/-- The bundle with an id; it is an error if there is none. -/
def load (e : Evaluator σ) (id : String) : Action σ Bundle := do
  match ← e.repository.bundle? id with
  | some b => pure b
  | none => throw (.notFound ("rule bundle " ++ id))

/-- The resolution of a bundle, with the sids after `offset`. -/
def resolveBundle (e : Evaluator σ) (offset : UInt64) (b : Bundle) : Action σ Resolution := do
  let rules ← e.repository.rulesOf b.id
  let objects ← e.repository.objectsWith (referencedIds rules)
  e.compiler.resolveRules b rules objects offset

/-- The resolutions of bundles, each with the sids after those of the one before. -/
def resolveBundles (e : Evaluator σ) :
    UInt64 → List Bundle → Action σ (List (String × Resolution))
  | _, [] => pure []
  | offset, b :: bs => do
    let r ← e.resolveBundle offset b
    let rest ← e.resolveBundles r.lastSid bs
    pure ((b.id, r) :: rest)

/-- The evaluation of a group, before anything is written. -/
def compileGroup (e : Evaluator σ) (ruleGroupArn : String) (bundles : List Bundle) :
    Action σ GroupEvaluation := do
  let resolutions ← e.resolveBundles 0 bundles
  pure (.of ruleGroupArn resolutions)

/-- Storing the rules of a group and publishing its text. -/
def apply (e : Evaluator σ) (g : GroupEvaluation) : Action σ Unit := do
  e.repository.putRules g.updatedRules
  e.publisher g.update

/-- A group from compiling to publishing. -/
def evaluateGroup (e : Evaluator σ) (group : String × List Bundle) :
    Action σ GroupEvaluation := do
  let g ← e.compileGroup group.1 group.2
  e.apply g
  pure g

/-- The bundles with some ids, group by group.  The first failure ends it. -/
def evaluateBundles (e : Evaluator σ) (ids : List String) : Action σ (List GroupEvaluation) := do
  let bundles ← ids.mapM e.load
  (Bundle.groupByArn bundles).mapM e.evaluateGroup

/-- The response to a request for some ids. -/
def responseOf {α : Type} (ids : List String) : Except Error α → Response
  | .ok _ => .of statusOk "Rule bundles evaluated" ids
  | .error e => .of statusInternalError e.message ids

/-- The bundles with some ids, with a response that names them all in either case. -/
def evaluate (e : Evaluator σ) (request : Request) : StateM σ Response := fun s =>
  let (result, s') := (e.evaluateBundles request.bundleIds).perform s
  (responseOf request.bundleIds result, s')

end Evaluator

/-! ## Invoking -/

/-- A way to have bundles evaluated.  A failure means that nobody could be asked; an evaluation that
fails is a response. -/
abbrev Invoker (σ : Type) := Request → Action σ Response

/-- The invoker that evaluates by itself. -/
def Invoker.direct {σ : Type} (e : Evaluator σ) : Invoker σ := fun request =>
  Action.ofFun fun s =>
    let (response, s') := e.evaluate request s
    (.ok response, s')

end Evaluation

end Firewall
