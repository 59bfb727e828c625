/-
# Resolution of a bundle

Resolving the rules of a bundle finds the addresses of the objects that each rule names, and compiles
the rules that have some on both sides.  A rule whose objects are unknown, or have no address, fails
on its own.  An inventory that fails aborts everything: what was found in the same pass is not
trusted then.  A bundle from which nothing compiles denies all traffic.

* `Resolution` : the rules of a bundle with their outcomes, and the compiled lines;
* `Resolution.ofOutcomes` : numbering the lines of resolved rules;
* `Compiler.resolveRules` : the whole of it.
-/
import Firewall.Resolver.Lookup
import Firewall.RuleLine

namespace Firewall

/-! ## Outcomes -/

/-- What resolving the objects of a rule comes to. -/
inductive RuleOutcome
  | failed (rule : Rule)
  | resolved (rule : Rule) (sources destinations : List String)
  deriving DecidableEq

/-- The outcome for a bundle. -/
structure Resolution where
  /-- All rules, in order, with their new status. -/
  rules : List Rule
  /-- The lines, in the order of their sids. -/
  compiled : List CompiledRule
  deriving DecidableEq

namespace Resolution

/-- The greatest sid of a line. -/
def lastSid (r : Resolution) : UInt64 := (r.compiled.map (·.sid)).foldl max 0

/-- The rules that failed. -/
def failedRules (r : Resolution) : List Rule := r.rules.filter fun rule => rule.status = .failed

/-- Whether no rule is active, so that the only line denies all traffic. -/
def isDefaultDeny (r : Resolution) : Bool := r.rules.all fun rule => rule.status ≠ .active

/-- The text of all lines. -/
def text (r : Resolution) : String := CompiledRule.joinLines r.compiled

/-! ## Numbering -/

/-- The rules and lines for outcomes, numbered after `last`; a failed rule takes no number.  As many
numbers are gone as there are lines, counted in 64 bits. -/
def number (last : UInt64) : List RuleOutcome → List Rule × List CompiledRule
  | [] => ([], [])
  | .failed rule :: rest =>
    let (rules, lines) := number last rest
    (rule :: rules, lines)
  | .resolved rule sources destinations :: rest =>
    let own := rule.compile sources destinations last
    let (rules, lines) := number (last + UInt64.ofNat own.length) rest
    (rule.activate (CompiledRule.joinLines own) :: rules, own ++ lines)

/-- The resolution for outcomes; without any line it denies all traffic. -/
def ofOutcomes (denyRuleId : String) (offset : UInt64) (outcomes : List RuleOutcome) : Resolution :=
  let (rules, lines) := number offset outcomes
  { rules, compiled := if lines = [] then [.denyAll denyRuleId (offset + 1)] else lines }

/-- Every outcome keeps its rule in its place. -/
theorem length_number (last : UInt64) (outcomes : List RuleOutcome) :
    (number last outcomes).1.length = outcomes.length := by
  induction outcomes generalizing last with
  | nil => rfl
  | cons o os ih => cases o <;> simp [number, ih]

/-- A resolution is never without lines. -/
theorem compiled_ofOutcomes_ne_nil (denyRuleId : String) (offset : UInt64)
    (outcomes : List RuleOutcome) : (ofOutcomes denyRuleId offset outcomes).compiled ≠ [] := by
  simp only [ofOutcomes]
  split
  · simp
  · next h => exact h

end Resolution

/-! ## Compilers -/

/-- What compiling needs: a chain of resolvers, an inventory, and an id for the line that denies all
traffic. -/
structure Compiler (σ : Type) where
  chain : List Resolver
  source : Inventory.Source σ
  denyRuleId : String

/-- The id that the line denying all traffic has by default. -/
def defaultDenyRuleId : String := "default-deny-all"

/-- The reason of a rule that names an unknown object. -/
def unresolvedReference : String :=
  "Unable to resolve reference object of source and/or destination"

namespace Compiler

variable {σ : Type}

/-- The last object with an id. -/
def objectFor? (objects : List FlowObject) (id : String) : Option FlowObject :=
  objects.reverse.find? fun o => o.id = id

/-- The outcome of a rule whose objects were resolved. -/
def outcome (rule : Rule) (source destination : ResolvedObject) : RuleOutcome :=
  if !source.isResolved then
    .failed (rule.fail ("Can not resolve source object to address " ++ source.object.id))
  else if !destination.isResolved then
    .failed
      (rule.fail ("Can not resolve destination object to address " ++ destination.object.id))
  else .resolved rule source.addresses destination.addresses

/-- The outcome of a rule.  The destination is resolved even if the source has no address. -/
def resolveRule (c : Compiler σ) (bundle : Bundle) (objects : List FlowObject) (rule : Rule) :
    Action σ RuleOutcome :=
  match objectFor? objects rule.source, objectFor? objects rule.destination with
  | some source, some destination => do
    let source ← Resolver.resolveBy c.chain c.source (some bundle) source
    let destination ← Resolver.resolveBy c.chain c.source (some bundle) destination
    pure (outcome rule source destination)
  | _, _ => pure (.failed (rule.fail unresolvedReference))

/-- How a failure of resolving one object is reported for the bundle. -/
def batchError : Error → Error
  | .underlyingService reason => .underlyingService reason
  | .noResolver id type => .noResolver id type
  | e => .underlyingService e.message

/-- The resolution of rules of a bundle, with the sids after `offset`.  Rules are resolved in
order, and the first failure ends it. -/
def resolveRules (c : Compiler σ) (bundle : Bundle) (rules : List Rule)
    (objects : List FlowObject) (offset : UInt64) : Action σ Resolution := do
  let outcomes ← Action.mapError batchError (rules.mapM (c.resolveRule bundle objects))
  pure (Resolution.ofOutcomes c.denyRuleId offset outcomes)

end Compiler

end Firewall
