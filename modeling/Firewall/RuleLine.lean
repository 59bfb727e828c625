/-
# Rule lines

The firewall reads one rule a line:

    {action} {protocol} {src} {srcPort} ->  {dst} {dstPort} (msg: "{message}"; sid: {sid};{options})

with two blanks after the arrow and one ` {key}: {value};` for each option.  A rule with several
addresses on either side becomes one line for each pair, and every line has a number of its own,
its sid.  Sids are words of 64 bits: after the greatest of them, counting goes on from zero.

* `RuleLine.render` : the text of a line;
* `Rule.compile` : the lines of a rule, numbered from a given sid on;
* `CompiledRule.denyAll` : the line that drops all traffic.
-/
import Firewall.Rule

namespace Firewall

/-! ## The text of a line -/

/-- What a line is made of. -/
structure RuleLine where
  action : String
  protocol : String
  source : String
  sourcePort : Port
  destination : String
  destinationPort : Port
  message : String
  sid : UInt64
  options : List RuleOption

namespace RuleLine

/-- The text of an option inside a line. -/
def optionText (o : RuleOption) : String := " " ++ o.key ++ ": " ++ o.value ++ ";"

/-- The text of a line. -/
def render (l : RuleLine) : String :=
  l.action ++ " " ++ l.protocol ++ " " ++ l.source ++ " " ++ l.sourcePort.text ++ " ->  " ++
    l.destination ++ " " ++ l.destinationPort.text ++ " (msg: \"" ++ l.message ++ "\"; sid: " ++
    Nat.repr l.sid.toNat ++ ";" ++ String.join (l.options.map optionText) ++ ")"

end RuleLine

/-! ## Compiled rules -/

/-- A line together with its number and the rule that it belongs to. -/
structure CompiledRule where
  ruleId : String
  sid : UInt64
  suricata : String
  deriving DecidableEq, Repr

namespace CompiledRule

/-- A compiled rule as a document. -/
def toJson (c : CompiledRule) : Json :=
  .object [("ruleId", .string c.ruleId), ("sid", Json.ofNat c.sid.toNat),
    ("suricataString", .string c.suricata)]

/-- A compiled rule is read from its fields. -/
def reading : Json.Reading CompiledRule := fun levels d => do
  let r ← Json.Record.ofDraft? ["ruleId", "sid", "suricataString"] false levels d
  let ruleId ← r.field "ruleId" Json.Reading.text
  let sid ← r.field "sid" Json.Reading.word64
  let suricata ← r.field "suricataString" Json.Reading.text
  pure { ruleId, sid, suricata }

/-- The line that drops all traffic. -/
def denyAll (ruleId : String) (sid : UInt64) : CompiledRule where
  ruleId
  sid
  suricata :=
    RuleLine.render
      { action := "drop", protocol := "ip", source := "any", sourcePort := .any
        destination := "any", destinationPort := .any, message := ruleId, sid, options := [] }

/-- The texts of lines on one line each. -/
def joinLines (lines : List CompiledRule) : String :=
  "\n".intercalate (lines.map (·.suricata))

end CompiledRule

namespace Rule

/-- The line of a rule for one pair of addresses. -/
def line (r : Rule) (sid : UInt64) (source destination : String) : RuleLine :=
  { action := r.action, protocol := r.protocol, source, sourcePort := r.sourcePort, destination
    destinationPort := r.destinationPort, message := r.id, sid, options := r.options }

/-- The pairs of a source and a destination, source by source. -/
def addressPairs (sources destinations : List String) : List (String × String) :=
  sources.flatMap fun source => destinations.map fun destination => (source, destination)

/-- The lines of a rule: one for each pair of addresses, with the sids after `last` in order. -/
def compile (r : Rule) (sources destinations : List String) (last : UInt64) :
    List CompiledRule :=
  (addressPairs sources destinations).mapIdx fun k (source, destination) =>
    let sid := last + 1 + UInt64.ofNat k
    { ruleId := r.id, sid, suricata := (r.line sid source destination).render }

/-- There are as many pairs as the product of the two numbers of addresses. -/
theorem length_addressPairs (sources destinations : List String) :
    (addressPairs sources destinations).length = sources.length * destinations.length := by
  induction sources with
  | nil => simp [addressPairs]
  | cons s ss ih =>
    rw [addressPairs] at ih ⊢
    rw [List.flatMap_cons, List.length_append, List.length_map, ih, List.length_cons,
      Nat.add_mul, Nat.one_mul, Nat.add_comm]

/-- A rule has as many lines as there are pairs of addresses. -/
theorem length_compile (r : Rule) (sources destinations : List String) (last : UInt64) :
    (r.compile sources destinations last).length = sources.length * destinations.length := by
  rw [compile, List.length_mapIdx, length_addressPairs]

end Rule

end Firewall
