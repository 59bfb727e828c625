/-
# Settings

What the scheduler and the evaluator are run with.  Every setting has a default; some can be given by
variables, and all by a document.

* `Settings` : the settings;
* `Settings.ofLookup` : from variables;
* `Settings.reading` : from a document;
* `Settings.validate` : refusing what cannot be run with.
-/
import Firewall.Blank
import Firewall.Inventory.Remote
import Firewall.Messaging.Bus
import Firewall.Pieces

namespace Firewall

/-- What the scheduler and the evaluator are run with. -/
structure Settings where
  nats : Messaging.Settings
  /-- The subject that evaluation requests are sent to. -/
  evaluationSubject : String
  /-- The root of the subjects that rule groups are published on. -/
  ruleGroupSubjectRoot : String
  scheduleIntervalSecs : Nat
  maxConcurrentDispatches : Nat
  maxConcurrentResolutions : Nat
  /-- The id of the line that denies all traffic. -/
  defaultDenyRuleId : String
  /-- The document that the store is kept in. -/
  storePath : String
  inventory : Option Inventory.Remote.Settings
  deriving DecidableEq, Repr

namespace Settings

/-- The defaults. -/
def standard : Settings where
  nats := .standard
  evaluationSubject := "flow.rules.evaluate"
  ruleGroupSubjectRoot := "flow.rules.rulegroup"
  scheduleIntervalSecs := 300
  maxConcurrentDispatches := 8
  maxConcurrentResolutions := 16
  defaultDenyRuleId := Firewall.defaultDenyRuleId
  storePath := "flow-rules.json"
  inventory := none

/-! ## Validation -/

/-- Whether a text has no character but blanks. -/
def isEmptyText (s : String) : Bool := s.toList.all isBlank

/-- Refuses settings that cannot be run with. -/
def validate (s : Settings) : Except Error Unit :=
  if s.scheduleIntervalSecs = 0 then
    .error (.configuration "schedule interval must be positive")
  else if s.maxConcurrentDispatches = 0 ∨ s.maxConcurrentResolutions = 0 then
    .error (.configuration "concurrency limits must be positive")
  else if isEmptyText s.evaluationSubject ∨ isEmptyText s.ruleGroupSubjectRoot then
    .error (.configuration "NATS subjects must not be empty")
  else if isEmptyText s.defaultDenyRuleId then
    .error (.configuration "default deny rule id must not be empty")
  else .ok ()

/-! ## Variables -/

/-- The number that the value of a variable stands for, blanks around it aside. -/
def number (name value : String) : Except Error Nat :=
  match (Decimal.unsigned? (trimBlanks value.toList)).filter fun n => n < UInt64.size with
  | some n => .ok n
  | none => .error (.configuration (name ++ " is not a number: " ++ value))

/-- The number in a variable, or a default without it. -/
def numberOr (lookup : String → Option String) (name : String) (default : Nat) :
    Except Error Nat :=
  match lookup name with
  | some value => number name value
  | none => .ok default

/-- The servers in a text, divided by commas. -/
def serversOf (text : String) : List String :=
  (pieces ',' text.toList).map fun p => String.ofList (trimBlanks p)

/-- The remote inventory that variables name; with an address they must hold a token too. -/
def inventoryOf (lookup : String → Option String) :
    Except Error (Option Inventory.Remote.Settings) :=
  match lookup "INVENTORY_URL" with
  | none => .ok none
  | some baseUrl =>
    match lookup "INVENTORY_API_TOKEN" with
    | none => .error (.configuration "INVENTORY_API_TOKEN not set")
    | some apiToken =>
      .ok (some ⟨baseUrl, apiToken, (lookup "INVENTORY_AGGREGATOR").getD "", 30⟩)

/-- The settings that variables give, checked. -/
def ofLookup (lookup : String → Option String) : Except Error Settings := do
  let base := standard
  let servers := ((lookup "NATS_URL").map serversOf).getD base.nats.servers
  let scheduleIntervalSecs ←
    numberOr lookup "FLOW_SCHEDULE_INTERVAL_SECS" base.scheduleIntervalSecs
  let maxConcurrentDispatches ←
    numberOr lookup "FLOW_MAX_DISPATCHES" base.maxConcurrentDispatches
  let maxConcurrentResolutions ←
    numberOr lookup "FLOW_MAX_RESOLUTIONS" base.maxConcurrentResolutions
  let inventory ← inventoryOf lookup
  let settings : Settings :=
    { base with
      nats := { base.nats with servers }
      evaluationSubject := (lookup "FLOW_EVALUATION_SUBJECT").getD base.evaluationSubject
      scheduleIntervalSecs
      maxConcurrentDispatches
      maxConcurrentResolutions
      storePath := (lookup "FLOW_STORE_PATH").getD base.storePath
      inventory }
  settings.validate
  pure settings

/-! ## Documents -/

/-- Settings as a document. -/
def toJson (s : Settings) : Json :=
  .object [("nats", s.nats.toJson), ("evaluation_subject", .string s.evaluationSubject),
    ("rule_group_subject_prefix", .string s.ruleGroupSubjectRoot),
    ("schedule_interval_secs", Json.ofNat s.scheduleIntervalSecs),
    ("max_concurrent_dispatches", Json.ofNat s.maxConcurrentDispatches),
    ("max_concurrent_resolutions", Json.ofNat s.maxConcurrentResolutions),
    ("default_deny_rule_id", .string s.defaultDenyRuleId), ("store_path", .string s.storePath),
    ("inventory", Json.ofOption Inventory.Remote.Settings.toJson s.inventory)]

/-- The fields of settings. -/
def fieldNames : List String :=
  ["nats", "evaluation_subject", "rule_group_subject_prefix", "schedule_interval_secs",
    "max_concurrent_dispatches", "max_concurrent_resolutions", "default_deny_rule_id",
    "store_path", "inventory"]

/-- Settings are read from their fields; those left out have their defaults. -/
def reading : Json.Reading Settings := fun levels d => do
  let base := standard
  let word := Json.Reading.natBelow UInt64.size
  let r ← Json.Record.ofDraft? fieldNames false levels d
  let nats ← r.fieldOr "nats" base.nats Messaging.Settings.reading
  let evaluationSubject ←
    r.fieldOr "evaluation_subject" base.evaluationSubject Json.Reading.text
  let ruleGroupSubjectRoot ←
    r.fieldOr "rule_group_subject_prefix" base.ruleGroupSubjectRoot Json.Reading.text
  let scheduleIntervalSecs ← r.fieldOr "schedule_interval_secs" base.scheduleIntervalSecs word
  let maxConcurrentDispatches ←
    r.fieldOr "max_concurrent_dispatches" base.maxConcurrentDispatches word
  let maxConcurrentResolutions ←
    r.fieldOr "max_concurrent_resolutions" base.maxConcurrentResolutions word
  let defaultDenyRuleId ←
    r.fieldOr "default_deny_rule_id" base.defaultDenyRuleId Json.Reading.text
  let storePath ← r.fieldOr "store_path" base.storePath Json.Reading.text
  let inventory ← r.fieldOr "inventory" base.inventory
    (Json.Reading.nullable Inventory.Remote.Settings.reading)
  pure
    { nats, evaluationSubject, ruleGroupSubjectRoot, scheduleIntervalSecs,
      maxConcurrentDispatches, maxConcurrentResolutions, defaultDenyRuleId, storePath, inventory }

end Settings

end Firewall
