/-
# The message bus

Messages are documents sent to a subject.  A message can be published, or sent as a request that waits
for one reply.

* `Messaging.Settings` : how a bus is reached;
* `Messaging.Bus` : a bus over a world;
* `Messaging.busPublisher`, `busInvoker` : publishing updates and invoking evaluations over a bus.
-/
import Firewall.Evaluation.Evaluator
import Firewall.Messaging.Subject

namespace Firewall

namespace Messaging

open Evaluation

/-! ## Settings -/

/-- How a bus is reached; times are in seconds. -/
structure Settings where
  servers : List String
  name : String
  connectTimeout : Nat
  requestTimeout : Nat
  deriving DecidableEq, Repr

/-- Settings for a server on the same machine. -/
def Settings.standard : Settings :=
  ⟨["nats://localhost:4222"], "flow-rules", 10, 300⟩

/-- Settings as a document. -/
def Settings.toJson (s : Settings) : Json :=
  .object [("servers", Json.ofTexts s.servers), ("name", .string s.name),
    ("connect_timeout", Json.ofNat s.connectTimeout),
    ("request_timeout", Json.ofNat s.requestTimeout)]

/-- Settings are read from their fields, all of which are required. -/
def Settings.reading : Json.Reading Settings := fun levels d => do
  let r ← Json.Record.ofDraft?
    ["servers", "name", "connect_timeout", "request_timeout"] false levels d
  let servers ← r.field "servers" (Json.Reading.listOf Json.Reading.text)
  let name ← r.field "name" Json.Reading.text
  let connectTimeout ← r.field "connect_timeout" (Json.Reading.natBelow UInt64.size)
  let requestTimeout ← r.field "request_timeout" (Json.Reading.natBelow UInt64.size)
  pure { servers, name, connectTimeout, requestTimeout }

/-! ## Buses -/

/-- A bus over a world of type `σ`. -/
structure Bus (σ : Type) where
  /-- Sends a payload to a subject. -/
  publish : String → String → Action σ Unit
  /-- Sends a payload to a subject and gives the payload of the reply. -/
  request : String → String → Action σ String

/-- A bus that was connected to, or the error for the reason why it was not. -/
def connect {σ : Type} : Except String (Bus σ) → Except Error (Bus σ)
  | .ok bus => .ok bus
  | .error reason => .error (.natsConnection reason)

variable {σ : Type}

/-- A publisher over a bus, with a subject for each rule group below a root. -/
def busPublisher (bus : Bus σ) (root : String) : Publisher σ := fun u =>
  Action.mapError (fun e => .publish e.message)
    (bus.publish (subjectFor root u.ruleGroupArn) u.toJson.compact)

/-- The response that the payload of a reply holds. -/
def decodeReply (payload : String) : Except Error Response :=
  match Json.Reading.ofText? Response.reading payload with
  | some response => .ok response
  | none => .error (.deserialization Error.unreadable)

/-- An invoker that sends requests to a subject of a bus. -/
def busInvoker (bus : Bus σ) (subject : String) : Invoker σ := fun request =>
  Action.mapError (fun e => .invocation e.message) do
    let payload ← bus.request subject request.toJson.compact
    Action.ofResult (decodeReply payload)

end Messaging

end Firewall
