/-
# Answering requests

The service evaluates the requests that arrive on a subject, one at a time and in order.  It answers
those that ask for a reply; a payload that cannot be read is answered too, but changes nothing.  What
payloads are, and how requests are read from them, is left open.

* `Messaging.Message` : what arrives;
* `Messaging.Decoder`, `decodeText` : reading requests from payloads;
* `Messaging.respondBy`, `respond` : the response to a payload;
* `Messaging.reply` : sending a response;
* `Messaging.handle` : one message;
* `Messaging.serve` : all of them.
-/
import Firewall.Messaging.Bus

namespace Firewall

namespace Messaging

open Evaluation

/-- A message that arrives, with a payload of some type. -/
structure Message (π : Type) where
  payload : π
  /-- The subject that the reply goes to, if one is asked for. -/
  replyTo : Option String
  deriving DecidableEq, Repr

/-- A way to read requests from payloads, with the reason if a payload cannot be read. -/
abbrev Decoder (π : Type) := π → Except String Request

/-- Requests are read from texts. -/
def decodeText : Decoder String := fun payload =>
  match Json.Reading.ofText? Request.reading payload with
  | some request => .ok request
  | none => .error Error.unreadable

variable {σ π : Type}

/-- The response to a payload that cannot be read. -/
def malformed (reason : String) : Response :=
  .of statusBadRequest ("Invalid evaluation request: " ++ reason) []

/-- The response to a payload. -/
def respondBy (decode : Decoder π) (e : Evaluator σ) (payload : π) : StateM σ Response :=
  match decode payload with
  | .ok request => e.evaluate request
  | .error reason => pure (malformed reason)

/-- The response to a text. -/
def respond (e : Evaluator σ) (payload : String) : StateM σ Response :=
  respondBy decodeText e payload

/-- Sending a response where it is asked for, if it is; a reply that cannot be sent is given up. -/
def reply (bus : Bus σ) (replyTo : Option String) (response : Response) : StateM σ Unit :=
  match replyTo with
  | none => pure ()
  | some subject => do
    let _ ← (bus.publish subject response.toJson.compact).attempt
    pure ()

/-- One message. -/
def handle (decode : Decoder π) (e : Evaluator σ) (bus : Bus σ) (m : Message π) :
    StateM σ Unit := do
  let response ← respondBy decode e m.payload
  reply bus m.replyTo response

/-- Messages one after the other. -/
def serve (decode : Decoder π) (e : Evaluator σ) (bus : Bus σ) : List (Message π) → StateM σ Unit
  | [] => pure ()
  | m :: ms => do
    handle decode e bus m
    serve decode e bus ms

end Messaging

end Firewall
