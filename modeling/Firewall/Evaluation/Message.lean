/-
# Evaluation messages

Evaluation is asked for with the ids of bundles, and answers with a status and a body.  The body is a
document of its own, in a text: a message and the ids that it is about.

* `Evaluation.Request`, `Response`, `Body` : the messages;
* `Evaluation.Response.body?` : the body that a response holds.
-/
import Firewall.Json.Record

namespace Firewall

namespace Evaluation

/-- The status of a success. -/
def statusOk : UInt16 := 200

/-- The status for a request that cannot be read. -/
def statusBadRequest : UInt16 := 400

/-- The status of a failure. -/
def statusInternalError : UInt16 := 500

/-! ## Requests -/

/-- A request to evaluate bundles. -/
structure Request where
  bundleIds : List String
  deriving DecidableEq, Repr

/-- A request as a document. -/
def Request.toJson (r : Request) : Json := .object [("ruleBundleIds", Json.ofTexts r.bundleIds)]

/-- A request is read from its ids. -/
def Request.reading : Json.Reading Request := fun levels d => do
  let r ← Json.Record.ofDraft? ["ruleBundleIds"] false levels d
  let bundleIds ← r.field "ruleBundleIds" (Json.Reading.listOf Json.Reading.text)
  pure { bundleIds }

/-! ## Responses -/

/-- The body of a response. -/
structure Body where
  message : String
  bundleIds : List String
  deriving DecidableEq, Repr

/-- A body as a document. -/
def Body.toJson (b : Body) : Json :=
  .object [("message", .string b.message), ("ruleBundleIds", Json.ofTexts b.bundleIds)]

/-- A body is read from its message and ids. -/
def Body.reading : Json.Reading Body := fun levels d => do
  let r ← Json.Record.ofDraft? ["message", "ruleBundleIds"] false levels d
  let message ← r.field "message" Json.Reading.text
  let bundleIds ← r.field "ruleBundleIds" (Json.Reading.listOf Json.Reading.text)
  pure { message, bundleIds }

/-- A response. -/
structure Response where
  statusCode : UInt16
  /-- The text of the body. -/
  body : String
  deriving DecidableEq, Repr

namespace Response

/-- The response with a message about some ids. -/
def of (statusCode : UInt16) (message : String) (bundleIds : List String) : Response where
  statusCode
  body := (Body.toJson { message, bundleIds }).compact

/-- Whether the response reports a success. -/
def isSuccess (r : Response) : Bool := r.statusCode = statusOk

/-- The body that a response holds. -/
def body? (r : Response) : Option Body := Json.Reading.ofText? Body.reading r.body

/-- A response as a document. -/
def toJson (r : Response) : Json :=
  .object [("statusCode", Json.ofNat r.statusCode.toNat), ("body", .string r.body)]

/-- A response is read from its status and body. -/
def reading : Json.Reading Response := fun levels d => do
  let r ← Json.Record.ofDraft? ["statusCode", "body"] false levels d
  let statusCode ← r.field "statusCode" Json.Reading.word16
  let body ← r.field "body" Json.Reading.text
  pure { statusCode, body }

end Response

end Evaluation

end Firewall
