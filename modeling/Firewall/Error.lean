/-
# Errors

The ways in which resolving, compiling, storing, publishing and scheduling can fail.

* `Error.message` : the text shown for an error;
* `Error.isTransport` : whether a remote party failed, and not the data;
* `append_ne_append` : texts of failures are told apart by how they begin.
-/

namespace Firewall

/-- What went wrong. -/
inductive Error
  /-- No resolver takes the object. -/
  | noResolver (objectId objectType : String)
  /-- A remote party failed while a batch was processed. -/
  | underlyingService (reason : String)
  /-- An inventory query failed. -/
  | inventory (reason : String)
  /-- The store failed. -/
  | storage (reason : String)
  /-- The store does not hold the entity. -/
  | notFound (what : String)
  /-- An evaluation could not be invoked. -/
  | invocation (reason : String)
  /-- A rule group could not be published. -/
  | publish (reason : String)
  /-- A cycle could not bring these bundles up to date. -/
  | evaluationFailed (bundleIds : List String)
  /-- The message bus could not be reached. -/
  | natsConnection (reason : String)
  /-- A message could not be sent. -/
  | natsPublish (reason : String)
  /-- A subject could not be subscribed to. -/
  | natsSubscribe (reason : String)
  /-- A value could not be written as a document. -/
  | serialization (reason : String)
  /-- A document could not be read. -/
  | deserialization (reason : String)
  /-- The settings cannot be run with. -/
  | configuration (reason : String)
  deriving DecidableEq, Repr

namespace Error

/-- The text shown for an error. -/
def message : Error → String
  | noResolver id type => "No resolver found for object " ++ id ++ " of type " ++ type
  | underlyingService reason => "Underlying service error: " ++ reason
  | inventory reason => "Inventory query error: " ++ reason
  | storage reason => "Storage error: " ++ reason
  | notFound what => "Not found: " ++ what
  | invocation reason => "Evaluation invocation error: " ++ reason
  | publish reason => "Rule group publish error: " ++ reason
  | evaluationFailed ids => "Evaluation failed for rule bundles: " ++ ", ".intercalate ids
  | natsConnection reason => "NATS connection error: " ++ reason
  | natsPublish reason => "NATS publish error: " ++ reason
  | natsSubscribe reason => "NATS subscribe error: " ++ reason
  | serialization reason => "Serialization error: " ++ reason
  | deserialization reason => "Deserialization error: " ++ reason
  | configuration reason => "Configuration error: " ++ reason

/-- Whether a remote party failed, and not the data. -/
def isTransport : Error → Bool
  | underlyingService _ | inventory _ | storage _ | invocation _ | publish _ | natsConnection _
  | natsPublish _ | natsSubscribe _ => true
  | noResolver _ _ | notFound _ | evaluationFailed _ | serialization _ | deserialization _
  | configuration _ => false

/-- The reason given for a document that does not have the expected shape. -/
def unreadable : String := "the document does not have the expected shape"

end Error

/-! ## Telling texts apart -/

/-- Texts that begin in different ways are different. -/
theorem append_ne_append {p q : String} (i : Nat) (hp : i < p.toList.length)
    (hq : i < q.toList.length) (h : p.toList[i]? ≠ q.toList[i]?) (s t : String) :
    p ++ s ≠ q ++ t := by
  intro heq
  have hi := congrArg (fun text => text.toList[i]?) heq
  simp only [String.toList_append, List.getElem?_append_left hp,
    List.getElem?_append_left hq] at hi
  exact h hi

end Firewall
