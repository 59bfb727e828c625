/-
# Messages read back

A request carries its ids in a text, and so does a response, whose body is a text within that text:
a message and the ids once more.  Whatever these are, they are read from the text as they were put
in, through both layers.

* `Evaluation.Request.ofText?_compact`, `Response.ofText?_compact` : requests and responses are read
  from their texts;
* `Evaluation.Response.body?_of` : a body is read from its response.
-/
import Firewall.Evaluation.Message
import Firewall.Proofs.Json.Record

namespace Firewall

namespace Evaluation

/-! ## Requests -/

namespace Request

/-- A request is read from its document. -/
theorem reading_toJson (r : Request) :
    Json.Reading.ofJson? reading (toJson r) = some r := by
  have hrecord : Json.Record.ofDraft? ["ruleBundleIds"] false Json.nestingLimit
      (Json.Draft.ofJson (toJson r)) =
        some (.of 126 [("ruleBundleIds", .ofTexts r.bundleIds)]) :=
    Json.Record.ofDraft?_ofJson (by decide) (by exact List.Sublist.refl _) false 126
  unfold Json.Reading.ofJson? reading
  simp only [hrecord, Option.bind_eq_bind, Option.bind_some]
  rw [Json.Record.field_of rfl (Json.Reading.listOf_text_ofTexts _ r.bundleIds)]
  rfl

/-- **A request is read from its text** as it was put in. -/
theorem ofText?_compact (r : Request) :
    Json.Reading.ofText? reading r.toJson.compact = some r := by
  have hintegral : r.toJson.isIntegral = true := by
    simp [toJson, Json.isIntegral, Json.membersIntegral, Json.isIntegral_ofTexts]
  rw [Json.Reading.ofText?_compact reading hintegral, reading_toJson]

end Request

/-! ## Responses -/

/-- A body is read from its document. -/
theorem Body.reading_toJson (b : Body) :
    Json.Reading.ofJson? Body.reading (Body.toJson b) = some b := by
  have hrecord : Json.Record.ofDraft? ["message", "ruleBundleIds"] false Json.nestingLimit
      (Json.Draft.ofJson (Body.toJson b)) =
        some (.of 126 [("message", .string b.message), ("ruleBundleIds", .ofTexts b.bundleIds)]) :=
    Json.Record.ofDraft?_ofJson (by decide) (by exact List.Sublist.refl _) false 126
  unfold Json.Reading.ofJson? Body.reading
  simp only [hrecord, Option.bind_eq_bind, Option.bind_some]
  rw [Json.Record.field_of rfl (Json.Reading.text_ofJson _ b.message), Option.bind_some,
    Json.Record.field_of rfl (Json.Reading.listOf_text_ofTexts _ b.bundleIds)]
  rfl

namespace Response

/-- **A body is read from its response** as it was put in. -/
theorem body?_of (statusCode : UInt16) (message : String) (bundleIds : List String) :
    (Response.of statusCode message bundleIds).body? = some ⟨message, bundleIds⟩ := by
  have hintegral : (Body.toJson { message, bundleIds }).isIntegral = true := by
    simp [Body.toJson, Json.isIntegral, Json.membersIntegral, Json.isIntegral_ofTexts]
  rw [body?, Response.of, Json.Reading.ofText?_compact Body.reading hintegral,
    Body.reading_toJson]

/-- A response is read from its document. -/
theorem reading_toJson (r : Response) :
    Json.Reading.ofJson? reading (toJson r) = some r := by
  have hrecord : Json.Record.ofDraft? ["statusCode", "body"] false Json.nestingLimit
      (Json.Draft.ofJson (toJson r)) =
        some (.of 126 [("statusCode", Json.ofNat r.statusCode.toNat), ("body", .string r.body)]) :=
    Json.Record.ofDraft?_ofJson (by decide) (by exact List.Sublist.refl _) false 126
  unfold Json.Reading.ofJson? reading
  rw [hrecord, Option.bind_eq_bind, Option.bind_some,
    Json.Record.field_of rfl (Json.Reading.word16_ofNat _ r.statusCode), Option.bind_eq_bind,
    Option.bind_some, Json.Record.field_of rfl (Json.Reading.text_ofJson _ r.body)]
  rfl

/-- **A response is read from its text** as it was put in. -/
theorem ofText?_compact (r : Response) :
    Json.Reading.ofText? reading r.toJson.compact = some r := by
  have hstatus : r.statusCode.toNat < UInt64.size :=
    Nat.lt_trans r.statusCode.toNat_lt (by decide)
  have hintegral : r.toJson.isIntegral = true := by
    simp [toJson, Json.isIntegral, Json.membersIntegral, Json.isIntegral_ofNat hstatus]
  rw [Json.Reading.ofText?_compact reading hintegral, reading_toJson]

end Response

end Evaluation

end Firewall
