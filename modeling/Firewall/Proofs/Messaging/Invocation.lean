/-
# Invoking over a bus

Over a bus that carries messages as they are, a request reaches a responder, and what the responder
replies reaches the requester.  On the way the ids and the message are written as text twice over,
once in the body and once more with the body, and they are read back unharmed, whatever characters
they are made of.  So invoking over a bus is invoking directly.

* `Messaging.decodeText_toJson`, `decodeReply_toJson` : requests and responses over the wire;
* `Messaging.exchange` : a request that a responder answers;
* `Messaging.Bus.Carries` : buses that carry requests to a responder and replies back;
* `Messaging.busInvoker_eq_direct` : the two invokers are one.
-/
import Firewall.Proofs.Deployment
import Firewall.Proofs.Messaging.Responder

namespace Firewall

namespace Messaging

open Evaluation

/-! ## Over the wire -/

/-- The request that was sent is the one that is read. -/
theorem decodeText_toJson (request : Request) :
    decodeText request.toJson.compact = .ok request := by
  rw [decodeText, request.ofText?_compact]

/-- The response that was sent is the one that is read. -/
theorem decodeReply_toJson (response : Response) :
    decodeReply response.toJson.compact = .ok response := by
  rw [decodeReply, response.ofText?_compact]

/-! ## Requests and replies -/

section Carried

variable {σ ω : Type}

/-- A payload that is handed to a responder as a message with a subject for the reply, and the first
payload that the responder sends there. -/
def exchange (e : Evaluator σ) (b : Bus ω) (network : ω) (payload inbox : String) :
    Action σ String :=
  Action.ofFun fun s =>
    let message : Message String := ⟨payload, some inbox⟩
    let p := (handle decodeText (Post.evaluator e) (Post.bus b) message ⟨s, network, []⟩).2
    match p.replies.find? fun r => r.subject = inbox with
    | some r => (.ok r.payload, p.site)
    | none => (.error (.natsPublish "no reply"), p.site)

/-- A bus carries requests on a subject to a responder, and replies back, all as they are: whatever is
sent, the responder handles just that, and what it replies is what the requester gets.  The responder
may have any network for its replies, and any subject may be chosen for them. -/
def Bus.Carries (bus : Bus σ) (subject : String) (e : Evaluator σ) (b : Bus ω) : Prop :=
  ∀ payload s, ∃ network inbox,
    (bus.request subject payload).perform s =
      (exchange e b network payload inbox).perform s

/-- **What comes of a request** that a responder answers is its response to the request. -/
theorem perform_exchange (e : Evaluator σ) (b : Bus ω) (network : ω) (payload inbox : String)
    (s : σ) :
    (exchange e b network payload inbox).perform s =
      (.ok (respond e payload s).1.toJson.compact, (respond e payload s).2) := by
  obtain ⟨hsite, hreplies⟩ :=
    handle_post decodeText e b ⟨payload, some inbox⟩ ⟨s, network, []⟩
  rw [List.nil_append, Option.map_some, Option.toList_some, ← respondBy_fst] at hreplies
  unfold exchange
  rw [Action.perform_ofFun]
  simp only [hreplies, hsite]
  rw [List.find?_cons_of_pos (by simp [Reply.of])]
  rfl

variable {bus : Bus σ} {subject : String} {e : Evaluator σ} {b : Bus ω}

/-- **Over a bus that carries messages, a request is evaluated as it would be directly.** -/
theorem Bus.Carries.perform_busInvoker (h : bus.Carries subject e b) (request : Request) (s : σ) :
    (busInvoker bus subject request).perform s = (Invoker.direct e request).perform s := by
  obtain ⟨network, inbox, hrequest⟩ := h request.toJson.compact s
  have hrespond : respond e request.toJson.compact = e.evaluate request := by
    rw [respond, respondBy, decodeText_toJson]
  rw [perform_exchange, hrespond] at hrequest
  have hreply : (bus.request subject request.toJson.compact >>= fun payload =>
      Action.ofResult (decodeReply payload)).perform s =
        (.ok (e.evaluate request s).1, (e.evaluate request s).2) := by
    rw [Action.perform_bind_of_ok hrequest, decodeReply_toJson]
    rfl
  exact Action.perform_mapError_ok_iff.2 hreply

/-- **The two invokers are one**: over a bus that carries messages as they are, invoking an evaluator
gives the same response as asking it directly, and does the same, in every state.  The response has
the ids of the request, in order, and the message of the evaluator, whether evaluating succeeds or
fails. -/
theorem busInvoker_eq_direct (h : bus.Carries subject e b) :
    busInvoker bus subject = Invoker.direct e ∧
    ∀ request s, ∃ response,
      (busInvoker bus subject request).perform s =
        (.ok response, ((e.evaluateBundles request.bundleIds).perform s).2) ∧
      match ((e.evaluateBundles request.bundleIds).perform s).1 with
      | .ok _ => response.statusCode = statusOk ∧
          response.body? = some ⟨"Rule bundles evaluated", request.bundleIds⟩
      | .error reason => response.statusCode = statusInternalError ∧
          response.body? = some ⟨reason.message, request.bundleIds⟩ := by
  refine ⟨?_, fun request s => ?_⟩
  · funext request s
    exact h.perform_busInvoker request s
  · refine ⟨(e.evaluate request s).1, h.perform_busInvoker request s, ?_⟩
    have hresponse : (e.evaluate request s).1 = Evaluator.responseOf request.bundleIds
        ((e.evaluateBundles request.bundleIds).perform s).1 := rfl
    rw [hresponse]
    cases ((e.evaluateBundles request.bundleIds).perform s).1 with
    | ok gs => exact ⟨rfl, Response.body?_of _ _ _⟩
    | error reason => exact ⟨rfl, Response.body?_of _ _ _⟩

end Carried

/-! ## A bus of one responder -/

namespace Sample

/-- A network that takes every reply. -/
def network : Bus Unit := ⟨fun _ _ => pure (), fun _ _ => pure ""⟩

/-- A bus that hands every request to a responder. -/
def bus {σ : Type} (e : Evaluator σ) : Bus σ :=
  ⟨fun _ _ => pure (), fun _ payload => exchange e network () payload "inbox"⟩

/-- An id with a quote, a backslash, a tabulator, a null, a letter with an accent and a character
beyond the first plane. -/
def oddId : String := "\"\\\t\u0000é😀"

end Sample

/-- A bundle with an odd id is asked for after one that is there; the response names both. -/
theorem busInvoker_eq_direct_sample :
    (Sample.bus (Firewall.Sample.deployment []).evaluator).Carries "evaluate"
        (Firewall.Sample.deployment []).evaluator Sample.network ∧
      busInvoker (Sample.bus (Firewall.Sample.deployment []).evaluator) "evaluate" =
        Invoker.direct (Firewall.Sample.deployment []).evaluator ∧
      ∃ response w', (busInvoker (Sample.bus (Firewall.Sample.deployment []).evaluator) "evaluate"
          ⟨["b1", Sample.oddId]⟩).perform Firewall.Sample.world = (.ok response, w') ∧
        response.body? =
          some ⟨"Not found: rule bundle " ++ Sample.oddId, ["b1", Sample.oddId]⟩ := by
  have hcarries : (Sample.bus (Firewall.Sample.deployment []).evaluator).Carries "evaluate"
      (Firewall.Sample.deployment []).evaluator Sample.network :=
    fun _ _ => ⟨(), "inbox", rfl⟩
  obtain ⟨hsame, hbody⟩ := busInvoker_eq_direct hcarries
  refine ⟨hcarries, hsame, ?_⟩
  obtain ⟨response, hresponse, hanswer⟩ := hbody ⟨["b1", Sample.oddId]⟩ Firewall.Sample.world
  refine ⟨response, _, hresponse, ?_⟩
  have hresult : (((Firewall.Sample.deployment []).evaluator.evaluateBundles
      ["b1", Sample.oddId]).perform Firewall.Sample.world).1 =
        .error (.notFound ("rule bundle " ++ Sample.oddId)) := by
    rfl
  rw [hresult] at hanswer
  exact hanswer.2

end Messaging

end Firewall
