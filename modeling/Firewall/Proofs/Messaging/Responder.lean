/-
# Answering message after message

A responder works in two places: its evaluator works on a site, and its replies go through a
network.  Beside the two, a log is kept of the replies that were tried; nobody reads it.  So whatever
the network does with the replies, the site is left as the requests alone would leave it, and every
message that asks for a reply is answered in its turn.

* `Messaging.Post` : the world of a responder;
* `Messaging.Post.evaluator`, `Post.bus` : an evaluator and a bus in that world;
* `Messaging.requestsIn`, `answerAfter` : what messages ask for, and how they are to be answered;
* `Messaging.handle_post` : the step, one message;
* `Messaging.serve_post` : the run, message after message.
-/
import Mathlib.Data.List.ReduceOption
import Firewall.Messaging.Service
import Firewall.Proofs.Evaluation.Message
import Firewall.Proofs.Evaluation.Within

namespace Firewall

namespace Messaging

open Evaluation

/-! ## The world of a responder -/

/-- A reply that was tried. -/
structure Reply where
  subject : String
  payload : String
  deriving DecidableEq, Repr

/-- The reply with a response. -/
def Reply.of (subject : String) (response : Response) : Reply :=
  ⟨subject, response.toJson.compact⟩

/-- A site to evaluate at, a network for replies, and the replies that were tried, in order. -/
structure Post (σ ω : Type) where
  site : σ
  network : ω
  replies : List Reply

namespace Post

variable {σ ω : Type}

/-- The world with another site. -/
def moveTo (site : σ) (p : Post σ ω) : Post σ ω := { p with site }

theorem part_site : Action.Part (fun p : Post σ ω => p.site) moveTo :=
  ⟨fun _ _ => rfl, fun _ _ _ => rfl, fun _ => rfl⟩

/-- An evaluator at the site. -/
def evaluator (e : Evaluator σ) : Evaluator (Post σ ω) := e.within (fun p => p.site) moveTo

/-- A bus on the network, with what it publishes in the log. -/
def bus (b : Bus ω) : Bus (Post σ ω) where
  publish subject payload :=
    Action.ofFun fun p =>
      let (result, network) := (b.publish subject payload).perform p.network
      (result, { p with network, replies := p.replies ++ [⟨subject, payload⟩] })
  request subject payload :=
    (b.request subject payload).within Post.network fun network p => { p with network }

end Post

/-! ## What messages ask for -/

section Asked

variable {σ π : Type} (decode : Decoder π) (e : Evaluator σ)

/-- The requests among the payloads of messages, in order. -/
def requestsIn (ms : List (Message π)) : List Request :=
  ms.filterMap fun m => (decode m.payload).toOption

/-- How a message is to be answered after others: with what the evaluator says once it has evaluated
their requests, or with the reason why the payload cannot be read. -/
def answerAfter (s : σ) (before : List (Message π)) (m : Message π) : Response :=
  match decode m.payload with
  | .ok request => (e.evaluate request (e.evaluateAll (requestsIn decode before) s).2).1
  | .error reason => malformed reason

/-- The first message is answered from the state as it is. -/
theorem respondBy_fst (m : Message π) (s : σ) :
    (respondBy decode e m.payload s).1 = answerAfter decode e s [] m := by
  unfold respondBy answerAfter
  cases decode m.payload <;> rfl

/-- A message leaves the state that its request leaves, if it has one. -/
theorem evaluateAll_requestsIn_cons (m : Message π) (ms : List (Message π)) (s : σ) :
    (e.evaluateAll (requestsIn decode (m :: ms)) s).2 =
      (e.evaluateAll (requestsIn decode ms) (respondBy decode e m.payload s).2).2 := by
  unfold requestsIn respondBy
  rw [List.filterMap_cons]
  cases decode m.payload with
  | error reason => rfl
  | ok request =>
    show (e.evaluateAll (request :: _) s).2 = _
    rw [Evaluator.evaluateAll_cons]

/-- A message is answered after others as if the first of them had been there before. -/
theorem answerAfter_cons (s : σ) (m : Message π) (before : List (Message π)) (m' : Message π) :
    answerAfter decode e s (m :: before) m' =
      answerAfter decode e (respondBy decode e m.payload s).2 before m' := by
  unfold answerAfter
  rw [evaluateAll_requestsIn_cons]

/-- A payload that cannot be read is answered with a status of its own and about no bundles. -/
theorem malformed_spec (reason : String) :
    (malformed reason).statusCode = statusBadRequest ∧
      (malformed reason).body? = some ⟨"Invalid evaluation request: " ++ reason, []⟩ :=
  ⟨rfl, Response.body?_of _ _ _⟩

end Asked

/-! ## Message after message -/

section Run

variable {σ ω π : Type} (decode : Decoder π) (e : Evaluator σ) (b : Bus ω)

/-- A message is responded to, and then the response is sent. -/
theorem handle_eq {τ : Type} (e : Evaluator τ) (b : Bus τ) (m : Message π) (s : τ) :
    handle decode e b m s =
      reply b m.replyTo (respondBy decode e m.payload s).1 (respondBy decode e m.payload s).2 :=
  rfl

/-- A payload is responded to at the site, and nothing else happens. -/
theorem respondBy_post (payload : π) (p : Post σ ω) :
    respondBy decode (Post.evaluator e) payload p =
      ((respondBy decode e payload p.site).1,
        p.moveTo (respondBy decode e payload p.site).2) := by
  unfold respondBy
  cases decode payload with
  | error reason => rfl
  | ok request => exact Evaluator.evaluate_within Post.part_site e request p

/-- **The step**: the site is left as responding leaves it, and one reply is tried if the message asks
for it, whatever becomes of that reply. -/
theorem handle_post (m : Message π) (p : Post σ ω) :
    (handle decode (Post.evaluator e) (Post.bus b) m p).2.site =
        (respondBy decode e m.payload p.site).2 ∧
      (handle decode (Post.evaluator e) (Post.bus b) m p).2.replies =
        p.replies ++ (m.replyTo.map fun subject =>
          Reply.of subject (answerAfter decode e p.site [] m)).toList := by
  have hhandle : handle decode (Post.evaluator e) (Post.bus b) m p =
      reply (Post.bus b) m.replyTo (answerAfter decode e p.site [] m)
        (p.moveTo (respondBy decode e m.payload p.site).2) := by
    rw [← respondBy_fst, handle_eq, respondBy_post]
  rw [hhandle]
  cases m.replyTo with
  | none => exact ⟨rfl, (List.append_nil _).symm⟩
  | some subject => exact ⟨rfl, rfl⟩

/-- **Message after message.**  The site is left as the requests among the messages leave it, one
after the other: messages that cannot be read, messages that ask for no reply, and replies that
cannot be sent make no difference.  One reply is tried for each message that asks for it, on the
subject that it names and in its turn, with what the evaluator says after the requests before it; a
payload that cannot be read is answered as such, about no bundles. -/
theorem serve_post (ms : List (Message π)) (p : Post σ ω) :
    (serve decode (Post.evaluator e) (Post.bus b) ms p).2.site =
        (e.evaluateAll (requestsIn decode ms) p.site).2 ∧
      (serve decode (Post.evaluator e) (Post.bus b) ms p).2.replies =
        p.replies ++ (ms.mapIdx fun k m => m.replyTo.map fun subject =>
          Reply.of subject (answerAfter decode e p.site (ms.take k) m)).reduceOption ∧
      ∀ reason, (malformed reason).statusCode = statusBadRequest ∧
        (malformed reason).body? = some ⟨"Invalid evaluation request: " ++ reason, []⟩ := by
  refine ⟨?_, ?_, malformed_spec⟩
  · induction ms generalizing p with
    | nil => rfl
    | cons m ms ih =>
      rw [evaluateAll_requestsIn_cons, ← (handle_post decode e b m p).1]
      exact ih (handle decode (Post.evaluator e) (Post.bus b) m p).2
  · induction ms generalizing p with
    | nil => exact (List.append_nil _).symm
    | cons m ms ih =>
      obtain ⟨hsite, hreplies⟩ := handle_post decode e b m p
      have hrest := ih (handle decode (Post.evaluator e) (Post.bus b) m p).2
      rw [hsite, hreplies, List.append_assoc] at hrest
      refine hrest.trans ?_
      rw [List.mapIdx_cons, List.take_zero]
      simp only [List.take_succ_cons, answerAfter_cons]
      cases m.replyTo with
      | none => rw [Option.map_none, List.reduceOption_cons_of_none]; rfl
      | some subject => rw [Option.map_some, List.reduceOption_cons_of_some]; rfl

end Run

end Messaging

end Firewall
