import Vumi2.HttpRpc.Transport

/-!
# How the HTTP transports answer an outbound message

`handle_outbound_message` changes the requests and the results at once, and then waits while it
publishes an event. So it is cut in two here: what it does up to its await, with what it is going to
publish (`Verdict`), and the publishing. `run_handleOutboundMessage` and
`run_aatUssd_handleOutboundMessage` say that the two parts are the whole.

The AAT USSD transport does not look for the request before it stores the result. So a reply to a
request that is not pending leaves a result behind, and raises (`rejectsCleanly_iff`).
-/

namespace Vumi2

open Effect Eff Text

/-- What `handle_outbound_message` has come to when it is about to publish an event. -/
inductive Verdict where
  | ack
  | nack (reason : Str)
  /-- It has raised, and publishes nothing. -/
  | raised (e : PyExc)

namespace HttpRpcTransport

/-- The transport after `finish_request` for a request that is pending. -/
def finished (t : HttpRpcTransport) (request_id : Str) (response : HttpResponse) :
    HttpRpcTransport :=
  { t with
    results := t.results.set request_id response
    requests := t.requests.erase request_id
    woken := t.woken ++ [request_id] }

/-- The transport after `finish_request` for any other request. -/
def leftBehind (t : HttpRpcTransport) (request_id : Str) (response : HttpResponse) :
    HttpRpcTransport :=
  { t with results := t.results.set request_id response }

/-- The identifier of the request that a message replies to. -/
def replyTo (message : Message) : Str := message.in_reply_to.getD []

/-- `finish_request`, and what follows it in `handle_outbound_message` up to the await. -/
def finish (t : HttpRpcTransport) (request_id : Str) (response : HttpResponse) :
    HttpRpcTransport × Verdict :=
  match t.requests.get? request_id with
  | some _ => (t.finished request_id response, .ack)
  | none => (t.leftBehind request_id response, .raised .keyError)

/-- `HttpRpcTransport.handle_outbound_message` up to its await. -/
def answer (message : Message) (t : HttpRpcTransport) : HttpRpcTransport × Verdict :=
  if replyTo message = [] ∨ message.content.truthy = false then
    (t, .nack (str "Missing fields: " ++ (str ", ").intercalate (ensureMessageFields
      [(str "in_reply_to", decide (replyTo message ≠ [])),
        (str "content", message.content.truthy)])))
  else if (t.requests.get? (replyTo message)).isNone = true then
    (t, .nack (str "No matching request"))
  else t.finish (replyTo message) ⟨.value message.content, 200, []⟩

/-- The publishing of the event. -/
def publish (message : Message) (r : Reading) (t : HttpRpcTransport) :
    Verdict → HttpRpcTransport
  | .ack => { t with events := t.events ++ [Event.ack message.message_id message.message_id r] }
  | .nack reason =>
    { t with events := t.events ++ [Event.nack message.message_id message.message_id reason r] }
  | .raised _ => t

/-- The outcome of `handle_outbound_message` when nothing happens meanwhile. -/
def outcome (message : Message) (r : Reading) (a : HttpRpcTransport × Verdict) :
    Outcome PyExc HttpRpcTransport Unit :=
  match a.2 with
  | .raised e => ⟨.error e, 0, a.1⟩
  | _ => ⟨.ok (), 1, publish message r a.1 a.2⟩

/-- An acknowledgement is published with the time of the reading. -/
theorem run_publishAck (message : Message) (env : ℕ → Reading) (t : HttpRpcTransport) :
    (publishAck message.message_id).run env t = outcome message (env 0) (t, .ack) := by
  simp [publishAck, publishEvent, outcome, publish]

/-- A refusal is published with its reason and the time of the reading. -/
theorem run_publishNack (message : Message) (reason : Str) (env : ℕ → Reading)
    (t : HttpRpcTransport) :
    (publishNack message.message_id reason).run env t =
      outcome message (env 0) (t, .nack reason) := by
  simp [publishNack, publishEvent, outcome, publish]

/-- A reply is acknowledged once its request is finished. -/
theorem run_finishRequest_publishAck (message : Message) (request_id : Str) (data : ResponseData)
    (env : ℕ → Reading) (t : HttpRpcTransport) :
    (finishRequest request_id data >>= fun _ => publishAck message.message_id).run env t =
      outcome message (env 0) (t.finish request_id ⟨data, 200, []⟩) := by
  have hlater : later env 0 = env := later_zero env
  unfold finish
  cases hpending : t.requests.get? request_id with
  | none =>
    have hraises : (finishRequest request_id data).run env t =
        ⟨.error .keyError, 0, t.leftBehind request_id ⟨data, 200, []⟩⟩ := by
      simp [finishRequest, hpending, leftBehind]
    rw [run_bind_error hraises]
    rfl
  | some request =>
    have hfinishes : (finishRequest request_id data).run env t =
        ⟨.ok (), 0, t.finished request_id ⟨data, 200, []⟩⟩ := by
      simp [finishRequest, hpending, finished]
    rw [run_bind_ok hfinishes, hlater, run_publishAck]
    rfl

/-- `handle_outbound_message` is its two parts. -/
theorem run_handleOutboundMessage (message : Message) (env : ℕ → Reading) (t : HttpRpcTransport) :
    (handleOutboundMessage message).run env t = outcome message (env 0) (answer message t) := by
  unfold handleOutboundMessage answer replyTo
  dsimp only
  split_ifs with hmissing hnone
  · exact run_publishNack message _ env t
  · rw [run_get_bind, if_pos hnone]
    exact run_publishNack message _ env t
  · rw [run_get_bind, if_neg hnone]
    exact run_finishRequest_publishAck message _ _ env t

end HttpRpcTransport

namespace AatUssdTransport

open HttpRpcTransport

variable (body : Message → Except PyExc Bytes)

/-- `AatUssdTransport.handle_outbound_message` up to its await. -/
def answer (message : Message) (t : HttpRpcTransport) : HttpRpcTransport × Verdict :=
  if replyTo message = [] then (t, .nack (str "Outbound message is not a reply"))
  else if message.content.truthy = false then (t, .nack (str "Outbound message has no content"))
  else
    match body message with
    | .error e => (t, .raised e)
    | .ok bs => t.finish (replyTo message) ⟨.bytes bs, 200, []⟩

/-- `handle_outbound_message` is its two parts. -/
theorem run_aatUssd_handleOutboundMessage (message : Message) (env : ℕ → Reading)
    (t : HttpRpcTransport) :
    (AatUssdTransport.handleOutboundMessage body message).run env t =
      outcome message (env 0) (answer body message t) := by
  unfold AatUssdTransport.handleOutboundMessage answer replyTo
  dsimp only
  split_ifs
  · exact run_publishNack message _ env t
  · exact run_publishNack message _ env t
  · cases body message with
    | error e => rfl
    | ok bs =>
      rw [run_ofExcept_ok_bind]
      exact run_finishRequest_publishAck message _ _ env t

/-- What should come of a reply: exactly one ACK or NACK; and if no request of that identifier is
pending, a NACK, no exception, and no change of the requests and the results. -/
def RejectsCleanly (message : Message) (env : ℕ → Reading) (t : HttpRpcTransport) : Prop :=
  let o := (AatUssdTransport.handleOutboundMessage body message).run env t
  (∃ e : Event, o.state.events = t.events ++ [e] ∧ e.user_message_id = message.message_id ∧
      (e.event_type = .ack ∨ e.event_type = .nack)) ∧
    (t.requests.get? (replyTo message) = none →
      (∃ e : Event, o.state.events = t.events ++ [e] ∧ e.event_type = .nack) ∧
        o.result = .ok () ∧ o.state.requests = t.requests ∧ o.state.results = t.results)

/-- That comes of it exactly if the request is pending, and the body of the response can be
built. -/
theorem rejectsCleanly_iff {message : Message} (hreply : replyTo message ≠ [])
    (hcontent : message.content.truthy = true) (env : ℕ → Reading) (t : HttpRpcTransport) :
    RejectsCleanly body message env t ↔
      replyTo message ∈ t.requests.keys ∧ ∃ bs, body message = .ok bs := by
  -- What raises has published nothing.
  have hnone : ∀ e : Event, t.events ≠ t.events ++ [e] := by
    intro e heq
    have hlen := congrArg List.length heq
    rw [List.length_append, List.length_singleton] at hlen
    omega
  have hanswer : answer body message t =
      match body message with
      | .error e => (t, .raised e)
      | .ok bs => t.finish (replyTo message) ⟨.bytes bs, 200, []⟩ := by
    unfold answer
    rw [if_neg hreply, if_neg (by rw [hcontent]; simp)]
  unfold RejectsCleanly
  dsimp only
  rw [run_aatUssd_handleOutboundMessage, hanswer]
  cases hbody : body message with
  | error e =>
    constructor
    · rintro ⟨⟨event, hevents, -⟩, -⟩
      exact absurd hevents (hnone event)
    · rintro ⟨-, bs, hbs⟩
      cases hbs
  | ok bs =>
    unfold finish
    cases hpending : t.requests.get? (replyTo message) with
    | none =>
      -- The result is stored before the request is looked up, and then it raises.
      constructor
      · rintro ⟨⟨event, hevents, -⟩, -⟩
        exact absurd hevents (hnone event)
      · rintro ⟨hmem, -⟩
        exact absurd hmem (Dict.get?_eq_none.1 hpending)
    | some request =>
      have hmem : replyTo message ∈ t.requests.keys := by
        by_contra hnot
        rw [Dict.get?_eq_none.2 hnot] at hpending
        cases hpending
      refine ⟨fun _ => ⟨hmem, bs, rfl⟩, fun _ => ⟨⟨_, rfl, rfl, .inl rfl⟩, fun h => ?_⟩⟩
      cases h

/-- `generate_body` for a reply of plain ASCII text that closes the session. -/
def closingBody (message : Message) : Except PyExc Bytes :=
  match message.content with
  | .string reply =>
    .ok ((str "<request><headertext>" ++ reply ++ str "</headertext></request>").map toByte)
  | _ => .error .typeError

/-- A reply to a request, which closes the session. -/
def aReply (request_id reply : Str) : Message :=
  { Message.create (str "+27820001001") (str "*120*1#") (str "aat_ussd") .ussd
      ⟨0, str "m", DateTime.min⟩ with
    in_reply_to := some request_id
    session_event := .close
    content := .string reply }

/-- A transport with one request that waits. -/
def waitingTransport : HttpRpcTransport :=
  ⟨Dict.empty.set (str "r") ⟨str "GET", [], [], []⟩, Dict.empty, [], []⟩

/-- A reply to a request that the transport does not know is not rejected cleanly. -/
theorem stale_reply_raises :
    ¬ RejectsCleanly closingBody (aReply (str "s") (str "Hello"))
      (fun _ => ⟨0, str "e", DateTime.min⟩) waitingTransport := by
  rintro ⟨⟨event, hevents, -⟩, -⟩
  have hnone : ([] : List Event) = [event] := hevents
  cases hnone

/-- A reply to a request that waits is. -/
theorem waiting_rejectsCleanly :
    RejectsCleanly closingBody (aReply (str "r") (str "Hello"))
      (fun _ => ⟨0, str "e", DateTime.min⟩) waitingTransport := by
  have hreply : replyTo (aReply (str "r") (str "Hello")) ≠ [] := by
    intro h
    cases h
  have hmem : replyTo (aReply (str "r") (str "Hello")) ∈ waitingTransport.requests.keys :=
    List.mem_singleton.2 rfl
  exact (rejectsCleanly_iff _ hreply rfl _ _).2 ⟨hmem, _, rfl⟩

end AatUssdTransport

end Vumi2
