import Vumi2.HttpRpc.Outbound
import Vumi2.Lib.Machine

/-!
# Requests and replies of the HTTP transports

The calls of `inbound_request` and of `handle_outbound_message`, as a machine. An action is what one
call does between two points at which it may wait, so the runs of the machine are the interleavings.

A call of `inbound_request` waits while it reads its request, in `handle_raw_inbound_message`, and
for its event. It can be interrupted where it waits: the deadline passes, the client disconnects, or
`handle_raw_inbound_message` raises. It can not be once its event was set while it was parked in
`Event.wait`; but a call that comes to an event which is set already still passes a checkpoint. An
interrupted call does not clean up at once: another task may run first.

`HttpRpcTransport` and `AatUssdTransport` differ in what they reply, and in whether they look for
the request first (`Replying`).
-/

namespace Vumi2

open Effect Eff Text HttpRpcTransport

/-- What `handle_outbound_message` makes of a message, apart from the requests. -/
inductive Plan where
  | nack (reason : Str)
  | raised (e : PyExc)
  /-- It calls `finish_request`. -/
  | reply (response : HttpResponse)

/-- A transport's `handle_outbound_message`. -/
structure Replying where
  plan : Message → Plan
  /-- Whether it looks for the request before it calls `finish_request`. -/
  checks : Bool

namespace Replying

/-- `handle_outbound_message` up to its await. -/
def answer (h : Replying) (message : Message) (t : HttpRpcTransport) :
    HttpRpcTransport × Verdict :=
  match h.plan message with
  | .nack reason => (t, .nack reason)
  | .raised e => (t, .raised e)
  | .reply response =>
    if h.checks = true ∧ (t.requests.get? (replyTo message)).isNone = true then
      (t, .nack (str "No matching request"))
    else t.finish (replyTo message) response

/-- Whether `handle_outbound_message` stores a result. -/
def stores (h : Replying) (message : Message) (t : HttpRpcTransport) : Bool :=
  match h.plan message with
  | .reply _ => !(h.checks && (t.requests.get? (replyTo message)).isNone)
  | _ => false

/-- `HttpRpcTransport`. -/
def httpRpc : Replying where
  plan := fun message =>
    if replyTo message = [] ∨ message.content.truthy = false then
      .nack (str "Missing fields: " ++ (str ", ").intercalate (ensureMessageFields
        [(str "in_reply_to", decide (replyTo message ≠ [])),
          (str "content", message.content.truthy)]))
    else .reply ⟨.value message.content, 200, []⟩
  checks := true

/-- `AatUssdTransport`. -/
def aatUssd (body : Message → Except PyExc Bytes) : Replying where
  plan := fun message =>
    if replyTo message = [] then .nack (str "Outbound message is not a reply")
    else if message.content.truthy = false then .nack (str "Outbound message has no content")
    else
      match body message with
      | .error e => .raised e
      | .ok bs => .reply ⟨.bytes bs, 200, []⟩
  checks := false

/-- The general answer of an HTTP RPC transport is its own. -/
theorem answer_httpRpc (message : Message) (t : HttpRpcTransport) :
    httpRpc.answer message t = HttpRpcTransport.answer message t := by
  unfold answer httpRpc HttpRpcTransport.answer
  dsimp only
  by_cases hmissing : replyTo message = [] ∨ message.content.truthy = false
  · rw [if_pos hmissing, if_pos hmissing]
  · rw [if_neg hmissing, if_neg hmissing]
    dsimp only
    by_cases hnone : (t.requests.get? (replyTo message)).isNone = true
    · rw [if_pos hnone, if_pos ⟨rfl, hnone⟩]
    · rw [if_neg hnone, if_neg fun h => hnone h.2]

/-- The answer of an AAT USSD transport is its own, with its body. -/
theorem answer_aatUssd (body : Message → Except PyExc Bytes) (message : Message)
    (t : HttpRpcTransport) :
    (aatUssd body).answer message t = AatUssdTransport.answer body message t := by
  unfold answer aatUssd AatUssdTransport.answer
  dsimp only
  by_cases hreply : replyTo message = []
  · rw [if_pos hreply, if_pos hreply]
  rw [if_neg hreply, if_neg hreply]
  by_cases hcontent : message.content.truthy = false
  · rw [if_pos hcontent, if_pos hcontent]
  rw [if_neg hcontent, if_neg hcontent]
  cases body message with
  | error e => rfl
  | ok bs =>
    have hchecks : ¬(false = true ∧ (t.requests.get? (replyTo message)).isNone = true) := by simp
    dsimp only
    rw [if_neg hchecks]

end Replying

/-- `event.is_set()` of a request. -/
def HttpRpcTransport.isSet (t : HttpRpcTransport) (message_id : Str) : Bool :=
  t.woken.any fun other => other = message_id

/-- The event of a request is set for the ids that were woken. -/
theorem HttpRpcTransport.isSet_iff {t : HttpRpcTransport} {message_id : Str} :
    t.isSet message_id = true ↔ message_id ∈ t.woken := by
  unfold isSet
  simp

/-- How far a call of `inbound_request` has come. -/
inductive InboundStage where
  /-- It reads the data of the request. -/
  | reading
  /-- It waits in `handle_raw_inbound_message`. -/
  | handling
  /-- It is parked in `Event.wait`, which it entered before the event was set. -/
  | parked
  /-- It has entered `Event.wait` after the event was set, and passes its checkpoint. -/
  | passing
  /-- An exception is on its way to it. -/
  | leaving
  /-- It has returned this response, stored by this call of `handle_outbound_message`, or by its own
  `handle_raw_inbound_message`. -/
  | returned (response : HttpResponse) (source : Option ℕ)
  /-- It has returned 504, or raised. -/
  | ended

/-- A call of `inbound_request`. -/
structure InboundCall where
  message_id : Str
  stage : InboundStage

/-- A call of `handle_outbound_message` that has come to its await. -/
structure OutboundCall where
  message : Message
  verdict : Verdict
  /-- Whether it has published its event, and returned. -/
  published : Bool

/-- A transport with the calls of its handlers. -/
structure HttpWorker where
  transport : HttpRpcTransport
  inbound : List InboundCall
  outbound : List OutboundCall
  /-- Which call stored each of the results. -/
  sources : Dict Str (Option ℕ)

/-- An action of a call. -/
inductive HttpAction where
  /-- `inbound_request` is called, and generates an identifier. -/
  | request (message_id : Str)
  /-- It stores the request, and calls `handle_raw_inbound_message`, which may finish the request
  with a response of its own. -/
  | register (i : ℕ) (r : HttpRequest) (rejection : Option HttpResponse)
  /-- `handle_raw_inbound_message` returns, and it comes to its event. -/
  | handled (i : ℕ)
  | interrupt (i : ℕ)
  /-- It goes on after its event, and returns. -/
  | respond (i : ℕ)
  /-- It gets the exception, and ends. -/
  | leave (i : ℕ)
  /-- `handle_outbound_message` is called. -/
  | outbound (message : Message)
  /-- It publishes its event, and returns. -/
  | publish (k : ℕ) (r : Reading)

namespace HttpWorker

/-- A transport that was just set up. -/
def new : HttpWorker := ⟨⟨Dict.empty, Dict.empty, [], []⟩, [], [], Dict.empty⟩

/-- A call of `inbound_request` changes its stage. -/
def setStage (s : HttpWorker) (i : ℕ) (message_id : Str) (stage : InboundStage) : HttpWorker :=
  { s with inbound := s.inbound.set i ⟨message_id, stage⟩ }

/-- The `finally` clause of `inbound_request`. -/
def cleanUp (s : HttpWorker) (message_id : Str) : HttpWorker :=
  { s with
    transport := { s.transport with
      requests := s.transport.requests.erase message_id
      results := s.transport.results.erase message_id }
    sources := s.sources.erase message_id }

/-- `inbound_request` from the reading of the request to the await in
`handle_raw_inbound_message`. -/
def register (s : HttpWorker) (i : ℕ) (r : HttpRequest) (rejection : Option HttpResponse) :
    Option HttpWorker :=
  match s.inbound[i]? with
  | some ⟨message_id, .reading⟩ =>
    let registered := { s.transport with requests := s.transport.requests.set message_id r }
    match rejection with
    | none => some { s.setStage i message_id .handling with transport := registered }
    | some response =>
      some { s.setStage i message_id .handling with
        transport := registered.finished message_id response
        sources := s.sources.set message_id none }
  | _ => none

/-- `inbound_request` from the end of `handle_raw_inbound_message` to its event. -/
def handled (s : HttpWorker) (i : ℕ) : Option HttpWorker :=
  match s.inbound[i]? with
  | some ⟨message_id, .handling⟩ =>
    some (s.setStage i message_id
      (if s.transport.isSet message_id = true then .passing else .parked))
  | _ => none

/-- A call of `inbound_request` is interrupted. -/
def interrupt (s : HttpWorker) (i : ℕ) : Option HttpWorker :=
  match s.inbound[i]? with
  | some ⟨message_id, .reading⟩ => some (s.setStage i message_id .leaving)
  | some ⟨message_id, .handling⟩ => some (s.setStage i message_id .leaving)
  | some ⟨message_id, .passing⟩ => some (s.setStage i message_id .leaving)
  | some ⟨message_id, .parked⟩ =>
    if s.transport.isSet message_id = true then none else some (s.setStage i message_id .leaving)
  | _ => none

/-- `inbound_request` after its event: `self.results.pop(message_id)`, and the return. -/
def takeResult (s : HttpWorker) (i : ℕ) (message_id : Str) : HttpWorker :=
  match s.transport.results.get? message_id with
  | some response =>
    (s.setStage i message_id
      (.returned response ((s.sources.get? message_id).getD none))).cleanUp message_id
  | none => (s.setStage i message_id .ended).cleanUp message_id

/-- `inbound_request` goes on after its event. -/
def respond (s : HttpWorker) (i : ℕ) : Option HttpWorker :=
  match s.inbound[i]? with
  | some ⟨message_id, .parked⟩ =>
    if s.transport.isSet message_id = true then some (s.takeResult i message_id) else none
  | some ⟨message_id, .passing⟩ => some (s.takeResult i message_id)
  | _ => none

/-- `inbound_request` gets its exception. -/
def leave (s : HttpWorker) (i : ℕ) : Option HttpWorker :=
  match s.inbound[i]? with
  | some ⟨message_id, .leaving⟩ => some ((s.setStage i message_id .ended).cleanUp message_id)
  | _ => none

/-- `handle_outbound_message` up to its await. -/
def handleOutbound (h : Replying) (s : HttpWorker) (message : Message) : HttpWorker :=
  { s with
    transport := (h.answer message s.transport).1
    outbound := s.outbound ++ [⟨message, (h.answer message s.transport).2, false⟩]
    sources :=
      if h.stores message s.transport = true then
        s.sources.set (replyTo message) (some s.outbound.length)
      else s.sources }

/-- `handle_outbound_message` from its await on. -/
def publishEvent (s : HttpWorker) (k : ℕ) (r : Reading) : Option HttpWorker :=
  match s.outbound[k]? with
  | some ⟨message, .ack, false⟩ =>
    some { s with
      transport := publish message r s.transport .ack
      outbound := s.outbound.set k ⟨message, .ack, true⟩ }
  | some ⟨message, .nack reason, false⟩ =>
    some { s with
      transport := publish message r s.transport (.nack reason)
      outbound := s.outbound.set k ⟨message, .nack reason, true⟩ }
  | _ => none

/-- The state after an action. -/
def step (h : Replying) (s : HttpWorker) : HttpAction → Option HttpWorker
  | .request message_id =>
    if s.inbound.any (fun call => call.message_id = message_id) = true then none
    else some { s with inbound := s.inbound ++ [⟨message_id, .reading⟩] }
  | .register i r rejection => s.register i r rejection
  | .handled i => s.handled i
  | .interrupt i => s.interrupt i
  | .respond i => s.respond i
  | .leave i => s.leave i
  | .outbound message => some (handleOutbound h s message)
  | .publish k r => s.publishEvent k r

/-! ## What a call can do -/

variable {s s' : HttpWorker} {i : ℕ}

/-- What registering a request does, and when it can. -/
theorem register_cases {r : HttpRequest} {rejection : Option HttpResponse}
    (h : s.register i r rejection = some s') :
    ∃ message_id, s.inbound[i]? = some ⟨message_id, .reading⟩ ∧
      (rejection = none ∧
        s' = { s.setStage i message_id .handling with
          transport := { s.transport with
            requests := s.transport.requests.set message_id r } } ∨
      ∃ response, rejection = some response ∧
        s' = { s.setStage i message_id .handling with
          transport := HttpRpcTransport.finished { s.transport with
            requests := s.transport.requests.set message_id r } message_id response
          sources := s.sources.set message_id none }) := by
  unfold register at h
  split at h
  case h_2 => cases h
  case h_1 message_id hi =>
    cases rejection with
    | none => exact ⟨message_id, hi, .inl ⟨rfl, (Option.some.inj h).symm⟩⟩
    | some response => exact ⟨message_id, hi, .inr ⟨response, rfl, (Option.some.inj h).symm⟩⟩

/-- What a handler does after it published: it passes the wait, or is parked. -/
theorem handled_cases (h : s.handled i = some s') :
    ∃ message_id, s.inbound[i]? = some ⟨message_id, .handling⟩ ∧
      s' = s.setStage i message_id
        (if s.transport.isSet message_id = true then .passing else .parked) := by
  unfold handled at h
  split at h
  case h_2 => cases h
  case h_1 message_id hi => exact ⟨message_id, hi, (Option.some.inj h).symm⟩

/-- A call can be interrupted where it waits, but not once its event was set while it was parked. -/
theorem interrupt_cases (h : s.interrupt i = some s') :
    ∃ (message_id : Str) (stage : InboundStage), s.inbound[i]? = some ⟨message_id, stage⟩ ∧
      (stage = .reading ∨ stage = .handling ∨ stage = .passing ∨ stage = .parked) ∧
      s' = s.setStage i message_id .leaving := by
  unfold interrupt at h
  split at h
  case h_1 message_id hi =>
    exact ⟨message_id, .reading, hi, .inl rfl, (Option.some.inj h).symm⟩
  case h_2 message_id hi =>
    exact ⟨message_id, .handling, hi, .inr (.inl rfl), (Option.some.inj h).symm⟩
  case h_3 message_id hi =>
    exact ⟨message_id, .passing, hi, .inr (.inr (.inl rfl)), (Option.some.inj h).symm⟩
  case h_4 message_id hi =>
    split_ifs at h
    exact ⟨message_id, .parked, hi, .inr (.inr (.inr rfl)), (Option.some.inj h).symm⟩
  case h_5 => cases h

/-- A call goes on after its event once that is set. -/
theorem respond_cases (h : s.respond i = some s') :
    ∃ (message_id : Str) (stage : InboundStage), s.inbound[i]? = some ⟨message_id, stage⟩ ∧
      (stage = .parked ∧ s.transport.isSet message_id = true ∨ stage = .passing) ∧
      s' = s.takeResult i message_id := by
  unfold respond at h
  split at h
  case h_1 message_id hi =>
    split_ifs at h with hset
    exact ⟨message_id, .parked, hi, .inl ⟨rfl, hset⟩, (Option.some.inj h).symm⟩
  case h_2 message_id hi =>
    exact ⟨message_id, .passing, hi, .inr rfl, (Option.some.inj h).symm⟩
  case h_3 => cases h

/-- What leaving a request does, and when it can. -/
theorem leave_cases (h : s.leave i = some s') :
    ∃ message_id, s.inbound[i]? = some ⟨message_id, .leaving⟩ ∧
      s' = (s.setStage i message_id .ended).cleanUp message_id := by
  unfold leave at h
  split at h
  case h_2 => cases h
  case h_1 message_id hi => exact ⟨message_id, hi, (Option.some.inj h).symm⟩

/-- The event of a call says what its verdict is. -/
theorem publishEvent_cases {k : ℕ} {r : Reading} (h : s.publishEvent k r = some s') :
    ∃ (message : Message) (verdict : Verdict) (event : Event),
      s.outbound[k]? = some ⟨message, verdict, false⟩ ∧
      (verdict = .ack ∧ event = Event.ack message.message_id message.message_id r ∨
        ∃ reason, verdict = .nack reason ∧
          event = Event.nack message.message_id message.message_id reason r) ∧
      s' = { s with
        transport := { s.transport with events := s.transport.events ++ [event] }
        outbound := s.outbound.set k ⟨message, verdict, true⟩ } := by
  unfold publishEvent at h
  split at h
  case h_1 message hk =>
    exact ⟨message, .ack, _, hk, .inl ⟨rfl, rfl⟩, (Option.some.inj h).symm⟩
  case h_2 message reason hk =>
    exact ⟨message, .nack reason, _, hk, .inr ⟨reason, rfl, rfl⟩, (Option.some.inj h).symm⟩
  case h_3 => cases h

/-- Taking a result sends nothing. -/
theorem frame_takeResult (s : HttpWorker) (i : ℕ) (message_id : Str) :
    (s.takeResult i message_id).transport.events = s.transport.events ∧
      (s.takeResult i message_id).outbound = s.outbound := by
  unfold takeResult
  cases s.transport.results.get? message_id with
  | none => exact ⟨rfl, rfl⟩
  | some response => exact ⟨rfl, rfl⟩

end HttpWorker

end Vumi2
