import Vumi2.Lib.Dict
import Vumi2.Messages

/-!
# The HTTP-RPC and AAT USSD transports

What they do with an outbound message: it answers the HTTP request that it is a reply to, and an
event says whether it did. `inbound_request`, which waits for the answer, is on the other side of
`finish_request`: it waits for the event of its request, and takes its result.
-/

namespace Vumi2

open Effect Eff Text

/-- `Request`. -/
structure HttpRequest where
  method : Str
  headers : List (Str × Str)
  args : List (Str × Str)
  data : Str

/-- The data of a response: a value, or octets. -/
inductive ResponseData where
  | value (v : Json)
  | bytes (bs : Bytes)

/-- `Response`. -/
structure HttpResponse where
  data : ResponseData
  code : ℕ
  headers : List (Str × Str)

/-- `HttpRpcTransport`. -/
structure HttpRpcTransport where
  requests : Dict Str HttpRequest
  results : Dict Str HttpResponse
  /-- The requests whose `event` was set. -/
  woken : List Str
  /-- The events that were published through the connector. -/
  events : List Event

namespace HttpRpcTransport

/-- `ensure_message_fields`, by the names of the fields and whether each has a value. -/
def ensureMessageFields (expected_fields : List (Str × Bool)) : List Str :=
  (expected_fields.filter fun f => f.2 = false).map Prod.fst

/-- `self.connector.publish_event(event)`. -/
def publishEvent (event : Event) : Py HttpRpcTransport Unit :=
  modify fun t => { t with events := t.events ++ [event] }

/-- `publish_nack`. -/
def publishNack (message_id reason : Str) : Py HttpRpcTransport Unit := do
  let r ← read
  publishEvent (Event.nack message_id message_id reason r)

/-- `publish_ack`. -/
def publishAck (message_id : Str) : Py HttpRpcTransport Unit := do
  let r ← read
  publishEvent (Event.ack message_id message_id r)

/-- `finish_request`, with the default code and headers. The result is stored before the request is
looked up. -/
def finishRequest (request_id : Str) (data : ResponseData) : Py HttpRpcTransport Unit := do
  modify fun t => { t with results := t.results.set request_id ⟨data, 200, []⟩ }
  let t ← get
  match t.requests.get? request_id with
  | some _ =>
    modify fun t =>
      { t with requests := t.requests.erase request_id, woken := t.woken ++ [request_id] }
  | none => raise .keyError

/-- `HttpRpcTransport.handle_outbound_message`. -/
def handleOutboundMessage (message : Message) : Py HttpRpcTransport Unit := do
  let in_reply_to := message.in_reply_to.getD []
  if in_reply_to = [] ∨ message.content.truthy = false then
    publishNack message.message_id
      (str "Missing fields: " ++ (str ", ").intercalate (ensureMessageFields
        [(str "in_reply_to", decide (in_reply_to ≠ [])), (str "content", message.content.truthy)]))
  else do
    let t ← get
    if (t.requests.get? in_reply_to).isNone = true then
      publishNack message.message_id (str "No matching request")
    else do
      finishRequest in_reply_to (.value message.content)
      publishAck message.message_id

end HttpRpcTransport

namespace AatUssdTransport

open HttpRpcTransport

/-- `AatUssdTransport.handle_outbound_message`; `body` is `generate_body`, applied to the content,
the callback URL for the sender, and the session event of a message. -/
def handleOutboundMessage (body : Message → Except PyExc Bytes) (message : Message) :
    Py HttpRpcTransport Unit := do
  let in_reply_to := message.in_reply_to.getD []
  if in_reply_to = [] then
    publishNack message.message_id (str "Outbound message is not a reply")
  else if message.content.truthy = false then
    publishNack message.message_id (str "Outbound message has no content")
  else do
    let body ← ofExcept (body message)
    finishRequest in_reply_to (.bytes body)
    publishAck message.message_id

end AatUssdTransport

end Vumi2
