import Vumi2.ApiErrors
import Vumi2.Messages

/-!
# The messages of the Turn Channels API

`TurnOutboundMessage`, its conversion to a vumi message, and what is sent to Turn. `deserialise`
checks which members a request has and never their types, so the fields hold any JSON value.
-/

namespace Vumi2

open Effect Text

/-- What the program takes from its libraries. -/
structure Library where
  /-- `hmac.new(key, msg, sha256).digest()`. -/
  hmacSha256 : Bytes → Bytes → Bytes
  /-- `json.loads(s)`. -/
  loads : Str → Except PyExc Json
  /-- The text that cattrs structures a value to: `str(value)`. -/
  structureStr : Json → Str
  /-- `str` of a text is the text. -/
  structureStr_string : ∀ s, structureStr (.string s) = s

/-- The libraries as they behave on one request, with this digest and this body. -/
def Library.onRequest (digest : Bytes) (body : Json) : Library where
  hmacSha256 _ _ := digest
  loads _ := .ok body
  structureStr
    | .string s => s
    | _ => []
  structureStr_string _ := rfl

/-- `key in data`. -/
def keyIn (key : String) : Json → Except PyExc Bool
  | .object ms => .ok (Json.Members.get? ms (str key)).isSome
  | .string s => .ok (s.tails.any fun t => t.take (str key).length = str key)
  | .array l => .ok (l.any fun v => match v with | .string s => s = str key | _ => false)
  | _ => .error .typeError

/-- `data[key]`. -/
def itemOf (key : String) : Json → Except PyExc Json
  | .object ms =>
    match Json.Members.get? ms (str key) with
    | some v => .ok v
    | none => .error .keyError
  | _ => .error .typeError

/-- A key that the object has is in it. -/
theorem keyIn_of_get? {ms : Json.Members} {key : String} {v : Json}
    (h : Json.Members.get? ms (str key) = some v) : keyIn key (.object ms) = .ok true := by
  show Except.ok (Json.Members.get? ms (str key)).isSome = _
  rw [h]
  rfl

/-- A key that the object has gives its value. -/
theorem itemOf_of_get? {ms : Json.Members} {key : String} {v : Json}
    (h : Json.Members.get? ms (str key) = some v) : itemOf key (.object ms) = .ok v := by
  show (match Json.Members.get? ms (str key) with
    | some v => Except.ok v
    | none => Except.error PyExc.keyError) = _
  rw [h]

/-- `Session(value)`. -/
def Session.ofJson : Json → Except PyExc Session
  | .null => .ok .none
  | .string s =>
    if s = str "new" then .ok .new
    else if s = str "resume" then .ok .resume
    else if s = str "close" then .ok .close
    else .error .valueError
  | _ => .error .valueError

/-- `TurnOutboundMessage`. -/
structure TurnOutboundMessage where
  content : Json
  /-- The field `to`. -/
  to_addr : Json
  from_addr : Option Str
  reply_to : Json
  priority : ℤ
  waiting_for_user_input : Json
  channel_data : Json.Members
  /-- `__attrs_post_init__` accepted the message. -/
  addressed : (to_addr.isNone && reply_to.isNone) = false

namespace TurnOutboundMessage

/-- `TurnOutboundMessage(...)`, with its `__attrs_post_init__`. -/
def create (content to_addr : Json) (from_addr : Option Str) (reply_to : Json) (priority : ℤ)
    (waiting_for_user_input : Json) (channel_data : Json.Members) :
    Except PyExc TurnOutboundMessage :=
  if h : (to_addr.isNone && reply_to.isNone) = false then
    .ok ⟨content, to_addr, from_addr, reply_to, priority, waiting_for_user_input, channel_data, h⟩
  else .error (apiUsageError "Either \"to\" or \"reply_to\" must be specified")

/-- `if key not in data: raise ApiUsageError(f"Missing key: path")`. -/
def require (key path : String) (data : Json) : Except PyExc Unit := do
  let present ← keyIn key data
  if present = true then .ok () else .error (apiUsageError ("Missing key: " ++ path))

/-- `TurnOutboundMessage.deserialise`. -/
def deserialise (data : Json.Members) (default_from : Option Str) :
    Except PyExc TurnOutboundMessage := do
  require "context" "context" (.object data)
  require "turn" "turn" (.object data)
  require "to" "to" (.object data)
  let turn ← itemOf "turn" (.object data)
  require "text" "turn.text" turn
  let text ← itemOf "text" turn
  require "body" "turn.text.body" text
  let body ← itemOf "body" text
  let to_addr ← itemOf "to" (.object data)
  create body to_addr default_from (Json.Members.getD data (str "reply_to") (.string [])) 1
    (Json.Members.getD data (str "waiting_for_user_input") (.bool false)) []

variable (tom : TurnOutboundMessage)

/-- `Session.RESUME if self.waiting_for_user_input else Session.CLOSE`. -/
def sessionEvent : Session := if tom.waiting_for_user_input.truthy = true then .resume else .close

/-- What `_shared_vumi_fields` returns: a field is absent where the popped value was `None`. -/
structure SharedFields where
  helper_metadata : Json.Members
  continue_session : Option Json
  session_event : Option Json

/-- `_shared_vumi_fields`. -/
def sharedVumiFields : SharedFields :=
  let (continue_session, metadata) := Json.Members.pop tom.channel_data (str "continue_session")
  let (session_event, metadata) := Json.Members.pop metadata (str "session_event")
  ⟨metadata, if continue_session.isNone then none else some continue_session,
    if session_event.isNone then none else some session_event⟩

/-- The keyword arguments that `reply_to_vumi` passes on to `reply`. -/
def replyKwargs : List Message.Kwarg :=
  .helper_metadata tom.sharedVumiFields.helper_metadata ::
    match tom.sharedVumiFields.continue_session with
    | some _ => [.unknown (str "continue_session")]
    | none => []

/-- `reply_to_vumi`. A session event from the channel data is a second value for the keyword. -/
def replyToVumi (in_msg : Message) (r : Reading) : Except PyExc Message :=
  match tom.sharedVumiFields.session_event with
  | some _ => .error .typeError
  | none => in_msg.reply tom.content tom.sessionEvent tom.replyKwargs r

/-- `to_vumi`. A session event from the channel data takes the place of the other one, and
`Message.deserialise` ignores members that are no fields. -/
def toVumi (lib : Library) (transport_name : Str) (transport_type : TransportType) (r : Reading) :
    Except PyExc Message := do
  let session_event ←
    match tom.sharedVumiFields.session_event with
    | some v => Session.ofJson v
    | none => .ok tom.sessionEvent
  .ok
    { Message.create (lib.structureStr tom.to_addr)
        (lib.structureStr (tom.from_addr.elim .null .string))
        transport_name transport_type r with
      content := if tom.content.isNone then .null else .string (lib.structureStr tom.content)
      session_event := session_event
      helper_metadata := tom.sharedVumiFields.helper_metadata }

end TurnOutboundMessage

/-- `turn_inbound_from_msg`. -/
def turnInboundFromMsg (message : Message) : Json :=
  .object
    [(str "contact",
      .object
        [(str "id", .string message.from_addr),
          (str "profile", .object [(str "name", .string message.from_addr)])]),
      (str "message",
        .object
          [(str "type", .string (str "text")),
            (str "text", .object [(str "body", message.content)]),
            (str "from", .string message.from_addr),
            (str "id", .string message.message_id),
            (str "timestamp", .string (str (toString message.timestamp.timestamp)))])]

/-- `turn_outbound_from_msg`. -/
def turnOutboundFromMsg (message : Message) : Json :=
  .object [(str "messages", .array [.object [(str "id", .string message.message_id)]])]

/-- The status of an event for Turn. -/
def turnStatus (event : Event) : Json :=
  match event.event_type with
  | .delivery_report =>
    match event.delivery_status with
    | some .pending => .string (str "sent")
    | some .failed => .string (str "failed")
    | some .delivered => .string (str "delivered")
    | none => .null
  | .nack => .string (str "failed")
  | .ack => .string (str "sent")

/-- `turn_event_from_ev`. -/
def turnEventFromEv (event : Event) (outbound : Message) : Json :=
  .object
    [(str "status",
      .object
        [(str "id", .string event.user_message_id),
          (str "timestamp", .string (str (toString event.timestamp.timestamp))),
          (str "status", turnStatus event),
          (str "recipient_id", .string outbound.to_addr)])]

end Vumi2
