import Vumi2.JunebugMessageApi.Messages
import Vumi2.JunebugMessageApi.StateCache

/-!
# The Junebug HTTP message API worker

`http_send_message`, with `build_outbound` and `_response`. What the worker publishes is appended to
a list: the broker takes every message that can be serialised. The identifier that
`http_send_message` generates first is never used, and is left out here.
-/

namespace Vumi2

open Effect Eff Text

/-- `JunebugMessageApiConfig`, as far as `http_send_message` uses it. -/
structure JunebugMessageApiConfig where
  connector_name : Str
  transport_type : TransportType
  default_from_addr : Option Str
  allow_expired_replies : Bool

/-- A response of `http_send_message`; the body is the document that `json.dumps` writes. -/
structure ApiResponse where
  body : Json
  status : ℕ
  headers : List (Str × Str)

/-- `JunebugMessageApi`. -/
structure JunebugMessageApi where
  state_cache : MemoryJunebugStateCache
  /-- What was published through the connector. -/
  published : List Message

namespace JunebugMessageApi

/-- A computation on the state cache. -/
def onStateCache {α : Type} (m : Py MemoryJunebugStateCache α) : Py JunebugMessageApi α :=
  on state_cache (fun w c => { w with state_cache := c }) m

/-- `self.connector.publish_outbound(message)`: the message is serialised first. -/
def publishOutbound (msg : BuiltMessage) : Py JunebugMessageApi Unit := do
  let _ ← ofExcept msg.serialise
  modify fun w => { w with published := w.published ++ [msg.message] }

variable (lib : JunebugLibrary) (config : JunebugMessageApiConfig)

/-- The message for a request that is no reply. -/
def buildNew (jom : JunebugOutboundMessage) : Py JunebugMessageApi BuiltMessage := do
  let r ← read
  ofExcept ((jom.toVumi lib.toConversions config.connector_name config.transport_type r).map
    BuiltMessage.ofMessage)

/-- `MessageNotFound(f"Inbound message with id {msg_id} not found")`. -/
def messageNotFound (msg_id : Str) : PyExc :=
  .apiError "MessageNotFound" [str "Inbound message with id " ++ msg_id ++ str " not found"]

/-- The message for a request that names this inbound message, once that was looked up. -/
def buildReply (jom : JunebugOutboundMessage) (msg_id : Str) :
    Option Message → Py JunebugMessageApi BuiltMessage
  | some inbound => do
    let r ← read
    ofExcept (jom.replyToVumi inbound r)
  | none =>
    if jom.to_addr.isNone = true ∨ config.allow_expired_replies = false then
      raise (messageNotFound msg_id)
    else buildNew lib config jom

/-- `build_outbound`. -/
def buildOutbound (jom : JunebugOutboundMessage) : Py JunebugMessageApi BuiltMessage :=
  match jom.reply_to with
  | some msg_id => do
    let inbound ← onStateCache (MemoryJunebugStateCache.fetchInbound lib.toConversions msg_id)
    buildReply lib config jom msg_id inbound
  | none => buildNew lib config jom

/-- `_response`. -/
def response (description : Str) (data : Json) (status : HttpStatus) : ApiResponse where
  body := .object
    [(str "status", .int status.value), (str "code", .string status.phrase),
      (str "description", .string description), (str "result", data)]
  status := status.value
  headers := [(str "Content-Type", str "application/json")]

/-- The storing of the URL for the events of a message, if the request has one. -/
def storeEventUrl (jom : JunebugOutboundMessage) (message_id : Str) : Py JunebugMessageApi Unit :=
  match jom.event_url with
  | some url =>
    onStateCache (MemoryJunebugStateCache.storeEventHttpInfo message_id url jom.event_auth_token)
  | none => pure ()

/-- `http_send_message` from `build_outbound` on. -/
def sendOutbound (jom : JunebugOutboundMessage) : Py JunebugMessageApi ApiResponse := do
  let msg ← buildOutbound lib config jom
  storeEventUrl jom msg.message.message_id
  publishOutbound msg
  let vumi_dict ← ofExcept msg.serialise
  pure (response (str "message submitted") (junebugOutboundFromMsg vumi_dict config.connector_name)
    .created)

/-- What is raised for an exception of `json.loads`. -/
def loadsRaises : LoadsError → PyExc
  | .decode text => jsonDecodeError (.jsonDecodeError text)
  | .other => jsonDecodeError .valueError

/-- `http_send_message` up to `build_outbound`: what the body of the request is read as. -/
def readRequest (body : Bytes) : Except PyExc JunebugOutboundMessage :=
  match lib.asText body with
  | none => .error .unicodeDecodeError
  | some text =>
    match lib.loads text with
    | .error e => .error (loadsRaises e)
    | .ok msg_dict => JunebugOutboundMessage.deserialise lib msg_dict config.default_from_addr

/-- The response for an `ApiError` of a class. -/
def errorResponse (cls : String) (args : List Str) : ApiResponse :=
  response (ApiErrorClass.named cls).description
    (.object [(str "errors", .array [.object
      [(str "type", .string (ApiErrorClass.named cls).name),
        (str "message", .string (excText args))]])])
    (ApiErrorClass.named cls).status

/-- `http_send_message`. -/
def httpSendMessage (body : Bytes) : Py JunebugMessageApi ApiResponse :=
  catching
    (do
      let jom ← ofExcept (readRequest lib config body)
      sendOutbound lib config jom)
    fun e =>
      match e with
      | .apiError cls args => pure (errorResponse cls args)
      | e => raise e

end JunebugMessageApi

end Vumi2
