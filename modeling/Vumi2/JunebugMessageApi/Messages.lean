import Vumi2.ApiErrors
import Vumi2.Wire

/-!
# The messages of the Junebug HTTP message API

`JunebugOutboundMessage`, how a request is structured to one, and the two ways in which it becomes a
vumi message. `to_vumi` structures a dictionary; `reply_to_vumi` calls `Message.reply`, which calls
the constructor of `Message`, and so stores a session event from the channel data as it is
(`BuiltMessage`).
-/

namespace Vumi2

open Effect Text Attrs Wire

/-- What `json.loads` may raise: a `JSONDecodeError`, or another exception, as for an integer of too
many digits. -/
inductive LoadsError where
  | decode (text : Str)
  | other

/-- What the program takes from its libraries to read a request. -/
structure JunebugLibrary extends Conversions where
  /-- `int(value)`, for a value that is no integer, if it does not raise. -/
  toInt : Json → Option ℤ
  /-- `next(iter(names))`, for a set of names. -/
  firstOf : List Str → Str
  /-- `request.get_data(as_text=True)`, for a body of these octets, if they can be decoded. -/
  asText : Bytes → Option Str
  /-- `json.loads(s)`. -/
  loads : Str → Except LoadsError Json

/-- The libraries as they behave on one request, with this body. -/
def JunebugLibrary.onRequest (body : Json) : JunebugLibrary where
  toStr
    | .null => str "None"
    | _ => []
  toDict _ := .error .typeError
  floatRepr := id
  toInt _ := none
  firstOf names := names.headD []
  asText bs := some (bs.map ofByte)
  loads _ := .ok body

/-- What `Message(...)` makes when its `session_event` is given as it came: the constructor does not
check it. -/
structure BuiltMessage where
  /-- The fields. Its session event is that of the message only if there is no other one. -/
  message : Message
  /-- The value that `session_event` holds instead of a `Session`. -/
  raw_session_event : Option Json

namespace BuiltMessage

/-- A message whose fields are of their types. -/
def ofMessage (m : Message) : BuiltMessage := ⟨m, none⟩

/-- The `Session` that the message holds. -/
def sessionEvent (m : BuiltMessage) : Option Session :=
  match m.raw_session_event with
  | none => some m.message.session_event
  | some _ => none

/-- `Message.serialise`. Only a `Session` has a `value`. -/
def serialise (m : BuiltMessage) : Except PyExc Json.Members :=
  match m.raw_session_event with
  | none => .ok m.message.serialise
  | some _ => .error .attributeError

end BuiltMessage

/-- `junebug_inbound_from_msg`, of a serialised message. -/
def junebugInboundFromMsg (vumi_dict : Json.Members) (channel_id : Str) : Json :=
  .object
    [(str "to", vumi_dict.getD (str "to_addr") .null),
      (str "from", vumi_dict.getD (str "from_addr") .null),
      (str "group", vumi_dict.getD (str "group") .null),
      (str "message_id", vumi_dict.getD (str "message_id") .null),
      (str "channel_id", .string channel_id),
      (str "timestamp", vumi_dict.getD (str "timestamp") .null),
      (str "reply_to", vumi_dict.getD (str "in_reply_to") .null),
      (str "content", vumi_dict.getD (str "content") .null),
      (str "channel_data",
        match vumi_dict.getD (str "helper_metadata") .null with
        | .object metadata =>
          if (vumi_dict.getD (str "session_event") .null).isNone = true then .object metadata
          else .object (Json.Members.set metadata (str "session_event")
            (vumi_dict.getD (str "session_event") .null))
        | v => v)]

/-- `junebug_outbound_from_msg`. -/
def junebugOutboundFromMsg (vumi_dict : Json.Members) (channel_id : Str) : Json :=
  junebugInboundFromMsg vumi_dict channel_id

/-- The member `event_type` of an event for Junebug. -/
def junebugEventType (event : Event) : Json :=
  match event.event_type with
  | .ack => .string (str "submitted")
  | .nack => .string (str "rejected")
  | .delivery_report =>
    match event.delivery_status with
    | some .pending => .string (str "delivery_pending")
    | some .failed => .string (str "delivery_failed")
    | some .delivered => .string (str "delivery_succeeded")
    | none => .null

/-- The member `event_details`. -/
def junebugEventDetails (event : Event) : Json.Members :=
  match event.event_type with
  | .nack => [(str "reason", event.nack_reason.elim .null .string)]
  | _ => []

/-- `junebug_event_from_ev`. -/
def junebugEventFromEv (event : Event) (channel_id : Str) : Json :=
  .object
    [(str "message_id", event.serialise.getD (str "user_message_id") .null),
      (str "channel_id", .string channel_id),
      (str "timestamp", event.serialise.getD (str "timestamp") .null),
      (str "event_details", .object (junebugEventDetails event)),
      (str "event_type", junebugEventType event)]

/-- `JunebugOutboundMessage`. -/
structure JunebugOutboundMessage where
  content : Str
  /-- The field `to`. -/
  to_addr : Option Str
  from_addr : Option Str
  group : Option Str
  reply_to : Option Str
  event_url : Option Str
  event_auth_token : Option Str
  priority : ℤ
  channel_data : Json.Members
  /-- `__attrs_post_init__` accepted the message. -/
  addressed : (to_addr.isNone && reply_to.isNone) = false

namespace JunebugOutboundMessage

/-- `JunebugOutboundMessage(...)`, with its `__attrs_post_init__`. -/
def create (content : Str)
    (to_addr from_addr group reply_to event_url event_auth_token : Option Str)
    (priority : ℤ) (channel_data : Json.Members) : Except PyExc JunebugOutboundMessage :=
  if h : (to_addr.isNone && reply_to.isNone) = false then
    .ok ⟨content, to_addr, from_addr, group, reply_to, event_url, event_auth_token, priority,
      channel_data, h⟩
  else .error (apiUsageError "Either \"to\" or \"reply_to\" must be specified")

section

variable (lib : JunebugLibrary)

/-- `int(value)`. An `OverflowError` is not told apart from a `ValueError`. -/
def intOf (v : Json) : Except PyExc ℤ :=
  match lib.toInt v, v with
  | some n, _ => .ok n
  | none, .null => .error .typeError
  | none, .array _ => .error .typeError
  | none, .object _ => .error .typeError
  | none, _ => .error .valueError

/-- `dict[str, Any]`: the hook iterates over `items()`, which only a dictionary has. -/
def channelData : Hook PyExc Json.Members := .dict fun _ => .error .attributeError

/-- The fields of the class, with their defaults; `from_addr` is the member `from`. -/
def fields : Fields PyExc JunebugOutboundMessage (Except PyExc JunebugOutboundMessage) :=
  (Fields.pure create)
    |>.ap (required "content" (text lib.toConversions) content)
    |>.ap (defaulted "to" (text lib.toConversions).optional none to_addr)
    |>.ap (defaulted "from" (text lib.toConversions).optional none from_addr)
    |>.ap (defaulted "group" (text lib.toConversions).optional none group)
    |>.ap (defaulted "reply_to" (text lib.toConversions).optional none reply_to)
    |>.ap (defaulted "event_url" (text lib.toConversions).optional none event_url)
    |>.ap (defaulted "event_auth_token" (text lib.toConversions).optional none event_auth_token)
    |>.ap (defaulted "priority" (.int (intOf lib)) 1 priority)
    |>.ap (defaulted "channel_data" channelData [] channel_data)

/-- The names of the members. -/
def memberNames : List Str :=
  [str "content", str "to", str "from", str "group", str "reply_to", str "event_url",
    str "event_auth_token", str "priority", str "channel_data"]

/-- `st_hook`. An exception of the constructor is wrapped as those of the fields are. -/
def structureHook (data : Json.Members) :
    Except (List (Option Str × PyExc)) JunebugOutboundMessage :=
  match ((fields lib).only memberNames .forbiddenExtraKeysError).read data with
  | .ok (.ok jom) => .ok jom
  | .ok (.error e) => .error [(none, e)]
  | .error es => .error es

/-- What `deserialise` raises for the exceptions that cattrs has collected: the first of them,
translated if it is about members that are no fields. -/
def reraise : List (Option Str × PyExc) → PyExc
  | (_, .forbiddenExtraKeysError extra_fields) :: _ =>
    .apiError "InvalidBody"
      [str "Additional properties are not allowed (u'" ++ lib.firstOf extra_fields ++
        str "' was unexpected)"]
  | (_, e) :: _ => e
  | [] => .classValidationError

/-- The data with `from` set to its default. -/
def withFrom (data : Json.Members) (default_from : Option Str) : Json.Members :=
  if (data.getD (str "from") .null).isNone = true then
    data.set (str "from") (default_from.elim .null .string)
  else data

/-- `JunebugOutboundMessage.deserialise`. Only a dictionary has a method `get`. -/
def deserialise (data : Json) (default_from : Option Str) : Except PyExc JunebugOutboundMessage :=
  match data with
  | .object ms => (structureHook lib (withFrom ms default_from)).mapError (reraise lib)
  | _ => .error .attributeError

end

variable (jom : JunebugOutboundMessage)

/-- What `_shared_vumi_fields` returns: a field is absent where the popped value was `None`. -/
structure SharedFields where
  helper_metadata : Json.Members
  continue_session : Option Json
  session_event : Option Json

/-- The members that `**self._shared_vumi_fields()` adds to a dictionary. -/
def SharedFields.members (shared : SharedFields) : Json.Members :=
  (str "helper_metadata", .object shared.helper_metadata) ::
    ((shared.continue_session.elim [] fun v => [(str "continue_session", v)]) ++
      shared.session_event.elim [] fun v => [(str "session_event", v)])

/-- A popped value, if it is not `None`. -/
def present (value : Json) : Option Json := if value.isNone = true then none else some value

/-- `_shared_vumi_fields`. -/
def sharedVumiFields : SharedFields :=
  ⟨(Json.Members.pop (Json.Members.pop jom.channel_data (str "continue_session")).2
      (str "session_event")).2,
    present (Json.Members.pop jom.channel_data (str "continue_session")).1,
    present (Json.Members.pop (Json.Members.pop jom.channel_data (str "continue_session")).2
      (str "session_event")).1⟩

/-- The dictionary that `to_vumi` makes. cattrs structures a `TransportType` to itself, as it does
its value. -/
def vumiData (transport_name : Str) (transport_type : TransportType) : Json.Members :=
  [(str "to_addr", jom.to_addr.elim .null .string),
    (str "from_addr", jom.from_addr.elim .null .string),
    (str "group", jom.group.elim .null .string),
    (str "content", .string jom.content),
    (str "transport_name", .string transport_name),
    (str "transport_type", transportType.unstructure transport_type)] ++
    jom.sharedVumiFields.members

/-- `to_vumi`. -/
def toVumi (py : Conversions) (transport_name : Str) (transport_type : TransportType)
    (r : Reading) : Except PyExc Message :=
  (Message.deserialise py r (jom.vumiData transport_name transport_type)).mapError
    fun _ => .classValidationError

/-- The keyword arguments that `reply_to_vumi` passes on to `reply`, but for `session_event`. -/
def replyKwargs : List Message.Kwarg :=
  .helper_metadata jom.sharedVumiFields.helper_metadata ::
    jom.sharedVumiFields.continue_session.elim [] fun _ => [.unknown (str "continue_session")]

/-- `reply_to_vumi`. A session event from the channel data is passed on as it is. -/
def replyToVumi (in_msg : Message) (r : Reading) : Except PyExc BuiltMessage :=
  (in_msg.reply (.string jom.content) .resume jom.replyKwargs r).map fun m =>
    ⟨m, jom.sharedVumiFields.session_event⟩

/-! ## What the two make -/

/-- What is left of the channel data. -/
def metadataLeft : Json.Members :=
  jom.channel_data.filter fun m => m.1 ≠ str "continue_session" ∧ m.1 ≠ str "session_event"

/-- The helper metadata of a message is what the named keys leave of the channel data. -/
theorem helper_metadata_eq : jom.sharedVumiFields.helper_metadata = jom.metadataLeft := by
  unfold sharedVumiFields metadataLeft Json.Members.pop
  dsimp only
  rw [List.filter_filter]
  refine List.filter_congr fun m _ => ?_
  rw [Bool.and_comm]
  simp

/-- Taking the one value out leaves the other. -/
theorem getD_pop_of_ne (ms : Json.Members) {name other : Str} (h : other ≠ name) :
    Json.Members.get? (Json.Members.pop ms name).2 other = Json.Members.get? ms other := by
  unfold Json.Members.pop Json.Members.get?
  rw [List.find?_filter]
  congr 2
  funext m
  by_cases hm : m.1 = other
  · simp [hm, h]
  · simp [hm]

/-- Whether the session continues is asked of the channel data. -/
theorem continue_session_eq : jom.sharedVumiFields.continue_session =
    present (Json.Members.getD jom.channel_data (str "continue_session") .null) := rfl

/-- The session event is asked of the channel data. -/
theorem session_event_eq : jom.sharedVumiFields.session_event =
    present (Json.Members.getD jom.channel_data (str "session_event") .null) := by
  unfold sharedVumiFields
  dsimp only
  rw [show ∀ ms : Json.Members, (Json.Members.pop ms (str "session_event")).1 =
    Json.Members.getD ms (str "session_event") .null from fun _ => rfl]
  unfold Json.Members.getD
  rw [getD_pop_of_ne _ (by decide)]

end JunebugOutboundMessage

end Vumi2
