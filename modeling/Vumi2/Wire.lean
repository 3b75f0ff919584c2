import Vumi2.Lib.Attrs
import Vumi2.Lib.JsonText
import Vumi2.Messages
import Vumi2.Timestamps

/-!
# Messages and events on the wire

`serialise` and `deserialise` of `messages.py`: an instance is unstructured by cattrs to a
dictionary, with one member for each field, and a dictionary is structured to an instance. Between
two workers a message goes as the JSON document of the dictionary.

Each class is the list of its fields, with the hooks of their types (`Message.fields`,
`Event.fields`). The constructor of `Event` runs its validator when all fields are structured.
-/

namespace Vumi2

open Effect Text Attrs

/-- The conversions of Python that a hook may call on a value that another worker has sent. -/
structure Conversions where
  /-- `str(value)`, for a value that is no text. -/
  toStr : Json → Str
  /-- `dict(value)`, for a value that is no dictionary. -/
  toDict : Json → Except PyExc Json.Members
  /-- `repr(float(text))`. -/
  floatRepr : Str → Str

/-- The value of a session event; the one of `Session.NONE` is `None`. -/
def Session.value : Session → Option Str
  | none => Option.none
  | new => some (str "new")
  | resume => some (str "resume")
  | close => some (str "close")

/-- The members of `Session`, in the order of its class body. -/
def Session.members : List Session := [none, new, resume, close]

/-- The value of a transport type, which is a text. -/
def TransportType.value : TransportType → Option Str
  | http_api => some (str "http_api")
  | irc => some (str "irc")
  | telnet => some (str "telnet")
  | twitter => some (str "twitter")
  | sms => some (str "sms")
  | ussd => some (str "ussd")
  | xmpp => some (str "xmpp")
  | mxit => some (str "mxit")
  | wechat => some (str "wechat")

/-- The members of `TransportType`. -/
def TransportType.members : List TransportType :=
  [http_api, irc, telnet, twitter, sms, ussd, xmpp, mxit, wechat]

/-- The value of an address type. -/
def AddressType.value : AddressType → Option Str
  | irc_nickname => some (str "irc_nickname")
  | twitter_handle => some (str "twitter_handle")
  | msisdn => some (str "msisdn")
  | gtalk_id => some (str "gtalk_id")
  | jabber_id => some (str "jabber_id")
  | mxit_id => some (str "mxit_id")
  | wechat_id => some (str "wechat_id")

/-- The members of `AddressType`. -/
def AddressType.members : List AddressType :=
  [irc_nickname, twitter_handle, msisdn, gtalk_id, jabber_id, mxit_id, wechat_id]

/-- The value of an event type. -/
def EventType.value : EventType → Option Str
  | ack => some (str "ack")
  | nack => some (str "nack")
  | delivery_report => some (str "delivery_report")

/-- The members of `EventType`. -/
def EventType.members : List EventType := [ack, nack, delivery_report]

/-- The value of a delivery status. -/
def DeliveryStatus.value : DeliveryStatus → Option Str
  | pending => some (str "pending")
  | failed => some (str "failed")
  | delivered => some (str "delivered")

/-- The members of `DeliveryStatus`. -/
def DeliveryStatus.members : List DeliveryStatus := [pending, failed, delivered]

namespace Wire

/-! ## Hooks -/

/-- A session event is sent as its value, and looked up by it. -/
def session : Hook PyExc Session := .enum .valueError Session.members Session.value

/-- The hook of `transport_type`. -/
def transportType : Hook PyExc TransportType :=
  .enum .valueError TransportType.members TransportType.value

/-- The hook of an address type. -/
def addressType : Hook PyExc AddressType := .enum .valueError AddressType.members AddressType.value

/-- The hook of `event_type`. -/
def eventType : Hook PyExc EventType := .enum .valueError EventType.members EventType.value

/-- The hook of `delivery_status`. -/
def deliveryStatus : Hook PyExc DeliveryStatus :=
  .enum .valueError DeliveryStatus.members DeliveryStatus.value

/-- The hooks that `messages.py` registers for `datetime`. -/
def timestamp : Hook PyExc DateTime where
  unstructure d := .string (serialiseVumiTimestamp d)
  restructure v :=
    match v with
    | .string s => deserialiseVumiTimestamp s
    | _ => .error .attributeError

section

variable (py : Conversions)

/-- `str`: a value that is no text goes through `str(value)`. -/
def text : Hook PyExc Str := .text py.toStr

/-- `dict`: a value that is no dictionary goes through `dict(value)`. -/
def dict : Hook PyExc Json.Members := .dict py.toDict

/-- `str | None`, for a field that may hold anything. -/
def content : Hook PyExc Json where
  unstructure v := v
  restructure v :=
    match v with
    | .null => .ok .null
    | .string s => .ok (.string s)
    | v => .ok (.string (py.toStr v))

end

/-- A field without a default. -/
def required {ρ α : Type} (name : String) (hook : Hook PyExc α) (get : ρ → α) : Fields PyExc ρ α :=
  .field .keyError (str name) hook none get

/-- A field with a default. -/
def defaulted {ρ α : Type} (name : String) (hook : Hook PyExc α) (default : α) (get : ρ → α) :
    Fields PyExc ρ α :=
  .field .keyError (str name) hook (some default) get

end Wire

open Wire

namespace Message

/-- `Message.serialise`. -/
def serialise (m : Message) : Json.Members :=
  [(str "to_addr", .string m.to_addr),
    (str "from_addr", .string m.from_addr),
    (str "transport_name", .string m.transport_name),
    (str "transport_type", transportType.unstructure m.transport_type),
    (str "message_version", .string m.message_version),
    (str "message_type", .string m.message_type),
    (str "timestamp", Wire.timestamp.unstructure m.timestamp),
    (str "routing_metadata", .object m.routing_metadata),
    (str "helper_metadata", .object m.helper_metadata),
    (str "message_id", .string m.message_id),
    (str "in_reply_to", m.in_reply_to.elim .null .string),
    (str "provider", m.provider.elim .null .string),
    (str "session_event", session.unstructure m.session_event),
    (str "content", m.content),
    (str "transport_metadata", .object m.transport_metadata),
    (str "group", m.group.elim .null .string),
    (str "to_addr_type", addressType.optional.unstructure m.to_addr_type),
    (str "from_addr_type", addressType.optional.unstructure m.from_addr_type)]

variable (py : Conversions) (r : Reading)

/-- The fields of the class, with their defaults. -/
def fields : Fields PyExc Message Message :=
  (Fields.pure Message.mk)
    |>.ap (required "to_addr" (text py) to_addr)
    |>.ap (required "from_addr" (text py) from_addr)
    |>.ap (required "transport_name" (text py) transport_name)
    |>.ap (required "transport_type" transportType transport_type)
    |>.ap (defaulted "message_version" (text py) (str "20110921") message_version)
    |>.ap (defaulted "message_type" (text py) (str "user_message") message_type)
    |>.ap (defaulted "timestamp" Wire.timestamp r.utcnow timestamp)
    |>.ap (defaulted "routing_metadata" (dict py) [] routing_metadata)
    |>.ap (defaulted "helper_metadata" (dict py) [] helper_metadata)
    |>.ap (defaulted "message_id" (text py) r.uuid message_id)
    |>.ap (defaulted "in_reply_to" (text py).optional none in_reply_to)
    |>.ap (defaulted "provider" (text py).optional none provider)
    |>.ap (defaulted "session_event" session .none session_event)
    |>.ap (defaulted "content" (Wire.content py) .null content)
    |>.ap (defaulted "transport_metadata" (dict py) [] transport_metadata)
    |>.ap (defaulted "group" (text py).optional none group)
    |>.ap (defaulted "to_addr_type" addressType.optional none to_addr_type)
    |>.ap (defaulted "from_addr_type" addressType.optional none from_addr_type)

/-- `Message.deserialise`. -/
def deserialise (data : Json.Members) : Except (List (Option Str × PyExc)) Message :=
  (fields py r).read data

/-- The fields of a message are written as `serialise` writes them. -/
theorem write_fields (m : Message) : (fields py r).write m = m.serialise := by
  unfold fields required defaulted
  simp only [Fields.write_ap, Fields.write_field, Fields.write_pure, List.nil_append,
    List.cons_append]
  rfl

end Message

namespace Event

/-- `Event.serialise`. -/
def serialise (e : Event) : Json.Members :=
  [(str "user_message_id", .string e.user_message_id),
    (str "event_type", eventType.unstructure e.event_type),
    (str "message_version", .string e.message_version),
    (str "message_type", .string e.message_type),
    (str "timestamp", Wire.timestamp.unstructure e.timestamp),
    (str "routing_metadata", .object e.routing_metadata),
    (str "helper_metadata", .object e.helper_metadata),
    (str "transport_metadata", e.transport_metadata.elim .null .object),
    (str "event_id", .string e.event_id),
    (str "sent_message_id", e.sent_message_id.elim .null .string),
    (str "nack_reason", e.nack_reason.elim .null .string),
    (str "delivery_status", deliveryStatus.optional.unstructure e.delivery_status)]

/-- `Event(...)`, with its validator. -/
def init (user_message_id : Str) (event_type : EventType) (message_version message_type : Str)
    (timestamp : DateTime) (routing_metadata helper_metadata : Json.Members)
    (transport_metadata : Option Json.Members) (event_id : Str)
    (sent_message_id nack_reason : Option Str) (delivery_status : Option DeliveryStatus) :
    Except PyExc Event :=
  if check : checkEventType event_type sent_message_id nack_reason delivery_status = true then
    .ok ⟨user_message_id, event_type, message_version, message_type, timestamp, routing_metadata,
      helper_metadata, transport_metadata, event_id, sent_message_id, nack_reason, delivery_status,
      check⟩
  else .error .valueError

variable (py : Conversions) (r : Reading)

/-- The fields of the class, with their defaults. -/
def fields : Fields PyExc Event (Except PyExc Event) :=
  (Fields.pure init)
    |>.ap (required "user_message_id" (text py) user_message_id)
    |>.ap (required "event_type" eventType event_type)
    |>.ap (defaulted "message_version" (text py) (str "20110921") message_version)
    |>.ap (defaulted "message_type" (text py) (str "event") message_type)
    |>.ap (defaulted "timestamp" Wire.timestamp r.utcnow timestamp)
    |>.ap (defaulted "routing_metadata" (dict py) [] routing_metadata)
    |>.ap (defaulted "helper_metadata" (dict py) [] helper_metadata)
    |>.ap (defaulted "transport_metadata" (dict py).optional (some []) transport_metadata)
    |>.ap (defaulted "event_id" (text py) r.uuid event_id)
    |>.ap (defaulted "sent_message_id" (text py).optional none sent_message_id)
    |>.ap (defaulted "nack_reason" (text py).optional none nack_reason)
    |>.ap (defaulted "delivery_status" deliveryStatus.optional none delivery_status)

/-- `Event.deserialise`. An exception of the constructor is wrapped as those of the fields are. -/
def deserialise (data : Json.Members) : Except (List (Option Str × PyExc)) Event :=
  match (fields py r).read data with
  | .ok (.ok e) => .ok e
  | .ok (.error e) => .error [(none, e)]
  | .error es => .error es

/-- The fields of an event are written as `serialise` writes them. -/
theorem write_fields (e : Event) : (fields py r).write e = e.serialise := by
  unfold fields required defaulted
  simp only [Fields.write_ap, Fields.write_field, Fields.write_pure, List.nil_append,
    List.cons_append]
  rfl

end Event

/-- What another worker makes of a document: `deserialise(json.loads(json.dumps(data)))`. -/
def overWire {α : Type} (py : Conversions)
    (deserialise : Json.Members → Except (List (Option Str × PyExc)) α) (data : Json.Members) :
    Option α :=
  match (Json.dumps (.object data)).bind (Json.loads py.floatRepr) with
  | some (.object data) => (deserialise data).toOption
  | _ => none

end Vumi2
