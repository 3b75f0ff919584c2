import Vumi2.Lib.Json
import Vumi2.Runtime

/-!
# Messages and events

The wire types of `messages.py`, with the fields and defaults of the attrs classes. A default that
is a factory (the timestamp, the identifier) is taken from a `Reading`. An `Event` carries the proof
of what its validator checks, so that an event that the constructor refuses cannot be built.
-/

namespace Vumi2

open Effect Text

/-- `Session`. -/
inductive Session where
  | none
  | new
  | resume
  | close
deriving DecidableEq, Repr

/-- `TransportType`. -/
inductive TransportType where
  | http_api
  | irc
  | telnet
  | twitter
  | sms
  | ussd
  | xmpp
  | mxit
  | wechat
deriving DecidableEq, Repr

/-- `AddressType`. -/
inductive AddressType where
  | irc_nickname
  | twitter_handle
  | msisdn
  | gtalk_id
  | jabber_id
  | mxit_id
  | wechat_id
deriving DecidableEq, Repr

/-- `EventType`. -/
inductive EventType where
  | ack
  | nack
  | delivery_report
deriving DecidableEq, Repr

/-- `DeliveryStatus`. -/
inductive DeliveryStatus where
  | pending
  | failed
  | delivered
deriving DecidableEq, Repr

/-- `Message`. The content is `str | None` by its annotation, but `reply` stores what it is
given. -/
structure Message where
  to_addr : Str
  from_addr : Str
  transport_name : Str
  transport_type : TransportType
  message_version : Str
  message_type : Str
  timestamp : DateTime
  routing_metadata : Json.Members
  helper_metadata : Json.Members
  message_id : Str
  in_reply_to : Option Str
  provider : Option Str
  session_event : Session
  content : Json
  transport_metadata : Json.Members
  group : Option Str
  to_addr_type : Option AddressType
  from_addr_type : Option AddressType

namespace Message

/-- The message with the required fields, and the defaults for the others. -/
def create (to_addr from_addr transport_name : Str) (transport_type : TransportType) (r : Reading) :
    Message where
  to_addr := to_addr
  from_addr := from_addr
  transport_name := transport_name
  transport_type := transport_type
  message_version := str "20110921"
  message_type := str "user_message"
  timestamp := r.utcnow
  routing_metadata := []
  helper_metadata := []
  message_id := r.uuid
  in_reply_to := none
  provider := none
  session_event := .none
  content := .null
  transport_metadata := []
  group := none
  to_addr_type := none
  from_addr_type := none

/-- A keyword argument of `reply`: a field of `Message` other than the two that `reply` names, or
another keyword. -/
inductive Kwarg where
  | to_addr (v : Str)
  | from_addr (v : Str)
  | transport_name (v : Str)
  | transport_type (v : TransportType)
  | message_version (v : Str)
  | message_type (v : Str)
  | timestamp (v : DateTime)
  | routing_metadata (v : Json.Members)
  | helper_metadata (v : Json.Members)
  | message_id (v : Str)
  | in_reply_to (v : Option Str)
  | provider (v : Option Str)
  | transport_metadata (v : Json.Members)
  | group (v : Option Str)
  | to_addr_type (v : Option AddressType)
  | from_addr_type (v : Option AddressType)
  | unknown (name : Str)

/-- The keyword. -/
def Kwarg.name : Kwarg → Str
  | to_addr _ => str "to_addr"
  | from_addr _ => str "from_addr"
  | transport_name _ => str "transport_name"
  | transport_type _ => str "transport_type"
  | message_version _ => str "message_version"
  | message_type _ => str "message_type"
  | timestamp _ => str "timestamp"
  | routing_metadata _ => str "routing_metadata"
  | helper_metadata _ => str "helper_metadata"
  | message_id _ => str "message_id"
  | in_reply_to _ => str "in_reply_to"
  | provider _ => str "provider"
  | transport_metadata _ => str "transport_metadata"
  | group _ => str "group"
  | to_addr_type _ => str "to_addr_type"
  | from_addr_type _ => str "from_addr_type"
  | unknown name => name

/-- Sets the field that a keyword names; the constructor refuses any other keyword. -/
def Kwarg.apply (m : Message) : Kwarg → Except PyExc Message
  | to_addr v => .ok { m with to_addr := v }
  | from_addr v => .ok { m with from_addr := v }
  | transport_name v => .ok { m with transport_name := v }
  | transport_type v => .ok { m with transport_type := v }
  | message_version v => .ok { m with message_version := v }
  | message_type v => .ok { m with message_type := v }
  | timestamp v => .ok { m with timestamp := v }
  | routing_metadata v => .ok { m with routing_metadata := v }
  | helper_metadata v => .ok { m with helper_metadata := v }
  | message_id v => .ok { m with message_id := v }
  | in_reply_to v => .ok { m with in_reply_to := v }
  | provider v => .ok { m with provider := v }
  | transport_metadata v => .ok { m with transport_metadata := v }
  | group v => .ok { m with group := v }
  | to_addr_type v => .ok { m with to_addr_type := v }
  | from_addr_type v => .ok { m with from_addr_type := v }
  | unknown _ => .error .typeError

/-- The keywords that `reply` refuses. The source has no comma between two of them. -/
def replyRefused : List Str :=
  [str "to_addr", str "from_addr", str "group", str "in_reply_to", str "providertransport_name",
    str "transport_type", str "transport_metadata"]

/-- The reply to a message, before the keyword arguments. -/
def replyFields (m : Message) (content : Json) (session_event : Session) (r : Reading) : Message :=
  { create m.from_addr m.to_addr m.transport_name m.transport_type r with
    content := content
    session_event := session_event
    group := m.group
    in_reply_to := some m.message_id
    provider := m.provider
    transport_metadata := m.transport_metadata }

/-- `Message.reply`. -/
def reply (m : Message) (content : Json) (session_event : Session) (kwargs : List Kwarg)
    (r : Reading) : Except PyExc Message :=
  if kwargs.any (fun kw => kw.name ∈ replyRefused) then .error .typeError
  else kwargs.foldlM Kwarg.apply (m.replyFields content session_event r)

end Message

/-- `Event._check_event_type`: an ACK has a `sent_message_id`, a NACK a `nack_reason`, and a
delivery report a `delivery_status`. -/
def checkEventType (event_type : EventType) (sent_message_id nack_reason : Option Str)
    (delivery_status : Option DeliveryStatus) : Bool :=
  match event_type with
  | .ack => sent_message_id.isSome
  | .nack => nack_reason.isSome
  | .delivery_report => delivery_status.isSome

/-- `Event`. -/
structure Event where
  user_message_id : Str
  event_type : EventType
  message_version : Str
  message_type : Str
  timestamp : DateTime
  routing_metadata : Json.Members
  helper_metadata : Json.Members
  transport_metadata : Option Json.Members
  event_id : Str
  sent_message_id : Option Str
  nack_reason : Option Str
  delivery_status : Option DeliveryStatus
  /-- The constructor accepted the event. -/
  check : checkEventType event_type sent_message_id nack_reason delivery_status = true

namespace Event

/-- The event with the defaults for the fields that no caller sets. -/
def create (user_message_id : Str) (event_type : EventType)
    (sent_message_id nack_reason : Option Str)
    (delivery_status : Option DeliveryStatus) (transport_metadata : Json.Members) (r : Reading)
    (check : checkEventType event_type sent_message_id nack_reason delivery_status = true) :
    Event where
  user_message_id := user_message_id
  event_type := event_type
  message_version := str "20110921"
  message_type := str "event"
  timestamp := r.utcnow
  routing_metadata := []
  helper_metadata := []
  transport_metadata := some transport_metadata
  event_id := r.uuid
  sent_message_id := sent_message_id
  nack_reason := nack_reason
  delivery_status := delivery_status
  check := check

/-- An ACK as the transports build it. -/
def ack (user_message_id sent_message_id : Str) (r : Reading) : Event :=
  create user_message_id .ack (some sent_message_id) none none [] r rfl

/-- A NACK as the transports build it. -/
def nack (user_message_id sent_message_id reason : Str) (r : Reading) : Event :=
  create user_message_id .nack (some sent_message_id) (some reason) none [] r rfl

/-- A delivery report as the transports build it: without a `sent_message_id`. -/
def deliveryReport (user_message_id : Str) (status : DeliveryStatus)
    (transport_metadata : Json.Members) (r : Reading) : Event :=
  create user_message_id .delivery_report none none (some status) transport_metadata r rfl

end Event

end Vumi2
