import Vumi2.Lib.Exchange
import Vumi2.StaticReply
import Vumi2.Wire.RoundTrip

/-!
# Workers around the broker

The router and the static reply applications at work, with the exchange that carries their messages.
The connectors publish documents under the routing keys of `BaseConnector.routing_key`, and each
consumer has the queue of its key. What the other parties do, the transports and the applications of
other kinds, is up to them: they publish what they like on their connectors, and take from their
queues.

A step is what one party does between two points at which it may wait, so a run is an interleaving
of the parties, and of the tasks of each. A queue is there from the first start of its worker on,
and what is published before is lost. No worker closes.
-/

namespace Vumi2

open Effect Eff Text

/-- `routing_key` of a connector. -/
def routingKey (name message_type : Str) : Str := name ++ ofChar '.' :: message_type

namespace Publication

/-- The type of message that a publishing method names. -/
def messageType : Publication → Str
  | outbound _ _ => str "outbound"
  | inbound _ _ => str "inbound"
  | event _ _ => str "event"

/-- The connector that a publishing method names. -/
def connector : Publication → Str
  | outbound name _ => name
  | inbound name _ => name
  | event name _ => name

/-- What `_publish_message` publishes: the routing key, and the document. -/
def post (p : Publication) : Str × Json.Members :=
  (routingKey p.connector p.messageType,
    match p with
    | outbound _ m => m.serialise
    | inbound _ m => m.serialise
    | event _ e => e.serialise)

end Publication

/-- The queue of a connector of one of these names. -/
def isQueue (connectors : List Str) (message_type key : Str) : Bool :=
  connectors.any fun name => routingKey name message_type = key

namespace ToAddressRouter

/-- What a consumer of the router makes of an item: the call of its callback, or no call if the item
cannot be deserialised. The outer `none` is that no consumer has the queue. -/
def consume (r : ToAddressRouter) (py : Conversions) (reading : Reading)
    (item : Str × Json.Members) : Option (Option RouterCall) :=
  if isQueue r.receive_inbound_connectors (str "inbound") item.1 = true then
    some ((overWire py (Message.deserialise py reading) item.2).map .handle_inbound_message)
  else if isQueue r.receive_inbound_connectors (str "event") item.1 = true then
    some ((overWire py (Event.deserialise py reading) item.2).map .handle_event)
  else if isQueue r.receive_outbound_connectors (str "outbound") item.1 = true then
    some ((overWire py (Message.deserialise py reading) item.2).map .handle_outbound_message)
  else none

/-- A consumer of the router has this queue. -/
def hasQueue (r : ToAddressRouter) (key : Str) : Bool :=
  isQueue r.receive_inbound_connectors (str "inbound") key ||
    isQueue r.receive_inbound_connectors (str "event") key ||
      isQueue r.receive_outbound_connectors (str "outbound") key

end ToAddressRouter

/-- A task of a static reply application that has come to its publishing call. -/
structure ReplyTask where
  config : StaticReplyConfig
  message : Message
  reply : Publication
  /-- The publishing call has returned. -/
  published : Bool

/-- What a task has published. -/
def ReplyTask.sent (task : ReplyTask) : Option Publication :=
  if task.published = true then some task.reply else none

/-- The workers that are deployed. -/
structure Deployment where
  router : ToAddressRouter
  /-- The static reply applications. -/
  applications : List StaticReplyConfig

/-- The workers at work. -/
structure Network where
  exchange : Exchange Str Json.Members
  router : RouterState
  /-- The tasks of the static reply applications. -/
  replies : List ReplyTask
  /-- What the transports have published. -/
  transports : List Publication
  /-- What the other applications have published. -/
  others : List Publication

/-- A step of a party. -/
inductive NetworkAction where
  /-- A consumer starts, and declares its queue. -/
  | bind (key : Str)
  /-- A transport publishes a message that came in. -/
  | inbound (connector : Str) (message : Message)
  /-- A transport publishes an event. -/
  | event (connector : Str) (event : Event)
  /-- An application of another kind publishes a message. -/
  | outbound (connector : Str) (message : Message)
  /-- The router takes an item, and its handler comes to its publishing call. -/
  | route (i : ℕ) (reading : Reading) (env : ℕ → Reading)
  /-- The publishing call of a task of the router returns. -/
  | routed (k : ℕ)
  /-- A static reply application takes an item, and its handler comes to its publishing call. -/
  | reply (app i : ℕ) (reading : Reading) (env : ℕ → Reading)
  /-- The publishing call of such a task returns. -/
  | replied (k : ℕ)
  /-- Another party takes an item. -/
  | consume (i : ℕ)

namespace Network

/-- The network before anything is published. -/
def new (bound : Str → Bool) (config : ToAddressRouterConfig) (now : ℚ) : Network :=
  ⟨Exchange.new bound, RouterState.new config now, [], [], []⟩

variable (d : Deployment) (py : Conversions)

/-- The router takes an item. -/
def route (s : Network) (i : ℕ) (reading : Reading) (env : ℕ → Reading)
    (item : Str × Json.Members) : Option Network :=
  match d.router.consume py reading item with
  | some (some call) => (d.router.step s.router (.call call env)).map fun router =>
      { s with exchange := s.exchange.take i item, router := router }
  | some none => some { s with exchange := s.exchange.take i item }
  | none => none

/-- The publishing call of a task of the router returns. -/
def routed (s : Network) (k : ℕ) : Option Network :=
  match s.router.tasks[k]? with
  | some ⟨_, _, .publishing p⟩ => (d.router.step s.router (.publish k)).map fun router =>
      { s with exchange := s.exchange.publish p.post, router := router }
  | _ => none

/-- A static reply application takes an item. -/
def reply (s : Network) (config : StaticReplyConfig) (i : ℕ) (reading : Reading)
    (env : ℕ → Reading) (item : Str × Json.Members) : Option Network :=
  if routingKey config.transport_name (str "inbound") = item.1 then
    match overWire py (Message.deserialise py reading) item.2 with
    | some message =>
      match ((StaticReplyApplication.handleInboundMessage config message).run env ()).result with
      | .ok p => some { s with
          exchange := s.exchange.take i item
          replies := s.replies ++ [⟨config, message, p, false⟩] }
      | .error _ => some { s with exchange := s.exchange.take i item }
    | none => some { s with exchange := s.exchange.take i item }
  else if routingKey config.transport_name (str "event") = item.1 then
    -- `handle_event` does nothing.
    some { s with exchange := s.exchange.take i item }
  else none

/-- The publishing call of a static reply application returns. -/
def replied (s : Network) (k : ℕ) : Option Network :=
  match s.replies[k]? with
  | some ⟨config, message, p, false⟩ => some { s with
      exchange := s.exchange.publish p.post
      replies := s.replies.set k ⟨config, message, p, true⟩ }
  | _ => none

/-- A consumer of the router, or of a static reply application, has this queue. -/
def hasQueue (key : Str) : Bool :=
  d.router.hasQueue key ||
    isQueue (d.applications.map StaticReplyConfig.transport_name) (str "inbound") key ||
      isQueue (d.applications.map StaticReplyConfig.transport_name) (str "event") key

/-- The state after a step. -/
def step (s : Network) : NetworkAction → Option Network
  | .bind key => some { s with exchange := s.exchange.bind key }
  | .inbound connector message => some { s with
      exchange := s.exchange.publish (Publication.inbound connector message).post
      transports := s.transports ++ [.inbound connector message] }
  | .event connector event => some { s with
      exchange := s.exchange.publish (Publication.event connector event).post
      transports := s.transports ++ [.event connector event] }
  | .outbound connector message => some { s with
      exchange := s.exchange.publish (Publication.outbound connector message).post
      others := s.others ++ [.outbound connector message] }
  | .route i reading env =>
    (s.exchange.waiting[i]?).bind fun item => route d py s i reading env item
  | .routed k => routed d s k
  | .reply app i reading env =>
    (d.applications[app]?).bind fun config =>
      (s.exchange.waiting[i]?).bind fun item => reply py s config i reading env item
  | .replied k => replied s k
  | .consume i =>
    (s.exchange.waiting[i]?).bind fun item =>
      -- The router and the applications take from their own queues themselves.
      if hasQueue d item.1 = true then none
      else some { s with exchange := s.exchange.take i item }

end Network

end Vumi2
