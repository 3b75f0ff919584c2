import Vumi2.Smpp.Client
import Vumi2.Smpp.Correlation

/-!
# The link of the SMPP client

`EsmeClient` between the stream of bytes that comes in and the one that goes out: `consume_stream`
with `handle_pdu`, `publish_stream`, and the tasks that send requests. The channel between
`send_pdu` and `publish_stream` holds nothing, so a call of `send` waits until `publish_stream`
takes its PDU, and the calls that wait are served in order. A step is what one party does between
two points at which it may wait.

The package's encoder and decoder are parameters. A request is known by its place among the numbers
drawn, as in `EsmeRequests`, which is the part of this machine that the table of responses concerns.
-/

namespace Vumi2.Smpp

open Effect Eff Text

/-- A decoded PDU of the peer. -/
inductive IncomingPDU where
  | deliver_sm (pdu : DeliverSM)
  | enquire_link (seqNum : ℕ)
  | unbind (seqNum : ℕ)
  /-- A `PDURequest` of another command, for which there is no handler. -/
  | other_request (command_name : Str) (seqNum : ℕ)
  | response (pdu : ResponsePDU)
  /-- Neither a request nor a response. -/
  | unknown

/-- A PDU for the peer. -/
inductive OutgoingPDU where
  | request (i : ℕ)
  | deliver_sm_resp (seqNum : ℕ)
  | enquire_link_resp (seqNum : ℕ)
  | unbind_resp (seqNum : ℕ)
  /-- A `GenericNack` with the status `ESME_RINVCMDID`. -/
  | generic_nack (seqNum : ℕ)
deriving DecidableEq, Repr

/-- What `consume_stream` does. -/
inductive Consumption where
  /-- It waits for data, or is about to extract a PDU. -/
  | receiving
  /-- `handle_deliver_sm` waits in `send_message_channel.send`, if it sends anything. -/
  | forwarding (seqNum : ℕ)
  /-- It waits in `pdu_send_channel.send`. -/
  | answering
  /-- So does `handle_unbind`, which will raise. -/
  | unbinding
  /-- It waits to hand a response to its task. -/
  | handing
  | raised (e : PyExc)
deriving DecidableEq

/-- `SmscUnbind`. -/
def smscUnbind : PyExc := .external "SmscUnbind" []

/-- `EsmeClient` at work. -/
structure Link where
  requests : EsmeRequests
  /-- What the processors work on. -/
  client : EsmeClient
  buffer : Bytes
  consumption : Consumption
  /-- The calls of `pdu_send_channel.send` that wait. -/
  senders : List OutgoingPDU
  /-- What `publish_stream` has still to write of its PDU. -/
  writing : Bytes
  /-- What the peer has sent. -/
  received : Bytes
  /-- The PDUs that were extracted. -/
  extracted : List Bytes
  /-- The PDUs that `publish_stream` has taken. -/
  sent : List OutgoingPDU
  /-- What `publish_stream` has written. -/
  written : Bytes

/-- A step of a party. -/
inductive LinkAction where
  /-- Data comes in. -/
  | receive (data : Bytes)
  /-- `consume_stream` extracts a PDU, and handles it up to its first wait. -/
  | handle (env : ℕ → Reading)
  /-- The transport takes what `handle_deliver_sm` sends. -/
  | forwarded
  /-- The task that waits gets its response. -/
  | hand
  /-- A task draws a number for a request. -/
  | draw (requireAck : ResponseClass)
  /-- `send_pdu` is called for a request. -/
  | register (i : ℕ) (check_response : Bool)
  /-- `publish_stream` takes a PDU. -/
  | take
  /-- It writes some of its bytes. -/
  | write (n : ℕ)
  /-- Another task works on the cache, or sends to the transport. -/
  | other (client : EsmeClient)

namespace Link

/-- A client with an open stream. -/
def new (sequencer : InMemorySequencer) (client : EsmeClient) : Link where
  requests := EsmeRequests.new sequencer
  client := client
  buffer := []
  consumption := .receiving
  senders := []
  writing := []
  received := []
  extracted := []
  sent := []
  written := []

/-- What `consume_stream` does from now on. -/
def goOn (s : Link) (consumption : Consumption) : Link := { s with consumption := consumption }

/-- The processors have worked. -/
def withClient (s : Link) (client : EsmeClient) : Link := { s with client := client }

/-- A party of the requests has acted. -/
def withRequests (s : Link) (requests : EsmeRequests) : Link := { s with requests := requests }

/-- `send_pdu`, up to its wait for `publish_stream`. -/
def send (s : Link) (pdu : OutgoingPDU) : Link := { s with senders := s.senders ++ [pdu] }

/-- `publish_stream` has taken a PDU, and is about to write it. -/
def publish (s : Link) (pdu : OutgoingPDU) (senders : List OutgoingPDU) (data : Bytes) : Link :=
  { s with senders := senders, sent := s.sent ++ [pdu], writing := data }

/-- `extract_pdu` has returned `data`, and left `rest`. -/
def extract (s : Link) (data rest : Bytes) : Link :=
  { s with buffer := rest, extracted := s.extracted ++ [data] }

variable (P : Processors)

/-- `handle_pdu` up to its first wait. -/
def handlePdu (s : Link) (env : ℕ → Reading) : IncomingPDU → Option Link
  | .deliver_sm pdu =>
    match ((EsmeClient.forwardDeliverSm P pdu).run env s.client).result with
    | .ok _ =>
      some ((s.withClient ((EsmeClient.forwardDeliverSm P pdu).run env s.client).state).goOn
        (.forwarding pdu.seqNum))
    | .error e =>
      some ((s.withClient ((EsmeClient.forwardDeliverSm P pdu).run env s.client).state).goOn
        (.raised e))
  | .enquire_link seqNum => some ((s.send (.enquire_link_resp seqNum)).goOn .answering)
  | .unbind seqNum => some ((s.send (.unbind_resp seqNum)).goOn .unbinding)
  | .other_request _ seqNum => some ((s.send (.generic_nack seqNum)).goOn .answering)
  | .response pdu => (s.requests.arrive pdu).map fun requests =>
      (s.withRequests requests).goOn
        (if requests.raised = true then .raised .keyError else .handing)
  | .unknown => some s

variable (decode : Bytes → Except PyExc IncomingPDU) (encode : OutgoingPDU → Bytes)

/-- A round of the inner loop of `consume_stream`. -/
def handle (s : Link) (env : ℕ → Reading) : Option Link :=
  if s.consumption = .receiving then
    match extractPdu s.buffer with
    | (some data, rest) =>
      match decode data with
      | .ok pdu => handlePdu P (s.extract data rest) env pdu
      | .error e => some ((s.extract data rest).goOn (.raised e))
    | (none, _) => none
  else none

/-- What the call of `send` whose PDU is taken goes on with. -/
def taken (s : Link) : OutgoingPDU → Option Link
  | .request i => (s.requests.publish i).map s.withRequests
  | _ =>
    match s.consumption with
    | .answering => some (s.goOn .receiving)
    | .unbinding => some (s.goOn (.raised smscUnbind))
    | _ => none

/-- The state after a step. -/
def step (s : Link) : LinkAction → Option Link
  | .receive data =>
    -- `receive_some` waits only while the buffer has no whole PDU.
    if s.consumption = .receiving ∧ (extractPdu s.buffer).1 = none then
      some { s with buffer := s.buffer ++ data, received := s.received ++ data }
    else none
  | .handle env => handle P decode s env
  | .forwarded =>
    match s.consumption with
    | .forwarding seqNum => some ((s.send (.deliver_sm_resp seqNum)).goOn .answering)
    | _ => none
  | .hand =>
    if s.consumption = .handing then
      s.requests.hand.map fun requests => (s.withRequests requests).goOn .receiving
    else none
  | .draw requireAck => some (s.withRequests (s.requests.draw requireAck))
  | .register i check_response => (s.requests.register i check_response).map fun requests =>
      (s.withRequests requests).send (.request i)
  | .take =>
    -- The next PDU is taken when the last one is written.
    match s.writing, s.senders with
    | [], pdu :: senders => taken (s.publish pdu senders (encode pdu)) pdu
    | _, _ => none
  | .write n =>
    some { s with written := s.written ++ s.writing.take n, writing := s.writing.drop n }
  | .other client => some (s.withClient client)

end Link

end Vumi2.Smpp
