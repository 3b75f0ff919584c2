import Vumi2.Smpp.DeliveryReport
import Vumi2.Smpp.ShortMessage
import Vumi2.Smpp.SubmitShortMessage

/-!
# The SMPP client

The handlers of `EsmeClient` between the PDU stream and the message channel. What the client puts
on its two channels is appended to them, and the responses of the peer are consumed in order. A
request of which the encoder raises gets no response: `publish_stream` lets the exception through,
and the worker ends, with the task that waits for the response.
-/

namespace Vumi2.Smpp

open Effect Eff Text

/-- What goes to the transport through `send_message_channel`. -/
inductive Published where
  | message (m : Message)
  | event (e : Event)

/-- `EsmeClient`, as far as its handlers use it. -/
structure EsmeClient where
  sequencer : InMemorySequencer
  smpp_cache : InMemorySmppCache
  /-- What `encoder.encode` raises for a request, if it does. It encodes every response to the
  peer. -/
  encoder : SubmitSM → Except PyExc Unit
  /-- What was put on `send_message_channel`. -/
  send_message_channel : List Published
  /-- What was put on `pdu_send_channel`. -/
  pdu_send_channel : List SentPDU
  /-- The responses that the peer will give to the coming requests. -/
  peer : ℕ → PDUResponse

/-- The processors that a client is made with. -/
structure Processors where
  submit_sm_processor : SubmitShortMessageProcessor
  sm_processer : ShortMessageProcessor
  dr_processor : DeliveryReportProcesser

namespace EsmeClient

/-- A computation on the sequencer. -/
def onSequencer {α : Type} (m : Py InMemorySequencer α) : Py EsmeClient α :=
  on sequencer (fun c s => { c with sequencer := s }) m

/-- A computation on the cache. -/
def onSmppCache {α : Type} (m : Py InMemorySmppCache α) : Py EsmeClient α :=
  on smpp_cache (fun c s => { c with smpp_cache := s }) m

/-- `self.send_message_channel.send(item)`. -/
def sendMessage (item : Published) : Py EsmeClient Unit :=
  modify fun c => { c with send_message_channel := c.send_message_channel ++ [item] }

/-- `self.pdu_send_channel.send(pdu)`. -/
def sendOnWire (pdu : SentPDU) : Py EsmeClient Unit :=
  modify fun c => { c with pdu_send_channel := c.pdu_send_channel ++ [pdu] }

/-- `send_pdu` for a response. -/
def sendResponse (pdu : SentPDU) : Py EsmeClient Unit := sendOnWire pdu

/-- `publish_stream`, for a request that was put on `pdu_send_channel`. -/
def publishStream (pdu : SubmitSM) : Py EsmeClient Unit := do
  let c ← get
  ofExcept (c.encoder pdu)

/-- `send_pdu` for a `SubmitSM`, with `check_response=False`. -/
def sendSubmitSm (pdu : SubmitSM) : Py EsmeClient PDUResponse := do
  sendOnWire (.submit_sm pdu)
  publishStream pdu
  let c ← get
  modify fun c => { c with peer := later c.peer 1 }
  match c.peer 0 with
  | .submit_sm_resp status message_id => pure (.submit_sm_resp status message_id)
  | .generic_nack _ => raise .esmeResponseStatusError

/-- `response.params["message_id"].decode()`. -/
def messageId : PDUResponse → Except PyExc Str
  | .submit_sm_resp _ (some message_id) => decodeUtf8 message_id
  | .submit_sm_resp _ none => .error .attributeError
  | .generic_nack _ => .error .keyError

/-- The loop of `send_vumi_message`, and what follows it. -/
def sendSegments (message : Message) : List SubmitSM → Py EsmeClient Unit
  | [] => do
    let r ← read
    sendMessage (.event (Event.ack message.message_id message.message_id r))
  | pdu :: pdus => do
    let response ← sendSubmitSm pdu
    match response.status with
    | .error _ description => do
      let r ← read
      sendMessage (.event (Event.nack message.message_id message.message_id description r))
    | .ESME_ROK => do
      let smpp_message_id ← ofExcept (messageId response)
      onSmppCache (InMemorySmppCache.storeSmppMessageId message.message_id smpp_message_id)
      sendSegments message pdus

variable (P : Processors)

/-- `send_vumi_message`. -/
def sendVumiMessage (message : Message) : Py EsmeClient Unit := do
  let pdus ← onSequencer (P.submit_sm_processor.handleOutboundMessage message)
  sendSegments message pdus

/-- What `handle_deliver_sm` does before it answers: sends on what the PDU is taken for. -/
def forwardDeliverSm (pdu : DeliverSM) : Py EsmeClient Unit := do
  let (handled, event) ← onSmppCache (P.dr_processor.handleDeliverSm pdu)
  if handled then
    match event with
    | some event => sendMessage (.event event)
    | none => pure ()
  else do
    let msg ← onSmppCache (P.sm_processer.handleDeliverSm pdu)
    match msg with
    | some msg => sendMessage (.message msg)
    | none => pure ()

/-- `handle_deliver_sm`. -/
def handleDeliverSm (pdu : DeliverSM) : Py EsmeClient Unit := do
  forwardDeliverSm P pdu
  sendResponse (.deliver_sm_resp pdu.seqNum)

end EsmeClient

end Vumi2.Smpp
