import Vumi2.Lib.Machine
import Vumi2.Smpp.Receipts
import Vumi2.Smpp.Segments

/-!
# The messages that an SMPP client carries

`EsmeClient` with all the calls of `send_vumi_message` that are under way, and the PDUs that
`consume_stream` handles meanwhile. A step is what one call does between two points at which it may
wait: `send_vumi_message` up to its first PDU, or from a response to the next PDU or to its event,
and the handling of a `DeliverSM`. So a run is an interleaving of the calls, and any response may
come to any of them at any time.

The steps take the readings of the clock in turn. `sendVumiMessage_alone` says that a call with
which nothing interferes does what `sendVumiMessage` does.
-/

namespace Vumi2.Smpp

open Effect Eff Text

/-- How far a call of `send_vumi_message` has come. -/
inductive SendStage where
  /-- It waits for a response, and has these PDUs still to send. -/
  | awaiting (pdus : List SubmitSM)
  /-- It has sent its event, and returned. -/
  | returned
  | raised (e : PyExc)
deriving DecidableEq

/-- A call of `send_vumi_message`. -/
structure SendCall where
  message : Message
  /-- The PDUs of the message, or what making them raised. -/
  pdus : Except PyExc (List SubmitSM)
  /-- The responses that it has got. -/
  got : List PDUResponse
  stage : SendStage

/-- What happened with the messages. -/
inductive Tracked where
  | sent (call : ℕ) (pdu : SubmitSM)
  /-- A PDU of the call was accepted under an id. -/
  | accepted (call : ℕ) (smpp_message_id message_id : Str) (time : ℚ)
  /-- The call has sent its event: a NACK with a reason, or an ACK. -/
  | settled (call : ℕ) (message_id : Str) (nack_reason : Option Str)
  /-- A PDU of the peer was handled. -/
  | delivered (pdu : DeliverSM) (time : ℚ)

/-- A client with the calls that use it. -/
structure Traffic where
  client : EsmeClient
  /-- How many readings of the clock were taken. -/
  clock : ℕ
  calls : List SendCall
  /-- `consume_stream` or `publish_stream` has raised, and with it the client ends. -/
  raised : Bool
  /-- What happened, in order. -/
  log : List Tracked

/-- A step of a call. -/
inductive TrafficAction where
  /-- `send_vumi_message` is called. -/
  | send (message : Message)
  /-- The call gets the response that it waits for. -/
  | respond (i : ℕ) (response : PDUResponse)
  /-- `handle_deliver_sm` is called. -/
  | deliver (pdu : DeliverSM)

namespace EsmeClient

/-- `send_vumi_message` from the head of its loop to the next wait, or to its end. -/
def sendNext (message : Message) : List SubmitSM → Py EsmeClient SendStage
  | [] => do
    let r ← read
    sendMessage (.event (Event.ack message.message_id message.message_id r))
    pure .returned
  | pdu :: pdus => do
    sendOnWire (.submit_sm pdu)
    pure (.awaiting pdus)

/-- `send_vumi_message` from a response to the next wait. -/
def goOnSending (message : Message) (pdus : List SubmitSM) (response : PDUResponse) :
    Py EsmeClient SendStage :=
  match response with
  | .generic_nack _ => raise .esmeResponseStatusError
  | .submit_sm_resp (.error _ description) _ => do
    let r ← read
    sendMessage (.event (Event.nack message.message_id message.message_id description r))
    pure .returned
  | .submit_sm_resp .ESME_ROK message_id => do
    let smpp_message_id ← ofExcept (messageId (.submit_sm_resp .ESME_ROK message_id))
    onSmppCache (InMemorySmppCache.storeSmppMessageId message.message_id smpp_message_id)
    sendNext message pdus

/-- `send_vumi_message` up to its first wait: the PDUs of the message, and how far it has come. -/
def beginSending (P : Processors) (message : Message) :
    Py EsmeClient (List SubmitSM × SendStage) := do
  let pdus ← onSequencer (P.submit_sm_processor.handleOutboundMessage message)
  let stage ← sendNext message pdus
  pure (pdus, stage)

end EsmeClient

namespace Traffic

/-- A client that was just started, with nothing under way. -/
def new (client : EsmeClient) : Traffic := ⟨client, 0, [], false, []⟩

/-- How far a call has come when its step returns or raises. -/
def stageOf : Except PyExc SendStage → SendStage
  | .ok stage => stage
  | .error e => .raised e

/-- A call that was just made. -/
def begun (message : Message) : Except PyExc (List SubmitSM × SendStage) → SendCall
  | .ok (pdus, stage) => ⟨message, .ok pdus, [], stage⟩
  | .error e => ⟨message, .error e, [], .raised e⟩

/-- What happens at the head of the loop. -/
def logNext (i : ℕ) (message : Message) : List SubmitSM → List Tracked
  | [] => [.settled i message.message_id none]
  | pdu :: _ => [.sent i pdu]

/-- What happens in a call that was just made. -/
def logBegun (i : ℕ) (call : SendCall) : List Tracked :=
  match call.pdus with
  | .ok pdus => logNext i call.message pdus
  | .error _ => []

/-- What happens at a response. The mapping is set at the second reading. -/
def logResponse (env : ℕ → Reading) (i : ℕ) (message : Message) (pdus : List SubmitSM) :
    PDUResponse → List Tracked
  | .generic_nack _ => []
  | .submit_sm_resp (.error _ description) _ => [.settled i message.message_id (some description)]
  | .submit_sm_resp .ESME_ROK message_id =>
    match EsmeClient.messageId (.submit_sm_resp .ESME_ROK message_id) with
    | .ok smpp_message_id =>
      .accepted i smpp_message_id message.message_id (env 1).time :: logNext i message pdus
    | .error _ => []

/-- `publish_stream` raises at the PDU that a call has put on `pdu_send_channel`. -/
def publishRaises (client : EsmeClient) : SendStage → Bool
  | .awaiting _ =>
    match client.pdu_send_channel.getLast? with
    | some (.submit_sm pdu) => !(client.encoder pdu).isOk
    | _ => false
  | _ => false

/-- The client does not go on after `consume_stream` has raised. -/
def hasRaised : Except PyExc Unit → Bool
  | .ok _ => false
  | .error _ => true

/-- A call was made, and has come to its first wait. -/
def began (s : Traffic) (message : Message)
    (o : Outcome PyExc EsmeClient (List SubmitSM × SendStage)) : Traffic where
  client := o.state
  clock := s.clock + o.used
  calls := s.calls ++ [begun message o.result]
  raised := s.raised || publishRaises o.state (begun message o.result).stage
  log := s.log ++ logBegun s.calls.length (begun message o.result)

/-- A call has got a response, and has come to its next wait. -/
def resumed (s : Traffic) (i : ℕ) (call : SendCall) (response : PDUResponse)
    (happened : List Tracked) (o : Outcome PyExc EsmeClient SendStage) : Traffic where
  client := o.state
  clock := s.clock + o.used
  calls := s.calls.set i ⟨call.message, call.pdus, call.got ++ [response], stageOf o.result⟩
  raised := s.raised || publishRaises o.state (stageOf o.result)
  log := s.log ++ happened

/-- A PDU was handled. -/
def handled (s : Traffic) (pdu : DeliverSM) (r : Reading) (o : Outcome PyExc EsmeClient Unit) :
    Traffic where
  client := o.state
  clock := s.clock + o.used
  calls := s.calls
  raised := hasRaised o.result
  log := s.log ++ [.delivered pdu r.time]

variable (P : Processors) (env : ℕ → Reading)

/-- The readings that are still to be taken. -/
def coming (s : Traffic) : ℕ → Reading := later env s.clock

/-- `send_vumi_message` is called. -/
def beginCall (s : Traffic) (message : Message) : Traffic :=
  s.began message ((EsmeClient.beginSending P message).run (s.coming env) s.client)

/-- A call that waits gets a response. -/
def resumeCall (s : Traffic) (i : ℕ) (response : PDUResponse) : Option Traffic :=
  match s.calls[i]? with
  | some ⟨message, pdus, got, .awaiting rest⟩ =>
    some (s.resumed i ⟨message, pdus, got, .awaiting rest⟩ response
      (logResponse (s.coming env) i message rest response)
      ((EsmeClient.goOnSending message rest response).run (s.coming env) s.client))
  | _ => none

/-- `handle_deliver_sm`, up to its answer. -/
def handleDeliver (s : Traffic) (pdu : DeliverSM) : Traffic :=
  s.handled pdu (s.coming env 0) ((EsmeClient.forwardDeliverSm P pdu).run (s.coming env) s.client)

/-- The state after a step. -/
def step (s : Traffic) (a : TrafficAction) : Option Traffic :=
  if s.raised = true then none
  else
    match a with
    | .send message => some (beginCall P env s message)
    | .respond i response => resumeCall env s i response
    | .deliver pdu => some (handleDeliver P env s pdu)

/-! ## What a step does -/

variable {P env} {s s' : Traffic}

/-- What a step of the traffic can be, and when. -/
theorem step_cases {a : TrafficAction} (h : step P env s a = some s') :
    s.raised = false ∧
      ((∃ message, a = .send message ∧
          s' = s.began message ((EsmeClient.beginSending P message).run (s.coming env) s.client)) ∨
        (∃ i response message pdus got rest, a = .respond i response ∧
          s.calls[i]? = some ⟨message, pdus, got, .awaiting rest⟩ ∧
          s' = s.resumed i ⟨message, pdus, got, .awaiting rest⟩ response
            (logResponse (s.coming env) i message rest response)
            ((EsmeClient.goOnSending message rest response).run (s.coming env) s.client)) ∨
        ∃ pdu, a = .deliver pdu ∧ s' = s.handled pdu (s.coming env 0)
          ((EsmeClient.forwardDeliverSm P pdu).run (s.coming env) s.client)) := by
  unfold step at h
  split_ifs at h with hraised
  refine ⟨Bool.eq_false_of_not_eq_true hraised, ?_⟩
  cases a with
  | send message => exact .inl ⟨message, rfl, (Option.some.inj h).symm⟩
  | deliver pdu => exact .inr (.inr ⟨pdu, rfl, (Option.some.inj h).symm⟩)
  | respond i response =>
    -- Only a call that awaits a response gets one.
    dsimp only at h
    unfold resumeCall at h
    split at h
    · rename_i message pdus got rest hi
      exact .inr (.inl ⟨i, response, message, pdus, got, rest, rfl, hi, (Option.some.inj h).symm⟩)
    · cases h

end Traffic

end Vumi2.Smpp
