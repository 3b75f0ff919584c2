import Vumi2.Lib.Dict
import Vumi2.Smpp.Pdu
import Vumi2.Smpp.Submission

/-!
# The requests of the SMPP client

Requests and their responses, as a machine: the shared sequencer, the table `responses`, the tasks
that call `send_pdu`, and the `consume_stream` task, which hands a response to the task that waits
for it. An action is what one party does between two points at which it may wait, so the runs of the
machine are the interleavings. What the peer sends is up to the peer.

A request is known by its place among the numbers drawn, so that it stays apart from a later one
with the same number. A number may be drawn long before its request is sent, or never be used.
-/

namespace Vumi2.Smpp

open Effect Eff Text

/-- The class of a `PDUResponse`. -/
inductive ResponseClass where
  | bind_transceiver_resp
  | submit_sm_resp
  | enquire_link_resp
  | generic_nack
  | other (name : Str)
deriving DecidableEq, Repr

/-- A decoded `PDUResponse` of any class. -/
structure ResponsePDU where
  pdu_class : ResponseClass
  seqNum : ℕ
  status : CommandStatus
deriving DecidableEq, Repr

/-- What `send_pdu` makes of the response that it gets. -/
def checkResponse (requireAck : ResponseClass) (check_response : Bool) (response : ResponsePDU) :
    Except PyExc ResponsePDU :=
  if check_response = true ∧ response.status ≠ .ESME_ROK then .error .esmeResponseStatusError
  else if response.pdu_class ≠ requireAck then .error .esmeResponseStatusError
  else .ok response

/-- How far a request has come. -/
inductive RequestPhase where
  /-- Its number has been drawn. -/
  | drawn
  /-- `send_pdu` has put its channel into the table, and waits in `pdu_send_channel.send`. -/
  | sending (check_response : Bool)
  /-- `publish_stream` has sent it, and `send_pdu` waits on the channel. -/
  | waiting (check_response : Bool)
  /-- `send_pdu` has got this response, and has returned or raised accordingly. -/
  | returned (response : ResponsePDU) (result : Except PyExc ResponsePDU)

/-- A request. -/
structure Request where
  seqNum : ℕ
  requireAck : ResponseClass
  phase : RequestPhase
  /-- Whether its channel was taken out of the table. -/
  answered : Bool

/-- `EsmeClient`, as far as requests and their responses are concerned. -/
structure EsmeRequests where
  sequencer : InMemorySequencer
  /-- `responses`; a channel is known by its request. -/
  responses : Dict ℕ ℕ
  /-- A request for each number, in the order in which they were drawn. -/
  requests : List Request
  /-- `handle_pdu` waits in `send` on this channel. -/
  handing : Option (ℕ × ResponsePDU)
  /-- `handle_pdu` has raised, and `consume_stream` with it. -/
  raised : Bool
  /-- The responses that `handle_pdu` was called with. -/
  arrived : List ResponsePDU

/-- An action of a party. -/
inductive RequestAction where
  /-- A task draws a number for a request. -/
  | draw (requireAck : ResponseClass)
  /-- `send_pdu` is called for a request, and comes to its first await. -/
  | register (request : ℕ) (check_response : Bool)
  /-- `publish_stream` takes the request, and sends it. -/
  | publish (request : ℕ)
  /-- `handle_pdu` is called for a response, and comes to its await. -/
  | arrive (pdu : ResponsePDU)
  /-- The task that waits gets its response. -/
  | hand

namespace EsmeRequests

/-- A client with this sequencer. -/
def new (sequencer : InMemorySequencer) : EsmeRequests where
  sequencer := sequencer
  responses := Dict.empty
  requests := []
  handing := none
  raised := false
  arrived := []

/-- `get_next_sequence_number`, for a new request. -/
def draw (s : EsmeRequests) (requireAck : ResponseClass) : EsmeRequests :=
  { s with
    sequencer := ⟨s.sequencer.next⟩
    requests := s.requests ++ [⟨s.sequencer.next, requireAck, .drawn, false⟩] }

/-- `send_pdu` up to its first await. -/
def register (s : EsmeRequests) (i : ℕ) (check_response : Bool) : Option EsmeRequests :=
  match s.requests[i]? with
  | some ⟨seqNum, requireAck, .drawn, answered⟩ =>
    some { s with
      responses := s.responses.set seqNum i
      requests := s.requests.set i ⟨seqNum, requireAck, .sending check_response, answered⟩ }
  | _ => none

/-- `pdu_send_channel.send` of a request, and `publish_stream`. -/
def publish (s : EsmeRequests) (i : ℕ) : Option EsmeRequests :=
  match s.requests[i]? with
  | some ⟨seqNum, requireAck, .sending check_response, answered⟩ =>
    some { s with
      requests := s.requests.set i ⟨seqNum, requireAck, .waiting check_response, answered⟩ }
  | _ => none

/-- The channel of a request is taken out of the table, to send it this response. -/
def take (s : EsmeRequests) (i : ℕ) (pdu : ResponsePDU) : EsmeRequests :=
  { s with
    responses := s.responses.erase pdu.seqNum
    requests := s.requests.modify i fun r => { r with answered := true }
    handing := some (i, pdu) }

/-- `handle_pdu` for a response, up to its await. -/
def handleResponse (pdu : ResponsePDU) : Py EsmeRequests Unit := do
  let s ← get
  let channel ← ofOption .keyError (s.responses.get? pdu.seqNum)
  modify fun s => s.take channel pdu

/-- `consume_stream` calls `handle_pdu` for a response, unless an earlier call of it waits or has
raised. -/
def arrive (s : EsmeRequests) (pdu : ResponsePDU) : Option EsmeRequests :=
  if s.handing = none ∧ s.raised = false then
    match s.responses.get? pdu.seqNum with
    | some channel => some { s.take channel pdu with arrived := s.arrived ++ [pdu] }
    | none => some { s with raised := true, arrived := s.arrived ++ [pdu] }
  else none

/-- The response is handed over, and `send_pdu` returns or raises. -/
def hand (s : EsmeRequests) : Option EsmeRequests :=
  match s.handing with
  | some (i, pdu) =>
    match s.requests[i]? with
    | some ⟨seqNum, requireAck, .waiting check_response, answered⟩ =>
      some { s with
        requests := s.requests.set i ⟨seqNum, requireAck,
          .returned pdu (checkResponse requireAck check_response pdu), answered⟩
        handing := none }
    | _ => none
  | none => none

/-- The state after an action. -/
def step (s : EsmeRequests) : RequestAction → Option EsmeRequests
  | .draw requireAck => some (s.draw requireAck)
  | .register i check_response => s.register i check_response
  | .publish i => s.publish i
  | .arrive pdu => s.arrive pdu
  | .hand => s.hand

/-- `handle_pdu` raises if there is no such channel. -/
theorem run_handleResponse_unknown {s : EsmeRequests} {pdu : ResponsePDU}
    (h : s.responses.get? pdu.seqNum = none) (env : ℕ → Reading) :
    (handleResponse pdu).run env s = ⟨.error .keyError, 0, s⟩ := by
  simp [handleResponse, h]

end EsmeRequests

/-- A registered request that is not answered. -/
def Request.Outstanding (r : Request) : Prop :=
  r.answered = false ∧ match r.phase with
    | .sending _ | .waiting _ => True
    | _ => False

/-- A request that was sent. -/
def Request.Sent (r : Request) : Prop :=
  match r.phase with
  | .waiting _ => True
  | _ => False

/-- The response that a request has got. -/
def Request.response (r : Request) : Option ResponsePDU :=
  match r.phase with
  | .returned response _ => some response
  | _ => none

end Vumi2.Smpp
