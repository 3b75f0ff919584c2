import Vumi2.Smpp.Link

/-!
# What the client and its peer say to each other

`Moves` is what a step of the link can do. `Answered`, `Placed` and `Heard` are what every step
keeps: the responses that were sent are those to the requests that came in, in their order; each
request is with its sender or was sent, and that once; and the PDUs that were handled are the frames
of what came in. `Dialogue` is what follows for a maintainer. It holds in every run, whatever the
peer sends and however the tasks are interleaved (`dialogue_of_run`).
-/

namespace Vumi2.Smpp

open Effect Eff Text Machine Slots Framing

/-- The response that a PDU of the peer is owed. -/
def IncomingPDU.answer : IncomingPDU → Option OutgoingPDU
  | .deliver_sm pdu => some (.deliver_sm_resp pdu.seqNum)
  | .enquire_link seqNum => some (.enquire_link_resp seqNum)
  | .unbind seqNum => some (.unbind_resp seqNum)
  | .other_request _ seqNum => some (.generic_nack seqNum)
  | .response _ | .unknown => none

/-- The response that a PDU of the peer is. -/
def IncomingPDU.response? : IncomingPDU → Option ResponsePDU
  | .response pdu => some pdu
  | _ => none

/-- Whether the PDU is an `Unbind`. -/
def IncomingPDU.isUnbind : IncomingPDU → Bool
  | .unbind _ => true
  | _ => false

/-- The request that a PDU for the peer is. -/
def OutgoingPDU.request? : OutgoingPDU → Option ℕ
  | .request i => some i
  | _ => none

/-- The PDUs among these that are responses. -/
def answers (pdus : List OutgoingPDU) : List OutgoingPDU :=
  pdus.filter fun pdu => pdu.request?.isNone

/-- The answers among two lists of PDUs, one after the other. -/
theorem answers_append (pdus pdus' : List OutgoingPDU) :
    answers (pdus ++ pdus') = answers pdus ++ answers pdus' := List.filter_append ..

/-- A request is no answer. -/
theorem answers_request (i : ℕ) (pdus : List OutgoingPDU) :
    answers (.request i :: pdus) = answers pdus := rfl

/-- A PDU that is no request is an answer. -/
theorem answers_cons {pdu : OutgoingPDU} (h : pdu.request? = none) (pdus : List OutgoingPDU) :
    answers (pdu :: pdus) = pdu :: answers pdus := by
  rw [answers, List.filter_cons_of_pos (by rw [h]; rfl)]
  rfl

/-- The requests among these PDUs. -/
def requestsOf (pdus : List OutgoingPDU) : List ℕ := pdus.filterMap OutgoingPDU.request?

/-- The requests among two lists of PDUs, one after the other. -/
theorem requestsOf_append (pdus pdus' : List OutgoingPDU) :
    requestsOf (pdus ++ pdus') = requestsOf pdus ++ requestsOf pdus' := List.filterMap_append ..

/-- A request is one of the requests. -/
theorem requestsOf_request (i : ℕ) (pdus : List OutgoingPDU) :
    requestsOf (.request i :: pdus) = i :: requestsOf pdus := rfl

/-- A PDU that is no request is none of the requests. -/
theorem requestsOf_cons {pdu : OutgoingPDU} (h : pdu.request? = none) (pdus : List OutgoingPDU) :
    requestsOf (pdu :: pdus) = requestsOf pdus := List.filterMap_cons_none h

/-- A response is not a request. -/
theorem request?_of_answer {pdu : IncomingPDU} {resp : OutgoingPDU} (h : pdu.answer = some resp) :
    resp.request? = none := by
  cases pdu with
  | response pdu => cases h
  | unknown => cases h
  | deliver_sm | enquire_link | unbind | other_request =>
    rw [← Option.some.inj h]
    rfl

/-- Which responses wait for `publish_stream`, and which one is still to come, as `consume_stream`
stands. -/
def Consumption.Due : Consumption → List OutgoingPDU → List OutgoingPDU → Prop
  | .receiving, waiting, due => waiting = [] ∧ due = []
  | .handing, waiting, due => waiting = [] ∧ due = []
  | .forwarding seqNum, waiting, due => waiting = [] ∧ due = [.deliver_sm_resp seqNum]
  | .answering, waiting, due => waiting.length = 1 ∧ due = []
  | .unbinding, waiting, due => waiting.length = 1 ∧ due = []
  | .raised _, waiting, due => waiting = [] ∧ (due = [] ∨ ∃ seqNum, due = [.deliver_sm_resp seqNum])

/-- The call of `send_pdu` waits for `publish_stream`. -/
def RequestPhase.IsSending : RequestPhase → Prop
  | .sending _ => True
  | _ => False

/-- `publish_stream` has taken the request. -/
def RequestPhase.IsSent : RequestPhase → Prop
  | .waiting _ | .returned _ _ => True
  | _ => False

namespace EsmeRequests

/-- The request has come to a phase of this kind. -/
def At (s : EsmeRequests) (p : RequestPhase → Prop) (i : ℕ) : Prop :=
  ∃ r, s.requests[i]? = some r ∧ p r.phase

variable {s s' : EsmeRequests} {p : RequestPhase → Prop} {i j : ℕ} {r r' : Request}

/-- Where a request stands is said by its phase. -/
theorem at_iff (hi : s.requests[i]? = some r) : s.At p i ↔ p r.phase := by
  constructor
  · rintro ⟨q, hq, hp⟩
    rwa [Option.some.inj (hi.symm.trans hq)]
  · exact fun hp => ⟨r, hi, hp⟩

/-- A request moves on, and the others stay where they are. -/
theorem at_set (hi : s.requests[i]? = some r) (hrequests : s'.requests = s.requests.set i r') :
    s'.At p j ↔ j = i ∧ p r'.phase ∨ j ≠ i ∧ s.At p j := by
  unfold At
  rw [hrequests]
  constructor
  · rintro ⟨q, hq, hp⟩
    rcases (getElem?_set_eq_some hi).1 hq with ⟨rfl, rfl⟩ | ⟨hne, hq⟩
    · exact .inl ⟨rfl, hp⟩
    · exact .inr ⟨hne, q, hq, hp⟩
  · rintro (⟨rfl, hp⟩ | ⟨hne, q, hq, hp⟩)
    · exact ⟨r', (getElem?_set_eq_some hi).2 (.inl ⟨rfl, rfl⟩), hp⟩
    · exact ⟨q, (getElem?_set_eq_some hi).2 (.inr ⟨hne, hq⟩), hp⟩

/-- A request that moves on within its kind. -/
theorem at_set_keep (hi : s.requests[i]? = some r) (hrequests : s'.requests = s.requests.set i r')
    (hp : p r'.phase ↔ p r.phase) : s'.At p j ↔ s.At p j := by
  rw [at_set hi hrequests]
  rcases eq_or_ne j i with rfl | hne
  · simp [at_iff hi, hp]
  · simp [hne]

/-- Drawing a number moves none of the requests. -/
theorem at_draw {requireAck : ResponseClass} (hp : ¬ p .drawn) :
    (s.draw requireAck).At p j ↔ s.At p j := by
  constructor
  · rintro ⟨q, hq, hphase⟩
    rcases getElem?_append_singleton.1 hq with hq | ⟨-, rfl⟩
    · exact ⟨q, hq, hphase⟩
    · exact absurd hphase hp
  · rintro ⟨q, hq, hphase⟩
    exact ⟨q, getElem?_append_singleton.2 (.inl hq), hphase⟩

/-- Where a request is sought, the responses of the peer and their receipt change nothing. -/
theorem at_arrive {pdu : ResponsePDU} (htable : s.Table) (h : s.step (.arrive pdu) = some s') :
    s'.At p j ↔ s.At p j := by
  cases moves_of_step h with
  | arrive _ i hidle hrunning hchannel =>
    obtain ⟨r, hi, -, -⟩ := htable.sound _ i hchannel
    exact at_set_keep hi (requests_take hi pdu) Iff.rfl
  | unknown => exact Iff.rfl

/-- Handing over a response changes nothing that holds alike of requests that wait and that have
returned. -/
theorem at_hand (hp : ∀ check_response response result,
    p (.returned response result) ↔ p (.waiting check_response)) (h : s.step .hand = some s') :
    s'.At p j ↔ s.At p j := by
  cases moves_of_step h with
  | hand i pdu r check_response hhanding hi hphase =>
    refine at_set_keep hi rfl ?_
    rw [hphase]
    exact hp _ _ _

end EsmeRequests

namespace Link

variable {P : Processors} {decode : Bytes → Except PyExc IncomingPDU} {encode : OutgoingPDU → Bytes}
  {s s' : Link}

/-- `consume_stream` is about to extract `data`. -/
def Extracts (s : Link) (data rest : Bytes) : Prop :=
  s.consumption = .receiving ∧ extractPdu s.buffer = (some data, rest)

variable (decode encode) in
/-- What a step does. -/
inductive Moves (s : Link) : LinkAction → Link → Prop where
  | receive (data : Bytes) (hreceiving : s.consumption = .receiving)
    (hnone : (extractPdu s.buffer).1 = none) :
    Moves s (.receive data) { s with buffer := s.buffer ++ data, received := s.received ++ data }
  | undecodable (env : ℕ → Reading) (data rest : Bytes) (e : PyExc) (hdata : s.Extracts data rest)
    (hdecode : decode data = .error e) :
    Moves s (.handle env) ((s.extract data rest).goOn (.raised e))
  | forward (env : ℕ → Reading) (data rest : Bytes) (pdu : DeliverSM) (client : EsmeClient)
    (hdata : s.Extracts data rest) (hdecode : decode data = .ok (.deliver_sm pdu)) :
    Moves s (.handle env)
      (((s.extract data rest).withClient client).goOn (.forwarding pdu.seqNum))
  | fail (env : ℕ → Reading) (data rest : Bytes) (pdu : DeliverSM) (client : EsmeClient) (e : PyExc)
    (hdata : s.Extracts data rest) (hdecode : decode data = .ok (.deliver_sm pdu)) :
    Moves s (.handle env) (((s.extract data rest).withClient client).goOn (.raised e))
  | answer (env : ℕ → Reading) (data rest : Bytes) (pdu : IncomingPDU) (resp : OutgoingPDU)
    (hdata : s.Extracts data rest) (hdecode : decode data = .ok pdu)
    (hanswer : pdu.answer = some resp) :
    Moves s (.handle env) (((s.extract data rest).send resp).goOn
      (if pdu.isUnbind = true then .unbinding else .answering))
  | response (env : ℕ → Reading) (data rest : Bytes) (pdu : ResponsePDU) (requests : EsmeRequests)
    (hdata : s.Extracts data rest) (hdecode : decode data = .ok (.response pdu))
    (hrequests : s.requests.step (.arrive pdu) = some requests) :
    Moves s (.handle env) (((s.extract data rest).withRequests requests).goOn
      (if requests.raised = true then .raised .keyError else .handing))
  | ignore (env : ℕ → Reading) (data rest : Bytes) (hdata : s.Extracts data rest)
    (hdecode : decode data = .ok .unknown) :
    Moves s (.handle env) (s.extract data rest)
  | forwarded (seqNum : ℕ) (hforwarding : s.consumption = .forwarding seqNum) :
    Moves s .forwarded ((s.send (.deliver_sm_resp seqNum)).goOn .answering)
  | hand (requests : EsmeRequests) (hhanding : s.consumption = .handing)
    (hrequests : s.requests.step .hand = some requests) :
    Moves s .hand ((s.withRequests requests).goOn .receiving)
  | draw (requireAck : ResponseClass) (requests : EsmeRequests)
    (hrequests : s.requests.step (.draw requireAck) = some requests) :
    Moves s (.draw requireAck) (s.withRequests requests)
  | register (i : ℕ) (check_response : Bool) (requests : EsmeRequests)
    (hrequests : s.requests.step (.register i check_response) = some requests) :
    Moves s (.register i check_response) ((s.withRequests requests).send (.request i))
  | takeRequest (i : ℕ) (senders : List OutgoingPDU) (requests : EsmeRequests)
    (hwriting : s.writing = []) (hsenders : s.senders = .request i :: senders)
    (hrequests : s.requests.step (.publish i) = some requests) :
    Moves s .take
      ((s.publish (.request i) senders (encode (.request i))).withRequests requests)
  | takeAnswer (pdu : OutgoingPDU) (senders : List OutgoingPDU) (hwriting : s.writing = [])
    (hsenders : s.senders = pdu :: senders) (hpdu : pdu.request? = none)
    (hanswering : s.consumption = .answering) :
    Moves s .take ((s.publish pdu senders (encode pdu)).goOn .receiving)
  | takeUnbind (pdu : OutgoingPDU) (senders : List OutgoingPDU) (hwriting : s.writing = [])
    (hsenders : s.senders = pdu :: senders) (hpdu : pdu.request? = none)
    (hunbinding : s.consumption = .unbinding) :
    Moves s .take ((s.publish pdu senders (encode pdu)).goOn (.raised smscUnbind))
  | write (n : ℕ) :
    Moves s (.write n)
      { s with written := s.written ++ s.writing.take n, writing := s.writing.drop n }
  | other (client : EsmeClient) : Moves s (.other client) (s.withClient client)

/-- A round of `consume_stream`. -/
theorem moves_of_handle {env : ℕ → Reading} (h : handle P decode s env = some s') :
    s.Moves decode encode (.handle env) s' := by
  -- `extract_pdu` has to give a PDU; what it decodes to decides the move.
  unfold handle at h
  split_ifs at h with hreceiving
  split at h
  · rename_i data rest hextract
    have hdata : s.Extracts data rest := ⟨hreceiving, hextract⟩
    split at h
    · rename_i pdu hdecode
      cases pdu with
      | deliver_sm pdu =>
        simp only [handlePdu] at h
        split at h
        · rw [← Option.some.inj h]
          exact .forward env data rest pdu _ hdata hdecode
        · rw [← Option.some.inj h]
          exact .fail env data rest pdu _ _ hdata hdecode
      | enquire_link | unbind | other_request =>
        rw [← Option.some.inj h]
        exact .answer env data rest _ _ hdata hdecode rfl
      | response pdu =>
        obtain ⟨requests, hrequests, rfl⟩ := Option.map_eq_some_iff.1 h
        exact .response env data rest pdu requests hdata hdecode hrequests
      | unknown =>
        rw [← Option.some.inj h]
        exact .ignore env data rest hdata hdecode
    · rename_i e hdecode
      rw [← Option.some.inj h]
      exact .undecodable env data rest e hdata hdecode
  · cases h

/-- `publish_stream` takes a PDU. -/
theorem moves_of_take (h : step P decode encode s .take = some s') :
    s.Moves decode encode .take s' := by
  simp only [step] at h
  split at h
  · rename_i pdu senders hwriting hsenders
    cases pdu with
    | request i =>
      obtain ⟨requests, hrequests, rfl⟩ := Option.map_eq_some_iff.1 h
      exact .takeRequest i senders requests hwriting hsenders hrequests
    | deliver_sm_resp | enquire_link_resp | unbind_resp | generic_nack =>
      simp only [taken] at h
      split at h
      · rename_i hanswering
        rw [← Option.some.inj h]
        exact .takeAnswer _ senders hwriting hsenders rfl hanswering
      · rename_i hunbinding
        rw [← Option.some.inj h]
        exact .takeUnbind _ senders hwriting hsenders rfl hunbinding
      · cases h
  · cases h

/-- A step is one of the moves of the link. -/
theorem moves_of_step {a : LinkAction} (h : step P decode encode s a = some s') :
    s.Moves decode encode a s' := by
  cases a with
  | receive data =>
    -- Each guard of `step` is the condition of the move.
    simp only [step] at h
    split_ifs at h with hguard
    rw [← Option.some.inj h]
    exact .receive data hguard.1 hguard.2
  | handle env => exact moves_of_handle h
  | forwarded =>
    simp only [step] at h
    split at h
    · rename_i seqNum hforwarding
      rw [← Option.some.inj h]
      exact .forwarded seqNum hforwarding
    · cases h
  | hand =>
    simp only [step] at h
    split_ifs at h with hhanding
    obtain ⟨requests, hrequests, rfl⟩ := Option.map_eq_some_iff.1 h
    exact .hand requests hhanding hrequests
  | draw requireAck =>
    rw [← Option.some.inj h]
    exact .draw requireAck _ rfl
  | register i check_response =>
    obtain ⟨requests, hrequests, rfl⟩ := Option.map_eq_some_iff.1 h
    exact .register i check_response requests hrequests
  | take => exact moves_of_take h
  | write n =>
    rw [← Option.some.inj h]
    exact .write n
  | other client =>
    rw [← Option.some.inj h]
    exact .other client

/-! ## Responses -/

variable (decode) in
/-- The PDUs that were extracted and decoded. -/
def handled (s : Link) : List IncomingPDU :=
  s.extracted.filterMap fun data => (decode data).toOption

variable (decode) in
/-- The responses that they are owed. -/
def owed (s : Link) : List OutgoingPDU := (s.handled decode).filterMap IncomingPDU.answer

/-- Extracting a PDU adds it to those handled. -/
theorem handled_extract {data rest : Bytes} {pdu : IncomingPDU} (hdecode : decode data = .ok pdu) :
    (s.extract data rest).handled decode = s.handled decode ++ [pdu] := by
  have hone : [data].filterMap (fun data => (decode data).toOption) = [pdu] := by
    rw [List.filterMap_cons_some (by rw [hdecode]; rfl), List.filterMap_nil]
  rw [handled, extract, List.filterMap_append, hone]
  rfl

/-- Extracting what does not decode adds nothing to the PDUs handled. -/
theorem handled_extract_error {data rest : Bytes} {e : PyExc} (hdecode : decode data = .error e) :
    (s.extract data rest).handled decode = s.handled decode := by
  have hnone : [data].filterMap (fun data => (decode data).toOption) = [] := by
    rw [List.filterMap_cons_none (by rw [hdecode]; rfl), List.filterMap_nil]
  rw [handled, extract, List.filterMap_append, hnone, List.append_nil]
  rfl

/-- Extracting a PDU adds its answer to those owed. -/
theorem owed_extract {data rest : Bytes} {pdu : IncomingPDU} (hdecode : decode data = .ok pdu) :
    (s.extract data rest).owed decode = s.owed decode ++ pdu.answer.toList := by
  have hone : [pdu].filterMap IncomingPDU.answer = pdu.answer.toList := by cases pdu <;> rfl
  rw [owed, handled_extract hdecode, List.filterMap_append, hone, owed]

/-- Extracting what does not decode adds nothing to the answers owed. -/
theorem owed_extract_error {data rest : Bytes} {e : PyExc} (hdecode : decode data = .error e) :
    (s.extract data rest).owed decode = s.owed decode := by
  rw [owed, handled_extract_error hdecode, owed]

variable (decode) in
/-- Every PDU is owed one response, in its turn. -/
def Answered (s : Link) : Prop :=
  ∃ due, s.owed decode = answers s.sent ++ answers s.senders ++ due ∧
    s.consumption.Due (answers s.senders) due

/-- A new client has answered everything. -/
theorem answered_new (sequencer : InMemorySequencer) (client : EsmeClient) :
    (new sequencer client).Answered decode := ⟨[], rfl, rfl, rfl⟩

/-- Where `consume_stream` is about to extract a PDU, nothing is owed. -/
theorem Answered.receiving (h : s.Answered decode) (hreceiving : s.consumption = .receiving) :
    answers s.senders = [] ∧ s.owed decode = answers s.sent := by
  obtain ⟨due, howed, hdue⟩ := h
  rw [hreceiving] at hdue
  obtain ⟨hwaiting, rfl⟩ := hdue
  refine ⟨hwaiting, ?_⟩
  rw [howed, hwaiting, List.append_nil, List.append_nil]

/-- The PDU that is extracted is owed its response, and no other is. -/
theorem Answered.extract (h : s.Answered decode) {data rest : Bytes} {pdu : IncomingPDU}
    (hdata : s.Extracts data rest) (hdecode : decode data = .ok pdu) :
    answers s.senders = [] ∧
      (s.extract data rest).owed decode = answers s.sent ++ pdu.answer.toList := by
  obtain ⟨hwaiting, howed⟩ := h.receiving hdata.1
  refine ⟨hwaiting, ?_⟩
  rw [owed_extract hdecode, howed]

/-- A request changes nothing. -/
theorem Answered.congr (h : s.Answered decode) (hextracted : s'.extracted = s.extracted)
    (hsent : answers s'.sent = answers s.sent) (hsenders : answers s'.senders = answers s.senders)
    (hconsumption : s'.consumption = s.consumption) : s'.Answered decode := by
  obtain ⟨due, howed, hdue⟩ := h
  refine ⟨due, ?_, ?_⟩
  · rw [hsent, hsenders, ← howed, owed, handled, hextracted, owed, handled]
  · rwa [hconsumption, hsenders]

/-- The response that waits is taken. -/
theorem Answered.takes (h : s.Answered decode) {pdu : OutgoingPDU} {senders : List OutgoingPDU}
    (hsenders : s.senders = pdu :: senders) (hpdu : pdu.request? = none)
    (hone : ∀ due, s.consumption.Due (answers s.senders) due →
      (answers s.senders).length = 1 ∧ due = []) :
    answers senders = [] ∧ s.owed decode = answers (s.sent ++ [pdu]) := by
  obtain ⟨due, howed, hdue⟩ := h
  obtain ⟨hlength, rfl⟩ := hone due hdue
  rw [hsenders, answers_cons hpdu] at hlength
  have hrest : answers senders = [] := by
    rw [List.length_cons] at hlength
    exact List.length_eq_zero_iff.1 (by omega)
  refine ⟨hrest, ?_⟩
  rw [howed, hsenders, answers_cons hpdu, hrest, answers_append, answers_cons hpdu, List.append_nil]
  rfl

/-- Every step keeps the responses in order. -/
theorem Answered.step (h : s.Answered decode) {a : LinkAction}
    (hstep : step P decode encode s a = some s') : s'.Answered decode := by
  -- In each case: what is owed, what the senders still hold, and where `consume_stream` is.
  cases moves_of_step hstep with
  | receive data => exact h.congr rfl rfl rfl rfl
  | undecodable env data rest e hdata hdecode =>
    obtain ⟨hwaiting, howed⟩ := h.receiving hdata.1
    refine ⟨[], ?_, hwaiting, .inl rfl⟩
    show (s.extract data rest).owed decode = answers s.sent ++ answers s.senders ++ []
    rw [owed_extract_error hdecode, howed, hwaiting, List.append_nil, List.append_nil]
  | forward env data rest pdu client hdata hdecode =>
    obtain ⟨hwaiting, howed⟩ := h.extract hdata hdecode
    refine ⟨[.deliver_sm_resp pdu.seqNum], ?_, hwaiting, rfl⟩
    show (s.extract data rest).owed decode = answers s.sent ++ answers s.senders ++ _
    rw [howed, hwaiting, List.append_nil]
    rfl
  | fail env data rest pdu client e hdata hdecode =>
    obtain ⟨hwaiting, howed⟩ := h.extract hdata hdecode
    refine ⟨[.deliver_sm_resp pdu.seqNum], ?_, hwaiting, .inr ⟨_, rfl⟩⟩
    show (s.extract data rest).owed decode = answers s.sent ++ answers s.senders ++ _
    rw [howed, hwaiting, List.append_nil]
    rfl
  | answer env data rest pdu resp hdata hdecode hanswer =>
    obtain ⟨hwaiting, howed⟩ := h.extract hdata hdecode
    -- The response is the only one that waits, as nothing was due before.
    have hsenders : answers (s.senders ++ [resp]) = [resp] := by
      rw [answers_append, hwaiting, answers_cons (request?_of_answer hanswer)]
      rfl
    have hdue : (if pdu.isUnbind = true then Consumption.unbinding else .answering).Due
        (answers (s.senders ++ [resp])) [] := by
      rw [hsenders]
      split_ifs <;> exact ⟨rfl, rfl⟩
    refine ⟨[], ?_, hdue⟩
    rw [List.append_nil]
    show (s.extract data rest).owed decode = answers s.sent ++ answers (s.senders ++ [resp])
    rw [howed, hsenders, hanswer]
    rfl
  | response env data rest pdu requests hdata hdecode hrequests =>
    obtain ⟨hwaiting, howed⟩ := h.extract hdata hdecode
    refine ⟨[], ?_, ?_⟩
    · show (s.extract data rest).owed decode = answers s.sent ++ answers s.senders ++ []
      rw [howed, hwaiting, List.append_nil]
      rfl
    · show (if requests.raised = true then Consumption.raised .keyError else .handing).Due _ _
      split_ifs
      · exact ⟨hwaiting, .inl rfl⟩
      · exact ⟨hwaiting, rfl⟩
  | ignore env data rest hdata hdecode =>
    obtain ⟨hwaiting, howed⟩ := h.extract hdata hdecode
    refine ⟨[], ?_, ?_⟩
    · show (s.extract data rest).owed decode = answers s.sent ++ answers s.senders ++ []
      rw [howed, hwaiting, List.append_nil]
      rfl
    · show s.consumption.Due _ _
      rw [hdata.1]
      exact ⟨hwaiting, rfl⟩
  | forwarded seqNum hforwarding =>
    -- The response that was due is with the senders now.
    obtain ⟨due, howed, hdue⟩ := h
    rw [hforwarding] at hdue
    obtain ⟨hwaiting, rfl⟩ := hdue
    have hsenders :
        answers (s.senders ++ [.deliver_sm_resp seqNum]) = [.deliver_sm_resp seqNum] := by
      rw [answers_append, hwaiting]
      rfl
    refine ⟨[], ?_, ?_⟩
    · show s.owed decode = answers s.sent ++ answers (s.senders ++ [.deliver_sm_resp seqNum]) ++ []
      rw [howed, hwaiting, hsenders, List.append_nil, List.append_nil]
    · show Consumption.answering.Due (answers (s.senders ++ [.deliver_sm_resp seqNum])) []
      rw [hsenders]
      exact ⟨rfl, rfl⟩
  | hand requests hhanding hrequests =>
    obtain ⟨due, howed, hdue⟩ := h
    rw [hhanding] at hdue
    exact ⟨due, howed, hdue⟩
  | draw requireAck requests hrequests => exact h.congr rfl rfl rfl rfl
  | register i check_response requests hrequests =>
    have hsenders : answers (s.senders ++ [.request i]) = answers s.senders := by
      rw [answers_append, answers_request]
      exact List.append_nil _
    exact h.congr rfl rfl hsenders rfl
  | takeRequest i senders requests hwriting hsenders hrequests =>
    have hsent : answers (s.sent ++ [.request i]) = answers s.sent := by
      rw [answers_append, answers_request]
      exact List.append_nil _
    have hrest : answers senders = answers s.senders := by
      rw [hsenders, answers_request]
    exact h.congr rfl hsent hrest rfl
  | takeAnswer pdu senders hwriting hsenders hpdu hanswering =>
    obtain ⟨hrest, howed⟩ := h.takes hsenders hpdu fun due hdue => by rwa [hanswering] at hdue
    refine ⟨[], ?_, hrest, rfl⟩
    show s.owed decode = answers (s.sent ++ [pdu]) ++ answers senders ++ []
    rw [howed, hrest, List.append_nil, List.append_nil]
  | takeUnbind pdu senders hwriting hsenders hpdu hunbinding =>
    obtain ⟨hrest, howed⟩ := h.takes hsenders hpdu fun due hdue => by rwa [hunbinding] at hdue
    refine ⟨[], ?_, hrest, .inl rfl⟩
    show s.owed decode = answers (s.sent ++ [pdu]) ++ answers senders ++ []
    rw [howed, hrest, List.append_nil, List.append_nil]
  | write n => exact h.congr rfl rfl rfl rfl
  | other client => exact h.congr rfl rfl rfl rfl

/-! ## Requests -/

/-- Each request is with its sender or was sent, as far as it has come. -/
structure Placed (s : Link) : Prop where
  table : s.requests.Table
  once : (requestsOf s.sent ++ requestsOf s.senders).Nodup
  sending : ∀ i, i ∈ requestsOf s.senders ↔ s.requests.At RequestPhase.IsSending i
  sent : ∀ i, i ∈ requestsOf s.sent ↔ s.requests.At RequestPhase.IsSent i

/-- In a new client no request is to be written. -/
theorem placed_new (sequencer : InMemorySequencer) (client : EsmeClient) :
    (new sequencer client).Placed where
  table := EsmeRequests.table_new sequencer
  once := List.nodup_nil
  sending := fun i => ⟨fun h => absurd h List.not_mem_nil, fun ⟨r, hr, _⟩ => by cases hr⟩
  sent := fun i => ⟨fun h => absurd h List.not_mem_nil, fun ⟨r, hr, _⟩ => by cases hr⟩

/-- The requests stay where they are. -/
theorem Placed.congr (h : s.Placed) (htable : s'.requests.Table)
    (hsent : requestsOf s'.sent = requestsOf s.sent)
    (hsenders : requestsOf s'.senders = requestsOf s.senders)
    (hsendingAt : ∀ i, s'.requests.At RequestPhase.IsSending i ↔
      s.requests.At RequestPhase.IsSending i)
    (hsentAt : ∀ i, s'.requests.At RequestPhase.IsSent i ↔ s.requests.At RequestPhase.IsSent i) :
    s'.Placed where
  table := htable
  once := by
    rw [hsent, hsenders]
    exact h.once
  sending := fun i => by rw [hsenders, hsendingAt, h.sending]
  sent := fun i => by rw [hsent, hsentAt, h.sent]

/-- An answer that waits to be written is none of the requests that do. -/
theorem requestsOf_answer {pdus : List OutgoingPDU} {pdu : OutgoingPDU} (h : pdu.request? = none) :
    requestsOf (pdus ++ [pdu]) = requestsOf pdus := by
  rw [requestsOf_append, requestsOf_cons h]
  exact List.append_nil _

/-- A request that was not sent before comes to `send_pdu`. -/
theorem Placed.register (h : s.Placed) {i : ℕ} {check_response : Bool} {requests : EsmeRequests}
    (hrequests : s.requests.step (.register i check_response) = some requests) :
    ((s.withRequests requests).send (.request i)).Placed := by
  have htable := h.table.step hrequests
  cases EsmeRequests.moves_of_step hrequests with
  | register _ _ r hi hphase =>
    -- By its phase it was in neither list before.
    have hnotSending : i ∉ requestsOf s.senders := by
      rw [h.sending, EsmeRequests.at_iff hi, hphase]
      exact id
    have hnotSent : i ∉ requestsOf s.sent := by
      rw [h.sent, EsmeRequests.at_iff hi, hphase]
      exact id
    have hsenders : requestsOf (s.senders ++ [.request i]) = requestsOf s.senders ++ [i] := by
      rw [requestsOf_append, requestsOf_request]
      rfl
    refine ⟨htable, ?_, fun j => ?_, fun j => ?_⟩
    · show (requestsOf s.sent ++ requestsOf (s.senders ++ [.request i])).Nodup
      rw [hsenders, ← List.append_assoc, List.nodup_append]
      refine ⟨h.once, List.nodup_singleton i, ?_⟩
      intro j hj k hk
      rw [List.mem_singleton.1 hk]
      rintro rfl
      rcases List.mem_append.1 hj with hj | hj
      · exact hnotSent hj
      · exact hnotSending hj
    · show j ∈ requestsOf (s.senders ++ [.request i]) ↔ _
      rw [hsenders, List.mem_append, List.mem_singleton, EsmeRequests.at_set hi rfl, h.sending]
      rcases eq_or_ne j i with rfl | hne
      · simp [RequestPhase.IsSending]
      · simp [hne]
    · show j ∈ requestsOf s.sent ↔ _
      rw [h.sent]
      refine (EsmeRequests.at_set_keep hi rfl ?_).symm
      rw [hphase]
      exact Iff.rfl

/-- `publish_stream` takes the request at the front. -/
theorem Placed.takeRequest (h : s.Placed) {i : ℕ} {senders : List OutgoingPDU}
    {requests : EsmeRequests} {data : Bytes} (hsenders : s.senders = .request i :: senders)
    (hrequests : s.requests.step (.publish i) = some requests) :
    ((s.publish (.request i) senders data).withRequests requests).Placed := by
  have htable := h.table.step hrequests
  have hold : requestsOf s.senders = i :: requestsOf senders := by
    rw [hsenders, requestsOf_request]
  have hnew : requestsOf (s.sent ++ [.request i]) = requestsOf s.sent ++ [i] := by
    rw [requestsOf_append, requestsOf_request]
    rfl
  have honce := h.once
  rw [hold] at honce
  -- It is in the list once, so not behind the front.
  have hrest : i ∉ requestsOf senders :=
    (List.nodup_cons.1 (List.nodup_append.1 honce).2.1).1
  cases EsmeRequests.moves_of_step hrequests with
  | publish _ check_response r hi hphase =>
    refine ⟨htable, ?_, fun j => ?_, fun j => ?_⟩
    · show (requestsOf (s.sent ++ [.request i]) ++ requestsOf senders).Nodup
      rwa [hnew, List.append_assoc]
    · show j ∈ requestsOf senders ↔ _
      have hj := h.sending j
      rw [hold, List.mem_cons] at hj
      rw [EsmeRequests.at_set hi rfl]
      rcases eq_or_ne j i with rfl | hne
      · simp [hrest, RequestPhase.IsSending]
      · simpa [hne] using hj
    · show j ∈ requestsOf (s.sent ++ [.request i]) ↔ _
      rw [hnew, List.mem_append, List.mem_singleton, EsmeRequests.at_set hi rfl, h.sent]
      rcases eq_or_ne j i with rfl | hne
      · simp [RequestPhase.IsSent]
      · simp [hne]

/-- Every step keeps the requests where they belong. -/
theorem Placed.step (h : s.Placed) {a : LinkAction} (hstep : step P decode encode s a = some s') :
    s'.Placed := by
  -- Only a registration and the writer move a request from list to list.
  cases moves_of_step hstep with
  | receive data => exact ⟨h.table, h.once, h.sending, h.sent⟩
  | undecodable env data rest e hdata hdecode => exact ⟨h.table, h.once, h.sending, h.sent⟩
  | forward env data rest pdu client hdata hdecode => exact ⟨h.table, h.once, h.sending, h.sent⟩
  | fail env data rest pdu client e hdata hdecode => exact ⟨h.table, h.once, h.sending, h.sent⟩
  | answer env data rest pdu resp hdata hdecode hanswer =>
    exact h.congr h.table rfl (requestsOf_answer (request?_of_answer hanswer)) (fun i => Iff.rfl)
      fun i => Iff.rfl
  | response env data rest pdu requests hdata hdecode hrequests =>
    exact h.congr (h.table.step hrequests) rfl rfl
      (fun i => EsmeRequests.at_arrive h.table hrequests)
      fun i => EsmeRequests.at_arrive h.table hrequests
  | ignore env data rest hdata hdecode => exact ⟨h.table, h.once, h.sending, h.sent⟩
  | forwarded seqNum hforwarding =>
    exact h.congr h.table rfl (requestsOf_answer rfl) (fun i => Iff.rfl) fun i => Iff.rfl
  | hand requests hhanding hrequests =>
    exact h.congr (h.table.step hrequests) rfl rfl
      (fun i => EsmeRequests.at_hand (fun _ _ _ => Iff.rfl) hrequests)
      fun i => EsmeRequests.at_hand (fun _ _ _ => Iff.rfl) hrequests
  | draw requireAck requests hrequests =>
    obtain rfl := Option.some.inj hrequests
    exact h.congr (h.table.step hrequests) rfl rfl (fun i => EsmeRequests.at_draw id)
      fun i => EsmeRequests.at_draw id
  | register i check_response requests hrequests => exact h.register hrequests
  | takeRequest i senders requests hwriting hsenders hrequests =>
    exact h.takeRequest hsenders hrequests
  | takeAnswer pdu senders hwriting hsenders hpdu hanswering =>
    have hrest : requestsOf senders = requestsOf s.senders := by rw [hsenders, requestsOf_cons hpdu]
    exact h.congr h.table (requestsOf_answer hpdu) hrest (fun i => Iff.rfl) fun i => Iff.rfl
  | takeUnbind pdu senders hwriting hsenders hpdu hunbinding =>
    have hrest : requestsOf senders = requestsOf s.senders := by rw [hsenders, requestsOf_cons hpdu]
    exact h.congr h.table (requestsOf_answer hpdu) hrest (fun i => Iff.rfl) fun i => Iff.rfl
  | write n => exact ⟨h.table, h.once, h.sending, h.sent⟩
  | other client => exact ⟨h.table, h.once, h.sending, h.sent⟩

/-! ## The two streams -/

/-- What was extracted are the frames of what came in. -/
theorem heard_step (h : Takes extractPdu s.received s.extracted s.buffer) {a : LinkAction}
    (hstep : step P decode encode s a = some s') :
    Takes extractPdu s'.received s'.extracted s'.buffer := by
  cases moves_of_step hstep with
  | receive data => exact takes_append reader_extractPdu h data
  | undecodable env data rest e hdata hdecode => exact takes_concat h hdata.2
  | forward env data rest pdu client hdata hdecode => exact takes_concat h hdata.2
  | fail env data rest pdu client e hdata hdecode => exact takes_concat h hdata.2
  | answer env data rest pdu resp hdata hdecode hanswer => exact takes_concat h hdata.2
  | response env data rest pdu requests hdata hdecode hrequests => exact takes_concat h hdata.2
  | ignore env data rest hdata hdecode => exact takes_concat h hdata.2
  | forwarded | hand | draw | register | takeRequest | takeAnswer | takeUnbind | write | other =>
    exact h

variable (encode) in
/-- The PDUs that were taken are written one after the other; the last one may be so in part. -/
def Written (s : Link) : Prop :=
  ∃ pdus part, s.written = (pdus.map encode).flatten ++ part ∧
    (s.sent = pdus ∧ part = [] ∧ s.writing = [] ∨
      ∃ last, s.sent = pdus ++ [last] ∧ part ++ s.writing = encode last)

/-- Once nothing is left to write, all was written. -/
theorem Written.all (h : s.Written encode) (hwriting : s.writing = []) :
    s.written = (s.sent.map encode).flatten := by
  obtain ⟨pdus, part, hwritten, ⟨rfl, rfl, -⟩ | ⟨last, hsent, hpart⟩⟩ := h
  · rw [hwritten, List.append_nil]
  · rw [hwriting, List.append_nil] at hpart
    rw [hwritten, hsent, hpart, List.map_append, List.flatten_append]
    simp

/-- A PDU is written after those before it. -/
theorem Written.publish (h : s.Written encode) (hwriting : s.writing = []) (pdu : OutgoingPDU)
    (senders : List OutgoingPDU) : (s.publish pdu senders (encode pdu)).Written encode := by
  refine ⟨s.sent, [], ?_, .inr ⟨pdu, rfl, rfl⟩⟩
  rw [List.append_nil]
  exact h.all hwriting

/-- A step writes only what it takes. -/
theorem Written.step (h : s.Written encode) {a : LinkAction}
    (hstep : step P decode encode s a = some s') : s'.Written encode := by
  cases moves_of_step hstep with
  | takeRequest i senders requests hwriting hsenders hrequests => exact h.publish hwriting _ senders
  | takeAnswer pdu senders hwriting hsenders hpdu hanswering => exact h.publish hwriting pdu senders
  | takeUnbind pdu senders hwriting hsenders hpdu hunbinding => exact h.publish hwriting pdu senders
  | write n =>
    obtain ⟨pdus, part, hwritten, ⟨hsent, rfl, hwriting⟩ | ⟨last, hsent, hpart⟩⟩ := h
    · refine ⟨pdus, [], ?_, .inl ⟨hsent, rfl, ?_⟩⟩
      · simp [hwritten, hwriting]
      · simp [hwriting]
    · refine ⟨pdus, part ++ s.writing.take n, ?_, .inr ⟨last, hsent, ?_⟩⟩
      · show s.written ++ s.writing.take n = _
        rw [hwritten, List.append_assoc]
      · show part ++ s.writing.take n ++ s.writing.drop n = encode last
        rw [List.append_assoc, List.take_append_drop, hpart]
  | receive | undecodable | forward | fail | answer | response | ignore | forwarded | hand | draw
  | register | other => exact h

/-! ## The end -/

variable (decode) in
/-- An `unbind` is the last PDU that is handled. -/
def Unbound (s : Link) : Prop :=
  (∀ pdu ∈ s.handled decode, pdu.isUnbind = false) ∨
    (s.consumption = .unbinding ∨ s.consumption = .raised smscUnbind) ∧
      ∃ before last, s.handled decode = before ++ [last] ∧ last.isUnbind = true ∧
        ∀ pdu ∈ before, pdu.isUnbind = false

/-- While the client goes on, there was no `unbind`. -/
theorem Unbound.going (h : s.Unbound decode) (hunbinding : s.consumption ≠ .unbinding)
    (hraised : s.consumption ≠ .raised smscUnbind) :
    ∀ pdu ∈ s.handled decode, pdu.isUnbind = false := by
  rcases h with hnone | ⟨hnow | hnow, -⟩
  · exact hnone
  · exact absurd hnow hunbinding
  · exact absurd hnow hraised

/-- While the client receives, no unbind was handled. -/
theorem Unbound.receiving (h : s.Unbound decode) (hreceiving : s.consumption = .receiving) :
    ∀ pdu ∈ s.handled decode, pdu.isUnbind = false :=
  h.going (by simp [hreceiving]) (by simp [hreceiving])

/-- A PDU that is no unbind leaves it so. -/
theorem Unbound.extract (h : s.Unbound decode) {data rest : Bytes} {pdu : IncomingPDU}
    (hdata : s.Extracts data rest) (hdecode : decode data = .ok pdu) (hpdu : pdu.isUnbind = false) :
    ∀ pdu ∈ (s.extract data rest).handled decode, pdu.isUnbind = false := by
  rw [handled_extract hdecode]
  intro pdu' hpdu'
  rcases List.mem_append.1 hpdu' with hpdu' | hpdu'
  · exact h.receiving hdata.1 pdu' hpdu'
  · rwa [List.mem_singleton.1 hpdu']

/-- A step keeps to it that nothing is handled after an unbind. -/
theorem Unbound.step (h : s.Unbound decode) {a : LinkAction}
    (hstep : step P decode encode s a = some s') : s'.Unbound decode := by
  cases moves_of_step hstep with
  | undecodable env data rest e hdata hdecode =>
    refine .inl ?_
    show ∀ pdu ∈ (s.extract data rest).handled decode, pdu.isUnbind = false
    rw [handled_extract_error hdecode]
    exact h.receiving hdata.1
  | forward env data rest pdu client hdata hdecode => exact .inl (h.extract hdata hdecode rfl)
  | fail env data rest pdu client e hdata hdecode => exact .inl (h.extract hdata hdecode rfl)
  | answer env data rest pdu resp hdata hdecode hanswer =>
    -- An unbind is the last that is handled, because the client then does not receive again.
    cases hpdu : pdu.isUnbind with
    | false => exact .inl (h.extract hdata hdecode hpdu)
    | true =>
      have hhandled : (s.extract data rest).handled decode = s.handled decode ++ [pdu] :=
        handled_extract hdecode
      refine .inr ⟨.inl ?_, s.handled decode, pdu, hhandled, hpdu, h.receiving hdata.1⟩
      show (if true = true then Consumption.unbinding else .answering) = .unbinding
      exact if_pos rfl
  | response env data rest pdu requests hdata hdecode hrequests =>
    exact .inl (h.extract hdata hdecode rfl)
  | ignore env data rest hdata hdecode => exact .inl (h.extract hdata hdecode rfl)
  | forwarded seqNum hforwarding =>
    exact .inl (h.going (by simp [hforwarding]) (by simp [hforwarding]))
  | hand requests hhanding hrequests =>
    exact .inl (h.going (by simp [hhanding]) (by simp [hhanding]))
  | takeAnswer pdu senders hwriting hsenders hpdu hanswering =>
    exact .inl (h.going (by simp [hanswering]) (by simp [hanswering]))
  | takeUnbind pdu senders hwriting hsenders hpdu hunbinding =>
    rcases h with hnone | ⟨-, hlast⟩
    · exact .inl hnone
    · exact .inr ⟨.inr rfl, hlast⟩
  | receive | draw | register | takeRequest | write | other => exact h

/-! ## The dialogue -/

variable (decode) in
/-- What the client and its peer have said. -/
structure Dialogue (s : Link) : Prop where
  /-- What was handled are the frames of what came in, in order. -/
  heard : Takes extractPdu s.received s.extracted s.buffer
  /-- The responses, with the one that waits, are those that these PDUs are owed, in order, but for
  that to a `deliver_sm` which is forwarded, or could not be. -/
  answered : ∃ due, s.owed decode = answers (s.sent ++ s.senders) ++ due ∧
    (due = [] ∨ ∃ seqNum, due = [.deliver_sm_resp seqNum])
  /-- The next PDU is extracted after the response to the one before it was taken. -/
  prompt : s.consumption = .receiving → s.owed decode = answers s.sent
  /-- A request comes to `publish_stream` once, -/
  once : (requestsOf (s.sent ++ s.senders)).Nodup
  /-- and waits for it while `send_pdu` waits. -/
  sending : ∀ i, i ∈ requestsOf s.senders ↔ s.requests.At RequestPhase.IsSending i
  sent : ∀ i, i ∈ requestsOf s.sent ↔ s.requests.At RequestPhase.IsSent i
  /-- An `unbind` is the last PDU that is handled, and `consume_stream` raises once its response was
  taken. -/
  unbind : ∀ before seqNum after,
    s.handled decode = before ++ .unbind seqNum :: after → after = [] ∧
    (s.consumption = .unbinding ∧ answers s.senders = [.unbind_resp seqNum] ∨
      s.consumption = .raised smscUnbind ∧ (answers s.sent).getLast? = some (.unbind_resp seqNum))

/-- The response to an `unbind`. -/
theorem Answered.unbind (h : s.Answered decode) {before : List IncomingPDU} {seqNum : ℕ}
    (hhandled : s.handled decode = before ++ [.unbind seqNum])
    (hconsumption : s.consumption = .unbinding ∨ s.consumption = .raised smscUnbind) :
    s.consumption = .unbinding ∧ answers s.senders = [.unbind_resp seqNum] ∨
      s.consumption = .raised smscUnbind ∧
        (answers s.sent).getLast? = some (.unbind_resp seqNum) := by
  obtain ⟨due, howed, hdue⟩ := h
  -- The last that is owed is the response to the last that was handled.
  have hlast : (s.owed decode).getLast? = some (.unbind_resp seqNum) := by
    rw [owed, hhandled, List.filterMap_append]
    exact List.getLast?_concat
  rw [howed] at hlast
  rcases hconsumption with hunbinding | hraised
  · rw [hunbinding] at hdue
    obtain ⟨hlength, rfl⟩ := hdue
    obtain ⟨resp, hresp⟩ := List.length_eq_one_iff.1 hlength
    rw [hresp, List.append_nil, List.getLast?_concat] at hlast
    refine .inl ⟨hunbinding, ?_⟩
    rw [hresp, Option.some.inj hlast]
  · rw [hraised] at hdue
    obtain ⟨hwaiting, rfl | ⟨seqNum', rfl⟩⟩ := hdue
    · rw [hwaiting, List.append_nil, List.append_nil] at hlast
      exact .inr ⟨hraised, hlast⟩
    · -- A `deliver_sm` that failed would have been handled last.
      rw [List.getLast?_concat] at hlast
      cases hlast

/-- An unbind is the last PDU handled, and is being answered or has ended the client. -/
theorem Unbound.last (h : s.Unbound decode) {before after : List IncomingPDU} {seqNum : ℕ}
    (hhandled : s.handled decode = before ++ .unbind seqNum :: after) :
    after = [] ∧ (s.consumption = .unbinding ∨ s.consumption = .raised smscUnbind) := by
  have hmem : IncomingPDU.unbind seqNum ∈ s.handled decode := by
    rw [hhandled]
    exact List.mem_append_right before List.mem_cons_self
  rcases h with hnone | ⟨hconsumption, before', last, hlast, -, hbefore⟩
  · cases hnone _ hmem
  · refine ⟨?_, hconsumption⟩
    rcases List.eq_nil_or_concat after with rfl | ⟨after', pdu, rfl⟩
    · rfl
    · -- The `unbind` would stand before the last PDU.
      have hsplit : before' ++ [last] = (before ++ .unbind seqNum :: after') ++ [pdu] := by
        rw [← hlast, hhandled]
        simp
      have hbefore' := (List.append_inj' hsplit rfl).1
      have hunbind := hbefore (.unbind seqNum) (by rw [hbefore']; simp)
      cases hunbind

variable (decode encode) in
/-- What every step keeps. -/
structure Conversing (s : Link) : Prop where
  heard : Takes extractPdu s.received s.extracted s.buffer
  answered : s.Answered decode
  placed : s.Placed
  written : s.Written encode
  unbound : s.Unbound decode

/-- A step of any party keeps the dialogue. -/
theorem Conversing.step (h : s.Conversing decode encode) {a : LinkAction}
    (hstep : step P decode encode s a = some s') : s'.Conversing decode encode where
  heard := heard_step h.heard hstep
  answered := h.answered.step hstep
  placed := h.placed.step hstep
  written := h.written.step hstep
  unbound := h.unbound.step hstep

/-- In every run the dialogue is as it should be. -/
theorem conversing_run {sequencer : InMemorySequencer} {client : EsmeClient}
    {actions : List LinkAction}
    (hrun : run (step P decode encode) (new sequencer client) actions = some s) :
    s.Conversing decode encode := by
  refine run_invariant _ (fun _ _ _ h hstep => Conversing.step h hstep) ?_ hrun
  exact ⟨rfl, answered_new sequencer client, placed_new sequencer client,
    ⟨[], [], rfl, .inl ⟨rfl, rfl, rfl⟩⟩, .inl fun pdu hpdu => absurd hpdu List.not_mem_nil⟩

/-- The header of a PDU without a body, as `EnquireLink` and `Unbind` are. -/
def header (commandId : Bytes) (seqNum : ℕ) : Bytes :=
  [0, 0, 0, 16] ++ commandId ++ [0, 0, 0, 0, 0, 0, 0, seqNum.toUInt8]

/-- A decoder of headers without a body: it knows `EnquireLink`, its response and `Unbind`. -/
def decodeHeader (data : Bytes) : Except PyExc IncomingPDU :=
  match (data.drop 4).take 4, fromBytesBig ((data.drop 12).take 4) with
  | [0, 0, 0, 0x15], seqNum => .ok (.enquire_link seqNum)
  | [0x80, 0, 0, 0x15], seqNum => .ok (.response ⟨.enquire_link_resp, seqNum, .ESME_ROK⟩)
  | [0, 0, 0, 0x06], seqNum => .ok (.unbind seqNum)
  | _, _ => .error (.external "PDUCorruptError" [])

/-- The requests are those of `enquire_link`, with the numbers from one on. -/
def encodeHeader : OutgoingPDU → Bytes
  | .request i => header [0, 0, 0, 0x15] (i + 1)
  | .deliver_sm_resp seqNum => header [0x80, 0, 0, 0x05] seqNum
  | .enquire_link_resp seqNum => header [0x80, 0, 0, 0x15] seqNum
  | .unbind_resp seqNum => header [0x80, 0, 0, 0x06] seqNum
  | .generic_nack seqNum => header [0x80, 0, 0, 0] seqNum

/-- A header has its own length in its first field. -/
theorem isFrame_encodeHeader (pdu : OutgoingPDU) : IsFrame (encodeHeader pdu) := by
  cases pdu <;> exact ⟨Nat.le_refl 16, rfl⟩

/-- The processors of the defaults, over a codec that sends every character as one octet. -/
def headerProcessors : Processors := ⟨⟨{}, fun s => .ok (s.map toByte)⟩, .default, .default⟩

/-- A client that has sent nothing. -/
def headerClient : EsmeClient :=
  ⟨⟨0⟩, .new 60, fun _ => .ok (), [], [], fun _ => .generic_nack .ESME_ROK⟩

/-- The client enquires, and is enquired of while its own request is under way. -/
def enquiries : List LinkAction :=
  [.draw .enquire_link_resp, .register 0 true,
    .receive (header [0, 0, 0, 0x15] 7 ++ (header [0x80, 0, 0, 0x15] 1).take 5),
    .handle fun _ => ⟨0, [], DateTime.min⟩, .take, .write 16, .take, .write 9,
    .receive ((header [0x80, 0, 0, 0x15] 1).drop 5), .handle fun _ => ⟨0, [], DateTime.min⟩, .hand,
    .write 7]

/-- The client after that. -/
def enquiredLink : Link where
  requests := EsmeRequests.enquiredClient
  client := headerClient
  buffer := []
  consumption := .receiving
  senders := []
  writing := []
  received := header [0, 0, 0, 0x15] 7 ++ header [0x80, 0, 0, 0x15] 1
  extracted := [header [0, 0, 0, 0x15] 7, header [0x80, 0, 0, 0x15] 1]
  sent := [.request 0, .enquire_link_resp 7]
  written := header [0, 0, 0, 0x15] 1 ++ header [0x80, 0, 0, 0x15] 7

/-- The run of the client that enquires and is enquired of. -/
theorem run_enquiries : run (step headerProcessors decodeHeader encodeHeader)
    (new ⟨0x7FFFFFFF⟩ headerClient) enquiries = some enquiredLink := by
  rfl

/-- In every run, whatever the peer sends and in whatever order the tasks go, the responses are
those to the PDUs that came in, each once and in their order; and each request is sent at most
once. -/
theorem dialogue_of_run {sequencer : InMemorySequencer} {client : EsmeClient}
    {actions : List LinkAction}
    (hrun : run (step P decode encode) (new sequencer client) actions = some s) :
    s.Dialogue decode := by
  have h := conversing_run hrun
  have honce := h.placed.once
  rw [← requestsOf_append] at honce
  refine ⟨h.heard, ?_, ?_, honce, h.placed.sending, h.placed.sent, ?_⟩
  · obtain ⟨due, howed, hdue⟩ := h.answered
    refine ⟨due, by rw [howed, answers_append], ?_⟩
    cases hconsumption : s.consumption <;> rw [hconsumption] at hdue
    · exact .inl hdue.2
    · exact .inr ⟨_, hdue.2⟩
    · exact .inl hdue.2
    · exact .inl hdue.2
    · exact .inl hdue.2
    · exact hdue.2
  · exact fun hreceiving => (h.answered.receiving hreceiving).2
  · intro before seqNum after hhandled
    obtain ⟨rfl, hconsumption⟩ := h.unbound.last hhandled
    exact ⟨rfl, h.answered.unbind hhandled hconsumption⟩

/-- `dialogue_of_run` holds of a client that enquires, is enquired of, and is then asked to
unbind. -/
theorem unbound_dialogue : ∃ s, run (step headerProcessors decodeHeader encodeHeader)
    (new ⟨0x7FFFFFFF⟩ headerClient) (enquiries ++ [.receive (header [0, 0, 0, 0x06] 9),
      .handle fun _ => ⟨0, [], DateTime.min⟩, .take]) = some s ∧ s.Dialogue decodeHeader := by
  obtain ⟨s, hs⟩ : ∃ s, run (step headerProcessors decodeHeader encodeHeader)
      (new ⟨0x7FFFFFFF⟩ headerClient) (enquiries ++ [.receive (header [0, 0, 0, 0x06] 9),
        .handle fun _ => ⟨0, [], DateTime.min⟩, .take]) = some s := ⟨_, rfl⟩
  exact ⟨s, hs, dialogue_of_run hs⟩

/-- What the peer gets to know from the first PDUs that were taken. -/
theorem Conversing.front (h : s.Conversing decode encode) {pdus : List OutgoingPDU}
    (hpdus : pdus <+: s.sent) : answers pdus <+: s.owed decode ∧ (requestsOf pdus).Nodup ∧
      ∀ i ∈ requestsOf pdus, s.requests.At RequestPhase.IsSent i := by
  obtain ⟨others, hsent⟩ := hpdus
  obtain ⟨due, howed, -⟩ := h.answered
  have honce := (List.nodup_append.1 h.placed.once).1
  rw [← hsent, requestsOf_append] at honce
  refine ⟨?_, (List.nodup_append.1 honce).1, fun i hi => ?_⟩
  · rw [howed, ← hsent, answers_append, List.append_assoc, List.append_assoc]
    exact List.prefix_append _ _
  · rw [← h.placed.sent, ← hsent, requestsOf_append]
    exact List.mem_append_left _ hi

/-- A peer that cuts what was written by the length fields reads the responses that it is owed, in
order, and each request once. Only the last PDU may be there in part. -/
theorem peer_reads (hencode : ∀ pdu, IsFrame (encode pdu)) {sequencer : InMemorySequencer}
    {client : EsmeClient} {actions : List LinkAction}
    (hrun : run (step P decode encode) (new sequencer client) actions = some s) :
    ∃ pdus part, Drains extractPdu s.written (pdus.map encode) part ∧
      answers pdus <+: s.owed decode ∧ (requestsOf pdus).Nodup ∧
      (∀ i ∈ requestsOf pdus, s.requests.At RequestPhase.IsSent i) ∧
      (s.sent = pdus ∧ part = [] ∧ s.writing = [] ∨
        ∃ last, s.sent = pdus ++ [last] ∧ part ++ s.writing = encode last ∧ s.writing ≠ []) := by
  have h := conversing_run hrun
  have hframes : ∀ pdus : List OutgoingPDU, ∀ f ∈ pdus.map encode, IsFrame f := by
    intro pdus f hf
    obtain ⟨pdu, -, rfl⟩ := List.mem_map.1 hf
    exact hencode pdu
  by_cases hwriting : s.writing = []
  · -- All is written, so all is read.
    obtain ⟨hanswers, honce, hsent⟩ := h.front (List.prefix_refl s.sent)
    refine ⟨s.sent, [], ?_, hanswers, honce, hsent, .inl ⟨rfl, rfl, hwriting⟩⟩
    have hnil : extractPdu [] = (none, []) := rfl
    have hdrains := drains_frames (hframes s.sent) hnil
    rwa [List.append_nil, ← h.written.all hwriting] at hdrains
  · obtain ⟨pdus, part, hwritten, ⟨-, -, hnone⟩ | ⟨last, hlast, hpart⟩⟩ := h.written
    · exact absurd hnone hwriting
    · obtain ⟨hanswers, honce, hsent⟩ := h.front ⟨[last], hlast.symm⟩
      refine ⟨pdus, part, ?_, hanswers, honce, hsent, .inr ⟨last, hlast, hpart, hwriting⟩⟩
      have hproper : part ≠ encode last := by
        rw [← hpart]
        exact fun heq => hwriting (List.self_eq_append_right.1 heq)
      have htrailing : extractPdu part = (none, part) :=
        extractPdu_trailing (hencode last) ⟨s.writing, hpart⟩ hproper
      rw [hwritten]
      exact drains_frames (hframes pdus) htrailing

/-- `peer_reads` holds of the client that enquires and is enquired of. -/
theorem enquiredLink_read : ∃ pdus part,
    Drains extractPdu enquiredLink.written (pdus.map encodeHeader) part ∧
      answers pdus <+: enquiredLink.owed decodeHeader ∧ (requestsOf pdus).Nodup ∧
      (∀ i ∈ requestsOf pdus, enquiredLink.requests.At RequestPhase.IsSent i) ∧
      (enquiredLink.sent = pdus ∧ part = [] ∧ enquiredLink.writing = [] ∨
        ∃ last, enquiredLink.sent = pdus ++ [last] ∧
          part ++ enquiredLink.writing = encodeHeader last ∧ enquiredLink.writing ≠ []) :=
  peer_reads isFrame_encodeHeader run_enquiries

end Link

end Vumi2.Smpp
