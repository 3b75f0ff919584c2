import Vumi2.Smpp.Dialogue

/-!
# Responses through the link

The table of responses as a part of the link: `requestAction` is what a step of the link does to the
requests, so that every run of the link is one of `EsmeRequests` besides. A peer that answers what
it was sent then has its responses delivered, each to the task that asked (`responses_delivered`).

The client does not get stuck: where nothing can move any more, and nothing has raised, it has
answered all that came in, and waits for the peer (`no_deadlock`).
-/

namespace Vumi2.Smpp

open Effect Eff Text Machine Slots Framing

/-- The call of `send_pdu` has not returned. -/
def RequestPhase.IsAwaiting : RequestPhase → Prop
  | .sending _ | .waiting _ => True
  | _ => False

/-- The response that `handle_pdu` is called with. -/
def RequestAction.arriving : RequestAction → Option ResponsePDU
  | .arrive pdu => some pdu
  | _ => none

namespace EsmeRequests

variable {s s' : EsmeRequests}

/-- A response that was taken for a request is on its way to it, or has come there. -/
structure Handed (s : EsmeRequests) : Prop where
  awaiting : ∀ i pdu, s.handing = some (i, pdu) → s.At RequestPhase.IsAwaiting i
  answered : ∀ i r, s.requests[i]? = some r → r.answered = true →
    (∃ pdu, s.handing = some (i, pdu)) ∨ ∃ pdu, r.response = some pdu

/-- In a new client no response is on its way to a task. -/
theorem handed_new (sequencer : InMemorySequencer) : (new sequencer).Handed where
  awaiting := fun i pdu h => by cases h
  answered := fun i r h => by cases h

/-- An outstanding request waits for its response. -/
theorem isAwaiting_of_outstanding {r : Request} (h : r.Outstanding) : r.phase.IsAwaiting := by
  obtain ⟨-, hphase⟩ := h
  cases hr : r.phase <;> rw [hr] at hphase
  · exact hphase
  · trivial
  · trivial
  · exact hphase

/-- A request that moves on, and is not handed a response by it. -/
theorem Handed.change (h : s.Handed) {i : ℕ} {r r' : Request} (hi : s.requests[i]? = some r)
    (hrequests : s'.requests = s.requests.set i r') (hhanding : s'.handing = s.handing)
    (hanswered : r'.answered = r.answered) (hawaiting : r'.phase.IsAwaiting)
    (hnone : r.response = none) : s'.Handed where
  awaiting := by
    intro j pdu hj
    rw [hhanding] at hj
    rw [at_set hi hrequests]
    rcases eq_or_ne j i with rfl | hne
    · exact .inl ⟨rfl, hawaiting⟩
    · exact .inr ⟨hne, h.awaiting j pdu hj⟩
  answered := by
    rw [hrequests, hhanding]
    refine forall_getElem?_set hi (fun j q _ hj => h.answered j q hj) fun hr' => ?_
    rcases h.answered i r hi (hanswered ▸ hr') with hnow | ⟨pdu, hpdu⟩
    · exact .inl hnow
    · rw [hnone] at hpdu
      cases hpdu

/-- A step hands each response to the task that waits for it. -/
theorem Handed.step (h : s.Handed) (htable : s.Table) {a : RequestAction}
    (hstep : s.step a = some s') : s'.Handed := by
  cases moves_of_step hstep with
  | draw requireAck =>
    -- A request that was just drawn has no answer.
    refine ⟨fun i pdu hi => (at_draw id).2 (h.awaiting i pdu hi), fun i r hi hanswered => ?_⟩
    rcases getElem?_append_singleton.1 hi with hi | ⟨-, rfl⟩
    · exact h.answered i r hi hanswered
    · cases hanswered
  | register i check_response r hi hphase =>
    exact h.change hi rfl rfl rfl trivial (by rw [Request.response, hphase])
  | publish i check_response r hi hphase =>
    exact h.change hi rfl rfl rfl trivial (by rw [Request.response, hphase])
  | arrive pdu i hidle hrunning hchannel =>
    -- The response that comes is handed over next, and nothing else is on its way.
    obtain ⟨r, hi, hr, -⟩ := htable.sound _ i hchannel
    constructor
    · intro j pdu' hj
      obtain ⟨rfl, rfl⟩ : i = j ∧ pdu = pdu' := Prod.mk.inj (Option.some.inj hj)
      have hawaiting : r.phase.IsAwaiting := isAwaiting_of_outstanding hr
      exact (at_set hi (requests_take hi pdu)).2 (.inl ⟨rfl, hawaiting⟩)
    · show ∀ j q, (s.take i pdu).requests[j]? = some q → _
      rw [requests_take hi pdu]
      refine forall_getElem?_set hi (fun j q hne hj hq => ?_) fun _ => .inl ⟨pdu, rfl⟩
      rcases h.answered j q hj hq with ⟨pdu', hpdu'⟩ | hgot
      · rw [hidle] at hpdu'
        cases hpdu'
      · exact .inr hgot
  | unknown pdu hidle hrunning hchannel => exact ⟨h.awaiting, h.answered⟩
  | hand i pdu r check_response hhanding hi hphase =>
    refine ⟨fun j pdu' hj => (by cases hj), ?_⟩
    -- The one request has got its response, and no other was being handed one.
    refine forall_getElem?_set hi (fun j q hne hj hq => ?_) fun _ => .inr ⟨pdu, rfl⟩
    rcases h.answered j q hj hq with ⟨pdu', hpdu'⟩ | hgot
    · rw [hhanding] at hpdu'
      exact absurd (Prod.mk.inj (Option.some.inj hpdu')).1.symm hne
    · exact .inr hgot

/-- Only an arriving response is noted. -/
theorem arrived_step {a : RequestAction} (hstep : s.step a = some s') :
    s'.arrived = s.arrived ++ a.arriving.toList := by
  cases moves_of_step hstep with
  | arrive | unknown => rfl
  | draw | register | publish | hand => exact (List.append_nil _).symm

end EsmeRequests

namespace Link

variable {P : Processors} {decode : Bytes → Except PyExc IncomingPDU} {encode : OutgoingPDU → Bytes}
  {s s' : Link}

/-! ## The requests of a run -/

variable (decode) in
/-- What a step of the link does to the requests. -/
def requestAction (s : Link) : LinkAction → Option RequestAction
  | .handle _ =>
    match extractPdu s.buffer with
    | (some data, _) =>
      match decode data with
      | .ok (.response pdu) => some (.arrive pdu)
      | _ => none
    | (none, _) => none
  | .hand => some .hand
  | .draw requireAck => some (.draw requireAck)
  | .register i check_response => some (.register i check_response)
  | .take =>
    match s.senders with
    | .request i :: _ => some (.publish i)
    | _ => none
  | .receive _ | .forwarded | .write _ | .other _ => none

/-- A response that was extracted arrives among the requests. -/
theorem requestAction_response {env : ℕ → Reading} {data rest : Bytes} {pdu : ResponsePDU}
    (hdata : s.Extracts data rest) (hdecode : decode data = .ok (.response pdu)) :
    s.requestAction decode (.handle env) = some (.arrive pdu) := by
  rw [requestAction, hdata.2]
  dsimp only
  rw [hdecode]

/-- Another PDU does nothing to the requests. -/
theorem requestAction_request {env : ℕ → Reading} {data rest : Bytes} {pdu : IncomingPDU}
    (hdata : s.Extracts data rest) (hdecode : decode data = .ok pdu)
    (hpdu : pdu.response? = none) : s.requestAction decode (.handle env) = none := by
  rw [requestAction, hdata.2]
  dsimp only
  rw [hdecode]
  cases pdu with
  | response pdu => cases hpdu
  | deliver_sm | enquire_link | unbind | other_request | unknown => rfl

/-- Nor do bytes that do not decode. -/
theorem requestAction_undecodable {env : ℕ → Reading} {data rest : Bytes} {e : PyExc}
    (hdata : s.Extracts data rest) (hdecode : decode data = .error e) :
    s.requestAction decode (.handle env) = none := by
  rw [requestAction, hdata.2]
  dsimp only
  rw [hdecode]

/-- A PDU that is owed a response is none. -/
theorem response?_of_answer {pdu : IncomingPDU} {resp : OutgoingPDU} (h : pdu.answer = some resp) :
    pdu.response? = none := by
  cases pdu with
  | response pdu => cases h
  | deliver_sm | enquire_link | unbind | other_request | unknown => rfl

/-- Nor does an answer that is written. -/
theorem requestAction_answer {pdu : OutgoingPDU} {senders : List OutgoingPDU}
    (hsenders : s.senders = pdu :: senders) (hpdu : pdu.request? = none) :
    s.requestAction decode .take = none := by
  rw [requestAction, hsenders]
  cases pdu with
  | request i => cases hpdu
  | deliver_sm_resp | enquire_link_resp | unbind_resp | generic_nack => rfl

/-- A step of the link is one of the requests, or leaves them alone. -/
theorem requests_step {a : LinkAction} (hstep : step P decode encode s a = some s') :
    (∃ b, s.requestAction decode a = some b ∧ s.requests.step b = some s'.requests) ∨
      s.requestAction decode a = none ∧ s'.requests = s.requests := by
  -- Only the arrival of a response and the tasks themselves move the requests.
  cases moves_of_step hstep with
  | receive | forwarded | write | other => exact .inr ⟨rfl, rfl⟩
  | undecodable env data rest e hdata hdecode =>
    exact .inr ⟨requestAction_undecodable hdata hdecode, rfl⟩
  | forward env data rest pdu client hdata hdecode =>
    exact .inr ⟨requestAction_request hdata hdecode rfl, rfl⟩
  | fail env data rest pdu client e hdata hdecode =>
    exact .inr ⟨requestAction_request hdata hdecode rfl, rfl⟩
  | answer env data rest pdu resp hdata hdecode hanswer =>
    exact .inr ⟨requestAction_request hdata hdecode (response?_of_answer hanswer), rfl⟩
  | response env data rest pdu requests hdata hdecode hrequests =>
    exact .inl ⟨_, requestAction_response hdata hdecode, hrequests⟩
  | ignore env data rest hdata hdecode =>
    exact .inr ⟨requestAction_request hdata hdecode rfl, rfl⟩
  | hand requests hhanding hrequests => exact .inl ⟨_, rfl, hrequests⟩
  | draw requireAck requests hrequests => exact .inl ⟨_, rfl, hrequests⟩
  | register i check_response requests hrequests => exact .inl ⟨_, rfl, hrequests⟩
  | takeRequest i senders requests hwriting hsenders hrequests =>
    exact .inl ⟨.publish i, by rw [requestAction, hsenders], hrequests⟩
  | takeAnswer pdu senders hwriting hsenders hpdu hanswering =>
    exact .inr ⟨requestAction_answer hsenders hpdu, rfl⟩
  | takeUnbind pdu senders hwriting hsenders hpdu hunbinding =>
    exact .inr ⟨requestAction_answer hsenders hpdu, rfl⟩

variable (decode) in
/-- The responses that came in. -/
def responses (s : Link) : List ResponsePDU := (s.handled decode).filterMap IncomingPDU.response?

/-- Extracting a PDU adds it to the responses, if it is one. -/
theorem responses_extract {data rest : Bytes} {pdu : IncomingPDU}
    (hdecode : decode data = .ok pdu) :
    (s.extract data rest).responses decode = s.responses decode ++ pdu.response?.toList := by
  have hone : [pdu].filterMap IncomingPDU.response? = pdu.response?.toList := by cases pdu <;> rfl
  rw [responses, handled_extract hdecode, List.filterMap_append, hone, responses]

/-- A PDU that is no response leaves them alone. -/
theorem arrived_extract (h : s.requests.arrived = s.responses decode) {data : Bytes} (rest : Bytes)
    {pdu : IncomingPDU} (hdecode : decode data = .ok pdu) (hpdu : pdu.response? = none) :
    s.requests.arrived = (s.extract data rest).responses decode := by
  rw [responses_extract hdecode, hpdu, h]
  exact (List.append_nil _).symm

/-- Nor does a step of the requests, unless a response arrives. -/
theorem arrived_requests (h : s.requests.arrived = s.responses decode) {b : RequestAction}
    {requests : EsmeRequests} (hb : b.arriving = none)
    (hrequests : s.requests.step b = some requests) : requests.arrived = s.responses decode := by
  rw [EsmeRequests.arrived_step hrequests, hb, h]
  exact List.append_nil _

/-- `handle_pdu` is called with each response that comes in. -/
theorem arrived_step (h : s.requests.arrived = s.responses decode) {a : LinkAction}
    (hstep : step P decode encode s a = some s') : s'.requests.arrived = s'.responses decode := by
  cases moves_of_step hstep with
  | receive | forwarded | takeAnswer | takeUnbind | write | other => exact h
  | undecodable env data rest e hdata hdecode =>
    show s.requests.arrived = (s.extract data rest).responses decode
    rw [responses, handled_extract_error hdecode]
    exact h
  | forward env data rest pdu client hdata hdecode => exact arrived_extract h rest hdecode rfl
  | fail env data rest pdu client e hdata hdecode => exact arrived_extract h rest hdecode rfl
  | answer env data rest pdu resp hdata hdecode hanswer =>
    exact arrived_extract h rest hdecode (response?_of_answer hanswer)
  | response env data rest pdu requests hdata hdecode hrequests =>
    -- It is one response more, on either side.
    show requests.arrived = (s.extract data rest).responses decode
    rw [EsmeRequests.arrived_step hrequests, responses_extract hdecode, h]
    rfl
  | ignore env data rest hdata hdecode => exact arrived_extract h rest hdecode rfl
  | hand requests hhanding hrequests => exact arrived_requests h rfl hrequests
  | draw requireAck requests hrequests => exact arrived_requests h rfl hrequests
  | register i check_response requests hrequests => exact arrived_requests h rfl hrequests
  | takeRequest i senders requests hwriting hsenders hrequests =>
    exact arrived_requests h rfl hrequests

variable (decode) in
/-- A timely step, and an honest peer, as far as the requests are concerned. -/
def Proper (s : Link) (a : LinkAction) : Prop :=
  ∀ b, s.requestAction decode a = some b → s.requests.Timely b ∧ s.requests.Honest b

/-- A proper step keeps the table of responses and the requests in accord. -/
theorem exact_step {start : ℕ} (h : s.requests.Exact start) {a : LinkAction}
    (hproper : s.Proper decode a) (hstep : step P decode encode s a = some s') :
    s'.requests.Exact start := by
  rcases requests_step hstep with ⟨b, hb, hrequests⟩ | ⟨-, hrequests⟩
  · obtain ⟨htimely, hhonest⟩ := hproper b hb
    exact h.step htimely hhonest hrequests
  · rwa [hrequests]

/-- In every run in which no number comes back while its request is outstanding, and the peer
answers each request that was taken at most once, each response among the PDUs that came in goes to
the task that asked for it, whatever else comes in between; and none of them makes the client
raise. -/
theorem responses_delivered {sequencer : InMemorySequencer} {client : EsmeClient}
    {actions : List LinkAction}
    (hok : Meets (step P decode encode) (Proper decode) (new sequencer client) actions)
    (hrun : run (step P decode encode) (new sequencer client) actions = some s) :
    s.requests.Correlated ∧
      (s.responses decode).Perm (s.requests.got ++ s.requests.beingHanded) := by
  have hexact : s.requests.Exact sequencer.sequence_number :=
    run_induction _ (fun _ _ _ h hproper hstep => exact_step h hproper hstep)
      (EsmeRequests.exact_new sequencer) hok hrun
  have harrived : s.requests.arrived = s.responses decode :=
    run_invariant _ (fun _ _ _ h hstep => arrived_step h hstep) rfl hrun
  refine ⟨hexact.correlated, ?_⟩
  rw [← harrived]
  exact hexact.arrived

/-- `responses_delivered` holds of a client that enquires, and is enquired of meanwhile. -/
theorem enquiry_delivered : enquiredLink.requests.Correlated ∧
    (enquiredLink.responses decodeHeader).Perm
      (enquiredLink.requests.got ++ enquiredLink.requests.beingHanded) := by
  refine responses_delivered ?_ run_enquiries
  -- Each action is proper because it is none of the requests, or because of its own conditions.
  have hnone : ∀ {s : Link} {a : LinkAction}, s.requestAction decodeHeader a = none →
      s.Proper decodeHeader a := fun hnone b hb => by rw [hnone] at hb; cases hb
  have hsome : ∀ {s : Link} {a : LinkAction} {b : RequestAction},
      s.requestAction decodeHeader a = some b → s.requests.Timely b ∧ s.requests.Honest b →
        s.Proper decodeHeader a := fun hsome h b hb => by
    rw [hsome] at hb
    rwa [← Option.some.inj hb]
  refine meets_cons _ (hsome rfl ⟨fun i r hi => (by cases hi), trivial⟩) rfl ?_
  refine meets_cons _ (hsome rfl ⟨by show 1 < 0 + 1 + 0x7FFFFFFF; omega, trivial⟩) rfl ?_
  refine meets_cons _ (hnone rfl) rfl ?_
  refine meets_cons _ (hnone rfl) rfl ?_
  refine meets_cons _ (hsome rfl ⟨trivial, trivial⟩) rfl ?_
  refine meets_cons _ (hnone rfl) rfl ?_
  refine meets_cons _ (hnone rfl) rfl ?_
  refine meets_cons _ (hnone rfl) rfl ?_
  refine meets_cons _ (hnone rfl) rfl ?_
  -- The one response that comes belongs to the request that was sent.
  refine meets_cons _ (hsome rfl ⟨trivial, 0, _, rfl, trivial, rfl, rfl⟩) rfl ?_
  refine meets_cons _ (hsome rfl ⟨trivial, trivial⟩) rfl ?_
  exact meets_cons _ (hnone rfl) rfl trivial

/-! ## Where the client comes to rest -/

/-- `consume_stream` and the table agree on whether a response is being handed over. -/
structure Handing (s : Link) : Prop where
  table : s.requests.Table
  handed : s.requests.Handed
  handing : s.consumption = .handing → ∃ i pdu, s.requests.handing = some (i, pdu)
  idle : s.consumption ≠ .handing → s.requests.handing = none
  raised : s.requests.raised = true → s.consumption = .raised .keyError

/-- In a new client nothing is being handed over. -/
theorem handing_new (sequencer : InMemorySequencer) (client : EsmeClient) :
    (new sequencer client).Handing where
  table := EsmeRequests.table_new sequencer
  handed := EsmeRequests.handed_new sequencer
  handing := fun h => by cases h
  idle := fun _ => rfl
  raised := fun h => by cases h

/-- A request that is drawn, registered or sent leaves alone what is being handed over. -/
theorem Handing.requests (h : s.Handing) {b : RequestAction}
    {requests : EsmeRequests} (hb : b.arriving = none) (hhand : b ≠ .hand)
    (hstep : s.requests.step b = some requests) (hconsumption : s'.consumption = s.consumption)
    (hrequests : s'.requests = requests) : s'.Handing := by
  have htable := h.table.step hstep
  have hhanded := h.handed.step h.table hstep
  have hkept : requests.handing = s.requests.handing ∧ requests.raised = s.requests.raised := by
    cases EsmeRequests.moves_of_step hstep with
    | draw | register | publish => exact ⟨rfl, rfl⟩
    | arrive | unknown => cases hb
    | hand => exact absurd rfl hhand
  obtain ⟨hhanding, hraised⟩ := hkept
  subst hrequests
  refine ⟨htable, hhanded, ?_, ?_, ?_⟩
  · rw [hconsumption, hhanding]
    exact h.handing
  · rw [hconsumption, hhanding]
    exact h.idle
  · rw [hconsumption, hraised]
    exact h.raised

/-- `consume_stream` goes on, and hands over no response before or after. -/
theorem Handing.goes (h : s.Handing) (hrequests : s'.requests = s.requests)
    (hbefore : s.consumption ≠ .handing) (hrunning : ∀ e, s.consumption ≠ .raised e)
    (hafter : s'.consumption ≠ .handing) : s'.Handing where
  table := by
    rw [hrequests]
    exact h.table
  handed := by
    rw [hrequests]
    exact h.handed
  handing := fun hnow => absurd hnow hafter
  idle := by
    rw [hrequests]
    exact fun _ => h.idle hbefore
  raised := by
    rw [hrequests]
    exact fun hraised => absurd (h.raised hraised) (hrunning _)

/-- A step leaves the client handing over exactly while a response is on its way. -/
theorem Handing.step (h : s.Handing) {a : LinkAction}
    (hstep : step P decode encode s a = some s') : s'.Handing := by
  cases moves_of_step hstep with
  | receive | write | other => exact ⟨h.table, h.handed, h.handing, h.idle, h.raised⟩
  | undecodable env data rest e hdata hdecode =>
    exact h.goes rfl (by simp [hdata.1]) (by simp [hdata.1]) (by simp [goOn])
  | forward env data rest pdu client hdata hdecode =>
    exact h.goes rfl (by simp [hdata.1]) (by simp [hdata.1]) (by simp [goOn])
  | fail env data rest pdu client e hdata hdecode =>
    exact h.goes rfl (by simp [hdata.1]) (by simp [hdata.1]) (by simp [goOn])
  | answer env data rest pdu resp hdata hdecode hanswer =>
    refine h.goes rfl (by simp [hdata.1]) (by simp [hdata.1]) ?_
    show (if pdu.isUnbind = true then Consumption.unbinding else .answering) ≠ .handing
    split_ifs <;> simp
  | response env data rest pdu requests hdata hdecode hrequests =>
    have htable := h.table.step hrequests
    have hhanded := h.handed.step h.table hrequests
    cases EsmeRequests.moves_of_step hrequests with
    | arrive _ i hidle hrunning hchannel =>
      -- The client goes to hand it over, or raises because there is no channel.
      have hnow : (if s.requests.raised = true then Consumption.raised .keyError else .handing) =
          .handing := by rw [hrunning]; rfl
      refine ⟨htable, hhanded, fun _ => ⟨i, pdu, rfl⟩, fun hne => absurd hnow hne,
        fun hraised => ?_⟩
      have hfalse : s.requests.raised = true := hraised
      rw [hrunning] at hfalse
      cases hfalse
    | unknown _ hidle hrunning hchannel =>
      exact ⟨htable, hhanded, fun hnow => (by cases hnow), fun _ => hidle, fun _ => rfl⟩
  | ignore env data rest hdata hdecode =>
    exact ⟨h.table, h.handed, h.handing, h.idle, h.raised⟩
  | forwarded seqNum hforwarding =>
    exact h.goes rfl (by simp [hforwarding]) (by simp [hforwarding]) (by simp [goOn])
  | hand requests hhanding hrequests =>
    have htable := h.table.step hrequests
    have hhanded := h.handed.step h.table hrequests
    cases EsmeRequests.moves_of_step hrequests with
    | hand i pdu r check_response hnow hi hphase =>
      -- It has been handed over, so the client receives again.
      refine ⟨htable, hhanded, fun hnow => (by cases hnow), fun _ => rfl, fun hraised => ?_⟩
      have hraised' := h.raised hraised
      rw [hhanding] at hraised'
      cases hraised'
  | draw requireAck requests hrequests =>
    exact h.requests rfl (by simp) hrequests rfl rfl
  | register i check_response requests hrequests =>
    exact h.requests rfl (by simp) hrequests rfl rfl
  | takeRequest i senders requests hwriting hsenders hrequests =>
    exact h.requests rfl (by simp) hrequests rfl rfl
  | takeAnswer pdu senders hwriting hsenders hpdu hanswering =>
    exact h.goes rfl (by simp [hanswering]) (by simp [hanswering]) (by simp [goOn])
  | takeUnbind pdu senders hwriting hsenders hpdu hunbinding =>
    exact h.goes rfl (by simp [hunbinding]) (by simp [hunbinding]) (by simp [goOn])

/-- So it is in every run. -/
theorem handing_run {sequencer : InMemorySequencer} {client : EsmeClient}
    {actions : List LinkAction}
    (hrun : run (step P decode encode) (new sequencer client) actions = some s) :
    s.Handing :=
  run_invariant _ (fun _ _ _ h hstep => Handing.step h hstep) (handing_new sequencer client) hrun

variable (P decode encode) in
/-- Nothing can move, unless the peer sends something or a task makes a new request. -/
structure Quiet (s : Link) : Prop where
  handle : ∀ env, step P decode encode s (.handle env) = none
  forwarded : step P decode encode s .forwarded = none
  hand : step P decode encode s .hand = none
  take : step P decode encode s .take = none
  written : s.writing = []

/-- `consume_stream` goes on when its answer was taken. -/
theorem taken_answering {pdu : OutgoingPDU} (hpdu : pdu.request? = none)
    (h : s.consumption = .answering) : taken s pdu = some (s.goOn .receiving) := by
  cases pdu with
  | request i => cases hpdu
  | deliver_sm_resp | enquire_link_resp | unbind_resp | generic_nack => simp only [taken, h]

/-- `consume_stream` raises when its answer to an unbind was taken. -/
theorem taken_unbinding {pdu : OutgoingPDU} (hpdu : pdu.request? = none)
    (h : s.consumption = .unbinding) : taken s pdu = some (s.goOn (.raised smscUnbind)) := by
  cases pdu with
  | request i => cases hpdu
  | deliver_sm_resp | enquire_link_resp | unbind_resp | generic_nack => simp only [taken, h]

/-- A request that waits to be written can be. -/
theorem exists_publish {requests : EsmeRequests} {i : ℕ}
    (h : requests.At RequestPhase.IsSending i) :
    ∃ requests', requests.publish i = some requests' := by
  obtain ⟨⟨seqNum, requireAck, phase, answered⟩, hi, hphase⟩ := h
  unfold EsmeRequests.publish
  rw [hi]
  cases phase with
  | sending check_response => exact ⟨_, rfl⟩
  | drawn | waiting | returned => exact hphase.elim

/-- A response that has come is taken by the task that waits for it. -/
theorem exists_hand {requests : EsmeRequests} {i : ℕ} {pdu : ResponsePDU}
    (hhanding : requests.handing = some (i, pdu)) (h : requests.At RequestPhase.IsAwaiting i)
    (hnot : ¬ requests.At RequestPhase.IsSending i) :
    ∃ requests', requests.hand = some requests' := by
  obtain ⟨⟨seqNum, requireAck, phase, answered⟩, hi, hphase⟩ := h
  unfold EsmeRequests.hand
  rw [hhanding]
  dsimp only
  rw [hi]
  cases phase with
  | waiting check_response => exact ⟨_, rfl⟩
  | sending check_response => exact absurd ⟨_, hi, trivial⟩ hnot
  | drawn | returned => exact hphase.elim

/-- `publish_stream` can take the first PDU that waits. -/
theorem exists_take (h : s.Answered decode) (hplaced : s.Placed) (hwriting : s.writing = [])
    (hsenders : s.senders ≠ []) : ∃ s', step P decode encode s .take = some s' := by
  obtain ⟨pdu, senders, hsenders⟩ := List.exists_cons_of_ne_nil hsenders
  have htaken : step P decode encode s .take = taken (s.publish pdu senders (encode pdu)) pdu := by
    simp only [step, hwriting, hsenders]
  rw [htaken]
  cases hpdu : pdu.request? with
  | some i =>
    cases pdu with
    | request j =>
      have hsending : s.requests.At RequestPhase.IsSending j := by
        rw [← hplaced.sending, hsenders, requestsOf_request]
        exact List.mem_cons_self
      obtain ⟨requests, hrequests⟩ := exists_publish hsending
      refine ⟨(s.publish (.request j) senders (encode (.request j))).withRequests requests, ?_⟩
      exact congrArg (Option.map _) hrequests
    | deliver_sm_resp | enquire_link_resp | unbind_resp | generic_nack => cases hpdu
  | none =>
    -- A response waits, so `consume_stream` waits with it.
    obtain ⟨due, -, hdue⟩ := h
    rw [hsenders, answers_cons hpdu] at hdue
    cases hconsumption : s.consumption <;> rw [hconsumption] at hdue
    · cases hdue.1
    · cases hdue.1
    · exact ⟨_, taken_answering hpdu hconsumption⟩
    · exact ⟨_, taken_unbinding hpdu hconsumption⟩
    · cases hdue.1
    · cases hdue.1

/-- `consume_stream` can handle a PDU that has come. -/
theorem exists_handle (h : s.Handing) {data rest : Bytes} (hdata : s.Extracts data rest)
    (env : ℕ → Reading) : ∃ s', step P decode encode s (.handle env) = some s' := by
  -- Every PDU has a case; only a response needs the client to be idle.
  simp only [step, handle, hdata.1, hdata.2, if_true]
  cases decode data with
  | error e => exact ⟨_, rfl⟩
  | ok pdu =>
    cases pdu with
    | deliver_sm pdu =>
      simp only [handlePdu]
      split <;> exact ⟨_, rfl⟩
    | enquire_link | unbind | other_request | unknown => exact ⟨_, rfl⟩
    | response pdu =>
      have hidle : s.requests.handing = none := h.idle (by simp [hdata.1])
      -- A client that has raised is not receiving.
      have hrunning : s.requests.raised = false := by
        by_contra hraised
        have hkey := h.raised (Bool.not_eq_false _ ▸ hraised)
        rw [hdata.1] at hkey
        cases hkey
      have harrive : ∃ requests, s.requests.arrive pdu = some requests := by
        unfold EsmeRequests.arrive
        rw [if_pos ⟨hidle, hrunning⟩]
        split <;> exact ⟨_, rfl⟩
      obtain ⟨requests, hrequests⟩ := harrive
      exact ⟨_, congrArg (Option.map _) hrequests⟩

/-- A client that is quiet, and has not raised, waits for data. -/
theorem Quiet.receiving (hquiet : s.Quiet P decode encode) (h : s.Answered decode)
    (hplaced : s.Placed) (hhanding : s.Handing) (hraised : ∀ e, s.consumption ≠ .raised e) :
    s.consumption = .receiving ∧ s.senders = [] := by
  have hsenders : s.senders = [] := by
    by_contra hne
    have htake : ∃ s', step P decode encode s .take = some s' :=
      exists_take h hplaced hquiet.written hne
    rw [hquiet.take] at htake
    obtain ⟨s', hs'⟩ := htake
    cases hs'
  refine ⟨?_, hsenders⟩
  obtain ⟨due, -, hdue⟩ := h
  rw [hsenders] at hdue
  cases hconsumption : s.consumption with
  | receiving => rfl
  | forwarding seqNum =>
    have hforwarded := hquiet.forwarded
    simp only [step, hconsumption] at hforwarded
    cases hforwarded
  | answering =>
    rw [hconsumption] at hdue
    cases hdue.1
  | unbinding =>
    rw [hconsumption] at hdue
    cases hdue.1
  | handing =>
    -- The request that the response is for was sent, so its task takes it.
    obtain ⟨i, pdu, hi⟩ := hhanding.handing hconsumption
    have hnot : ¬ s.requests.At RequestPhase.IsSending i := by
      rw [← hplaced.sending, hsenders]
      exact List.not_mem_nil
    obtain ⟨requests, hrequests⟩ := exists_hand hi (hhanding.handed.awaiting i pdu hi) hnot
    have hhand := hquiet.hand
    simp only [step, hconsumption, if_true, hrequests] at hhand
    cases hhand
  | raised e => exact absurd hconsumption (hraised e)

/-- Where nothing can move any more, and `consume_stream` has not raised, every frame that has come
is handled, every response that is owed is written, and a request that was registered has its
response or waits for one that has not come. So the client never gets stuck of itself. -/
theorem no_deadlock {sequencer : InMemorySequencer} {client : EsmeClient}
    {actions : List LinkAction}
    (hrun : run (step P decode encode) (new sequencer client) actions = some s)
    (hquiet : s.Quiet P decode encode) (hraised : ∀ e, s.consumption ≠ .raised e) :
    Drains extractPdu s.received s.extracted s.buffer ∧ s.owed decode = answers s.sent ∧
      s.written = (s.sent.map encode).flatten ∧
      ∀ r ∈ s.requests.requests, r.phase = .drawn ∨ r.Sent ∧ r.answered = false ∨
        ∃ pdu, r.response = some pdu := by
  have h := conversing_run hrun
  have hhanding := handing_run hrun
  -- As the client receives, no task is left in `send_pdu`, and nothing is owed.
  obtain ⟨hreceiving, hsenders⟩ := hquiet.receiving h.answered h.placed hhanding hraised
  have hidle : s.requests.handing = none := hhanding.idle (by simp [hreceiving])
  refine ⟨⟨h.heard, ?_⟩, (h.answered.receiving hreceiving).2, h.written.all hquiet.written, ?_⟩
  · rcases hextract : extractPdu s.buffer with ⟨_ | data, rest⟩
    · obtain rfl := reader_extractPdu.unchanged hextract
      rfl
    · -- Otherwise the next frame could be handled.
      have hdata : s.Extracts data rest := ⟨hreceiving, hextract⟩
      have hhandle :
          ∃ s', step P decode encode s (.handle fun _ => ⟨0, [], DateTime.min⟩) = some s' :=
        exists_handle hhanding hdata _
      rw [hquiet.handle] at hhandle
      obtain ⟨s', hs'⟩ := hhandle
      cases hs'
  · intro r hr
    obtain ⟨i, hi⟩ := List.mem_iff_getElem?.1 hr
    obtain ⟨seqNum, requireAck, phase, answered⟩ := r
    -- A request on its way would be in `send_pdu`, and a response has been handed over by now.
    cases phase with
    | drawn => exact .inl rfl
    | sending check_response =>
      have hsending : i ∈ requestsOf s.senders := (h.placed.sending i).2 ⟨_, hi, trivial⟩
      rw [hsenders] at hsending
      exact absurd hsending List.not_mem_nil
    | waiting check_response =>
      cases answered with
      | false => exact .inr (.inl ⟨trivial, rfl⟩)
      | true =>
        rcases hhanding.handed.answered i _ hi rfl with ⟨pdu, hpdu⟩ | ⟨pdu, hpdu⟩
        · rw [hidle] at hpdu
          cases hpdu
        · cases hpdu
    | returned response result => exact .inr (.inr ⟨response, rfl⟩)

/-- `no_deadlock` holds of the client that was enquired of. -/
theorem enquiredLink_rests :
    Drains extractPdu enquiredLink.received enquiredLink.extracted enquiredLink.buffer ∧
      enquiredLink.owed decodeHeader = answers enquiredLink.sent ∧
      enquiredLink.written = (enquiredLink.sent.map encodeHeader).flatten ∧
      ∀ r ∈ enquiredLink.requests.requests, r.phase = .drawn ∨ r.Sent ∧ r.answered = false ∨
        ∃ pdu, r.response = some pdu := by
  have hquiet : enquiredLink.Quiet headerProcessors decodeHeader encodeHeader :=
    ⟨fun _ => rfl, rfl, rfl, rfl, rfl⟩
  exact no_deadlock run_enquiries hquiet fun e he => by cases he

end Link

end Vumi2.Smpp
