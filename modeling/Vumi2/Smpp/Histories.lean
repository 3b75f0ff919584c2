import Vumi2.Smpp.Outcomes
import Vumi2.Smpp.Traffic

/-!
# What becomes of a message

What the peer answers to the PDUs of a message determines what its call of `send_vumi_message` does:
which PDUs it sends, which ids it maps to the message, and which event it sends (`historyOf`), and
how far it comes (`stageAfter`). Both go on with the next response.
-/

namespace Vumi2.Smpp

open Effect Eff Text

/-! ## What becomes of a message -/

/-- What happens in a call. -/
inductive CallEvent where
  | sent (pdu : SubmitSM)
  | accepted (smpp_message_id message_id : Str)
  /-- An event was sent for the message: a NACK with a reason, or an ACK. -/
  | settled (message_id : Str) (nack_reason : Option Str)
deriving DecidableEq

/-- What happens in a call with these PDUs, at these responses. -/
def historyOf (message_id : Str) : List SubmitSM → List PDUResponse → List CallEvent
  | [], _ => [.settled message_id none]
  | pdu :: _, [] => [.sent pdu]
  | pdu :: _, .generic_nack _ :: _ => [.sent pdu]
  | pdu :: _, .submit_sm_resp (.error _ description) _ :: _ =>
    [.sent pdu, .settled message_id (some description)]
  | pdu :: pdus, .submit_sm_resp .ESME_ROK smpp :: got =>
    .sent pdu ::
      match EsmeClient.messageId (.submit_sm_resp .ESME_ROK smpp) with
      | .ok smpp_message_id => .accepted smpp_message_id message_id :: historyOf message_id pdus got
      | .error _ => []

/-- How far a call comes with these PDUs, by these responses. -/
def stageAfter : List SubmitSM → List PDUResponse → SendStage
  | [], _ => .returned
  | _ :: pdus, [] => .awaiting pdus
  | _ :: _, .generic_nack _ :: _ => .raised .esmeResponseStatusError
  | _ :: _, .submit_sm_resp (.error _ _) _ :: _ => .returned
  | _ :: pdus, .submit_sm_resp .ESME_ROK smpp :: got =>
    match EsmeClient.messageId (.submit_sm_resp .ESME_ROK smpp) with
    | .ok _ => stageAfter pdus got
    | .error e => .raised e

namespace SendCall

/-- What the call does by itself; a message that makes no PDUs leaves nothing. -/
def history (call : SendCall) : List CallEvent :=
  match call.pdus with
  | .ok pdus => historyOf call.message.message_id pdus call.got
  | .error _ => []

/-- The call is where its responses have brought it. -/
def Placed (call : SendCall) : Prop :=
  match call.pdus with
  | .ok pdus => call.stage = stageAfter pdus call.got
  | .error e => call.stage = .raised e

end SendCall

namespace Tracked

/-- What happened in a call. -/
def callEvent : Tracked → Option (ℕ × CallEvent)
  | sent i pdu => some (i, .sent pdu)
  | accepted i smpp_message_id message_id _ => some (i, .accepted smpp_message_id message_id)
  | settled i message_id nack_reason => some (i, .settled message_id nack_reason)
  | delivered _ _ => none

/-- What happened in this call. -/
def within (i : ℕ) (e : Tracked) : Option CallEvent :=
  (callEvent e).bind fun c => if c.1 = i then some c.2 else none

end Tracked

/-- The outcome that an event reports. -/
def Published.outcome : Published → Option (Str × Option Str)
  | .message _ => none
  | .event e =>
    match e.event_type with
    | .ack => some (e.user_message_id, none)
    | .nack => some (e.user_message_id, e.nack_reason)
    | .delivery_report => none

/-- The status of a message that an event reports. -/
def Published.report : Published → Option (Str × DeliveryStatus)
  | .message _ => none
  | .event e =>
    match e.event_type, e.delivery_status with
    | .delivery_report, some status => some (e.user_message_id, status)
    | _, _ => none

/-- A delivery report is no outcome. -/
@[simp] theorem outcome_deliveryReport (message_id : Str) (status : DeliveryStatus)
    (metadata : Json.Members) (r : Reading) :
    Published.outcome (.event (Event.deliveryReport message_id status metadata r)) = none := rfl

/-- A delivery report tells the status of its message. -/
@[simp] theorem report_deliveryReport (message_id : Str) (status : DeliveryStatus)
    (metadata : Json.Members) (r : Reading) :
    Published.report (.event (Event.deliveryReport message_id status metadata r)) =
      some (message_id, status) := rfl

/-- An ACK is an outcome. -/
@[simp] theorem outcome_ack (message_id sent : Str) (r : Reading) :
    Published.outcome (.event (Event.ack message_id sent r)) = some (message_id, none) := rfl

/-- An ACK is no report. -/
@[simp] theorem report_ack (message_id sent : Str) (r : Reading) :
    Published.report (.event (Event.ack message_id sent r)) = none := rfl

/-- A NACK is an outcome, with its reason. -/
@[simp] theorem outcome_nack (message_id sent reason : Str) (r : Reading) :
    Published.outcome (.event (Event.nack message_id sent reason r)) =
      some (message_id, some reason) := rfl

/-- A NACK is no report. -/
@[simp] theorem report_nack (message_id sent reason : Str) (r : Reading) :
    Published.report (.event (Event.nack message_id sent reason r)) = none := rfl

namespace CallEvent

/-- The PDU that was sent, if the event is one. -/
def pdu? : CallEvent → Option SubmitSM
  | sent pdu => some pdu
  | _ => none

/-- The outcome that was published, if the event is one. -/
def outcome? : CallEvent → Option (Str × Option Str)
  | settled message_id nack_reason => some (message_id, nack_reason)
  | _ => none

end CallEvent

/-- What has happened in all calls. -/
def callEvents (log : List Tracked) : List CallEvent :=
  log.filterMap fun e => e.callEvent.map Prod.snd

/-- What has happened in two logs is so one after the other. -/
theorem callEvents_append (log log' : List Tracked) :
    callEvents (log ++ log') = callEvents log ++ callEvents log' := List.filterMap_append

/-- A client has done what has happened in its calls: what it sent to the peer and to the transport,
and nothing else but messages and reports. -/
structure Does (c c' : EsmeClient) (events : List CallEvent) : Prop where
  wire : c'.pdu_send_channel =
    c.pdu_send_channel ++ (events.filterMap CallEvent.pdu?).map .submit_sm
  outcomes : c'.send_message_channel.filterMap Published.outcome =
    c.send_message_channel.filterMap Published.outcome ++ events.filterMap CallEvent.outcome?

/-- It has sent these reports. -/
def SendsReports (c c' : EsmeClient) (reports : List (Str × DeliveryStatus)) : Prop :=
  c'.send_message_channel.filterMap Published.report =
    c.send_message_channel.filterMap Published.report ++ reports

/-! ## From one response to the next -/

/-- What happens in a call that waits, at a response. -/
def eventsAt (message_id : Str) (pdus : List SubmitSM) : PDUResponse → List CallEvent
  | .generic_nack _ => []
  | .submit_sm_resp (.error _ description) _ => [.settled message_id (some description)]
  | .submit_sm_resp .ESME_ROK smpp =>
    match EsmeClient.messageId (.submit_sm_resp .ESME_ROK smpp) with
    | .ok smpp_message_id => .accepted smpp_message_id message_id :: historyOf message_id pdus []
    | .error _ => []

/-- How far the response brings it. -/
def stageAt (pdus : List SubmitSM) : PDUResponse → SendStage
  | .generic_nack _ => .raised .esmeResponseStatusError
  | .submit_sm_resp (.error _ _) _ => .returned
  | .submit_sm_resp .ESME_ROK smpp =>
    match EsmeClient.messageId (.submit_sm_resp .ESME_ROK smpp) with
    | .ok _ => stageAfter pdus []
    | .error e => .raised e

/-- A call that waits goes on with its next response. -/
theorem stageAfter_concat {pdus rest : List SubmitSM} {got : List PDUResponse}
    (h : stageAfter pdus got = .awaiting rest) (response : PDUResponse) :
    stageAfter pdus (got ++ [response]) = stageAt rest response := by
  -- The call waits, so all responses so far were acceptances; the next one comes after them.
  induction pdus generalizing got with
  | nil => cases h
  | cons pdu pdus ih =>
    cases got with
    | nil =>
      obtain rfl : pdus = rest := by
        injection h
      cases response with
      | generic_nack status => rfl
      | submit_sm_resp status smpp =>
        cases status with
        | error name description => rfl
        | ESME_ROK => rfl
    | cons first got =>
      cases first with
      | generic_nack status => cases h
      | submit_sm_resp status smpp =>
        cases status with
        | error name description => cases h
        | ESME_ROK =>
          rw [stageAfter] at h
          rw [List.cons_append, stageAfter]
          cases hid : EsmeClient.messageId (.submit_sm_resp .ESME_ROK smpp) with
          | error e =>
            rw [hid] at h
            cases h
          | ok smpp_message_id =>
            rw [hid] at h
            exact ih h

/-- A response adds to the history what it determines. -/
theorem historyOf_concat {pdus rest : List SubmitSM} {got : List PDUResponse}
    (h : stageAfter pdus got = .awaiting rest) (message_id : Str) (response : PDUResponse) :
    historyOf message_id pdus (got ++ [response]) =
      historyOf message_id pdus got ++ eventsAt message_id rest response := by
  -- The same walk as for the stage.
  induction pdus generalizing got with
  | nil => cases h
  | cons pdu pdus ih =>
    cases got with
    | nil =>
      obtain rfl : pdus = rest := by
        injection h
      cases response with
      | generic_nack status => rfl
      | submit_sm_resp status smpp =>
        cases status with
        | error name description => rfl
        | ESME_ROK => rfl
    | cons first got =>
      cases first with
      | generic_nack status => cases h
      | submit_sm_resp status smpp =>
        cases status with
        | error name description => cases h
        | ESME_ROK =>
          rw [stageAfter] at h
          rw [List.cons_append, historyOf, historyOf]
          cases hid : EsmeClient.messageId (.submit_sm_resp .ESME_ROK smpp) with
          | error e =>
            rw [hid] at h
            cases h
          | ok smpp_message_id =>
            rw [hid] at h
            exact congrArg (.sent pdu :: .accepted smpp_message_id message_id :: ·) (ih h)

/-! ## The outcome of a call -/

/-- The peer has accepted a PDU, under an id that can be decoded. -/
def PDUResponse.Takes (response : PDUResponse) : Prop := response.Accepts ∧ response.Usable

/-- The peer has refused a PDU, with this description. -/
def PDUResponse.Refuses (reason : Str) (response : PDUResponse) : Prop :=
  ∃ name smpp, response = .submit_sm_resp (.error name reason) smpp

/-- A response that takes the PDU does not refuse it. -/
theorem PDUResponse.Takes.not_refuses {response : PDUResponse} (h : response.Takes)
    (reason : Str) : ¬ response.Refuses reason := by
  obtain ⟨smpp, rfl⟩ := h.1
  rintro ⟨name, smpp', hrefuses⟩
  cases hrefuses

/-- A call goes on after its first response if and only if that is an acceptance. -/
theorem historyOf_cons (message_id : Str) (pdu : SubmitSM) (pdus : List SubmitSM)
    (response : PDUResponse) (got : List PDUResponse) :
    (∃ smpp_message_id, response.Takes ∧ historyOf message_id (pdu :: pdus) (response :: got) =
        .sent pdu :: .accepted smpp_message_id message_id :: historyOf message_id pdus got) ∨
      (∃ reason, response.Refuses reason ∧ historyOf message_id (pdu :: pdus) (response :: got) =
        [.sent pdu, .settled message_id (some reason)]) ∨
      ¬ response.Takes ∧ (∀ reason, ¬ response.Refuses reason) ∧
        historyOf message_id (pdu :: pdus) (response :: got) = [.sent pdu] := by
  cases response with
  | generic_nack status =>
    refine .inr (.inr ⟨fun htakes => htakes.2, ?_, rfl⟩)
    rintro reason ⟨name, smpp, hrefuses⟩
    cases hrefuses
  | submit_sm_resp status smpp =>
    cases status with
    | error name description => exact .inr (.inl ⟨description, ⟨name, smpp, rfl⟩, rfl⟩)
    | ESME_ROK =>
      rw [historyOf]
      cases hid : EsmeClient.messageId (.submit_sm_resp .ESME_ROK smpp) with
      | ok smpp_message_id =>
        exact .inl ⟨smpp_message_id, ⟨⟨smpp, rfl⟩, smpp_message_id, hid⟩, rfl⟩
      | error e =>
        -- An id that is no UTF-8 neither takes nor refuses.
        refine .inr (.inr ⟨?_, ?_, rfl⟩)
        · rintro ⟨-, id, hid'⟩
          rw [hid] at hid'
          cases hid'
        · rintro reason ⟨name, smpp', hrefuses⟩
          cases hrefuses

/-- It has at most one outcome. -/
theorem outcomes_historyOf (message_id : Str) (pdus : List SubmitSM) (got : List PDUResponse) :
    ((historyOf message_id pdus got).filterMap CallEvent.outcome?).length ≤ 1 := by
  induction pdus generalizing got with
  | nil => exact Nat.le_refl 1
  | cons pdu pdus ih =>
    cases got with
    | nil => exact Nat.zero_le 1
    | cons response got =>
      obtain ⟨id, -, h⟩ | ⟨reason, -, h⟩ | ⟨-, -, h⟩ :=
        historyOf_cons message_id pdu pdus response got
      · rw [h]
        exact ih got
      · rw [h]
        exact Nat.le_refl 1
      · rw [h]
        exact Nat.zero_le 1

/-- It is an ACK if and only if all its PDUs were accepted. -/
theorem ack_mem_historyOf {message_id : Str} {pdus : List SubmitSM} {got : List PDUResponse} :
    CallEvent.settled message_id none ∈ historyOf message_id pdus got ↔
      pdus.length ≤ got.length ∧ ∀ response ∈ got.take pdus.length, response.Takes := by
  induction pdus generalizing got with
  | nil => simp [historyOf]
  | cons pdu pdus ih =>
    cases got with
    | nil => simp [historyOf]
    | cons response got =>
      rw [List.length_cons, List.length_cons, List.take_succ_cons, List.forall_mem_cons]
      obtain ⟨id, htakes, h⟩ | ⟨reason, hrefuses, h⟩ | ⟨htakes, -, h⟩ :=
        historyOf_cons message_id pdu pdus response got
      · rw [h, List.mem_cons, List.mem_cons, ih]
        simp [htakes]
      · have htakes : ¬ response.Takes := fun htakes => htakes.not_refuses reason hrefuses
        rw [h]
        simp [htakes]
      · rw [h]
        simp [htakes]

/-- It is a NACK with the description of the first refusal. -/
theorem nack_mem_historyOf {message_id reason : Str} {pdus : List SubmitSM}
    {got : List PDUResponse} :
    CallEvent.settled message_id (some reason) ∈ historyOf message_id pdus got ↔
      ∃ accepted response later, got = accepted ++ response :: later ∧
        accepted.length < pdus.length ∧ (∀ r ∈ accepted, r.Takes) ∧ response.Refuses reason := by
  induction pdus generalizing got with
  | nil => simp [historyOf]
  | cons pdu pdus ih =>
    cases got with
    | nil => simp [historyOf]
    | cons response got =>
      obtain ⟨id, htakes, h⟩ | ⟨reason', hrefuses, h⟩ | ⟨htakes, hrefuses, h⟩ :=
        historyOf_cons message_id pdu pdus response got
      · -- An acceptance goes in front of what the others determine.
        rw [h, List.mem_cons, List.mem_cons, ih]
        constructor
        · rintro (hsent | haccepted | ⟨accepted, refusal, later, rfl, hlt, hall, hrefusal⟩)
          · cases hsent
          · cases haccepted
          · exact ⟨response :: accepted, refusal, later, rfl, Nat.succ_lt_succ hlt,
              List.forall_mem_cons.2 ⟨htakes, hall⟩, hrefusal⟩
        · rintro ⟨accepted, refusal, later, hgot, hlt, hall, hrefusal⟩
          cases accepted with
          | nil =>
            obtain ⟨rfl, -⟩ := List.cons.inj hgot
            exact absurd hrefusal (htakes.not_refuses reason)
          | cons first accepted =>
            obtain ⟨-, rfl⟩ := List.cons.inj hgot
            exact .inr (.inr ⟨accepted, refusal, later, rfl, Nat.lt_of_succ_lt_succ hlt,
              (List.forall_mem_cons.1 hall).2, hrefusal⟩)
      · -- The refusal ends the history, and no later one counts.
        have hnot : ¬ response.Takes := fun htakes => htakes.not_refuses reason' hrefuses
        rw [h]
        constructor
        · intro hmem
          obtain rfl : reason = reason' := by simpa using hmem
          exact ⟨[], response, got, rfl, Nat.zero_lt_succ _, fun r hr => (by cases hr), hrefuses⟩
        · rintro ⟨accepted, refusal, later, hgot, -, hall, name, smpp, hrefusal⟩
          cases accepted with
          | nil =>
            obtain ⟨rfl, -⟩ := List.cons.inj hgot
            obtain ⟨name', smpp', hresponse⟩ := hrefuses
            rw [hresponse] at hrefusal
            cases hrefusal
            exact List.mem_cons_of_mem _ (List.mem_singleton_self _)
          | cons first accepted =>
            obtain ⟨rfl, -⟩ := List.cons.inj hgot
            exact absurd (List.forall_mem_cons.1 hall).1 hnot
      · -- A response that is neither ends it without an event.
        rw [h]
        constructor
        · intro hmem
          cases List.mem_singleton.1 hmem
        · rintro ⟨accepted, refusal, later, hgot, -, hall, hrefusal⟩
          cases accepted with
          | nil =>
            obtain ⟨rfl, -⟩ := List.cons.inj hgot
            exact absurd hrefusal (hrefuses reason)
          | cons first accepted =>
            obtain ⟨rfl, -⟩ := List.cons.inj hgot
            exact absurd (List.forall_mem_cons.1 hall).1 htakes

end Vumi2.Smpp
