import Vumi2.HttpRpc.Requests
import Vumi2.Smpp.Client

/-!
# The events that the transports emit

An event names the message that it is about in `user_message_id`. Whether it also does so in
`sent_message_id` depends on its type (`emitted_namesSent`): every ACK and NACK of every
transport does, and no delivery report.
-/

namespace Vumi2

open Effect Eff Text

/-- An event comes from one of the transports: from submitting a message or from a delivery report
over SMPP, or from answering an HTTP request. -/
inductive Emitted (e : Event) : Prop where
  | submit (P : Smpp.Processors) (message : Message) (env : ℕ → Reading) (c : Smpp.EsmeClient)
      (idle : c.send_message_channel = [])
      (sent : .event e ∈
        ((Smpp.EsmeClient.sendVumiMessage P message).run env c).state.send_message_channel)
  | deliver (P : Smpp.Processors) (pdu : Smpp.DeliverSM) (env : ℕ → Reading)
      (c : Smpp.EsmeClient) (idle : c.send_message_channel = [])
      (sent : .event e ∈
        ((Smpp.EsmeClient.handleDeliverSm P pdu).run env c).state.send_message_channel)
  | httpRpc (message : Message) (env : ℕ → Reading) (t : HttpRpcTransport) (idle : t.events = [])
      (sent : e ∈ ((HttpRpcTransport.handleOutboundMessage message).run env t).state.events)
  | aatUssd (body : Message → Except PyExc Bytes) (message : Message) (env : ℕ → Reading)
      (t : HttpRpcTransport) (idle : t.events = [])
      (sent : e ∈ ((AatUssdTransport.handleOutboundMessage body message).run env t).state.events)

/-- An event names its message as sent, unless it is a delivery report. -/
def NamesSent (e : Event) : Prop :=
  e.sent_message_id = if e.event_type = .delivery_report then none else some e.user_message_id

/-- An ACK of the transports names its message as sent. -/
theorem namesSent_ack (id : Str) (r : Reading) : NamesSent (Event.ack id id r) := rfl

/-- A NACK of the transports does, too. -/
theorem namesSent_nack (id reason : Str) (r : Reading) : NamesSent (Event.nack id id reason r) :=
  rfl

/-- A delivery report names it only as the message that it is about. -/
theorem namesSent_deliveryReport (id : Str) (status : DeliveryStatus)
    (transport_metadata : Json.Members) (r : Reading) :
    NamesSent (Event.deliveryReport id status transport_metadata r) := rfl

/-! ## SMPP -/

namespace Smpp.EsmeClient

/-- Every event on the channel names its message so. -/
def AllNameSent (c : EsmeClient) : Prop := ∀ e, .event e ∈ c.send_message_channel → NamesSent e

/-- An event that names its message rightly may be put on the channel. -/
theorem keeps_sendMessage_event {e : Event} (h : NamesSent e) :
    Keeps (fun _ => True) AllNameSent (sendMessage (.event e)) := by
  refine keeps_modify fun c hc e' he' => ?_
  rcases List.mem_append.1 he' with he' | he'
  · exact hc e' he'
  · obtain rfl := Published.event.inj (List.mem_singleton.1 he')
    exact h

/-- A message on the channel is no event. -/
theorem keeps_sendMessage_message (m : Message) :
    Keeps (fun _ => True) AllNameSent (sendMessage (.message m)) := by
  refine keeps_modify fun c hc e' he' => ?_
  rcases List.mem_append.1 he' with he' | he'
  · exact hc e' he'
  · cases List.mem_singleton.1 he'

/-- Submitting a PDU puts no event on the channel. -/
theorem keeps_sendSubmitSm (pdu : SubmitSM) :
    Keeps (fun _ => True) AllNameSent (sendSubmitSm pdu) := by
  refine keeps_bind (keeps_modify fun _ h => h) fun _ => ?_
  refine keeps_bind (keeps_bind keeps_get fun c => keeps_ofExcept _) fun _ => ?_
  refine keeps_bind keeps_get fun c => ?_
  refine keeps_bind (keeps_modify fun _ h => h) fun _ => ?_
  cases c.peer 0 with
  | submit_sm_resp status message_id => exact keeps_pure _
  | generic_nack status => exact keeps_raise _

/-- The loop over the PDUs ends with an ACK or a NACK, or raises. -/
theorem keeps_sendSegments (message : Message) (pdus : List SubmitSM) :
    Keeps (fun _ => True) AllNameSent (sendSegments message pdus) := by
  induction pdus with
  | nil => exact keeps_bind keeps_read fun r => keeps_sendMessage_event (namesSent_ack _ r)
  | cons pdu pdus ih =>
    refine keeps_bind (keeps_sendSubmitSm pdu) fun response => ?_
    cases response.status with
    | error code description =>
      exact keeps_bind keeps_read fun r => keeps_sendMessage_event (namesSent_nack _ _ r)
    | ESME_ROK =>
      refine keeps_bind (keeps_ofExcept _) fun _ => ?_
      exact keeps_bind (keeps_on_frame fun _ _ h => h) fun _ => ih

/-- So `send_vumi_message` puts no other events on the channel. -/
theorem keeps_sendVumiMessage (P : Processors) (message : Message) :
    Keeps (fun _ => True) AllNameSent (sendVumiMessage P message) :=
  keeps_bind (keeps_on_frame fun _ _ h => h) fun pdus => keeps_sendSegments message pdus

/-- What a way to read a delivery report returns. -/
def GivesReport (r : Bool × Option Event) : Prop := ∀ e, r.2 = some e → NamesSent e

/-- `_create_event` makes delivery reports only. -/
theorem gives_createEvent (dr : DeliveryReportProcesser)
    (smpp_message_id smpp_status : Option Str) :
    Gives (dr.createEvent smpp_message_id smpp_status) fun e =>
      ∀ e', e = some e' → NamesSent e' := by
  refine gives_bind (gives_any _) fun status _ => ?_
  refine gives_bind (gives_any _) fun vumi_message_id _ => ?_
  cases vumi_message_id with
  | none => exact gives_pure fun _ h => by cases h
  | some id =>
    dsimp only
    split_ifs
    · exact gives_pure fun _ h => by cases h
    · refine gives_bind (gives_any _) fun _ _ => ?_
      refine gives_bind (gives_any _) fun r _ => gives_pure fun e h => ?_
      obtain rfl := Option.some.inj h
      exact namesSent_deliveryReport _ _ _ r

/-- The body of a PDU gives a delivery report or none. -/
theorem gives_handleDeliverSmBody (dr : DeliveryReportProcesser) (pdu : DeliverSM) :
    Gives (dr.handleDeliverSmBody pdu) GivesReport := by
  refine gives_bind (gives_any _) fun content _ => ?_
  cases dr.regex content with
  | none => exact gives_pure fun _ h => by cases h
  | some fields =>
    refine gives_bind (gives_any _) fun id _ => ?_
    refine gives_bind (gives_any _) fun stat _ => ?_
    exact gives_bind (gives_createEvent dr id stat) fun e h => gives_pure h

/-- So do its optional parameters. -/
theorem gives_handleDeliverSmOptionalParams (dr : DeliveryReportProcesser) (pdu : DeliverSM) :
    Gives (dr.handleDeliverSmOptionalParams pdu) GivesReport := by
  unfold DeliveryReportProcesser.handleDeliverSmOptionalParams
  split
  · refine gives_bind (gives_any _) fun id _ => ?_
    exact gives_bind (gives_createEvent dr _ _) fun e h => gives_pure h
  · exact gives_pure fun _ h => by cases h

/-- The first way to read a PDU that succeeds gives the report. -/
theorem gives_tryEach (funcs : List (Py InMemorySmppCache (Bool × Option Event)))
    (h : ∀ func ∈ funcs, Gives func GivesReport) :
    Gives (DeliveryReportProcesser.tryEach funcs) GivesReport := by
  induction funcs with
  | nil => exact gives_pure fun _ h => by cases h
  | cons func funcs ih =>
    refine gives_bind (h func List.mem_cons_self) fun r hr => ?_
    split_ifs
    · exact gives_pure hr
    · exact ih fun f hf => h f (List.mem_cons_of_mem _ hf)

/-- `handle_deliver_sm` of the processor gives a delivery report or none. -/
theorem gives_handleDeliverSm (dr : DeliveryReportProcesser) (pdu : DeliverSM) :
    Gives (dr.handleDeliverSm pdu) GivesReport := by
  refine gives_tryEach _ fun func hfunc => ?_
  simp only [List.mem_cons, List.not_mem_nil, or_false] at hfunc
  rcases hfunc with rfl | rfl | rfl
  · exact gives_handleDeliverSmOptionalParams dr pdu
  · unfold DeliveryReportProcesser.handleDeliverSmEsmClass
    split_ifs
    · exact gives_pure fun _ h => by cases h
    · exact gives_handleDeliverSmBody dr pdu
  · exact gives_handleDeliverSmBody dr pdu

/-- `handle_deliver_sm` of the client puts that report on the channel, or a message. -/
theorem keeps_handleDeliverSm (P : Processors) (pdu : DeliverSM) :
    Keeps (fun _ => True) AllNameSent (handleDeliverSm P pdu) := by
  refine keeps_bind ?_ fun _ => keeps_modify fun _ h => h
  refine keeps_bind_of_gives (keeps_on_frame fun _ _ h => h)
    (gives_on (gives_handleDeliverSm P.dr_processor pdu)) fun r hr => ?_
  obtain ⟨handled, event⟩ := r
  dsimp only
  split_ifs
  · cases event with
    | none => exact keeps_pure _
    | some event => exact keeps_sendMessage_event (hr event rfl)
  · refine keeps_bind (keeps_on_frame fun _ _ h => h) fun msg => ?_
    cases msg with
    | none => exact keeps_pure _
    | some msg => exact keeps_sendMessage_message msg

end Smpp.EsmeClient

/-! ## HTTP -/

namespace HttpRpcTransport

/-- Every published event names its message so. -/
def AllNameSent (t : HttpRpcTransport) : Prop := ∀ e ∈ t.events, NamesSent e

/-- One more event that does is no matter. -/
theorem AllNameSent.publish {t : HttpRpcTransport} (ht : AllNameSent t) {e : Event}
    (h : NamesSent e) : AllNameSent { t with events := t.events ++ [e] } := by
  intro e' he'
  rcases List.mem_append.1 he' with he' | he'
  · exact ht e' he'
  · rw [List.mem_singleton.1 he']
    exact h

/-- Up to its await, `handle_outbound_message` publishes nothing. -/
theorem events_answer (h : Replying) (message : Message) (t : HttpRpcTransport) :
    (h.answer message t).1.events = t.events := by
  unfold Replying.answer
  cases h.plan message with
  | nack reason => rfl
  | raised e => rfl
  | reply response =>
    dsimp only
    split_ifs
    · rfl
    · unfold finish
      cases t.requests.get? (replyTo message) with
      | none => rfl
      | some request => rfl

/-- And then it publishes an ACK, a NACK or nothing. -/
theorem allNameSent_outcome {t : HttpRpcTransport} (ht : AllNameSent t) (h : Replying)
    (message : Message) (r : Reading) :
    AllNameSent (outcome message r (h.answer message t)).state := by
  have hanswer : AllNameSent (h.answer message t).1 := by
    unfold AllNameSent
    rw [events_answer h message t]
    exact ht
  rcases hcases : h.answer message t with ⟨t', verdict⟩
  rw [hcases] at hanswer
  cases verdict with
  | ack => exact hanswer.publish (namesSent_ack _ r)
  | nack reason => exact hanswer.publish (namesSent_nack _ reason r)
  | raised e => exact hanswer

end HttpRpcTransport

/-- Every ACK and NACK of a transport names its message as sent, and no delivery report does. -/
theorem emitted_namesSent {e : Event} (h : Emitted e) : NamesSent e := by
  -- In each case nothing was sent before, so the event was sent by this call.
  cases h with
  | submit P message env c idle sent =>
    refine Smpp.EsmeClient.keeps_sendVumiMessage P message env c (fun _ _ => trivial) ?_ e sent
    intro e' he'
    rw [idle] at he'
    cases he'
  | deliver P pdu env c idle sent =>
    refine Smpp.EsmeClient.keeps_handleDeliverSm P pdu env c (fun _ _ => trivial) ?_ e sent
    intro e' he'
    rw [idle] at he'
    cases he'
  | httpRpc message env t idle sent =>
    rw [HttpRpcTransport.run_handleOutboundMessage, ← Replying.answer_httpRpc] at sent
    refine HttpRpcTransport.allNameSent_outcome (fun e' he' => ?_) _ message _ e sent
    rw [idle] at he'
    cases he'
  | aatUssd body message env t idle sent =>
    rw [AatUssdTransport.run_aatUssd_handleOutboundMessage, ← Replying.answer_aatUssd] at sent
    refine HttpRpcTransport.allNameSent_outcome (fun e' he' => ?_) _ message _ e sent
    rw [idle] at he'
    cases he'

end Vumi2
