import Vumi2.Smpp.Client
import Vumi2.Smpp.Submission

/-!
# Which outbound messages get an outcome event

Every outbound message should get one event: an ACK if the peer accepted all of its PDUs, else a
NACK (`OneOutcome`). `send_vumi_message` sends one only when the message can be submitted, and up to
the first refusal every PDU can be encoded and gets a response that can be used
(`CarriedUpToRefusal`); otherwise it raises, or the worker ends.
-/

namespace Vumi2.Smpp

open Effect Eff Text

/-- The peer accepted the PDU. -/
def PDUResponse.Accepts (r : PDUResponse) : Prop :=
  ∃ message_id, r = .submit_sm_resp .ESME_ROK message_id

/-- A response that `send_vumi_message` can use: a `SubmitSMResp` that refuses the PDU, or one that
accepts it with a message id in UTF-8. -/
def PDUResponse.Usable (r : PDUResponse) : Prop :=
  match r with
  | .generic_nack _ => False
  | .submit_sm_resp (.error _ _) _ => True
  | .submit_sm_resp .ESME_ROK _ => ∃ id, EsmeClient.messageId r = .ok id

/-- All of `n` responses accept their PDU. -/
def AllAccepted (n : ℕ) (peer : ℕ → PDUResponse) : Prop := ∀ i < n, (peer i).Accepts

/-- All PDUs up to the first one that is not accepted can be encoded, and get a response that can be
used. -/
def CarriedUpToRefusal (encoder : SubmitSM → Except PyExc Unit) (pdus : List SubmitSM)
    (peer : ℕ → PDUResponse) : Prop :=
  ∀ i pdu, pdus[i]? = some pdu → (∀ j < i, (peer j).Accepts) →
    encoder pdu = .ok () ∧ (peer i).Usable

/-- One response before the others. -/
theorem allAccepted_succ {n : ℕ} {peer : ℕ → PDUResponse} :
    AllAccepted (n + 1) peer ↔ (peer 0).Accepts ∧ AllAccepted n (later peer 1) := by
  constructor
  · intro h
    exact ⟨h 0 (by omega), fun i hi => h (1 + i) (by omega)⟩
  · rintro ⟨h0, h⟩ i hi
    cases i with
    | zero => exact h0
    | succ i =>
      have := h i (by omega)
      rwa [later_apply, Nat.add_comm] at this

/-- There is nothing to carry. -/
theorem carriedUpToRefusal_nil (encoder : SubmitSM → Except PyExc Unit) (peer : ℕ → PDUResponse) :
    CarriedUpToRefusal encoder [] peer := by
  intro i pdu hi
  cases hi

/-- One PDU before the others. -/
theorem carriedUpToRefusal_cons {encoder : SubmitSM → Except PyExc Unit} {pdu : SubmitSM}
    {pdus : List SubmitSM} {peer : ℕ → PDUResponse} :
    CarriedUpToRefusal encoder (pdu :: pdus) peer ↔
      (encoder pdu = .ok () ∧ (peer 0).Usable) ∧
        ((peer 0).Accepts → CarriedUpToRefusal encoder pdus (later peer 1)) := by
  constructor
  · intro h
    -- The hypothesis about the longer list is used one place further on.
    refine ⟨h 0 pdu rfl fun j hj => absurd hj (Nat.not_lt_zero j), fun h0 i next hi hbefore => ?_⟩
    have hnext : (pdu :: pdus)[1 + i]? = some next := by
      rw [Nat.add_comm, List.getElem?_cons_succ, hi]
    refine h (1 + i) next hnext fun j hj => ?_
    cases j with
    | zero => exact h0
    | succ j =>
      have haccepts := hbefore j (by omega)
      rwa [later_apply, Nat.add_comm] at haccepts
  · rintro ⟨h0, h⟩ i next hi hbefore
    -- The first PDU, or one of the others behind an acceptance.
    cases i with
    | zero =>
      obtain rfl := Option.some.inj hi
      exact h0
    | succ i =>
      have hcarried := h (hbefore 0 (by omega)) i next hi fun j hj => by
        rw [later_apply, Nat.add_comm]
        exact hbefore (j + 1) (by omega)
      rwa [later_apply, Nat.add_comm] at hcarried

namespace EsmeClient

/-- The client after it sent a PDU and took the response. -/
def answered (c : EsmeClient) (pdu : SubmitSM) : EsmeClient :=
  { c with
    pdu_send_channel := c.pdu_send_channel ++ [.submit_sm pdu]
    peer := later c.peer 1 }

/-- The client after it put a PDU on the channel that the encoder refuses. -/
def handed (c : EsmeClient) (pdu : SubmitSM) : EsmeClient :=
  { c with pdu_send_channel := c.pdu_send_channel ++ [.submit_sm pdu] }

/-- A `SubmitSMResp` is returned. -/
theorem run_sendSubmitSm_resp {env : ℕ → Reading} {c : EsmeClient} {status : CommandStatus}
    {message_id : Option Bytes} {pdu : SubmitSM} (hencoder : c.encoder pdu = .ok ())
    (h : c.peer 0 = .submit_sm_resp status message_id) :
    (sendSubmitSm pdu).run env c =
      ⟨.ok (.submit_sm_resp status message_id), 0, c.answered pdu⟩ := by
  simp [sendSubmitSm, sendOnWire, publishStream, answered, hencoder, h]

/-- A `GenericNack` raises. -/
theorem run_sendSubmitSm_nack {env : ℕ → Reading} {c : EsmeClient} {status : CommandStatus}
    {pdu : SubmitSM} (hencoder : c.encoder pdu = .ok ()) (h : c.peer 0 = .generic_nack status) :
    (sendSubmitSm pdu).run env c = ⟨.error .esmeResponseStatusError, 0, c.answered pdu⟩ := by
  simp [sendSubmitSm, sendOnWire, publishStream, answered, hencoder, h]

/-- A PDU that cannot be encoded gets no response. -/
theorem run_sendSubmitSm_error {env : ℕ → Reading} {c : EsmeClient} {pdu : SubmitSM} {e : PyExc}
    (hencoder : c.encoder pdu = .error e) :
    (sendSubmitSm pdu).run env c = ⟨.error e, 0, c.handed pdu⟩ := by
  simp [sendSubmitSm, sendOnWire, publishStream, handed, hencoder]

/-- Exactly one event was sent since the client was `c`: an event for `message_id`, which is an ACK
if `accepted`, else a NACK. -/
def SentOne (message_id : Str) (accepted : Prop) (c c' : EsmeClient) : Prop :=
  ∃ e : Event, c'.send_message_channel = c.send_message_channel ++ [.event e] ∧
    e.user_message_id = message_id ∧ (accepted → e.event_type = .ack) ∧
    (¬ accepted → e.event_type = .nack)

/-- Storing an id changes the cache of the client alone. -/
theorem send_message_channel_storeSmppMessageId (vumi smpp : Str) (env : ℕ → Reading)
    (c : EsmeClient) :
    ∃ cache used, (onSmppCache (InMemorySmppCache.storeSmppMessageId vumi smpp)).run env c =
      ⟨.ok (), used, { c with smpp_cache := cache }⟩ := by
  rw [onSmppCache, run_on, InMemorySmppCache.storeSmppMessageId, InMemorySmppCache.onSmppMsgId,
    run_on, TimeoutDict.run_setitem]
  exact ⟨_, _, rfl⟩

/-- The loop sends one event if the PDUs are carried, and none otherwise. -/
theorem sendSegments_spec (message : Message) (pdus : List SubmitSM) :
    ∀ (env : ℕ → Reading) (c : EsmeClient),
      (CarriedUpToRefusal c.encoder pdus c.peer →
        SentOne message.message_id (AllAccepted pdus.length c.peer) c
          ((sendSegments message pdus).run env c).state) ∧
      (¬ CarriedUpToRefusal c.encoder pdus c.peer →
        ((sendSegments message pdus).run env c).state.send_message_channel =
          c.send_message_channel) := by
  induction pdus with
  | nil =>
    intro env c
    refine ⟨fun _ => ⟨_, rfl, rfl, fun _ => rfl, fun h => ?_⟩, fun h => ?_⟩
    · exact absurd (fun i hi => absurd hi (Nat.not_lt_zero i)) h
    · exact absurd (carriedUpToRefusal_nil c.encoder c.peer) h
  | cons pdu pdus ih =>
    intro env c
    rw [List.length_cons, allAccepted_succ, carriedUpToRefusal_cons, sendSegments]
    cases hencoder : c.encoder pdu with
    | error e =>
      -- The worker ends, before any event.
      rw [run_bind_error (run_sendSubmitSm_error hencoder)]
      exact ⟨fun h => absurd h.1.1 nofun, fun _ => rfl⟩
    | ok _ =>
      cases hpeer : c.peer 0 with
      | generic_nack status =>
        -- A `generic_nack` raises out of the loop, before any event.
        rw [run_bind_error (run_sendSubmitSm_nack hencoder hpeer)]
        exact ⟨fun h => h.1.2.elim, fun _ => rfl⟩
      | submit_sm_resp status message_id =>
        rw [run_bind_ok (run_sendSubmitSm_resp hencoder hpeer)]
        cases status with
        | error name description =>
          -- A refusal publishes a NACK, and the loop ends.
          refine ⟨fun _ => ⟨_, rfl, rfl, ?_, fun _ => rfl⟩, fun h => ?_⟩
          · rintro ⟨⟨id, hid⟩, _⟩
            cases hid
          · refine absurd ⟨⟨rfl, trivial⟩, ?_⟩ h
            rintro ⟨id, hid⟩
            cases hid
        | ESME_ROK =>
          have haccepts : (PDUResponse.submit_sm_resp .ESME_ROK message_id).Accepts := ⟨_, rfl⟩
          show _ ∧ _
          simp only [PDUResponse.status, haccepts, true_and, true_implies, PDUResponse.Usable]
          cases hid : messageId (.submit_sm_resp .ESME_ROK message_id) with
          | error e =>
            -- The message id cannot be read, which raises.
            refine ⟨fun h => ?_, fun _ => rfl⟩
            obtain ⟨⟨id, hid'⟩, _⟩ := h
            cases hid'
          | ok id =>
            -- The segment is accepted, and the loop goes on with the others.
            rw [ofExcept_ok, pure_bind]
            obtain ⟨cache, used, hstore⟩ := send_message_channel_storeSmppMessageId
              message.message_id id (later env 0) (c.answered pdu)
            rw [run_bind_ok hstore]
            have hrest := ih (later (later env 0) used) { c.answered pdu with smpp_cache := cache }
            exact ⟨fun h => hrest.1 h.2, fun h => hrest.2 fun hu => h ⟨⟨id, rfl⟩, hu⟩⟩

variable (P : Processors)

/-- The message gets exactly one outcome: an ACK if the peer accepts all of its PDUs, else a
NACK. -/
def OneOutcome (message : Message) (env : ℕ → Reading) (c : EsmeClient) : Prop :=
  SentOne message.message_id
    (∃ pdus, ((P.submit_sm_processor.handleOutboundMessage message).run env c.sequencer).result =
      .ok pdus ∧ AllAccepted pdus.length c.peer) c
    ((sendVumiMessage P message).run env c).state

/-- A message that becomes no PDUs gets no event. -/
theorem not_oneOutcome_of_raises {message : Message} {env : ℕ → Reading} {c : EsmeClient}
    {e : PyExc}
    (h : ((P.submit_sm_processor.handleOutboundMessage message).run env c.sequencer).result =
      .error e) : ¬ OneOutcome P message env c := by
  rintro ⟨event, hchannel, _⟩
  have hstate : ((sendVumiMessage P message).run env c).state.send_message_channel =
      c.send_message_channel := by
    rw [sendVumiMessage, run_bind, onSequencer, run_on, h]
  rw [hstate] at hchannel
  have := congrArg List.length hchannel
  simp at this

/-- A message that becomes PDUs gets exactly one outcome exactly when these are carried up to the
first refusal. -/
theorem oneOutcome_iff_carried {message : Message} {env : ℕ → Reading} {c : EsmeClient}
    {pdus : List SubmitSM}
    (hpdus : ((P.submit_sm_processor.handleOutboundMessage message).run env c.sequencer).result =
      .ok pdus) : OneOutcome P message env c ↔ CarriedUpToRefusal c.encoder pdus c.peer := by
  have haccepted : (∃ pdus', ((P.submit_sm_processor.handleOutboundMessage message).run env
      c.sequencer).result = .ok pdus' ∧ AllAccepted pdus'.length c.peer) ↔
        AllAccepted pdus.length c.peer := by
    rw [hpdus]
    simp
  have hrun : ((sendVumiMessage P message).run env c).state =
      ((sendSegments message pdus).run
        (later env ((P.submit_sm_processor.handleOutboundMessage message).run env
          c.sequencer).used)
        { c with sequencer := ((P.submit_sm_processor.handleOutboundMessage message).run env
          c.sequencer).state }).state := by
    rw [sendVumiMessage, run_bind, onSequencer, run_on, hpdus]
  obtain ⟨hone, hnone⟩ := sendSegments_spec message pdus
    (later env ((P.submit_sm_processor.handleOutboundMessage message).run env c.sequencer).used)
    { c with sequencer := ((P.submit_sm_processor.handleOutboundMessage message).run env
      c.sequencer).state }
  rw [OneOutcome, hrun, haccepted]
  constructor
  · -- Otherwise the channel would be left as it was.
    rintro ⟨event, hchannel, _⟩
    by_contra hnot
    rw [hnone hnot] at hchannel
    have := congrArg List.length hchannel
    simp at this
  · intro h
    exact hone h

/-- A message gets exactly one outcome exactly when it can be submitted, and up to the first refusal
each of its PDUs can be encoded and gets a response that can be used. -/
theorem oneOutcome_iff (message : Message) (env : ℕ → Reading) (c : EsmeClient) :
    OneOutcome P message env c ↔
      ∃ content, P.submit_sm_processor.encodeContent message.content = .ok content ∧
        P.submit_sm_processor.Submittable message.from_addr message.to_addr content ∧
        ∀ pdus, ((P.submit_sm_processor.handleOutboundMessage message).run env
          c.sequencer).result = .ok pdus → CarriedUpToRefusal c.encoder pdus c.peer := by
  cases hcontent : P.submit_sm_processor.encodeContent message.content with
  | error e =>
    -- A content that cannot be encoded becomes no PDUs.
    have hraises : ((P.submit_sm_processor.handleOutboundMessage message).run env
        c.sequencer).result = .error e := by
      rw [SubmitShortMessageProcessor.handleOutboundMessage, hcontent]
      rfl
    simp [not_oneOutcome_of_raises P hraises]
  | ok content =>
    have heq : P.submit_sm_processor.handleOutboundMessage message =
        P.submit_sm_processor.submitContent message.from_addr message.to_addr content := by
      rw [SubmitShortMessageProcessor.handleOutboundMessage, hcontent, ofExcept_ok, pure_bind]
    simp only [Except.ok.injEq, exists_eq_left']
    by_cases hsubmit : P.submit_sm_processor.Submittable message.from_addr message.to_addr content
    · -- Every segment becomes a PDU, and then all depends on how these are carried.
      obtain ⟨pdus, hpdus, -⟩ := P.submit_sm_processor.returns_submitContent hsubmit env c.sequencer
      rw [← heq] at hpdus
      rw [oneOutcome_iff_carried P hpdus, hpdus, and_iff_right hsubmit]
      simp
    · -- A message that cannot be submitted becomes no PDUs either.
      obtain ⟨e, he⟩ := P.submit_sm_processor.raises_submitContent hsubmit env c.sequencer
      rw [← heq] at he
      simp [not_oneOutcome_of_raises P he, hsubmit]

/-- The processors with their default configurations. -/
def defaultProcessors : Processors where
  submit_sm_processor := ⟨{}, fun s => encoded (Codecs.utf8Encode s)⟩
  sm_processer := .default
  dr_processor := .default

/-- The encoder raises for a text that is too long for `short_message`. -/
def encodeShortMessage (pdu : SubmitSM) : Except PyExc Unit :=
  if (pdu.short_message.getD []).length ≤ 254 then .ok () else .error .valueError

/-- A client that has sent nothing, and whose peer accepts every PDU. -/
def freshClient : EsmeClient where
  sequencer := ⟨0⟩
  smpp_cache := .new 86400
  encoder := encodeShortMessage
  send_message_channel := []
  pdu_send_channel := []
  peer := fun _ => .submit_sm_resp .ESME_ROK (some [0x31])

/-- A Cyrillic letter has no encoding in the default alphabet, and its message gets no outcome. -/
theorem unencodable_message_without_outcome :
    ¬ OneOutcome defaultProcessors
      { Message.create (str "+27820001001") (str "12345") (str "sms") .sms
          ⟨0, str "m", DateTime.min⟩ with content := .string (str "Ж") }
      (fun _ => ⟨0, str "e", DateTime.min⟩) freshClient := by
  have hbase : gsm0338CharsetMap (ofChar 'Ж') = none := by decide +kernel
  have hextension : gsm0338CharsetExtensionMap (ofChar 'Ж') = none := by decide +kernel
  have hcontent : defaultProcessors.submit_sm_processor.encodeContent (.string (str "Ж")) =
      .error .unicodeEncodeError := by
    rw [defaultProcessors.submit_sm_processor.encodeContent_string rfl]
    exact gsm0338Encode_unknown [] rfl hbase hextension
  apply not_oneOutcome_of_raises (e := .unicodeEncodeError)
  rw [SubmitShortMessageProcessor.handleOutboundMessage, hcontent]
  rfl

end EsmeClient

end Vumi2.Smpp
