import Vumi2.ExpiringMap
import Vumi2.Smpp.Outcomes

/-!
# The segments of a submission

`send_vumi_message` sends one PDU after another until the peer refuses one, and maps the message id
of each response that accepts a PDU to the message; then it sends one event. `sendSegments_eq` takes
the event apart from the loop, so that the loop can be specified alone (`submitSegments_spec`).

The mapping is a cache, so what it holds afterwards is said of look-ups: each of the ids is mapped
to the message for as long as the timeout from when it was stored, and under any other key nothing
has changed. A response that accepts a PDU with a message id that is not UTF-8 raises out of the
loop, a PDU that cannot be encoded ends the worker, and the message gets no event
(`submitsRight_iff`).
-/

namespace Vumi2.Smpp

open Effect Eff Text

/-- Of `n` responses, the first `a` are `ESME_ROK`, and the next one, if there is one, is not. -/
structure AcceptedFirst (n : ℕ) (peer : ℕ → PDUResponse) (a : ℕ) : Prop where
  le : a ≤ n
  accepted : ∀ i < a, (peer i).status = .ESME_ROK
  refused : a < n → (peer a).status ≠ .ESME_ROK

namespace EsmeClient

/-- The loop of `send_vumi_message`: the description of the refusal that it ended with, if it
did. -/
def submitSegments (message : Message) : List SubmitSM → Py EsmeClient (Option Str)
  | [] => pure none
  | pdu :: pdus => do
    let response ← sendSubmitSm pdu
    match response.status with
    | .error _ description => pure (some description)
    | .ESME_ROK => do
      let smpp_message_id ← ofExcept (messageId response)
      onSmppCache (InMemorySmppCache.storeSmppMessageId message.message_id smpp_message_id)
      submitSegments message pdus

/-- The event for a message: a NACK for a refusal, else an ACK. -/
def outcomeEvent (message : Message) (refusal : Option Str) (r : Reading) : Event :=
  match refusal with
  | some description => Event.nack message.message_id message.message_id description r
  | none => Event.ack message.message_id message.message_id r

/-- What `send_vumi_message` does after its loop. -/
def sendOutcome (message : Message) (refusal : Option Str) : Py EsmeClient Unit := do
  let r ← read
  sendMessage (.event (outcomeEvent message refusal r))

/-- `send_vumi_message` sends its event after the loop. -/
theorem sendSegments_eq (message : Message) (pdus : List SubmitSM) :
    sendSegments message pdus = submitSegments message pdus >>= sendOutcome message := by
  induction pdus with
  | nil =>
    rw [submitSegments, pure_bind]
    rfl
  | cons pdu pdus ih =>
    rw [sendSegments, submitSegments, bind_assoc]
    congr 1
    funext response
    cases response.status with
    | error name description =>
      dsimp only
      rw [pure_bind]
      rfl
    | ESME_ROK =>
      dsimp only
      rw [bind_assoc]
      congr 1
      funext id
      rw [bind_assoc, ih]

/-- What a look-up in the mapping finds when the clock stands at `now`. -/
def mapped (c : EsmeClient) (now : ℚ) (smpp_message_id : Str) : Option Str :=
  c.smpp_cache.smpp_msg_id.lookedUp now smpp_message_id

/-- What the loop has done when it ends after `a` responses that are `ESME_ROK`. -/
structure Submitted (message : Message) (pdus : List SubmitSM) (env : ℕ → Reading)
    (c : EsmeClient) (a : ℕ) (refusal : Option Str) (c' : EsmeClient) : Prop where
  /-- The PDUs went out in order, up to the one that was refused. -/
  wire : c'.pdu_send_channel = c.pdu_send_channel ++ (pdus.take (a + 1)).map .submit_sm
  channel : c'.send_message_channel = c.send_message_channel
  /-- The refusal is the first one, if there is one. -/
  refused : a < pdus.length → ∃ name description,
    (c.peer a).status = .error name description ∧ refusal = some description
  unrefused : a = pdus.length → refusal = none
  /-- The ids of the accepted PDUs are mapped to the message, until they are too old, and all others
  are mapped as before. -/
  mapped : ∀ now, (env (2 * a)).time ≤ now → ∀ key v, c'.mapped now key = some v ↔
    (v = message.message_id ∧ ∃ j < a, messageId (c.peer j) = .ok key ∧
      TimeoutDict.age now (env (2 * j + 1)).time ≤ c.smpp_cache.smpp_msg_id.timeout) ∨
    (∀ j < a, messageId (c.peer j) ≠ .ok key) ∧ c.mapped now key = some v

/-- The client after a message id was mapped to a message. -/
def mapping (c : EsmeClient) (env : ℕ → Reading) (smpp_message_id vumi_message_id : Str) :
    EsmeClient :=
  { c with
    smpp_cache :=
      { c.smpp_cache with
        smpp_msg_id := ((TimeoutDict.setitem smpp_message_id vumi_message_id).run env
          c.smpp_cache.smpp_msg_id).state } }

/-- Storing an id changes the mapping of the client and nothing else. -/
theorem run_storeSmppMessageId (vumi_message_id smpp_message_id : Str) (env : ℕ → Reading)
    (c : EsmeClient) :
    (onSmppCache (InMemorySmppCache.storeSmppMessageId vumi_message_id smpp_message_id)).run env c =
      ⟨.ok (), 2, c.mapping env smpp_message_id vumi_message_id⟩ := by
  rw [onSmppCache, run_on, InMemorySmppCache.storeSmppMessageId, InMemorySmppCache.onSmppMsgId,
    run_on, mapping, TimeoutDict.run_setitem]

/-- The clock has come as far as the last thing that the mapping holds. -/
theorem dated_mapping {c : EsmeClient} {env : ℕ → Reading} (hclock : Clocked env)
    (hdated : c.smpp_cache.smpp_msg_id.Dated (env 0).time) (smpp_message_id vumi_message_id : Str) :
    (c.mapping env smpp_message_id vumi_message_id).smpp_cache.smpp_msg_id.Dated (env 2).time := by
  have hkeep := TimeoutDict.datedAt_setitem smpp_message_id vumi_message_id env
    c.smpp_cache.smpp_msg_id hclock hdated
  rw [TimeoutDict.run_setitem] at hkeep
  rw [mapping, TimeoutDict.run_setitem]
  exact hkeep

/-- Storing an id keeps the lifetime of the mapping. -/
theorem timeout_mapping (c : EsmeClient) (env : ℕ → Reading)
    (smpp_message_id vumi_message_id : Str) :
    (c.mapping env smpp_message_id vumi_message_id).smpp_cache.smpp_msg_id.timeout =
      c.smpp_cache.smpp_msg_id.timeout := by
  rw [mapping, TimeoutDict.run_setitem]

/-! ### One segment before the others -/

/-- What the later of `a + 1` responses have stored counts before what the first one has: `Is j`
says that response `j` is about the key, and `Fresh j` that what it stored is not too old. -/
theorem stored_succ {a : ℕ} (Is Fresh : ℕ → Prop) {Right Before After : Prop}
    (hfresh : ∀ j, Fresh 0 → Fresh j)
    (hafter : After ↔ Is 0 ∧ Right ∧ Fresh 0 ∨ ¬ Is 0 ∧ Before) :
    ((Right ∧ ∃ j < a, Is (j + 1) ∧ Fresh (j + 1)) ∨ (∀ j < a, ¬ Is (j + 1)) ∧ After) ↔
      (Right ∧ ∃ j < a + 1, Is j ∧ Fresh j) ∨ (∀ j < a + 1, ¬ Is j) ∧ Before := by
  rw [hafter]
  constructor
  · rintro (⟨hright, j, hj, his, hjfresh⟩ | ⟨hnone, ⟨his, hright, hold⟩ | ⟨hnot, hbefore⟩⟩)
    · exact .inl ⟨hright, j + 1, Nat.succ_lt_succ hj, his, hjfresh⟩
    · exact .inl ⟨hright, 0, Nat.succ_pos a, his, hold⟩
    · refine .inr ⟨fun j hj => ?_, hbefore⟩
      cases j with
      | zero => exact hnot
      | succ j => exact hnone j (Nat.lt_of_succ_lt_succ hj)
  · rintro (⟨hright, j, hj, his, hjfresh⟩ | ⟨hnone, hbefore⟩)
    · cases j with
      | succ j => exact .inl ⟨hright, j, Nat.lt_of_succ_lt_succ hj, his, hjfresh⟩
      | zero =>
        -- The first key may come again; then it was stored again later, and is no older.
        by_cases hagain : ∃ j < a, Is (j + 1)
        · obtain ⟨j, hj, his'⟩ := hagain
          exact .inl ⟨hright, j, hj, his', hfresh (j + 1) hjfresh⟩
        · exact .inr ⟨fun j hj his' => hagain ⟨j, hj, his'⟩, .inl ⟨his, hright, hjfresh⟩⟩
    · exact .inr ⟨fun j hj => hnone (j + 1) (Nat.succ_lt_succ hj),
        .inr ⟨hnone 0 (Nat.succ_pos a), hbefore⟩⟩

/-- What is mapped once an accepted segment and those after it have been sent. -/
theorem mapped_cons (pdu : SubmitSM) {env : ℕ → Reading} {c c' : EsmeClient} {a : ℕ}
    {id vumi_message_id : Str} (hclock : Clocked env)
    (hdated : c.smpp_cache.smpp_msg_id.Dated (env 0).time) (hid : messageId (c.peer 0) = .ok id)
    {now : ℚ} (hnow : (env 1).time ≤ now) (key v : Str)
    (h : c'.mapped now key = some v ↔
      (v = vumi_message_id ∧ ∃ j < a, messageId (c.peer (j + 1)) = .ok key ∧
        TimeoutDict.age now (env (2 * (j + 1) + 1)).time ≤ c.smpp_cache.smpp_msg_id.timeout) ∨
      (∀ j < a, messageId (c.peer (j + 1)) ≠ .ok key) ∧
        ((c.answered pdu).mapping env id vumi_message_id).mapped now key = some v) :
    c'.mapped now key = some v ↔
      (v = vumi_message_id ∧ ∃ j < a + 1, messageId (c.peer j) = .ok key ∧
        TimeoutDict.age now (env (2 * j + 1)).time ≤ c.smpp_cache.smpp_msg_id.timeout) ∨
      (∀ j < a + 1, messageId (c.peer j) ≠ .ok key) ∧ c.mapped now key = some v := by
  -- What the others find is what the first one has stored, or what was there before.
  have hfirst : ((c.answered pdu).mapping env id vumi_message_id).mapped now key = some v ↔
      if key = id then
        v = vumi_message_id ∧
          TimeoutDict.age now (env 1).time ≤ c.smpp_cache.smpp_msg_id.timeout
      else c.mapped now key = some v :=
    TimeoutDict.lookedUp_setitem hclock hdated id vumi_message_id hnow key v
  have hkey : messageId (c.peer 0) = .ok key ↔ key = id := by
    rw [hid, Except.ok.injEq, eq_comm]
  have hage : ∀ j, TimeoutDict.age now (env 1).time ≤ c.smpp_cache.smpp_msg_id.timeout →
      TimeoutDict.age now (env (2 * j + 1)).time ≤ c.smpp_cache.smpp_msg_id.timeout := by
    intro j hold
    have hlater : (env 1).time ≤ (env (2 * j + 1)).time := hclock (by omega)
    exact (TimeoutDict.age_mono le_rfl hlater).trans hold
  rw [h]
  apply stored_succ (fun j => messageId (c.peer j) = .ok key)
    (fun j => TimeoutDict.age now (env (2 * j + 1)).time ≤ c.smpp_cache.smpp_msg_id.timeout) hage
  rw [hfirst, hkey]
  split_ifs with heq
  · simp [heq]
  · simp [heq]

/-- The segments after an accepted one do what they do alone, from the client that the first one
leaves. -/
theorem Submitted.cons {message : Message} {pdu : SubmitSM} {pdus : List SubmitSM}
    {env : ℕ → Reading} {c c' : EsmeClient} {a : ℕ} {refusal : Option Str} {id : Str}
    (hclock : Clocked env) (hdated : c.smpp_cache.smpp_msg_id.Dated (env 0).time)
    (hid : messageId (c.peer 0) = .ok id)
    (h : Submitted message pdus (later env 2)
      ((c.answered pdu).mapping env id message.message_id) a refusal c') :
    Submitted message (pdu :: pdus) env c (a + 1) refusal c' where
  wire := by
    have hwire : c'.pdu_send_channel = (c.pdu_send_channel ++ [.submit_sm pdu]) ++
        (pdus.take (a + 1)).map .submit_sm := h.wire
    rw [hwire, List.append_assoc, List.take_succ_cons, List.map_cons, List.singleton_append]
  channel := h.channel
  refused := by
    intro ha
    have hlt : a + 1 < pdus.length + 1 := ha
    -- The responses to the other segments are counted from the second one on.
    obtain ⟨name, description, hstatus, hrefusal⟩ := h.refused (Nat.lt_of_succ_lt_succ hlt)
    have hpeer : (later c.peer 1) a = c.peer (a + 1) := congrArg c.peer (Nat.add_comm 1 a)
    exact ⟨name, description, hpeer ▸ hstatus, hrefusal⟩
  unrefused := by
    intro ha
    have heq : a + 1 = pdus.length + 1 := ha
    exact h.unrefused (Nat.succ.inj heq)
  mapped := by
    intro now hnow key v
    -- The first segment takes two readings, and each of the others two more.
    have hnow1 : (env 1).time ≤ now := le_trans (hclock (by omega)) hnow
    have hend : ((later env 2) (2 * a)).time ≤ now := by
      have heq : (later env 2) (2 * a) = env (2 * (a + 1)) := congrArg env (by omega)
      rw [heq]
      exact hnow
    have hpeer : ∀ j, (later c.peer 1) j = c.peer (j + 1) := fun j =>
      congrArg c.peer (Nat.add_comm 1 j)
    have htime : ∀ j, (later env 2) (2 * j + 1) = env (2 * (j + 1) + 1) := fun j =>
      congrArg env (by omega)
    have hrest := h.mapped now hend key v
    rw [timeout_mapping] at hrest
    refine mapped_cons pdu hclock hdated hid hnow1 key v ?_
    simpa only [mapping, answered, hpeer, htime] using hrest

/-! ### The loop -/

/-- A message without PDUs submits nothing. -/
theorem Submitted.nil (message : Message) (env : ℕ → Reading) (c : EsmeClient) :
    Submitted message [] env c 0 none c where
  wire := by rw [List.take_nil, List.map_nil, List.append_nil]
  channel := rfl
  refused := fun h => absurd h (Nat.lt_irrefl 0)
  unrefused := fun _ => rfl
  mapped := fun now _ key v => by simp

/-- A refused PDU ends the submission with the text of its status. -/
theorem Submitted.refuse {c : EsmeClient} {name : Str} {description : Str}
    (hstatus : (c.peer 0).status = .error name description) (message : Message) (pdu : SubmitSM)
    (pdus : List SubmitSM) (env : ℕ → Reading) :
    Submitted message (pdu :: pdus) env c 0 (some description) (c.answered pdu) where
  wire := rfl
  channel := rfl
  refused := fun _ => ⟨name, description, hstatus, rfl⟩
  unrefused := fun h => absurd h.symm (Nat.succ_ne_zero _)
  mapped := fun now _ key v => by simp [answered, EsmeClient.mapped]

end EsmeClient

/-- Of no responses, none accepts a PDU. -/
theorem AcceptedFirst.none (peer : ℕ → PDUResponse) : AcceptedFirst 0 peer 0 :=
  ⟨Nat.le_refl 0, fun i hi => absurd hi (Nat.not_lt_zero i), fun h => absurd h (Nat.lt_irrefl 0)⟩

/-- A response that refuses its PDU leaves none that accepts one. -/
theorem AcceptedFirst.refuse {peer : ℕ → PDUResponse} (h : (peer 0).status ≠ .ESME_ROK) (n : ℕ) :
    AcceptedFirst (n + 1) peer 0 :=
  ⟨Nat.zero_le _, fun i hi => absurd hi (Nat.not_lt_zero i), fun _ => h⟩

/-- A response that accepts its PDU comes before the others. -/
theorem AcceptedFirst.accept {peer : ℕ → PDUResponse} {n a : ℕ}
    (hstatus : (peer 0).status = .ESME_ROK) (h : AcceptedFirst n (later peer 1) a) :
    AcceptedFirst (n + 1) peer (a + 1) := by
  have hpeer : ∀ j, (later peer 1) j = peer (j + 1) := fun j => congrArg peer (Nat.add_comm 1 j)
  refine ⟨Nat.succ_le_succ h.le, fun i hi => ?_, fun ha => ?_⟩
  · cases i with
    | zero => exact hstatus
    | succ i =>
      rw [← hpeer]
      exact h.accepted i (Nat.lt_of_succ_lt_succ hi)
  · rw [← hpeer]
    exact h.refused (Nat.lt_of_succ_lt_succ ha)

namespace EsmeClient

/-- A refused segment ends the loop. -/
theorem run_submitSegments_refused {message : Message} {pdu : SubmitSM} {pdus : List SubmitSM}
    {env : ℕ → Reading} {c : EsmeClient} {name description : Str} {message_id : Option Bytes}
    (hencoder : c.encoder pdu = .ok ())
    (hpeer : c.peer 0 = .submit_sm_resp (.error name description) message_id) :
    (submitSegments message (pdu :: pdus)).run env c =
      ⟨.ok (some description), 0, c.answered pdu⟩ := by
  rw [submitSegments, run_bind_ok (run_sendSubmitSm_resp hencoder hpeer)]
  rfl

/-- After an accepted one, the loop goes on from the client that has mapped its id. -/
theorem run_submitSegments_accepted {message : Message} {pdu : SubmitSM} {pdus : List SubmitSM}
    {env : ℕ → Reading} {c : EsmeClient} {message_id : Option Bytes} {id : Str}
    (hencoder : c.encoder pdu = .ok ())
    (hpeer : c.peer 0 = .submit_sm_resp .ESME_ROK message_id) (hid : messageId (c.peer 0) = .ok id)
    {o : Outcome PyExc EsmeClient (Option Str)}
    (ho : (submitSegments message pdus).run (later env 2)
      ((c.answered pdu).mapping env id message.message_id) = o) :
    (submitSegments message (pdu :: pdus)).run env c = ⟨o.result, 2 + o.used, o.state⟩ := by
  have hstore : (onSmppCache (InMemorySmppCache.storeSmppMessageId message.message_id id)).run
      (later env 0) (c.answered pdu) =
        ⟨.ok (), 2, (c.answered pdu).mapping env id message.message_id⟩ := by
    rw [later_zero]
    exact run_storeSmppMessageId message.message_id id env (c.answered pdu)
  rw [hpeer] at hid
  rw [submitSegments, run_bind_ok (run_sendSubmitSm_resp hencoder hpeer)]
  simp only [PDUResponse.status]
  rw [hid, ofExcept_ok, pure_bind, run_bind_ok hstore, later_zero, ho]
  exact congrArg (fun n => Outcome.mk o.result n o.state) (Nat.zero_add _)

/-- The loop ends at the first refusal, or after the last segment. -/
theorem submitSegments_spec (message : Message) (pdus : List SubmitSM) :
    ∀ (env : ℕ → Reading) (c : EsmeClient), Clocked env →
      c.smpp_cache.smpp_msg_id.Dated (env 0).time → CarriedUpToRefusal c.encoder pdus c.peer →
      ∃ a refusal c', AcceptedFirst pdus.length c.peer a ∧
        (submitSegments message pdus).run env c = ⟨.ok refusal, 2 * a, c'⟩ ∧
        Submitted message pdus env c a refusal c' := by
  induction pdus with
  | nil =>
    intro env c _ _ _
    exact ⟨0, none, c, .none c.peer, rfl, .nil message env c⟩
  | cons pdu pdus ih =>
    intro env c hclock hdated hcarried
    rw [carriedUpToRefusal_cons] at hcarried
    obtain ⟨⟨hencoder, husable⟩, hrest⟩ := hcarried
    rw [List.length_cons]
    cases hpeer : c.peer 0 with
    | generic_nack status =>
      rw [hpeer] at husable
      exact husable.elim
    | submit_sm_resp status message_id =>
      have hstatus : (c.peer 0).status = status := by
        rw [hpeer]
        rfl
      rw [hpeer] at husable hrest
      cases status with
      | error name description =>
        have hrefused : (c.peer 0).status ≠ .ESME_ROK := by
          rw [hstatus]
          exact nofun
        exact ⟨0, some description, c.answered pdu, .refuse hrefused _,
          run_submitSegments_refused hencoder hpeer, .refuse hstatus message pdu pdus env⟩
      | ESME_ROK =>
        obtain ⟨id, hid⟩ := husable
        rw [← hpeer] at hid
        -- The others are sent from the client that has mapped the first id.
        obtain ⟨a, refusal, c', hfirst, hrun, hsubmitted⟩ := ih (later env 2)
          ((c.answered pdu).mapping env id message.message_id) (hclock.later 2)
          (dated_mapping hclock hdated id message.message_id) (hrest ⟨_, rfl⟩)
        refine ⟨a + 1, refusal, c', hfirst.accept hstatus, ?_, hsubmitted.cons hclock hdated hid⟩
        have hused : 2 + 2 * a = 2 * (a + 1) := by omega
        rw [run_submitSegments_accepted hencoder hpeer hid hrun, hused]

/-! ## The whole submission -/

variable (P : Processors)

/-- The processor has made `pdus` of the message, with `used` readings. Then the PDUs are sent up to
the first refusal, the accepted ones are recorded, and at last one event is sent: a NACK with the
description of the refusal if there is one, else an ACK. -/
def SubmitsRight (message : Message) (pdus : List SubmitSM) (used : ℕ)
    (sequencer : InMemorySequencer) (env : ℕ → Reading) (c : EsmeClient) : Prop :=
  ∃ a refusal c',
    AcceptedFirst pdus.length c.peer a ∧
    (submitSegments message pdus).run (later env used) { c with sequencer := sequencer } =
      ⟨.ok refusal, 2 * a, c'⟩ ∧
    Submitted message pdus (later env used) c a refusal c' ∧
    (sendVumiMessage P message).run env c =
      ⟨.ok (), used + (2 * a + 1),
        { c' with
          send_message_channel := c.send_message_channel ++
            [.event (outcomeEvent message refusal (env (used + 2 * a)))] }⟩

variable {P}

/-- What `send_vumi_message` publishes is read off how its loop ended. -/
theorem run_sendVumiMessage {message : Message} {pdus : List SubmitSM} {used : ℕ}
    {sequencer : InMemorySequencer} {env : ℕ → Reading} {c : EsmeClient}
    (hpdus : (P.submit_sm_processor.handleOutboundMessage message).run env c.sequencer =
      ⟨.ok pdus, used, sequencer⟩) {o : Outcome PyExc EsmeClient Unit}
    (ho : (sendSegments message pdus).run (later env used) { c with sequencer := sequencer } = o) :
    (sendVumiMessage P message).run env c = ⟨o.result, used + o.used, o.state⟩ := by
  have honSequencer : (onSequencer (P.submit_sm_processor.handleOutboundMessage message)).run env
      c = ⟨.ok pdus, used, { c with sequencer := sequencer }⟩ := by
    rw [onSequencer, run_on, hpdus]
  rw [sendVumiMessage, run_bind_ok honSequencer, ho]

/-- Where the PDUs are not carried, the message is left without an event. -/
theorem SubmitsRight.carried {message : Message} {pdus : List SubmitSM} {used : ℕ}
    {sequencer : InMemorySequencer} {env : ℕ → Reading} {c : EsmeClient}
    (h : SubmitsRight P message pdus used sequencer env c)
    (hpdus : (P.submit_sm_processor.handleOutboundMessage message).run env c.sequencer =
      ⟨.ok pdus, used, sequencer⟩) :
    CarriedUpToRefusal c.encoder pdus c.peer := by
  obtain ⟨a, refusal, c', -, -, -, hrun⟩ := h
  by_contra hnot
  have hnone : ((sendSegments message pdus).run (later env used)
      { c with sequencer := sequencer }).state.send_message_channel = c.send_message_channel :=
    (sendSegments_spec message pdus (later env used) { c with sequencer := sequencer }).2 hnot
  have hone := congrArg (fun o => o.state.send_message_channel) hrun
  rw [run_sendVumiMessage hpdus rfl] at hone
  have hlength := congrArg List.length (hnone.symm.trans hone)
  rw [List.length_append, List.length_singleton] at hlength
  omega

/-- A carried message is submitted right if its PDUs are. -/
theorem submitsRight_of_carried {message : Message} {pdus : List SubmitSM} {used : ℕ}
    {sequencer : InMemorySequencer} {env : ℕ → Reading} {c : EsmeClient} (hclock : Clocked env)
    (hdated : c.smpp_cache.smpp_msg_id.Dated (env 0).time)
    (hpdus : (P.submit_sm_processor.handleOutboundMessage message).run env c.sequencer =
      ⟨.ok pdus, used, sequencer⟩) (h : CarriedUpToRefusal c.encoder pdus c.peer) :
    SubmitsRight P message pdus used sequencer env c := by
  have hdated : c.smpp_cache.smpp_msg_id.Dated (later env used 0).time :=
    hdated.mono (hclock (Nat.zero_le _))
  obtain ⟨a, refusal, c', hfirst, hrun, hsubmitted⟩ := submitSegments_spec message pdus
    (later env used) { c with sequencer := sequencer } (hclock.later used) hdated h
  have hsubmitted : Submitted message pdus (later env used) c a refusal c' :=
    { wire := hsubmitted.wire
      channel := hsubmitted.channel
      refused := hsubmitted.refused
      unrefused := hsubmitted.unrefused
      mapped := hsubmitted.mapped }
  refine ⟨a, refusal, c', hfirst, hrun, hsubmitted, ?_⟩
  have hsegments := run_bind_ok (f := sendOutcome message) hrun
  rw [← sendSegments_eq] at hsegments
  rw [run_sendVumiMessage hpdus hsegments, ← hsubmitted.channel]
  rfl

/-- A message is submitted right exactly when its PDUs are carried up to the first refusal: by a
client whose cache has any history. -/
theorem submitsRight_iff {env : ℕ → Reading} (hclock : Clocked env) (timeout : ℚ)
    (uses : List (DictUse Str)) {message : Message} {pdus : List SubmitSM} {used : ℕ}
    {sequencer : InMemorySequencer} {c : EsmeClient}
    (hcache : c.smpp_cache.smpp_msg_id =
      ((DictUse.history uses).run env (TimeoutDict.new timeout)).state)
    (hpdus : (P.submit_sm_processor.handleOutboundMessage message).run
      (later env (DictUse.allReadings uses)) c.sequencer = ⟨.ok pdus, used, sequencer⟩) :
    SubmitsRight P message pdus used sequencer (later env (DictUse.allReadings uses)) c ↔
      CarriedUpToRefusal c.encoder pdus c.peer := by
  have hdated : c.smpp_cache.smpp_msg_id.Dated
      (later env (DictUse.allReadings uses) 0).time := by
    rw [hcache]
    exact (DictUse.reflects_history hclock timeout uses).dated
  constructor
  · intro h
    exact h.carried hpdus
  · intro h
    exact submitsRight_of_carried (hclock.later _) hdated hpdus h

/-- A message of five characters. -/
def helloMessage : Message :=
  { Message.create (str "+27820001001") (str "12345") (str "sms") .sms
      ⟨0, str "m", DateTime.min⟩ with content := .string (str "hello") }

/-- It becomes one PDU. -/
theorem helloMessage_pdus (env : ℕ → Reading) :
    ∃ pdu, (defaultProcessors.submit_sm_processor.handleOutboundMessage helloMessage).run env ⟨0⟩ =
      ⟨.ok [pdu], 0, ⟨1⟩⟩ := by
  have hcontent : defaultProcessors.submit_sm_processor.encodeContent helloMessage.content =
      .ok [0x68, 0x65, 0x6c, 0x6c, 0x6f] := by decide +kernel
  rw [SubmitShortMessageProcessor.handleOutboundMessage, hcontent]
  exact ⟨_, rfl⟩

/-- `submitsRight_iff` holds of a message that the peer accepts. -/
theorem helloMessage_submitsRight :
    ∃ pdus, SubmitsRight defaultProcessors helloMessage pdus 0 ⟨1⟩
      (later DictUse.tickingClock 0) freshClient ↔
        CarriedUpToRefusal freshClient.encoder pdus freshClient.peer := by
  obtain ⟨pdu, hpdu⟩ := helloMessage_pdus (later DictUse.tickingClock 0)
  exact ⟨[pdu], submitsRight_iff DictUse.clocked_tickingClock 86400 [] rfl hpdu⟩

/-- A message is not submitted right when the peer accepts it with a message id that is not
UTF-8. -/
theorem undecodable_message_id_not_submitsRight :
    ∃ pdus, (defaultProcessors.submit_sm_processor.handleOutboundMessage helloMessage).run
        DictUse.tickingClock ⟨0⟩ = ⟨.ok pdus, 0, ⟨1⟩⟩ ∧
      ¬ SubmitsRight defaultProcessors helloMessage pdus 0 ⟨1⟩ DictUse.tickingClock
        { freshClient with peer := fun _ => .submit_sm_resp .ESME_ROK (some [0xff]) } := by
  obtain ⟨pdu, hpdu⟩ := helloMessage_pdus DictUse.tickingClock
  refine ⟨[pdu], hpdu, fun h => ?_⟩
  obtain ⟨-, id, hid⟩ := h.carried hpdu 0 pdu rfl fun j hj => absurd hj (Nat.not_lt_zero j)
  have hundecodable : messageId (.submit_sm_resp .ESME_ROK (some [0xff])) =
      .error .unicodeDecodeError := by decide +kernel
  rw [hundecodable] at hid
  cases hid

end EsmeClient

end Vumi2.Smpp
