import Vumi2.Smpp.Traffic

/-!
# A call that nothing interferes with

`sendVumiMessage` runs `send_vumi_message` from its beginning to its end, with the responses that
its peer will give. The steps of `Traffic` run it from one wait to the next, so that other calls may
come between. When none does, and the responses come in their order, both do the same
(`sendVumiMessage_alone`). They also end alike when a PDU cannot be encoded, except that a call in
`Traffic` is left to wait in a client that has ended.

The loop is compared from its head on (`AtHead`): each response brings the call to the head again,
with one PDU less, or to its end.
-/

namespace Vumi2.Smpp

open Effect Eff Text Machine

namespace EsmeClient

/-- The client with another peer. -/
def facing (c : EsmeClient) (peer : ℕ → PDUResponse) : EsmeClient where
  sequencer := c.sequencer
  smpp_cache := c.smpp_cache
  encoder := c.encoder
  send_message_channel := c.send_message_channel
  pdu_send_channel := c.pdu_send_channel
  peer := peer

/-- A client faces its own peer. -/
@[simp] theorem facing_self (c : EsmeClient) : c.facing c.peer = c := rfl

/-- Mapping an id does not ask who the peer is. -/
theorem mapping_facing (c : EsmeClient) (peer : ℕ → PDUResponse) (env : ℕ → Reading)
    (smpp_message_id vumi_message_id : Str) :
    (c.facing peer).mapping env smpp_message_id vumi_message_id =
      (c.mapping env smpp_message_id vumi_message_id).facing peer := rfl

end EsmeClient

namespace Traffic

/-- The first responses of a peer, as they come to the first call. -/
def responses (peer : ℕ → PDUResponse) : ℕ → List TrafficAction
  | 0 => []
  | n + 1 => .respond 0 (peer 0) :: responses (later peer 1) n

/-- How far a call has come when it has returned or raised. -/
def finished : Except PyExc Unit → SendStage
  | .ok _ => .returned
  | .error e => .raised e

/-- The only call has come to a stage, and the client with it. -/
structure Reaches (message : Message) (made : Except PyExc (List SubmitSM)) (stage : SendStage)
    (client : EsmeClient) (clock : ℕ) (t : Traffic) : Prop where
  raised : t.raised = publishRaises client stage
  calls : ∃ got, t.calls = [⟨message, made, got, stage⟩]
  client : t.client = client
  clock : t.clock = clock

/-- The only call has left the head of the loop. -/
def AtHead (env : ℕ → Reading) (peer : ℕ → PDUResponse) (message : Message)
    (made : Except PyExc (List SubmitSM)) (pdus : List SubmitSM) (c : EsmeClient) (k : ℕ)
    (t : Traffic) : Prop :=
  Reaches message made
    (stageOf ((EsmeClient.sendNext message pdus).run (later env k) (c.facing peer)).result)
    ((EsmeClient.sendNext message pdus).run (later env k) (c.facing peer)).state
    (k + ((EsmeClient.sendNext message pdus).run (later env k) (c.facing peer)).used) t

/-- The only call has ended, or waits with a PDU that `publish_stream` has raised at. -/
def Ended (peer : ℕ → PDUResponse) (message : Message) (made : Except PyExc (List SubmitSM))
    (o : Outcome PyExc EsmeClient Unit) (k : ℕ) (t : Traffic) : Prop :=
  ∃ stage, Reaches message made stage (o.state.facing peer) (k + o.used) t ∧
    (stage = finished o.result ∨ t.raised = true ∧
      ∃ rest e, stage = .awaiting rest ∧ o.result = .error e)

variable {P : Processors} {env : ℕ → Reading} {peer : ℕ → PDUResponse} {message : Message}
  {made : Except PyExc (List SubmitSM)} {t : Traffic}

/-- The only call gets a response. -/
theorem Reaches.respond {rest : List SubmitSM} {client : EsmeClient} {k : ℕ}
    (h : Reaches message made (.awaiting rest) client k t) (hraised : t.raised = false)
    (response : PDUResponse) {o : Outcome PyExc EsmeClient SendStage}
    (ho : (EsmeClient.goOnSending message rest response).run (later env k) client = o) :
    ∃ t', step P env t (.respond 0 response) = some t' ∧
      Reaches message made (stageOf o.result) o.state (k + o.used) t' := by
  -- The response belongs to call 0, which waits for it.
  obtain ⟨got, hcalls⟩ := h.calls
  have hcall : t.calls[0]? = some ⟨message, made, got, .awaiting rest⟩ := by
    rw [hcalls]
    rfl
  have hgoes : t.raised ≠ true := by
    rw [hraised]
    exact Bool.false_ne_true
  have ho' : (EsmeClient.goOnSending message rest response).run (t.coming env) t.client = o := by
    rw [coming, h.client, h.clock, ho]
  refine ⟨t.resumed 0 ⟨message, made, got, .awaiting rest⟩ response
    (logResponse (t.coming env) 0 message rest response) o, ?_, ?_,
      ⟨got ++ [response], ?_⟩, rfl, ?_⟩
  · rw [step, if_neg hgoes, resumeCall, hcall]
    dsimp only
    rw [ho']
  · show (t.raised || publishRaises o.state (stageOf o.result)) = _
    rw [hraised, Bool.false_or]
  · show t.calls.set 0 _ = _
    rw [hcalls]
    rfl
  · show t.clock + o.used = _
    rw [h.clock]

/-- A response after which the call ends. -/
theorem Reaches.end {rest : List SubmitSM} {client : EsmeClient} {k : ℕ}
    (h : Reaches message made (.awaiting rest) client k t) (hraised : t.raised = false)
    (responses : ℕ → PDUResponse)
    {o : Outcome PyExc EsmeClient SendStage} {o' : Outcome PyExc EsmeClient Unit}
    (ho : (EsmeClient.goOnSending message rest (responses 0)).run (later env k) client = o)
    (hstage : stageOf o.result = finished o'.result) (hstate : o.state = o'.state.facing peer)
    (hused : o.used = o'.used) :
    ∃ n t', run (Traffic.step P env) t (Traffic.responses responses n) = some t' ∧
      Ended peer message made o' k t' := by
  obtain ⟨t', hstep, hreaches⟩ := h.respond (P := P) hraised (responses 0) ho
  rw [hstage, hstate, hused] at hreaches
  exact ⟨1, t', (run_cons _).2 ⟨t', hstep, rfl⟩, _, hreaches, .inl rfl⟩

/-- A call that has sent a PDU goes on if it can be encoded. -/
theorem publishRaises_awaiting (c : EsmeClient) (pdu : SubmitSM) (rest : List SubmitSM) :
    publishRaises (c.handed pdu) (.awaiting rest) = !(c.encoder pdu).isOk := by
  unfold publishRaises EsmeClient.handed
  dsimp only
  rw [List.getLast?_concat]

/-- The loop does the same in one run as from wait to wait. -/
theorem ended_of_atHead (pdus : List SubmitSM) (c : EsmeClient) (k : ℕ)
    (h : AtHead env peer message made pdus c k t) :
    ∃ n t', run (Traffic.step P env) t (responses c.peer n) = some t' ∧
      Ended peer message made
        ((EsmeClient.sendSegments message pdus).run (later env k) c) k t' := by
  induction pdus generalizing c k t with
  | nil => exact ⟨0, t, rfl, _, h, .inl rfl⟩
  | cons pdu pdus ih =>
    have hawaits : Reaches message made (.awaiting pdus) ((c.answered pdu).facing peer) k t := h
    have hraises : t.raised = !(c.encoder pdu).isOk :=
      hawaits.raised.trans (publishRaises_awaiting (c.facing peer) pdu pdus)
    cases hencoder : c.encoder pdu with
    | error e =>
      -- no response comes, in one run or from wait to wait
      rw [hencoder] at hraises
      have hrun : (EsmeClient.sendSegments message (pdu :: pdus)).run (later env k) c =
          ⟨.error e, 0, c.handed pdu⟩ := by
        rw [EsmeClient.sendSegments, run_bind_error (EsmeClient.run_sendSubmitSm_error hencoder)]
      rw [hrun]
      exact ⟨0, t, rfl, _, h, .inr ⟨hraises, pdus, e, rfl, rfl⟩⟩
    | ok _ =>
      rw [hencoder] at hraises
      cases hpeer : c.peer 0 with
      | generic_nack status =>
        have hrun : (EsmeClient.sendSegments message (pdu :: pdus)).run (later env k) c =
            ⟨.error .esmeResponseStatusError, 0, c.answered pdu⟩ := by
          rw [EsmeClient.sendSegments,
            run_bind_error (EsmeClient.run_sendSubmitSm_nack hencoder hpeer)]
        rw [hrun]
        exact hawaits.end hraises c.peer (by rw [hpeer]) rfl rfl rfl
      | submit_sm_resp status smpp =>
        have hsubmit : (EsmeClient.sendSubmitSm pdu).run (later env k) c =
            ⟨.ok (.submit_sm_resp status smpp), 0, c.answered pdu⟩ :=
          EsmeClient.run_sendSubmitSm_resp hencoder hpeer
        cases status with
        | error name description =>
          have hrun : (EsmeClient.sendSegments message (pdu :: pdus)).run (later env k) c =
              ⟨.ok (), 1, { c.answered pdu with
                send_message_channel := c.send_message_channel ++
                  [.event (Event.nack message.message_id message.message_id description
                    (later env k 0))] }⟩ := by
            rw [EsmeClient.sendSegments, run_bind_ok hsubmit]
            rfl
          rw [hrun]
          exact hawaits.end hraises c.peer (by rw [hpeer]) rfl rfl rfl
        | ESME_ROK =>
          cases hid : EsmeClient.messageId (.submit_sm_resp .ESME_ROK smpp) with
          | error e =>
            have hrun : (EsmeClient.sendSegments message (pdu :: pdus)).run (later env k) c =
                ⟨.error e, 0, c.answered pdu⟩ := by
              rw [EsmeClient.sendSegments, run_bind_ok hsubmit]
              dsimp only [PDUResponse.status]
              rw [hid]
              rfl
            rw [hrun]
            refine hawaits.end hraises c.peer
              (o := ⟨.error e, 0, (c.answered pdu).facing peer⟩) ?_ rfl rfl rfl
            rw [hpeer, EsmeClient.goOnSending, hid]
            rfl
          | ok smpp_message_id =>
            -- the mapping is set in both, and the call is at the head again
            have hstore : ∀ client, (EsmeClient.onSmppCache (InMemorySmppCache.storeSmppMessageId
                message.message_id smpp_message_id)).run (later env k) client =
                  ⟨.ok (), 2, client.mapping (later env k) smpp_message_id message.message_id⟩ :=
              EsmeClient.run_storeSmppMessageId message.message_id smpp_message_id (later env k)
            have hrun : (EsmeClient.sendSegments message (pdu :: pdus)).run (later env k) c =
                ⟨((EsmeClient.sendSegments message pdus).run (later env (k + 2))
                    ((c.answered pdu).mapping (later env k) smpp_message_id
                      message.message_id)).result,
                  2 + ((EsmeClient.sendSegments message pdus).run (later env (k + 2))
                    ((c.answered pdu).mapping (later env k) smpp_message_id
                      message.message_id)).used,
                  ((EsmeClient.sendSegments message pdus).run (later env (k + 2))
                    ((c.answered pdu).mapping (later env k) smpp_message_id
                      message.message_id)).state⟩ := by
              rw [EsmeClient.sendSegments, run_bind_ok hsubmit]
              dsimp only [PDUResponse.status]
              rw [hid, ofExcept_ok, pure_bind, later_zero, run_bind_ok (hstore _), later_later]
              exact congrArg (fun n => Outcome.mk _ n _) (Nat.zero_add _)
            have hrespond :
                ∃ t', step P env t (.respond 0 (c.peer 0)) = some t' ∧ Reaches message made
                (stageOf ((EsmeClient.goOnSending message pdus (c.peer 0)).run (later env k)
                  ((c.answered pdu).facing peer)).result) _ _ t' :=
                    hawaits.respond hraises (c.peer 0) rfl
            obtain ⟨t₁, hstep, hreaches⟩ := hrespond
            rw [hpeer, EsmeClient.goOnSending, hid, ofExcept_ok, pure_bind, run_bind_ok (hstore _),
              later_later, EsmeClient.mapping_facing] at hreaches
            dsimp only at hreaches
            rw [← Nat.add_assoc] at hreaches
            obtain ⟨n, t', hrest, hended⟩ := ih _ _ hreaches
            refine ⟨n + 1, t', (run_cons _).2 ⟨t₁, hstep, hrest⟩, ?_⟩
            rw [hrun]
            unfold Ended at hended ⊢
            rwa [Nat.add_assoc] at hended

/-- A call that nothing interferes with does what `sendVumiMessage` does. -/
theorem sendVumiMessage_alone (P : Processors) (env : ℕ → Reading) (message : Message)
    (c : EsmeClient) :
    ∃ n s call, run (Traffic.step P env) (new c) (.send message :: responses c.peer n) = some s ∧
      s.calls = [call] ∧ call.message = message ∧
      (call.stage = finished ((EsmeClient.sendVumiMessage P message).run env c).result ∨
        s.raised = true ∧ ∃ rest e, call.stage = .awaiting rest ∧
          ((EsmeClient.sendVumiMessage P message).run env c).result = .error e) ∧
      s.client = ((EsmeClient.sendVumiMessage P message).run env c).state.facing c.peer ∧
      s.clock = ((EsmeClient.sendVumiMessage P message).run env c).used := by
  have hstep : step P env (new c) (.send message) =
      some ((new c).began message ((EsmeClient.beginSending P message).run env c)) := by
    have hraised : (new c).raised ≠ true := Bool.false_ne_true
    have hcoming : (new c).coming env = env := later_zero env
    rw [step, if_neg hraised, beginCall, hcoming]
    rfl
  rcases hpdus : (EsmeClient.onSequencer (P.submit_sm_processor.handleOutboundMessage message)).run
    env c with ⟨result, k, c₁⟩
  have hpeer : c₁.peer = c.peer := (congrArg (fun o => o.state.peer) hpdus).symm
  -- If the PDUs cannot be made, both end at once, in the same state.
  cases result with
  | error e =>
    have hbegin : (EsmeClient.beginSending P message).run env c = ⟨.error e, k, c₁⟩ :=
      run_bind_error hpdus
    have hrun : (EsmeClient.sendVumiMessage P message).run env c = ⟨.error e, k, c₁⟩ :=
      run_bind_error hpdus
    rw [hbegin] at hstep
    rw [hrun]
    refine ⟨0, _, _, (run_cons _).2 ⟨_, hstep, rfl⟩, rfl, rfl, .inl rfl, ?_, Nat.zero_add k⟩
    rw [← hpeer]
    rfl
  | ok pdus =>
    -- The call comes to its first PDU, or to its event; from here on every response is one step.
    rcases hnext : (EsmeClient.sendNext message pdus).run (later env k) c₁ with ⟨stage, used, c₂⟩
    obtain ⟨stage, rfl⟩ : ∃ stage', stage = .ok stage' := by
      cases pdus with
      | nil => exact ⟨_, (congrArg Outcome.result hnext).symm⟩
      | cons pdu pdus => exact ⟨_, (congrArg Outcome.result hnext).symm⟩
    have hbegin : (EsmeClient.beginSending P message).run env c =
        ⟨.ok (pdus, stage), k + used, c₂⟩ := by
      rw [EsmeClient.beginSending, run_bind_ok hpdus, run_bind_ok hnext]
      rfl
    have hrun : (EsmeClient.sendVumiMessage P message).run env c =
        ⟨((EsmeClient.sendSegments message pdus).run (later env k) c₁).result,
          k + ((EsmeClient.sendSegments message pdus).run (later env k) c₁).used,
          ((EsmeClient.sendSegments message pdus).run (later env k) c₁).state⟩ :=
      run_bind_ok hpdus
    rw [hbegin] at hstep
    -- That state is where the induction over the PDUs begins.
    have hhead : AtHead env c.peer message (.ok pdus) pdus c₁ k
        ((new c).began message ⟨.ok (pdus, stage), k + used, c₂⟩) := by
      unfold AtHead
      rw [← hpeer, EsmeClient.facing_self, hnext]
      exact ⟨rfl, ⟨[], rfl⟩, rfl, Nat.zero_add _⟩
    obtain ⟨n, s, hrest, stage, hreaches, hends⟩ := ended_of_atHead (P := P) pdus c₁ k hhead
    obtain ⟨got, hcalls⟩ := hreaches.calls
    rw [hpeer] at hrest
    rw [hrun]
    exact ⟨n, s, _, (run_cons _).2 ⟨_, hstep, hrest⟩, hcalls, rfl, hends, hreaches.client,
      hreaches.clock⟩

end Traffic

end Vumi2.Smpp
