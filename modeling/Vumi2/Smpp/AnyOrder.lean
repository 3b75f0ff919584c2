import Vumi2.Smpp.Interleaving

/-!
# Outcomes and delivery reports in any order of events

In every run the messages are those that the calls were made with, and what happens in a call is
what its own responses determine: no call is affected by another one. Each has at most one outcome,
which is an ACK if and only if all its PDUs were accepted (`outcomes_in_any_order`).

In every run the delivery reports that the client sends are those of the log, with the message that
the id stood for (`reports_in_any_order`).
-/

namespace Vumi2.Smpp

open Effect Eff Text Machine Slots

/-! ## What was asked for -/

namespace TrafficAction

/-- The message that a call is made with. -/
def message? : TrafficAction → Option Message
  | send message => some message
  | _ => none

/-- The response that the call gets. -/
def responseTo (i : ℕ) : TrafficAction → Option PDUResponse
  | respond j response => if j = i then some response else none
  | _ => none

/-- The PDU that is handled. -/
def pdu? : TrafficAction → Option DeliverSM
  | deliver pdu => some pdu
  | _ => none

end TrafficAction

namespace Tracked

/-- The call whose event was sent. -/
def settledCall : Tracked → Option ℕ
  | settled i _ _ => some i
  | _ => none

/-- The PDU that was handled. -/
def deliveredPdu : Tracked → Option DeliverSM
  | delivered pdu _ => some pdu
  | _ => none

end Tracked

namespace Traffic

variable {P : Processors} {timeout : ℚ} {env : ℕ → Reading} {s s' : Traffic}

/-- The responses that a call has got. -/
def gotBy (s : Traffic) (i : ℕ) : List PDUResponse := (s.calls[i]?.map SendCall.got).getD []

/-- Entries of calls are no PDUs that were handled. -/
theorem delivered_within {log : List Tracked} (h : ∀ e ∈ log, e.callEvent.isSome = true) :
    log.filterMap Tracked.deliveredPdu = [] := by
  refine List.filterMap_eq_nil_iff.2 fun e he => ?_
  have hcall := h e he
  cases e with
  | delivered pdu now => cases hcall
  | sent | accepted | settled => rfl

/-- What is logged for a call that begins belongs to a call. -/
theorem isSome_logBegun (i : ℕ) (call : SendCall) :
    ∀ e ∈ logBegun i call, e.callEvent.isSome = true := by
  unfold logBegun
  cases call.pdus with
  | error e => exact fun e he => by cases he
  | ok pdus => exact isSome_logNext i call.message pdus

/-- A new call has got no response. -/
theorem gotBy_append (s s' : Traffic) (call : SendCall) (hgot : call.got = [])
    (hcalls : s'.calls = s.calls ++ [call]) (i : ℕ) : s'.gotBy i = s.gotBy i := by
  unfold gotBy
  rw [hcalls]
  rcases Nat.lt_trichotomy i s.calls.length with hlt | rfl | hgt
  · rw [List.getElem?_append_left hlt]
  · have hnone : s.calls[s.calls.length]? = none := List.getElem?_eq_none_iff.2 le_rfl
    rw [hnone, getElem?_append_singleton.2 (.inr ⟨rfl, rfl⟩)]
    exact hgot
  · have hnone : s.calls[i]? = none := List.getElem?_eq_none_iff.2 (by omega)
    have hnone' : (s.calls ++ [call])[i]? = none := by
      apply List.getElem?_eq_none_iff.2
      rw [List.length_append, List.length_singleton]
      omega
    rw [hnone, hnone']

/-- A response comes to its call alone. -/
theorem gotBy_set (s s' : Traffic) {call : SendCall} {i : ℕ} (hi : s.calls[i]? = some call)
    {call' : SendCall} {response : PDUResponse} (hgot : call'.got = call.got ++ [response])
    (hcalls : s'.calls = s.calls.set i call') (j : ℕ) :
    s'.gotBy j = s.gotBy j ++ if i = j then [response] else [] := by
  have hlt : i < s.calls.length := (List.getElem?_eq_some_iff.1 hi).1
  unfold gotBy
  rw [hcalls]
  by_cases hij : i = j
  · subst hij
    rw [List.getElem?_set_self hlt, hi, if_pos rfl]
    exact hgot
  · rw [List.getElem?_set_ne hij, if_neg hij, List.append_nil]

/-- A step is recorded: a message in a new call, a response in its call, and a PDU in the log. -/
structure Records (s s' : Traffic) (actions : List TrafficAction) : Prop where
  messages : s'.calls.map SendCall.message =
    s.calls.map SendCall.message ++ actions.filterMap TrafficAction.message?
  responses : ∀ i, s'.gotBy i = s.gotBy i ++ actions.filterMap (TrafficAction.responseTo i)
  pdus : s'.log.filterMap Tracked.deliveredPdu =
    s.log.filterMap Tracked.deliveredPdu ++ actions.filterMap TrafficAction.pdu?

/-- Each action is recorded. -/
theorem records_step {a : TrafficAction} (hstep : step P env s a = some s') :
    Records s s' [a] := by
  obtain ⟨-, ⟨message, rfl, rfl⟩ | ⟨i, response, message, pdus, got, rest, rfl, hi, rfl⟩ |
    ⟨pdu, rfl, rfl⟩⟩ := step_cases hstep
  · -- A call begins: its message is recorded, and no response has come to it.
    have hmessage : ∀ x, (begun message x).message = message := by
      rintro (e | r)
      · rfl
      · rfl
    have hgot : ∀ x, (begun message x).got = [] := by
      rintro (e | r)
      · rfl
      · rfl
    constructor
    · show (s.calls ++ [_]).map _ = _
      rw [List.map_append, List.map_singleton, hmessage]
      rfl
    · intro i
      rw [gotBy_append s _ _ (hgot _) rfl]
      exact (List.append_nil _).symm
    · show (s.log ++ _).filterMap _ = _
      rw [List.filterMap_append, delivered_within (isSome_logBegun _ _)]
      rfl
  · -- A response comes to one call.
    constructor
    · have hkeep : ∀ call : SendCall, call.message = message →
          (s.calls.set i call).map SendCall.message = s.calls.map SendCall.message :=
        fun call hmessage => map_set_keep SendCall.message hi hmessage
      exact (hkeep _ rfl).trans (List.append_nil _).symm
    · intro j
      rw [gotBy_set s _ hi rfl rfl j]
      by_cases hij : i = j
      · simp [TrafficAction.responseTo, hij]
      · simp [TrafficAction.responseTo, hij]
    · show (s.log ++ _).filterMap _ = _
      rw [List.filterMap_append, delivered_within (isSome_logResponse _ i message rest response)]
      rfl
  · -- A PDU is handled, which no call has to do with.
    constructor
    · exact (List.append_nil _).symm
    · exact fun i => (List.append_nil _).symm
    · show (s.log ++ _).filterMap _ = _
      rw [List.filterMap_append]
      rfl

/-- So are all actions of a run, in their order. -/
theorem records_run {actions : List TrafficAction}
    (h : run (Traffic.step P env) s actions = some s') : Records s s' actions := by
  induction actions generalizing s with
  | nil =>
    obtain rfl := Option.some.inj h
    exact ⟨(List.append_nil _).symm, fun i => (List.append_nil _).symm, (List.append_nil _).symm⟩
  | cons a actions ih =>
    obtain ⟨t, hstep, hrun⟩ := (run_cons _).1 h
    have hfirst := records_step hstep
    have hrest := ih hrun
    have hcons : ∀ {β : Type} (f : TrafficAction → Option β),
        (a :: actions).filterMap f = [a].filterMap f ++ actions.filterMap f := by
      intro β f
      rw [← List.filterMap_append, List.singleton_append]
    constructor
    · rw [hrest.messages, hfirst.messages, hcons, List.append_assoc]
    · intro i
      rw [hrest.responses, hfirst.responses, hcons, List.append_assoc]
    · rw [hrest.pdus, hfirst.pdus, hcons, List.append_assoc]

/-! ## What the calls were made with -/

/-- The PDUs of a call are those of its message. -/
def Made (P : Processors) (call : SendCall) : Prop :=
  ∃ env sequencer,
    call.pdus =
      ((P.submit_sm_processor.handleOutboundMessage call.message).run env sequencer).result

/-- A call that begins has the PDUs of its message. -/
theorem made_begun (message : Message) (env : ℕ → Reading) (c : EsmeClient) :
    Made P (begun message ((EsmeClient.beginSending P message).run env c).result) := by
  have hsequencer : ((EsmeClient.onSequencer
      (P.submit_sm_processor.handleOutboundMessage message)).run env c).result =
        ((P.submit_sm_processor.handleOutboundMessage message).run env c.sequencer).result := rfl
  cases hresult : ((P.submit_sm_processor.handleOutboundMessage message).run env
      c.sequencer).result with
  | error e =>
    have hbegin : ((EsmeClient.beginSending P message).run env c).result = .error e := by
      unfold EsmeClient.beginSending
      rw [run_bind, hsequencer, hresult]
    rw [hbegin]
    exact ⟨env, c.sequencer, hresult.symm⟩
  | ok pdus =>
    -- Whatever the PDUs are, the call comes to its first publishing call.
    have hnext : ∀ env c, ∃ stage,
        ((EsmeClient.sendNext message pdus).run env c).result = .ok stage := by
      intro env c
      cases pdus with
      | nil => exact ⟨_, rfl⟩
      | cons pdu pdus => exact ⟨_, rfl⟩
    obtain ⟨stage, hstage⟩ := hnext _ _
    have hbegin : ((EsmeClient.beginSending P message).run env c).result = .ok (pdus, stage) := by
      unfold EsmeClient.beginSending
      rw [result_bind (hsequencer.trans hresult), result_bind hstage]
      rfl
    rw [hbegin]
    exact ⟨env, c.sequencer, hresult.symm⟩

/-- A step keeps the PDUs of the calls. -/
theorem made_step {a : TrafficAction}
    (h : ∀ (i : ℕ) (call : SendCall), s.calls[i]? = some call → Made P call)
    (hstep : step P env s a = some s') :
    ∀ (i : ℕ) (call : SendCall), s'.calls[i]? = some call → Made P call := by
  obtain ⟨-, ⟨message, -, rfl⟩ | ⟨i, response, message, pdus, got, rest, -, hi, rfl⟩ |
    ⟨pdu, -, rfl⟩⟩ :=
    step_cases hstep
  · intro i call hcall
    rcases getElem?_append_singleton.1 hcall with hcall | ⟨-, rfl⟩
    · exact h i call hcall
    · exact made_begun message _ _
  · have hmade : Made P ⟨message, pdus, got, .awaiting rest⟩ := h i _ hi
    exact forall_getElem?_set hi (fun j call _ hj => h j call hj) hmade
  · exact h

/-! ## One outcome for each message -/

/-- What a call has come to is what its responses have brought it to, and the client has done that
for each of its calls. -/
structure Accounted (P : Processors) (s : Traffic) (actions : List TrafficAction) : Prop where
  /-- The calls are those that were made. -/
  messages : s.calls.map SendCall.message = actions.filterMap TrafficAction.message?
  made : ∀ (i : ℕ) (call : SendCall), s.calls[i]? = some call → Made P call
  /-- Each has got the responses that came to it, and has gone on with these alone. -/
  responses : ∀ (i : ℕ) (call : SendCall), s.calls[i]? = some call →
    call.got = actions.filterMap (TrafficAction.responseTo i)
  placed : ∀ (i : ℕ) (call : SendCall), s.calls[i]? = some call → call.Placed
  histories : ∀ (i : ℕ) (call : SendCall), s.calls[i]? = some call →
    s.log.filterMap (Tracked.within i) = call.history
  /-- The PDUs and the outcomes that the client has sent are those of its calls, in their order. -/
  wire : s.client.pdu_send_channel = ((callEvents s.log).filterMap CallEvent.pdu?).map .submit_sm
  outcomes : s.client.send_message_channel.filterMap Published.outcome =
    (callEvents s.log).filterMap CallEvent.outcome?
  /-- No call has two of them. -/
  once : (s.log.filterMap Tracked.settledCall).Nodup
  /-- It is an ACK if and only if the peer has taken all PDUs. -/
  acks : ∀ (i : ℕ) (call : SendCall) (pdus : List SubmitSM), s.calls[i]? = some call →
    call.pdus = .ok pdus → (.settled i call.message.message_id none ∈ s.log ↔
      pdus.length ≤ call.got.length ∧ ∀ response ∈ call.got.take pdus.length, response.Takes)
  /-- It is a NACK if and only if the peer has taken those before one that it has refused. -/
  nacks : ∀ (i : ℕ) (call : SendCall) (pdus : List SubmitSM) (reason : Str),
    s.calls[i]? = some call → call.pdus = .ok pdus →
      (.settled i call.message.message_id (some reason) ∈ s.log ↔
        ∃ accepted response later, call.got = accepted ++ response :: later ∧
          accepted.length < pdus.length ∧ (∀ r ∈ accepted, r.Takes) ∧ response.Refuses reason)

/-- What is in the log of a call is in its history. -/
theorem settled_mem {i : ℕ} {message_id : Str} {nack_reason : Option Str} {log : List Tracked} :
    .settled i message_id nack_reason ∈ log ↔
      CallEvent.settled message_id nack_reason ∈ log.filterMap (Tracked.within i) := by
  constructor
  · intro h
    refine List.mem_filterMap.2 ⟨_, h, ?_⟩
    simp [Tracked.within, Tracked.callEvent]
  · intro h
    obtain ⟨e, he, hwithin⟩ := List.mem_filterMap.1 h
    -- Only the events of the call itself are in its history.
    cases e with
    | settled j id reason =>
      by_cases hij : j = i
      · simp only [Tracked.within, Tracked.callEvent, Option.bind_some, if_pos hij,
          Option.some.injEq, CallEvent.settled.injEq] at hwithin
        obtain ⟨rfl, rfl⟩ := hwithin
        rwa [hij] at he
      · simp [Tracked.within, Tracked.callEvent, hij] at hwithin
    | sent j pdu =>
      by_cases hij : j = i <;> simp [Tracked.within, Tracked.callEvent, hij] at hwithin
    | accepted j id message_id time =>
      by_cases hij : j = i <;> simp [Tracked.within, Tracked.callEvent, hij] at hwithin
    | delivered pdu time => cases hwithin

/-- An entry settles a call if and only if it is the outcome of the call. -/
theorem settledCall_eq (i : ℕ) (e : Tracked) :
    (e.settledCall == some i) = ((e.within i).bind CallEvent.outcome?).isSome := by
  cases e with
  | delivered pdu time => rfl
  | sent j pdu | accepted j id message_id time | settled j id reason =>
    by_cases hij : j = i <;>
      simp [Tracked.settledCall, Tracked.within, Tracked.callEvent, CallEvent.outcome?, hij]

/-- A call has as many outcomes as its history. -/
theorem count_settledCall (i : ℕ) (log : List Tracked) :
    (log.filterMap Tracked.settledCall).count i =
      ((log.filterMap (Tracked.within i)).filterMap CallEvent.outcome?).length := by
  rw [List.count_filterMap, List.filterMap_filterMap, List.length_filterMap_eq_countP]
  exact congrArg (fun p => log.countP p) (funext fun e => settledCall_eq i e)

/-- The history of a call has one outcome at most. -/
theorem SendCall.outcomes_history (call : SendCall) :
    (call.history.filterMap CallEvent.outcome?).length ≤ 1 := by
  unfold SendCall.history
  cases call.pdus with
  | error e => exact Nat.zero_le 1
  | ok pdus => exact outcomes_historyOf call.message.message_id pdus call.got

/-- No call has two outcomes. -/
theorem Interleaves.once {calls : List SendCall} {log : List Tracked} (h : Interleaves calls log) :
    (log.filterMap Tracked.settledCall).Nodup := by
  refine List.nodup_iff_count_le_one.2 fun i => ?_
  rw [count_settledCall]
  rcases Nat.lt_or_ge i calls.length with hlt | hge
  · rw [h.histories i _ (List.getElem?_eq_getElem hlt)]
    exact SendCall.outcomes_history _
  · rw [h.others i hge]
    exact Nat.zero_le 1

/-- What a call has got is what is said of its place. -/
theorem gotBy_eq {i : ℕ} {call : SendCall} (hi : s.calls[i]? = some call) :
    s.gotBy i = call.got := by
  unfold gotBy
  rw [hi]
  rfl

/-- In every run, each call comes to what its own responses determine, and to at most one
outcome. -/
theorem outcomes_in_any_order {client : EsmeClient} (hclient : Starts timeout client)
    (hclock : Clocked env) {actions : List TrafficAction}
    (h : run (Traffic.step P env) (new client) actions = some s) : Accounted P s actions := by
  have hfollows : s.Follows P timeout env := follows_run hclient hclock h
  have hrecords : Records (new client) s actions := records_run h
  -- The log of a call is the history that its responses determine.
  have hhistory : ∀ (i : ℕ) (call : SendCall) (pdus : List SubmitSM), s.calls[i]? = some call →
      call.pdus = .ok pdus → s.log.filterMap (Tracked.within i) =
        historyOf call.message.message_id pdus call.got := by
    intro i call pdus hi hpdus
    rw [hfollows.interleaves.histories i call hi, SendCall.history, hpdus]
  constructor
  · exact hrecords.messages
  · exact run_invariant _ (fun _ _ _ hmade hstep => made_step hmade hstep)
      (fun i call hi => (by cases hi)) h
  · intro i call hi
    rw [← gotBy_eq hi, hrecords.responses i]
    rfl
  · exact hfollows.interleaves.placed
  · exact hfollows.interleaves.histories
  · exact hfollows.performs.wire
  · exact hfollows.performs.outcomes
  · exact hfollows.interleaves.once
  · intro i call pdus hi hpdus
    rw [settled_mem, hhistory i call pdus hi hpdus, ack_mem_historyOf]
  · intro i call pdus reason hi hpdus
    rw [settled_mem, hhistory i call pdus hi hpdus, nack_mem_historyOf]

/-- Two messages are sent; the peer takes the PDU of the second, and then refuses that of the
first. -/
def twoMessages : List TrafficAction :=
  [.send EsmeClient.helloMessage, .send { EsmeClient.helloMessage with message_id := str "n" },
    .respond 1 (.submit_sm_resp .ESME_ROK (some [0x61, 0x62, 0x63])),
    .respond 0 (.submit_sm_resp (.error (str "ESME_RTHROTTLED") (str "Throttling error")) none)]

/-- The second gets an ACK, and the first a NACK. -/
theorem twoMessages_accounted :
    ∃ s, run (Traffic.step EsmeClient.defaultProcessors DictUse.tickingClock)
        (new EsmeClient.freshClient) twoMessages = some s ∧
      s.client.send_message_channel.filterMap Published.outcome =
        [(str "n", none), (str "m", some (str "Throttling error"))] ∧
      Accounted EsmeClient.defaultProcessors s twoMessages := by
  have hrun : (run (Traffic.step EsmeClient.defaultProcessors DictUse.tickingClock)
      (new EsmeClient.freshClient) twoMessages).any (fun s =>
        s.client.send_message_channel.filterMap Published.outcome ==
          [(str "n", none), (str "m", some (str "Throttling error"))]) = true := by decide +kernel
  obtain ⟨s, hs, houtcomes⟩ := Option.any_eq_true _ _ |>.1 hrun
  have hstarts : Starts 86400 EsmeClient.freshClient := ⟨rfl, rfl, rfl⟩
  exact ⟨s, hs, beq_iff_eq.1 houtcomes,
    outcomes_in_any_order hstarts DictUse.clocked_tickingClock hs⟩

end Traffic

end Vumi2.Smpp
