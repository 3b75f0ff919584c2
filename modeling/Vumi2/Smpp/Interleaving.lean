import Vumi2.Lib.Slots
import Vumi2.Smpp.Tracking

/-!
# The log of a run is true

In every run the log is an interleaving of the histories of the calls, and the client has done what
is in it, and nothing else but to send messages (`Follows`, `follows_run`).

Delivery reports find their message through the cache. In terms of the log, an id stands for the
message of the last acceptance under it, unless a report on it was handled since, or that was too
long ago (`linked`).
-/

namespace Vumi2.Smpp

open Effect Eff Text Machine Slots

/-! ## The log -/

namespace Tracked

/-- An entry that decides what an id stands for: an acceptance under it, or a report on it. -/
def touches (P : DeliveryReportProcesser) (smpp_message_id : Str) : Tracked → Bool
  | accepted _ id _ _ => id = smpp_message_id
  | delivered pdu _ =>
    match P.reportOn pdu with
    | some (some id, _) => id = smpp_message_id
    | _ => false
  | _ => false

/-- The message that an id stands for after an entry. -/
def standsFor (timeout late : ℚ) : Tracked → Option Str
  | accepted _ _ message_id time =>
    if TimeoutDict.age late time ≤ timeout then some message_id else none
  | _ => none

end Tracked

section Log

variable (P : DeliveryReportProcesser) (timeout : ℚ)

/-- The message that an id stands for: that of the last acceptance under it, if no report on it came
after, and it was not too long ago. -/
def linked (log : List Tracked) (late : ℚ) (smpp_message_id : Str) : Option Str :=
  (log.reverse.find? (Tracked.touches P smpp_message_id)).bind (Tracked.standsFor timeout late)

/-- What an entry reports of a message, after the entries before it. -/
def Tracked.report (before : List Tracked) : Tracked → Option (Str × DeliveryStatus)
  | delivered pdu now => P.reported (linked P timeout before now) pdu
  | _ => none

/-- What all entries report. -/
def reportsAfter (before : List Tracked) : List Tracked → List (Str × DeliveryStatus)
  | [] => []
  | e :: log => (e.report P timeout before).toList ++ reportsAfter (before ++ [e]) log

variable {P timeout}

/-- The last entry of a log decides on an id that it touches, and no other id. -/
theorem linked_concat (log : List Tracked) (e : Tracked) (late : ℚ) (smpp_message_id : Str) :
    linked P timeout (log ++ [e]) late smpp_message_id =
      if e.touches P smpp_message_id = true then e.standsFor timeout late
      else linked P timeout log late smpp_message_id := by
  unfold linked
  rw [List.reverse_append, List.reverse_singleton, List.singleton_append, List.find?_cons]
  cases e.touches P smpp_message_id with
  | true => rfl
  | false => rfl

/-- Entries that touch no id change none. -/
theorem linked_append {log log' : List Tracked}
    (h : ∀ e ∈ log', ∀ id, e.touches P id = false) :
    linked P timeout (log ++ log') = linked P timeout log := by
  funext late id
  have hnone : log'.reverse.find? (Tracked.touches P id) = none :=
    List.find?_eq_none.2 fun e he hid => by
      rw [h e (List.mem_reverse.1 he) id] at hid
      cases hid
  unfold linked
  rw [List.reverse_append, List.find?_append, hnone, Option.none_or]

/-- After an acceptance its id stands for its message. -/
theorem linked_accepted (log : List Tracked) (i : ℕ) (smpp_message_id message_id : Str) (time : ℚ) :
    linked P timeout (log ++ [.accepted i smpp_message_id message_id time]) =
      EsmeClient.acceptedFor timeout (linked P timeout log) smpp_message_id message_id time := by
  funext late id
  rw [linked_concat, EsmeClient.acceptedFor, Tracked.touches, Tracked.standsFor]
  by_cases hid : id = smpp_message_id
  · rw [if_pos hid, if_pos (decide_eq_true hid.symm)]
  · rw [if_neg hid, if_neg fun htouch => hid (of_decide_eq_true htouch).symm]

/-- After a `DeliverSM` the id that it reports on stands for nothing. -/
theorem linked_delivered (log : List Tracked) (pdu : DeliverSM) (now : ℚ) :
    linked P timeout (log ++ [.delivered pdu now]) =
      P.foundAfter (linked P timeout log) pdu := by
  funext late id
  have hstands : (Tracked.delivered pdu now).standsFor timeout late = none := rfl
  rw [linked_concat, hstands, Tracked.touches, DeliveryReportProcesser.foundAfter]
  cases P.reportOn pdu with
  | none => rfl
  | some read =>
    obtain ⟨smpp_message_id, status⟩ := read
    cases smpp_message_id with
    | none => rfl
    | some smpp_message_id =>
      unfold DeliveryReportProcesser.without
      dsimp only
      by_cases hid : id = smpp_message_id
      · rw [if_pos (congrArg some hid), if_pos (decide_eq_true hid.symm)]
      · rw [if_neg fun heq => hid (Option.some.inj heq),
          if_neg fun htouch => hid (of_decide_eq_true htouch).symm]

/-- The reports of a longer log are those of its parts, the second one after the first. -/
theorem reportsAfter_append (before log log' : List Tracked) :
    reportsAfter P timeout before (log ++ log') =
      reportsAfter P timeout before log ++ reportsAfter P timeout (before ++ log) log' := by
  induction log generalizing before with
  | nil => rw [List.append_nil]; rfl
  | cons e log ih =>
    rw [List.cons_append, reportsAfter, reportsAfter, ih, List.append_assoc, List.append_assoc]
    rfl

/-- Entries of calls report nothing. -/
theorem reportsAfter_calls {before log : List Tracked}
    (h : ∀ e ∈ log, e.callEvent.isSome = true) : reportsAfter P timeout before log = [] := by
  induction log generalizing before with
  | nil => rfl
  | cons e log ih =>
    obtain ⟨he, hlog⟩ := List.forall_mem_cons.1 h
    rw [reportsAfter, ih hlog]
    cases e with
    | delivered pdu now => cases he
    | sent | accepted | settled => rfl

end Log

namespace Traffic

/-- The entries of a call at the head of its loop. -/
theorem within_logNext (i j : ℕ) (message : Message) (pdus : List SubmitSM) :
    (logNext i message pdus).filterMap (Tracked.within j) =
      if i = j then historyOf message.message_id pdus [] else [] := by
  cases pdus <;> by_cases h : i = j <;>
    simp [logNext, Tracked.within, Tracked.callEvent, historyOf, h]

/-- What a call has done when it begins is its history without any response. -/
theorem callEvents_logNext (i : ℕ) (message : Message) (pdus : List SubmitSM) :
    callEvents (logNext i message pdus) = historyOf message.message_id pdus [] := by
  cases pdus with
  | nil => rfl
  | cons pdu pdus => rfl

/-- A response is logged in its call alone. -/
theorem within_logResponse (env : ℕ → Reading) (i j : ℕ) (message : Message) (pdus : List SubmitSM)
    (response : PDUResponse) :
    (logResponse env i message pdus response).filterMap (Tracked.within j) =
      if i = j then eventsAt message.message_id pdus response else [] := by
  cases response with
  | generic_nack status => exact (ite_self _).symm
  | submit_sm_resp status smpp =>
    -- The cases are those of `send_vumi_message`: no response PDU, a refusal, an acceptance.
    cases status with
    | error name description =>
      by_cases h : i = j <;> simp [logResponse, Tracked.within, Tracked.callEvent, eventsAt, h]
    | ESME_ROK =>
      rw [logResponse, eventsAt]
      cases EsmeClient.messageId (.submit_sm_resp .ESME_ROK smpp) with
      | error e => exact (ite_self _).symm
      | ok smpp_message_id =>
        dsimp only
        by_cases h : i = j
        · have hnext := within_logNext i j message pdus
          rw [if_pos h] at hnext ⊢
          rw [List.filterMap_cons, hnext]
          simp [Tracked.within, Tracked.callEvent, h]
        · have hnext := within_logNext i j message pdus
          rw [if_neg h] at hnext ⊢
          rw [List.filterMap_cons, hnext]
          simp [Tracked.within, Tracked.callEvent, h]

/-- What a response brings is what its call determines. -/
theorem callEvents_logResponse (env : ℕ → Reading) (i : ℕ) (message : Message)
    (pdus : List SubmitSM) (response : PDUResponse) :
    callEvents (logResponse env i message pdus response) =
      eventsAt message.message_id pdus response := by
  cases response with
  | generic_nack status => rfl
  | submit_sm_resp status smpp =>
    cases status with
    | error name description => rfl
    | ESME_ROK =>
      rw [logResponse, eventsAt]
      cases EsmeClient.messageId (.submit_sm_resp .ESME_ROK smpp) with
      | error e => rfl
      | ok smpp_message_id =>
        exact congrArg (.accepted smpp_message_id message.message_id :: ·)
          (callEvents_logNext i message pdus)

/-- Sending does not touch what an id stands for. -/
theorem touches_logNext (P : DeliveryReportProcesser) (i : ℕ) (message : Message)
    (pdus : List SubmitSM) : ∀ e ∈ logNext i message pdus, ∀ id, e.touches P id = false := by
  cases pdus with
  | nil =>
    intro e he id
    rw [List.mem_singleton.1 he]
    rfl
  | cons pdu pdus =>
    intro e he id
    rw [List.mem_singleton.1 he]
    rfl

/-- An acceptance does. -/
theorem linked_logResponse {P : DeliveryReportProcesser} {timeout : ℚ} (log : List Tracked)
    (env : ℕ → Reading) (i : ℕ) (message : Message) (pdus : List SubmitSM)
    (response : PDUResponse) :
    linked P timeout (log ++ logResponse env i message pdus response) =
      EsmeClient.foundAt timeout (linked P timeout log) message.message_id (env 1).time
        response := by
  cases response with
  | generic_nack status => rw [logResponse, List.append_nil]; rfl
  | submit_sm_resp status smpp =>
    cases status with
    | error name description =>
      refine linked_append fun e he id => ?_
      rw [List.mem_singleton.1 he]
      rfl
    | ESME_ROK =>
      rw [logResponse, EsmeClient.foundAt]
      cases EsmeClient.messageId (.submit_sm_resp .ESME_ROK smpp) with
      | error e => rw [List.append_nil]
      | ok smpp_message_id =>
        dsimp only
        rw [List.append_cons, linked_append (touches_logNext P i message pdus), linked_accepted]

/-- The entries of a call are about the call. -/
theorem isSome_logNext (i : ℕ) (message : Message) (pdus : List SubmitSM) :
    ∀ e ∈ logNext i message pdus, e.callEvent.isSome = true := by
  cases pdus with
  | nil =>
    intro e he
    rw [List.mem_singleton.1 he]
    rfl
  | cons pdu pdus =>
    intro e he
    rw [List.mem_singleton.1 he]
    rfl

/-- What is logged for a response belongs to a call. -/
theorem isSome_logResponse (env : ℕ → Reading) (i : ℕ) (message : Message) (pdus : List SubmitSM)
    (response : PDUResponse) :
    ∀ e ∈ logResponse env i message pdus response, e.callEvent.isSome = true := by
  intro e he
  cases response with
  | generic_nack status => cases he
  | submit_sm_resp status smpp =>
    cases status with
    | error name description =>
      rw [List.mem_singleton.1 he]
      rfl
    | ESME_ROK =>
      rw [logResponse] at he
      cases hid : EsmeClient.messageId (.submit_sm_resp .ESME_ROK smpp) with
      | error e' =>
        rw [hid] at he
        cases he
      | ok smpp_message_id =>
        rw [hid] at he
        rcases List.mem_cons.1 he with rfl | he
        · rfl
        · exact isSome_logNext i message pdus e he

/-- A client that was just started. -/
structure Starts (timeout : ℚ) (client : EsmeClient) : Prop where
  wire : client.pdu_send_channel = []
  channel : client.send_message_channel = []
  cache : client.smpp_cache.smpp_msg_id = TimeoutDict.new timeout

/-- The log is an interleaving of what has happened in the calls. -/
structure Interleaves (calls : List SendCall) (log : List Tracked) : Prop where
  placed : ∀ (i : ℕ) (call : SendCall), calls[i]? = some call → call.Placed
  histories : ∀ (i : ℕ) (call : SendCall), calls[i]? = some call →
    log.filterMap (Tracked.within i) = call.history
  others : ∀ i, calls.length ≤ i → log.filterMap (Tracked.within i) = []

/-- The client has done what is in the log, and nothing else but to send messages. -/
structure Performs (P : Processors) (timeout : ℚ) (env : ℕ → Reading) (client : EsmeClient)
    (clock : ℕ) (log : List Tracked) : Prop where
  wire : client.pdu_send_channel = ((callEvents log).filterMap CallEvent.pdu?).map .submit_sm
  outcomes : client.send_message_channel.filterMap Published.outcome =
    (callEvents log).filterMap CallEvent.outcome?
  reports : client.send_message_channel.filterMap Published.report =
    reportsAfter P.dr_processor timeout [] log
  remembers : Remembers timeout (env clock).time (linked P.dr_processor timeout log)
    client.smpp_cache.smpp_msg_id

/-- The log is true. -/
structure Follows (P : Processors) (timeout : ℚ) (env : ℕ → Reading) (s : Traffic) : Prop where
  interleaves : Interleaves s.calls s.log
  performs : Performs P timeout env s.client s.clock s.log

variable {P : Processors} {timeout : ℚ} {env : ℕ → Reading} {s s' : Traffic}

/-- A new client follows an empty log. -/
theorem follows_new {client : EsmeClient} (h : Starts timeout client) :
    (new client).Follows P timeout env where
  interleaves := ⟨fun i call hi => (by cases hi), fun i call hi => (by cases hi), fun i _ => rfl⟩
  performs := by
    refine ⟨h.wire, ?_, ?_, ?_⟩
    · show client.send_message_channel.filterMap _ = _
      rw [h.channel]
      rfl
    · show client.send_message_channel.filterMap _ = _
      rw [h.channel]
      rfl
    · show Remembers timeout _ _ client.smpp_cache.smpp_msg_id
      rw [h.cache]
      exact ⟨rfl, TimeoutDict.dated_new _ _, fun late _ id => rfl⟩

/-- A call that was made, with what has happened in it. -/
theorem Interleaves.append {calls : List SendCall} {log log' : List Tracked}
    (h : Interleaves calls log) {call : SendCall} (hplaced : call.Placed)
    (hwithin : ∀ j, log'.filterMap (Tracked.within j) =
      if calls.length = j then call.history else []) :
    Interleaves (calls ++ [call]) (log ++ log') where
  placed := by
    intro i call' hi
    rcases getElem?_append_singleton.1 hi with hi | ⟨-, rfl⟩
    · exact h.placed i call' hi
    · exact hplaced
  histories := by
    intro i call' hi
    rw [List.filterMap_append, hwithin]
    rcases getElem?_append_singleton.1 hi with hi | ⟨rfl, rfl⟩
    · have hlt : i < calls.length := (List.getElem?_eq_some_iff.1 hi).1
      rw [h.histories i call' hi, if_neg (by omega), List.append_nil]
    · rw [h.others _ le_rfl, if_pos rfl, List.nil_append]
  others := by
    intro i hi
    rw [List.length_append, List.length_singleton] at hi
    rw [List.filterMap_append, hwithin, if_neg (by omega), h.others i (by omega), List.append_nil]

/-- A call that goes on. -/
theorem Interleaves.set {calls : List SendCall} {log log' : List Tracked}
    (h : Interleaves calls log) {i : ℕ} {call call' : SendCall} (hi : calls[i]? = some call)
    (hplaced : call'.Placed) {events : List CallEvent}
    (hwithin : ∀ j, log'.filterMap (Tracked.within j) = if i = j then events else [])
    (hhistory : call'.history = call.history ++ events) :
    Interleaves (calls.set i call') (log ++ log') where
  placed := forall_getElem?_set hi (fun j other _ hj => h.placed j other hj) hplaced
  histories := by
    refine forall_getElem?_set hi (fun j other hne hj => ?_) ?_
    · rw [List.filterMap_append, hwithin, if_neg hne.symm, h.histories j other hj, List.append_nil]
    · rw [List.filterMap_append, hwithin, if_pos rfl, h.histories i call hi, hhistory]
  others := by
    intro j hj
    have hlt : i < calls.length := (List.getElem?_eq_some_iff.1 hi).1
    rw [List.length_set] at hj
    rw [List.filterMap_append, hwithin, if_neg (by omega), h.others j hj, List.append_nil]

/-- What a step of a call has done. -/
theorem Performs.sends {α : Type} (h : Performs P timeout env s.client s.clock s.log)
    {found : ℚ → Str → Option Str} {events : List CallEvent} {log : List Tracked}
    {o : Outcome PyExc EsmeClient α}
    (hsends : EsmeClient.Sends timeout found (s.coming env) events s.client o)
    (hevents : callEvents log = events) (hcalls : ∀ e ∈ log, e.callEvent.isSome = true)
    (hlinked : linked P.dr_processor timeout (s.log ++ log) = found) :
    Performs P timeout env o.state (s.clock + o.used) (s.log ++ log) where
  wire := by
    rw [hsends.does.wire, h.wire, callEvents_append, hevents, List.filterMap_append,
      List.map_append]
  outcomes := by
    rw [hsends.does.outcomes, h.outcomes, callEvents_append, hevents, List.filterMap_append]
  reports := by rw [hsends.reports, h.reports, reportsAfter_append, reportsAfter_calls hcalls]
  remembers := by
    rw [hlinked]
    exact hsends.remembers

/-- A call that begins adds to the log what the client does. -/
theorem Follows.began (h : s.Follows P timeout env) (hclock : Clocked env) (message : Message) :
    (s.began message ((EsmeClient.beginSending P message).run (s.coming env) s.client)).Follows P
      timeout env := by
  have hcoming : Clocked (s.coming env) := hclock.later s.clock
  have hremembers : Remembers timeout (s.coming env 0).time (linked P.dr_processor timeout s.log)
      s.client.smpp_cache.smpp_msg_id := h.performs.remembers
  unfold Traffic.began
  rcases EsmeClient.beginSending_spec hremembers hcoming P message with
    ⟨e, hresult, hsends⟩ | ⟨pdus, hresult, hsends⟩
  · rw [hresult]
    constructor
    · exact h.interleaves.append rfl fun j => (ite_self _).symm
    · exact h.performs.sends hsends rfl (fun e he => by cases he) (congrArg _ (List.append_nil _))
  · rw [hresult]
    constructor
    · exact h.interleaves.append rfl fun j => within_logNext _ j message pdus
    · exact h.performs.sends hsends (callEvents_logNext _ message pdus)
        (isSome_logNext _ message pdus) (linked_append (touches_logNext _ _ message pdus))

/-- A response adds to the log what the client does. -/
theorem Follows.resumed (h : s.Follows P timeout env) (hclock : Clocked env) {i : ℕ}
    {message : Message} {pdus : Except PyExc (List SubmitSM)} {got : List PDUResponse}
    {rest : List SubmitSM} (hi : s.calls[i]? = some ⟨message, pdus, got, .awaiting rest⟩)
    (response : PDUResponse) :
    (s.resumed i ⟨message, pdus, got, .awaiting rest⟩ response
      (logResponse (s.coming env) i message rest response)
      ((EsmeClient.goOnSending message rest response).run (s.coming env) s.client)).Follows P
        timeout env := by
  have hcoming : Clocked (s.coming env) := hclock.later s.clock
  have hremembers : Remembers timeout (s.coming env 0).time (linked P.dr_processor timeout s.log)
      s.client.smpp_cache.smpp_msg_id := h.performs.remembers
  obtain ⟨hstage, hsends⟩ := EsmeClient.goOnSending_spec hremembers hcoming message rest response
  have hplaced := h.interleaves.placed i _ hi
  cases pdus with
  -- A call whose PDUs could not be made waits for nothing.
  | error e => cases hplaced
  | ok pdus =>
    have hawaiting : stageAfter pdus got = .awaiting rest := hplaced.symm
    constructor
    · refine h.interleaves.set hi ?_ (fun j => within_logResponse _ i j message rest response) ?_
      · show stageOf _ = stageAfter pdus (got ++ [response])
        rw [hstage, stageAfter_concat hawaiting]
      · exact historyOf_concat hawaiting message.message_id response
    · exact h.performs.sends hsends (callEvents_logResponse _ i message rest response)
        (isSome_logResponse _ i message rest response)
          (linked_logResponse s.log _ i message rest response)

/-- What the handling of a PDU has done. -/
theorem Performs.delivers (h : Performs P timeout env s.client s.clock s.log) {pdu : DeliverSM}
    {o : Outcome PyExc EsmeClient Unit}
    (hdelivers : EsmeClient.Delivers P timeout (linked P.dr_processor timeout s.log) (s.coming env)
      pdu s.client o) :
    Performs P timeout env o.state (s.clock + o.used)
      (s.log ++ [.delivered pdu (s.coming env 0).time]) := by
  have hevents :
      callEvents (s.log ++ [.delivered pdu (s.coming env 0).time]) = callEvents s.log := by
    rw [callEvents_append]
    exact List.append_nil _
  constructor
  · rw [hevents, ← h.wire]
    exact hdelivers.does.wire.trans (List.append_nil _)
  · rw [hevents, ← h.outcomes]
    exact hdelivers.does.outcomes.trans (List.append_nil _)
  · -- The report is the one that the log determines at that time.
    have hlast : reportsAfter P.dr_processor timeout s.log [.delivered pdu (s.coming env 0).time] =
        (P.dr_processor.reported
          (linked P.dr_processor timeout s.log (s.coming env 0).time) pdu).toList :=
      List.append_nil _
    rw [hdelivers.reports, h.reports, reportsAfter_append, List.nil_append, hlast]
  · rw [linked_delivered]
    exact hdelivers.remembers

/-- A `DeliverSM` adds to the log what the client does. -/
theorem Follows.handled (h : s.Follows P timeout env) (hclock : Clocked env) (pdu : DeliverSM) :
    (s.handled pdu (s.coming env 0)
      ((EsmeClient.forwardDeliverSm P pdu).run (s.coming env) s.client)).Follows P timeout env := by
  have hcoming : Clocked (s.coming env) := hclock.later s.clock
  have hremembers : Remembers timeout (s.coming env 0).time (linked P.dr_processor timeout s.log)
      s.client.smpp_cache.smpp_msg_id := h.performs.remembers
  have hdelivers := EsmeClient.forwardDeliverSm_spec (P := P) hremembers hcoming pdu
  have hwithin : ∀ j, (s.log ++ [Tracked.delivered pdu (s.coming env 0).time]).filterMap
      (Tracked.within j) = s.log.filterMap (Tracked.within j) := by
    intro j
    rw [List.filterMap_append]
    exact List.append_nil _
  constructor
  · constructor
    · exact h.interleaves.placed
    · exact fun i call hi => (hwithin i).trans (h.interleaves.histories i call hi)
    · exact fun i hi => (hwithin i).trans (h.interleaves.others i hi)
  · exact h.performs.delivers hdelivers

/-- Every step adds to the log what the client does. -/
theorem Follows.step (h : s.Follows P timeout env) (hclock : Clocked env) {a : TrafficAction}
    (hstep : step P env s a = some s') : s'.Follows P timeout env := by
  obtain ⟨-, ⟨message, -, rfl⟩ | ⟨i, response, message, pdus, got, rest, -, hi, rfl⟩ |
    ⟨pdu, -, rfl⟩⟩ :=
    step_cases hstep
  · exact h.began hclock message
  · exact h.resumed hclock hi response
  · exact h.handled hclock pdu

/-- In every run the log is true. -/
theorem follows_run {client : EsmeClient} (hclient : Starts timeout client) (hclock : Clocked env)
    {actions : List TrafficAction}
    (h : run (Traffic.step P env) (new client) actions = some s) : s.Follows P timeout env :=
  run_invariant _ (fun _ _ _ hfollows hstep => hfollows.step hclock hstep) (follows_new hclient) h

end Traffic

end Vumi2.Smpp
