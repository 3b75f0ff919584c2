import Vumi2.Smpp.Histories

/-!
# What the steps of the traffic do

One specification for each step: what it sends, and what look-ups of the cache find afterwards
(`Remembers`). A delivery report sends an event for the message that its id stands for, and leaves
the id without one; an acceptance makes an id stand for its message, as long as the timeout.
-/

namespace Vumi2.Smpp

open Effect Eff Text

/-! ## What the cache holds -/

/-- From `now` on, a look-up of an id finds what `found` says. -/
structure Remembers (timeout now : ℚ) (found : ℚ → Str → Option Str) (d : TimeoutDict Str) :
    Prop where
  timeout : d.timeout = timeout
  dated : d.Dated now
  found : ∀ late, now ≤ late → ∀ id, d.lookedUp late id = found late id

namespace Remembers

variable {timeout now : ℚ} {found : ℚ → Str → Option Str} {d : TimeoutDict Str}
  {env : ℕ → Reading}

/-- What is remembered from now on is so from later on. -/
theorem mono (h : Remembers timeout now found d) {late : ℚ} (hle : now ≤ late) :
    Remembers timeout late found d where
  timeout := h.timeout
  dated := h.dated.mono hle
  found := fun later hlater => h.found later (le_trans hle hlater)

/-- What is remembered can be said in other words. -/
theorem congr (h : Remembers timeout now found d) {found' : ℚ → Str → Option Str}
    (hfound : ∀ late id, found' late id = found late id) : Remembers timeout now found' d where
  timeout := h.timeout
  dated := h.dated
  found := fun late hlate id => (h.found late hlate id).trans (hfound late id).symm

/-- An id that is set is found as long as the timeout. -/
theorem setitem (h : Remembers timeout (env 0).time found d) (hclock : Clocked env) (key : Str)
    (value : Str) : Remembers timeout (env 2).time
      (fun late id => if id = key then
          if TimeoutDict.age late (env 1).time ≤ timeout then some value else none
        else found late id)
      ((TimeoutDict.setitem key value).run env d).state where
  timeout := by
    rw [TimeoutDict.run_setitem]
    exact h.timeout
  dated := by
    have hdated := TimeoutDict.datedAt_setitem key value env d hclock h.dated
    rw [TimeoutDict.run_setitem] at hdated ⊢
    exact hdated
  found := by
    intro late hlate id
    have hnow : (env 1).time ≤ late := le_trans (hclock (Nat.le_succ 1)) hlate
    have hold := h.found late (le_trans (hclock (Nat.zero_le 1)) hnow) id
    apply Option.ext
    intro w
    rw [TimeoutDict.lookedUp_setitem hclock h.dated key value hnow id w, hold, h.timeout]
    -- The key that was set is found while it is fresh, and any other as before.
    split_ifs with hkey hfresh
    · rw [Option.some_inj, eq_comm]
      exact and_iff_left hfresh
    · exact ⟨fun hand => absurd hand.2 hfresh, fun hnone => by cases hnone⟩
    · rfl

/-- An id that is popped is gone. -/
theorem pop (h : Remembers timeout (env 0).time found d) (hclock : Clocked env) (key : Str) :
    Remembers timeout (env 2).time (fun late id => if id = key then none else found late id)
      ((TimeoutDict.pop key).run env d).state where
  timeout := by
    rw [TimeoutDict.run_pop]
    exact h.timeout
  dated := by
    have hdated := TimeoutDict.datedAt_pop key env d hclock h.dated
    rw [TimeoutDict.run_pop] at hdated ⊢
    exact hdated
  found := by
    intro late hlate id
    have hnow : (env 1).time ≤ late := le_trans (hclock (Nat.le_succ 1)) hlate
    rw [TimeoutDict.lookedUp_pop h.dated hclock key hnow,
      h.found late (le_trans (hclock (Nat.zero_le 1)) hnow)]

/-- Expiring forgets nothing that a look-up would find. -/
theorem removeExpired (h : Remembers timeout (env 0).time found d) (hclock : Clocked env) :
    Remembers timeout (env 1).time found (TimeoutDict.removeExpired.run env d).state where
  timeout := by
    rw [TimeoutDict.run_removeExpired]
    exact h.timeout
  dated := TimeoutDict.datedAt_removeExpired env d hclock h.dated
  found := by
    intro late hlate id
    have hfirst : (env 0).time ≤ late := le_trans (hclock (Nat.zero_le 1)) hlate
    rw [TimeoutDict.run_removeExpired]
    dsimp only
    rw [TimeoutDict.lookedUp_expire h.dated hfirst, h.found late hfirst]

end Remembers

namespace DeliveryReportProcesser

variable {P : DeliveryReportProcesser} {timeout : ℚ} {found : ℚ → Str → Option Str}
  {env : ℕ → Reading} {c : InMemorySmppCache}

/-- What stands for an id that a report names is gone afterwards. -/
def without (found : ℚ → Str → Option Str) (smpp_message_id : Option Str) (late : ℚ) (id : Str) :
    Option Str :=
  if some id = smpp_message_id then none else found late id

/-- A look-up finds what is remembered, and forgets it. -/
theorem lookUp_spec (h : Remembers timeout (env 0).time found c.smpp_msg_id) (hclock : Clocked env)
    (smpp_message_id : Option Str) : ∃ c', (lookUp smpp_message_id).run env c =
      ⟨.ok (smpp_message_id.bind (found (env 0).time)), 2, c'⟩ ∧
        Remembers timeout (env 2).time (without found smpp_message_id) c'.smpp_msg_id := by
  cases smpp_message_id with
  | none =>
    have hfirst : Remembers timeout (later env 1 0).time found _ := h.removeExpired hclock
    have hsecond := hfirst.removeExpired (hclock.later 1)
    exact ⟨_, rfl, hsecond.congr fun late id => if_neg (by simp)⟩
  | some key =>
    have hpop := h.pop hclock key
    have hresult : ((c.smpp_msg_id.expire (env 0).time).data.get? key).map Prod.snd =
        found (env 0).time key := h.found _ le_rfl key
    refine ⟨lookedUp key env c, by rw [run_lookUp, hresult]; rfl, ?_⟩
    refine hpop.congr fun late id => ?_
    unfold without
    simp only [Option.some_inj]

/-- What is gone already can be forgotten. -/
theorem forgetIfFinal_spec {smpp_message_id : Option Str}
    (h : Remembers timeout (env 0).time (without found smpp_message_id) c.smpp_msg_id)
    (hclock : Clocked env) (status : DeliveryStatus) :
    ∃ c' used, (forgetIfFinal status smpp_message_id).run env c = ⟨.ok (), used, c'⟩ ∧
      Remembers timeout (env used).time (without found smpp_message_id) c'.smpp_msg_id := by
  unfold forgetIfFinal
  split_ifs
  · -- A report without an id drops what has expired, twice, and a report with one pops it.
    cases smpp_message_id with
    | none =>
      have hfirst : Remembers timeout (later env 1 0).time (without found none) _ :=
        h.removeExpired hclock
      exact ⟨_, 2, rfl, hfirst.removeExpired (hclock.later 1)⟩
    | some key =>
      have hpop := h.pop hclock key
      have hrun : (forget (some key)).run env c = ⟨.ok (), 2, { c with
          smpp_msg_id := ((TimeoutDict.pop key).run env c.smpp_msg_id).state }⟩ := by
        unfold forget InMemorySmppCache.deleteSmppMessageId InMemorySmppCache.onSmppMsgId
        rw [run_on, run_bind_ok (TimeoutDict.run_pop key env c.smpp_msg_id), TimeoutDict.run_pop]
        rfl
      refine ⟨_, 2, hrun, hpop.congr fun late id => ?_⟩
      unfold without
      simp only [Option.some_inj]
      split_ifs
      · rfl
      · rfl
  · exact ⟨c, 0, rfl, h⟩

/-- The event of a report: the message that stands for its id, if there is one. -/
def reportOf (found : Option Str) (status : DeliveryStatus) : Option (Str × DeliveryStatus) :=
  found.bind fun message_id => if message_id = [] then none else some (message_id, status)

/-- An event is made of what is remembered, and that is forgotten. -/
theorem createEvent_spec {stat : Option Str} {status : DeliveryStatus}
    (hstatus : P.mappedStatus stat = .ok status)
    (h : Remembers timeout (env 0).time found c.smpp_msg_id) (hclock : Clocked env)
    (smpp_message_id : Option Str) :
    ∃ r c' used, (P.createEvent smpp_message_id stat).run env c =
      ⟨.ok ((reportOf (smpp_message_id.bind (found (env 0).time)) status).map fun report =>
          Event.deliveryReport report.1 report.2
            [(str "smpp_delivery_status", stat.elim .null .string)] r), used, c'⟩ ∧
      Remembers timeout (env used).time (without found smpp_message_id) c'.smpp_msg_id := by
  obtain ⟨c₁, hlookUp, h₁⟩ := lookUp_spec h hclock smpp_message_id
  rw [createEvent, hstatus, ofExcept_ok, pure_bind, run_bind_ok hlookUp]
  -- No message, an empty id, or an event for the message.
  cases smpp_message_id.bind (found (env 0).time) with
  | none => exact ⟨env 0, c₁, 2, rfl, h₁⟩
  | some message_id =>
    dsimp only [reportOf, Option.bind_some]
    by_cases hempty : message_id = []
    · rw [if_pos hempty, if_pos hempty]
      exact ⟨env 0, c₁, 2, rfl, h₁⟩
    · -- The mapping is forgotten after the look-up, so the event still has its message.
      have hagain : Remembers timeout (later env 2 0).time (without found smpp_message_id)
          c₁.smpp_msg_id := h₁
      obtain ⟨c₂, used, hforget, h₂⟩ := forgetIfFinal_spec hagain (hclock.later 2) status
      have hlate := h₂.mono (hclock (Nat.le_add_right (2 + used) 1))
      rw [if_neg hempty, if_neg hempty, run_bind_ok hforget]
      exact ⟨_, c₂, 2 + (used + 1), rfl, by rwa [Nat.add_assoc] at hlate⟩

/-- The id that a PDU reports on, and the status that it reports, if it is a report that can be
understood. -/
def reportOn (P : DeliveryReportProcesser) (pdu : DeliverSM) :
    Option (Option Str × DeliveryStatus) :=
  match P.reads pdu with
  | .ok (some (smpp_message_id, stat)) =>
    (P.mappedStatus stat).toOption.map fun status => (smpp_message_id, status)
  | _ => none

/-- What is found after a PDU. -/
def foundAfter (P : DeliveryReportProcesser) (found : ℚ → Str → Option Str) (pdu : DeliverSM) :
    ℚ → Str → Option Str :=
  match P.reportOn pdu with
  | some (smpp_message_id, _) => without found smpp_message_id
  | none => found

/-- What a PDU reports of a message. -/
def reported (P : DeliveryReportProcesser) (found : Str → Option Str) (pdu : DeliverSM) :
    Option (Str × DeliveryStatus) :=
  (P.reportOn pdu).bind fun read => reportOf (read.1.bind found) read.2

/-- A PDU that is no report changes nothing. -/
theorem foundAfter_of_none {pdu : DeliverSM} (h : P.reportOn pdu = none) :
    P.foundAfter found pdu = found := by
  rw [foundAfter, h]

/-- A PDU that cannot be read as a report reports nothing. -/
theorem reported_of_none {pdu : DeliverSM} (h : P.reportOn pdu = none) (now : Str → Option Str) :
    P.reported now pdu = none := by
  rw [reported, h]
  rfl

/-- A PDU is no report, cannot be understood, or becomes the event for the message that stands for
its id. -/
theorem handleDeliverSm_spec (h : Remembers timeout (env 0).time found c.smpp_msg_id)
    (hclock : Clocked env) (pdu : DeliverSM) :
    ∃ result used c', (P.handleDeliverSm pdu).run env c = ⟨result, used, c'⟩ ∧
      Remembers timeout (env used).time (P.foundAfter found pdu) c'.smpp_msg_id ∧
      (P.reportOn pdu = none ∧ (result = .ok (false, none) ∨ ∃ e, result = .error e) ∨
        ∃ metadata r, result = .ok (true, (P.reported (found (env 0).time) pdu).map fun report =>
          Event.deliveryReport report.1 report.2 metadata r)) := by
  rw [handleDeliverSm_eq]
  -- A report is read, understood, and given the message that its id stands for.
  cases hreads : P.reads pdu with
  | error e =>
    have hnone : P.reportOn pdu = none := by rw [reportOn, hreads]
    exact ⟨.error e, 0, c, rfl, by rwa [foundAfter_of_none hnone], .inl ⟨hnone, .inr ⟨e, rfl⟩⟩⟩
  | ok read =>
    cases read with
    | none =>
      have hnone : P.reportOn pdu = none := by rw [reportOn, hreads]
      exact ⟨_, 0, c, rfl, by rwa [foundAfter_of_none hnone], .inl ⟨hnone, .inl rfl⟩⟩
    | some read =>
      obtain ⟨smpp_message_id, stat⟩ := read
      rw [ofExcept_ok, pure_bind, handleRead]
      cases hstatus : P.mappedStatus stat with
      | error e =>
        have hnone : P.reportOn pdu = none := by
          rw [reportOn, hreads]
          dsimp only
          rw [hstatus]
          rfl
        rw [createEvent, hstatus]
        exact ⟨.error e, 0, c, rfl, by rwa [foundAfter_of_none hnone], .inl ⟨hnone, .inr ⟨e, rfl⟩⟩⟩
      | ok status =>
        have hread : P.reportOn pdu = some (smpp_message_id, status) := by
          rw [reportOn, hreads]
          dsimp only
          rw [hstatus]
          rfl
        obtain ⟨r, c', used, hcreate, hremembers⟩ :=
          createEvent_spec hstatus h hclock smpp_message_id
        rw [run_bind_ok hcreate]
        refine ⟨_, used, c', rfl, ?_,
          .inr ⟨[(str "smpp_delivery_status", stat.elim .null .string)], r, ?_⟩⟩
        · rwa [foundAfter, hread]
        · rw [reported, hread]
          rfl

end DeliveryReportProcesser

/-! ## What handling a PDU does -/

/-- Parts of messages are kept elsewhere. -/
theorem keeps_shortMessage (sm : ShortMessageProcessor) (pdu : DeliverSM) (d : TimeoutDict Str) :
    Keeps (fun _ => True) (fun c => c.smpp_msg_id = d) (sm.handleDeliverSm pdu) := by
  have hmessage : ∀ content, Keeps (fun _ => True) (fun c => c.smpp_msg_id = d)
      (ShortMessageProcessor.message pdu content) := fun content =>
    keeps_bind (keeps_ofExcept _) fun _ => keeps_bind (keeps_ofExcept _) fun _ =>
      keeps_bind (keeps_ofExcept _) fun _ => keeps_bind keeps_read fun _ => keeps_pure _
  unfold ShortMessageProcessor.handleDeliverSm
  refine keeps_bind ?_ fun handled => ?_
  · -- A part is kept in `multipart`, which is beside the mapping of the ids.
    unfold ShortMessageProcessor.handleMultipartMessage
    split
    · exact keeps_pure _
    · refine keeps_bind (keeps_ofExcept _) fun content => keeps_bind ?_ fun full => ?_
      · refine keeps_bind keeps_get fun c => ?_
        dsimp only
        split_ifs
        · exact keeps_bind (keeps_modify fun _ h => h) fun _ => keeps_pure _
        · exact keeps_bind (keeps_modify fun _ h => h) fun _ => keeps_pure _
      · cases full with
        | none => exact keeps_pure _
        | some full => exact keeps_bind (hmessage _) fun _ => keeps_pure _
  · dsimp only
    split_ifs
    · exact keeps_pure _
    · exact keeps_bind (hmessage _) fun _ => keeps_pure _

namespace EsmeClient

variable {P : Processors} {timeout : ℚ} {found : ℚ → Str → Option Str} {env : ℕ → Reading}
  {c : EsmeClient}

/-- What the handling of a PDU has done: it has sent what the PDU reports, if anything, and
otherwise at most a message. -/
structure Delivers (P : Processors) (timeout : ℚ) (found : ℚ → Str → Option Str)
    (env : ℕ → Reading) (pdu : DeliverSM) (c : EsmeClient) (o : Outcome PyExc EsmeClient Unit) :
    Prop where
  does : Does c o.state []
  reports : SendsReports c o.state (P.dr_processor.reported (found (env 0).time) pdu).toList
  remembers : Remembers timeout (env o.used).time (P.dr_processor.foundAfter found pdu)
    o.state.smpp_cache.smpp_msg_id

/-- Nothing was sent. -/
theorem Delivers.silent (pdu : DeliverSM) {cache : InMemorySmppCache} {used : ℕ}
    {result : Except PyExc Unit}
    (hreported : P.dr_processor.reported (found (env 0).time) pdu = none)
    (h : Remembers timeout (env used).time (P.dr_processor.foundAfter found pdu)
      cache.smpp_msg_id) :
    Delivers P timeout found env pdu c ⟨result, used, { c with smpp_cache := cache }⟩ where
  does := ⟨(List.append_nil _).symm, (List.append_nil _).symm⟩
  reports := by
    rw [hreported]
    exact (List.append_nil _).symm
  remembers := h

/-- What is done to the cache leaves the rest of the client. -/
theorem run_onSmppCache {α : Type} (m : Py InMemorySmppCache α) (env : ℕ → Reading)
    (c : EsmeClient) : (onSmppCache m).run env c =
      ⟨(m.run env c.smpp_cache).result, (m.run env c.smpp_cache).used,
        { c with smpp_cache := (m.run env c.smpp_cache).state }⟩ := rfl

/-- A client forwards what the PDU reports of what it remembers. -/
theorem forwardDeliverSm_spec
    (h : Remembers timeout (env 0).time found c.smpp_cache.smpp_msg_id) (hclock : Clocked env)
    (pdu : DeliverSM) :
    Delivers P timeout found env pdu c ((forwardDeliverSm P pdu).run env c) := by
  obtain ⟨result, used, cache, hread, hremembers, hresult⟩ :=
    P.dr_processor.handleDeliverSm_spec h hclock pdu
  have hrun : (onSmppCache (P.dr_processor.handleDeliverSm pdu)).run env c =
      ⟨result, used, { c with smpp_cache := cache }⟩ := by
    rw [run_onSmppCache, hread]
  unfold forwardDeliverSm
  rcases hresult with ⟨hnone, rfl | ⟨e, rfl⟩⟩ | ⟨metadata, r, rfl⟩
  · -- The PDU is not a report, and is taken for a message.
    have hreported := DeliveryReportProcesser.reported_of_none hnone (found (env 0).time)
    have hkept : ((P.sm_processer.handleDeliverSm pdu).run (later env used)
        cache).state.smpp_msg_id = cache.smpp_msg_id :=
      keeps_shortMessage _ pdu _ (later env used) cache (fun _ _ => trivial) rfl
    have hafter : ∀ k, Remembers timeout (env (used + k)).time (P.dr_processor.foundAfter found pdu)
        ((P.sm_processer.handleDeliverSm pdu).run (later env used) cache).state.smpp_msg_id := by
      intro k
      rw [hkept]
      exact hremembers.mono (hclock (Nat.le_add_right used k))
    rw [run_bind_ok hrun]
    dsimp only
    rw [if_neg Bool.false_ne_true, run_bind, run_onSmppCache]
    cases ((P.sm_processer.handleDeliverSm pdu).run (later env used) cache).result with
    | error e => exact .silent pdu hreported (hafter _)
    | ok msg =>
      cases msg with
      | none => exact .silent pdu hreported (hafter _)
      | some msg =>
        constructor
        · exact ⟨(List.append_nil _).symm, by simp [sendMessage, Published.outcome]⟩
        · simp [SendsReports, sendMessage, Published.report, hreported]
        · exact hafter _
  · rw [run_bind_error hrun]
    exact .silent pdu (DeliveryReportProcesser.reported_of_none hnone _) hremembers
  · rw [run_bind_ok hrun]
    dsimp only
    rw [if_pos rfl]
    cases hreported : P.dr_processor.reported (found (env 0).time) pdu with
    | none => exact .silent pdu hreported hremembers
    | some report =>
      constructor
      · exact ⟨(List.append_nil _).symm, by simp [sendMessage]⟩
      · simp [SendsReports, sendMessage, hreported]
      · exact hremembers

end EsmeClient

/-! ## What sending does -/

namespace EsmeClient

variable {timeout : ℚ} {found found' : ℚ → Str → Option Str} {env : ℕ → Reading} {c : EsmeClient}

/-- What a step of a call has done: what happened in it, no report, and the mapping of an id. -/
structure Sends {α : Type} (timeout : ℚ) (found' : ℚ → Str → Option Str) (env : ℕ → Reading)
    (events : List CallEvent) (c : EsmeClient) (o : Outcome PyExc EsmeClient α) : Prop where
  does : Does c o.state events
  reports : SendsReports c o.state []
  remembers : Remembers timeout (env o.used).time found' o.state.smpp_cache.smpp_msg_id

/-- The mapping after an acceptance. -/
def acceptedFor (timeout : ℚ) (found : ℚ → Str → Option Str) (smpp_message_id message_id : Str)
    (time : ℚ) (late : ℚ) (id : Str) : Option Str :=
  if id = smpp_message_id then if TimeoutDict.age late time ≤ timeout then some message_id else none
  else found late id

/-- The next PDU is handed over, or the message is acknowledged. -/
theorem sendNext_spec (h : Remembers timeout (env 0).time found c.smpp_cache.smpp_msg_id)
    (hclock : Clocked env) (message : Message) (pdus : List SubmitSM) :
    ((sendNext message pdus).run env c).result = .ok (stageAfter pdus []) ∧
      Sends timeout found env (historyOf message.message_id pdus []) c
        ((sendNext message pdus).run env c) := by
  cases pdus with
  | nil =>
    refine ⟨rfl, ⟨(List.append_nil _).symm, ?_⟩, ?_, h.mono (hclock (Nat.zero_le 1))⟩
    · simp [sendNext, sendMessage, historyOf, CallEvent.outcome?]
    · simp [SendsReports, sendNext, sendMessage]
  | cons pdu pdus =>
    exact ⟨rfl, ⟨rfl, (List.append_nil _).symm⟩, (List.append_nil _).symm, h⟩

/-- The mapping after a response. -/
def foundAt (timeout : ℚ) (found : ℚ → Str → Option Str) (message_id : Str) (time : ℚ) :
    PDUResponse → ℚ → Str → Option Str
  | .submit_sm_resp .ESME_ROK smpp =>
    match messageId (.submit_sm_resp .ESME_ROK smpp) with
    | .ok smpp_message_id => acceptedFor timeout found smpp_message_id message_id time
    | .error _ => found
  | _ => found

/-- A response is remembered, and then the call goes on as it is determined. -/
theorem goOnSending_spec (h : Remembers timeout (env 0).time found c.smpp_cache.smpp_msg_id)
    (hclock : Clocked env) (message : Message) (pdus : List SubmitSM) (response : PDUResponse) :
    Traffic.stageOf ((goOnSending message pdus response).run env c).result =
        stageAt pdus response ∧
      Sends timeout (foundAt timeout found message.message_id (env 1).time response) env
        (eventsAt message.message_id pdus response) c
        ((goOnSending message pdus response).run env c) := by
  -- The cases of `send_vumi_message`: no response PDU, a refusal, an id that is no UTF-8, an
  -- acceptance.
  cases response with
  | generic_nack status =>
    exact ⟨rfl, ⟨(List.append_nil _).symm, (List.append_nil _).symm⟩, (List.append_nil _).symm, h⟩
  | submit_sm_resp status smpp =>
    cases status with
    | error name description =>
      refine ⟨rfl, ⟨(List.append_nil _).symm, ?_⟩, ?_, h.mono (hclock (Nat.zero_le 1))⟩
      · simp [goOnSending, sendMessage, eventsAt, CallEvent.outcome?]
      · simp [SendsReports, goOnSending, sendMessage]
    | ESME_ROK =>
      cases hid : messageId (.submit_sm_resp .ESME_ROK smpp) with
      | error e =>
        have hrun : (goOnSending message pdus (.submit_sm_resp .ESME_ROK smpp)).run env c =
            ⟨.error e, 0, c⟩ := by
          rw [goOnSending, hid]
          rfl
        rw [hrun, stageAt, eventsAt, foundAt, hid]
        exact ⟨rfl, ⟨(List.append_nil _).symm, (List.append_nil _).symm⟩,
          (List.append_nil _).symm, h⟩
      | ok smpp_message_id =>
        -- The id stands for the message from the second reading on.
        have hstored := h.setitem hclock smpp_message_id message.message_id
        have hagain : Remembers timeout (later env 2 0).time
            (acceptedFor timeout found smpp_message_id message.message_id (env 1).time)
            (c.mapping env smpp_message_id message.message_id).smpp_cache.smpp_msg_id := hstored
        obtain ⟨hresult, hsends⟩ := sendNext_spec hagain (hclock.later 2) message pdus
        rw [goOnSending, hid, ofExcept_ok, pure_bind,
          run_bind_ok (run_storeSmppMessageId message.message_id smpp_message_id env c), stageAt,
          eventsAt, foundAt, hid]
        refine ⟨?_, ⟨hsends.does.wire, hsends.does.outcomes⟩, hsends.reports, ?_⟩
        · dsimp only
          rw [hresult]
          rfl
        · exact hsends.remembers

/-- A message that cannot be submitted is not sent. -/
theorem beginSending_spec (h : Remembers timeout (env 0).time found c.smpp_cache.smpp_msg_id)
    (hclock : Clocked env) (P : Processors) (message : Message) :
    (∃ e, ((beginSending P message).run env c).result = .error e ∧
        Sends timeout found env [] c ((beginSending P message).run env c)) ∨
      ∃ pdus, ((beginSending P message).run env c).result = .ok (pdus, stageAfter pdus []) ∧
        Sends timeout found env (historyOf message.message_id pdus []) c
          ((beginSending P message).run env c) := by
  unfold beginSending
  -- Making the PDUs only draws numbers.
  have hafter : ∀ k, Remembers timeout (later env k 0).time found c.smpp_cache.smpp_msg_id :=
    fun k => h.mono (hclock (Nat.zero_le (k + 0)))
  cases hresult : ((onSequencer (P.submit_sm_processor.handleOutboundMessage message)).run env
      c).result with
  | error e =>
    refine .inl ⟨e, by rw [run_bind, hresult], ?_⟩
    rw [run_bind, hresult]
    exact ⟨⟨(List.append_nil _).symm, (List.append_nil _).symm⟩, (List.append_nil _).symm,
      hafter _⟩
  | ok pdus =>
    obtain ⟨hnext, hsends⟩ := sendNext_spec
      (c := ((onSequencer (P.submit_sm_processor.handleOutboundMessage message)).run env c).state)
      (hafter _) (hclock.later _) message pdus
    refine .inr ⟨pdus, ?_, ?_⟩
    · rw [result_bind hresult, result_bind hnext]
      rfl
    · rw [run_bind, hresult]
      dsimp only
      rw [run_bind, hnext]
      exact ⟨⟨hsends.does.wire, hsends.does.outcomes⟩, hsends.reports, hsends.remembers⟩

end EsmeClient

end Vumi2.Smpp
