import Mathlib.Data.Finset.Card
import Vumi2.Smpp.AnyOrder

/-!
# The delivery reports that a client sends

A `DeliverSM` reports on an id, and the event names the message that the id stands for. In every run
that is the message of the last acceptance under the id, when no report on it came since and it was
not too long ago (`linked_eq_some_iff`, `reports_in_any_order`).

So an acceptance is reported at most once: the ids that stand for a message (`standing`) become more
with each acceptance, and fewer with each report. A message of `n` PDUs whose id no other message
has gets at most `n` reports (`reports_le_pdus`).
-/

namespace Vumi2.Smpp

open Effect Eff Text Machine Slots

/-! ## What an id stands for -/

section Linked

variable {P : DeliveryReportProcesser} {timeout : ℚ}

/-- An id stands for the message of an acceptance under it after which nothing touched it. -/
theorem linked_eq_some_iff {log : List Tracked} {late : ℚ} {smpp_message_id message_id : Str} :
    linked P timeout log late smpp_message_id = some message_id ↔
      ∃ before after i time, log = before ++ .accepted i smpp_message_id message_id time :: after ∧
        (∀ e ∈ after, e.touches P smpp_message_id = false) ∧
          TimeoutDict.age late time ≤ timeout := by
  unfold linked
  rw [Option.bind_eq_some_iff]
  constructor
  · rintro ⟨e, hfind, hstands⟩
    -- `linked` looks at the last entry that touches the id, and that is an acceptance.
    obtain ⟨htouches, after, before, hlog, hafter⟩ := List.find?_eq_some_iff_append.1 hfind
    cases e with
    | sent i pdu => cases hstands
    | settled i message_id reason => cases hstands
    | delivered pdu time => cases hstands
    | accepted i id message time =>
      obtain rfl : id = smpp_message_id := of_decide_eq_true htouches
      have hsplit : log = before.reverse ++ .accepted i id message time :: after.reverse := by
        rw [← List.reverse_reverse log, hlog]
        simp
      rw [Tracked.standsFor] at hstands
      split_ifs at hstands with htime
      obtain rfl := Option.some.inj hstands
      refine ⟨before.reverse, after.reverse, i, time, hsplit, fun e he => ?_, htime⟩
      simpa using hafter e (List.mem_reverse.1 he)
  · -- Nothing after the acceptance touches the id, so it is the entry that is found.
    rintro ⟨before, after, i, time, rfl, hafter, htime⟩
    refine ⟨.accepted i smpp_message_id message_id time, ?_, if_pos htime⟩
    refine List.find?_eq_some_iff_append.2
      ⟨decide_eq_true rfl, after.reverse, before.reverse, by simp, fun e he => ?_⟩
    rw [hafter e (List.mem_reverse.1 he)]
    rfl

/-! ## Ids that stand for a message -/

namespace Tracked

/-- The id under which a PDU was accepted. -/
def acceptedId : Tracked → Option Str
  | accepted _ id _ _ => some id
  | _ => none

/-- The message whose PDU was accepted. -/
def acceptedMessage : Tracked → Option Str
  | accepted _ _ message_id _ => some message_id
  | _ => none

end Tracked

/-- The message that an id stands for, however long ago it was accepted. -/
def owner (P : DeliveryReportProcesser) (log : List Tracked) (smpp_message_id : Str) : Option Str :=
  (log.reverse.find? (Tracked.touches P smpp_message_id)).bind Tracked.acceptedMessage

/-- The last PDU that touches an id decides who owns it. -/
theorem owner_concat (log : List Tracked) (e : Tracked) (smpp_message_id : Str) :
    owner P (log ++ [e]) smpp_message_id =
      if e.touches P smpp_message_id = true then e.acceptedMessage
      else owner P log smpp_message_id := by
  unfold owner
  rw [List.reverse_append, List.reverse_singleton, List.singleton_append, List.find?_cons]
  cases e.touches P smpp_message_id with
  | true => rfl
  | false => rfl

/-- An id that is linked to a message is owned by it. -/
theorem owner_of_linked {log : List Tracked} {late : ℚ} {smpp_message_id message_id : Str}
    (h : linked P timeout log late smpp_message_id = some message_id) :
    owner P log smpp_message_id = some message_id := by
  obtain ⟨before, after, i, time, rfl, hafter, -⟩ := linked_eq_some_iff.1 h
  have hfind : (before ++ .accepted i smpp_message_id message_id time :: after).reverse.find?
      (Tracked.touches P smpp_message_id) = some (.accepted i smpp_message_id message_id time) := by
    refine List.find?_eq_some_iff_append.2
      ⟨decide_eq_true rfl, after.reverse, before.reverse, by simp, fun e he => ?_⟩
    rw [hafter e (List.mem_reverse.1 he)]
    rfl
  unfold owner
  rw [hfind]
  rfl

/-- The ids that stand for a message. -/
def standing (P : DeliveryReportProcesser) (message_id : Str) (log : List Tracked) : Finset Str :=
  (log.filterMap Tracked.acceptedId).toFinset.filter fun id => owner P log id = some message_id

/-- The standing ids of a message are those that it owns. -/
theorem mem_standing {message_id : Str} {log : List Tracked} {smpp_message_id : Str} :
    smpp_message_id ∈ standing P message_id log ↔
      owner P log smpp_message_id = some message_id := by
  unfold standing
  rw [Finset.mem_filter, List.mem_toFinset, and_iff_right_iff_imp]
  intro howner
  obtain ⟨e, hfind, hmessage⟩ := Option.bind_eq_some_iff.1 howner
  have he : e ∈ log := List.mem_reverse.1 (List.mem_of_find?_eq_some hfind)
  have htouches : e.touches P smpp_message_id = true := List.find?_some hfind
  cases e with
  | sent i pdu => cases hmessage
  | settled i message_id reason => cases hmessage
  | delivered pdu time => cases hmessage
  | accepted i id message time =>
    obtain rfl : id = smpp_message_id := of_decide_eq_true htouches
    exact List.mem_filterMap.2 ⟨_, he, rfl⟩

/-- An entry that accepts no PDU of the message lets no more ids stand for it. -/
theorem standing_subset {message_id : Str} {log : List Tracked} {e : Tracked}
    (h : e.acceptedMessage ≠ some message_id) :
    standing P message_id (log ++ [e]) ⊆ standing P message_id log := by
  intro id hid
  rw [mem_standing, owner_concat] at hid
  rw [mem_standing]
  split_ifs at hid
  · exact absurd hid h
  · exact hid

/-- A PDU reports of the message that its id stands for, if that has a name. -/
theorem reported_eq_some_iff {found : Str → Option Str} {pdu : DeliverSM} {message_id : Str}
    {status : DeliveryStatus} :
    P.reported found pdu = some (message_id, status) ↔
      message_id ≠ [] ∧ ∃ smpp_message_id, P.reportOn pdu = some (some smpp_message_id, status) ∧
        found smpp_message_id = some message_id := by
  unfold DeliveryReportProcesser.reported DeliveryReportProcesser.reportOf
  -- No report, no id, no message, an empty message id, or one that is named.
  cases hread : P.reportOn pdu with
  | none => simp
  | some read =>
    obtain ⟨smpp_message_id, status'⟩ := read
    cases smpp_message_id with
    | none => simp
    | some smpp_message_id =>
      cases hfound : found smpp_message_id with
      | none => simp [hfound]
      | some message =>
        by_cases hempty : message = []
        · simp [hfound, hempty]
          rintro hne - rfl
          exact absurd rfl hne
        · simp [hfound, hempty]
          constructor
          · rintro ⟨rfl, rfl⟩
            exact ⟨hempty, rfl, rfl⟩
          · rintro ⟨-, rfl, rfl⟩
            exact ⟨rfl, rfl⟩

/-- A PDU that reports on a message ends an id that stood for it. -/
theorem card_standing_delivered {message_id : Str} {status : DeliveryStatus} {log : List Tracked}
    {pdu : DeliverSM} {now : ℚ}
    (h : P.reported (linked P timeout log now) pdu = some (message_id, status)) :
    (standing P message_id (log ++ [.delivered pdu now])).card + 1 ≤
      (standing P message_id log).card := by
  obtain ⟨-, id, hread, hlinked⟩ := reported_eq_some_iff.1 h
  have hmem : id ∈ standing P message_id log := mem_standing.2 (owner_of_linked hlinked)
  have htouches : (Tracked.delivered pdu now).touches P id = true := by
    rw [Tracked.touches, hread]
    exact decide_eq_true rfl
  have hsubset : standing P message_id (log ++ [.delivered pdu now]) ⊆
      (standing P message_id log).erase id := by
    intro other hother
    refine Finset.mem_erase.2 ⟨?_, standing_subset (by simp [Tracked.acceptedMessage]) hother⟩
    rintro rfl
    rw [mem_standing, owner_concat, if_pos htouches] at hother
    cases hother
  have hcard := Finset.card_le_card hsubset
  have herase := Finset.card_erase_add_one hmem
  omega

/-- Each acceptance is reported at most once. -/
theorem reports_le_accepted (message_id : Str) (log : List Tracked) :
    (reportsAfter P timeout [] log).countP (fun report => report.1 = message_id) +
        (standing P message_id log).card ≤
      log.countP fun e => e.acceptedMessage = some message_id := by
  induction log using List.reverseRecOn with
  | nil => exact Nat.le_refl 0
  | append_singleton log e ih =>
    have hreports : reportsAfter P timeout [] (log ++ [e]) =
        reportsAfter P timeout [] log ++ (e.report P timeout log).toList := by
      rw [reportsAfter_append]
      exact congrArg _ (List.append_nil _)
    rw [hreports, List.countP_append, List.countP_append]
    by_cases hmessage : e.acceptedMessage = some message_id
    · -- one more id may stand for the message
      cases e with
      | sent i pdu => cases hmessage
      | settled i message_id reason => cases hmessage
      | delivered pdu time => cases hmessage
      | accepted i id message time =>
        have hsubset : standing P message_id (log ++ [.accepted i id message time]) ⊆
            insert id (standing P message_id log) := by
          intro other hother
          rw [mem_standing, owner_concat] at hother
          rw [Finset.mem_insert, mem_standing]
          split_ifs at hother with htouches
          · exact .inl (of_decide_eq_true htouches).symm
          · exact .inr hother
        have hcard := (Finset.card_le_card hsubset).trans (Finset.card_insert_le _ _)
        have hone : [Tracked.accepted i id message time].countP
            (fun e => e.acceptedMessage = some message_id) = 1 := by
          simp [hmessage]
        have hnone : (Tracked.accepted i id message time).report P timeout log = none := rfl
        rw [hone, hnone, Option.toList_none, List.countP_nil]
        omega
    · have hsubset : standing P message_id (log ++ [e]) ⊆ standing P message_id log :=
        standing_subset hmessage
      have hcard := Finset.card_le_card hsubset
      cases hreport : e.report P timeout log with
      | none =>
        rw [Option.toList_none, List.countP_nil]
        omega
      | some report =>
        obtain ⟨reported, status⟩ := report
        by_cases hreported : reported = message_id
        · -- the id that the message was found under stands for it no more
          cases e with
          | sent i pdu => cases hreport
          | settled i message_id reason => cases hreport
          | accepted i id message time => cases hreport
          | delivered pdu now =>
            have hless := card_standing_delivered hreport
            have hone : (some (reported, status)).toList.countP
                (fun report : Str × DeliveryStatus => report.1 = message_id) = 1 := by
              simp [hreported]
            rw [hreported] at hless
            rw [hone]
            omega
        · have hzero : (some (reported, status)).toList.countP
              (fun report : Str × DeliveryStatus => report.1 = message_id) = 0 := by
            simp [hreported]
          rw [hzero]
          omega

end Linked

/-! ## How many reports a message gets -/

/-- A PDU was accepted. -/
def CallEvent.isAccepted : CallEvent → Bool
  | accepted _ _ => true
  | _ => false

/-- A call has no more PDUs accepted than it has, and all of them for its message. -/
theorem accepted_historyOf (message_id : Str) (pdus : List SubmitSM) (got : List PDUResponse) :
    (historyOf message_id pdus got).countP CallEvent.isAccepted ≤ pdus.length ∧
      ∀ id other, .accepted id other ∈ historyOf message_id pdus got → other = message_id := by
  induction pdus generalizing got with
  | nil => exact ⟨Nat.le_refl 0, fun id other hmem => by cases List.mem_singleton.1 hmem⟩
  | cons pdu pdus ih =>
    cases got with
    | nil => exact ⟨Nat.zero_le _, fun id other hmem => by cases List.mem_singleton.1 hmem⟩
    | cons response got =>
      rcases historyOf_cons message_id pdu pdus response got with
        ⟨id, -, h⟩ | ⟨reason, -, h⟩ | ⟨-, -, h⟩
      · -- An acceptance is counted once, and its PDU is gone.
        rw [h]
        refine ⟨?_, fun id' other hmem => ?_⟩
        · rw [List.countP_cons_of_neg Bool.false_ne_true, List.countP_cons_of_pos rfl]
          exact Nat.succ_le_succ (ih got).1
        rcases List.mem_cons.1 hmem with hsent | hmem
        · cases hsent
        · rcases List.mem_cons.1 hmem with haccepted | hmem
          · exact (CallEvent.accepted.inj haccepted).2
          · exact (ih got).2 id' other hmem
      · -- A refusal is the last event, and no acceptance.
        rw [h]
        refine ⟨Nat.zero_le _, fun id other hmem => ?_⟩
        simp at hmem
      · rw [h]
        refine ⟨Nat.zero_le _, fun id other hmem => ?_⟩
        simp at hmem

namespace Traffic

variable {P : Processors} {timeout : ℚ} {env : ℕ → Reading} {s : Traffic}

/-- In every run, the client sends the reports that came to it, each with the message that its id
stood for. -/
theorem reports_in_any_order {client : EsmeClient} (hclient : Starts timeout client)
    (hclock : Clocked env) {actions : List TrafficAction}
    (h : run (Traffic.step P env) (new client) actions = some s) :
    s.log.filterMap Tracked.deliveredPdu = actions.filterMap TrafficAction.pdu? ∧
      s.client.send_message_channel.filterMap Published.report =
        reportsAfter P.dr_processor timeout [] s.log ∧
      ∀ log pdu now message_id status,
        (Tracked.delivered pdu now).report P.dr_processor timeout log = some (message_id, status) ↔
          message_id ≠ [] ∧ ∃ smpp_message_id,
            P.dr_processor.reportOn pdu = some (some smpp_message_id, status) ∧
            ∃ before after i time,
              log = before ++ .accepted i smpp_message_id message_id time :: after ∧
              (∀ e ∈ after, e.touches P.dr_processor smpp_message_id = false) ∧
              TimeoutDict.age now time ≤ timeout := by
  have hrecords : Records (new client) s actions := records_run h
  refine ⟨hrecords.pdus, (follows_run hclient hclock h).performs.reports, ?_⟩
  intro log pdu now message_id status
  rw [Tracked.report, reported_eq_some_iff]
  simp only [linked_eq_some_iff]

/-- A message is accepted under `abc`, and two reports on `abc` come. -/
def twoReports : List TrafficAction :=
  [.send EsmeClient.helloMessage,
    .respond 0 (.submit_sm_resp .ESME_ROK (some [0x61, 0x62, 0x63])),
    .deliver (CacheOp.receiptPdu .ENROUTE), .deliver (CacheOp.receiptPdu .DELIVERED)]

/-- The run of it, at the end of which the first report has been sent. -/
theorem exists_run_twoReports :
    ∃ s, run (Traffic.step EsmeClient.defaultProcessors DictUse.tickingClock)
        (new EsmeClient.freshClient) twoReports = some s ∧
      s.client.send_message_channel.filterMap Published.report = [(str "m", .pending)] ∧
      ∃ call pdus, s.calls[0]? = some call ∧ call.pdus = .ok pdus ∧ pdus.length = 1 := by
  have hrun : (run (Traffic.step EsmeClient.defaultProcessors DictUse.tickingClock)
      (new EsmeClient.freshClient) twoReports).any (fun s =>
        s.client.send_message_channel.filterMap Published.report == [(str "m", .pending)] &&
          s.calls[0]?.any fun call => (call.pdus.toOption.map List.length) == some 1) = true := by
    decide +kernel
  obtain ⟨s, hs, hend⟩ := Option.any_eq_true _ _ |>.1 hrun
  obtain ⟨hreport, hcalls⟩ := Bool.and_eq_true_iff.1 hend
  obtain ⟨call, hcall, hpdus⟩ := Option.any_eq_true _ _ |>.1 hcalls
  refine ⟨s, hs, beq_iff_eq.1 hreport, call, ?_⟩
  cases hresult : call.pdus with
  | error e =>
    rw [hresult] at hpdus
    cases hpdus
  | ok pdus =>
    rw [hresult] at hpdus
    exact ⟨pdus, hcall, rfl, Option.some.inj (beq_iff_eq.1 hpdus)⟩

/-- The first report is sent with the message, and the second finds none. -/
theorem receiptPdu_reported :
    ∃ s, run (Traffic.step EsmeClient.defaultProcessors DictUse.tickingClock)
        (new EsmeClient.freshClient) twoReports = some s ∧
      s.log.filterMap Tracked.deliveredPdu =
        [CacheOp.receiptPdu .ENROUTE, CacheOp.receiptPdu .DELIVERED] ∧
      s.client.send_message_channel.filterMap Published.report = [(str "m", .pending)] ∧
      reportsAfter EsmeClient.defaultProcessors.dr_processor 86400 [] s.log =
        [(str "m", .pending)] := by
  obtain ⟨s, hs, hreport, -⟩ := exists_run_twoReports
  have hstarts : Starts 86400 EsmeClient.freshClient := ⟨rfl, rfl, rfl⟩
  obtain ⟨hpdus, hreports, -⟩ := reports_in_any_order hstarts DictUse.clocked_tickingClock hs
  exact ⟨s, hs, hpdus, hreport, hreports.symm.trans hreport⟩

/-- An acceptance for a message is in the history of a call with that message. -/
theorem Interleaves.accepted {calls : List SendCall} {log : List Tracked}
    (h : Interleaves calls log) {e : Tracked} (he : e ∈ log) {message_id : Str}
    (hmessage : e.acceptedMessage = some message_id) :
    ∃ j call id, calls[j]? = some call ∧ call.message.message_id = message_id ∧
      e.within j = some (.accepted id message_id) := by
  -- Only an acceptance is of a message.
  cases e with
  | sent i pdu => cases hmessage
  | settled i message_id reason => cases hmessage
  | delivered pdu time => cases hmessage
  | accepted j id message time =>
    obtain rfl : message = message_id := Option.some.inj hmessage
    have hwithin : (Tracked.accepted j id message time).within j = some (.accepted id message) := by
      simp [Tracked.within, Tracked.callEvent]
    have hmem : CallEvent.accepted id message ∈ log.filterMap (Tracked.within j) :=
      List.mem_filterMap.2 ⟨_, he, hwithin⟩
    -- The entry is of a call, whose history says which message it has.
    rcases Nat.lt_or_ge j calls.length with hlt | hge
    · have hj := List.getElem?_eq_getElem hlt
      rw [h.histories j _ hj, SendCall.history] at hmem
      refine ⟨j, calls[j], id, hj, ?_, hwithin⟩
      cases hpdus : calls[j].pdus with
      | error e' =>
        rw [hpdus] at hmem
        cases hmem
      | ok pdus =>
        rw [hpdus] at hmem
        exact ((accepted_historyOf _ pdus _).2 id message hmem).symm
    · rw [h.others j hge] at hmem
      cases hmem

/-- In every run, a message of `n` PDUs gets at most `n` reports, if no other message has its id. -/
theorem reports_le_pdus {client : EsmeClient} (hclient : Starts timeout client)
    (hclock : Clocked env) {actions : List TrafficAction}
    (h : run (Traffic.step P env) (new client) actions = some s) {i : ℕ} {call : SendCall}
    {pdus : List SubmitSM} (hi : s.calls[i]? = some call) (hpdus : call.pdus = .ok pdus)
    (hid : ∀ (j : ℕ) (message : Message), (actions.filterMap TrafficAction.message?)[j]? =
      some message → message.message_id = call.message.message_id → j = i) :
    (s.client.send_message_channel.filterMap Published.report).countP
      (fun report => report.1 = call.message.message_id) ≤ pdus.length := by
  have hfollows : s.Follows P timeout env := follows_run hclient hclock h
  have hmessages : s.calls.map SendCall.message = actions.filterMap TrafficAction.message? :=
    (records_run h).messages
  -- all acceptances for the message are in the history of the call
  have hwithin : ∀ e ∈ s.log, e.acceptedMessage = some call.message.message_id →
      ((e.within i).map CallEvent.isAccepted).getD false = true := by
    intro e he hmessage
    obtain ⟨j, other, id, hj, hother, hevent⟩ := hfollows.interleaves.accepted he hmessage
    have hsent : (actions.filterMap TrafficAction.message?)[j]? = some other.message := by
      rw [← hmessages, List.getElem?_map, hj]
      rfl
    obtain rfl : j = i := hid j other.message hsent hother
    rw [hevent]
    rfl
  have hhistory : s.log.filterMap (Tracked.within i) =
      historyOf call.message.message_id pdus call.got := by
    rw [hfollows.interleaves.histories i call hi, SendCall.history, hpdus]
  calc (s.client.send_message_channel.filterMap Published.report).countP
        (fun report => report.1 = call.message.message_id)
      _ ≤ s.log.countP fun e => e.acceptedMessage = some call.message.message_id := by
        rw [hfollows.performs.reports]
        exact (Nat.le_add_right _ _).trans (reports_le_accepted call.message.message_id s.log)
      _ ≤ s.log.countP fun e => ((e.within i).map CallEvent.isAccepted).getD false :=
        List.countP_mono_left fun e he hmessage => hwithin e he (of_decide_eq_true hmessage)
      _ = (s.log.filterMap (Tracked.within i)).countP CallEvent.isAccepted :=
        List.countP_filterMap.symm
      _ ≤ pdus.length := by
        rw [hhistory]
        exact (accepted_historyOf call.message.message_id pdus call.got).1

/-- Of two reports on the one PDU of a message, one is sent. -/
theorem oneReport_of_two :
    ∃ (s : Traffic) (call : SendCall) (pdus : List SubmitSM),
      run (Traffic.step EsmeClient.defaultProcessors DictUse.tickingClock)
        (new EsmeClient.freshClient) twoReports = some s ∧
      s.client.send_message_channel.filterMap Published.report = [(str "m", .pending)] ∧
      s.calls[0]? = some call ∧ call.pdus = .ok pdus ∧ pdus.length = 1 ∧
      (s.client.send_message_channel.filterMap Published.report).countP
        (fun report => report.1 = call.message.message_id) ≤ pdus.length := by
  obtain ⟨s, hs, hreport, call, pdus, hcall, hpdus, hone⟩ := exists_run_twoReports
  have hstarts : Starts 86400 EsmeClient.freshClient := ⟨rfl, rfl, rfl⟩
  refine ⟨s, call, pdus, hs, hreport, hcall, hpdus, hone, ?_⟩
  refine reports_le_pdus hstarts DictUse.clocked_tickingClock hs hcall hpdus
    fun j message hj _ => ?_
  -- one message is sent in this run
  have hlt : j < 1 := (List.getElem?_eq_some_iff.1 hj).1
  exact Nat.lt_one_iff.1 hlt

end Traffic

end Vumi2.Smpp
