import Vumi2.Lib.Machine
import Vumi2.Lib.Slots
import Vumi2.Smpp.Requests
import Vumi2.Smpp.Stream

/-!
# Responses reach the task that asked

`Table` is the invariant of the table `responses`: its keys are the numbers of the requests that are
registered and not answered, and each channel is that of its request. One half of it holds in every
run (`Table.sound`), whatever the peer sends; so a response that no request waits for raises
(`unsolicited_raises`). The other half needs that no number comes back while a request with it is
outstanding (`Timely`), and that is so as long as fewer than `0x7FFFFFFF` numbers are drawn between
a request's draw and its response.
-/

namespace Vumi2.Smpp

open Effect Eff Text Machine Slots

namespace EsmeRequests

/-- The largest sequence number, which is also how many there are. -/
def maxSequence : ℕ := 0x7FFFFFFF

/-- The number of the request at place `i`, for a sequencer that was in this state at first. -/
def number (start i : ℕ) : ℕ := (start + i) % maxSequence + 1

/-- Two requests less than a full cycle apart have different numbers. -/
theorem number_ne {start i j : ℕ} (h : i < j) (hlt : j < i + maxSequence) :
    number start i ≠ number start j := by
  unfold number maxSequence at *
  omega

/-- What holds of the table in every run. -/
structure Table (s : EsmeRequests) : Prop where
  /-- Each channel in the table is that of an outstanding request with the number. -/
  sound : ∀ n i, s.responses.get? n = some i →
    ∃ r : Request, s.requests[i]? = some r ∧ r.Outstanding ∧ r.seqNum = n
  drawn : ∀ (i : ℕ) (r : Request), s.requests[i]? = some r → r.phase = .drawn → r.answered = false
  /-- What is being handed over goes to the request with the number. -/
  handing : ∀ i pdu, s.handing = some (i, pdu) →
    ∃ r : Request, s.requests[i]? = some r ∧ r.answered = true ∧ r.seqNum = pdu.seqNum
  returned : ∀ (i : ℕ) (r : Request) (pdu : ResponsePDU), s.requests[i]? = some r →
    r.response = some pdu → pdu.seqNum = r.seqNum

/-- What an action does. -/
inductive Moves (s : EsmeRequests) : RequestAction → EsmeRequests → Prop where
  | draw (requireAck : ResponseClass) : Moves s (.draw requireAck) (s.draw requireAck)
  | register (i : ℕ) (check_response : Bool) (r : Request) (hi : s.requests[i]? = some r)
    (hphase : r.phase = .drawn) :
    Moves s (.register i check_response) { s with
      responses := s.responses.set r.seqNum i
      requests := s.requests.set i { r with phase := .sending check_response } }
  | publish (i : ℕ) (check_response : Bool) (r : Request) (hi : s.requests[i]? = some r)
    (hphase : r.phase = .sending check_response) :
    Moves s (.publish i) { s with
      requests := s.requests.set i { r with phase := .waiting check_response } }
  | arrive (pdu : ResponsePDU) (i : ℕ) (hidle : s.handing = none) (hrunning : s.raised = false)
    (hchannel : s.responses.get? pdu.seqNum = some i) :
    Moves s (.arrive pdu) { s.take i pdu with arrived := s.arrived ++ [pdu] }
  | unknown (pdu : ResponsePDU) (hidle : s.handing = none) (hrunning : s.raised = false)
    (hchannel : s.responses.get? pdu.seqNum = none) :
    Moves s (.arrive pdu) { s with raised := true, arrived := s.arrived ++ [pdu] }
  | hand (i : ℕ) (pdu : ResponsePDU) (r : Request) (check_response : Bool)
    (hhanding : s.handing = some (i, pdu)) (hi : s.requests[i]? = some r)
    (hphase : r.phase = .waiting check_response) :
    Moves s .hand { s with
      requests := s.requests.set i
        { r with phase := .returned pdu (checkResponse r.requireAck check_response pdu) }
      handing := none }

/-- A step is one of the moves of a client. -/
theorem moves_of_step {s s' : EsmeRequests} {a : RequestAction} (h : s.step a = some s') :
    s.Moves a s' := by
  cases a with
  | draw requireAck =>
    rw [← Option.some.inj h]
    exact .draw requireAck
  | register i check_response =>
    -- A move of a request is possible in one phase only.
    simp only [step, EsmeRequests.register] at h
    split at h
    · rename_i seqNum requireAck answered hi
      rw [← Option.some.inj h]
      exact .register i check_response ⟨seqNum, requireAck, .drawn, answered⟩ hi rfl
    · cases h
  | publish i =>
    simp only [step, EsmeRequests.publish] at h
    split at h
    · rename_i seqNum requireAck check_response answered hi
      rw [← Option.some.inj h]
      exact .publish i check_response ⟨seqNum, requireAck, .sending check_response, answered⟩ hi rfl
    · cases h
  | arrive pdu =>
    simp only [step, EsmeRequests.arrive] at h
    -- No response is being handed over, and the client has not raised.
    split_ifs at h with hguard
    obtain ⟨hidle, hrunning⟩ := hguard
    split at h
    · rename_i i hchannel
      rw [← Option.some.inj h]
      exact .arrive pdu i hidle hrunning hchannel
    · rename_i hchannel
      rw [← Option.some.inj h]
      exact .unknown pdu hidle hrunning hchannel
  | hand =>
    simp only [step, EsmeRequests.hand] at h
    split at h
    · rename_i i pdu hhanding
      split at h
      · rename_i seqNum requireAck check_response answered hi
        rw [← Option.some.inj h]
        exact .hand i pdu ⟨seqNum, requireAck, .waiting check_response, answered⟩ check_response
          hhanding hi rfl
      · cases h
    · cases h

/-- A request of which only the number was drawn is not outstanding. -/
theorem not_outstanding_of_drawn {r : Request} (h : r.phase = .drawn) : ¬ r.Outstanding := by
  rintro ⟨-, hphase⟩
  rw [h] at hphase
  exact hphase

/-- A request that is sent was outstanding before, if it is now. -/
theorem outstanding_of_publish {r : Request} {check_response : Bool}
    (hphase : r.phase = .sending check_response)
    (h : ({ r with phase := .waiting check_response } : Request).Outstanding) : r.Outstanding := by
  refine ⟨h.1, ?_⟩
  rw [hphase]
  trivial

/-- A request that was answered is not outstanding. -/
theorem not_outstanding_of_answered {r : Request} (h : r.answered = true) : ¬ r.Outstanding := by
  rintro ⟨hanswered, -⟩
  rw [h] at hanswered
  cases hanswered

/-- A request that is taken out of the table is answered. -/
theorem requests_take {s : EsmeRequests} {i : ℕ} {r : Request} (hi : s.requests[i]? = some r)
    (pdu : ResponsePDU) :
    (s.take i pdu).requests = s.requests.set i { r with answered := true } := by
  obtain ⟨hlt, hr⟩ := List.getElem?_eq_some_iff.1 hi
  show s.requests.modify i _ = _
  rw [List.modify_eq_set_getElem?, hi]
  rfl

/-- The table of a new client is empty. -/
theorem table_new (sequencer : InMemorySequencer) : (new sequencer).Table where
  sound := fun n i h => by cases h
  drawn := fun i r h => by cases h
  handing := fun i pdu h => by cases h
  returned := fun i r pdu h => by cases h

/-- A change of one request keeps the table sound, if it leaves the number of the request as it was,
and the channels and the response that is being handed over still fit it. -/
theorem Table.change {s s' : EsmeRequests} (h : s.Table) {i : ℕ} {r r' : Request}
    (hi : s.requests[i]? = some r) (hrequests : s'.requests = s.requests.set i r')
    (hn : r'.seqNum = r.seqNum)
    (hsound : ∀ n j, s'.responses.get? n = some j →
      (j = i ∧ r.seqNum = n ∧ r'.Outstanding) ∨
        s.responses.get? n = some j ∧ (r.Outstanding → r.seqNum = n → r'.Outstanding))
    (hdrawn : r'.phase = .drawn → r'.answered = false)
    (hhanding : ∀ j pdu, s'.handing = some (j, pdu) →
      (j = i ∧ r'.answered = true ∧ r.seqNum = pdu.seqNum) ∨
        s.handing = some (j, pdu) ∧ (r.answered = true → r'.answered = true))
    (hreturned : ∀ pdu, r'.response = some pdu → pdu.seqNum = r.seqNum) : s'.Table where
  -- The channel is that of the request that changed, or one that was there before.
  sound := by
    intro n j hchannel
    rw [hrequests]
    rcases hsound n j hchannel with ⟨rfl, rfl, hr'⟩ | ⟨hold, hkeep⟩
    · exact ⟨r', (getElem?_set_eq_some hi).2 (.inl ⟨rfl, rfl⟩), hr', hn⟩
    · exact exists_getElem?_set hi (h.sound n j hold) fun ⟨hr, hrn⟩ =>
        ⟨hkeep hr hrn, hn.trans hrn⟩
  drawn := by
    rw [hrequests]
    exact forall_getElem?_set hi (fun j q _ hj => h.drawn j q hj) hdrawn
  handing := by
    intro j pdu hnow
    rw [hrequests]
    rcases hhanding j pdu hnow with ⟨rfl, hanswered, hrn⟩ | ⟨hold, hkeep⟩
    · exact ⟨r', (getElem?_set_eq_some hi).2 (.inl ⟨rfl, rfl⟩), hanswered, hn.trans hrn⟩
    · exact exists_getElem?_set hi (h.handing j pdu hold) fun ⟨hr, hrn⟩ =>
        ⟨hkeep hr, hn.trans hrn⟩
  returned := by
    intro j q pdu hj
    rw [hrequests] at hj
    refine forall_getElem?_set hi (fun j q _ hj => h.returned j q pdu hj) ?_ j q hj
    intro hresponse
    rw [hn]
    exact hreturned pdu hresponse

/-- Drawing a number leaves the table. -/
theorem Table.draw {s : EsmeRequests} (h : s.Table) (requireAck : ResponseClass) :
    (s.draw requireAck).Table where
  sound := by
    intro n i hchannel
    obtain ⟨r, hi, hr⟩ := h.sound n i hchannel
    exact ⟨r, getElem?_append_singleton.2 (.inl hi), hr⟩
  drawn := by
    intro i r hi hphase
    rcases getElem?_append_singleton.1 hi with hi | ⟨-, rfl⟩
    · exact h.drawn i r hi hphase
    · rfl
  handing := by
    intro i pdu hhanding
    obtain ⟨r, hi, hr⟩ := h.handing i pdu hhanding
    exact ⟨r, getElem?_append_singleton.2 (.inl hi), hr⟩
  returned := by
    intro i r pdu hi hresponse
    rcases getElem?_append_singleton.1 hi with hi | ⟨-, rfl⟩
    · exact h.returned i r pdu hi hresponse
    · cases hresponse

/-- Taking a request out of the table answers it. -/
theorem Table.taken {s : EsmeRequests} (h : s.Table) {pdu : ResponsePDU} {i : ℕ}
    (hchannel : s.responses.get? pdu.seqNum = some i) :
    ({ s.take i pdu with arrived := s.arrived ++ [pdu] } : EsmeRequests).Table := by
  obtain ⟨r, hi, hr, hn⟩ := h.sound _ i hchannel
  refine h.change hi (requests_take hi pdu) rfl ?_ ?_ ?_ ?_
  · -- No channel is left under the number of the request.
    intro n j hchannel'
    have herase : (s.responses.erase pdu.seqNum).get? n = some j := hchannel'
    rw [Dict.get?_erase] at herase
    split_ifs at herase with hne
    exact .inr ⟨herase, fun _ hrn => absurd (hrn.symm.trans hn) hne⟩
  · intro hphase
    exact absurd hr (not_outstanding_of_drawn hphase)
  · intro j pdu' hhanding
    obtain ⟨rfl, rfl⟩ : i = j ∧ pdu = pdu' := Prod.mk.inj (Option.some.inj hhanding)
    exact .inl ⟨rfl, rfl, hn⟩
  · exact fun pdu' => h.returned i r pdu' hi

/-- Every action keeps the table sound. -/
theorem Table.step {s s' : EsmeRequests} {a : RequestAction} (h : s.Table)
    (hstep : s.step a = some s') : s'.Table := by
  cases moves_of_step hstep with
  | draw requireAck => exact h.draw requireAck
  | register i check_response r hi hphase =>
    have hanswered := h.drawn i r hi hphase
    refine h.change hi rfl rfl ?_ (fun _ => hanswered) (fun j pdu hhanding => .inr ⟨hhanding, id⟩)
      (fun pdu hresponse => by cases hresponse)
    intro n j hchannel
    rw [Dict.get?_set] at hchannel
    split_ifs at hchannel with hn
    · obtain rfl := Option.some.inj hchannel
      exact .inl ⟨rfl, hn.symm, hanswered, trivial⟩
    · -- The request was not in the table before.
      exact .inr ⟨hchannel, fun hr => absurd hr (not_outstanding_of_drawn hphase)⟩
  | publish i check_response r hi hphase =>
    exact h.change hi rfl rfl (fun n j hchannel => .inr ⟨hchannel, fun hr _ => ⟨hr.1, trivial⟩⟩)
      (fun hphase' => by cases hphase') (fun j pdu hhanding => .inr ⟨hhanding, id⟩)
      (fun pdu hresponse => by cases hresponse)
  | arrive pdu i hidle hrunning hchannel => exact h.taken hchannel
  | unknown pdu hidle hrunning hchannel => exact ⟨h.sound, h.drawn, h.handing, h.returned⟩
  | hand i pdu r check_response hhanding hi hphase =>
    obtain ⟨r', hi', hanswered, hn⟩ := h.handing i pdu hhanding
    obtain rfl := Option.some.inj (hi.symm.trans hi')
    refine h.change hi rfl rfl ?_ (fun hphase' => by cases hphase')
      (fun j pdu' hnone => by cases hnone) ?_
    · exact fun n j hchannel =>
        .inr ⟨hchannel, fun hr => absurd hr (not_outstanding_of_answered hanswered)⟩
    · intro pdu' hresponse
      obtain rfl : pdu = pdu' := Option.some.inj hresponse
      exact hn.symm

/-! ## A peer that answers -/

/-- The responses that the tasks have got. -/
def got (s : EsmeRequests) : List ResponsePDU := s.requests.filterMap Request.response

/-- The response that is being handed over. -/
def beingHanded (s : EsmeRequests) : List ResponsePDU := (s.handing.map Prod.snd).toList

/-- Fewer than `0x7FFFFFFF` numbers are drawn between the draw of a request and its response. -/
def Timely (s : EsmeRequests) : RequestAction → Prop
  | .draw _ => ∀ i r, s.requests[i]? = some r → r.Outstanding → s.requests.length < i + maxSequence
  | .register i _ => s.requests.length < i + 1 + maxSequence
  | _ => True

/-- The peer answers a request that was sent, and that it has not answered. -/
def Honest (s : EsmeRequests) : RequestAction → Prop
  | .arrive pdu => ∃ (i : ℕ) (r : Request), s.requests[i]? = some r ∧ r.Sent ∧
      r.answered = false ∧ r.seqNum = pdu.seqNum
  | _ => True

/-- What holds besides, in a run with such a peer. -/
structure Exact (start : ℕ) (s : EsmeRequests) : Prop where
  table : s.Table
  sequencer : s.sequencer.sequence_number % maxSequence = (start + s.requests.length) % maxSequence
  numbers : ∀ (i : ℕ) (r : Request), s.requests[i]? = some r → r.seqNum = number start i
  /-- The number of an outstanding request has not come back. -/
  fresh : ∀ (i : ℕ) (r : Request), s.requests[i]? = some r → r.Outstanding →
    s.requests.length < i + 1 + maxSequence
  /-- An outstanding request has its channel in the table. -/
  complete : ∀ (i : ℕ) (r : Request), s.requests[i]? = some r → r.Outstanding →
    s.responses.get? r.seqNum = some i
  sent : ∀ (i : ℕ) (pdu : ResponsePDU), s.handing = some (i, pdu) →
    ∃ r : Request, s.requests[i]? = some r ∧ r.Sent
  running : s.raised = false
  arrived : s.arrived.Perm (s.got ++ s.beingHanded)

/-- A new client has drawn no number. -/
theorem exact_new (sequencer : InMemorySequencer) :
    (new sequencer).Exact sequencer.sequence_number where
  table := table_new sequencer
  sequencer := rfl
  numbers := fun i r h => by cases h
  fresh := fun i r h => by cases h
  complete := fun i r h => by cases h
  sent := fun i pdu h => by cases h
  running := rfl
  arrived := List.Perm.nil

/-- A request has a place among those drawn. -/
theorem lt_length_of_getElem? {s : EsmeRequests} {i : ℕ} {r : Request}
    (h : s.requests[i]? = some r) : i < s.requests.length := (List.getElem?_eq_some_iff.1 h).1

/-- A number is not that of another outstanding request, if it is not older than a cycle. -/
theorem Exact.number_free {start : ℕ} {s : EsmeRequests} (h : s.Exact start) {i j : ℕ}
    {r q : Request} (hi : s.requests[i]? = some r) (hj : s.requests[j]? = some q) (hne : j ≠ i)
    (hfresh : s.requests.length < i + 1 + maxSequence) (hq : q.Outstanding) :
    q.seqNum ≠ r.seqNum := by
  have hilen := lt_length_of_getElem? hi
  have hjlen := lt_length_of_getElem? hj
  have hqfresh := h.fresh j q hj hq
  rw [h.numbers i r hi, h.numbers j q hj]
  rcases Nat.lt_or_gt_of_ne hne with hlt | hgt
  · exact number_ne hlt (by omega)
  · exact (number_ne hgt (by omega)).symm

/-- So registering the request overwrites nothing. -/
theorem Exact.free {start : ℕ} {s : EsmeRequests} (h : s.Exact start) {i : ℕ} {r : Request}
    (hi : s.requests[i]? = some r) (hphase : r.phase = .drawn)
    (hfresh : s.requests.length < i + 1 + maxSequence) : s.responses.get? r.seqNum = none := by
  by_contra hsome
  obtain ⟨j, hj⟩ := Option.ne_none_iff_exists'.1 hsome
  obtain ⟨q, hjq, hq, hn⟩ := h.table.sound _ j hj
  refine h.number_free hi hjq ?_ hfresh hq hn
  rintro rfl
  obtain rfl := Option.some.inj (hi.symm.trans hjq)
  exact not_outstanding_of_drawn hphase hq

/-- An answer of the peer finds its request in the table. -/
theorem Exact.channel_of_honest {start : ℕ} {s : EsmeRequests} (h : s.Exact start)
    {pdu : ResponsePDU} (hhonest : s.Honest (.arrive pdu)) :
    ∃ i r, s.requests[i]? = some r ∧ r.Sent ∧ r.seqNum = pdu.seqNum ∧
      s.responses.get? pdu.seqNum = some i := by
  obtain ⟨i, r, hi, hsent, hanswered, hn⟩ := hhonest
  have hr : r.Outstanding := by
    refine ⟨hanswered, ?_⟩
    unfold Request.Sent at hsent
    split at hsent
    · rename_i hphase
      rw [hphase]
      trivial
    · exact hsent.elim
  refine ⟨i, r, hi, hsent, hn, ?_⟩
  rw [← hn]
  exact h.complete i r hi hr

/-- A change of one request keeps all of it, if it leaves the numbers as they were, the channels of
the others too, and the channel of the request itself while it is outstanding. -/
theorem Exact.change {start : ℕ} {s s' : EsmeRequests} (h : s.Exact start) {i : ℕ}
    {r r' : Request} (hi : s.requests[i]? = some r)
    (hrequests : s'.requests = s.requests.set i r') (hn : r'.seqNum = r.seqNum)
    (htable : s'.Table) (hsequencer : s'.sequencer = s.sequencer) (hrunning : s'.raised = false)
    (hfresh : r'.Outstanding → s.requests.length < i + 1 + maxSequence)
    (hcomplete : r'.Outstanding → s'.responses.get? r.seqNum = some i)
    (hothers : ∀ j q, j ≠ i → s.requests[j]? = some q → q.Outstanding →
      s'.responses.get? q.seqNum = s.responses.get? q.seqNum)
    (hsent : ∀ j pdu, s'.handing = some (j, pdu) →
      ∃ q : Request, (s.requests.set i r')[j]? = some q ∧ q.Sent)
    (harrived : s'.arrived.Perm
      ((s.requests.set i r').filterMap Request.response ++ s'.beingHanded)) :
    s'.Exact start := by
  have hlen : s'.requests.length = s.requests.length := by
    rw [hrequests]
    exact List.length_set
  -- The parts are those of the structure; each looks at the changed request or at the others.
  refine ⟨htable, ?_, ?_, ?_, ?_, ?_, hrunning, ?_⟩
  · rw [hsequencer, hlen]
    exact h.sequencer
  · rw [hrequests]
    exact forall_getElem?_set hi (fun j q _ hj => h.numbers j q hj)
      (hn.trans (h.numbers i r hi))
  · rw [hlen, hrequests]
    exact forall_getElem?_set hi (fun j q _ hj => h.fresh j q hj) hfresh
  · rw [hrequests]
    refine forall_getElem?_set hi (fun j q hne hj hq => ?_) (fun hr' => ?_)
    · rw [hothers j q hne hj hq]
      exact h.complete j q hj hq
    · rw [hn]
      exact hcomplete hr'
  · rw [hrequests]
    exact hsent
  · unfold got
    rw [hrequests]
    exact harrived

/-- A new number is drawn. -/
theorem Exact.draw {start : ℕ} {s : EsmeRequests} (h : s.Exact start) {requireAck : ResponseClass}
    (htimely : s.Timely (.draw requireAck)) : (s.draw requireAck).Exact start := by
  have hlen : (s.draw requireAck).requests.length = s.requests.length + 1 := by
    show (s.requests ++ [_]).length = _
    rw [List.length_append, List.length_singleton]
  have hseq := h.sequencer
  -- The new number follows the last one, and none that is outstanding has come round again.
  refine ⟨h.table.draw requireAck, ?_, ?_, ?_, ?_, ?_, h.running, ?_⟩
  · show (s.sequencer.sequence_number % maxSequence + 1) % maxSequence = _
    rw [hlen, hseq]
    unfold maxSequence
    omega
  · intro i r hi
    rcases getElem?_append_singleton.1 hi with hi | ⟨rfl, rfl⟩
    · exact h.numbers i r hi
    · show s.sequencer.sequence_number % maxSequence + 1 = _
      rw [hseq]
      rfl
  · intro i r hi hr
    rw [hlen]
    rcases getElem?_append_singleton.1 hi with hi | ⟨rfl, rfl⟩
    · have hdrawn := htimely i r hi hr
      omega
    · exact absurd hr (not_outstanding_of_drawn rfl)
  · intro i r hi hr
    rcases getElem?_append_singleton.1 hi with hi | ⟨rfl, rfl⟩
    · exact h.complete i r hi hr
    · exact absurd hr (not_outstanding_of_drawn rfl)
  · intro i pdu hhanding
    obtain ⟨r, hi, hr⟩ := h.sent i pdu hhanding
    exact ⟨r, getElem?_append_singleton.2 (.inl hi), hr⟩
  · have hgot : (s.draw requireAck).got = s.got := by
      show (s.requests ++ [_]).filterMap Request.response = _
      rw [List.filterMap_append]
      exact List.append_nil _
    rw [hgot]
    exact h.arrived

/-- A request whose response does not change keeps what the tasks have got. -/
theorem Exact.arrived_set {start : ℕ} {s : EsmeRequests} (h : s.Exact start) {i : ℕ}
    {r r' : Request} (hi : s.requests[i]? = some r) (hresponse : r'.response = r.response) :
    s.arrived.Perm ((s.requests.set i r').filterMap Request.response ++ s.beingHanded) := by
  rw [filterMap_set_keep Request.response hi r' hresponse]
  exact h.arrived

/-- An answer of the peer is taken for its request. -/
theorem Exact.taken {start : ℕ} {s : EsmeRequests} (h : s.Exact start) {pdu : ResponsePDU} {i : ℕ}
    (hhonest : s.Honest (.arrive pdu)) (hidle : s.handing = none)
    (hchannel : s.responses.get? pdu.seqNum = some i) :
    ({ s.take i pdu with arrived := s.arrived ++ [pdu] } : EsmeRequests).Exact start := by
  obtain ⟨i', r, hi, hsent, -, hchannel'⟩ := h.channel_of_honest hhonest
  obtain rfl : i = i' := Option.some.inj (hchannel.symm.trans hchannel')
  have hanswered : ¬ ({ r with answered := true } : Request).Outstanding :=
    not_outstanding_of_answered rfl
  refine h.change hi (requests_take hi pdu) rfl (h.table.taken hchannel) rfl h.running
    (fun hr => absurd hr hanswered) (fun hr => absurd hr hanswered) ?_ ?_ ?_
  · -- The channel that was taken is not that of another request.
    intro j q hne hj hq
    have hother : q.seqNum ≠ pdu.seqNum := by
      intro heq
      have hcomplete := h.complete j q hj hq
      rw [heq, hchannel] at hcomplete
      exact hne (Option.some.inj hcomplete).symm
    exact Dict.get?_erase_of_ne _ hother
  · intro j pdu' hhanding
    obtain ⟨rfl, rfl⟩ : i = j ∧ pdu = pdu' := Prod.mk.inj (Option.some.inj hhanding)
    exact ⟨_, (getElem?_set_eq_some hi).2 (.inl ⟨rfl, rfl⟩), hsent⟩
  · -- Nothing was being handed over, and now the response is.
    have hnone : s.beingHanded = [] := by rw [beingHanded, hidle]; rfl
    have hkeep : ({ r with answered := true } : Request).response = r.response := rfl
    have hgot := h.arrived_set hi hkeep
    rw [hnone, List.append_nil] at hgot
    exact hgot.append_right [pdu]

/-- The response goes from `handle_pdu` to the task. -/
theorem Exact.handed {start : ℕ} {s : EsmeRequests} (h : s.Exact start) {i : ℕ} {pdu : ResponsePDU}
    {r : Request} {check_response : Bool} {result : Except PyExc ResponsePDU}
    (hhanding : s.handing = some (i, pdu)) (hi : s.requests[i]? = some r)
    (hphase : r.phase = .waiting check_response)
    (htable : ({ s with
      requests := s.requests.set i { r with phase := .returned pdu result }
      handing := none } : EsmeRequests).Table) :
    ({ s with
      requests := s.requests.set i { r with phase := .returned pdu result }
      handing := none } : EsmeRequests).Exact start := by
  -- The request has its answer, so it is not outstanding any more.
  obtain ⟨r', hi', hanswered, -⟩ := h.table.handing i pdu hhanding
  obtain rfl := Option.some.inj (hi.symm.trans hi')
  have hreturned : ¬ ({ r with phase := .returned pdu result } : Request).Outstanding :=
    not_outstanding_of_answered hanswered
  refine h.change hi rfl rfl htable rfl h.running (fun hr => absurd hr hreturned)
    (fun hr => absurd hr hreturned) (fun j q _ _ _ => rfl) (fun j pdu' hnone => by cases hnone) ?_
  -- What was being handed over is now what the request returns.
  have hnone : r.response = none := by rw [Request.response, hphase]
  have htake := filterMap_set_take Request.response hi { r with phase := .returned pdu result }
    hnone rfl
  have harrived := h.arrived
  unfold beingHanded at harrived
  rw [hhanding] at harrived
  show s.arrived.Perm ((s.requests.set i _).filterMap Request.response ++ [])
  rw [List.append_nil]
  exact harrived.trans ((List.perm_append_singleton _ _).trans htake.symm)

/-- Every timely action of an honest peer and the tasks keeps the table exact. -/
theorem Exact.step {start : ℕ} {s s' : EsmeRequests} {a : RequestAction} (h : s.Exact start)
    (htimely : s.Timely a) (hhonest : s.Honest a) (hstep : s.step a = some s') :
    s'.Exact start := by
  have htable := h.table.step hstep
  cases moves_of_step hstep with
  | draw requireAck => exact h.draw htimely
  | register i check_response r hi hphase =>
    have hnone : r.response = none := by rw [Request.response, hphase]
    refine h.change hi rfl rfl htable rfl h.running (fun _ => htimely)
      (fun _ => Dict.get?_set_self _ _ _) ?_ ?_ (h.arrived_set hi hnone.symm)
    · -- The other outstanding requests have other numbers.
      intro j q hne hj hq
      exact Dict.get?_set_of_ne _ _ (h.number_free hi hj hne htimely hq)
    · intro j pdu hhanding
      refine exists_getElem?_set hi (h.sent j pdu hhanding) fun hsent => ?_
      rw [Request.Sent, hphase] at hsent
      exact hsent.elim
  | publish i check_response r hi hphase =>
    have hnone : r.response = none := by rw [Request.response, hphase]
    exact h.change hi rfl rfl htable rfl h.running
      (fun hr => h.fresh i r hi (outstanding_of_publish hphase hr))
      (fun hr => h.complete i r hi (outstanding_of_publish hphase hr)) (fun j q _ _ _ => rfl)
      (fun j pdu hhanding => exists_getElem?_set hi (h.sent j pdu hhanding) fun _ => trivial)
      (h.arrived_set hi hnone.symm)
  | arrive pdu i hidle hrunning hchannel => exact h.taken hhonest hidle hchannel
  | unknown pdu hidle hrunning hchannel =>
    -- An honest peer answers only what has its channel in the table.
    obtain ⟨i, r, -, -, -, hsome⟩ := h.channel_of_honest hhonest
    rw [hchannel] at hsome
    cases hsome
  | hand i pdu r check_response hhanding hi hphase => exact h.handed hhanding hi hphase htable

/-- The requests and the responses of a client match. -/
structure Correlated (s : EsmeRequests) : Prop where
  in_range : ∀ r ∈ s.requests, 1 ≤ r.seqNum ∧ r.seqNum ≤ maxSequence
  /-- The keys of the table are the numbers of the registered requests that are not answered, -/
  keys : ∀ n, n ∈ s.responses.keys ↔ ∃ r ∈ s.requests, r.Outstanding ∧ r.seqNum = n
  /-- and each channel is that of its request. -/
  channel : ∀ n i, s.responses.get? n = some i ↔
    ∃ r : Request, s.requests[i]? = some r ∧ r.Outstanding ∧ r.seqNum = n
  /-- A registration overwrites nothing. -/
  free : ∀ i check_response s', s.Timely (.register i check_response) →
    s.register i check_response = some s' →
      ∃ r : Request, s.requests[i]? = some r ∧ s.responses.get? r.seqNum = none
  /-- A task gets only a response with the number of its request. -/
  returned : ∀ r ∈ s.requests, ∀ pdu : ResponsePDU, r.response = some pdu → pdu.seqNum = r.seqNum
  /-- The response that is being handed over is taken by the task with its number, which waits. -/
  handing : ∀ i pdu, s.handing = some (i, pdu) → (∃ s', s.hand = some s') ∧
    ∃ r : Request, s.requests[i]? = some r ∧ r.seqNum = pdu.seqNum
  /-- Every response has gone to one task, or is being handed over. -/
  arrived : s.arrived.Perm (s.got ++ s.beingHanded)
  running : s.raised = false

/-- In a run with such a peer, the requests and the responses match. -/
theorem Exact.correlated {start : ℕ} {s : EsmeRequests} (h : s.Exact start) : s.Correlated := by
  have hchannel : ∀ n i, s.responses.get? n = some i ↔
      ∃ r : Request, s.requests[i]? = some r ∧ r.Outstanding ∧ r.seqNum = n := by
    intro n i
    constructor
    · exact h.table.sound n i
    · rintro ⟨r, hi, hr, rfl⟩
      exact h.complete i r hi hr
  constructor
  · -- The numbers count round from one.
    intro r hr
    obtain ⟨i, hi⟩ := List.mem_iff_getElem?.1 hr
    rw [h.numbers i r hi]
    unfold number maxSequence
    omega
  · intro n
    rw [← not_iff_not, ← Dict.get?_eq_none, Option.eq_none_iff_forall_ne_some]
    constructor
    · rintro hnone ⟨r, hr, hout, hn⟩
      obtain ⟨i, hi⟩ := List.mem_iff_getElem?.1 hr
      exact hnone i ((hchannel n i).2 ⟨r, hi, hout, hn⟩)
    · intro hnone i hi
      obtain ⟨r, hr, hout, hn⟩ := (hchannel n i).1 hi
      exact hnone ⟨r, List.mem_of_getElem? hr, hout, hn⟩
  · exact hchannel
  · -- A registration in time finds its number free.
    intro i check_response s' htimely hregister
    cases moves_of_step (a := .register i check_response) hregister with
    | register _ _ r hi hphase => exact ⟨r, hi, h.free hi hphase htimely⟩
  · intro r hr pdu hresponse
    obtain ⟨i, hi⟩ := List.mem_iff_getElem?.1 hr
    exact h.table.returned i r pdu hi hresponse
  · -- The task that the response is for has sent its request, so it waits.
    intro i pdu hhanding
    obtain ⟨r, hi, hanswered, hn⟩ := h.table.handing i pdu hhanding
    obtain ⟨r', hi', hsent⟩ := h.sent i pdu hhanding
    obtain rfl := Option.some.inj (hi.symm.trans hi')
    refine ⟨?_, r, hi, hn⟩
    obtain ⟨seqNum, requireAck, phase, answered⟩ := r
    cases phase with
    | waiting check_response =>
      unfold hand
      rw [hhanding]
      dsimp only
      rw [hi]
      exact ⟨_, rfl⟩
    | drawn | sending | returned => exact hsent.elim
  · exact h.arrived
  · exact h.running

/-- Every interleaving of draws, registrations, sends and arriving responses leaves the requests and
the responses matched, if no number comes back while its request is outstanding, and the peer
answers each request that was sent at most once. -/
theorem correlated_of_run {sequencer : InMemorySequencer} {as : List RequestAction}
    {s : EsmeRequests} (hok : Meets step (fun s a => s.Timely a ∧ s.Honest a) (new sequencer) as)
    (hrun : run step (new sequencer) as = some s) : s.Correlated := by
  have h : s.Exact sequencer.sequence_number :=
    run_induction step (fun _ _ _ h hok hstep => Exact.step h hok.1 hok.2 hstep)
      (exact_new sequencer) hok hrun
  exact h.correlated

/-- An `EnquireLinkResp` to the first request of a sequencer that starts over. -/
def firstResponse : ResponsePDU := ⟨.enquire_link_resp, 1, .ESME_ROK⟩

/-- The request that it answers. -/
def enquireRun : List RequestAction :=
  [.draw .enquire_link_resp, .register 0 true, .publish 0, .arrive firstResponse, .hand]

/-- The client after it. -/
def enquiredClient : EsmeRequests where
  sequencer := ⟨1⟩
  responses := Dict.empty
  requests := [⟨1, .enquire_link_resp, .returned firstResponse (.ok firstResponse), true⟩]
  handing := none
  raised := false
  arrived := [firstResponse]

/-- The run of the two enquiries. -/
theorem run_enquireRun : run step (new ⟨0x7FFFFFFF⟩) enquireRun = some enquiredClient := by
  rfl

/-- A `SubmitSMResp` to the second request. -/
def secondResponse : ResponsePDU := ⟨.submit_sm_resp, 2, .ESME_ROK⟩

/-- Two requests, of which the second is answered before the first. -/
def overtakenRun : List RequestAction :=
  [.draw .enquire_link_resp, .draw .submit_sm_resp, .register 0 true, .register 1 false, .publish 0,
    .publish 1, .arrive secondResponse, .hand, .arrive firstResponse, .hand]

/-- The client after it. -/
def overtakenClient : EsmeRequests where
  sequencer := ⟨2⟩
  responses := Dict.empty
  requests := [⟨1, .enquire_link_resp, .returned firstResponse (.ok firstResponse), true⟩,
    ⟨2, .submit_sm_resp, .returned secondResponse (.ok secondResponse), true⟩]
  handing := none
  raised := false
  arrived := [secondResponse, firstResponse]

/-- Each response goes to its request. -/
theorem overtakenClient_correlated :
    run step (new ⟨0x7FFFFFFF⟩) overtakenRun = some overtakenClient ∧
      overtakenClient.Correlated := by
  have hrun : run step (new ⟨0x7FFFFFFF⟩) overtakenRun = some overtakenClient := rfl
  refine ⟨hrun, correlated_of_run ?_ hrun⟩
  have hdraw : ∀ n i : ℕ, n < 2 → n < i + maxSequence := by
    intro n i hn
    unfold maxSequence
    omega
  refine meets_cons step ⟨fun i r _ _ => hdraw 0 i (by decide), trivial⟩ rfl ?_
  refine meets_cons step ⟨fun i r _ _ => hdraw 1 i (by decide), trivial⟩ rfl ?_
  refine meets_cons step ⟨by show 2 < 0 + 1 + 0x7FFFFFFF; omega, trivial⟩ rfl ?_
  refine meets_cons step ⟨by show 2 < 1 + 1 + 0x7FFFFFFF; omega, trivial⟩ rfl ?_
  refine meets_cons step ⟨trivial, trivial⟩ rfl ?_
  refine meets_cons step ⟨trivial, trivial⟩ rfl ?_
  -- The peer answers the second request, and then the first.
  refine meets_cons step ⟨trivial, ⟨1, _, rfl, trivial, rfl, rfl⟩⟩ rfl ?_
  refine meets_cons step ⟨trivial, trivial⟩ rfl ?_
  refine meets_cons step ⟨trivial, ⟨0, _, rfl, trivial, rfl, rfl⟩⟩ rfl ?_
  exact meets_cons step ⟨trivial, trivial⟩ rfl trivial

/-! ## Responses that no request waits for -/

/-- No outstanding request has the number of the response. -/
def Unsolicited (s : EsmeRequests) (pdu : ResponsePDU) : Prop :=
  ∀ r ∈ s.requests, r.Outstanding → r.seqNum ≠ pdu.seqNum

/-- `handle_pdu` returns, and leaves the client as it was. -/
def Harmless (s : EsmeRequests) (pdu : ResponsePDU) : Prop :=
  ∀ env, ((handleResponse pdu).run env s).result = .ok () ∧
    ((handleResponse pdu).run env s).state = s

/-- What `consume_stream` does with a PDU that is a response. -/
def onResponse (decode : Bytes → Except PyExc ResponsePDU) (data : Bytes) :
    Py EsmeRequests PUnit := do
  let pdu ← ofExcept (decode data)
  handleResponse pdu

/-- In every reachable state, whatever the peer has sent, a response that no request waits for makes
`handle_pdu` raise, and `consume_stream` with it. -/
theorem unsolicited_raises {sequencer : InMemorySequencer} {as : List RequestAction}
    {s : EsmeRequests} (hrun : run step (new sequencer) as = some s) {pdu : ResponsePDU}
    (hpdu : s.Unsolicited pdu) :
    ¬ s.Harmless pdu ∧
      ∀ decode data rounds env, IsFrame data → decode data = .ok pdu → 1 < rounds →
        ((StreamReader.consumeStream (onResponse decode) rounds [data]).run env ⟨[], s⟩).result =
          .error .keyError := by
  have htable : s.Table := run_invariant step (fun _ _ _ h hstep => Table.step h hstep)
    (table_new sequencer) hrun
  -- A channel of this number would be that of an outstanding request.
  have hnone : s.responses.get? pdu.seqNum = none := by
    by_contra hsome
    obtain ⟨i, hi⟩ := Option.ne_none_iff_exists'.1 hsome
    obtain ⟨r, hr, hout, hn⟩ := htable.sound _ i hi
    exact hpdu r (List.mem_of_getElem? hr) hout hn
  constructor
  · intro hharmless
    obtain ⟨hresult, -⟩ := hharmless fun _ => ⟨0, [], DateTime.min⟩
    rw [run_handleResponse_unknown hnone] at hresult
    cases hresult
  · intro decode data rounds env hframe hdecode hrounds
    have hframes : ∀ f ∈ [data], IsFrame f := by
      intro f hf
      rw [List.mem_singleton.1 hf]
      exact hframe
    -- The frame is cut off whole, and is the only one.
    have hdrains : Framing.Drains extractPdu ([] ++ [data].flatten) [data] [] := by
      have hnil : extractPdu [] = (none, []) := rfl
      have hdrains := drains_frames hframes hnil
      rwa [List.append_nil] at hdrains
    have hhandles :=
      StreamReader.handles_consumeStream (onResponse decode) rfl hdrains hrounds env s
    have hraises : (onResponse decode data).run env s = ⟨.error .keyError, 0, s⟩ := by
      rw [onResponse, hdecode, run_ofExcept_ok_bind, run_handleResponse_unknown hnone]
    rw [hhandles.result, List.forM_cons, run_bind_error hraises]
    rfl

/-- The response has been answered already, and comes again. -/
theorem repeated_response_raises :
    run step (new ⟨0x7FFFFFFF⟩) enquireRun = some enquiredClient ∧
      enquiredClient.Unsolicited firstResponse ∧ ¬ enquiredClient.Harmless firstResponse := by
  refine ⟨run_enquireRun, ?_, ?_⟩
  · intro r hr hout
    rw [List.mem_singleton.1 hr] at hout
    exact absurd hout (not_outstanding_of_answered rfl)
  · intro hharmless
    obtain ⟨hresult, -⟩ := hharmless fun _ => ⟨0, [], DateTime.min⟩
    rw [run_handleResponse_unknown rfl] at hresult
    cases hresult

/-- A client that has sent nothing gets a `GenericNack`. -/
theorem unsolicited_raises_new :
    ¬ (new ⟨0⟩).Harmless ⟨.generic_nack, 1, .ESME_ROK⟩ := by
  have hpdu : (new ⟨0⟩).Unsolicited ⟨.generic_nack, 1, .ESME_ROK⟩ :=
    fun r hr => absurd hr List.not_mem_nil
  have hrun : run step (new ⟨0⟩) [] = some (new ⟨0⟩) := rfl
  exact (unsolicited_raises hrun hpdu).1

end EsmeRequests

end Vumi2.Smpp
