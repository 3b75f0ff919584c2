import Vumi2.HttpRpc.Requests
import Vumi2.Lib.Slots

/-!
# A reply is acknowledged if the user gets it

A reply that finds its request is acknowledged, and the call of `inbound_request` that waits for it
returns it: this holds in every run in which no call is interrupted once a reply was stored for it,
no reply comes for a call that is already leaving, and no reply of a transport that does not look
for the request first comes after another (`Prompt`, `replies_faithful`).

The invariant says of each call of `inbound_request` what its request looks like at its stage
(`Fits`). A step changes the request of one identifier, and the others look as they did
(`SameView`); so for each step there is only the one call to see to.

Without the condition a reply may be acknowledged and never reach the user, or the user may get a
reply whose handling has raised (`replies_not_faithful`).
-/

namespace Vumi2

open Text HttpRpcTransport Machine

/-- The call waits in `handle_raw_inbound_message` or for its event. -/
def InboundStage.Waits : InboundStage → Prop
  | .handling | .parked | .passing => True
  | _ => False

namespace HttpWorker

/-- The identifiers that calls of `inbound_request` have generated. -/
def ids (s : HttpWorker) : List Str := s.inbound.map InboundCall.message_id

/-- Call `k` of `handle_outbound_message` acknowledges a message, or is about to. -/
def Acks (s : HttpWorker) (k : ℕ) (message : Message) : Prop :=
  ∃ published, s.outbound[k]? = some ⟨message, .ack, published⟩

/-- Call `i` of `inbound_request` returns the response that call `k` of `handle_outbound_message`
stored for it, if it has not already, as soon as it goes on. -/
def Returns (h : Replying) (s : HttpWorker) (i : ℕ) (response : HttpResponse) (k : ℕ) : Prop :=
  ∃ own : List HttpAction, (∀ a ∈ own, a = .handled i ∨ a = .respond i) ∧
    ∃ s' message_id, run (step h) s own = some s' ∧
      s'.inbound[i]? = some ⟨message_id, .returned response (some k)⟩

/-- Call `k` of `handle_outbound_message` has published the ACK of a message, or will when it goes
on. -/
def Publishes (h : Replying) (s : HttpWorker) (k : ℕ) (message : Message) : Prop :=
  (s.outbound[k]? = some ⟨message, .ack, true⟩ ∧
    ∃ r, Event.ack message.message_id message.message_id r ∈ s.transport.events) ∨
  (s.outbound[k]? = some ⟨message, .ack, false⟩ ∧
    ∀ r, ∃ s', step h s (.publish k r) = some s' ∧
      Event.ack message.message_id message.message_id r ∈ s'.transport.events)

/-- A reply is acknowledged if and only if the call that it replies to returns it. -/
structure Faithful (h : Replying) (s : HttpWorker) : Prop where
  /-- Every ACK was published by a call of `handle_outbound_message`. -/
  published : ∀ event ∈ s.transport.events, event.event_type = .ack →
    ∃ (k : ℕ) (message : Message) (r : Reading),
      event = Event.ack message.message_id message.message_id r ∧
      s.outbound[k]? = some ⟨message, .ack, true⟩
  /-- A call that acknowledges a message has answered the request that it replies to. -/
  delivered : ∀ k message, s.Acks k message →
    ∃ (response : HttpResponse) (i : ℕ) (stage : InboundStage),
      h.plan message = .reply response ∧
      s.inbound[i]? = some ⟨replyTo message, stage⟩ ∧ s.Returns h i response k
  /-- A response that was built from a message comes from a call that acknowledges it. -/
  acknowledged : ∀ (i : ℕ) (message_id : Str) (response : HttpResponse) (k : ℕ),
    s.inbound[i]? = some ⟨message_id, .returned response (some k)⟩ →
      ∃ message, replyTo message = message_id ∧ h.plan message = .reply response ∧
        s.Publishes h k message

/-- No call is interrupted once a reply was stored for it, and no reply comes for a call that is
leaving; and if the transport does not look for the request first, none comes for a request that
is answered and not returned yet. -/
def Prompt (h : Replying) (s : HttpWorker) : HttpAction → Prop
  | .interrupt i => ∀ (message_id : Str) (stage : InboundStage),
      s.inbound[i]? = some ⟨message_id, stage⟩ →
      message_id ∈ s.transport.woken → s.sources.get? message_id = some none
  | .outbound message => ∀ response, h.plan message = .reply response →
      ∀ (i : ℕ) (stage : InboundStage), s.inbound[i]? = some ⟨replyTo message, stage⟩ →
        (stage = .leaving → s.transport.requests.get? (replyTo message) = none) ∧
        (h.checks = false → stage.Waits → replyTo message ∉ s.transport.woken)
  | _ => True

/-! ## What a request looks like -/

/-- No reply to a request is acknowledged. -/
def Unanswered (s : HttpWorker) (message_id : Str) : Prop :=
  ∀ k message, s.Acks k message → replyTo message ≠ message_id

/-- A request is not pending, and was never answered. -/
structure Untouched (s : HttpWorker) (message_id : Str) : Prop where
  requests : s.transport.requests.get? message_id = none
  woken : message_id ∉ s.transport.woken
  unanswered : s.Unanswered message_id

/-- A request is pending. -/
structure Pending (s : HttpWorker) (message_id : Str) : Prop where
  requests : s.transport.requests.get? message_id ≠ none
  woken : message_id ∉ s.transport.woken
  unanswered : s.Unanswered message_id

/-- The replies to a request that are acknowledged: the one that this response was built from, and
no other. -/
structure Answered (h : Replying) (s : HttpWorker) (message_id : Str) (response : HttpResponse)
    (source : Option ℕ) : Prop where
  acked : ∀ k, source = some k → ∃ message, s.Acks k message ∧
    replyTo message = message_id ∧ h.plan message = .reply response
  only : ∀ k message, s.Acks k message → replyTo message = message_id → source = some k

/-- A request is finished, with this response. -/
structure Finished (h : Replying) (s : HttpWorker) (message_id : Str) (response : HttpResponse)
    (source : Option ℕ) : Prop where
  requests : s.transport.requests.get? message_id = none
  woken : message_id ∈ s.transport.woken
  results : s.transport.results.get? message_id = some response
  sources : s.sources.get? message_id = some source
  answered : Answered h s message_id response source

/-- What the request of a call looks like at its stage. -/
def Fits (h : Replying) (s : HttpWorker) (call : InboundCall) : Prop :=
  match call.stage with
  | .reading => s.Untouched call.message_id
  | .handling | .parked =>
    s.Pending call.message_id ∨ ∃ response source, Finished h s call.message_id response source
  | .passing => ∃ response source, Finished h s call.message_id response source
  | .leaving => s.Unanswered call.message_id
  | .returned response source =>
    s.transport.requests.get? call.message_id = none ∧
      Answered h s call.message_id response source
  | .ended => s.transport.requests.get? call.message_id = none ∧ s.Unanswered call.message_id

/-- The invariant: each call fits its request, and no request that is yet to come was touched. -/
structure Inv (h : Replying) (s : HttpWorker) : Prop where
  distinct : s.ids.Nodup
  fresh : ∀ message_id, message_id ∉ s.ids → s.Untouched message_id
  fits : ∀ (i : ℕ) (call : InboundCall), s.inbound[i]? = some call → Fits h s call

/-! ## What a step leaves as it was -/

/-- The request looks the same in two states. -/
structure SameRequest (s s' : HttpWorker) (message_id : Str) : Prop where
  requests : s'.transport.requests.get? message_id = s.transport.requests.get? message_id
  woken : message_id ∈ s'.transport.woken ↔ message_id ∈ s.transport.woken
  acks : ∀ k message, replyTo message = message_id → (s'.Acks k message ↔ s.Acks k message)

/-- So does the result that a call is going to take. -/
structure SameView (s s' : HttpWorker) (call : InboundCall) : Prop
    extends SameRequest s s' call.message_id where
  taken : call.stage.Waits → call.message_id ∈ s.transport.woken →
    s'.transport.results.get? call.message_id = s.transport.results.get? call.message_id ∧
      s'.sources.get? call.message_id = s.sources.get? call.message_id

section

variable {h : Replying} {s s' : HttpWorker}

/-- A request that looks the same is still without an answer. -/
theorem Unanswered.congr {message_id : Str} (hsame : SameRequest s s' message_id)
    (hun : s.Unanswered message_id) : s'.Unanswered message_id := by
  intro k message hacks hreply
  exact hun k message ((hsame.acks k message hreply).1 hacks) hreply

/-- A request that looks the same is still untouched. -/
theorem Untouched.congr {message_id : Str} (hsame : SameRequest s s' message_id)
    (hun : s.Untouched message_id) : s'.Untouched message_id :=
  ⟨hsame.requests.trans hun.requests, fun hwoken => hun.woken (hsame.woken.1 hwoken),
    hun.unanswered.congr hsame⟩

/-- A request that looks the same is still pending. -/
theorem Pending.congr {message_id : Str} (hsame : SameRequest s s' message_id)
    (hpending : s.Pending message_id) : s'.Pending message_id :=
  ⟨by rw [hsame.requests]; exact hpending.requests,
    fun hwoken => hpending.woken (hsame.woken.1 hwoken), hpending.unanswered.congr hsame⟩

/-- A request that looks the same has the same answers. -/
theorem Answered.congr {message_id : Str} {response : HttpResponse} {source : Option ℕ}
    (hsame : SameRequest s s' message_id) (hans : Answered h s message_id response source) :
    Answered h s' message_id response source := by
  constructor
  · intro k hk
    obtain ⟨message, hacks, hreply, hplan⟩ := hans.acked k hk
    exact ⟨message, (hsame.acks k message hreply).2 hacks, hreply, hplan⟩
  · intro k message hacks hreply
    exact hans.only k message ((hsame.acks k message hreply).1 hacks) hreply

/-- A request that looks the same to a waiting call is still finished with its response. -/
theorem Finished.congr {call : InboundCall} {response : HttpResponse} {source : Option ℕ}
    (hview : SameView s s' call) (hwaits : call.stage.Waits)
    (hfin : Finished h s call.message_id response source) :
    Finished h s' call.message_id response source := by
  obtain ⟨hresults, hsources⟩ := hview.taken hwaits hfin.woken
  exact ⟨hview.requests.trans hfin.requests, hview.woken.2 hfin.woken,
    hresults.trans hfin.results, hsources.trans hfin.sources,
    hfin.answered.congr hview.toSameRequest⟩

/-- A call fits a request that looks the same to it. -/
theorem Fits.congr {call : InboundCall} (hview : SameView s s' call) (hfits : Fits h s call) :
    Fits h s' call := by
  have hsame := hview.toSameRequest
  obtain ⟨message_id, stage⟩ := call
  cases stage with
  | reading => exact Untouched.congr hsame hfits
  | handling =>
    rcases hfits with hpending | ⟨response, source, hfin⟩
    · exact .inl (hpending.congr hsame)
    · exact .inr ⟨response, source, hfin.congr hview trivial⟩
  | parked =>
    rcases hfits with hpending | ⟨response, source, hfin⟩
    · exact .inl (hpending.congr hsame)
    · exact .inr ⟨response, source, hfin.congr hview trivial⟩
  | passing =>
    obtain ⟨response, source, hfin⟩ := hfits
    exact ⟨response, source, hfin.congr hview trivial⟩
  | leaving => exact Unanswered.congr hsame hfits
  | returned response source => exact ⟨hsame.requests.trans hfits.1, hfits.2.congr hsame⟩
  | ended => exact ⟨hsame.requests.trans hfits.1, hfits.2.congr hsame⟩

/-- The identifier of a call is one of those generated. -/
theorem mem_ids {i : ℕ} {call : InboundCall} (hi : s.inbound[i]? = some call) :
    call.message_id ∈ s.ids :=
  List.mem_map_of_mem (List.mem_of_getElem? hi)

/-- Two calls do not have the same identifier. -/
theorem ne_of_ne (hdistinct : s.ids.Nodup) {i j : ℕ} {a b : InboundCall}
    (hi : s.inbound[i]? = some a) (hj : s.inbound[j]? = some b) (hij : j ≠ i) :
    b.message_id ≠ a.message_id := by
  intro heq
  have hlen : j < s.ids.length := by
    unfold ids
    rw [List.length_map]
    exact (List.getElem?_eq_some_iff.1 hj).1
  have hids : s.ids[j]? = s.ids[i]? := by
    unfold ids
    rw [List.getElem?_map, List.getElem?_map, hi, hj]
    exact congrArg some heq
  exact hij ((List.getElem?_inj hlen hdistinct).1 hids)

/-- A step of one call, after which the other requests look as they did. -/
theorem Inv.of_call (hinv : Inv h s) {i : ℕ} {message_id : Str} {stage stage' : InboundStage}
    (hi : s.inbound[i]? = some ⟨message_id, stage⟩)
    (hinbound : s'.inbound = s.inbound.set i ⟨message_id, stage'⟩)
    (hothers : ∀ call : InboundCall, call.message_id ≠ message_id → SameView s s' call)
    (hown : Fits h s' ⟨message_id, stage'⟩) : Inv h s' := by
  have hids : s'.ids = s.ids := by
    unfold ids
    rw [hinbound]
    exact Slots.map_set_keep InboundCall.message_id hi rfl
  refine ⟨by rw [hids]; exact hinv.distinct, fun other hother => ?_, ?_⟩
  · rw [hids] at hother
    have hne : other ≠ message_id := by
      rintro rfl
      exact hother (mem_ids hi)
    exact (hinv.fresh other hother).congr (hothers ⟨other, .reading⟩ hne).toSameRequest
  · rw [hinbound]
    refine Slots.forall_getElem?_set hi (fun j call hji hj => ?_) hown
    exact (hinv.fits j call hj).congr (hothers call (ne_of_ne hinv.distinct hi hj hji))

/-! ## Steps of `inbound_request` -/

/-- A state that has the same calls of `handle_outbound_message`, and the same requests and results
but for one. -/
theorem SameView.of_ne {message_id : Str} (hout : s'.outbound = s.outbound)
    (hrequests : ∀ other, other ≠ message_id →
      s'.transport.requests.get? other = s.transport.requests.get? other)
    (hwoken : ∀ other, other ≠ message_id →
      (other ∈ s'.transport.woken ↔ other ∈ s.transport.woken))
    (hresults : ∀ other, other ≠ message_id →
      s'.transport.results.get? other = s.transport.results.get? other ∧
        s'.sources.get? other = s.sources.get? other)
    (call : InboundCall) (hne : call.message_id ≠ message_id) : SameView s s' call where
  requests := hrequests _ hne
  woken := hwoken _ hne
  acks := by
    intro k message _
    unfold Acks
    rw [hout]
  taken := fun _ _ => hresults _ hne

/-- A call changes its stage, and nothing else. -/
theorem SameView.setStage (i : ℕ) (message_id : Str) (stage : InboundStage) (call : InboundCall) :
    SameView s (s.setStage i message_id stage) call :=
  ⟨⟨rfl, Iff.rfl, fun _ _ _ => Iff.rfl⟩, fun _ _ => ⟨rfl, rfl⟩⟩

/-- A new transport has no calls to account for. -/
theorem inv_new : Inv h new := by
  refine ⟨List.nodup_nil, fun message_id _ => ⟨rfl, List.not_mem_nil, ?_⟩, ?_⟩
  · rintro k message ⟨published, hk⟩
    cases hk
  · intro i call hi
    cases hi

/-- A new call comes with a new identifier. -/
theorem inv_request {message_id : Str} (hinv : Inv h s) (hnew : message_id ∉ s.ids) :
    Inv h { s with inbound := s.inbound ++ [⟨message_id, .reading⟩] } := by
  set s' : HttpWorker := { s with inbound := s.inbound ++ [⟨message_id, .reading⟩] } with hs'
  have hsame : ∀ call, SameView s s' call := fun call =>
    ⟨⟨rfl, Iff.rfl, fun _ _ _ => Iff.rfl⟩, fun _ _ => ⟨rfl, rfl⟩⟩
  have hids : s'.ids = s.ids ++ [message_id] := by
    unfold ids
    rw [hs', List.map_append]
    rfl
  refine ⟨?_, fun other hother => ?_, fun i call hi => ?_⟩
  · rw [hids, List.nodup_append]
    refine ⟨hinv.distinct, List.nodup_singleton _, fun a ha b hb hab => ?_⟩
    obtain rfl := List.mem_singleton.1 hb
    exact hnew (hab ▸ ha)
  · rw [hids, List.mem_append] at hother
    push Not at hother
    -- The others have not been touched by this call.
    exact (hinv.fresh other hother.1).congr (hsame ⟨other, .reading⟩).toSameRequest
  · rcases Slots.getElem?_append_singleton.1 hi with hi | ⟨-, rfl⟩
    · exact (hinv.fits i call hi).congr (hsame call)
    · -- The new call starts with a request that no one has touched.
      exact (hinv.fresh message_id hnew).congr (hsame ⟨message_id, .reading⟩).toSameRequest

/-- The request is pending once it is stored, or finished at once with a response that is built from
no message. -/
theorem inv_register {i : ℕ} {r : HttpRequest} {rejection : Option HttpResponse} (hinv : Inv h s)
    (hstep : s.register i r rejection = some s') : Inv h s' := by
  obtain ⟨message_id, hi, ⟨-, rfl⟩ | ⟨response, -, rfl⟩⟩ := register_cases hstep
  · -- It is accepted, and waits to be answered.
    have hun : s.Untouched message_id := hinv.fits i _ hi
    refine hinv.of_call hi rfl (SameView.of_ne rfl ?_ (fun _ _ => Iff.rfl) ?_) (.inl ?_)
    · exact fun other hne => Dict.get?_set_of_ne _ r hne
    · exact fun _ _ => ⟨rfl, rfl⟩
    · refine ⟨?_, hun.woken, hun.unanswered⟩
      dsimp only
      rw [Dict.get?_set_self]
      simp
  · -- It is rejected: `finish_request` is called at once, by the call itself.
    have hun : s.Untouched message_id := hinv.fits i _ hi
    refine hinv.of_call hi rfl (SameView.of_ne rfl ?_ ?_ ?_) (.inr ⟨response, none, ?_⟩)
    · intro other hne
      exact (Dict.get?_erase_of_ne _ hne).trans (Dict.get?_set_of_ne _ r hne)
    · intro other hne
      show other ∈ s.transport.woken ++ [message_id] ↔ other ∈ s.transport.woken
      simp [hne]
    · intro other hne
      exact ⟨Dict.get?_set_of_ne _ response hne, Dict.get?_set_of_ne _ none hne⟩
    · refine ⟨Dict.get?_erase_self _ message_id, ?_, Dict.get?_set_self _ _ response,
        Dict.get?_set_self _ _ none, fun k hk => ?_, fun k message hacks hreply => ?_⟩
      · exact List.mem_append_right _ (List.mem_singleton.2 rfl)
      · cases hk
      · exact absurd hreply (hun.unanswered k message hacks)

/-- A call that comes to its event has its request pending, or finished. -/
theorem inv_handled {i : ℕ} (hinv : Inv h s) (hstep : s.handled i = some s') : Inv h s' := by
  obtain ⟨message_id, hi, rfl⟩ := handled_cases hstep
  have hfits : s.Pending message_id ∨ ∃ response source, Finished h s message_id response source :=
    hinv.fits i _ hi
  refine hinv.of_call hi rfl (fun call _ => SameView.setStage i message_id _ call) ?_
  refine Fits.congr (SameView.setStage i message_id _ _) ?_
  split_ifs with hwoken
  · -- An event that is set is that of a finished request.
    rcases hfits with hpending | hfin
    · exact absurd (isSet_iff.1 hwoken) hpending.woken
    · exact hfin
  · exact hfits

/-- A call that is interrupted under the condition has no reply acknowledged. -/
theorem inv_interrupt {i : ℕ} (hinv : Inv h s) (hprompt : Prompt h s (.interrupt i))
    (hstep : s.interrupt i = some s') : Inv h s' := by
  obtain ⟨message_id, stage, hi, hstage, rfl⟩ := interrupt_cases hstep
  -- A finished request was finished by the call itself, so no reply to it is acknowledged.
  have hfinished : (∃ response source, Finished h s message_id response source) →
      s.Unanswered message_id := by
    rintro ⟨response, source, hfin⟩ k message hacks hreply
    have hsource := hprompt message_id stage hi hfin.woken
    rw [hfin.sources] at hsource
    have hk := hfin.answered.only k message hacks hreply
    rw [Option.some.inj hsource] at hk
    cases hk
  have hpending_or : (s.Pending message_id ∨
      ∃ response source, Finished h s message_id response source) → s.Unanswered message_id := by
    rintro (hpending | hfin)
    · exact hpending.unanswered
    · exact hfinished hfin
  have hun : s.Unanswered message_id := by
    have hfits := hinv.fits i _ hi
    rcases hstage with rfl | rfl | rfl | rfl
    · exact (hfits : s.Untouched message_id).unanswered
    · exact hpending_or hfits
    · exact hfinished hfits
    · exact hpending_or hfits
  refine hinv.of_call hi rfl (fun call _ => SameView.setStage i message_id _ call) ?_
  exact Fits.congr (SameView.setStage i message_id _ ⟨message_id, .leaving⟩) hun

/-- The `finally` clause touches one request only. -/
theorem SameView.cleanUp (i : ℕ) (message_id : Str) (stage : InboundStage) (call : InboundCall)
    (hne : call.message_id ≠ message_id) :
    SameView s ((s.setStage i message_id stage).cleanUp message_id) call := by
  refine SameView.of_ne ?_ ?_ ?_ ?_ call hne
  · rfl
  · exact fun _ hne => Dict.get?_erase_of_ne _ hne
  · exact fun _ _ => Iff.rfl
  · exact fun _ hne => ⟨Dict.get?_erase_of_ne _ hne, Dict.get?_erase_of_ne _ hne⟩

/-- A call takes the response that its request was finished with. -/
theorem takeResult_of_finished {i : ℕ} {message_id : Str} {response : HttpResponse}
    {source : Option ℕ} (hfin : Finished h s message_id response source) :
    s.takeResult i message_id =
      (s.setStage i message_id (.returned response source)).cleanUp message_id := by
  unfold takeResult
  rw [hfin.results, hfin.sources]
  rfl

/-- A call that takes its response and returns leaves the others as they were. -/
theorem inv_respond {i : ℕ} (hinv : Inv h s) (hstep : s.respond i = some s') : Inv h s' := by
  obtain ⟨message_id, stage, hi, hstage, rfl⟩ := respond_cases hstep
  have hfin : ∃ response source, Finished h s message_id response source := by
    have hfits := hinv.fits i _ hi
    rcases hstage with ⟨rfl, hwoken⟩ | rfl
    · rcases hfits with hpending | hfin
      · -- The event of a pending request is not set.
        exact absurd (isSet_iff.1 hwoken) hpending.woken
      · exact hfin
    · exact hfits
  obtain ⟨response, source, hfin⟩ := hfin
  rw [takeResult_of_finished hfin]
  refine hinv.of_call hi rfl (SameView.cleanUp i message_id _) ⟨?_, ?_⟩
  · exact Dict.get?_erase_self _ _
  · exact ⟨hfin.answered.acked, hfin.answered.only⟩

/-- A call that leaves without a response was not answered. -/
theorem inv_leave {i : ℕ} (hinv : Inv h s) (hstep : s.leave i = some s') : Inv h s' := by
  obtain ⟨message_id, hi, rfl⟩ := leave_cases hstep
  -- Its result is dropped, and no reply to it was acknowledged.
  have hun : s.Unanswered message_id := hinv.fits i _ hi
  refine hinv.of_call hi rfl (SameView.cleanUp i message_id _) ⟨?_, ?_⟩
  · exact Dict.get?_erase_self _ _
  · exact hun

/-! ## Steps of `handle_outbound_message` -/

/-- A call that publishes its event acknowledges what it did before. -/
theorem acks_publish {k j : ℕ} {message other : Message} {verdict : Verdict}
    (hk : s.outbound[k]? = some ⟨message, verdict, false⟩)
    (hout : s'.outbound = s.outbound.set k ⟨message, verdict, true⟩) :
    s'.Acks j other ↔ s.Acks j other := by
  unfold Acks
  rw [hout]
  constructor
  · rintro ⟨published, hj⟩
    rcases (Slots.getElem?_set_eq_some hk).1 hj with ⟨rfl, heq⟩ | ⟨-, hj⟩
    · obtain ⟨rfl, rfl, -⟩ := OutboundCall.mk.inj heq
      exact ⟨false, hk⟩
    · exact ⟨published, hj⟩
  · rintro ⟨published, hj⟩
    rcases eq_or_ne j k with rfl | hne
    · obtain ⟨rfl, rfl, -⟩ := OutboundCall.mk.inj (Option.some.inj (hk.symm.trans hj))
      exact ⟨true, (Slots.getElem?_set_eq_some hk).2 (.inl ⟨rfl, rfl⟩)⟩
    · exact ⟨published, (Slots.getElem?_set_eq_some hk).2 (.inr ⟨hne, hj⟩)⟩

/-- What fits still fits when no call of `inbound_request` changes, nor what one of them sees. -/
theorem Inv.of_views (hinv : Inv h s) (hinbound : s'.inbound = s.inbound)
    (hsame : ∀ message_id, message_id ∉ s.ids → SameRequest s s' message_id)
    (hviews : ∀ (i : ℕ) (call : InboundCall), s.inbound[i]? = some call → Fits h s call →
      Fits h s' call) : Inv h s' := by
  have hids : s'.ids = s.ids := congrArg (List.map InboundCall.message_id) hinbound
  refine ⟨by rw [hids]; exact hinv.distinct, fun message_id hnot => ?_, fun i call hi => ?_⟩
  · rw [hids] at hnot
    exact (hinv.fresh message_id hnot).congr (hsame message_id hnot)
  · rw [hinbound] at hi
    exact hviews i call hi (hinv.fits i call hi)

/-- The publishing of an event touches no request. -/
theorem inv_publish {k : ℕ} {r : Reading} (hinv : Inv h s)
    (hstep : s.publishEvent k r = some s') : Inv h s' := by
  obtain ⟨message, verdict, event, hk, -, heq⟩ := publishEvent_cases hstep
  have hviews : ∀ call, SameView s s' call := by
    intro call
    rw [heq]
    exact ⟨⟨rfl, Iff.rfl, fun j other _ => acks_publish hk rfl⟩, fun _ _ => ⟨rfl, rfl⟩⟩
  refine hinv.of_views (by rw [heq]) (fun message_id _ => ?_) fun i call _ hfits => ?_
  · exact (hviews ⟨message_id, .reading⟩).toSameRequest
  · exact hfits.congr (hviews call)

/-- What a call of `handle_outbound_message` does up to its await: nothing but to come to a verdict,
or to leave a result behind and raise, or to finish the request. -/
theorem handleOutbound_cases (h : Replying) (s : HttpWorker) (message : Message) :
    (∃ verdict, verdict ≠ .ack ∧ handleOutbound h s message =
      { s with outbound := s.outbound ++ [⟨message, verdict, false⟩] }) ∨
    ∃ response, h.plan message = .reply response ∧
      ((h.checks = false ∧ s.transport.requests.get? (replyTo message) = none ∧
        handleOutbound h s message =
          { s with
            transport := s.transport.leftBehind (replyTo message) response
            outbound := s.outbound ++ [⟨message, .raised .keyError, false⟩]
            sources := s.sources.set (replyTo message) (some s.outbound.length) }) ∨
      (s.transport.requests.get? (replyTo message) ≠ none ∧
        handleOutbound h s message =
          { s with
            transport := s.transport.finished (replyTo message) response
            outbound := s.outbound ++ [⟨message, .ack, false⟩]
            sources := s.sources.set (replyTo message) (some s.outbound.length) })) := by
  unfold handleOutbound Replying.answer Replying.stores
  -- The plan of the transport decides first: a NACK, an exception, or a response.
  cases hplan : h.plan message with
  | nack reason => exact .inl ⟨.nack reason, by simp, rfl⟩
  | raised e => exact .inl ⟨.raised e, by simp, rfl⟩
  | reply response =>
    dsimp only
    -- HTTP RPC does not look for the request, so its `KeyError` comes after the result is stored.
    cases hnone : s.transport.requests.get? (replyTo message) with
    | none =>
      cases hchecks : h.checks with
      | true => exact .inl ⟨.nack (str "No matching request"), by simp, by simp⟩
      | false =>
        refine .inr ⟨response, rfl, .inl ⟨rfl, rfl, ?_⟩⟩
        unfold finish
        simp [hnone]
    | some request =>
      refine .inr ⟨response, rfl, .inr ⟨by simp, ?_⟩⟩
      unfold finish
      simp [hnone]

/-- The new call acknowledges its message if that is its verdict; the others are as they were. -/
theorem acks_append {message other : Message} {verdict : Verdict} {k : ℕ}
    (hout : s'.outbound = s.outbound ++ [⟨message, verdict, false⟩]) :
    s'.Acks k other ↔
      s.Acks k other ∨ k = s.outbound.length ∧ other = message ∧ verdict = .ack := by
  unfold Acks
  rw [hout]
  constructor
  · rintro ⟨published, hk⟩
    rcases Slots.getElem?_append_singleton.1 hk with hk | ⟨rfl, heq⟩
    · exact .inl ⟨published, hk⟩
    · obtain ⟨rfl, rfl, -⟩ := OutboundCall.mk.inj heq
      exact .inr ⟨rfl, rfl, rfl⟩
  · rintro (⟨published, hk⟩ | ⟨rfl, rfl, rfl⟩)
    · exact ⟨published, Slots.getElem?_append_singleton.2 (.inl hk)⟩
    · exact ⟨false, Slots.getElem?_append_singleton.2 (.inr ⟨rfl, rfl⟩)⟩

/-- A verdict that is no ACK changes no reply that is acknowledged. -/
theorem acks_append_of_ne {message other : Message} {verdict : Verdict} {k : ℕ}
    (hout : s'.outbound = s.outbound ++ [⟨message, verdict, false⟩]) (hack : verdict ≠ .ack) :
    s'.Acks k other ↔ s.Acks k other := by
  rw [acks_append hout]
  simp [hack]

/-- A reply to a request that is not pending leaves a result behind, which no call takes that has
not been answered. -/
theorem inv_leftBehind {message : Message} {response : HttpResponse} {source : Option ℕ} {e : PyExc}
    (hinv : Inv h s)
    (hwaits : ∀ (i : ℕ) (stage : InboundStage), s.inbound[i]? = some ⟨replyTo message, stage⟩ →
      stage.Waits → replyTo message ∉ s.transport.woken) :
    Inv h { s with
      transport := s.transport.leftBehind (replyTo message) response
      outbound := s.outbound ++ [⟨message, .raised e, false⟩]
      sources := s.sources.set (replyTo message) source } := by
  set s' : HttpWorker := { s with
    transport := s.transport.leftBehind (replyTo message) response
    outbound := s.outbound ++ [⟨message, .raised e, false⟩]
    sources := s.sources.set (replyTo message) source } with hs'
  have hout : s'.outbound = s.outbound ++ [⟨message, .raised e, false⟩] := rfl
  have hsame : ∀ message_id, SameRequest s s' message_id := fun message_id =>
    ⟨rfl, Iff.rfl, fun k other _ => acks_append_of_ne hout (by simp)⟩
  refine hinv.of_views rfl (fun message_id _ => hsame message_id) fun i call hi hfits => ?_
  refine hfits.congr ⟨hsame _, fun hstage hwoken => ?_⟩
  -- A call that is about to take a result waits, so the reply is not to its request.
  have hne : call.message_id ≠ replyTo message := by
    intro heq
    rw [heq] at hwoken
    exact hwaits i call.stage (by rw [hi, ← heq]) hstage hwoken
  exact ⟨Dict.get?_set_of_ne _ response hne, Dict.get?_set_of_ne _ source hne⟩

/-- A request that a reply finds is pending, as long as its call is not leaving. -/
theorem Inv.pending_of_found (hinv : Inv h s) {message_id : Str}
    (hfound : s.transport.requests.get? message_id ≠ none)
    (hleaving : ∀ i : ℕ, s.inbound[i]? = some ⟨message_id, .leaving⟩ →
      s.transport.requests.get? message_id = none) :
    s.Pending message_id ∧ ∃ (i : ℕ) (stage : InboundStage),
      s.inbound[i]? = some ⟨message_id, stage⟩ ∧ (stage = .handling ∨ stage = .parked) := by
  -- A request in the table has its call.
  have hmem : message_id ∈ s.ids := by
    by_contra hnot
    exact hfound (hinv.fresh message_id hnot).requests
  obtain ⟨call, hcall, rfl⟩ := List.mem_map.1 hmem
  obtain ⟨i, hi⟩ := List.getElem?_of_mem hcall
  have hfits := hinv.fits i call hi
  obtain ⟨message_id, stage⟩ := call
  cases stage with
  | reading => exact absurd hfits.requests hfound
  | handling =>
    rcases hfits with hpending | ⟨response, source, hfin⟩
    · exact ⟨hpending, i, .handling, hi, .inl rfl⟩
    · exact absurd hfin.requests hfound
  | parked =>
    rcases hfits with hpending | ⟨response, source, hfin⟩
    · exact ⟨hpending, i, .parked, hi, .inr rfl⟩
    · exact absurd hfin.requests hfound
  | passing =>
    obtain ⟨response, source, hfin⟩ := hfits
    exact absurd hfin.requests hfound
  | leaving => exact absurd (hleaving i hi) hfound
  | returned response source => exact absurd hfits.1 hfound
  | ended => exact absurd hfits.1 hfound

/-- A reply to a request that is pending finishes it, with the response that is built from it. -/
theorem inv_finished {message : Message} {response : HttpResponse} (hinv : Inv h s)
    (hplan : h.plan message = .reply response)
    (hfound : s.transport.requests.get? (replyTo message) ≠ none)
    (hleaving : ∀ i : ℕ, s.inbound[i]? = some ⟨replyTo message, .leaving⟩ →
      s.transport.requests.get? (replyTo message) = none) :
    Inv h { s with
      transport := s.transport.finished (replyTo message) response
      outbound := s.outbound ++ [⟨message, .ack, false⟩]
      sources := s.sources.set (replyTo message) (some s.outbound.length) } := by
  set s' : HttpWorker := { s with
    transport := s.transport.finished (replyTo message) response
    outbound := s.outbound ++ [⟨message, .ack, false⟩]
    sources := s.sources.set (replyTo message) (some s.outbound.length) } with hs'
  have hacks : ∀ k other, s'.Acks k other ↔
      s.Acks k other ∨ k = s.outbound.length ∧ other = message := by
    intro k other
    have happend : s'.Acks k other ↔
        s.Acks k other ∨ k = s.outbound.length ∧ other = message ∧ Verdict.ack = .ack :=
      acks_append rfl
    rw [happend]
    simp
  obtain ⟨hpending, i, stage, hi, hstage⟩ := hinv.pending_of_found hfound hleaving
  -- The other requests look as they did.
  have hviews : ∀ call : InboundCall, call.message_id ≠ replyTo message → SameView s s' call := by
    intro call hne
    refine ⟨⟨Dict.get?_erase_of_ne _ hne, ?_, fun k other hreply => ?_⟩, fun _ _ => ?_⟩
    · show call.message_id ∈ s.transport.woken ++ [replyTo message] ↔ _
      simp [hne]
    · rw [hacks]
      constructor
      · rintro (hold | ⟨-, rfl⟩)
        · exact hold
        · exact absurd hreply.symm hne
      · exact .inl
    · exact ⟨Dict.get?_set_of_ne _ response hne, Dict.get?_set_of_ne _ _ hne⟩
  -- The request is finished with the response, and its only ACK is the new one.
  have hfin : Finished h s' (replyTo message) response (some s.outbound.length) := by
    refine ⟨Dict.get?_erase_self _ _, ?_, Dict.get?_set_self _ _ response,
      Dict.get?_set_self _ _ _, fun k hk => ?_, fun k other hother hreply => ?_⟩
    · exact List.mem_append_right _ (List.mem_singleton.2 rfl)
    · obtain rfl := Option.some.inj hk
      exact ⟨message, (hacks _ _).2 (.inr ⟨rfl, rfl⟩), rfl, hplan⟩
    · rcases (hacks k other).1 hother with hold | ⟨rfl, -⟩
      · exact absurd hreply (hpending.unanswered k other hold)
      · rfl
  refine hinv.of_views rfl (fun message_id hnot => ?_) fun j call hj hfits => ?_
  · have hne : message_id ≠ replyTo message := by
      rintro rfl
      exact hnot (mem_ids hi)
    exact (hviews ⟨message_id, .reading⟩ hne).toSameRequest
  · rcases eq_or_ne j i with rfl | hji
    · -- The call that waits for it.
      obtain rfl := Option.some.inj (hi.symm.trans hj)
      rcases hstage with rfl | rfl
      · exact .inr ⟨response, _, hfin⟩
      · exact .inr ⟨response, _, hfin⟩
    · exact hfits.congr (hviews call (ne_of_ne hinv.distinct hi hj hji))

/-- An outbound message at a permitted time answers one pending request, or none. -/
theorem inv_outbound {message : Message} (hinv : Inv h s)
    (hprompt : Prompt h s (.outbound message)) : Inv h (handleOutbound h s message) := by
  rcases handleOutbound_cases h s message with ⟨verdict, hack, heq⟩ | ⟨response, hplan, hreply⟩
  · have hsame : ∀ message_id,
        SameRequest s { s with outbound := s.outbound ++ [⟨message, verdict, false⟩] } message_id :=
      fun message_id => ⟨rfl, Iff.rfl, fun k other _ => acks_append_of_ne rfl hack⟩
    rw [heq]
    refine hinv.of_views rfl (fun message_id _ => hsame message_id) fun i call _ hfits => ?_
    exact hfits.congr ⟨hsame _, fun _ _ => ⟨rfl, rfl⟩⟩
  · rcases hreply with ⟨hchecks, -, heq⟩ | ⟨hfound, heq⟩
    · -- It is not pending, and the transport has not looked.
      rw [heq]
      exact inv_leftBehind hinv fun i stage hi => (hprompt response hplan i stage hi).2 hchecks
    · rw [heq]
      exact inv_finished hinv hplan hfound fun i hi => (hprompt response hplan i .leaving hi).1 rfl

/-! ## Runs -/

/-- A permitted step keeps the invariant. -/
theorem inv_step (a : HttpAction) (hinv : Inv h s) (hprompt : Prompt h s a)
    (hstep : step h s a = some s') : Inv h s' := by
  cases a with
  | request message_id =>
    simp only [step] at hstep
    split_ifs at hstep with hnew
    obtain rfl := Option.some.inj hstep
    refine inv_request hinv fun hmem => hnew ?_
    obtain ⟨call, hcall, heq⟩ := List.mem_map.1 hmem
    exact List.any_eq_true.2 ⟨call, hcall, decide_eq_true heq⟩
  | register i r rejection => exact inv_register hinv hstep
  | handled i => exact inv_handled hinv hstep
  | interrupt i => exact inv_interrupt hinv hprompt hstep
  | respond i => exact inv_respond hinv hstep
  | leave i => exact inv_leave hinv hstep
  | outbound message =>
    obtain rfl := Option.some.inj hstep
    exact inv_outbound hinv hprompt
  | publish k r => exact inv_publish hinv hstep

/-- The events that were published are those of the calls that have published one. -/
structure EventsFit (s : HttpWorker) : Prop where
  published : ∀ event ∈ s.transport.events, event.event_type = .ack →
    ∃ (k : ℕ) (message : Message) (r : Reading),
      event = Event.ack message.message_id message.message_id r ∧
      s.outbound[k]? = some ⟨message, .ack, true⟩
  events : ∀ (k : ℕ) (message : Message), s.outbound[k]? = some ⟨message, .ack, true⟩ →
    ∃ r, Event.ack message.message_id message.message_id r ∈ s.transport.events

/-- The same events fit the same calls. -/
theorem EventsFit.of_eq (hfit : EventsFit s) (hevents : s'.transport.events = s.transport.events)
    (hout : s'.outbound = s.outbound) : EventsFit s' := by
  constructor
  · rw [hevents, hout]
    exact hfit.published
  · rw [hevents, hout]
    exact hfit.events

/-- A call that has come to its await has published nothing. -/
theorem EventsFit.of_append {message : Message} {verdict : Verdict} (hfit : EventsFit s)
    (hevents : s'.transport.events = s.transport.events)
    (hout : s'.outbound = s.outbound ++ [⟨message, verdict, false⟩]) : EventsFit s' := by
  constructor
  · intro event hmem htype
    rw [hevents] at hmem
    obtain ⟨k, sent, r, heq, hk⟩ := hfit.published event hmem htype
    rw [hout]
    exact ⟨k, sent, r, heq, Slots.getElem?_append_singleton.2 (.inl hk)⟩
  · intro k sent hk
    rw [hout] at hk
    rcases Slots.getElem?_append_singleton.1 hk with hk | ⟨-, heq⟩
    · rw [hevents]
      exact hfit.events k sent hk
    · cases heq

/-- A new call has published nothing yet. -/
theorem eventsFit_handleOutbound (message : Message) (hfit : EventsFit s) :
    EventsFit (handleOutbound h s message) := by
  rcases handleOutbound_cases h s message with
    ⟨verdict, -, heq⟩ | ⟨response, -, ⟨-, -, heq⟩ | ⟨-, heq⟩⟩
  · rw [heq]
    exact hfit.of_append rfl rfl
  · rw [heq]
    exact hfit.of_append rfl rfl
  · rw [heq]
    exact hfit.of_append rfl rfl

/-- A call that publishes its event adds to the published ACKs itself, if its verdict is one. -/
theorem published_acks_set {k j : ℕ} {message sent : Message} {verdict : Verdict}
    (hk : s.outbound[k]? = some ⟨message, verdict, false⟩) :
    (s.outbound.set k ⟨message, verdict, true⟩)[j]? = some ⟨sent, .ack, true⟩ ↔
      s.outbound[j]? = some ⟨sent, .ack, true⟩ ∨ j = k ∧ sent = message ∧ verdict = .ack := by
  rw [Slots.getElem?_set_eq_some hk]
  constructor
  · rintro (⟨rfl, heq⟩ | ⟨-, hj⟩)
    · obtain ⟨rfl, rfl, -⟩ := OutboundCall.mk.inj heq
      exact .inr ⟨rfl, rfl, rfl⟩
    · exact .inl hj
  · rintro (hj | ⟨rfl, rfl, rfl⟩)
    · -- The call of the event had not published one.
      refine .inr ⟨?_, hj⟩
      rintro rfl
      have heq := OutboundCall.mk.inj (Option.some.inj (hk.symm.trans hj))
      exact Bool.false_ne_true heq.2.2
    · exact .inl ⟨rfl, rfl⟩

/-- A call that publishes its event is marked as having done so. -/
theorem eventsFit_publish {k : ℕ} {r : Reading} (hfit : EventsFit s)
    (hstep : s.publishEvent k r = some s') : EventsFit s' := by
  obtain ⟨message, verdict, event, hk, hevent, rfl⟩ := publishEvent_cases hstep
  constructor
  · intro event' hmem htype
    rcases List.mem_append.1 hmem with hold | hnew
    · obtain ⟨j, sent, r', heq, hj⟩ := hfit.published event' hold htype
      exact ⟨j, sent, r', heq, (published_acks_set hk).2 (.inl hj)⟩
    · obtain rfl := List.mem_singleton.1 hnew
      rcases hevent with ⟨rfl, rfl⟩ | ⟨reason, rfl, rfl⟩
      · exact ⟨k, message, r, rfl, (published_acks_set hk).2 (.inr ⟨rfl, rfl, rfl⟩)⟩
      · -- A NACK is not an ACK.
        cases htype
  · intro j sent hj
    rcases (published_acks_set hk).1 hj with hj | ⟨rfl, rfl, hack⟩
    · obtain ⟨r', hr'⟩ := hfit.events j sent hj
      exact ⟨r', List.mem_append_left _ hr'⟩
    · rcases hevent with ⟨-, rfl⟩ | ⟨reason, hnack, -⟩
      · exact ⟨r, List.mem_append_right _ (List.mem_singleton.2 rfl)⟩
      · rw [hack] at hnack
        cases hnack

/-- A call of `inbound_request` publishes nothing. -/
theorem frame_inbound (a : HttpAction) (hstep : step h s a = some s')
    (hout : ∀ message, a ≠ .outbound message) (hpublish : ∀ k r, a ≠ .publish k r) :
    s'.transport.events = s.transport.events ∧ s'.outbound = s.outbound := by
  cases a with
  | request message_id =>
    simp only [step] at hstep
    split_ifs at hstep
    obtain rfl := Option.some.inj hstep
    exact ⟨rfl, rfl⟩
  | register i r rejection =>
    obtain ⟨message_id, -, ⟨-, rfl⟩ | ⟨response, -, rfl⟩⟩ := register_cases hstep
    · exact ⟨rfl, rfl⟩
    · exact ⟨rfl, rfl⟩
  | handled i =>
    obtain ⟨message_id, -, rfl⟩ := handled_cases hstep
    exact ⟨rfl, rfl⟩
  | interrupt i =>
    obtain ⟨message_id, stage, -, -, rfl⟩ := interrupt_cases hstep
    exact ⟨rfl, rfl⟩
  | respond i =>
    obtain ⟨message_id, stage, -, -, rfl⟩ := respond_cases hstep
    exact frame_takeResult s i message_id
  | leave i =>
    obtain ⟨message_id, -, rfl⟩ := leave_cases hstep
    exact ⟨rfl, rfl⟩
  | outbound message => exact absurd rfl (hout message)
  | publish k r => exact absurd rfl (hpublish k r)

/-- A step keeps the published events those of the calls. -/
theorem eventsFit_step (a : HttpAction) (hfit : EventsFit s) (hstep : step h s a = some s') :
    EventsFit s' := by
  by_cases hout : ∃ message, a = .outbound message
  · obtain ⟨message, rfl⟩ := hout
    obtain rfl := Option.some.inj hstep
    exact eventsFit_handleOutbound message hfit
  by_cases hpublish : ∃ k r, a = .publish k r
  · obtain ⟨k, r, rfl⟩ := hpublish
    exact eventsFit_publish hfit hstep
  push Not at hout hpublish
  obtain ⟨hevents, houts⟩ := frame_inbound a hstep hout hpublish
  exact hfit.of_eq hevents houts

/-- A new transport has published nothing. -/
theorem eventsFit_new : EventsFit new := by
  constructor
  · intro event hmem
    cases hmem
  · intro k message hk
    cases hk

/-! ## What the user gets -/

/-- A call whose request is finished returns the response, as soon as it goes on. -/
theorem returns_of_finished {i : ℕ} {message_id : Str} {stage : InboundStage}
    {response : HttpResponse} {k : ℕ} (hi : s.inbound[i]? = some ⟨message_id, stage⟩)
    (hwaits : stage.Waits) (hfin : Finished h s message_id response (some k)) :
    s.Returns h i response k := by
  -- From its event on it takes one step.
  have hlast : ∀ {t : HttpWorker} {stage : InboundStage},
      t.inbound[i]? = some ⟨message_id, stage⟩ → stage = .parked ∨ stage = .passing →
      Finished h t message_id response (some k) →
      ∃ s', step h t (.respond i) = some s' ∧
        s'.inbound[i]? = some ⟨message_id, .returned response (some k)⟩ := by
    intro t stage ht hstage hfin
    have hstep : step h t (.respond i) = some (t.takeResult i message_id) := by
      simp only [step, respond, ht]
      rcases hstage with rfl | rfl
      · exact if_pos (isSet_iff.2 hfin.woken)
      · rfl
    refine ⟨_, hstep, ?_⟩
    rw [takeResult_of_finished hfin]
    exact (Slots.getElem?_set_eq_some ht).2 (.inl ⟨rfl, rfl⟩)
  cases stage with
  | handling =>
    -- It is still in `handle_raw_inbound_message`, and finds its event set.
    have hcomes : step h s (.handled i) = some (s.setStage i message_id .passing) := by
      simp only [step, handled, hi]
      rw [if_pos (isSet_iff.2 hfin.woken)]
    have hview := SameView.setStage (s := s) i message_id .passing ⟨message_id, .passing⟩
    obtain ⟨s', hstep, hs'⟩ := hlast ((Slots.getElem?_set_eq_some hi).2 (.inl ⟨rfl, rfl⟩))
      (.inr rfl) (hfin.congr hview trivial)
    refine ⟨[.handled i, .respond i], by simp, s', message_id, ?_, hs'⟩
    exact (run_cons _).2 ⟨_, hcomes, (run_cons _).2 ⟨_, hstep, rfl⟩⟩
  | parked =>
    obtain ⟨s', hstep, hs'⟩ := hlast hi (.inl rfl) hfin
    exact ⟨[.respond i], by simp, s', message_id, (run_cons _).2 ⟨_, hstep, rfl⟩, hs'⟩
  | passing =>
    obtain ⟨s', hstep, hs'⟩ := hlast hi (.inr rfl) hfin
    exact ⟨[.respond i], by simp, s', message_id, (run_cons _).2 ⟨_, hstep, rfl⟩, hs'⟩
  | reading => exact hwaits.elim
  | leaving => exact hwaits.elim
  | returned response source => exact hwaits.elim
  | ended => exact hwaits.elim

/-- A reply that is acknowledged answers the request of a call that returns it. -/
theorem Inv.delivered (hinv : Inv h s) {k : ℕ} {message : Message} (hacks : s.Acks k message) :
    ∃ (response : HttpResponse) (i : ℕ) (stage : InboundStage),
      h.plan message = .reply response ∧
      s.inbound[i]? = some ⟨replyTo message, stage⟩ ∧ s.Returns h i response k := by
  -- The request that is replied to has a call.
  have hmem : replyTo message ∈ s.ids := by
    by_contra hnot
    exact (hinv.fresh _ hnot).unanswered k message hacks rfl
  obtain ⟨⟨message_id, stage⟩, hcall, heq⟩ := List.mem_map.1 hmem
  obtain ⟨i, hi⟩ := List.getElem?_of_mem hcall
  have hreply : replyTo message = message_id := heq.symm
  have hfits := hinv.fits i _ hi
  -- The response of a request comes from the one reply to it that is acknowledged.
  have hplan : ∀ {response : HttpResponse} {source : Option ℕ},
      Answered h s message_id response source →
      source = some k ∧ h.plan message = .reply response := by
    intro response source hans
    have hsource := hans.only k message hacks hreply
    obtain ⟨other, hother, -, hplan⟩ := hans.acked k hsource
    obtain ⟨a, ha⟩ := hacks
    obtain ⟨b, hb⟩ := hother
    obtain ⟨rfl, -⟩ := OutboundCall.mk.inj (Option.some.inj (ha.symm.trans hb))
    exact ⟨hsource, hplan⟩
  have hfinished : stage.Waits →
      (∃ response source, Finished h s message_id response source) →
      ∃ (response : HttpResponse) (i : ℕ) (stage : InboundStage),
        h.plan message = .reply response ∧
        s.inbound[i]? = some ⟨replyTo message, stage⟩ ∧ s.Returns h i response k := by
    rintro hwaits ⟨response, source, hfin⟩
    obtain ⟨rfl, hresponse⟩ := hplan hfin.answered
    exact ⟨response, i, stage, hresponse, by rw [hreply]; exact hi,
      returns_of_finished hi hwaits hfin⟩
  cases stage with
  | reading => exact absurd hreply (hfits.unanswered k message hacks)
  | handling =>
    rcases hfits with hpending | hfin
    · exact absurd hreply (hpending.unanswered k message hacks)
    · exact hfinished trivial hfin
  | parked =>
    rcases hfits with hpending | hfin
    · exact absurd hreply (hpending.unanswered k message hacks)
    · exact hfinished trivial hfin
  | passing => exact hfinished trivial hfits
  | leaving => exact absurd hreply (hfits k message hacks)
  | returned response source =>
    -- The call has returned already.
    obtain ⟨rfl, hresponse⟩ := hplan hfits.2
    exact ⟨response, i, _, hresponse, by rw [hreply]; exact hi, [], by simp, s, message_id, rfl, hi⟩
  | ended => exact absurd hreply (hfits.2 k message hacks)

/-- A call that acknowledges a message has published its ACK, or will. -/
theorem publishes_of_acks (hfit : EventsFit s) {k : ℕ} {message : Message}
    (hacks : s.Acks k message) : s.Publishes h k message := by
  obtain ⟨published, hk⟩ := hacks
  cases published with
  | true => exact .inl ⟨hk, hfit.events k message hk⟩
  | false =>
    refine .inr ⟨hk, fun r => ?_⟩
    have hstep : step h s (.publish k r) = some { s with
        transport := publish message r s.transport .ack
        outbound := s.outbound.set k ⟨message, .ack, true⟩ } := by
      simp only [step, publishEvent, hk]
    exact ⟨_, hstep, List.mem_append_right _ (List.mem_singleton.2 rfl)⟩

/-- In every run under the condition, a reply is acknowledged if and only if the call that it
replies to returns it. -/
theorem replies_faithful (h : Replying) {as : List HttpAction} {s : HttpWorker}
    (hprompt : Meets (step h) (Prompt h) new as) (hrun : run (step h) new as = some s) :
    Faithful h s := by
  -- The condition is needed for the requests, and not for the events.
  have hinv : Inv h s :=
    run_induction (step h) (fun _ a _ hinv hok hstep => inv_step a hinv hok hstep) inv_new
      hprompt hrun
  have hfit : EventsFit s :=
    run_invariant (step h) (fun _ a _ hfit hstep => eventsFit_step a hfit hstep) eventsFit_new hrun
  refine ⟨hfit.published, fun k message hacks => hinv.delivered hacks, ?_⟩
  intro i message_id response k hi
  obtain ⟨message, hacks, hreply, hplan⟩ := (hinv.fits i _ hi).2.acked k rfl
  exact ⟨message, hreply, hplan, publishes_of_acks hfit hacks⟩

end

open AatUssdTransport (aReply closingBody)

/-- A request, a reply to it while its call waits for the event, and the return of both calls. -/
def promptRun : List HttpAction :=
  [.request (str "r"), .register 0 ⟨str "GET", [], [], []⟩ none, .handled 0,
    .outbound (aReply (str "r") (str "Hello")), .publish 0 ⟨0, str "e", DateTime.min⟩, .respond 0]

/-- The run of the reply in time is permitted throughout. -/
theorem meets_promptRun :
    Meets (step Replying.httpRpc) (Prompt Replying.httpRpc) new promptRun := by
  unfold promptRun
  refine meets_cons _ trivial rfl (meets_cons _ trivial rfl (meets_cons _ trivial rfl
    (meets_cons _ ?_ rfl (meets_cons _ trivial rfl (meets_cons _ trivial rfl trivial)))))
  intro response _ i stage hi
  have hone : i = 0 ∧ stage = .parked := by
    cases i with
    | zero =>
      obtain ⟨-, rfl⟩ := InboundCall.mk.inj (Option.some.inj hi)
      exact ⟨rfl, rfl⟩
    | succ i => cases hi
  obtain ⟨rfl, rfl⟩ := hone
  exact ⟨fun h => (by cases h), fun h => (by cases h)⟩

/-- The run is possible, and its reply is acknowledged and returned. -/
theorem promptRun_faithful :
    ∃ s, run (step Replying.httpRpc) new promptRun = some s ∧ Faithful Replying.httpRpc s ∧
      s.transport.events.length = 1 :=
  ⟨_, rfl, replies_faithful Replying.httpRpc meets_promptRun rfl, rfl⟩

/-- A call that has ended without a response returns none. -/
theorem not_returns_of_ended {h : Replying} {s : HttpWorker} {i : ℕ} {message_id : Str}
    (hi : s.inbound[i]? = some ⟨message_id, .ended⟩) (response : HttpResponse) (k : ℕ) :
    ¬ s.Returns h i response k := by
  rintro ⟨own, hown, s', other, hrun, hs'⟩
  cases own with
  | nil =>
    obtain rfl := Option.some.inj hrun
    obtain ⟨-, hstage⟩ := InboundCall.mk.inj (Option.some.inj (hi.symm.trans hs'))
    cases hstage
  | cons a own =>
    obtain ⟨t, hstep, -⟩ := (run_cons _).1 hrun
    rcases hown a List.mem_cons_self with rfl | rfl
    · simp only [step, handled, hi] at hstep
      cases hstep
    · simp only [step, respond, hi] at hstep
      cases hstep

/-- A reply that comes before the call waits for its event, and then the deadline. -/
def lateRun : List HttpAction :=
  [.request (str "r"), .register 0 ⟨str "GET", [], [], []⟩ none,
    .outbound (aReply (str "r") (str "Hello")), .publish 0 ⟨0, str "e", DateTime.min⟩,
    .handled 0, .interrupt 0, .leave 0]

/-- Two replies to a request before the call goes on. -/
def doubleRun : List HttpAction :=
  [.request (str "r"), .register 0 ⟨str "GET", [], [], []⟩ none, .handled 0,
    .outbound (aReply (str "r") (str "Hello")), .outbound (aReply (str "r") (str "Bye")),
    .publish 0 ⟨0, str "e", DateTime.min⟩, .respond 0]

/-- A reply may be acknowledged and lost; and to AAT USSD, the reply that is returned may be another
one than is acknowledged, whose handling has raised. -/
theorem replies_not_faithful :
    (∃ s, run (step Replying.httpRpc) new lateRun = some s ∧ ¬ Faithful Replying.httpRpc s) ∧
      ∃ s, run (step (Replying.aatUssd closingBody)) new doubleRun = some s ∧
        ¬ Faithful (Replying.aatUssd closingBody) s := by
  constructor
  · -- The call has ended with `504`, and cannot return the reply.
    refine ⟨_, rfl, fun hfaithful => ?_⟩
    obtain ⟨response, i, stage, -, hi, hreturns⟩ := hfaithful.delivered 0 _ ⟨true, rfl⟩
    cases i with
    | zero => exact not_returns_of_ended rfl response 0 hreturns
    | succ i => cases hi
  · -- The second reply is returned, whose handling raised `KeyError`.
    refine ⟨_, rfl, fun hfaithful => ?_⟩
    obtain ⟨message, -, -, hpublishes⟩ := hfaithful.acknowledged 0 (str "r") _ 1 rfl
    rcases hpublishes with ⟨hk, -⟩ | ⟨hk, -⟩
    · cases hk
    · cases hk

end HttpWorker

end Vumi2
