import Vumi2.HttpRpc.Replies

/-!
# The requests and results that `HttpRpcTransport` keeps

A request is stored until it is finished, its result until the call of `inbound_request` takes it,
and the `finally` clause drops what is left of either. So nothing stays in the two tables when its
call has ended: `tables_never_leak` says so for every run of `HttpRpcTransport` with its own
`handle_outbound_message`, whatever replies come and wherever calls are interrupted.

`handle_raw_inbound_message` is the subclass's. Besides what it does when it is called, it may call
`finish_request` for its own request at any later time, as long as the request is pending
(`OwnPending`); that is the one condition on a run.

The invariant says at each stage of a call what the tables hold for it (`Holds`). Every step changes
the tables at one identifier (`SameTables`).
-/

namespace Vumi2

open Text HttpRpcTransport Machine

/-- The call has not returned yet, nor raised. -/
def InboundStage.InProgress : InboundStage → Prop
  | .returned _ _ | .ended => False
  | _ => True

/-- What happens in a transport: an action of one of its handlers, or a later call of
`finish_request` by the `handle_raw_inbound_message` of call `i`. -/
inductive TableAction where
  | call (a : HttpAction)
  | finish (i : ℕ) (response : HttpResponse)

namespace HttpWorker

/-- `handle_raw_inbound_message` calls `finish_request` for its own request. -/
def finishOwn (s : HttpWorker) (i : ℕ) (response : HttpResponse) : Option HttpWorker :=
  match s.inbound[i]? with
  | some ⟨message_id, _⟩ =>
    some { s with
      transport := (s.transport.finish message_id response).1
      sources := s.sources.set message_id none }
  | none => none

/-- The state of an `HttpRpcTransport` after an action. -/
def tableStep (s : HttpWorker) : TableAction → Option HttpWorker
  | .call a => step Replying.httpRpc s a
  | .finish i response => s.finishOwn i response

/-- `handle_raw_inbound_message` calls `finish_request` only while its request is pending. -/
def OwnPending (s : HttpWorker) : TableAction → Prop
  | .finish i _ => ∀ (message_id : Str) (stage : InboundStage),
      s.inbound[i]? = some ⟨message_id, stage⟩ → s.transport.requests.get? message_id ≠ none
  | .call _ => True

/-- The identifier is that of a call in progress. -/
def Serves (s : HttpWorker) (message_id : Str) : Prop :=
  ∃ (i : ℕ) (stage : InboundStage), s.inbound[i]? = some ⟨message_id, stage⟩ ∧ stage.InProgress

/-- The tables hold nothing but what a call in progress is going to need. -/
structure NoLeak (s : HttpWorker) : Prop where
  requests : ∀ message_id ∈ s.transport.requests.keys, s.Serves message_id
  results : ∀ message_id ∈ s.transport.results.keys, s.Serves message_id
  disjoint : ∀ message_id ∈ s.transport.requests.keys, message_id ∉ s.transport.results.keys
  /-- No call of `finish_request` has failed to find its request. -/
  finds : ∀ call ∈ s.outbound, ∀ e, call.verdict ≠ .raised e
  /-- A call that goes on after its event finds its result, and returns it. -/
  completes : ∀ i s', s.respond i = some s' →
    ∃ (message_id : Str) (response : HttpResponse) (source : Option ℕ),
      s.transport.results.get? message_id = some response ∧
      s'.inbound[i]? = some ⟨message_id, .returned response source⟩

end HttpWorker

/-! ## What the tables hold for a request -/

namespace HttpRpcTransport

/-- The request is in neither table, and its event was never set. -/
structure Absent (t : HttpRpcTransport) (message_id : Str) : Prop where
  requests : t.requests.get? message_id = none
  results : t.results.get? message_id = none
  woken : message_id ∉ t.woken

/-- The request has no result yet, and its event was never set. -/
structure Unfinished (t : HttpRpcTransport) (message_id : Str) : Prop where
  results : t.results.get? message_id = none
  woken : message_id ∉ t.woken

/-- The request has its result, and is pending no more. -/
structure Stored (t : HttpRpcTransport) (message_id : Str) : Prop where
  requests : t.requests.get? message_id = none
  results : ∃ response, t.results.get? message_id = some response
  woken : message_id ∈ t.woken

/-- The request is in neither table any more. -/
structure Cleared (t : HttpRpcTransport) (message_id : Str) : Prop where
  requests : t.requests.get? message_id = none
  results : t.results.get? message_id = none

/-- Two transports hold the same for a request. -/
structure SameTables (t t' : HttpRpcTransport) (message_id : Str) : Prop where
  requests : t'.requests.get? message_id = t.requests.get? message_id
  results : t'.results.get? message_id = t.results.get? message_id
  woken : message_id ∈ t'.woken ↔ message_id ∈ t.woken

section

variable {t t' : HttpRpcTransport} {message_id other : Str}

/-- A transport holds for a request what it holds. -/
theorem SameTables.refl (t : HttpRpcTransport) (message_id : Str) : SameTables t t message_id :=
  ⟨rfl, rfl, Iff.rfl⟩

/-- A request for which the same is held is still absent. -/
theorem Absent.congr (hsame : SameTables t t' message_id) (h : t.Absent message_id) :
    t'.Absent message_id :=
  ⟨hsame.requests.trans h.requests, hsame.results.trans h.results,
    fun hwoken => h.woken (hsame.woken.1 hwoken)⟩

/-- A request for which the same is held is still unfinished. -/
theorem Unfinished.congr (hsame : SameTables t t' message_id) (h : t.Unfinished message_id) :
    t'.Unfinished message_id :=
  ⟨hsame.results.trans h.results, fun hwoken => h.woken (hsame.woken.1 hwoken)⟩

/-- A request for which the same is held has still its result. -/
theorem Stored.congr (hsame : SameTables t t' message_id) (h : t.Stored message_id) :
    t'.Stored message_id := by
  obtain ⟨response, hresponse⟩ := h.results
  exact ⟨hsame.requests.trans h.requests, ⟨response, hsame.results.trans hresponse⟩,
    hsame.woken.2 h.woken⟩

/-- A request for which the same is held is still cleared. -/
theorem Cleared.congr (hsame : SameTables t t' message_id) (h : t.Cleared message_id) :
    t'.Cleared message_id :=
  ⟨hsame.requests.trans h.requests, hsame.results.trans h.results⟩

/-- `finish_request` stores the result of one request. -/
theorem stored_finished (t : HttpRpcTransport) (message_id : Str) (response : HttpResponse) :
    (t.finished message_id response).Stored message_id :=
  ⟨Dict.get?_erase_self _ _, ⟨response, Dict.get?_set_self _ _ response⟩,
    List.mem_append_right _ (List.mem_singleton.2 rfl)⟩

/-- It leaves the others as they were. -/
theorem sameTables_finished (t : HttpRpcTransport) (response : HttpResponse)
    (hne : other ≠ message_id) : SameTables t (t.finished message_id response) other := by
  refine ⟨Dict.get?_erase_of_ne _ hne, Dict.get?_set_of_ne _ response hne, ?_⟩
  show other ∈ t.woken ++ [message_id] ↔ other ∈ t.woken
  simp [hne]

end

end HttpRpcTransport

namespace HttpWorker

/-- What the tables hold for a call at its stage. -/
def Holds (t : HttpRpcTransport) (call : InboundCall) : Prop :=
  match call.stage with
  | .reading => t.Absent call.message_id
  | .handling | .parked | .leaving => t.Unfinished call.message_id ∨ t.Stored call.message_id
  | .passing => t.Stored call.message_id
  | .returned _ _ | .ended => t.Cleared call.message_id

/-- The invariant of the tables. -/
structure Tidy (s : HttpWorker) : Prop where
  distinct : s.ids.Nodup
  fresh : ∀ message_id, message_id ∉ s.ids → s.transport.Absent message_id
  holds : ∀ (i : ℕ) (call : InboundCall), s.inbound[i]? = some call → Holds s.transport call
  finds : ∀ call ∈ s.outbound, ∀ e, call.verdict ≠ .raised e

section

variable {s s' : HttpWorker}

/-- A call for whose request the same is held goes on with it. -/
theorem Holds.congr {t t' : HttpRpcTransport} {call : InboundCall}
    (hsame : SameTables t t' call.message_id) (hholds : Holds t call) : Holds t' call := by
  obtain ⟨message_id, stage⟩ := call
  cases stage with
  | reading => exact Absent.congr hsame hholds
  | handling => exact hholds.imp (Unfinished.congr hsame) (Stored.congr hsame)
  | parked => exact hholds.imp (Unfinished.congr hsame) (Stored.congr hsame)
  | passing => exact Stored.congr hsame hholds
  | leaving => exact hholds.imp (Unfinished.congr hsame) (Stored.congr hsame)
  | returned response source => exact Cleared.congr hsame hholds
  | ended => exact Cleared.congr hsame hholds

/-- A step of one call, which leaves the tables as they were at the other requests. -/
theorem Tidy.of_call (htidy : Tidy s) {i : ℕ} {message_id : Str} {stage stage' : InboundStage}
    (hi : s.inbound[i]? = some ⟨message_id, stage⟩)
    (hinbound : s'.inbound = s.inbound.set i ⟨message_id, stage'⟩)
    (hout : s'.outbound = s.outbound)
    (hothers : ∀ other, other ≠ message_id → SameTables s.transport s'.transport other)
    (hown : Holds s'.transport ⟨message_id, stage'⟩) : Tidy s' := by
  have hids : s'.ids = s.ids := by
    unfold ids
    rw [hinbound]
    exact Slots.map_set_keep InboundCall.message_id hi rfl
  refine ⟨by rw [hids]; exact htidy.distinct, fun other hother => ?_, ?_, ?_⟩
  · rw [hids] at hother
    have hne : other ≠ message_id := by
      rintro rfl
      exact hother (mem_ids hi)
    exact (htidy.fresh other hother).congr (hothers other hne)
  · rw [hinbound]
    refine Slots.forall_getElem?_set hi (fun j call hji hj => ?_) hown
    exact (htidy.holds j call hj).congr (hothers _ (ne_of_ne htidy.distinct hi hj hji))
  · rw [hout]
    exact htidy.finds

/-! ## Steps -/

/-- A call that changes its stage alone. -/
theorem Tidy.setStage (htidy : Tidy s) {i : ℕ} {message_id : Str} {stage stage' : InboundStage}
    (hi : s.inbound[i]? = some ⟨message_id, stage⟩)
    (hown : Holds s.transport ⟨message_id, stage'⟩) : Tidy (s.setStage i message_id stage') :=
  htidy.of_call hi rfl rfl (fun other _ => SameTables.refl s.transport other) hown

/-- A call that ends, and cleans up. -/
theorem Tidy.cleanUp (htidy : Tidy s) {i : ℕ} {message_id : Str} {stage stage' : InboundStage}
    (hi : s.inbound[i]? = some ⟨message_id, stage⟩)
    (hends : ∀ t : HttpRpcTransport, t.Cleared message_id → Holds t ⟨message_id, stage'⟩) :
    Tidy ((s.setStage i message_id stage').cleanUp message_id) := by
  refine htidy.of_call hi rfl rfl (fun other hne => ⟨?_, ?_, Iff.rfl⟩) (hends _ ⟨?_, ?_⟩)
  · exact Dict.get?_erase_of_ne _ hne
  · exact Dict.get?_erase_of_ne _ hne
  · exact Dict.get?_erase_self _ _
  · exact Dict.get?_erase_self _ _

/-- A call of a stage at which its request is stored keeps to the tables of a finished one. -/
theorem holds_finished {t : HttpRpcTransport} {message_id : Str} {stage : InboundStage}
    (response : HttpResponse) (hholds : Holds t ⟨message_id, stage⟩)
    (hfound : t.requests.get? message_id ≠ none) :
    Holds (t.finished message_id response) ⟨message_id, stage⟩ := by
  have hstored := stored_finished t message_id response
  cases stage with
  | reading => exact absurd hholds.requests hfound
  | handling => exact .inr hstored
  | parked => exact .inr hstored
  | passing => exact hstored
  | leaving => exact .inr hstored
  | returned response source => exact absurd hholds.requests hfound
  | ended => exact absurd hholds.requests hfound

/-- `finish_request` for a request that is pending, by whichever call. -/
theorem Tidy.finished (htidy : Tidy s) {message_id : Str} (response : HttpResponse)
    (hfound : s.transport.requests.get? message_id ≠ none) (hinbound : s'.inbound = s.inbound)
    (htransport : s'.transport = s.transport.finished message_id response)
    (hfinds : ∀ call ∈ s'.outbound, ∀ e, call.verdict ≠ .raised e) : Tidy s' := by
  have hids : s'.ids = s.ids := congrArg (List.map InboundCall.message_id) hinbound
  refine ⟨by rw [hids]; exact htidy.distinct, fun other hother => ?_, fun i call hi => ?_, hfinds⟩
  · rw [hids] at hother
    have habsent := htidy.fresh other hother
    have hne : other ≠ message_id := by
      rintro rfl
      exact hfound habsent.requests
    rw [htransport]
    exact habsent.congr (sameTables_finished s.transport response hne)
  · rw [hinbound] at hi
    have hholds := htidy.holds i call hi
    rw [htransport]
    by_cases heq : call.message_id = message_id
    · subst heq
      exact holds_finished response hholds hfound
    · exact hholds.congr (sameTables_finished s.transport response heq)

/-- An outbound message or a publication that touches no table. -/
theorem Tidy.of_tables (htidy : Tidy s) (hinbound : s'.inbound = s.inbound)
    (hsame : ∀ message_id, SameTables s.transport s'.transport message_id)
    (hfinds : ∀ call ∈ s'.outbound, ∀ e, call.verdict ≠ .raised e) : Tidy s' := by
  have hids : s'.ids = s.ids := congrArg (List.map InboundCall.message_id) hinbound
  refine ⟨by rw [hids]; exact htidy.distinct, fun other hother => ?_, fun i call hi => ?_, hfinds⟩
  · rw [hids] at hother
    exact (htidy.fresh other hother).congr (hsame other)
  · rw [hinbound] at hi
    exact (htidy.holds i call hi).congr (hsame call.message_id)

/-- The tables of a new transport are empty. -/
theorem tidy_new : Tidy new := by
  refine ⟨List.nodup_nil, fun message_id _ => ⟨rfl, rfl, List.not_mem_nil⟩, ?_, ?_⟩
  · intro i call hi
    cases hi
  · intro call hcall
    cases hcall

/-- A new call has nothing in the tables yet. -/
theorem tidy_request {message_id : Str} (htidy : Tidy s) (hnew : message_id ∉ s.ids) :
    Tidy { s with inbound := s.inbound ++ [⟨message_id, .reading⟩] } := by
  have hids : ids { s with inbound := s.inbound ++ [⟨message_id, .reading⟩] } =
      s.ids ++ [message_id] := by
    unfold ids
    rw [List.map_append]
    rfl
  refine ⟨?_, fun other hother => ?_, fun i call hi => ?_, htidy.finds⟩
  · rw [hids, List.nodup_append]
    refine ⟨htidy.distinct, List.nodup_singleton _, fun a ha b hb hab => ?_⟩
    obtain rfl := List.mem_singleton.1 hb
    exact hnew (hab ▸ ha)
  · rw [hids, List.mem_append] at hother
    push Not at hother
    exact htidy.fresh other hother.1
  · rcases Slots.getElem?_append_singleton.1 hi with hi | ⟨-, rfl⟩
    · exact htidy.holds i call hi
    · exact htidy.fresh message_id hnew

/-- A call that registers its request puts it among the pending ones. -/
theorem tidy_register {i : ℕ} {r : HttpRequest} {rejection : Option HttpResponse} (htidy : Tidy s)
    (hstep : s.register i r rejection = some s') : Tidy s' := by
  obtain ⟨message_id, hi, ⟨-, rfl⟩ | ⟨response, -, rfl⟩⟩ := register_cases hstep
  · have habsent : s.transport.Absent message_id := htidy.holds i _ hi
    refine htidy.of_call hi rfl rfl (fun other hne => ⟨?_, rfl, Iff.rfl⟩) (.inl ?_)
    · exact Dict.get?_set_of_ne _ r hne
    · exact ⟨habsent.results, habsent.woken⟩
  · -- It is finished in the same step as it is stored.
    refine htidy.of_call hi rfl rfl (fun other hne => ?_) (.inr ?_)
    · obtain ⟨hrequests, hresults, hwoken⟩ := sameTables_finished
        { s.transport with requests := s.transport.requests.set message_id r } response hne
      exact ⟨hrequests.trans (Dict.get?_set_of_ne _ r hne), hresults, hwoken⟩
    · exact stored_finished _ message_id response

/-- A call that has handled its request leaves the tables alone. -/
theorem tidy_handled {i : ℕ} (htidy : Tidy s) (hstep : s.handled i = some s') : Tidy s' := by
  obtain ⟨message_id, hi, rfl⟩ := handled_cases hstep
  have hholds : s.transport.Unfinished message_id ∨ s.transport.Stored message_id :=
    htidy.holds i _ hi
  refine htidy.setStage hi ?_
  split_ifs with hwoken
  · -- An event that is set has its result stored.
    rcases hholds with hpending | hstored
    · exact absurd (isSet_iff.1 hwoken) hpending.woken
    · exact hstored
  · exact hholds

/-- A call that is interrupted leaves the tables alone, until it cleans up. -/
theorem tidy_interrupt {i : ℕ} (htidy : Tidy s) (hstep : s.interrupt i = some s') : Tidy s' := by
  obtain ⟨message_id, stage, hi, hstage, rfl⟩ := interrupt_cases hstep
  -- What the tables hold is left to the `finally` clause.
  have hkeeps : s.transport.Unfinished message_id ∨ s.transport.Stored message_id := by
    have hholds := htidy.holds i _ hi
    rcases hstage with rfl | rfl | rfl | rfl
    · have habsent : s.transport.Absent message_id := hholds
      exact .inl ⟨habsent.results, habsent.woken⟩
    · exact hholds
    · exact .inr hholds
    · exact hholds
  exact htidy.setStage hi hkeeps

/-- A call that goes on after its event has its result stored. -/
theorem stored_of_respond {i : ℕ} (htidy : Tidy s) (hstep : s.respond i = some s') :
    ∃ (message_id : Str) (stage : InboundStage), s.inbound[i]? = some ⟨message_id, stage⟩ ∧
      s.transport.Stored message_id ∧ s' = s.takeResult i message_id := by
  obtain ⟨message_id, stage, hi, hstage, rfl⟩ := respond_cases hstep
  have hholds := htidy.holds i _ hi
  rcases hstage with ⟨rfl, hwoken⟩ | rfl
  · rcases hholds with hpending | hstored
    · -- The event of a pending request is not set.
      exact absurd (isSet_iff.1 hwoken) hpending.woken
    · exact ⟨message_id, .parked, hi, hstored, rfl⟩
  · exact ⟨message_id, .passing, hi, hholds, rfl⟩

/-- A call that responds cleans up after itself. -/
theorem tidy_respond {i : ℕ} (htidy : Tidy s) (hstep : s.respond i = some s') : Tidy s' := by
  obtain ⟨message_id, stage, hi, hstored, rfl⟩ := stored_of_respond htidy hstep
  obtain ⟨response, hresponse⟩ := hstored.results
  unfold takeResult
  rw [hresponse]
  exact htidy.cleanUp hi fun t hcleared => hcleared

/-- A call that leaves cleans up after itself. -/
theorem tidy_leave {i : ℕ} (htidy : Tidy s) (hstep : s.leave i = some s') : Tidy s' := by
  obtain ⟨message_id, hi, rfl⟩ := leave_cases hstep
  exact htidy.cleanUp hi fun t hcleared => hcleared

/-- `HttpRpcTransport.handle_outbound_message` looks for the request before it finishes it. -/
theorem answer_ne_raised (message : Message) (t : HttpRpcTransport) (e : PyExc) :
    (Replying.httpRpc.answer message t).2 ≠ .raised e := by
  rw [Replying.answer_httpRpc]
  unfold HttpRpcTransport.answer finish
  split_ifs with hmissing hnone
  · simp
  · simp
  · cases hfound : t.requests.get? (replyTo message) with
    | none => exact absurd (by rw [hfound]; rfl) hnone
    | some request => simp

/-- An outbound message finishes the request that it finds, or does nothing to the tables. -/
theorem tidy_outbound (message : Message) (htidy : Tidy s) :
    Tidy (handleOutbound Replying.httpRpc s message) := by
  -- The new call has not raised.
  have hfinds : ∀ call ∈ (handleOutbound Replying.httpRpc s message).outbound, ∀ e,
      call.verdict ≠ .raised e := by
    intro call hcall
    rcases List.mem_append.1 hcall with hold | hnew
    · exact htidy.finds call hold
    · rw [List.mem_singleton.1 hnew]
      exact answer_ne_raised message s.transport
  rcases handleOutbound_cases Replying.httpRpc s message with
    ⟨verdict, -, heq⟩ | ⟨response, -, ⟨hchecks, -⟩ | ⟨hfound, heq⟩⟩
  · rw [heq] at hfinds ⊢
    exact htidy.of_tables rfl (fun other => SameTables.refl s.transport other) hfinds
  · exact Bool.noConfusion hchecks
  · rw [heq] at hfinds ⊢
    exact htidy.finished response hfound rfl rfl hfinds

/-- The publishing of an event leaves the tables alone. -/
theorem tidy_publish {k : ℕ} {r : Reading} (htidy : Tidy s)
    (hstep : s.publishEvent k r = some s') : Tidy s' := by
  obtain ⟨message, verdict, event, hk, -, rfl⟩ := publishEvent_cases hstep
  -- The call keeps its verdict.
  have hverdict : ∀ e, verdict ≠ .raised e := htidy.finds _ (List.mem_of_getElem? hk)
  exact htidy.of_tables rfl (fun _ => ⟨rfl, rfl, Iff.rfl⟩)
    (Slots.forall_mem_set htidy.finds hverdict)

/-- A call may finish its own request while that is pending. -/
theorem tidy_finishOwn {i : ℕ} {response : HttpResponse} (htidy : Tidy s)
    (hpending : OwnPending s (.finish i response)) (hstep : s.finishOwn i response = some s') :
    Tidy s' := by
  unfold finishOwn at hstep
  split at hstep
  case h_2 => cases hstep
  case h_1 message_id stage hi =>
    obtain rfl := Option.some.inj hstep
    have hfound := hpending message_id stage hi
    refine htidy.finished response hfound rfl ?_ htidy.finds
    unfold finish
    cases hrequest : s.transport.requests.get? message_id with
    | none => exact absurd hrequest hfound
    | some request => rfl

/-- Each step keeps the tables tidy. -/
theorem tidy_step (a : TableAction) (htidy : Tidy s) (hpending : OwnPending s a)
    (hstep : tableStep s a = some s') : Tidy s' := by
  cases a with
  | finish i response => exact tidy_finishOwn htidy hpending hstep
  | call a =>
    cases a with
    | request message_id =>
      simp only [tableStep, step] at hstep
      split_ifs at hstep with hnew
      obtain rfl := Option.some.inj hstep
      -- The id is new, as the table of the calls is asked before.
      refine tidy_request htidy fun hmem => hnew ?_
      obtain ⟨call, hcall, heq⟩ := List.mem_map.1 hmem
      exact List.any_eq_true.2 ⟨call, hcall, decide_eq_true heq⟩
    | register i r rejection => exact tidy_register htidy hstep
    | handled i => exact tidy_handled htidy hstep
    | interrupt i => exact tidy_interrupt htidy hstep
    | respond i => exact tidy_respond htidy hstep
    | leave i => exact tidy_leave htidy hstep
    | outbound message =>
      obtain rfl := Option.some.inj hstep
      exact tidy_outbound message htidy
    | publish k r => exact tidy_publish htidy hstep

/-! ## Runs -/

/-- A request that has anything in the tables is that of a call in progress. -/
theorem Tidy.serves (htidy : Tidy s) {message_id : Str}
    (hheld : ¬ s.transport.Cleared message_id) : s.Serves message_id := by
  have hmem : message_id ∈ s.ids := by
    by_contra hnot
    have habsent := htidy.fresh message_id hnot
    exact hheld ⟨habsent.requests, habsent.results⟩
  obtain ⟨⟨_, stage⟩, hcall, rfl⟩ := List.mem_map.1 hmem
  obtain ⟨i, hi⟩ := List.getElem?_of_mem hcall
  refine ⟨i, stage, hi, ?_⟩
  have hholds := htidy.holds i _ hi
  cases stage with
  | returned response source => exact hheld hholds
  | ended => exact hheld hholds
  | reading => trivial
  | handling => trivial
  | parked => trivial
  | passing => trivial
  | leaving => trivial

/-- Tidy tables hold nothing but what a call in progress needs. -/
theorem Tidy.noLeak (htidy : Tidy s) : NoLeak s where
  requests := by
    intro message_id hmem
    exact htidy.serves fun hcleared => Dict.get?_eq_none.1 hcleared.requests hmem
  results := by
    intro message_id hmem
    exact htidy.serves fun hcleared => Dict.get?_eq_none.1 hcleared.results hmem
  disjoint := by
    intro message_id hmem
    obtain ⟨i, stage, hi, hprogress⟩ :=
      htidy.serves fun hcleared => Dict.get?_eq_none.1 hcleared.requests hmem
    have hholds := htidy.holds i _ hi
    -- A request in the table has not been finished, so that it has no result.
    have hresults : s.transport.Unfinished message_id ∨ s.transport.Stored message_id →
        message_id ∉ s.transport.results.keys := by
      rintro (hpending | hstored)
      · exact Dict.get?_eq_none.1 hpending.results
      · exact absurd hmem (Dict.get?_eq_none.1 hstored.requests)
    cases stage with
    | reading => exact absurd hmem (Dict.get?_eq_none.1 hholds.requests)
    | handling => exact hresults hholds
    | parked => exact hresults hholds
    | passing => exact hresults (.inr hholds)
    | leaving => exact hresults hholds
    | returned response source => exact hprogress.elim
    | ended => exact hprogress.elim
  finds := htidy.finds
  completes := by
    intro i s' hstep
    obtain ⟨message_id, stage, hi, hstored, rfl⟩ := stored_of_respond htidy hstep
    obtain ⟨response, hresponse⟩ := hstored.results
    refine ⟨message_id, response, (s.sources.get? message_id).getD none, hresponse, ?_⟩
    unfold takeResult
    rw [hresponse]
    exact (Slots.getElem?_set_eq_some hi).2 (.inl ⟨rfl, rfl⟩)

/-- In every run of `HttpRpcTransport`, the tables hold nothing but what calls in progress need. -/
theorem tables_never_leak {as : List TableAction} (hown : Meets tableStep OwnPending new as)
    (hrun : run tableStep new as = some s) : NoLeak s := by
  have htidy : Tidy s :=
    run_induction tableStep (fun _ a _ htidy hpending hstep => tidy_step a htidy hpending hstep)
      tidy_new hown hrun
  exact htidy.noLeak

end

open AatUssdTransport (aReply)

/-- Two requests: the first is finished by its own `handle_raw_inbound_message` when a reply to it
comes late, the second is answered while it is already leaving. -/
def busyRun : List TableAction :=
  [.call (.request (str "r")), .call (.request (str "q")),
    .call (.register 0 ⟨str "GET", [], [], []⟩ none),
    .call (.register 1 ⟨str "GET", [], [], []⟩ none),
    .finish 0 ⟨.value .null, 400, []⟩, .call (.outbound (aReply (str "r") (str "Hello"))),
    .call (.handled 0), .call (.interrupt 1), .call (.outbound (aReply (str "q") (str "Hello"))),
    .call (.leave 1)]

/-- In the busy run, own requests are finished only while they are pending. -/
theorem meets_busyRun : Meets tableStep OwnPending new busyRun := by
  unfold busyRun
  refine meets_cons _ trivial rfl (meets_cons _ trivial rfl (meets_cons _ trivial rfl
    (meets_cons _ trivial rfl (meets_cons _ ?_ rfl (meets_cons _ trivial rfl
    (meets_cons _ trivial rfl (meets_cons _ trivial rfl (meets_cons _ trivial rfl
    (meets_cons _ trivial rfl trivial)))))))))
  intro message_id stage hi
  obtain ⟨rfl, -⟩ := InboundCall.mk.inj (Option.some.inj hi)
  exact fun hnone => Option.some_ne_none _ hnone

/-- The run is possible, and the result of the first request is all that the tables hold after
it. -/
theorem busyRun_noLeak : ∃ s, run tableStep new busyRun = some s ∧ NoLeak s ∧
    s.transport.requests.keys = [] ∧ s.transport.results.keys = [str "r"] :=
  ⟨_, rfl, tables_never_leak meets_busyRun rfl, rfl, rfl⟩

end HttpWorker

end Vumi2
