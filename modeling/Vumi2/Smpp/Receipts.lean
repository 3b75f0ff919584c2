import Vumi2.Smpp.DeliveryReport

/-!
# How long a delivery report finds its message

`handleDeliverSm_eq` says that a processor reads a PDU as a report of an SMPP message id and a
status (`reads`), or as none, and that only reading it as a report touches the cache. The operations
on a cache, one after another, are then a list of `CacheOp`s.

The mapping of an id should last until a final report (`KeptUntilFinal`). But every look-up of the
cache takes the entry out, so it lasts only when the first operation that concerns the id may end
it (`EndedFirst`).
-/

namespace Vumi2.Smpp

open Effect Eff Text InMemorySmppCache

namespace DeliveryReportProcesser

variable (self : DeliveryReportProcesser)

/-- The id and the status that the text of a PDU reports, if it matches the regex. -/
def readsBody (pdu : DeliverSM) : Except PyExc (Option (Option Str × Option Str)) := do
  let content ← decodeLatin1 pdu.short_message
  match self.regex content with
  | none => .ok none
  | some fields => do
    let id ← field fields "id"
    let stat ← field fields "stat"
    .ok (some (id, stat))

/-- The id and the status that a PDU reports, if it is a delivery report. -/
def reads (pdu : DeliverSM) : Except PyExc (Option (Option Str × Option Str)) :=
  match pdu.receipted_message_id, pdu.message_state with
  | some receipted_message_id, some message_state => do
    let id ← decodeUtf8 receipted_message_id
    .ok (some (some id, some message_state.name))
  | _, _ => self.readsBody pdu

/-- What follows once a PDU is read. -/
def handleRead : Option (Option Str × Option Str) → Py InMemorySmppCache (Bool × Option Event)
  | none => pure (false, none)
  | some (id, stat) => do
    let event ← self.createEvent id stat
    pure (true, event)

/-- The body is read first, and then what was read is handled. -/
theorem handleDeliverSmBody_eq (pdu : DeliverSM) :
    self.handleDeliverSmBody pdu = ofExcept (self.readsBody pdu) >>= self.handleRead := by
  rw [handleDeliverSmBody, readsBody]
  cases decodeLatin1 pdu.short_message with
  | error e => rfl
  | ok content =>
    simp only [ofExcept_ok, pure_bind, ok_bind]
    cases self.regex content with
    | none => rfl
    | some fields =>
      dsimp only
      cases field fields "id" with
      | error e => rfl
      | ok id =>
        cases field fields "stat" with
        | error e => rfl
        | ok stat => simp [handleRead]

/-- Reading the text a second time finds nothing that reading it once does not. -/
theorem tryEach_body (pdu : DeliverSM) :
    tryEach [self.handleDeliverSmEsmClass pdu, self.handleDeliverSmBody pdu] =
      ofExcept (self.readsBody pdu) >>= self.handleRead := by
  simp only [tryEach, handleDeliverSmEsmClass, handleDeliverSmBody_eq]
  cases self.readsBody pdu with
  | error e =>
    split_ifs
    · rfl
    · rfl
  | ok r =>
    cases r with
    | none =>
      split_ifs
      · rfl
      · rfl
    | some r =>
      split_ifs
      · simp [handleRead]
      · simp [handleRead]

/-- A PDU is read, and touches the cache only as a report. -/
theorem handleDeliverSm_eq (pdu : DeliverSM) :
    self.handleDeliverSm pdu = ofExcept (self.reads pdu) >>= self.handleRead := by
  have hbody := self.tryEach_body pdu
  rw [handleDeliverSm, tryEach, handleDeliverSmOptionalParams, reads]
  cases pdu.receipted_message_id with
  | none => simpa using hbody
  | some receipted =>
    cases pdu.message_state with
    | none => simpa using hbody
    | some state =>
      dsimp only
      cases decodeUtf8 receipted with
      | error e => rfl
      | ok id => simp [handleRead]

end DeliveryReportProcesser

/-! ## What a report does to the mapping of an id -/

section

variable {id v : Str} {t timeout : ℚ}

/-- The mapping of an id to a vumi message id, set at the time `t`. -/
abbrev Mapped (id v : Str) (t timeout : ℚ) (c : InMemorySmppCache) : Prop :=
  TimeoutDict.Holds id t v timeout c.smpp_msg_id

/-- Whether an id is mapped. -/
def Unmapped (id : Str) (c : InMemorySmppCache) : Prop := c.smpp_msg_id.data.get? id = none

/-- Looking up another id in time leaves the mapping. -/
theorem keeps_lookUp {other : Option Str} (h : other ≠ some id) :
    Keeps (TimeoutDict.InTime t timeout) (Mapped id v t timeout)
      (DeliveryReportProcesser.lookUp other) := by
  cases other with
  | some other => exact keeps_on (fun _ _ => rfl) (TimeoutDict.keeps_pop fun heq => h (by rw [heq]))
  | none =>
    exact keeps_on (fun _ _ => rfl) (keeps_bind TimeoutDict.keeps_removeExpired fun _ =>
      keeps_bind TimeoutDict.keeps_removeExpired fun _ => keeps_pure _)

/-- Deleting another id in time leaves the mapping. -/
theorem keeps_deleteSmppMessageId {other : Str} (h : id ≠ other) :
    Keeps (TimeoutDict.InTime t timeout) (Mapped id v t timeout) (deleteSmppMessageId other) :=
  keeps_on (fun _ _ => rfl) (keeps_bind (TimeoutDict.keeps_pop h) fun _ => keeps_pure _)

/-- Forgetting another id in time leaves the mapping. -/
theorem keeps_forget {other : Option Str} (h : other ≠ some id) :
    Keeps (TimeoutDict.InTime t timeout) (Mapped id v t timeout)
      (DeliveryReportProcesser.forget other) := by
  cases other with
  | some other => exact keeps_deleteSmppMessageId fun heq => h (by rw [heq])
  | none =>
    exact keeps_on (fun _ _ => rfl) (keeps_bind TimeoutDict.keeps_removeExpired fun _ =>
      TimeoutDict.keeps_removeExpired)

/-- A report on another id keeps the mapping. -/
theorem keeps_createEvent (P : DeliveryReportProcesser) {other : Option Str} (h : other ≠ some id)
    (stat : Option Str) :
    Keeps (TimeoutDict.InTime t timeout) (Mapped id v t timeout) (P.createEvent other stat) := by
  refine keeps_bind (keeps_ofExcept _) fun status => keeps_bind (keeps_lookUp h) fun found => ?_
  cases found with
  | none => exact keeps_pure _
  | some w =>
    dsimp only
    split_ifs
    · exact keeps_pure _
    · refine keeps_bind ?_ fun _ => keeps_bind keeps_read fun _ => keeps_pure _
      rw [DeliveryReportProcesser.forgetIfFinal]
      split_ifs
      · exact keeps_forget h
      · exact keeps_pure _

/-- No look-up or deletion brings an id back. -/
theorem keeps_unmapped_pop {ok : Reading → Prop} (other : Str) :
    Keeps ok (Unmapped id) (onSmppMsgId (TimeoutDict.pop other)) := by
  intro env c _ hnone
  show ((TimeoutDict.pop other).run env c.smpp_msg_id).state.data.get? id = none
  rw [TimeoutDict.run_pop]
  apply TimeoutDict.get?_expire_eq_none
  rw [Dict.get?_erase]
  split_ifs
  · rfl
  · exact TimeoutDict.get?_expire_eq_none hnone

/-- A report on an id leaves it without a mapping, whatever the status. -/
theorem unmapped_createEvent (P : DeliveryReportProcesser) {stat : Option Str}
    {status : DeliveryStatus} (hstatus : P.mappedStatus stat = .ok status) (env : ℕ → Reading)
    (c : InMemorySmppCache) : Unmapped id ((P.createEvent (some id) stat).run env c).state := by
  rw [DeliveryReportProcesser.createEvent, hstatus, ofExcept_ok, pure_bind]
  refine holds_bind (fun env c => TimeoutDict.get?_pop env c.smpp_msg_id) (fun found => ?_) env c
  cases found with
  | none => exact keeps_pure _
  | some w =>
    dsimp only
    split_ifs
    · exact keeps_pure _
    · refine keeps_bind ?_ fun _ => keeps_bind keeps_read fun _ => keeps_pure _
      rw [DeliveryReportProcesser.forgetIfFinal]
      split_ifs
      · exact keeps_bind (keeps_unmapped_pop id) fun _ => keeps_pure _
      · exact keeps_pure _

/-- Forgetting a final report never raises. -/
theorem result_forgetIfFinal (status : DeliveryStatus) (env : ℕ → Reading)
    (c : InMemorySmppCache) :
    ((DeliveryReportProcesser.forgetIfFinal status (some id)).run env c).result = .ok () := by
  rw [DeliveryReportProcesser.forgetIfFinal]
  split_ifs
  · show ((TimeoutDict.pop id >>= fun _ => pure ()).run env c.smpp_msg_id).result = .ok ()
    rw [result_bind (by rw [TimeoutDict.run_pop])]
    rfl
  · rfl

namespace DeliveryReportProcesser

variable {P : DeliveryReportProcesser} {stat : Option Str} {status : DeliveryStatus}
  {env : ℕ → Reading} {c : InMemorySmppCache}

/-- The cache holds a message id that is not empty for an SMPP message id, at the next reading of
the clock. -/
def Finds (id : Str) (env : ℕ → Reading) (c : InMemorySmppCache) : Prop :=
  ∃ t v, v ≠ [] ∧ (c.smpp_msg_id.expire (env 0).time).data.get? id = some (t, v)

/-- The cache after a look-up. -/
def lookedUp (id : Str) (env : ℕ → Reading) (c : InMemorySmppCache) : InMemorySmppCache :=
  ((lookUp (some id)).run env c).state

/-- A look-up pops the id, if it is not too old. -/
theorem run_lookUp (id : Str) (env : ℕ → Reading) (c : InMemorySmppCache) :
    (lookUp (some id)).run env c =
      ⟨.ok (((c.smpp_msg_id.expire (env 0).time).data.get? id).map Prod.snd), 2,
        lookedUp id env c⟩ := by
  have hpop := TimeoutDict.run_pop id env c.smpp_msg_id
  have hresult : ((lookUp (some id)).run env c).result = .ok _ := congrArg Outcome.result hpop
  have hused : ((lookUp (some id)).run env c).used = 2 := congrArg Outcome.used hpop
  rw [lookedUp, ← hresult, ← hused]

/-- Without a message for the id the status does not matter. -/
theorem run_createEvent_unfound (hstatus : P.mappedStatus stat = .ok status)
    (h : ¬ Finds id env c) :
    (P.createEvent (some id) stat).run env c = ⟨.ok none, 2, lookedUp id env c⟩ := by
  rw [createEvent, hstatus, ofExcept_ok, pure_bind, run_bind_ok (run_lookUp id env c)]
  cases hget : (c.smpp_msg_id.expire (env 0).time).data.get? id with
  | none => rfl
  | some e =>
    have hempty : e.2 = [] := by
      by_contra hne
      exact h ⟨e.1, e.2, hne, hget⟩
    rw [Option.map_some]
    dsimp only
    rw [if_pos hempty]
    rfl

/-- With a message for the id there is an event with the status, and the cache forgets the id if
the status is final. -/
theorem run_createEvent_found (hstatus : P.mappedStatus stat = .ok status) (h : Finds id env c) :
    ∃ v r, v ≠ [] ∧ (∃ t, (c.smpp_msg_id.expire (env 0).time).data.get? id = some (t, v)) ∧
      ((P.createEvent (some id) stat).run env c).result =
        .ok (some (Event.deliveryReport v status
          [(str "smpp_delivery_status", stat.elim .null .string)] r)) ∧
      ((P.createEvent (some id) stat).run env c).state =
        ((forgetIfFinal status (some id)).run (later env 2) (lookedUp id env c)).state := by
  obtain ⟨t, v, hv, hget⟩ := h
  obtain ⟨used, hforget⟩ : ∃ used, (forgetIfFinal status (some id)).run (later env 2)
      (lookedUp id env c) = ⟨.ok (), used,
        ((forgetIfFinal status (some id)).run (later env 2) (lookedUp id env c)).state⟩ := by
    have hresult : ((forgetIfFinal status (some id)).run (later env 2)
        (lookedUp id env c)).result = .ok () := result_forgetIfFinal _ _ _
    exact ⟨_, by rw [← hresult]⟩
  refine ⟨v, later (later env 2) used 0, hv, ⟨t, hget⟩, ?_⟩
  rw [createEvent, hstatus, ofExcept_ok, pure_bind, run_bind_ok (run_lookUp id env c), hget,
    Option.map_some]
  dsimp only
  rw [if_neg hv, run_bind_ok hforget, run_read_bind, run_pure]
  exact ⟨rfl, rfl⟩

end DeliveryReportProcesser

/-- A report on a mapped id becomes an event for its vumi message, unless that has the empty id. -/
theorem result_createEvent (P : DeliveryReportProcesser) {stat : Option Str}
    {status : DeliveryStatus} (hstatus : P.mappedStatus stat = .ok status) {env : ℕ → Reading}
    {c : InMemorySmppCache} (hmap : Mapped id v t timeout c)
    (hok : TimeoutDict.InTime t timeout (env 0)) :
    ∃ r, ((P.createEvent (some id) stat).run env c).result = .ok
      (if v = [] then none
        else some (Event.deliveryReport v status
          [(str "smpp_delivery_status", stat.elim .null .string)] r)) := by
  obtain ⟨rfl, hget⟩ := hmap
  -- The entry is in time, so it is found at the first reading.
  have hexpire : (c.smpp_msg_id.expire (env 0).time).data.get? id = some (t, v) := by
    rw [TimeoutDict.get?_expire_of_fresh ⟨t, hget, hok⟩, hget]
  -- An empty id is found as well, but its truth test fails.
  by_cases hv : v = []
  · have hunfound : ¬ DeliveryReportProcesser.Finds id env c := by
      rintro ⟨t', v', hv', hget'⟩
      rw [hexpire] at hget'
      cases hget'
      exact hv' hv
    refine ⟨env 0, ?_⟩
    rw [DeliveryReportProcesser.run_createEvent_unfound hstatus hunfound, if_pos hv]
  · obtain ⟨v', r, _, ⟨t', hget'⟩, hresult, _⟩ :=
      DeliveryReportProcesser.run_createEvent_found hstatus ⟨t, v, hv, hexpire⟩
    rw [hexpire] at hget'
    cases hget'
    exact ⟨r, by rw [hresult, if_neg hv]⟩

/-- Making an event reads the clock. -/
theorem used_createEvent_pos (P : DeliveryReportProcesser) {stat : Option Str}
    {status : DeliveryStatus} (hstatus : P.mappedStatus stat = .ok status) (env : ℕ → Reading)
    (c : InMemorySmppCache) : 0 < ((P.createEvent (some id) stat).run env c).used := by
  rw [DeliveryReportProcesser.createEvent, hstatus, ofExcept_ok, pure_bind]
  refine Nat.lt_of_lt_of_le ?_ (used_le_bind _ _ _ _)
  show 0 < ((TimeoutDict.pop id).run env c.smpp_msg_id).used
  rw [TimeoutDict.run_pop]
  exact Nat.zero_lt_two

end

/-! ## The operations on a cache, one after another -/

/-- An operation on a cache. -/
inductive CacheOp where
  /-- A PDU is processed. -/
  | report (pdu : DeliverSM)
  | store (vumi_message_id smpp_message_id : Str)
  | lookUp (smpp_message_id : Str)
  | delete (smpp_message_id : Str)

namespace CacheOp

variable (P : DeliveryReportProcesser) (id v : Str)

/-- Performs an operation. Only a report may give an event. -/
def perform : CacheOp → Py InMemorySmppCache (Option Event)
  | report pdu => do
    let r ← P.handleDeliverSm pdu
    pure r.2
  | store vumi_message_id smpp_message_id => do
    storeSmppMessageId vumi_message_id smpp_message_id
    pure none
  | lookUp smpp_message_id => do
    let _ ← getSmppMessageId smpp_message_id
    pure none
  | delete smpp_message_id => do
    deleteSmppMessageId smpp_message_id
    pure none

/-- The operation is a report on the id, with the status `stat`. -/
def Reports (stat : Option Str) : CacheOp → Prop
  | report pdu => P.reads pdu = .ok (some (some id, stat))
  | _ => False

/-- The status that is mapped from `stat` is final. -/
def Final (stat : Option Str) : Prop :=
  P.mappedStatus stat = .ok .delivered ∨ P.mappedStatus stat = .ok .failed

/-- The operation may end the mapping of the id: a deletion, or a final report. -/
def Ends (op : CacheOp) : Prop := op = delete id ∨ ∃ stat, op.Reports P id stat ∧ Final P stat

/-- The operation concerns the id. -/
def Concerns (op : CacheOp) : Prop :=
  op = delete id ∨ op = lookUp id ∨ ∃ stat, op.Reports P id stat

/-- How many readings a list of operations takes. -/
def readings : List CacheOp → (ℕ → Reading) → InMemorySmppCache → ℕ
  | [], _, _ => 0
  | op :: ops, env, c =>
    ((op.perform P).run env c).used +
      readings ops (later env ((op.perform P).run env c).used) ((op.perform P).run env c).state

/-- The mapping of the id to `v` is kept until an operation that may end it, and up to then every
report on the id becomes a delivery report for `v` with the mapped status. -/
def KeptUntilFinal : List CacheOp → (ℕ → Reading) → InMemorySmppCache → Prop
  | [], _, _ => True
  | op :: ops, env, c =>
    (∀ stat, op.Reports P id stat → ∃ e status,
      ((op.perform P).run env c).result = .ok (some e) ∧ P.mappedStatus stat = .ok status ∧
        e.user_message_id = v ∧ e.event_type = .delivery_report ∧
        e.delivery_status = some status) ∧
    (op.Ends P id ∨
      (∃ t, ((op.perform P).run env c).state.smpp_msg_id.data.get? id = some (t, v)) ∧
        KeptUntilFinal ops (later env ((op.perform P).run env c).used)
          ((op.perform P).run env c).state)

/-- The first operation that concerns the id, if there is one, may end its mapping, and is no report
on an empty vumi message id. -/
def EndedFirst : List CacheOp → Prop
  | [] => True
  | op :: ops =>
    (op.Concerns P id → op.Ends P id ∧ (v = [] → op = delete id)) ∧
      (op.Concerns P id ∨ EndedFirst ops)

variable {P id v} {t timeout : ℚ}

/-- An operation that does not concern the id keeps its mapping. -/
theorem keeps_perform {op : CacheOp} (hop : ¬ op.Concerns P id) (hstore : ∀ w, op ≠ store w id) :
    Keeps (TimeoutDict.InTime t timeout) (Mapped id v t timeout) (op.perform P) := by
  cases op with
  | report pdu =>
    refine keeps_bind ?_ fun _ => keeps_pure _
    -- A report touches the mapping of its own id only.
    rw [DeliveryReportProcesser.handleDeliverSm_eq]
    cases hr : P.reads pdu with
    | error e => exact keeps_raise _
    | ok r =>
      rw [ofExcept_ok, pure_bind]
      cases r with
      | none => exact keeps_pure _
      | some r =>
        obtain ⟨other, stat⟩ := r
        refine keeps_bind (keeps_createEvent P ?_ stat) fun _ => keeps_pure _
        rintro rfl
        exact hop (.inr (.inr ⟨stat, hr⟩))
  | store w other =>
    refine keeps_bind (keeps_on (fun _ _ => rfl) (TimeoutDict.keeps_setitem ?_ w)) fun _ =>
      keeps_pure _
    rintro rfl
    exact hstore w rfl
  | lookUp other =>
    refine keeps_bind (keeps_on (fun _ _ => rfl) (TimeoutDict.keeps_pop ?_)) fun _ => keeps_pure _
    rintro rfl
    exact hop (.inr (.inl rfl))
  | delete other =>
    refine keeps_bind (keeps_deleteSmppMessageId ?_) fun _ => keeps_pure _
    rintro rfl
    exact hop (.inl rfl)

/-- A report is a report of one status. -/
theorem Reports.perform_eq {op : CacheOp} {stat : Option Str} (h : op.Reports P id stat) :
    op.perform P = P.createEvent (some id) stat := by
  cases op with
  | report pdu =>
    rw [perform, DeliveryReportProcesser.handleDeliverSm_eq, show P.reads pdu = _ from h,
      ofExcept_ok, pure_bind]
    simp only [DeliveryReportProcesser.handleRead, bind_assoc, pure_bind]
    exact bind_pure _
  | store w other => exact h.elim
  | lookUp other => exact h.elim
  | delete other => exact h.elim

/-- A PDU reports one status of an id. -/
theorem Reports.eq {op : CacheOp} {stat stat' : Option Str} (h : op.Reports P id stat)
    (h' : op.Reports P id stat') : stat' = stat := by
  cases op with
  | report pdu =>
    have := h.symm.trans h'
    simpa using this.symm
  | store w other => exact h.elim
  | lookUp other => exact h.elim
  | delete other => exact h.elim

/-- One operation that does not concern the id. -/
theorem keptUntilFinal_cons {op : CacheOp} {ops : List CacheOp} {env : ℕ → Reading}
    {c : InMemorySmppCache} (hop : ¬ op.Concerns P id)
    (hmap : Mapped id v t timeout ((op.perform P).run env c).state) :
    KeptUntilFinal P id v (op :: ops) env c ↔
      KeptUntilFinal P id v ops (later env ((op.perform P).run env c).used)
        ((op.perform P).run env c).state := by
  have hreports : ∀ stat, ¬ op.Reports P id stat := fun stat h => hop (.inr (.inr ⟨stat, h⟩))
  have hends : ¬ op.Ends P id := by
    rintro (h | ⟨stat, h, _⟩)
    · exact hop (.inl h)
    · exact hreports stat h
  rw [KeptUntilFinal]
  constructor
  · rintro ⟨_, h⟩
    exact (h.resolve_left hends).2
  · intro h
    exact ⟨fun stat hr => absurd hr (hreports stat), .inr ⟨⟨t, hmap.2⟩, h⟩⟩

/-- A report may end the mapping exactly if its status is final. -/
theorem Reports.ends_iff {op : CacheOp} {stat : Option Str} (h : op.Reports P id stat) :
    op.Ends P id ↔ Final P stat := by
  constructor
  · rintro (rfl | ⟨stat', hr, hfinal⟩)
    · exact h.elim
    · rwa [h.eq hr] at hfinal
  · intro hfinal
    exact .inr ⟨stat, h, hfinal⟩

/-- A report takes the mapping away, whatever its status is: so the status must be final, and an
empty vumi message id is as good as none. -/
theorem keptUntilFinal_report {op : CacheOp} {ops : List CacheOp} {env : ℕ → Reading}
    {c : InMemorySmppCache} {stat : Option Str} (hr : op.Reports P id stat)
    (hmap : Mapped id v t timeout c)
    (htime : ∀ i < ((op.perform P).run env c).used, TimeoutDict.InTime t timeout (env i)) :
    KeptUntilFinal P id v (op :: ops) env c ↔ Final P stat ∧ v ≠ [] := by
  have hperform := hr.perform_eq
  rw [KeptUntilFinal, hr.ends_iff]
  cases hstatus : P.mappedStatus stat with
  | error e =>
    -- A status that is not mapped raises, so there is no delivery report.
    have hfinal : ¬ Final P stat := by simp [Final, hstatus]
    simp only [hfinal, false_and, iff_false]
    rintro ⟨h, _⟩
    obtain ⟨_, status, _, hok, _⟩ := h stat hr
    rw [hstatus] at hok
    cases hok
  | ok status =>
    rw [hperform] at htime ⊢
    obtain ⟨r, hresult⟩ := result_createEvent P hstatus hmap
      (htime 0 (used_createEvent_pos P hstatus env c))
    have hgone : Unmapped id ((P.createEvent (some id) stat).run env c).state :=
      unmapped_createEvent P hstatus env c
    rw [Unmapped] at hgone
    constructor
    · rintro ⟨h, hafter⟩
      obtain ⟨e, _, he, _⟩ := h stat hr
      refine ⟨hafter.resolve_right ?_, fun hv => ?_⟩
      · rintro ⟨⟨t', ht'⟩, _⟩
        rw [hgone] at ht'
        cases ht'
      · rw [hresult, if_pos hv] at he
        cases he
    · -- A report that is final is the last one that needs the mapping.
      rintro ⟨hfinal, hv⟩
      refine ⟨fun stat' hr' => ?_, .inl hfinal⟩
      obtain rfl := hr.eq hr'
      rw [if_neg hv] at hresult
      exact ⟨_, status, hresult, hstatus, rfl, rfl, rfl⟩

/-- One operation that concerns the id. -/
theorem keptUntilFinal_concerned {op : CacheOp} {ops : List CacheOp} {env : ℕ → Reading}
    {c : InMemorySmppCache} (hop : op.Concerns P id) (hmap : Mapped id v t timeout c)
    (htime : ∀ i < ((op.perform P).run env c).used, TimeoutDict.InTime t timeout (env i)) :
    KeptUntilFinal P id v (op :: ops) env c ↔ op.Ends P id ∧ (v = [] → op = delete id) := by
  rcases hop with rfl | rfl | ⟨stat, hr⟩
  · -- The deletion of the id ends its mapping.
    simp [KeptUntilFinal, Reports, Ends]
  · -- A look-up takes the mapping away, and is not one of the operations that may.
    have hends : ¬ (lookUp id).Ends P id := by simp [Ends, Reports]
    have hgone : Unmapped id (((lookUp id).perform P).run env c).state :=
      holds_bind (fun env c => TimeoutDict.get?_pop env c.smpp_msg_id) (fun _ => keeps_pure _) env c
    rw [KeptUntilFinal]
    simp only [hends, false_and, false_or, iff_false]
    rintro ⟨_, ⟨t', ht'⟩, _⟩
    rw [Unmapped] at hgone
    rw [hgone] at ht'
    cases ht'
  · -- A report is no deletion.
    have hdelete : op ≠ delete id := by
      rintro rfl
      exact hr
    rw [keptUntilFinal_report hr hmap htime, hr.ends_iff]
    exact and_congr_right fun _ => ⟨fun hv h => absurd h hv, fun h hv => hdelete (h hv)⟩

/-- The mapping of an id is kept until a final report exactly when the first operation that
concerns the id ends it. -/
theorem keptUntilFinal_iff {ops : List CacheOp} {env : ℕ → Reading} {c : InMemorySmppCache}
    (hmap : Mapped id v t timeout c) (hstore : ∀ w, store w id ∉ ops)
    (htime : ∀ i < readings P ops env c, TimeoutDict.InTime t timeout (env i)) :
    KeptUntilFinal P id v ops env c ↔ EndedFirst P id v ops := by
  induction ops generalizing env c with
  | nil => simp [KeptUntilFinal, EndedFirst]
  | cons op ops ih =>
    rw [readings] at htime
    have htime' : ∀ i < ((op.perform P).run env c).used, TimeoutDict.InTime t timeout (env i) :=
      fun i hi => htime i (by omega)
    rw [EndedFirst]
    by_cases hop : op.Concerns P id
    · -- The first operation that concerns the id decides.
      rw [keptUntilFinal_concerned hop hmap htime']
      simp only [hop, true_implies, true_or, and_true]
    · have hkept :=
        keeps_perform hop (fun w h => hstore w (h ▸ List.mem_cons_self)) env c htime' hmap
      have hrest : KeptUntilFinal P id v ops (later env _) _ ↔ _ :=
        ih hkept (fun w h => hstore w (List.mem_cons_of_mem _ h))
          fun i hi => htime _ (Nat.add_lt_add_left hi _)
      rw [keptUntilFinal_cons hop hkept, hrest]
      simp only [hop, false_implies, false_or, true_and]

/-- A clock that stands still. -/
def stillEnv : ℕ → Reading := fun _ => ⟨0, str "e", DateTime.min⟩

/-- A cache in which `abc` is mapped to `m`. -/
def oneMapping : InMemorySmppCache :=
  ⟨Dict.empty, ⟨86400, Dict.empty.set (str "abc") (0, str "m")⟩⟩

/-- A report on `abc` in the optional parameters of a PDU. -/
def receiptPdu (message_state : MessageState) : DeliverSM where
  seqNum := 1
  source_addr := some []
  destination_addr := some []
  esm_class := .DEFAULT
  data_coding := .default .SMSC_DEFAULT_ALPHABET
  short_message := some []
  message_payload := none
  sar_msg_ref_num := none
  sar_total_segments := none
  sar_segment_seqnum := none
  receipted_message_id := some [0x61, 0x62, 0x63]
  message_state := some message_state

/-- The id is mapped at first. -/
theorem mapped_oneMapping : Mapped (str "abc") (str "m") 0 86400 oneMapping := ⟨rfl, by decide⟩

/-- The clock that stands is in time. -/
theorem inTime_stillEnv (i : ℕ) : TimeoutDict.InTime 0 86400 (stillEnv i) := by
  show TimeoutDict.age 0 0 ≤ 86400
  rw [TimeoutDict.age_self]
  norm_num

/-- The PDU of a receipt reports its state. -/
theorem reports_receiptPdu (message_state : MessageState) :
    (report (receiptPdu message_state)).Reports .default (str "abc") (some message_state.name) := by
  cases message_state <;> rfl

/-- A mapping that is stored elsewhere and then ended by its first report is kept up to it. -/
theorem kept_until_delivered :
    KeptUntilFinal .default (str "abc") (str "m")
      [store (str "n") (str "xyz"), report (receiptPdu .DELIVERED)] stillEnv oneMapping := by
  refine (keptUntilFinal_iff mapped_oneMapping ?_ fun i _ => inTime_stillEnv i).2 ?_
  · intro w
    have hne : str "abc" ≠ str "xyz" := by decide
    simp [hne]
  · have hfinal : (report (receiptPdu .DELIVERED)).Ends .default (str "abc") :=
      .inr ⟨_, reports_receiptPdu .DELIVERED, .inl rfl⟩
    have hv : str "m" ≠ [] := by decide
    refine ⟨fun h => ?_, .inr ⟨fun _ => ⟨hfinal, fun h => absurd h hv⟩, ?_⟩⟩
    · simp [Concerns, Reports] at h
    · exact .inl (.inr (.inr ⟨_, reports_receiptPdu .DELIVERED⟩))

/-- A pending report takes the mapping away, so that the later report of the delivery finds none. -/
theorem pending_report_loses_mapping :
    ¬ KeptUntilFinal .default (str "abc") (str "m")
      [report (receiptPdu .ENROUTE), report (receiptPdu .DELIVERED)] stillEnv oneMapping := by
  have hreports := reports_receiptPdu .ENROUTE
  rw [keptUntilFinal_concerned (.inr (.inr ⟨_, hreports⟩)) mapped_oneMapping
    fun i _ => inTime_stillEnv i]
  rintro ⟨h | ⟨stat, hr, hfinal⟩, _⟩
  · cases h
  · rw [hreports.eq hr] at hfinal
    rcases hfinal with h | h
    · cases h
    · cases h

end CacheOp

end Vumi2.Smpp
