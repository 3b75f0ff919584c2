import Vumi2.Network.Conversations

/-!
# Events come back to the application that asked

A transport publishes events about the messages that it got. The router sends an event to the
application that the address of its message selects, and the reply of a static reply application has
the address that selected this application. So an application gets events about such a message of
its own and of no other (`events_return`), and in the end all of them that came in time
(`events_arrive`).

What is needed of the clock and of the identifiers is needed of the router's own steps, so the
invariant of the router's runs holds of the router within the network (`router_step`).
-/

namespace Vumi2

open Effect Eff Text ToAddressRouter

/-- The event of a call. -/
def RouterCall.theEvent : RouterCall → Option Event
  | handle_event e => some e
  | _ => none

/-- The event that goes to an application. -/
def Publication.eventAt (app : Str) : Publication → Option Event
  | event c e => if c = app then some e else none
  | _ => none

/-- The event that goes to the router from a transport. -/
def Deployment.reports (d : Deployment) (p : Publication) : Option Event :=
  (d.router.accepts p).bind RouterCall.theEvent

namespace Network

/-- The events that an application got. -/
def eventsAt (py : Conversions) (r : Reading) (s : Network) (app : Str) : List Event :=
  s.exchange.taken.filterMap fun item =>
    if item.1 = routingKey app (str "event") then overWire py (Event.deserialise py r) item.2
    else none

/-- The events that transports have published for the router. -/
def events (d : Deployment) (s : Network) : List Event := s.transports.filterMap d.reports

/-- The clock goes forward for the router, and no message that it stores has the identifier of
another. -/
def Timely (d : Deployment) (py : Conversions) (s : Network) : NetworkAction → Prop
  | .route i reading env => ∀ item call, s.exchange.waiting[i]? = some item →
      d.router.consume py reading item = some (some call) → Permitted s.router (.call call env)
  | _ => True

variable {d : Deployment} {py : Conversions} {compile : Str → Option (Str → Bool)}
  {config : ToAddressRouterConfig} {bound : Str → Bool} {s s' : Network}

/-- The router's part of a step is a step of the router, or none. -/
theorem router_step {action : NetworkAction} (hstep : step d py s action = some s') :
    s'.router = s.router ∨ (∃ k, d.router.step s.router (.publish k) = some s'.router) ∨
      ∃ i reading env item call, action = .route i reading env ∧
        s.exchange.waiting[i]? = some item ∧ d.router.consume py reading item = some (some call) ∧
          d.router.step s.router (.call call env) = some s'.router := by
  cases action with
  -- No step of the others touches the router.
  | bind key | inbound c m | event c e | outbound c m =>
    obtain rfl := Option.some.inj hstep
    exact .inl rfl
  | route i reading env =>
    -- The router takes an item: it calls back, skips it, or takes nothing.
    obtain ⟨item, hi, hstep⟩ := Option.bind_eq_some_iff.1 hstep
    unfold route at hstep
    split at hstep
    · rename_i call hconsume
      obtain ⟨router, hrouter, rfl⟩ := Option.map_eq_some_iff.1 hstep
      exact .inr (.inr ⟨i, reading, env, item, call, rfl, hi, hconsume, hrouter⟩)
    · obtain rfl := Option.some.inj hstep
      exact .inl rfl
    · cases hstep
  | routed k =>
    -- A publishing call returns, which is a step of the router as well.
    unfold step routed at hstep
    dsimp only at hstep
    split at hstep
    · obtain ⟨router, hrouter, rfl⟩ := Option.map_eq_some_iff.1 hstep
      exact .inr (.inl ⟨k, hrouter⟩)
    · cases hstep
  | reply app i reading env =>
    obtain ⟨c, hc, hstep⟩ := Option.bind_eq_some_iff.1 hstep
    obtain ⟨item, hi, hstep⟩ := Option.bind_eq_some_iff.1 hstep
    unfold reply at hstep
    split_ifs at hstep
    · split at hstep
      · split at hstep
        · obtain rfl := Option.some.inj hstep
          exact .inl rfl
        · obtain rfl := Option.some.inj hstep
          exact .inl rfl
      · obtain rfl := Option.some.inj hstep
        exact .inl rfl
    · obtain rfl := Option.some.inj hstep
      exact .inl rfl
  | replied k =>
    unfold step replied at hstep
    dsimp only at hstep
    split at hstep
    · obtain rfl := Option.some.inj hstep
      exact .inl rfl
    · cases hstep
  | consume i =>
    obtain ⟨item, hi, hstep⟩ := Option.bind_eq_some_iff.1 hstep
    split_ifs at hstep
    obtain rfl := Option.some.inj hstep
    exact .inl rfl

/-- Every step keeps the invariant of the router's runs. -/
theorem routerInv_step (hsetup : IsSetUp compile config d.router)
    (hinv : RouterInv compile config s.router) {action : NetworkAction}
    (htimely : Timely d py s action) (hstep : step d py s action = some s') :
    RouterInv compile config s'.router := by
  rcases router_step hstep with heq | ⟨k, hpublish⟩ |
    ⟨i, reading, env, item, call, rfl, hi, hconsume, hcall⟩
  · rw [heq]
    exact hinv
  · exact hinv.step_publish hpublish
  · exact hinv.step_call hsetup (htimely item call hi hconsume) hcall

/-- What holds of the network and of the router after a run of proper and timely steps. -/
theorem invariants (hd : d.Connected) (hsetup : IsSetUp compile config d.router) {now : ℚ}
    {actions : List NetworkAction}
    (hmeets : Machine.Meets (step d py) (fun s a => a.Proper d py ∧ Timely d py s a)
      (new bound config now) actions)
    (hrun : Machine.run (step d py) (new bound config now) actions = some s) :
    Accounts d py compile config bound s ∧ RouterInv compile config s.router := by
  have hstart : Accounts d py compile config bound (new bound config now) ∧
      RouterInv compile config (new bound config now).router :=
    ⟨Accounts.new d py compile config bound now, RouterInv.new now⟩
  have hsteps :
      ∀ s a s', (Accounts d py compile config bound s ∧ RouterInv compile config s.router) →
      (a.Proper d py ∧ Timely d py s a) → step d py s a = some s' →
        Accounts d py compile config bound s' ∧ RouterInv compile config s'.router :=
    fun s a s' hinv hok hstep =>
      ⟨hinv.1.step hd hsetup hok.1 hstep, routerInv_step hsetup hinv.2 hok.2 hstep⟩
  exact Machine.run_induction (step d py) hsteps hstart hmeets hrun

namespace Accounts

/-- What an application got is what it finds in its queue. -/
theorem eventsAt_eq (h : Accounts d py compile config bound s) (r : Reading) (app : Str) :
    s.eventsAt py r app = (s.taken py).filterMap (Publication.eventAt app) := by
  unfold eventsAt taken
  rw [List.filterMap_filterMap]
  refine List.filterMap_congr fun item hitem => ?_
  have hpublished := Multiset.mem_of_le h.conserves.taken_le hitem
  rw [h.published] at hpublished
  -- An item that was taken was published, and is read back as it was.
  obtain ⟨p, hp, rfl⟩ := Multiset.mem_map.1 hpublished
  have hsendable := h.sendable hp
  rw [Publication.ofPost_post hsendable]
  have hkey : p.post.1 = routingKey app (str "event") ↔
      p.connector = app ∧ p.messageType = str "event" :=
    routingKey_inj p.messageType_no_dot (by decide)
  cases p with
  | event c e =>
    by_cases hc : c = app
    · rw [if_pos (hkey.2 ⟨hc, rfl⟩)]
      exact (overWire_event hsendable r).trans (if_pos hc).symm
    · rw [if_neg fun hk => hc (hkey.1 hk).1]
      exact (if_neg hc).symm
  | inbound c m => exact if_neg fun hk => Publication.messageTypes_ne.2.2 (hkey.1 hk).2
  | outbound c m => exact if_neg fun hk => Publication.messageTypes_ne.2.1 (hkey.1 hk).2.symm

/-- Only the router publishes events to an application. -/
theorem eventAt_posts (hd : d.Connected) (h : Accounts d py compile config bound s) {app : Str}
    (happ : isConnector d.router.receive_outbound_connectors app = true) :
    s.posts.filterMap (Publication.eventAt app) =
      ((s.router.tasks.filterMap fun task => task.phase.sent.bind (Publication.eventAt app) :
        List Event) : Multiset Event) := by
  -- A transport publishes under its own name, which no application has.
  have htransports : s.transports.filterMap (Publication.eventAt app) = [] := by
    rw [List.filterMap_eq_nil_iff]
    intro p hp
    obtain ⟨-, hconnector, -⟩ := h.transports p hp
    cases p with
    | inbound c m | outbound c m => rfl
    | event c e =>
      refine if_neg ?_
      rintro rfl
      cases happ.symm.trans hconnector
  -- The others publish outbound messages only.
  have hothers : s.others.filterMap (Publication.eventAt app) = [] := by
    rw [List.filterMap_eq_nil_iff]
    intro p hp
    obtain ⟨-, -, htype⟩ := h.others p hp
    cases p with
    | inbound c m | outbound c m => rfl
    | event c e => exact absurd htype Publication.messageTypes_ne.2.1
  rw [posts_filterMap, htransports, hothers,
    replies_none hd h (f := Publication.eventAt app) fun c m _ => rfl, Multiset.coe_nil, zero_add,
    zero_add, add_zero]

/-- Of the events that transports publish, the router handles each once. -/
theorem reports_posts (hd : d.Connected) (h : Accounts d py compile config bound s) :
    s.posts.filterMap d.reports = (s.events d : Multiset Event) := by
  have hout : ∀ c m, d.reports (.outbound c m) = none := by
    intro c m
    unfold Deployment.reports accepts
    dsimp only
    split_ifs
    · rfl
    · rfl
  have hin : ∀ c m, d.reports (.inbound c m) = none := by
    intro c m
    unfold Deployment.reports accepts
    dsimp only
    split_ifs
    · rfl
    · rfl
  have hothers : s.others.filterMap d.reports = [] := by
    rw [List.filterMap_eq_nil_iff]
    intro p hp
    obtain ⟨-, -, htype⟩ := h.others p hp
    cases p with
    | outbound c m => exact hout c m
    | inbound c m => exact hin c m
    | event c e => exact absurd htype Publication.messageTypes_ne.2.1
  -- The router publishes events to applications, from which it takes none.
  have hsent : (s.router.tasks.filterMap fun task => task.phase.sent.bind d.reports) = [] := by
    rw [List.filterMap_eq_nil_iff]
    intro task htask
    cases hsent : task.phase.sent with
    | none => rfl
    | some p =>
      have hdue := RouterPhase.due_of_sent hsent
      cases hcall : task.call with
      | handle_inbound_message m =>
        rw [h.due_inbound htask hcall] at hdue
        obtain ⟨app, -, rfl⟩ := Option.map_eq_some_iff.1 hdue
        exact hin app m
      | handle_outbound_message m =>
        rw [h.due_outbound htask hcall] at hdue
        split_ifs at hdue
        obtain rfl := Option.some.inj hdue
        exact hout _ m
      | handle_event e =>
        obtain ⟨app, happ, rfl⟩ := h.due_event htask hcall hdue
        have hnot : isConnector d.router.receive_inbound_connectors app = false := by
          rw [Bool.eq_false_iff]
          intro hin'
          cases happ.symm.trans (hd.disjoint app hin')
        simp [Deployment.reports, accepts, hnot]
  rw [posts_filterMap, hothers, hsent, replies_none hd h fun c m _ => hout c m, Multiset.coe_nil,
    add_zero, add_zero, add_zero]
  rfl

/-- A task that is to publish an event was called for it. -/
theorem call_of_due (h : Accounts d py compile config bound s) {task : RouterTask}
    (htask : task ∈ s.router.tasks) {app : Str} {e : Event}
    (hdue : task.phase.due = some (.event app e)) : task.call = .handle_event e := by
  cases hcall : task.call with
  | handle_inbound_message m =>
    rw [h.due_inbound htask hcall] at hdue
    obtain ⟨app', -, heq⟩ := Option.map_eq_some_iff.1 hdue
    cases heq
  | handle_outbound_message m =>
    rw [h.due_outbound htask hcall] at hdue
    split_ifs at hdue
    cases Option.some.inj hdue
  | handle_event e' =>
    obtain ⟨app', -, heq⟩ := h.due_event htask hcall hdue
    cases heq
    rfl

/-- The calls about events are those of the events that the router took. -/
theorem calls_events (h : Accounts d py compile config bound s) :
    ((s.router.tasks.filterMap fun task => task.call.theEvent : List Event) : Multiset Event) =
      (s.taken py : Multiset Publication).filterMap d.reports := by
  rw [h.calls_filterMap, Multiset.filterMap_coe]
  rfl

/-- What an application got of events is part of what the router was to publish to it. -/
theorem eventsAt_le (hd : d.Connected) (h : Accounts d py compile config bound s) (r : Reading)
    {app : Str} (happ : isConnector d.router.receive_outbound_connectors app = true) :
    (s.eventsAt py r app : Multiset Event) ≤
      ((s.router.tasks.filterMap fun task => task.phase.due.bind (Publication.eventAt app) :
        List Event) : Multiset Event) := by
  calc (s.eventsAt py r app : Multiset Event)
      = (s.taken py : Multiset Publication).filterMap (Publication.eventAt app) := by
        rw [h.eventsAt_eq, Multiset.filterMap_coe]
    _ ≤ s.posts.filterMap (Publication.eventAt app) :=
        Multiset.filterMap_le_filterMap _ h.taken_le
    _ ≤ _ := by
        rw [eventAt_posts hd h happ]
        exact sent_le _ s

/-- An event that a task is to publish is that of its call. -/
theorem due_eventAt (h : Accounts d py compile config bound s) {task : RouterTask}
    (htask : task ∈ s.router.tasks) {app : Str} {e : Event}
    (he : task.phase.due.bind (Publication.eventAt app) = some e) :
    task.phase.due = some (.event app e) ∧ task.call = .handle_event e := by
  obtain ⟨p, hdue, hp⟩ := Option.bind_eq_some_iff.1 he
  cases p with
  | inbound c m | outbound c m => cases hp
  | event c e' =>
    unfold Publication.eventAt at hp
    dsimp only at hp
    split_ifs at hp with hc
    obtain rfl := Option.some.inj hp
    rw [hc] at hdue
    exact ⟨hdue, h.call_of_due htask hdue⟩

/-- Each of them came from a transport. -/
theorem due_events_le (hd : d.Connected) (h : Accounts d py compile config bound s) (app : Str) :
    ((s.router.tasks.filterMap fun task => task.phase.due.bind (Publication.eventAt app) :
        List Event) : Multiset Event) ≤ s.events d := by
  calc ((s.router.tasks.filterMap fun task => task.phase.due.bind (Publication.eventAt app) :
        List Event) : Multiset Event)
      ≤ (s.router.tasks.filterMap fun task => task.call.theEvent : List Event) := by
        rw [← Multiset.filterMap_coe, ← Multiset.filterMap_coe]
        refine IsFrom.filterMap_le fun task htask e he => ?_
        rw [(h.due_eventAt htask he).2]
        rfl
    _ ≤ s.posts.filterMap d.reports := by
        rw [h.calls_events]
        exact Multiset.filterMap_le_filterMap _ h.taken_le
    _ = s.events d := reports_posts hd h

/-- The messages that static reply applications got were selected for them. -/
theorem selected_of_reply (hd : d.Connected) (hsetup : IsSetUp compile config d.router)
    (h : Accounts d py compile config bound s) {task : ReplyTask} (htask : task ∈ s.replies)
    {c : Str} {reply : Message} (hreply : task.reply = .outbound c reply) :
    config.selected compile reply.from_addr = some task.config.transport_name := by
  have hpair : (task.config.transport_name, task.message) ∈
      (s.inbounds d : Multiset Message).filterMap (d.selects compile config) :=
    Multiset.mem_of_le (answered_le hd hsetup h)
      (Multiset.mem_coe.2 (List.mem_map.2 ⟨task, htask, rfl⟩))
  obtain ⟨m, -, hm⟩ := (Multiset.mem_filterMap _ _).1 hpair
  unfold Deployment.selects at hm
  obtain ⟨app, hselected, happ⟩ := Option.bind_eq_some_iff.1 hm
  split_ifs at happ
  obtain ⟨rfl, rfl⟩ := Prod.mk.inj (Option.some.inj happ)
  obtain ⟨-, reply', hreply', -, hanswers⟩ := h.replies task htask
  rw [hreply'] at hreply
  obtain ⟨-, rfl⟩ := Publication.outbound.inj hreply
  rw [hanswers.goesBack.from_addr]
  exact hselected

/-- A call about a message that is stored comes to what the message's address selects. -/
theorem due_of_stored (hinv : RouterInv compile config s.router) {task : RouterTask}
    (htask : task ∈ s.router.tasks)
    {e : Event} (hcall : task.call = .handle_event e) {j : ℕ} {m : Message} {u : ℚ}
    (hm : Stored s.router.history j m u) (hid : e.user_message_id = m.message_id)
    (hintime : ∀ i e t, LookedUp s.router.history i e t → e.user_message_id = m.message_id →
      j < i ∧ TimeoutDict.age t u ≤ config.timeout) :
    task.phase.due = (config.selected compile m.from_addr).map fun app => .event app e := by
  obtain ⟨i, hi⟩ := List.getElem?_of_mem htask
  have hentry : s.router.history[i]? = some ⟨.handle_event e, task.time, task.phase.outcome⟩ := by
    unfold RouterState.history
    rw [List.getElem?_map, hi, Option.map_some]
    unfold RouterTask.entry
    rw [hcall]
  obtain ⟨hlt, hin⟩ := hintime i e task.time ⟨_, hentry⟩ hid
  exact RouterPhase.due_of_outcome
    ((hinv.decided i e task.time _ hentry).complete j m u hlt hm hid.symm hin)

/-- What a task is to publish to an application about a message that is stored. -/
theorem due_about (h : Accounts d py compile config bound s)
    (hinv : RouterInv compile config s.router) {task : RouterTask} (htask : task ∈ s.router.tasks)
    (app : Str) {j : ℕ} {m : Message} {u : ℚ} (hm : Stored s.router.history j m u)
    (hintime : ∀ i e t, LookedUp s.router.history i e t → e.user_message_id = m.message_id →
      j < i ∧ TimeoutDict.age t u ≤ config.timeout) :
    (task.phase.due.bind (Publication.eventAt app)).filter
        (fun e => e.user_message_id = m.message_id) =
      if config.selected compile m.from_addr = some app then
        task.call.theEvent.filter fun e => e.user_message_id = m.message_id
      else none := by
  by_cases habout : ∃ e, task.call = .handle_event e ∧ e.user_message_id = m.message_id
  · obtain ⟨e, hcall, hid⟩ := habout
    rw [due_of_stored hinv htask hcall hm hid hintime, hcall]
    cases hselected : config.selected compile m.from_addr with
    | none => rfl
    | some app' =>
      by_cases happ : app' = app
      · simp [Publication.eventAt, RouterCall.theEvent, happ]
      · simp [Publication.eventAt, happ]
  · -- It is not about the message.
    have hdue : (task.phase.due.bind (Publication.eventAt app)).filter
        (fun e => e.user_message_id = m.message_id) = none := by
      rw [Option.filter_eq_none_iff]
      intro e he hid
      exact habout ⟨e, (h.due_eventAt htask he).2, of_decide_eq_true hid⟩
    have hcall : task.call.theEvent.filter (fun e => e.user_message_id = m.message_id) = none := by
      rw [Option.filter_eq_none_iff]
      intro e he hid
      cases hcall : task.call with
      | handle_inbound_message n | handle_outbound_message n =>
        rw [hcall] at he
        cases he
      | handle_event e' =>
        rw [hcall] at he
        obtain rfl := Option.some.inj he
        exact habout ⟨e', hcall, of_decide_eq_true hid⟩
    rw [hdue, hcall]
    split_ifs
    · rfl
    · rfl

end Accounts

/-- The outbound messages that the router took. -/
def accepted (s : Network) : List Message :=
  s.router.tasks.filterMap fun task => task.call.outboundMessage

/-- A message that was accepted is stored in the history of the router. -/
theorem stored_of_accepted {m : Message} (h : m ∈ s.accepted) :
    ∃ i t, Stored s.router.history i m t := by
  obtain ⟨task, htask, hm⟩ := List.mem_filterMap.1 h
  obtain ⟨i, hi⟩ := List.getElem?_of_mem htask
  cases hcall : task.call with
  | handle_inbound_message n | handle_event e =>
    rw [hcall] at hm
    cases hm
  | handle_outbound_message n =>
    rw [hcall] at hm
    obtain rfl := Option.some.inj hm
    refine ⟨i, task.time, task.phase.outcome, ?_⟩
    unfold RouterState.history
    rw [List.getElem?_map, hi, Option.map_some]
    unfold RouterTask.entry
    rw [hcall]

/-- A message stored in the history of the router was accepted. -/
theorem accepted_of_stored {m : Message} {i : ℕ} {t : ℚ} (h : Stored s.router.history i m t) :
    m ∈ s.accepted := by
  obtain ⟨x, hx⟩ := h
  unfold RouterState.history at hx
  rw [List.getElem?_map] at hx
  obtain ⟨task, htask, hentry⟩ := Option.map_eq_some_iff.1 hx
  have hcall : task.call = .handle_outbound_message m := congrArg RouterEntry.call hentry
  refine List.mem_filterMap.2 ⟨task, List.mem_of_getElem? htask, ?_⟩
  rw [hcall]
  rfl

/-- In every run, an application gets only events that a transport has published, each once, and
each about a message that the router took, by whose address it selects this application; that
message is the only one with its identifier. If it is the reply of a static reply application, it is
this application's. -/
theorem events_return (hd : d.Connected) (hsetup : setup compile config = .ok d.router) {now : ℚ}
    {actions : List NetworkAction}
    (hmeets : Machine.Meets (step d py) (fun s a => a.Proper d py ∧ Timely d py s a)
      (new bound config now) actions)
    (hrun : Machine.run (step d py) (new bound config now) actions = some s) (r : Reading)
    {app : Str} (happ : isConnector d.router.receive_outbound_connectors app = true) :
    (s.eventsAt py r app : Multiset Event) ≤ s.events d ∧
      ∀ e ∈ s.eventsAt py r app, ∃ m ∈ s.accepted, m.message_id = e.user_message_id ∧
        config.selected compile m.from_addr = some app ∧
          (∀ n ∈ s.accepted, n.message_id = e.user_message_id → n = m) ∧
            ∀ task ∈ s.replies, task.reply = .outbound task.config.transport_name m →
              task.config.transport_name = app := by
  have hrouter := isSetUp_of_setup hsetup
  obtain ⟨h, hinv⟩ := invariants hd hrouter hmeets hrun
  have hle := Accounts.eventsAt_le hd h r happ
  refine ⟨hle.trans (Accounts.due_events_le hd h app), fun e he => ?_⟩
  obtain ⟨task, htask, hdue⟩ := List.mem_filterMap.1 (Multiset.mem_of_le hle he)
  obtain ⟨htaskDue, hcall⟩ := h.due_eventAt htask hdue
  -- The router found the message of the event in its cache.
  obtain ⟨i, hi⟩ := List.getElem?_of_mem htask
  have hentry : s.router.history[i]? =
      some ⟨.handle_event e, task.time, .ok (some (.event app e))⟩ := by
    unfold RouterState.history
    rw [List.getElem?_map, hi, Option.map_some]
    unfold RouterTask.entry
    rw [hcall, RouterPhase.outcome_of_due htaskDue]
  obtain ⟨j, m, u, app', -, hstored, hid, hselected, heq⟩ :=
    (hinv.decided i e task.time _ hentry).sound _ rfl
  obtain ⟨rfl, -⟩ := Publication.event.inj heq
  refine ⟨m, accepted_of_stored hstored, hid, hselected, fun n hn hnid => ?_,
    fun reply hreply heq => ?_⟩
  · obtain ⟨k, v, hn⟩ := stored_of_accepted hn
    exact hinv.cache.eq_of_id hn hstored (hnid.trans hid.symm)
  · have hown := Accounts.selected_of_reply hd hrouter h hreply heq
    rw [hselected] at hown
    exact (Option.some.inj hown).symm

/-- Once nothing is on its way, if the queues were there from the start, each application got
exactly those events about a message that the message's address selects it for, provided that the
router handled them in time. -/
theorem events_arrive (hd : d.Connected) (hsetup : setup compile config = .ok d.router) {now : ℚ}
    {actions : List NetworkAction}
    (hmeets : Machine.Meets (step d py) (fun s a => a.Proper d py ∧ Timely d py s a)
      (new bound config now) actions)
    (hrun : Machine.run (step d py) (new bound config now) actions = some s) (hrest : s.AtRest)
    (hbound : ∀ key, hasQueue d key = true → bound key = true) (r : Reading) {app : Str}
    (happ : isConnector d.router.receive_outbound_connectors app = true)
    (hqueue : bound (routingKey app (str "event")) = true) {j : ℕ} {m : Message} {u : ℚ}
    (hm : Stored s.router.history j m u)
    (hintime : ∀ i e t, LookedUp s.router.history i e t → e.user_message_id = m.message_id →
      j < i ∧ TimeoutDict.age t u ≤ config.timeout) :
    ((s.eventsAt py r app).filter fun e => e.user_message_id = m.message_id).Perm
      (if config.selected compile m.from_addr = some app then
        (s.events d).filter fun e => e.user_message_id = m.message_id
      else []) := by
  have hrouter := isSetUp_of_setup hsetup
  obtain ⟨h, hinv⟩ := invariants hd hrouter hmeets hrun
  have hat : ∀ p, (Publication.eventAt app p).isSome → bound p.post.1 = true := by
    intro p hp
    cases p with
    | inbound c m | outbound c m => cases hp
    | event c e =>
      by_cases hc : c = app
      · rw [← hc] at hqueue
        exact hqueue
      · rw [show Publication.eventAt app (.event c e) = none from if_neg hc] at hp
        cases hp
  have hreports : ∀ p, (d.reports p).isSome → bound p.post.1 = true := by
    intro p hp
    refine Accounts.bound_of_accepts hbound ?_
    obtain ⟨e, he⟩ := Option.isSome_iff_exists.1 hp
    obtain ⟨call, hcall, -⟩ := Option.bind_eq_some_iff.1 he
    rw [hcall]
    rfl
  -- What each call about the message comes to.
  have hcalls : (s.router.tasks.filterMap fun task =>
        task.phase.due.bind (Publication.eventAt app)).filter
          (fun e => e.user_message_id = m.message_id) =
      if config.selected compile m.from_addr = some app then
        (s.router.tasks.filterMap fun task => task.call.theEvent).filter
          fun e => e.user_message_id = m.message_id
      else [] := by
    have hdue : (s.router.tasks.filterMap fun task =>
          (task.phase.due.bind (Publication.eventAt app)).filter
            fun e => e.user_message_id = m.message_id) =
        s.router.tasks.filterMap fun task =>
          if config.selected compile m.from_addr = some app then
            task.call.theEvent.filter fun e => e.user_message_id = m.message_id
          else none :=
      List.filterMap_congr fun task htask => h.due_about hinv htask app hm hintime
    rw [List.filter_filterMap, List.filter_filterMap, hdue]
    split_ifs
    · rfl
    · exact List.filterMap_eq_nil_iff.2 fun _ _ => rfl
  have hevents : ((s.router.tasks.filterMap fun task => task.call.theEvent : List Event) :
      Multiset Event) = s.events d := by
    rw [h.calls_events, h.taken_filterMap hrest.waiting hreports, Accounts.reports_posts hd h]
  have hgot : (s.eventsAt py r app : Multiset Event) =
      (s.router.tasks.filterMap fun task => task.phase.due.bind (Publication.eventAt app) :
        List Event) := by
    rw [h.eventsAt_eq, ← Multiset.filterMap_coe, h.taken_filterMap hrest.waiting hat,
      Accounts.eventAt_posts hd h happ, Accounts.sent_eq hrest]
  rw [← Multiset.coe_eq_coe, ← Multiset.filter_coe, hgot, Multiset.filter_coe, hcalls]
  split_ifs
  · rw [← Multiset.filter_coe, hevents, Multiset.filter_coe]
  · rfl

end Network

/-! ## On given inputs -/

namespace NetworkExample

open Network RouterExample Wire

/-- An event about each of the replies. -/
def delivered : Event := Event.ack firstReplyReading.uuid reading.uuid reading

/-- The event about the other reply. -/
def secondDelivered : Event := Event.ack secondReplyReading.uuid secondReading.uuid secondReading

/-- The events come in and go to the application. -/
def eventActions : List NetworkAction :=
  [.event (str "test1") secondDelivered, .event (str "test1") delivered,
    .route 0 reading fun _ => reading, .route 0 reading fun _ => reading, .routed 5, .routed 4,
    .reply 0 0 reading fun _ => reading, .reply 0 0 reading fun _ => reading]

/-- The conversations, and after them the events. -/
def actionsWithEvents : List NetworkAction := actions ++ eventActions

/-- A message has an identifier that none of these calls has stored. -/
def isNewId (tasks : List RouterTask) (m : Message) : Bool :=
  tasks.all fun task => (task.call.outboundMessage.map Message.message_id) != some m.message_id

/-- The clock stands at 0, and the router's next message has a new identifier. -/
def isTimely (s : Network) : NetworkAction → Bool
  | .route i r _ => decide (s.router.now ≤ 0) && (s.exchange.waiting[i]?).all fun item =>
      (deployment.router.consume plainConversions r item).all fun call =>
        (call.bind RouterCall.outboundMessage).all fun m => isNewId s.router.tasks m
  | _ => true

/-- All of a run is. -/
def areTimely (s : Network) : List NetworkAction → Bool
  | [] => true
  | a :: as => isTimely s a &&
      (step deployment plainConversions s a).all fun s' => areTimely s' as

/-- An action of which the environment is the reading. -/
def Still : NetworkAction → Prop
  | .route _ _ env => env = fun _ => reading
  | _ => True

/-- The test of a still action decides whether it is in time. -/
theorem timely_of_isTimely {s : Network} {a : NetworkAction} (h : isTimely s a = true)
    (hstill : Still a) : Timely deployment plainConversions s a := by
  cases a with
  | route i r env =>
    obtain rfl : env = fun _ => reading := hstill
    intro item call hi hconsume
    unfold isTimely at h
    dsimp only at h
    rw [hi, Bool.and_eq_true] at h
    -- The test asks for the time, and, of a new message, for a new id.
    obtain ⟨hnow, hnew⟩ := h
    rw [Option.all_some, hconsume, Option.all_some] at hnew
    refine ⟨fun _ _ _ => le_rfl, of_decide_eq_true hnow, ?_⟩
    -- An earlier message of this id would be in the history.
    rintro m rfl k n t ⟨x, hx⟩ hid
    rw [Option.bind_some, RouterCall.outboundMessage, Option.all_some] at hnew
    unfold RouterState.history at hx
    rw [List.getElem?_map] at hx
    obtain ⟨task, htask, hentry⟩ := Option.map_eq_some_iff.1 hx
    have hcall : task.call = .handle_outbound_message n := congrArg RouterEntry.call hentry
    have htaskNew := List.all_eq_true.1 hnew task (List.mem_of_getElem? htask)
    rw [hcall] at htaskNew
    simp [RouterCall.outboundMessage, hid] at htaskNew
  | bind key | inbound c m | event c e | outbound c m | routed k | reply app i r env | replied k
  | consume i => trivial

/-- Actions that pass their tests are taken in time, one after the other. -/
theorem meets_of_areTimely {as : List NetworkAction} {s : Network} (h : areTimely s as = true)
    (hproper : ∀ a ∈ as, a.Proper deployment plainConversions ∧ Still a) :
    Machine.Meets (step deployment plainConversions)
      (fun s a => a.Proper deployment plainConversions ∧ Timely deployment plainConversions s a)
      s as := by
  induction as generalizing s with
  | nil => trivial
  | cons a as ih =>
    obtain ⟨⟨hproperA, hstill⟩, hrest⟩ := List.forall_mem_cons.1 hproper
    unfold areTimely at h
    rw [Bool.and_eq_true] at h
    refine ⟨⟨hproperA, timely_of_isTimely h.1 hstill⟩, fun s' hs' => ih ?_ hrest⟩
    have hnext := h.2
    rw [hs', Option.all_some] at hnext
    exact hnext

/-- An acknowledgement of texts can be sent over the wire. -/
theorem sendable_ack {message sent : Str} {r : Reading} (hmessage : ValidText message)
    (hsent : ValidText sent) (hr : r.Genuine) :
    (Event.ack message sent r).Sendable plainConversions := by
  have hversion : ValidText (str "20110921") := validText_of_ascii (by decide)
  have htype : ValidText (str "event") := validText_of_ascii (by decide)
  refine ⟨hmessage, hversion, htype, hr.2, valid_empty _, valid_empty _, fun ms hms => ?_, hr.1,
    fun t ht => ?_, validOption_none⟩
  · obtain rfl := Option.some.inj hms
    exact valid_empty _
  · obtain rfl := Option.some.inj ht
    exact hsent

/-- The actions of the example are proper and in time. -/
theorem meets : Machine.Meets (step deployment plainConversions)
    (fun s a => a.Proper deployment plainConversions ∧ Timely deployment plainConversions s a)
    start actionsWithEvents := by
  have hgenuine : reading.Genuine := ⟨validText_of_ascii (by decide), by decide⟩
  have hsecondGenuine : secondReading.Genuine := ⟨validText_of_ascii (by decide), by decide⟩
  have hevent : delivered.Sendable plainConversions :=
    sendable_ack (validText_of_ascii (by decide)) (validText_of_ascii (by decide)) hgenuine
  have hsecond : secondDelivered.Sendable plainConversions :=
    sendable_ack (validText_of_ascii (by decide)) (validText_of_ascii (by decide)) hsecondGenuine
  have hstill : ∀ a ∈ actionsWithEvents, Still a := by
    simp [actionsWithEvents, actions, eventActions, Still]
  refine meets_of_areTimely (by decide +kernel) fun a ha => ⟨?_, hstill a ha⟩
  rcases List.mem_append.1 ha with hconversation | hafter
  · exact proper a hconversation
  · have hlast : ∀ a ∈ eventActions, a.Proper deployment plainConversions := by
      unfold eventActions
      simp only [List.forall_mem_cons]
      exact ⟨⟨rfl, hsecond⟩, ⟨rfl, hevent⟩, trivial, trivial, trivial, trivial, hgenuine, hgenuine,
        fun _ h => absurd h List.not_mem_nil⟩
    exact hlast a hafter

/-- What the calls of the router are about, and when. -/
def outline (s : Network) : List (Bool × Bool × ℚ) :=
  s.router.tasks.map fun task =>
    (task.call.outboundMessage.isSome, task.call.theEvent.isSome, task.time)

/-- The outline of the run: two inbound messages, two replies, and two events, all at once. -/
def outlineOfRun : List (Bool × Bool × ℚ) :=
  [(false, false, 0), (false, false, 0), (true, false, 0), (true, false, 0), (false, true, 0),
    (false, true, 0)]

/-- The run of the example ends at rest, with both events at the application. -/
theorem exists_run_events : ∃ s,
    Machine.run (step deployment plainConversions) start actionsWithEvents = some s ∧ s.AtRest ∧
      (s.eventsAt plainConversions reading (str "app1")).length = 2 ∧ s.accepted.length = 2 ∧
        outline s = outlineOfRun := by
  have hall : ((Machine.run (step deployment plainConversions) start actionsWithEvents).map fun s =>
      isAtRest s && (s.eventsAt plainConversions reading (str "app1")).length == 2 &&
        s.accepted.length == 2 && outline s == outlineOfRun) = some true := by
    decide +kernel
  obtain ⟨s, hrun, hs⟩ := Option.map_eq_some_iff.1 hall
  rw [Bool.and_eq_true, Bool.and_eq_true, Bool.and_eq_true] at hs
  obtain ⟨⟨⟨hrest, htwo⟩, haccepted⟩, houtline⟩ := hs
  exact ⟨s, hrun, atRest_of_isAtRest hrest, beq_iff_eq.1 htwo, beq_iff_eq.1 haccepted,
    beq_iff_eq.1 houtline⟩

/-- Of the calls, a stored message has one of the first four, and an event a later one. -/
theorem places {s : Network} (houtline : outline s = outlineOfRun) :
    (∀ j m u, Stored s.router.history j m u → j < 4 ∧ u = 0) ∧
      ∀ i e t, LookedUp s.router.history i e t → 4 ≤ i ∧ t = 0 := by
  -- An entry of the history is seen in the outline.
  have hplace : ∀ (i : ℕ) (call : RouterCall) (t : ℚ) (x : Except PyExc (Option Publication)),
      s.router.history[i]? = some ⟨call, t, x⟩ →
        outlineOfRun[i]? = some (call.outboundMessage.isSome, call.theEvent.isSome, t) := by
    intro i call t x hx
    unfold RouterState.history at hx
    rw [List.getElem?_map] at hx
    obtain ⟨task, htask, hentry⟩ := Option.map_eq_some_iff.1 hx
    obtain ⟨rfl, rfl, -⟩ := RouterEntry.mk.inj hentry
    rw [← houtline]
    unfold outline
    rw [List.getElem?_map, htask]
    rfl
  -- What is asked of the entries can be read off the outline.
  have hstands : ∀ entry ∈ outlineOfRun, entry.2.2 = 0 := by decide +kernel
  have hstored : ∀ entry ∈ outlineOfRun.drop 4, entry.1 = false := by decide +kernel
  have hlooked : ∀ entry ∈ outlineOfRun.take 4, entry.2.1 = false := by decide +kernel
  constructor
  · rintro j m u ⟨x, hx⟩
    have hj := hplace j _ u x hx
    refine ⟨?_, hstands _ (List.mem_of_getElem? hj)⟩
    by_contra hge
    obtain ⟨k, rfl⟩ := Nat.exists_eq_add_of_le (Nat.le_of_not_lt hge)
    rw [← List.getElem?_drop] at hj
    exact absurd (hstored _ (List.mem_of_getElem? hj)) (by simp [RouterCall.outboundMessage])
  · rintro i e t ⟨x, hx⟩
    have hi := hplace i _ t x hx
    refine ⟨?_, hstands _ (List.mem_of_getElem? hi)⟩
    by_contra hlt
    rw [← List.getElem?_take_of_lt (Nat.lt_of_not_le hlt)] at hi
    exact absurd (hlooked _ (List.mem_of_getElem? hi)) (by simp [RouterCall.theEvent])

end NetworkExample

open NetworkExample RouterExample Wire

/-- The application gets the events about its replies. -/
theorem Network.events_return_example : ∃ s : Network,
    Machine.run (Network.step deployment plainConversions) start actionsWithEvents = some s ∧
      (s.eventsAt plainConversions reading (str "app1")).length = 2 ∧
      (s.eventsAt plainConversions reading (str "app1") : Multiset Event) ≤ s.events deployment ∧
      ∀ e ∈ s.eventsAt plainConversions reading (str "app1"), ∃ m ∈ s.accepted,
        m.message_id = e.user_message_id ∧
        (oneApp (str "app1")).selected plainCompile m.from_addr = some (str "app1") ∧
          (∀ n ∈ s.accepted, n.message_id = e.user_message_id → n = m) ∧
            ∀ task ∈ s.replies, task.reply = .outbound task.config.transport_name m →
              task.config.transport_name = str "app1" := by
  obtain ⟨s, hrun, -, htwo, -, -⟩ := exists_run_events
  exact ⟨s, hrun, htwo, Network.events_return connected setup_eq meets hrun reading rfl⟩

/-- It gets all of them, about the one reply and about the other. -/
theorem Network.events_arrive_example : ∃ s : Network,
    Machine.run (Network.step deployment plainConversions) start actionsWithEvents = some s ∧
      s.accepted.length = 2 ∧ ∀ m ∈ s.accepted,
        ((s.eventsAt plainConversions reading (str "app1")).filter fun e =>
            e.user_message_id = m.message_id).Perm
          (if (oneApp (str "app1")).selected plainCompile m.from_addr = some (str "app1") then
            (s.events deployment).filter fun e => e.user_message_id = m.message_id
          else []) := by
  obtain ⟨s, hrun, hrest, -, htwo, houtline⟩ := exists_run_events
  obtain ⟨hstored, hlooked⟩ := places houtline
  refine ⟨s, hrun, htwo, fun m hm => ?_⟩
  obtain ⟨j, u, hmu⟩ := Network.stored_of_accepted hm
  refine Network.events_arrive connected setup_eq meets hrun hrest (fun _ _ => rfl) reading rfl rfl
    hmu fun i e t het _ => ?_
  obtain ⟨hj, rfl⟩ := hstored j m u hmu
  obtain ⟨hi, rfl⟩ := hlooked i e t het
  have hin : TimeoutDict.age 0 0 ≤ 3600 := by decide +kernel
  exact ⟨by omega, hin⟩

end Vumi2
