import Vumi2.Network.Accounts
import Vumi2.Routers.Events

/-!
# Conversations through the broker

An inbound message goes from its transport through the router to the application that its address
selects, and a static reply application's reply goes back through the router to the transport. Four
queues and six handlers are on the way, and any number of other messages. Each stage is a part of
the accounts: what arrives at it is part of what left the one before, and is all of it once nothing
waits any more. So a transport gets no reply but to a message that came in, at most one to each
(`replies_go_back`), and exactly one in the end (`replies_arrive`).
-/

namespace Vumi2

open Effect Eff Text ToAddressRouter

/-- The publication that a handler comes to. -/
def RouterPhase.due (phase : RouterPhase) : Option Publication :=
  match phase with
  | publishing p => some p
  | published p => some p
  | _ => none

/-- What was published was to be published. -/
theorem RouterPhase.due_of_sent {phase : RouterPhase} {p : Publication}
    (h : phase.sent = some p) : phase.due = some p := by
  cases phase with
  | published q => exact h
  | publishing q | dropped | raised e => cases h

/-- Once a call does not wait any more, it has published what it was to publish. -/
theorem RouterPhase.sent_eq_due {phase : RouterPhase} (h : ∀ p, phase ≠ publishing p) :
    phase.sent = phase.due := by
  cases phase with
  | publishing p => exact absurd rfl (h p)
  | published p | dropped | raised e => rfl

/-- What a call is to publish is what its handler came to. -/
theorem RouterPhase.outcome_of_due {phase : RouterPhase} {p : Publication}
    (h : phase.due = some p) : phase.outcome = .ok (some p) := by
  cases phase with
  | publishing q | published q =>
    obtain rfl := Option.some.inj h
    rfl
  | dropped | raised e => cases h

/-- And the other way round. -/
theorem RouterPhase.due_of_outcome {phase : RouterPhase} {o : Option Publication}
    (h : phase.outcome = .ok o) : phase.due = o := by
  cases phase with
  | publishing q | published q | dropped => exact Except.ok.inj h
  | raised e => cases h

/-- A call that raised publishes nothing. -/
theorem RouterPhase.due_of_raised {phase : RouterPhase} {e : PyExc}
    (h : phase.outcome = .error e) : phase.due = none := by
  cases phase with
  | publishing q | published q | dropped => cases h
  | raised e => rfl

/-- The message of a call about an inbound message. -/
def RouterCall.inboundMessage : RouterCall → Option Message
  | handle_inbound_message m => some m
  | _ => none

/-- The message of a call about an outbound message. -/
def RouterCall.outboundMessage : RouterCall → Option Message
  | handle_outbound_message m => some m
  | _ => none

/-- The message that goes to a transport. -/
def Publication.outboundAt (transport : Str) : Publication → Option Message
  | outbound c m => if c = transport then some m else none
  | _ => none

/-- The message that goes to the router from an application. -/
def Deployment.sends (d : Deployment) (p : Publication) : Option Message :=
  (d.router.accepts p).bind RouterCall.outboundMessage

/-- The message that goes to the router from a transport. -/
def Deployment.arrives (d : Deployment) (p : Publication) : Option Message :=
  (d.router.accepts p).bind RouterCall.inboundMessage

/-- An inbound message for a static reply application, with the application's connector. -/
def Deployment.selects (d : Deployment) (compile : Str → Option (Str → Bool))
    (config : ToAddressRouterConfig) (m : Message) : Option (Str × Message) :=
  (config.selected compile m.to_addr).bind fun app =>
    if isConnector (d.applications.map StaticReplyConfig.transport_name) app = true then
      some (app, m)
    else none

/-- A static reply application that the message's address selects answers it. -/
def Deployment.Answered (d : Deployment) (compile : Str → Option (Str → Bool))
    (config : ToAddressRouterConfig) (m reply : Message) : Prop :=
  ∃ c ∈ d.applications, config.selected compile m.to_addr = some c.transport_name ∧
    StaticReplyApplication.Answers c m reply

namespace Network

/-- The messages that a transport got. -/
def outboundsAt (py : Conversions) (r : Reading) (s : Network) (transport : Str) : List Message :=
  s.exchange.taken.filterMap fun item =>
    if item.1 = routingKey transport (str "outbound") then
      overWire py (Message.deserialise py r) item.2
    else none

/-- The inbound messages that transports have published for the router. -/
def inbounds (d : Deployment) (s : Network) : List Message := s.transports.filterMap d.arrives

/-- The outbound messages that other applications have published for the router. -/
def foreign (d : Deployment) (s : Network) : List Message := s.others.filterMap d.sends

/-- Nothing is on its way: nothing waits in a queue or in a publishing call. -/
structure AtRest (s : Network) : Prop where
  waiting : s.exchange.waiting = []
  routed : ∀ task ∈ s.router.tasks, ∀ p, task.phase ≠ .publishing p
  replied : ∀ task ∈ s.replies, task.published = true

variable {d : Deployment} {py : Conversions} {compile : Str → Option (Str → Bool)}
  {config : ToAddressRouterConfig} {bound : Str → Bool} {s : Network}

/-- What of all that was published a stage looks at. -/
theorem posts_filterMap {α : Type} (f : Publication → Option α) (s : Network) :
    s.posts.filterMap f =
      (s.transports.filterMap f : List α) + (s.others.filterMap f : List α) +
        (s.router.tasks.filterMap fun task => task.phase.sent.bind f : List α) +
          (s.replies.filterMap fun task => task.sent.bind f : List α) := by
  unfold posts
  rw [Multiset.filterMap_add, Multiset.filterMap_add, Multiset.filterMap_add,
    Multiset.filterMap_coe, Multiset.filterMap_coe, Multiset.filterMap_coe, Multiset.filterMap_coe,
    List.filterMap_filterMap, List.filterMap_filterMap]

namespace Accounts

/-- What the router publishes comes of a call that it accepted. -/
theorem due_inbound (h : Accounts d py compile config bound s) {task : RouterTask}
    (htask : task ∈ s.router.tasks) {m : Message} (hcall : task.call = .handle_inbound_message m) :
    task.phase.due = (config.selected compile m.to_addr).map fun app => .inbound app m := by
  have hcomes := h.comesTo task htask
  rw [hcall] at hcomes
  exact RouterPhase.due_of_outcome hcomes

/-- An outbound message is to go to its transport, if the router has a connector for that. -/
theorem due_outbound (h : Accounts d py compile config bound s) {task : RouterTask}
    (htask : task ∈ s.router.tasks) {m : Message} (hcall : task.call = .handle_outbound_message m) :
    task.phase.due =
      if isConnector d.router.receive_inbound_connectors m.transport_name = true then
        some (.outbound m.transport_name m)
      else none := by
  have hcomes := h.comesTo task htask
  rw [hcall] at hcomes
  unfold ComesTo at hcomes
  dsimp only at hcomes
  split_ifs at hcomes ⊢
  · exact RouterPhase.due_of_outcome hcomes
  · exact RouterPhase.due_of_raised hcomes

/-- An event is to go to an application of the router, or nowhere. -/
theorem due_event (h : Accounts d py compile config bound s) {task : RouterTask}
    (htask : task ∈ s.router.tasks) {e : Event} (hcall : task.call = .handle_event e)
    {p : Publication} (hdue : task.phase.due = some p) :
    ∃ app, isConnector d.router.receive_outbound_connectors app = true ∧ p = .event app e := by
  have hcomes := h.comesTo task htask
  rw [hcall] at hcomes
  exact hcomes p (RouterPhase.outcome_of_due hdue)

/-- A stage that the router's publications do not reach. -/
theorem sent_none (h : Accounts d py compile config bound s) {α : Type} {f : Publication → Option α}
    (hin : ∀ c m, isConnector d.router.receive_outbound_connectors c = true →
      f (.inbound c m) = none)
    (hev : ∀ c e, f (.event c e) = none)
    (hout : ∀ c m, isConnector d.router.receive_inbound_connectors c = true →
      f (.outbound c m) = none) (hsetup : IsSetUp compile config d.router) :
    (s.router.tasks.filterMap fun task => task.phase.sent.bind f) = [] := by
  rw [List.filterMap_eq_nil_iff]
  intro task htask
  cases hsent : task.phase.sent with
  | none => rfl
  | some p =>
    -- What is sent is what its handler had to send.
    have hdue := RouterPhase.due_of_sent hsent
    cases hcall : task.call with
    | handle_inbound_message m =>
      rw [h.due_inbound htask hcall] at hdue
      obtain ⟨app, hselected, rfl⟩ := Option.map_eq_some_iff.1 hdue
      exact hin app m (hsetup.connected _ _ hselected)
    | handle_outbound_message m =>
      rw [h.due_outbound htask hcall] at hdue
      split_ifs at hdue with hconnector
      obtain rfl := Option.some.inj hdue
      exact hout _ m hconnector
    | handle_event e =>
      obtain ⟨app, -, rfl⟩ := h.due_event htask hcall hdue
      exact hev app e

/-- A stage that the replies do not reach. -/
theorem replies_none (hd : d.Connected) (h : Accounts d py compile config bound s) {α : Type}
    {f : Publication → Option α}
    (hout : ∀ c m, isConnector d.router.receive_outbound_connectors c = true →
      f (.outbound c m) = none) :
    (s.replies.filterMap fun task => task.sent.bind f) = [] := by
  rw [List.filterMap_eq_nil_iff]
  intro task htask
  obtain ⟨hconfig, reply, hreply, -, -⟩ := h.replies task htask
  unfold ReplyTask.sent
  split_ifs
  · rw [hreply]
    exact hout _ reply (hd.applications _ hconfig)
  · rfl

/-! ## The stages -/

/-- The calls of the router about the messages of a stage. -/
theorem calls_filterMap (h : Accounts d py compile config bound s) {α : Type}
    (g : RouterCall → Option α) :
    (s.router.tasks.filterMap fun task => g task.call) =
      (s.taken py).filterMap fun p => (d.router.accepts p).bind g := by
  have hcalls : (s.router.tasks.filterMap fun task => g task.call) =
      (s.router.tasks.map RouterTask.call).filterMap g := by
    rw [List.filterMap_map]
    rfl
  rw [hcalls, h.calls, List.filterMap_filterMap]

/-- Of what transports publish, the router handles each message once. -/
theorem arrives_posts (hd : d.Connected) (hsetup : IsSetUp compile config d.router)
    (h : Accounts d py compile config bound s) :
    s.posts.filterMap d.arrives = (s.inbounds d : Multiset Message) := by
  have hout : ∀ c m, d.arrives (.outbound c m) = none := by
    intro c m
    unfold Deployment.arrives accepts
    dsimp only
    split_ifs
    · rfl
    · rfl
  have hothers : s.others.filterMap d.arrives = [] := by
    rw [List.filterMap_eq_nil_iff]
    intro p hp
    obtain ⟨-, -, htype⟩ := h.others p hp
    cases p with
    | outbound c m => exact hout c m
    | inbound c m => exact absurd htype Publication.messageTypes_ne.1
    | event c e => exact absurd htype Publication.messageTypes_ne.2.1
  have hsent := h.sent_none (f := d.arrives) (fun c m hc => ?_) (fun c e => ?_)
    (fun c m _ => hout c m) hsetup
  · rw [posts_filterMap, hothers, hsent, replies_none hd h fun c m _ => hout c m,
      Multiset.coe_nil, add_zero, add_zero, add_zero]
    rfl
  · -- The router publishes inbound messages to applications only.
    unfold Deployment.arrives accepts
    dsimp only
    rw [if_neg]
    · rfl
    · intro hin
      rw [hd.disjoint c hin] at hc
      cases hc
  · unfold Deployment.arrives accepts
    dsimp only
    split_ifs
    · rfl
    · rfl

/-- Only the router publishes inbound messages to a static reply application. -/
theorem takes_posts (hd : d.Connected) (h : Accounts d py compile config bound s) :
    s.posts.filterMap d.takes =
      ((s.router.tasks.filterMap fun task => task.phase.sent.bind d.takes :
        List (Str × Message)) : Multiset (Str × Message)) := by
  -- A transport publishes under its own name, which no application has.
  have htransports : s.transports.filterMap d.takes = [] := by
    rw [List.filterMap_eq_nil_iff]
    intro p hp
    obtain ⟨-, hconnector, -⟩ := h.transports p hp
    cases p with
    | outbound c m | event c e => rfl
    | inbound c m =>
      unfold Deployment.takes
      dsimp only
      rw [if_neg]
      intro happ
      obtain ⟨a, ha, rfl⟩ := List.mem_map.1 (isConnector_iff.1 happ)
      have hconnected := hd.applications a ha
      cases hconnected.symm.trans hconnector
  -- The others publish outbound messages only.
  have hothers : s.others.filterMap d.takes = [] := by
    rw [List.filterMap_eq_nil_iff]
    intro p hp
    obtain ⟨-, -, htype⟩ := h.others p hp
    cases p with
    | outbound c m | event c e => rfl
    | inbound c m => exact absurd htype Publication.messageTypes_ne.1
  rw [posts_filterMap, htransports, hothers, replies_none hd h fun c m _ => rfl, Multiset.coe_nil,
    zero_add, zero_add, add_zero]

/-- The router gets outbound messages from the other applications, and replies. -/
theorem sends_posts (hsetup : IsSetUp compile config d.router)
    (hd : d.Connected) (h : Accounts d py compile config bound s) :
    s.posts.filterMap d.sends = (s.foreign d : Multiset Message) +
      (s.replies.filterMap fun task => task.sent.bind d.sends : List Message) := by
  -- Inbound messages and events are no calls of `handle_outbound_message`.
  have hin : ∀ c m, d.sends (.inbound c m) = none := by
    intro c m
    unfold Deployment.sends accepts
    dsimp only
    split_ifs
    · rfl
    · rfl
  have hev : ∀ c e, d.sends (.event c e) = none := by
    intro c e
    unfold Deployment.sends accepts
    dsimp only
    split_ifs
    · rfl
    · rfl
  -- The transports publish nothing else.
  have htransports : s.transports.filterMap d.sends = [] := by
    rw [List.filterMap_eq_nil_iff]
    intro p hp
    obtain ⟨-, -, htype⟩ := h.transports p hp
    cases p with
    | outbound c m => exact absurd rfl htype
    | inbound c m => exact hin c m
    | event c e => exact hev c e
  -- The router publishes outbound messages to transports, and takes none from there.
  have hsent := h.sent_none (f := d.sends) (fun c m _ => hin c m) hev (fun c m hc => ?_) hsetup
  · rw [posts_filterMap, htransports, hsent, Multiset.coe_nil, zero_add, add_zero]
    rfl
  · unfold Deployment.sends accepts
    dsimp only
    rw [if_neg]
    · rfl
    · intro hout
      rw [hd.disjoint c hc] at hout
      cases hout

/-- Only the router publishes to a transport. -/
theorem outboundAt_posts (hd : d.Connected) (h : Accounts d py compile config bound s)
    {t : Str} (ht : isConnector d.router.receive_inbound_connectors t = true) :
    s.posts.filterMap (Publication.outboundAt t) =
      ((s.router.tasks.filterMap fun task => task.phase.sent.bind (Publication.outboundAt t) :
        List Message) : Multiset Message) := by
  -- A transport publishes no outbound message.
  have htransports : s.transports.filterMap (Publication.outboundAt t) = [] := by
    rw [List.filterMap_eq_nil_iff]
    intro p hp
    obtain ⟨-, -, htype⟩ := h.transports p hp
    cases p with
    | outbound c m => exact absurd rfl htype
    | inbound c m | event c e => rfl
  -- The others publish under names that no transport has.
  have hothers : s.others.filterMap (Publication.outboundAt t) = [] := by
    rw [List.filterMap_eq_nil_iff]
    intro p hp
    obtain ⟨-, hconnector, -⟩ := h.others p hp
    cases p with
    | inbound c m | event c e => rfl
    | outbound c m =>
      refine if_neg ?_
      rintro rfl
      cases ht.symm.trans hconnector
  -- So do the static reply applications.
  have hreplies := replies_none hd h (f := Publication.outboundAt t) fun c m hc => by
    refine if_neg ?_
    rintro rfl
    rw [hd.disjoint _ ht] at hc
    cases hc
  rw [posts_filterMap, htransports, hothers, hreplies, Multiset.coe_nil, zero_add, zero_add,
    add_zero]

/-! ## From stage to stage -/

/-- What the router has published is part of what it is to publish. -/
theorem sent_le {α : Type} (f : Publication → Option α) (s : Network) :
    ((s.router.tasks.filterMap fun task => task.phase.sent.bind f : List α) : Multiset α) ≤
      (s.router.tasks.filterMap fun task => task.phase.due.bind f : List α) := by
  rw [← Multiset.filterMap_coe, ← Multiset.filterMap_coe]
  refine IsFrom.filterMap_le fun task _ y hy => ?_
  obtain ⟨p, hp, hfp⟩ := Option.bind_eq_some_iff.1 hy
  rw [RouterPhase.due_of_sent hp]
  exact hfp

/-- The messages that the router is to publish to static reply applications. -/
theorem due_takes (h : Accounts d py compile config bound s) :
    (s.router.tasks.filterMap fun task => task.phase.due.bind d.takes) =
      (s.router.tasks.filterMap fun task => task.call.inboundMessage).filterMap
        (d.selects compile config) := by
  rw [List.filterMap_filterMap]
  refine List.filterMap_congr fun task htask => ?_
  -- Only the handler of inbound messages publishes to an application as `takes` asks.
  cases hcall : task.call with
  | handle_inbound_message m =>
    rw [h.due_inbound htask hcall]
    dsimp only [RouterCall.inboundMessage, Deployment.selects, Option.bind_some]
    cases config.selected compile m.to_addr with
    | none => rfl
    | some app => rfl
  | handle_outbound_message m =>
    rw [h.due_outbound htask hcall]
    split_ifs
    · rfl
    · rfl
  | handle_event e =>
    cases hdue : task.phase.due with
    | none => rfl
    | some p =>
      obtain ⟨app, -, rfl⟩ := h.due_event htask hcall hdue
      rfl

/-- The messages that the router is to publish to a transport. -/
theorem due_outboundAt (h : Accounts d py compile config bound s) {t : Str}
    (ht : isConnector d.router.receive_inbound_connectors t = true) :
    (s.router.tasks.filterMap fun task => task.phase.due.bind (Publication.outboundAt t)) =
      (s.router.tasks.filterMap fun task => task.call.outboundMessage).filter
        fun m => m.transport_name = t := by
  rw [← List.filterMap_eq_filter, List.filterMap_filterMap]
  refine List.filterMap_congr fun task htask => ?_
  -- Only the handler of outbound messages publishes them, under the name that the message has.
  cases hcall : task.call with
  | handle_inbound_message m =>
    rw [h.due_inbound htask hcall]
    cases config.selected compile m.to_addr with
    | none => rfl
    | some app => rfl
  | handle_outbound_message m =>
    rw [h.due_outbound htask hcall]
    unfold RouterCall.outboundMessage
    by_cases hname : m.transport_name = t
    · rw [hname, if_pos ht]
      simp [Publication.outboundAt, Option.guard, hname]
    · split_ifs
      · simp [Publication.outboundAt, Option.guard, hname]
      · simp [Option.guard, hname]
  | handle_event e =>
    cases hdue : task.phase.due with
    | none => rfl
    | some p =>
      obtain ⟨app, -, rfl⟩ := h.due_event htask hcall hdue
      rfl

/-- What a transport got is what it finds in its queue. -/
theorem outboundsAt_eq (h : Accounts d py compile config bound s) (r : Reading) (t : Str) :
    s.outboundsAt py r t = (s.taken py).filterMap (Publication.outboundAt t) := by
  unfold outboundsAt taken
  rw [List.filterMap_filterMap]
  refine List.filterMap_congr fun item hitem => ?_
  -- An item that was taken was published, and is read back as it was.
  have hpublished := Multiset.mem_of_le h.conserves.taken_le hitem
  rw [h.published] at hpublished
  obtain ⟨p, hp, rfl⟩ := Multiset.mem_map.1 hpublished
  have hsendable := h.sendable hp
  rw [Publication.ofPost_post hsendable]
  have hkey : p.post.1 = routingKey t (str "outbound") ↔
      p.connector = t ∧ p.messageType = str "outbound" :=
    routingKey_inj p.messageType_no_dot (by decide)
  cases p with
  | outbound c m =>
    by_cases hc : c = t
    · rw [if_pos (hkey.2 ⟨hc, rfl⟩)]
      exact (overWire_message hsendable r).trans (if_pos hc).symm
    · rw [if_neg fun hk => hc (hkey.1 hk).1]
      exact (if_neg hc).symm
  | inbound c m => exact if_neg fun hk => Publication.messageTypes_ne.1 (hkey.1 hk).2
  | event c e => exact if_neg fun hk => Publication.messageTypes_ne.2.1 (hkey.1 hk).2

/-- A transport gets what applications have published for it. -/
theorem outboundsAt_le (hd : d.Connected) (hsetup : IsSetUp compile config d.router)
    (h : Accounts d py compile config bound s) (r : Reading) {t : Str}
    (ht : isConnector d.router.receive_inbound_connectors t = true) :
    (s.outboundsAt py r t : Multiset Message) ≤
      ((s.foreign d : Multiset Message) +
        (s.replies.filterMap fun task => task.sent.bind d.sends : List Message)).filter
          fun m => m.transport_name = t := by
  -- From what the transport takes back to what the router had to send, and from there to what was
  -- published for the router.
  calc (s.outboundsAt py r t : Multiset Message)
      = (s.taken py : Multiset Publication).filterMap (Publication.outboundAt t) := by
        rw [h.outboundsAt_eq, Multiset.filterMap_coe]
    _ ≤ s.posts.filterMap (Publication.outboundAt t) :=
        Multiset.filterMap_le_filterMap _ h.taken_le
    _ ≤ ((s.router.tasks.filterMap fun task =>
          task.phase.due.bind (Publication.outboundAt t) : List Message) : Multiset Message) := by
        rw [outboundAt_posts hd h ht]
        exact sent_le _ s
    _ = ((s.taken py : Multiset Publication).filterMap d.sends).filter
          fun m => m.transport_name = t := by
        rw [h.due_outboundAt ht, h.calls_filterMap, ← Multiset.filter_coe, Multiset.filterMap_coe]
        rfl
    _ ≤ (s.posts.filterMap d.sends).filter fun m => m.transport_name = t :=
        Multiset.filter_le_filter _ (Multiset.filterMap_le_filterMap _ h.taken_le)
    _ = _ := by rw [sends_posts hsetup hd h]

/-- Static reply applications get what transports have published for them. -/
theorem answered_le (hd : d.Connected) (hsetup : IsSetUp compile config d.router)
    (h : Accounts d py compile config bound s) :
    (s.replies.map fun task => (task.config.transport_name, task.message) :
        Multiset (Str × Message)) ≤
      (s.inbounds d : Multiset Message).filterMap (d.selects compile config) := by
  calc (s.replies.map fun task => (task.config.transport_name, task.message) :
        Multiset (Str × Message))
      = (s.taken py : Multiset Publication).filterMap d.takes := by
        rw [h.answered, Multiset.filterMap_coe]
    _ ≤ s.posts.filterMap d.takes := Multiset.filterMap_le_filterMap _ h.taken_le
    _ ≤ ((s.router.tasks.filterMap fun task => task.phase.due.bind d.takes :
          List (Str × Message)) : Multiset (Str × Message)) := by
        rw [takes_posts hd h]
        exact sent_le _ s
    _ = ((s.taken py : Multiset Publication).filterMap d.arrives).filterMap
          (d.selects compile config) := by
        rw [h.due_takes, h.calls_filterMap, ← Multiset.filterMap_coe, Multiset.filterMap_coe]
        rfl
    _ ≤ (s.posts.filterMap d.arrives).filterMap (d.selects compile config) :=
        Multiset.filterMap_le_filterMap _ (Multiset.filterMap_le_filterMap _ h.taken_le)
    _ = _ := by rw [arrives_posts hd hsetup h]

/-- A reply answers the message of its task. -/
theorem answers_of_sent (h : Accounts d py compile config bound s) {task : ReplyTask}
    (htask : task ∈ s.replies) {reply : Message}
    (hsent : (task.sent.bind d.sends) = some reply) :
    ∃ c ∈ d.applications, c.transport_name = task.config.transport_name ∧
      StaticReplyApplication.Answers c task.message reply := by
  obtain ⟨hconfig, reply', hreply, -, hanswers⟩ := h.replies task htask
  refine ⟨task.config, hconfig, rfl, ?_⟩
  obtain ⟨p, hp, hsends⟩ := Option.bind_eq_some_iff.1 hsent
  unfold ReplyTask.sent at hp
  split_ifs at hp
  obtain rfl := Option.some.inj hp
  rw [hreply] at hsends
  unfold Deployment.sends accepts at hsends
  dsimp only at hsends
  split_ifs at hsends
  · obtain rfl := Option.some.inj hsends
    exact hanswers
  · cases hsends

/-- An application's replies come from the messages that it got. -/
theorem replies_rel (h : Accounts d py compile config bound s) :
    Multiset.Rel (fun (x : Str × Message) reply => ∃ c ∈ d.applications, c.transport_name = x.1 ∧
        StaticReplyApplication.Answers c x.2 reply)
      ((s.replies.filter fun task => (task.sent.bind d.sends).isSome).map fun task =>
        (task.config.transport_name, task.message) : List (Str × Message))
      (s.replies.filterMap fun task => task.sent.bind d.sends : List Message) :=
  IsFrom.rel_map_filterMap fun _ htask _ hsent => h.answers_of_sent htask hsent

/-- A message that is selected for an application is answered by it. -/
theorem answered_of_selects {m reply : Message}
    (h : ∃ x, d.selects compile config m = some x ∧ ∃ c ∈ d.applications,
      c.transport_name = x.1 ∧ StaticReplyApplication.Answers c x.2 reply) :
    d.Answered compile config m reply := by
  obtain ⟨⟨app, n⟩, hselects, c, hc, hname, hanswers⟩ := h
  unfold Deployment.selects at hselects
  obtain ⟨app', hselected, happ⟩ := Option.bind_eq_some_iff.1 hselects
  split_ifs at happ
  obtain ⟨rfl, rfl⟩ := Prod.mk.inj (Option.some.inj happ)
  refine ⟨c, hc, ?_, hanswers⟩
  rw [hselected, hname]

/-- Every reply that is published answers a message that came in, and no two answer the same. -/
theorem replies_isFrom (hd : d.Connected) (hsetup : IsSetUp compile config d.router)
    (h : Accounts d py compile config bound s) :
    IsFrom (d.Answered compile config) (s.inbounds d)
      (s.replies.filterMap fun task => task.sent.bind d.sends : List Message) := by
  have hselected : IsFrom (fun m x => d.selects compile config m = some x)
      (s.inbounds d : Multiset Message)
      (s.replies.map fun task => (task.config.transport_name, task.message) :
        List (Str × Message)) := by
    have hall := IsFrom.rel_filterMap (d.selects compile config) (s.inbounds d : Multiset Message)
    exact ((IsFrom.of_rel hall).of_le (Multiset.filter_le _ _)).le_of (answered_le hd hsetup h)
  have hreplied : IsFrom (fun (x : Str × Message) reply => ∃ c ∈ d.applications,
        c.transport_name = x.1 ∧ StaticReplyApplication.Answers c x.2 reply)
      (s.replies.map fun task => (task.config.transport_name, task.message) :
        List (Str × Message))
      (s.replies.filterMap fun task => task.sent.bind d.sends : List Message) := by
    refine (IsFrom.of_rel h.replies_rel).of_le (Multiset.coe_le.2 ?_)
    exact (List.filter_sublist.map _).subperm
  exact (hselected.trans hreplied).mono fun _ _ => answered_of_selects

/-! ## When nothing is on its way -/

/-- At rest, what the router was to publish it has published. -/
theorem sent_eq (hrest : s.AtRest) {α : Type} (f : Publication → Option α) :
    (s.router.tasks.filterMap fun task => task.phase.sent.bind f) =
      s.router.tasks.filterMap fun task => task.phase.due.bind f :=
  List.filterMap_congr fun task htask => by rw [RouterPhase.sent_eq_due (hrest.routed task htask)]

/-- A queue of the router is there from the start. -/
theorem bound_of_accepts (hbound : ∀ key, Network.hasQueue d key = true → bound key = true)
    {p : Publication} (h : (d.router.accepts p).isSome) : bound p.post.1 = true := by
  by_contra hnot
  have hqueue : Network.hasQueue d p.post.1 = false := by
    rw [Bool.eq_false_iff]
    exact fun hq => hnot (hbound _ hq)
  rw [(none_of_hasQueue hqueue).1] at h
  cases h

/-- So is one of a static reply application. -/
theorem bound_of_takes (hbound : ∀ key, Network.hasQueue d key = true → bound key = true)
    {p : Publication} (h : (d.takes p).isSome) : bound p.post.1 = true := by
  by_contra hnot
  have hqueue : Network.hasQueue d p.post.1 = false := by
    rw [Bool.eq_false_iff]
    exact fun hq => hnot (hbound _ hq)
  rw [(none_of_hasQueue hqueue).2] at h
  cases h

/-- At rest, a transport got all that applications have published for it. -/
theorem outboundsAt_atRest (hd : d.Connected) (hsetup : IsSetUp compile config d.router)
    (h : Accounts d py compile config bound s) (hrest : s.AtRest)
    (hbound : ∀ key, Network.hasQueue d key = true → bound key = true) (r : Reading) {t : Str}
    (ht : isConnector d.router.receive_inbound_connectors t = true)
    (hqueue : bound (routingKey t (str "outbound")) = true) :
    (s.outboundsAt py r t : Multiset Message) =
      ((s.foreign d : Multiset Message) +
        (s.replies.filterMap fun task => task.sent.bind d.sends : List Message)).filter
          fun m => m.transport_name = t := by
  -- What is counted at either stage goes to a queue that was there from the start.
  have hat : ∀ p, (Publication.outboundAt t p).isSome → bound p.post.1 = true := by
    intro p hp
    cases p with
    | inbound c m | event c e => cases hp
    | outbound c m =>
      by_cases hc : c = t
      · rw [← hc] at hqueue
        exact hqueue
      · rw [show Publication.outboundAt t (.outbound c m) = none from if_neg hc] at hp
        cases hp
  have hsends : ∀ p, (d.sends p).isSome → bound p.post.1 = true := by
    intro p hp
    refine bound_of_accepts hbound ?_
    obtain ⟨m, hm⟩ := Option.isSome_iff_exists.1 hp
    obtain ⟨call, hcall, -⟩ := Option.bind_eq_some_iff.1 hm
    rw [hcall]
    rfl
  -- At rest, each stage of the way is an equality.
  calc (s.outboundsAt py r t : Multiset Message)
      = (s.taken py : Multiset Publication).filterMap (Publication.outboundAt t) := by
        rw [h.outboundsAt_eq, Multiset.filterMap_coe]
    _ = ((s.router.tasks.filterMap fun task =>
          task.phase.due.bind (Publication.outboundAt t) : List Message) : Multiset Message) := by
        rw [h.taken_filterMap hrest.waiting hat, outboundAt_posts hd h ht, sent_eq hrest]
    _ = ((s.taken py : Multiset Publication).filterMap d.sends).filter
          fun m => m.transport_name = t := by
        rw [h.due_outboundAt ht, h.calls_filterMap, ← Multiset.filter_coe, Multiset.filterMap_coe]
        rfl
    _ = _ := by rw [h.taken_filterMap hrest.waiting hsends, sends_posts hsetup hd h]

/-- At rest, every message that is selected for a static reply application has its reply. -/
theorem replies_atRest (hd : d.Connected) (hsetup : IsSetUp compile config d.router)
    (h : Accounts d py compile config bound s) (hrest : s.AtRest)
    (hbound : ∀ key, Network.hasQueue d key = true → bound key = true) :
    Multiset.Rel (d.Answered compile config)
      ((s.inbounds d : Multiset Message).filter fun m => (d.selects compile config m).isSome)
      (s.replies.filterMap fun task => task.sent.bind d.sends : List Message) := by
  have harrives : ∀ p, (d.arrives p).isSome → bound p.post.1 = true := by
    intro p hp
    refine bound_of_accepts hbound ?_
    obtain ⟨m, hm⟩ := Option.isSome_iff_exists.1 hp
    obtain ⟨call, hcall, -⟩ := Option.bind_eq_some_iff.1 hm
    rw [hcall]
    rfl
  have hanswered : (s.replies.map fun task => (task.config.transport_name, task.message) :
        Multiset (Str × Message)) =
      (s.inbounds d : Multiset Message).filterMap (d.selects compile config) := by
    calc (s.replies.map fun task => (task.config.transport_name, task.message) :
          Multiset (Str × Message))
        = (s.taken py : Multiset Publication).filterMap d.takes := by
          rw [h.answered, Multiset.filterMap_coe]
      _ = ((s.router.tasks.filterMap fun task => task.phase.due.bind d.takes :
            List (Str × Message)) : Multiset (Str × Message)) := by
          rw [h.taken_filterMap hrest.waiting fun p => bound_of_takes hbound, takes_posts hd h,
            sent_eq hrest]
      _ = ((s.taken py : Multiset Publication).filterMap d.arrives).filterMap
            (d.selects compile config) := by
          rw [h.due_takes, h.calls_filterMap, ← Multiset.filterMap_coe, Multiset.filterMap_coe]
          rfl
      _ = _ := by rw [h.taken_filterMap hrest.waiting harrives, arrives_posts hd hsetup h]
  -- Every task has published its reply, and the router gets it.
  have hall : (s.replies.filter fun task => (task.sent.bind d.sends).isSome) = s.replies := by
    rw [List.filter_eq_self]
    intro task htask
    obtain ⟨hconfig, reply, hreply, -, -⟩ := h.replies task htask
    unfold ReplyTask.sent
    rw [if_pos (hrest.replied task htask), hreply]
    unfold Deployment.sends accepts
    simp [hd.applications _ hconfig, RouterCall.outboundMessage]
  have hreplied := h.replies_rel
  rw [hall, hanswered] at hreplied
  have hselected := IsFrom.rel_filterMap (d.selects compile config)
    (s.inbounds d : Multiset Message)
  exact (IsFrom.rel_comp hselected hreplied).mono fun _ _ _ _ => answered_of_selects

end Accounts

/-- In every run, what a transport of the router gets is what applications have published for it: of
the static reply applications, replies to messages that came in from it, at most one to each. -/
theorem replies_go_back (hd : d.Connected) (hsetup : setup compile config = .ok d.router)
    {now : ℚ} {actions : List NetworkAction} (hproper : ∀ a ∈ actions, a.Proper d py)
    (hrun : Machine.run (step d py) (new bound config now) actions = some s) (r : Reading) {t : Str}
    (ht : isConnector d.router.receive_inbound_connectors t = true) :
    ∃ replies others : Multiset Message,
      (s.outboundsAt py r t : Multiset Message) = replies + others ∧
        IsFrom (d.Answered compile config)
          ((s.inbounds d).filter fun m => m.transport_name = t : List Message) replies ∧
        others ≤ ((s.foreign d).filter fun m => m.transport_name = t : List Message) := by
  have hrouter := isSetUp_of_setup hsetup
  have h : Accounts d py compile config bound s := Accounts.run hd hrouter hproper hrun
  have hle := Accounts.outboundsAt_le hd hrouter h r ht
  rw [Multiset.filter_add, add_comm] at hle
  obtain ⟨replies, others, heq, hreplies, hothers⟩ := IsFrom.exists_of_le_add hle
  refine ⟨replies, others, heq, ?_, by rw [← Multiset.filter_coe]; exact hothers⟩
  -- A reply goes to the transport of the message that it answers.
  have hback : ∀ m reply : Message, d.Answered compile config m reply →
      (m.transport_name = t ↔ reply.transport_name = t) := by
    rintro m reply ⟨c, -, -, hanswers⟩
    rw [hanswers.goesBack.transport_name]
  have hfrom := (Accounts.replies_isFrom hd hrouter h).filter hback
  rw [Multiset.filter_coe] at hfrom
  exact hfrom.le_of hreplies

/-- Once nothing is on its way, if the queues were there from the start, the transport got exactly
one reply to each message that came in from it for a static reply application. -/
theorem replies_arrive (hd : d.Connected) (hsetup : setup compile config = .ok d.router)
    {now : ℚ} {actions : List NetworkAction} (hproper : ∀ a ∈ actions, a.Proper d py)
    (hrun : Machine.run (step d py) (new bound config now) actions = some s) (hrest : s.AtRest)
    (hbound : ∀ key, hasQueue d key = true → bound key = true) (r : Reading) {t : Str}
    (ht : isConnector d.router.receive_inbound_connectors t = true)
    (hqueue : bound (routingKey t (str "outbound")) = true) :
    ∃ replies : Multiset Message,
      (s.outboundsAt py r t : Multiset Message) =
          replies + ((s.foreign d).filter fun m => m.transport_name = t : List Message) ∧
        Multiset.Rel (d.Answered compile config)
          ((s.inbounds d).filter fun m => m.transport_name = t ∧ ∃ c ∈ d.applications,
            config.selected compile m.to_addr = some c.transport_name : List Message) replies := by
  have hrouter := isSetUp_of_setup hsetup
  have h : Accounts d py compile config bound s := Accounts.run hd hrouter hproper hrun
  have heq := Accounts.outboundsAt_atRest hd hrouter h hrest hbound r ht hqueue
  rw [Multiset.filter_add, add_comm] at heq
  refine ⟨_, heq, ?_⟩
  -- A reply has the transport of its message, so both sides can be restricted to this transport.
  have hback : ∀ m reply : Message, d.Answered compile config m reply →
      (m.transport_name = t ↔ reply.transport_name = t) := by
    rintro m reply ⟨c, -, -, hanswers⟩
    rw [hanswers.goesBack.transport_name]
  have hrel := IsFrom.rel_filter hback (Accounts.replies_atRest hd hrouter h hrest hbound)
  -- To have an answer is to be selected for a static reply application.
  have hselects : ∀ m, (d.selects compile config m).isSome ↔
      ∃ c ∈ d.applications, config.selected compile m.to_addr = some c.transport_name := by
    intro m
    unfold Deployment.selects
    rw [Option.isSome_iff_exists]
    constructor
    · rintro ⟨x, hx⟩
      obtain ⟨app, hselected, happ⟩ := Option.bind_eq_some_iff.1 hx
      split_ifs at happ with hconnector
      obtain ⟨c, hc, rfl⟩ := List.mem_map.1 (isConnector_iff.1 hconnector)
      exact ⟨c, hc, hselected⟩
    · rintro ⟨c, hc, hselected⟩
      rw [hselected]
      exact ⟨_, if_pos (isConnector_iff.2 (List.mem_map_of_mem hc))⟩
  rw [Multiset.filter_filter, Multiset.filter_coe] at hrel
  simp only [hselects] at hrel
  exact hrel

/-! ## On given inputs -/

end Network

namespace NetworkExample

open Network RouterExample Wire

/-- A router with one application, which answers `Thanks`. -/
def deployment : Deployment := ⟨router (str "app1"), [⟨str "app1", str "Thanks"⟩]⟩

/-- The network before anything is published, with every queue. -/
def start : Network := new (fun _ => true) (oneApp (str "app1")) 0

/-- Further readings, each with an identifier of its own. -/
def secondReading : Reading := ⟨0, str "e2b0c6d94a5f4f5d8f0a6f3c1d7b9a02", reading.utcnow⟩

/-- What the first reply to be made reads. -/
def firstReplyReading : Reading := ⟨0, str "51f7d0aa2cbb4d3e9a7e4f6c8b1d2e03", reading.utcnow⟩

/-- What the second reply to be made reads. -/
def secondReplyReading : Reading := ⟨0, str "0c9be17f6d8843b2b5a1c3e7f9d04604", reading.utcnow⟩

/-- A message of a user for the application. -/
def ask (user content : Str) (r : Reading) : Message :=
  { Message.create (str "12345") user (str "test1") .sms r with content := .string content }

/-- The message of the first user. -/
def question : Message := ask (str "+27820001001") (str "Hello") reading

/-- The message of the second user. -/
def secondQuestion : Message := ask (str "+27820001002") (str "Hi") secondReading

/-- They come in, and are routed, answered and sent out in another order. -/
def actions : List NetworkAction :=
  [.inbound (str "test1") question, .inbound (str "test1") secondQuestion,
    .route 1 reading fun _ => reading, .route 0 reading fun _ => reading, .routed 1, .routed 0,
    .reply 0 0 reading fun _ => firstReplyReading, .reply 0 0 reading fun _ => secondReplyReading,
    .replied 1, .replied 0, .route 0 reading fun _ => reading, .route 0 reading fun _ => reading,
    .routed 3, .routed 2, .consume 0, .consume 0]

/-- Nothing waits, every message of the router has been passed on, and every reply is published. -/
def isAtRest (s : Network) : Bool :=
  s.exchange.waiting.isEmpty &&
    s.router.tasks.all (fun task => task.phase.sent.isSome == task.phase.due.isSome) &&
      s.replies.all fun task => task.published

/-- The network is at rest if the check says so. -/
theorem atRest_of_isAtRest {s : Network} (h : isAtRest s = true) : s.AtRest := by
  unfold isAtRest at h
  rw [Bool.and_eq_true, Bool.and_eq_true] at h
  obtain ⟨⟨hwaiting, hrouted⟩, hreplied⟩ := h
  refine ⟨List.isEmpty_iff.1 hwaiting, fun task htask p hphase => ?_, fun task htask => ?_⟩
  · have hsent := List.all_eq_true.1 hrouted task htask
    rw [hphase] at hsent
    cases hsent
  · exact List.all_eq_true.1 hreplied task htask

/-- The run is possible, ends at rest, and brings the transport two messages. -/
theorem exists_run : ∃ s, Machine.run (step deployment plainConversions) start actions = some s ∧
    s.AtRest ∧ (s.outboundsAt plainConversions reading (str "test1")).length = 2 := by
  have hall : ((Machine.run (step deployment plainConversions) start actions).map fun s =>
      isAtRest s && (s.outboundsAt plainConversions reading (str "test1")).length == 2) =
        some true := by
    decide +kernel
  obtain ⟨s, hrun, hs⟩ := Option.map_eq_some_iff.1 hall
  rw [Bool.and_eq_true] at hs
  exact ⟨s, hrun, atRest_of_isAtRest hs.1, beq_iff_eq.1 hs.2⟩

/-- The workers of the deployment are connected. -/
theorem connected : deployment.Connected := by
  refine ⟨fun name hname => ?_, fun c hc => ?_, fun c hc => ?_⟩
  · obtain rfl := List.mem_singleton.1 (isConnector_iff.1 hname)
    decide
  · obtain rfl := List.mem_singleton.1 hc
    decide
  · obtain rfl := List.mem_singleton.1 hc
    exact validText_of_ascii (by decide)

/-- A message of a user can be sent. -/
theorem sendable_ask {user content : Str} {r : Reading} (huser : ValidText user)
    (hcontent : ValidText content) (hr : r.Genuine) :
    (ask user content r).Sendable plainConversions := by
  have hto : ValidText (str "12345") := validText_of_ascii (by decide)
  have hname : ValidText (str "test1") := validText_of_ascii (by decide)
  have hversion : ValidText (str "20110921") := validText_of_ascii (by decide)
  have htype : ValidText (str "user_message") := validText_of_ascii (by decide)
  exact ⟨hto, huser, hname, hversion, htype, hr.2, valid_empty _, valid_empty _, hr.1,
    validOption_none, validOption_none, .inr ⟨_, rfl, hcontent⟩, valid_empty _, validOption_none⟩

/-- All actions of the run are proper. -/
theorem proper : ∀ a ∈ actions, a.Proper deployment plainConversions := by
  have hquestion : question.Sendable plainConversions :=
    sendable_ask (validText_of_ascii (by decide)) (validText_of_ascii (by decide))
      ⟨validText_of_ascii (by decide), by decide⟩
  have hsecond : secondQuestion.Sendable plainConversions :=
    sendable_ask (validText_of_ascii (by decide)) (validText_of_ascii (by decide))
      ⟨validText_of_ascii (by decide), by decide⟩
  have hreply : firstReplyReading.Genuine ∧ secondReplyReading.Genuine :=
    ⟨⟨validText_of_ascii (by decide), by decide⟩, validText_of_ascii (by decide), by decide⟩
  unfold actions
  simp only [List.forall_mem_cons]
  exact ⟨⟨rfl, hquestion⟩, ⟨rfl, hsecond⟩, trivial, trivial, trivial, trivial, hreply.1, hreply.2,
    trivial, trivial, trivial, trivial, trivial, trivial, trivial, trivial,
    fun _ h => absurd h List.not_mem_nil⟩

/-- The router is set up from its configuration. -/
theorem setup_eq : setup plainCompile (oneApp (str "app1")) = .ok deployment.router := rfl

end NetworkExample

open NetworkExample RouterExample Wire

/-- What the transport got are replies to the messages. -/
theorem Network.replies_go_back_example : ∃ s : Network,
    Machine.run (Network.step deployment plainConversions) start actions = some s ∧
      (s.outboundsAt plainConversions reading (str "test1")).length = 2 ∧
      ∃ replies others : Multiset Message,
        (s.outboundsAt plainConversions reading (str "test1") : Multiset Message) =
          replies + others ∧
        IsFrom (deployment.Answered plainCompile (oneApp (str "app1")))
          ((s.inbounds deployment).filter fun m => m.transport_name = str "test1" : List Message)
          replies ∧
        others ≤ ((s.foreign deployment).filter fun m =>
          m.transport_name = str "test1" : List Message) := by
  obtain ⟨s, hrun, -, htwo⟩ := exists_run
  exact ⟨s, hrun, htwo, Network.replies_go_back connected setup_eq proper hrun reading rfl⟩

/-- There are two. -/
theorem Network.replies_arrive_example : ∃ s : Network,
    Machine.run (Network.step deployment plainConversions) start actions = some s ∧
      (s.outboundsAt plainConversions reading (str "test1")).length = 2 ∧
      ∃ replies : Multiset Message,
        (s.outboundsAt plainConversions reading (str "test1") : Multiset Message) =
          replies + ((s.foreign deployment).filter fun m =>
            m.transport_name = str "test1" : List Message) ∧
        Multiset.Rel (deployment.Answered plainCompile (oneApp (str "app1")))
          ((s.inbounds deployment).filter fun m => m.transport_name = str "test1" ∧
            ∃ c ∈ deployment.applications, (oneApp (str "app1")).selected plainCompile m.to_addr =
              some c.transport_name : List Message) replies := by
  obtain ⟨s, hrun, hrest, htwo⟩ := exists_run
  exact ⟨s, hrun, htwo, Network.replies_arrive connected setup_eq proper hrun hrest
    (fun _ _ => rfl) reading rfl rfl⟩

end Vumi2
