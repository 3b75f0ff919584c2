import Mathlib.Tactic.Abel
import Vumi2.Network
import Vumi2.Routers.Routes

/-!
# What goes through the exchange

A routing key tells the connector and the type of message (`routingKey_inj`), and a document tells
the message, so an item of the exchange is one publication of one party (`post_inj`). `Accounts`
says of every state that is reached what was published by whom, and that what each party takes and
makes of it is in the account. The results about whole conversations follow from it.
-/

namespace Vumi2

open Effect Eff Text ToAddressRouter

/-! ## Routing keys -/

/-- A routing key tells its connector and its type of message, since no type has a dot. -/
theorem routingKey_inj {a b s t : Str} (hs : ofChar '.' ∉ s) (ht : ofChar '.' ∉ t) :
    routingKey a s = routingKey b t ↔ a = b ∧ s = t := by
  constructor
  · intro h
    unfold routingKey at h
    rcases List.append_eq_append_iff.1 h with ⟨c, hb, hc⟩ | ⟨c, ha, hc⟩
    · rcases List.cons_eq_append_iff.1 hc with ⟨rfl, htail⟩ | ⟨c', rfl, hc'⟩
      · rw [List.append_nil] at hb
        exact ⟨hb.symm, (List.cons.inj htail).2.symm⟩
      · -- The last dot of one key is in the other's type.
        exact absurd (by rw [hc']; simp) hs
    · rcases List.cons_eq_append_iff.1 hc with ⟨rfl, htail⟩ | ⟨c', rfl, hc'⟩
      · rw [List.append_nil] at ha
        exact ⟨ha, (List.cons.inj htail).2⟩
      · exact absurd (by rw [hc']; simp) ht
  · rintro ⟨rfl, rfl⟩
    rfl

/-- Nobody has a queue of this key but the connectors of its name. -/
theorem isQueue_routingKey {connectors : List Str} {s name t : Str} (hs : ofChar '.' ∉ s)
    (ht : ofChar '.' ∉ t) :
    isQueue connectors s (routingKey name t) = (isConnector connectors name && decide (s = t)) := by
  rw [Bool.eq_iff_iff, Bool.and_eq_true, isConnector_iff, decide_eq_true_iff]
  unfold isQueue
  rw [List.any_eq_true]
  constructor
  · rintro ⟨c, hc, heq⟩
    obtain ⟨rfl, rfl⟩ := (routingKey_inj hs ht).1 (of_decide_eq_true heq)
    exact ⟨hc, rfl⟩
  · rintro ⟨hname, rfl⟩
    exact ⟨name, hname, decide_eq_true rfl⟩

namespace Publication

/-- A type of message has no dot. -/
theorem messageType_no_dot (p : Publication) : ofChar '.' ∉ p.messageType := by
  have htypes : ∀ t ∈ [str "outbound", str "inbound", str "event"], ofChar '.' ∉ t := by decide
  cases p with
  | outbound c m | inbound c m | event c e => exact htypes _ (by simp [messageType])

/-- The types of message are three. -/
theorem messageTypes_ne : str "inbound" ≠ str "outbound" ∧ str "event" ≠ str "outbound" ∧
    str "inbound" ≠ str "event" := by decide

/-- Its document holds all of it. -/
def Sendable (py : Conversions) : Publication → Prop
  | outbound _ m => m.Sendable py
  | inbound _ m => m.Sendable py
  | event _ e => e.Sendable py

variable {py : Conversions} {p q : Publication}

/-- An item is that of one publication. -/
theorem post_inj (hp : p.Sendable py) (hq : q.Sendable py) (h : p.post = q.post) : p = q := by
  have r : Reading := ⟨0, [], DateTime.min⟩
  obtain ⟨hkey, hdocument⟩ := Prod.mk.inj h
  obtain ⟨hconnector, htype⟩ := (routingKey_inj p.messageType_no_dot q.messageType_no_dot).1 hkey
  -- A document is read back, so two messages of one document are one.
  have hmessage : ∀ {m n : Message}, m.Sendable py → n.Sendable py → m.serialise = n.serialise →
      m = n := by
    intro m n hm hn heq
    have hread := Message.deserialise_serialise hm r
    rw [heq, Message.deserialise_serialise hn r] at hread
    exact (Except.ok.inj hread).symm
  have hevent : ∀ {d e : Event}, d.Sendable py → e.Sendable py → d.serialise = e.serialise →
      d = e := by
    intro d e hd he heq
    have hread := Event.deserialise_serialise hd r
    rw [heq, Event.deserialise_serialise he r] at hread
    exact (Except.ok.inj hread).symm
  obtain ⟨hio, heo, hie⟩ := messageTypes_ne
  -- The type is part of the routing key, so publications of two kinds differ in it.
  cases p with
  | outbound c m =>
    cases q with
    | outbound c' m' =>
      obtain rfl : c = c' := hconnector
      rw [hmessage hp hq hdocument]
    | inbound c' m' => exact absurd htype hio.symm
    | event c' e' => exact absurd htype heo.symm
  | inbound c m =>
    cases q with
    | outbound c' m' => exact absurd htype.symm hio.symm
    | inbound c' m' =>
      obtain rfl : c = c' := hconnector
      rw [hmessage hp hq hdocument]
    | event c' e' => exact absurd htype hie
  | event c e =>
    cases q with
    | outbound c' m' => exact absurd htype.symm heo.symm
    | inbound c' m' => exact absurd htype.symm hie
    | event c' e' =>
      obtain rfl : c = c' := hconnector
      rw [hevent hp hq hdocument]

open Classical in
/-- The publication of an item. -/
noncomputable def ofPost (py : Conversions) (item : Str × Json.Members) : Option Publication :=
  if h : ∃ p : Publication, p.Sendable py ∧ p.post = item then some h.choose else none

/-- The publication of an item that was posted is the one that posted it. -/
theorem ofPost_post (hp : p.Sendable py) : ofPost py p.post = some p := by
  have h : ∃ q : Publication, q.Sendable py ∧ q.post = p.post := ⟨p, hp, rfl⟩
  unfold ofPost
  rw [dif_pos h, post_inj h.choose_spec.1 hp h.choose_spec.2]

/-- An item that has a publication was posted by it. -/
theorem post_of_ofPost {item : Str × Json.Members} (h : ofPost py item = some p) :
    p.Sendable py ∧ p.post = item := by
  unfold ofPost at h
  split_ifs at h with hex
  obtain rfl := Option.some.inj h
  exact hex.choose_spec

end Publication

/-! ## What the parties make of an item -/

/-- The call of the router's callback for a publication that it consumes. -/
def ToAddressRouter.accepts (r : ToAddressRouter) : Publication → Option RouterCall
  | .inbound c m =>
    if isConnector r.receive_inbound_connectors c = true then some (.handle_inbound_message m)
    else none
  | .event c e =>
    if isConnector r.receive_inbound_connectors c = true then some (.handle_event e) else none
  | .outbound c m =>
    if isConnector r.receive_outbound_connectors c = true then some (.handle_outbound_message m)
    else none

/-- A message that can be sent comes over the wire. -/
theorem overWire_message {py : Conversions} {m : Message} (h : m.Sendable py) (r : Reading) :
    overWire py (Message.deserialise py r) m.serialise = some m := by
  rw [overWire_of_valid h.valid, Message.deserialise_serialise h]
  rfl

/-- An event that can be sent comes over the wire. -/
theorem overWire_event {py : Conversions} {e : Event} (h : e.Sendable py) (r : Reading) :
    overWire py (Event.deserialise py r) e.serialise = some e := by
  rw [overWire_of_valid h.valid, Event.deserialise_serialise h]
  rfl

/-- The router calls back for what it consumes, with what was published. -/
theorem ToAddressRouter.consume_post (r : ToAddressRouter) {py : Conversions} {p : Publication}
    (hp : p.Sendable py) (reading : Reading) :
    r.consume py reading p.post = (r.accepts p).map some := by
  have hin : ofChar '.' ∉ str "inbound" := by decide
  have hout : ofChar '.' ∉ str "outbound" := by decide
  have hev : ofChar '.' ∉ str "event" := by decide
  obtain ⟨hio, heo, hie⟩ := Publication.messageTypes_ne
  unfold consume Publication.post accepts
  dsimp only
  rw [isQueue_routingKey hin p.messageType_no_dot, isQueue_routingKey hev p.messageType_no_dot,
    isQueue_routingKey hout p.messageType_no_dot]
  -- One queue for each type: of the three tests only that of the type can succeed.
  cases p with
  | inbound c m =>
    simp only [Publication.messageType, Publication.connector, hie.symm, hio.symm, decide_true,
      decide_false, Bool.and_true, Bool.and_false, Bool.false_eq_true, if_false]
    rw [overWire_message hp]
    split_ifs
    · rfl
    · rfl
  | event c e =>
    simp only [Publication.messageType, Publication.connector, hie, heo.symm, decide_true,
      decide_false, Bool.and_true, Bool.and_false, Bool.false_eq_true, if_false]
    rw [overWire_event hp]
    split_ifs
    · rfl
    · rfl
  | outbound c m =>
    simp only [Publication.messageType, Publication.connector, hio, heo, decide_true,
      decide_false, Bool.and_true, Bool.and_false, Bool.false_eq_true, if_false]
    rw [overWire_message hp]
    split_ifs
    · rfl
    · rfl

/-- The inbound message that a static reply application gets, with the connector's name. -/
def Deployment.takes (d : Deployment) : Publication → Option (Str × Message)
  | .inbound c m =>
    if isConnector (d.applications.map StaticReplyConfig.transport_name) c = true then some (c, m)
    else none
  | _ => none

/-! ## The accounts -/

/-- What a call of a handler comes to. -/
def ToAddressRouter.ComesTo (compile : Str → Option (Str → Bool)) (config : ToAddressRouterConfig)
    (r : ToAddressRouter) (x : Except PyExc (Option Publication)) : RouterCall → Prop
  | .handle_inbound_message m =>
    x = .ok ((config.selected compile m.to_addr).map fun app => .inbound app m)
  | .handle_outbound_message m =>
    x = if isConnector r.receive_inbound_connectors m.transport_name = true then
        .ok (some (.outbound m.transport_name m))
      else .error .keyError
  | .handle_event e => ∀ p, x = .ok (some p) → ∃ app,
      isConnector r.receive_outbound_connectors app = true ∧ p = .event app e

/-- The message or the event of a call survives the wire. -/
def RouterCall.Sendable (py : Conversions) : RouterCall → Prop
  | .handle_inbound_message m => m.Sendable py
  | .handle_outbound_message m => m.Sendable py
  | .handle_event e => e.Sendable py

/-- What the router accepts can be sent on. -/
theorem ToAddressRouter.sendable_of_accepts {r : ToAddressRouter} {py : Conversions}
    {p : Publication} {call : RouterCall} (h : r.accepts p = some call) (hp : p.Sendable py) :
    call.Sendable py := by
  cases p with
  | inbound c m | event c e | outbound c m =>
    unfold accepts at h
    dsimp only at h
    split_ifs at h
    obtain rfl := Option.some.inj h
    exact hp

/-- What a call publishes survives the wire if it does. -/
theorem ToAddressRouter.sendable_of_comesTo {compile : Str → Option (Str → Bool)}
    {config : ToAddressRouterConfig} {r : ToAddressRouter} {py : Conversions}
    {x : Except PyExc (Option Publication)} {call : RouterCall} {p : Publication}
    (h : r.ComesTo compile config x call) (hcall : call.Sendable py) (hp : x = .ok (some p)) :
    p.Sendable py := by
  cases call with
  | handle_inbound_message m =>
    obtain rfl := h
    obtain ⟨app, -, rfl⟩ := Option.map_eq_some_iff.1 (Except.ok.inj hp)
    exact hcall
  | handle_outbound_message m =>
    unfold ComesTo at h
    dsimp only at h
    rw [h] at hp
    split_ifs at hp
    obtain rfl := Option.some.inj (Except.ok.inj hp)
    exact hcall
  | handle_event e =>
    obtain ⟨app, -, rfl⟩ := h p hp
    exact hcall

/-- What a handler comes to at its publishing call. -/
theorem ToAddressRouter.comesTo_handler {compile : Str → Option (Str → Bool)}
    {config : ToAddressRouterConfig} {r : ToAddressRouter} (hsetup : IsSetUp compile config r)
    (call : RouterCall) (env : ℕ → Reading) (c : MemoryMessageCache) :
    r.ComesTo compile config ((r.handler call).run env c).result call := by
  cases call with
  | handle_inbound_message m =>
    unfold handler ComesTo
    dsimp only
    rw [run_handleInboundMessage hsetup]
  | handle_outbound_message m =>
    unfold handler ComesTo
    dsimp only
    rw [run_handleOutboundMessage]
  | handle_event e =>
    unfold handler ComesTo
    dsimp only
    rw [run_handleEvent hsetup]
    intro p hp
    obtain ⟨m, -, happ⟩ := Option.bind_eq_some_iff.1 (Except.ok.inj hp)
    obtain ⟨app, hselected, rfl⟩ := Option.map_eq_some_iff.1 happ
    exact ⟨app, hsetup.connected _ _ hselected, rfl⟩

/-- The workers are connected to each other as they should: no name is that of a transport and of an
application, and the static reply applications are the router's. -/
structure Deployment.Connected (d : Deployment) : Prop where
  disjoint : ∀ name, isConnector d.router.receive_inbound_connectors name = true →
    isConnector d.router.receive_outbound_connectors name = false
  applications : ∀ c ∈ d.applications,
    isConnector d.router.receive_outbound_connectors c.transport_name = true
  reply_text : ∀ c ∈ d.applications, Wire.ValidText c.reply_text

/-- A reading of the real clocks: an identifier of hexadecimal digits, and a year of four. -/
def Reading.Genuine (r : Reading) : Prop :=
  Wire.ValidText r.uuid ∧ 1000 ≤ r.utcnow.fields.date.year

/-- What the other parties keep to: transports and applications publish on connectors of their own,
and what a document can hold. -/
def NetworkAction.Proper (d : Deployment) (py : Conversions) : NetworkAction → Prop
  | .inbound c m => isConnector d.router.receive_outbound_connectors c = false ∧ m.Sendable py
  | .event c e => isConnector d.router.receive_outbound_connectors c = false ∧ e.Sendable py
  | .outbound c m => isConnector d.router.receive_inbound_connectors c = false ∧ m.Sendable py
  | .reply _ _ _ env => (env 0).Genuine
  | _ => True

namespace Network

/-- All that was published, by the transports, the other applications, the router and the static
reply applications. -/
def posts (s : Network) : Multiset Publication :=
  (s.transports : Multiset Publication) + s.others +
    (s.router.tasks.filterMap fun task => task.phase.sent : List Publication) +
      (s.replies.filterMap ReplyTask.sent : List Publication)

/-- The publications that were taken. -/
noncomputable def taken (py : Conversions) (s : Network) : List Publication :=
  s.exchange.taken.filterMap (Publication.ofPost py)

/-- What holds of the workers at work. -/
structure Accounts (d : Deployment) (py : Conversions) (compile : Str → Option (Str → Bool))
    (config : ToAddressRouterConfig) (bound : Str → Bool) (s : Network) : Prop where
  conserves : s.exchange.Conserves bound
  published : (s.exchange.published : Multiset (Str × Json.Members)) =
    s.posts.map Publication.post
  /-- The router is called back for what it takes. -/
  calls : s.router.tasks.map RouterTask.call = (s.taken py).filterMap d.router.accepts
  comesTo : ∀ task ∈ s.router.tasks, d.router.ComesTo compile config task.phase.outcome task.call
  /-- The static reply applications are called back for what they take. -/
  answered : s.replies.map (fun task => (task.config.transport_name, task.message)) =
    (s.taken py).filterMap d.takes
  replies : ∀ task ∈ s.replies, task.config ∈ d.applications ∧ ∃ reply,
    task.reply = .outbound task.config.transport_name reply ∧ reply.Sendable py ∧
      StaticReplyApplication.Answers task.config task.message reply
  transports : ∀ p ∈ s.transports, p.Sendable py ∧
    isConnector d.router.receive_outbound_connectors p.connector = false ∧
      p.messageType ≠ str "outbound"
  others : ∀ p ∈ s.others, p.Sendable py ∧
    isConnector d.router.receive_inbound_connectors p.connector = false ∧
      p.messageType = str "outbound"

variable {d : Deployment} {py : Conversions} {compile : Str → Option (Str → Bool)}
  {config : ToAddressRouterConfig} {bound : Str → Bool} {s s' : Network}

/-- What was taken can be sent. -/
theorem mem_taken {p : Publication} (h : p ∈ s.taken py) : p.Sendable py := by
  obtain ⟨item, -, hitem⟩ := List.mem_filterMap.1 h
  exact (Publication.post_of_ofPost hitem).1

/-- Taking an item adds its publication to those taken. -/
theorem taken_take {p : Publication} (hp : p.Sendable py) (i : ℕ) :
    taken py { s with exchange := s.exchange.take i p.post } = s.taken py ++ [p] := by
  unfold taken Exchange.take
  rw [List.filterMap_append]
  simp [Publication.ofPost_post hp]

namespace Accounts

/-- Everything that was published survives the wire. -/
theorem sendable (h : Accounts d py compile config bound s) {p : Publication} (hp : p ∈ s.posts) :
    p.Sendable py := by
  unfold posts at hp
  -- By who published it: the transports, the other applications, the router, or a reply.
  rcases Multiset.mem_add.1 hp with hp | hreply
  · rcases Multiset.mem_add.1 hp with hp | hsent
    · rcases Multiset.mem_add.1 hp with htransport | hother
      · exact (h.transports p htransport).1
      · exact (h.others p hother).1
    · obtain ⟨task, htask, hsent⟩ := List.mem_filterMap.1 hsent
      -- The router made it of a publication that it took, which was sendable before.
      have hcall : task.call ∈ (s.taken py).filterMap d.router.accepts := by
        rw [← h.calls]
        exact List.mem_map_of_mem htask
      obtain ⟨q, hq, haccepts⟩ := List.mem_filterMap.1 hcall
      have houtcome : task.phase.outcome = .ok (some p) := by
        cases hphase : task.phase with
        | published q =>
          rw [hphase] at hsent
          rw [← Option.some.inj hsent]
          rfl
        | publishing q | dropped | raised e =>
          rw [hphase] at hsent
          cases hsent
      exact sendable_of_comesTo (h.comesTo task htask)
        (sendable_of_accepts haccepts (mem_taken hq)) houtcome
  · obtain ⟨task, htask, hsent⟩ := List.mem_filterMap.1 hreply
    obtain ⟨-, reply, hreply, hsendable, -⟩ := h.replies task htask
    unfold ReplyTask.sent at hsent
    split_ifs at hsent
    rw [← Option.some.inj hsent, hreply]
    exact hsendable

/-- What waits is the item of a publication. -/
theorem exists_post (h : Accounts d py compile config bound s) {i : ℕ} {item : Str × Json.Members}
    (hi : s.exchange.waiting[i]? = some item) :
    ∃ p : Publication, p.Sendable py ∧ p.post = item := by
  have hwaiting : item ∈ (s.exchange.waiting : Multiset (Str × Json.Members)) + s.exchange.taken :=
    Multiset.mem_add.2 (.inl (List.mem_of_getElem? hi))
  rw [h.conserves.balance] at hwaiting
  have hpublished := Multiset.mem_of_le h.conserves.accepted_le hwaiting
  rw [h.published] at hpublished
  obtain ⟨p, hp, rfl⟩ := Multiset.mem_map.1 hpublished
  exact ⟨p, h.sendable hp, rfl⟩

/-- Everything that was published is found in the exchange. -/
theorem published_filterMap (h : Accounts d py compile config bound s) :
    (s.exchange.published : Multiset (Str × Json.Members)).filterMap (Publication.ofPost py) =
      s.posts := by
  rw [h.published, Multiset.filterMap_map]
  conv_rhs => rw [← Multiset.filterMap_some s.posts]
  refine IsFrom.filterMap_congr fun p hp => ?_
  exact Publication.ofPost_post (h.sendable hp)

/-- Only what was published is taken, and that once. -/
theorem taken_le (h : Accounts d py compile config bound s) :
    (s.taken py : Multiset Publication) ≤ s.posts := by
  rw [← h.published_filterMap]
  exact Multiset.filterMap_le_filterMap _ h.conserves.taken_le

/-- When nothing waits, everything was taken that went to a queue which was there from the start. -/
theorem taken_filterMap {α : Type} (h : Accounts d py compile config bound s)
    (hwaiting : s.exchange.waiting = []) {f : Publication → Option α}
    (hf : ∀ p, (f p).isSome → bound p.post.1 = true) :
    (s.taken py : Multiset Publication).filterMap f = s.posts.filterMap f := by
  classical
  -- Only the items that `f` counts matter, and of these nothing was left behind.
  have hall : ∀ items : Multiset (Str × Json.Members),
      (items.filterMap (Publication.ofPost py)).filterMap f =
        ((items.filter fun item => ((Publication.ofPost py item).bind f).isSome).filterMap
          (Publication.ofPost py)).filterMap f := by
    intro items
    rw [Multiset.filterMap_filterMap, Multiset.filterMap_filterMap, Multiset.filterMap_filter]
    refine IsFrom.filterMap_congr fun item _ => ?_
    cases hitem : (Publication.ofPost py item).bind f with
    | none => simp
    | some a => simp
  have htaken : (s.taken py : Multiset Publication) =
      (s.exchange.taken : Multiset (Str × Json.Members)).filterMap (Publication.ofPost py) := rfl
  rw [htaken, ← h.published_filterMap, hall, hall (s.exchange.published : Multiset _),
    h.conserves.taken_eq hwaiting]
  -- A counted item is of a queue that was there from the start.
  intro item hitem
  obtain ⟨a, ha⟩ := Option.isSome_iff_exists.1 hitem
  obtain ⟨p, hp, hfp⟩ := Option.bind_eq_some_iff.1 ha
  rw [← (Publication.post_of_ofPost hp).2]
  exact hf p (by rw [hfp]; rfl)

/-- An account after a publication, of which only the collection of all publications is asked. -/
theorem published_publish {e : Exchange Str Json.Members} {posts : Multiset Publication}
    (h : (e.published : Multiset (Str × Json.Members)) = posts.map Publication.post)
    (p : Publication) :
    ((e.publish p.post).published : Multiset (Str × Json.Members)) =
      (posts + {p}).map Publication.post := by
  rw [Exchange.published_publish, ← Multiset.coe_add, h, Multiset.map_add, Multiset.map_singleton]
  rfl

/-- A transport publishes. -/
theorem transport (h : Accounts d py compile config bound s) {p : Publication}
    (hp : p.Sendable py)
    (hconnector : isConnector d.router.receive_outbound_connectors p.connector = false)
    (htype : p.messageType ≠ str "outbound") :
    Accounts d py compile config bound { s with
      exchange := s.exchange.publish p.post
      transports := s.transports ++ [p] } := by
  -- Publishing takes nothing from a queue.
  have htaken : taken py { s with
      exchange := s.exchange.publish p.post
      transports := s.transports ++ [p] } = s.taken py := by
    unfold taken
    rw [Exchange.taken_publish]
  -- The publication is one more of the transports'.
  have hposts : posts { s with
      exchange := s.exchange.publish p.post
      transports := s.transports ++ [p] } = s.posts + {p} := by
    unfold posts
    rw [← Multiset.coe_add, Multiset.coe_singleton]
    abel
  refine ⟨h.conserves.publish _, ?_, ?_, h.comesTo, ?_, h.replies, ?_, h.others⟩
  · rw [hposts]
    exact published_publish h.published p
  · rw [htaken]
    exact h.calls
  · rw [htaken]
    exact h.answered
  · intro q hq
    rcases List.mem_append.1 hq with hold | hnew
    · exact h.transports q hold
    · rw [List.mem_singleton.1 hnew]
      exact ⟨hp, hconnector, htype⟩

/-- Another application publishes. -/
theorem other (h : Accounts d py compile config bound s) {c : Str} {m : Message}
    (hm : m.Sendable py) (hconnector : isConnector d.router.receive_inbound_connectors c = false) :
    Accounts d py compile config bound { s with
      exchange := s.exchange.publish (Publication.outbound c m).post
      others := s.others ++ [.outbound c m] } := by
  -- Publishing takes nothing from a queue.
  have htaken : taken py { s with
      exchange := s.exchange.publish (Publication.outbound c m).post
      others := s.others ++ [.outbound c m] } = s.taken py := by
    unfold taken
    rw [Exchange.taken_publish]
  -- The publication is one more of the other applications'.
  have hposts : posts { s with
      exchange := s.exchange.publish (Publication.outbound c m).post
      others := s.others ++ [.outbound c m] } = s.posts + {.outbound c m} := by
    unfold posts
    rw [← Multiset.coe_add, Multiset.coe_singleton]
    abel
  refine ⟨h.conserves.publish _, ?_, ?_, h.comesTo, ?_, h.replies, h.transports, ?_⟩
  · rw [hposts]
    exact published_publish h.published _
  · rw [htaken]
    exact h.calls
  · rw [htaken]
    exact h.answered
  · intro q hq
    rcases List.mem_append.1 hq with hold | hnew
    · exact h.others q hold
    · rw [List.mem_singleton.1 hnew]
      exact ⟨hm, hconnector, rfl⟩

/-- The publishing call of a task of the router returns. -/
theorem routed (h : Accounts d py compile config bound s) {k : ℕ}
    (hstep : Network.routed d s k = some s') : Accounts d py compile config bound s' := by
  unfold Network.routed at hstep
  split at hstep
  · rename_i c now p htask
    obtain ⟨router, hrouter, rfl⟩ := Option.map_eq_some_iff.1 hstep
    obtain ⟨c', now', p', htask', rfl, -⟩ := publish_cases hrouter
    obtain ⟨rfl, rfl, hphase⟩ := RouterTask.mk.inj (Option.some.inj (htask.symm.trans htask'))
    obtain rfl := RouterPhase.publishing.inj hphase
    -- Publishing takes nothing from a queue.
    have htaken : taken py { s with
        exchange := s.exchange.publish p.post
        router := { s.router with
          tasks := s.router.tasks.set k ⟨c, now, .published p⟩
          published := s.router.published ++ [(k, p)] } } = s.taken py := by
      unfold taken
      rw [Exchange.taken_publish]
    -- The task gives up one publication, and the exchange has it from now on.
    have hsent : ((s.router.tasks.set k ⟨c, now, .published p⟩).filterMap
        fun task => task.phase.sent).Perm
          (p :: s.router.tasks.filterMap fun task => task.phase.sent) :=
      Slots.filterMap_set_take (fun task : RouterTask => task.phase.sent) htask _ rfl rfl
    refine ⟨h.conserves.publish _, ?_, ?_, fun task hmem => ?_, ?_, h.replies, h.transports,
      h.others⟩
    · have hposts := published_publish h.published p
      unfold posts at hposts ⊢
      dsimp only at hposts ⊢
      rw [hposts, Multiset.coe_eq_coe.2 hsent, ← Multiset.cons_coe, ← Multiset.singleton_add]
      congr 1
      abel
    · rw [htaken, ← h.calls]
      exact Slots.map_set_keep RouterTask.call htask rfl
    · rcases List.mem_or_eq_of_mem_set hmem with hold | rfl
      · exact h.comesTo task hold
      · exact h.comesTo ⟨c, now, .publishing p⟩ (List.mem_of_getElem? htask)
    · rw [htaken]
      exact h.answered
  · cases hstep

/-- The publishing call of a static reply application returns. -/
theorem replied (h : Accounts d py compile config bound s) {k : ℕ}
    (hstep : Network.replied s k = some s') : Accounts d py compile config bound s' := by
  unfold Network.replied at hstep
  split at hstep
  · rename_i c m p htask
    obtain rfl := Option.some.inj hstep
    -- Publishing takes nothing from a queue.
    have htaken : taken py { s with
        exchange := s.exchange.publish p.post
        replies := s.replies.set k ⟨c, m, p, true⟩ } = s.taken py := by
      unfold taken
      rw [Exchange.taken_publish]
    -- The task gives up one reply, and the exchange has it from now on.
    have hsent : ((s.replies.set k ⟨c, m, p, true⟩).filterMap ReplyTask.sent).Perm
        (p :: s.replies.filterMap ReplyTask.sent) :=
      Slots.filterMap_set_take ReplyTask.sent htask _ rfl rfl
    refine ⟨h.conserves.publish _, ?_, ?_, h.comesTo, ?_, fun task hmem => ?_, h.transports,
      h.others⟩
    · have hposts := published_publish h.published p
      unfold posts at hposts ⊢
      dsimp only at hposts ⊢
      rw [hposts, Multiset.coe_eq_coe.2 hsent, ← Multiset.cons_coe, ← Multiset.singleton_add]
      congr 1
      abel
    · rw [htaken]
      exact h.calls
    · rw [htaken, ← h.answered]
      exact Slots.map_set_keep (fun task : ReplyTask => (task.config.transport_name, task.message))
        htask rfl
    · rcases List.mem_or_eq_of_mem_set hmem with hold | rfl
      · exact h.replies task hold
      · exact h.replies ⟨c, m, p, false⟩ (List.mem_of_getElem? htask)
  · cases hstep

/-- An item that neither the router nor a static reply application gets. -/
theorem consumed (h : Accounts d py compile config bound s) {i : ℕ} {p : Publication}
    (hi : s.exchange.waiting[i]? = some p.post) (hp : p.Sendable py)
    (haccepts : d.router.accepts p = none) (htakes : d.takes p = none) :
    Accounts d py compile config bound { s with exchange := s.exchange.take i p.post } := by
  refine ⟨h.conserves.take hi, h.published, ?_, h.comesTo, ?_, h.replies, h.transports, h.others⟩
  · rw [taken_take hp, List.filterMap_append, ← h.calls]
    simp [haccepts]
  · rw [taken_take hp, List.filterMap_append, ← h.answered]
    simp [htakes]

/-- What the router gets is not for a static reply application. -/
theorem takes_of_accepts (hd : d.Connected) {p : Publication} {call : RouterCall}
    (h : d.router.accepts p = some call) : d.takes p = none := by
  cases p with
  | event c e | outbound c m => rfl
  | inbound c m =>
    unfold accepts at h
    dsimp only at h
    split_ifs at h with hc
    unfold Deployment.takes
    dsimp only
    rw [if_neg]
    intro happ
    obtain ⟨a, ha, rfl⟩ := List.mem_map.1 (isConnector_iff.1 happ)
    have hdisjoint := hd.disjoint _ hc
    rw [hd.applications a ha] at hdisjoint
    cases hdisjoint

/-- What is published on a connector of a static reply application is not for the router, unless the
application publishes it. -/
theorem accepts_of_application (hd : d.Connected) {c : StaticReplyConfig} (hc : c ∈ d.applications)
    {p : Publication} (hconnector : p.connector = c.transport_name)
    (htype : p.messageType ≠ str "outbound") : d.router.accepts p = none := by
  have hnot : isConnector d.router.receive_inbound_connectors c.transport_name = false := by
    rw [Bool.eq_false_iff]
    intro hin
    have hdisjoint := hd.disjoint _ hin
    rw [hd.applications c hc] at hdisjoint
    cases hdisjoint
  cases p with
  | outbound c' m => exact absurd rfl htype
  | inbound c' m | event c' e =>
    obtain rfl : c' = c.transport_name := hconnector
    unfold accepts
    dsimp only
    rw [hnot]
    rfl

/-- The router gets an item. -/
theorem route (hd : d.Connected) (hsetup : IsSetUp compile config d.router)
    (h : Accounts d py compile config bound s) {i : ℕ} {item : Str × Json.Members}
    (hi : s.exchange.waiting[i]? = some item) {reading : Reading} {env : ℕ → Reading}
    (hstep : Network.route d py s i reading env item = some s') :
    Accounts d py compile config bound s' := by
  obtain ⟨p, hp, rfl⟩ := h.exists_post hi
  unfold Network.route at hstep
  rw [d.router.consume_post hp] at hstep
  cases haccepts : d.router.accepts p with
  | none =>
    rw [haccepts] at hstep
    cases hstep
  | some call =>
    rw [haccepts] at hstep
    obtain ⟨router, hrouter, rfl⟩ := Option.map_eq_some_iff.1 hstep
    obtain rfl := Option.some.inj hrouter
    have htakes := takes_of_accepts hd haccepts
    have htaken : ∀ router : RouterState,
        taken py { s with exchange := s.exchange.take i p.post, router := router } =
          s.taken py ++ [p] := fun _ => taken_take hp i
    refine ⟨h.conserves.take hi, ?_, ?_, fun task htask => ?_, ?_, h.replies, h.transports,
      h.others⟩
    · -- The handler has not published yet.
      have hposts := h.published
      unfold posts at hposts ⊢
      unfold called
      dsimp only at hposts ⊢
      rw [List.filterMap_append]
      simpa [Exchange.take] using hposts
    · rw [htaken, List.filterMap_append, ← h.calls]
      unfold called
      simp [haccepts]
    · unfold called at htask
      rcases List.mem_append.1 htask with hold | hnew
      · exact h.comesTo task hold
      · rw [List.mem_singleton.1 hnew, RouterPhase.outcome_reached]
        exact comesTo_handler hsetup call env s.router.message_cache
    · rw [htaken, List.filterMap_append, ← h.answered]
      simp [htakes]

/-- A reply survives the wire as the message did. -/
theorem sendable_replyTo {c : StaticReplyConfig} {m : Message} {r : Reading} (hm : m.Sendable py)
    (htext : Wire.ValidText c.reply_text) (hr : r.Genuine) :
    (StaticReplyApplication.replyTo c m r).Sendable py where
  to_addr := hm.from_addr
  from_addr := hm.to_addr
  transport_name := hm.transport_name
  message_version := Wire.validText_of_ascii (s := str "20110921") (by decide)
  message_type := Wire.validText_of_ascii (s := str "user_message") (by decide)
  timestamp := hr.2
  routing_metadata := .object List.nodup_nil (fun _ hx => absurd hx List.not_mem_nil)
    fun _ hx => absurd hx List.not_mem_nil
  helper_metadata := .object List.nodup_nil (fun _ hx => absurd hx List.not_mem_nil)
    fun _ hx => absurd hx List.not_mem_nil
  message_id := hr.1
  in_reply_to := fun _ hs => Option.some.inj hs ▸ hm.message_id
  provider := hm.provider
  content := .inr ⟨c.reply_text, rfl, htext⟩
  transport_metadata := hm.transport_metadata
  group := hm.group

/-- A static reply application gets an item. -/
theorem reply (hd : d.Connected) (h : Accounts d py compile config bound s) {c : StaticReplyConfig}
    (hc : c ∈ d.applications) {i : ℕ} {item : Str × Json.Members}
    (hi : s.exchange.waiting[i]? = some item) {reading : Reading} {env : ℕ → Reading}
    (hgenuine : (env 0).Genuine) (hstep : Network.reply py s c i reading env item = some s') :
    Accounts d py compile config bound s' := by
  obtain ⟨p, hp, rfl⟩ := h.exists_post hi
  unfold Network.reply at hstep
  split_ifs at hstep with hin hev
  · -- It is an inbound message, and has its reply.
    obtain ⟨hname, htype⟩ := (routingKey_inj (by decide) p.messageType_no_dot).1 hin
    cases p with
    | outbound c' m => exact absurd htype Publication.messageTypes_ne.1
    | event c' e => exact absurd htype Publication.messageTypes_ne.2.2
    | inbound c' m =>
      obtain rfl : c.transport_name = c' := hname
      have hwire : overWire py (Message.deserialise py reading)
          (Publication.inbound c.transport_name m).post.2 = some m := overWire_message hp reading
      rw [hwire] at hstep
      dsimp only at hstep
      rw [StaticReplyApplication.run_handleInboundMessage] at hstep
      obtain rfl := Option.some.inj hstep
      have hname : isConnector (d.applications.map StaticReplyConfig.transport_name)
          c.transport_name = true := isConnector_iff.2 (List.mem_map_of_mem hc)
      have htakes : d.takes (.inbound c.transport_name m) = some (c.transport_name, m) :=
        if_pos hname
      have haccepts := accepts_of_application hd hc (p := .inbound c.transport_name m) rfl
        Publication.messageTypes_ne.1
      have htaken : ∀ replies : List ReplyTask,
          taken py { s with
            exchange := s.exchange.take i (Publication.inbound c.transport_name m).post
            replies := replies } = s.taken py ++ [.inbound c.transport_name m] :=
        fun _ => taken_take hp i
      refine ⟨h.conserves.take hi, ?_, ?_, h.comesTo, ?_, fun task htask => ?_, h.transports,
        h.others⟩
      · have hposts := h.published
        unfold posts at hposts ⊢
        dsimp only at hposts ⊢
        rw [List.filterMap_append]
        simpa [Exchange.take, ReplyTask.sent] using hposts
      · rw [htaken, List.filterMap_append, ← h.calls]
        simp [haccepts]
      · rw [htaken, List.filterMap_append, ← h.answered]
        simp [htakes]
      · rcases List.mem_append.1 htask with hold | hnew
        · exact h.replies task hold
        · rw [List.mem_singleton.1 hnew]
          exact ⟨hc, _, rfl, sendable_replyTo hp (hd.reply_text c hc) hgenuine,
            StaticReplyApplication.answers_replyTo c m (env 0)⟩
  · -- It is an event, with which the application does nothing.
    obtain ⟨hname, htype⟩ := (routingKey_inj (by decide) p.messageType_no_dot).1 hev
    obtain rfl := Option.some.inj hstep
    have htype' : p.messageType ≠ str "outbound" := by
      rw [← htype]
      exact Publication.messageTypes_ne.2.1
    refine h.consumed hi hp (accepts_of_application hd hc hname.symm htype') ?_
    cases p with
    | event c' e | outbound c' m => rfl
    | inbound c' m => exact absurd htype.symm Publication.messageTypes_ne.2.2

/-- What is in a queue of neither is for neither. -/
theorem none_of_hasQueue {p : Publication} (h : hasQueue d p.post.1 = false) :
    d.router.accepts p = none ∧ d.takes p = none := by
  have hin : ofChar '.' ∉ str "inbound" := by decide
  have hout : ofChar '.' ∉ str "outbound" := by decide
  have hev : ofChar '.' ∉ str "event" := by decide
  unfold hasQueue ToAddressRouter.hasQueue Publication.post at h
  dsimp only at h
  rw [isQueue_routingKey hin p.messageType_no_dot, isQueue_routingKey hev p.messageType_no_dot,
    isQueue_routingKey hout p.messageType_no_dot, isQueue_routingKey hin p.messageType_no_dot,
    isQueue_routingKey hev p.messageType_no_dot] at h
  -- The queue of the type is the one that is not there.
  cases p with
  | inbound c m =>
    simp only [Publication.messageType, Publication.connector, decide_true, Bool.and_true,
      Bool.or_eq_false_iff] at h
    obtain ⟨⟨⟨⟨hrouter, -⟩, -⟩, happ⟩, -⟩ := h
    unfold accepts Deployment.takes
    dsimp only
    rw [hrouter, happ]
    exact ⟨rfl, rfl⟩
  | event c e =>
    simp only [Publication.messageType, Publication.connector, decide_true, Bool.and_true,
      Bool.or_eq_false_iff] at h
    obtain ⟨⟨⟨⟨-, hrouter⟩, -⟩, -⟩, -⟩ := h
    unfold accepts
    dsimp only
    rw [hrouter]
    exact ⟨rfl, rfl⟩
  | outbound c m =>
    simp only [Publication.messageType, Publication.connector, decide_true, Bool.and_true,
      Bool.or_eq_false_iff] at h
    obtain ⟨⟨⟨-, hrouter⟩, -⟩, -⟩ := h
    unfold accepts
    dsimp only
    rw [hrouter]
    exact ⟨rfl, rfl⟩

/-- Every step keeps the accounts. -/
theorem step (hd : d.Connected) (hsetup : IsSetUp compile config d.router)
    (h : Accounts d py compile config bound s) {action : NetworkAction}
    (hproper : action.Proper d py) (hstep : Network.step d py s action = some s') :
    Accounts d py compile config bound s' := by
  cases action with
  | bind key =>
    obtain rfl := Option.some.inj hstep
    exact ⟨h.conserves.bind key, h.published, h.calls, h.comesTo, h.answered, h.replies,
      h.transports, h.others⟩
  | inbound c m =>
    obtain rfl := Option.some.inj hstep
    exact h.transport (p := .inbound c m) hproper.2 hproper.1 Publication.messageTypes_ne.1
  | event c e =>
    obtain rfl := Option.some.inj hstep
    exact h.transport (p := .event c e) hproper.2 hproper.1 Publication.messageTypes_ne.2.1
  | outbound c m =>
    obtain rfl := Option.some.inj hstep
    exact h.other hproper.2 hproper.1
  | route i reading env =>
    obtain ⟨item, hi, hstep⟩ := Option.bind_eq_some_iff.1 hstep
    exact route hd hsetup h hi hstep
  | routed k => exact h.routed hstep
  | reply app i reading env =>
    obtain ⟨c, hc, hstep⟩ := Option.bind_eq_some_iff.1 hstep
    obtain ⟨item, hi, hstep⟩ := Option.bind_eq_some_iff.1 hstep
    exact reply hd h (List.mem_of_getElem? hc) hi hproper hstep
  | replied k => exact h.replied hstep
  | consume i =>
    -- No party of the deployment has this queue, so the item is taken for none.
    obtain ⟨item, hi, hstep⟩ := Option.bind_eq_some_iff.1 hstep
    obtain ⟨p, hp, rfl⟩ := h.exists_post hi
    split_ifs at hstep with hqueue
    obtain rfl := Option.some.inj hstep
    obtain ⟨haccepts, htakes⟩ := none_of_hasQueue (Bool.eq_false_iff.2 hqueue)
    exact h.consumed hi hp haccepts htakes

/-- In a new network there is nothing to account for. -/
theorem new (d : Deployment) (py : Conversions) (compile : Str → Option (Str → Bool))
    (config : ToAddressRouterConfig) (bound : Str → Bool) (now : ℚ) :
    Accounts d py compile config bound (Network.new bound config now) :=
  ⟨Exchange.Conserves.new bound, rfl, rfl, fun _ h => absurd h List.not_mem_nil, rfl,
    fun _ h => absurd h List.not_mem_nil, fun _ h => absurd h List.not_mem_nil,
    fun _ h => absurd h List.not_mem_nil⟩

/-- So does every run of proper steps. -/
theorem run (hd : d.Connected) (hsetup : IsSetUp compile config d.router) {now : ℚ}
    {actions : List NetworkAction} (hproper : ∀ a ∈ actions, a.Proper d py)
    (hrun : Machine.run (Network.step d py) (Network.new bound config now) actions = some s) :
    Accounts d py compile config bound s := by
  have hmeets : Machine.Meets (Network.step d py) (fun _ a => a.Proper d py)
      (Network.new bound config now) actions := Machine.meets_of_forall _ hproper
  exact Machine.run_induction _ (fun _ _ _ hinv hok hstep => hinv.step hd hsetup hok hstep)
    (new d py compile config bound now) hmeets hrun

end Accounts

end Network

end Vumi2
