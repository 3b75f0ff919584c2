import Vumi2.TransportEvents
import Vumi2.TurnChannelsApi.Worker

/-!
# Which events reach Turn

`handle_event` looks the outbound message up by the `sent_message_id` of the event. A message that
`http_send_message` published is in the cache under its own identifier (`sent_of_run`), and stays
there until it expires, whatever else the cache is used for (`keeps_hasOutbound_history`). So an
event that names its message as sent finds it; a delivery report names none, and is dropped
(`postsStatus_iff`).
-/

namespace Vumi2

open Effect Eff Text

namespace TurnChannelsApi

variable (lib : Library) (config : TurnChannelsApiConfig)

/-! ## What a request leaves behind -/

/-- The message is the only one that was published, and it is in the cache, since a reading of the
clock that the request took. -/
structure Sent (env : ℕ → Reading) (w w' : TurnChannelsApi) (k : ℕ) (m : Message) : Prop where
  published : w'.published = w.published ++ [m]
  timeout : w'.message_cache.outbounds.timeout = w.message_cache.outbounds.timeout
  cached : ∃ i < k, w'.message_cache.outbounds.data.get? m.message_id = some ((env i).time, m)

variable {lib config} {env : ℕ → Reading} {w w' : TurnChannelsApi} {k : ℕ} {reply : Json}

/-- Making the message takes one reading and leaves the worker as it was. -/
theorem run_buildOutbound {tom : TurnOutboundMessage} {inbound : Option Message} {m : Message}
    (h : (buildOutbound lib config tom inbound).run env w = ⟨.ok m, k, w'⟩) : k = 1 ∧ w' = w := by
  unfold buildOutbound at h
  rw [run_read_bind] at h
  cases inbound with
  | none =>
    rw [run_ofExcept] at h
    simp only [Outcome.mk.injEq] at h
    exact ⟨h.2.1.symm, h.2.2.symm⟩
  | some m' =>
    rw [run_ofExcept] at h
    simp only [Outcome.mk.injEq] at h
    exact ⟨h.2.1.symm, h.2.2.symm⟩

/-- A request that is answered has sent one message, the one it answers with. -/
theorem sent_of_run_sendOutbound {tom : TurnOutboundMessage} {inbound : Option Message}
    (h : (sendOutbound lib config tom inbound).run env w = ⟨.ok reply, k, w'⟩) :
    ∃ m, Sent env w w' k m ∧ reply = turnOutboundFromMsg m := by
  have hsplit := h
  unfold sendOutbound at hsplit
  obtain ⟨m, k₁, k₂, w₁, hbuild, -, -⟩ := of_run_bind_ok hsplit
  obtain ⟨rfl, rfl⟩ := run_buildOutbound hbuild
  have hrun := run_sendOutbound lib config hbuild
  rw [hrun] at h
  simp only [Outcome.mk.injEq, Except.ok.injEq] at h
  obtain ⟨hreply, hk, hw⟩ := h
  have hstore := TimeoutDict.run_setitem m.message_id m (later env 1) w₁.message_cache.outbounds
  have hcache : w'.message_cache.outbounds =
      ((TimeoutDict.setitem m.message_id m).run (later env 1)
        w₁.message_cache.outbounds).state := by
    rw [← hw]
    rfl
  rw [hstore] at hcache
  refine ⟨m, ⟨by rw [← hw], by rw [hcache], 2, by omega, ?_⟩, hreply.symm⟩
  rw [hcache]
  exact Dict.get?_set_self _ _ _

/-- Looking up the inbound message publishes nothing and keeps the lifetime. -/
theorem findInbound_keeps (msg_dict : Json.Members) (timeout : ℚ) (published : List Message) :
    Keeps (fun _ => True)
      (fun w : TurnChannelsApi =>
        w.message_cache.outbounds.timeout = timeout ∧ w.published = published)
      (findInbound msg_dict) := by
  unfold findInbound
  split_ifs
  · refine keeps_bind (keeps_ofExcept _) fun to_addr => ?_
    refine keeps_bind ?_ fun _ => keeps_pure _
    -- The look-up touches the inbound messages only.
    have hcache : Keeps (fun _ => True)
        (fun c : MemoryMessageCache => c.outbounds.timeout = timeout)
        (MemoryMessageCache.fetchLastInboundByFromAddress to_addr) :=
      keeps_bind (keeps_on_frame fun _ _ h => h) fun _ => keeps_pure _
    intro env w hok hw
    exact ⟨hcache env w.message_cache hok hw.1, hw.2⟩
  · exact keeps_pure _

/-- A request that is answered sent one message. -/
theorem sent_of_run {req : SendRequest}
    (h : (httpSendMessage lib config req).run env w = ⟨.ok reply, k, w'⟩) :
    ∃ m, Sent env w w' k m ∧ reply = turnOutboundFromMsg m := by
  unfold httpSendMessage at h
  obtain ⟨body, k₁, j₁, w₁, hbody, h, hk⟩ := of_run_bind_ok h
  rw [run_ofExcept] at hbody
  obtain ⟨msg_dict, k₂, j₂, w₂, hmembers, h, hj₁⟩ := of_run_bind_ok h
  rw [run_ofExcept] at hmembers
  obtain ⟨found, k₃, j₃, w₃, hfound, h, hj₂⟩ := of_run_bind_ok h
  unfold sendFound at h
  obtain ⟨tom, k₄, j₄, w₄, htom, h, hj₃⟩ := of_run_bind_ok h
  rw [run_ofExcept] at htom
  simp only [Outcome.mk.injEq] at hbody hmembers htom
  obtain ⟨-, rfl, rfl⟩ := hbody
  obtain ⟨-, rfl, rfl⟩ := hmembers
  obtain ⟨-, rfl, rfl⟩ := htom
  -- Only `send_outbound` publishes, or stores a message.
  have hkeep := findInbound_keeps msg_dict w.message_cache.outbounds.timeout w.published
    (later (later env 0) 0) w (fun _ _ => trivial) ⟨rfl, rfl⟩
  rw [hfound] at hkeep
  cases hlocal : found.2 with
  | none =>
    rw [hlocal] at h
    cases congrArg Outcome.result h
  | some inbound =>
    rw [hlocal] at h
    obtain ⟨m, hsent, hreply⟩ := sent_of_run_sendOutbound h
    obtain ⟨i, hi, hcached⟩ := hsent.cached
    refine ⟨m, ⟨?_, ?_, 0 + (0 + (k₃ + (0 + i))), by omega, ?_⟩, hreply⟩
    · rw [hsent.published, hkeep.2]
    · rw [hsent.timeout, hkeep.1]
    · simpa only [later_apply] using hcached

/-! ## What an event does -/

variable (config) in
/-- A `POST` to Turn that is a status for a message. -/
structure IsStatusFor (id : Str) (p : TurnPost) : Prop where
  url : p.url = config.turnUrl (str "/statuses")
  authorization : p.authorization = str "Bearer " ++ config.auth_token
  json : ∃ fields : Json.Members, p.json = .object [(str "status", .object fields)] ∧
    fields.get? (str "id") = some (.string id)

variable (config) in
/-- One status for a message is posted, and nothing else. -/
def PostsStatus (w : TurnChannelsApi) (id : Str) (o : Outcome PyExc TurnChannelsApi Unit) : Prop :=
  o.result = .ok () ∧ ∃ p, o.state.posts = w.posts ++ [p] ∧ IsStatusFor config id p

/-- The request made of an event is the status request of its message. -/
theorem isStatusFor_turnEventFromEv (e : Event) (outbound : Message) :
    IsStatusFor config e.user_message_id
      ⟨config.turnUrl (str "/statuses"), str "Bearer " ++ config.auth_token,
        turnEventFromEv e outbound⟩ where
  url := rfl
  authorization := rfl
  json := ⟨_, rfl, rfl⟩

/-- What `fetch_outbound` does to the worker. -/
theorem run_fetchOutbound (env : ℕ → Reading) (w : TurnChannelsApi) (message_id : Option Str) :
    ∃ outbound j c, (onMessageCache (MemoryMessageCache.fetchOutbound message_id)).run env w =
        ⟨.ok outbound, j, { w with message_cache := c }⟩ ∧
      outbound = message_id.bind fun id =>
        ((w.message_cache.outbounds.expire (env 0).time).data.get? id).map Prod.snd := by
  cases message_id with
  | none =>
    -- Without an id the look-up only drops what has expired.
    refine ⟨none, 1, { w.message_cache with
      outbounds := w.message_cache.outbounds.expire (env 0).time }, ?_, rfl⟩
    unfold onMessageCache MemoryMessageCache.fetchOutbound MemoryMessageCache.onOutbounds
    rw [run_on, run_on]
    dsimp only
    rw [run_bind_ok (TimeoutDict.run_removeExpired env w.message_cache.outbounds)]
    rfl
  | some id =>
    refine ⟨_, 1, { w.message_cache with
      outbounds := w.message_cache.outbounds.expire (env 0).time }, ?_, rfl⟩
    unfold onMessageCache MemoryMessageCache.fetchOutbound MemoryMessageCache.onOutbounds
    rw [run_on, run_on]
    dsimp only
    rw [TimeoutDict.run_getitem]
    rfl

/-- An event whose message is found is passed on. -/
theorem postsStatus_of_found {e : Event} {outbound : Message} {id : Str}
    (hsent : e.sent_message_id = some id)
    (hfound : ((w.message_cache.outbounds.expire (env 0).time).data.get? id).map Prod.snd =
      some outbound) :
    PostsStatus config w e.user_message_id ((handleEvent config e).run env w) := by
  obtain ⟨found, j, c, hrun, hfound'⟩ := run_fetchOutbound env w e.sent_message_id
  rw [hsent, Option.bind_some, hfound] at hfound'
  rw [hfound'] at hrun
  have hpost : (handleEvent config e).run env w =
      ⟨.ok (), j, { w with message_cache := c, posts := w.posts ++
        [⟨config.turnUrl (str "/statuses"), str "Bearer " ++ config.auth_token,
          turnEventFromEv e outbound⟩] }⟩ := by
    unfold handleEvent
    rw [run_bind_ok hrun]
    rfl
  rw [hpost]
  exact ⟨rfl, _, rfl, isStatusFor_turnEventFromEv e outbound⟩

/-- An event that names no message as sent is dropped. -/
theorem not_postsStatus_of_none {e : Event} {id : Str} (hsent : e.sent_message_id = none) :
    ¬ PostsStatus config w id ((handleEvent config e).run env w) := by
  obtain ⟨found, j, c, hrun, hfound⟩ := run_fetchOutbound env w e.sent_message_id
  rw [hsent, Option.bind_none] at hfound
  rw [hfound] at hrun
  have hdrop : (handleEvent config e).run env w = ⟨.ok (), j, { w with message_cache := c }⟩ := by
    unfold handleEvent
    rw [run_bind_ok hrun]
    rfl
  rw [hdrop]
  rintro ⟨-, p, hposts, -⟩
  have hlen := congrArg List.length hposts
  rw [List.length_append, List.length_singleton] at hlen
  exact absurd hlen (Nat.ne_of_lt (Nat.lt_succ_self _))

/-- A message that was sent can be looked up until it expires, after any uses of the cache. -/
theorem found_of_sent (hclock : Clocked env) {m : Message} (hsent : Sent env w w' k m)
    {uses : List CacheUse} {j : ℕ} {c : MemoryMessageCache}
    (huses : (CacheUse.history uses).run (later env k) w'.message_cache = ⟨.ok (), j, c⟩)
    (hfresh : w'.message_cache.outbounds.Fresh (env (k + j)).time m.message_id m) :
    ∃ outbound, ((c.outbounds.expire (env (k + j)).time).data.get? m.message_id).map Prod.snd =
      some outbound := by
  obtain ⟨t, ht, hage⟩ := hfresh
  obtain ⟨i, hi, hcached⟩ := hsent.cached
  -- The entry is that of the storing, since the message was cached then.
  have htime : t = (env i).time := by
    rw [ht] at hcached
    exact congrArg Prod.fst (Option.some.inj hcached)
  -- The clock is between the storing and the event at each reading in between.
  have hduring : ∀ l ≤ j, TimeoutDict.During t w'.message_cache.outbounds.timeout
      (later env k l) := by
    intro l hl
    have h1 : (env i).time ≤ (env (k + l)).time := hclock (by omega)
    have h2 : (env (k + l)).time ≤ (env (k + j)).time := hclock (by omega)
    refine ⟨by rw [htime]; exact h1, ?_⟩
    show TimeoutDict.age (env (k + l)).time t ≤ _
    exact (TimeoutDict.age_mono h2 le_rfl).trans hage
  have hhas : CacheUse.HasOutbound m.message_id t w'.message_cache.outbounds.timeout
      w'.message_cache :=
    ⟨t, m, le_refl t, rfl, rfl, ht⟩
  -- A later use may set the identifier again, but not remove it.
  have hkept := CacheUse.keeps_hasOutbound_history uses (later env k) w'.message_cache
    (fun l hl => hduring l (by rw [huses] at hl; exact Nat.le_of_lt hl)) hhas
  rw [huses] at hkept
  obtain ⟨t', outbound, ht', -, htimeout, hget⟩ := hkept
  refine ⟨outbound, ?_⟩
  have hfresh : c.outbounds.Fresh (env (k + j)).time m.message_id outbound := by
    refine ⟨t', hget, ?_⟩
    rw [htimeout]
    exact (TimeoutDict.age_mono le_rfl ht').trans hage
  rw [TimeoutDict.get?_expire_of_fresh hfresh, hget]
  rfl

/-- After a request that sent a message, any uses of the cache, and as long as the message is not
too old there: an event that a transport emits about it is posted to Turn as one status exactly if
it is no delivery report. -/
theorem postsStatus_iff (hclock : Clocked env) {req : SendRequest}
    (hrun : (httpSendMessage lib config req).run env w = ⟨.ok reply, k, w'⟩) {m : Message}
    (hm : w'.published = w.published ++ [m]) {uses : List CacheUse} {j : ℕ} {w'' : TurnChannelsApi}
    (huses : (CacheUse.history uses).run (later env k) w'.message_cache =
      ⟨.ok (), j, w''.message_cache⟩)
    (hfresh : w'.message_cache.outbounds.Fresh (env (k + j)).time m.message_id m) {e : Event}
    (hemitted : Emitted e) (habout : e.user_message_id = m.message_id) :
    PostsStatus config w'' m.message_id ((handleEvent config e).run (later env (k + j)) w'') ↔
      e.event_type ≠ .delivery_report := by
  obtain ⟨m', hsent, -⟩ := sent_of_run hrun
  have hsame : m' = m := by
    have hlist := hsent.published
    rw [hm] at hlist
    exact (List.singleton_inj.1 (List.append_cancel_left hlist)).symm
  rw [hsame] at hsent
  have hnames := emitted_namesSent hemitted
  unfold NamesSent at hnames
  constructor
  · -- A delivery report names no message as sent.
    intro hposts htype
    rw [if_pos htype] at hnames
    exact not_postsStatus_of_none hnames hposts
  · -- The other events name the message.
    intro htype
    rw [if_neg htype] at hnames
    rw [habout] at hnames
    obtain ⟨outbound, hfound⟩ := found_of_sent hclock hsent huses hfresh
    have hposts : PostsStatus config w'' e.user_message_id
        ((handleEvent config e).run (later env (k + j)) w'') :=
      postsStatus_of_found hnames hfound
    rw [habout] at hposts
    exact hposts

/-! ## A delivery report -/

/-- The members of a request. -/
def plainBody : Json.Members :=
  [(str "to", .string (str "27820000000")), (str "context", .object []),
    (str "turn", .object [(str "text", .object [(str "body", .string (str "hi"))])])]

/-- The request; no signature is asked for. -/
def plainRequest : SendRequest where
  data := str
    "\x7b\"to\": \"27820000000\", \"context\": \x7b\x7d, \"turn\": \x7b\"text\": \x7b\"body\": \"hi\"\x7d\x7d\x7d"
  signature := []

/-- The libraries, as they behave on the request. -/
def plainLibrary : Library := .onRequest [] (.object plainBody)

/-- A configuration without a secret. -/
def openConfig : TurnChannelsApiConfig where
  connector_name := str "turn"
  turn_api_url := str "http://turn"
  auth_token := str "token"
  transport_type := .sms
  default_from_addr := str "12345"
  turn_hmac_secret := []

/-- The clock stands still. -/
def pausedEnv : ℕ → Reading := fun _ => ⟨0, str "out-1", DateTime.min⟩

/-- A worker that has done nothing yet. -/
def newWorker : TurnChannelsApi := ⟨MemoryMessageCache.new 3600, [], []⟩

/-- The message that the request sends. -/
def plainMessage : Message :=
  { Message.create (str "27820000000") (str "12345") (str "turn") .sms (pausedEnv 0) with
    content := .string (str "hi")
    session_event := .close }

/-- The worker after the request. -/
def answeredWorker : TurnChannelsApi :=
  ((httpSendMessage plainLibrary openConfig plainRequest).run pausedEnv newWorker).state

/-- The report of the delivery of the message. -/
def deliveredReport : Event :=
  Event.deliveryReport (str "out-1") .delivered
    [(str "smpp_delivery_status", .string (str "DELIVERED"))] (pausedEnv 0)

/-- The PDU that brings the report. -/
def deliveredPdu : Smpp.DeliverSM where
  seqNum := 1
  source_addr := some []
  destination_addr := some []
  esm_class := .DEFAULT
  data_coding := .default .SMSC_DEFAULT_ALPHABET
  short_message := some []
  message_payload := none
  sar_msg_ref_num := none
  sar_total_segments := none
  sar_segment_seqnum := none
  receipted_message_id := some [0x61, 0x62, 0x63]
  message_state := some .DELIVERED

/-- A client that sent the message under the SMPP message id `abc`. -/
def sentClient : Smpp.EsmeClient where
  sequencer := ⟨1⟩
  smpp_cache := ⟨Dict.empty, ⟨86400, Dict.empty.set (str "abc") (0, str "out-1")⟩⟩
  encoder _ := .ok ()
  send_message_channel := []
  pdu_send_channel := []
  peer _ := .submit_sm_resp .ESME_ROK (some [0x61, 0x62, 0x63])

/-- The run of the plain request: it is answered in four readings. -/
theorem run_plainRequest :
    (httpSendMessage plainLibrary openConfig plainRequest).run pausedEnv newWorker =
      ⟨.ok (turnOutboundFromMsg plainMessage), 4, answeredWorker⟩ := rfl

/-- The message of the plain request is fresh in the answered worker. -/
theorem fresh_plainMessage :
    answeredWorker.message_cache.outbounds.Fresh 0 plainMessage.message_id plainMessage :=
  ⟨0, rfl, by decide +kernel⟩

/-- The processors of the client, in their default configuration. -/
def sentProcessors : Smpp.Processors where
  submit_sm_processor := ⟨{}, fun s => .ok (s.map toByte)⟩
  sm_processer := .default
  dr_processor := .default

/-- The delivery report is an event that the transport sends. -/
theorem emitted_deliveredReport : Emitted deliveredReport := by
  have hsent : ((Smpp.EsmeClient.handleDeliverSm sentProcessors deliveredPdu).run pausedEnv
      sentClient).state.send_message_channel = [.event deliveredReport] := by
    with_unfolding_all rfl
  refine .deliver sentProcessors deliveredPdu pausedEnv sentClient rfl ?_
  rw [hsent]
  exact List.mem_singleton_self _

/-- The report of a delivery is dropped, although the message is in the cache. -/
theorem deliveredReport_not_posted :
    answeredWorker.published = [plainMessage] ∧ Emitted deliveredReport ∧
      deliveredReport.user_message_id = plainMessage.message_id ∧
      answeredWorker.message_cache.outbounds.Fresh 0 plainMessage.message_id plainMessage ∧
      ¬ PostsStatus openConfig answeredWorker plainMessage.message_id
        ((handleEvent openConfig deliveredReport).run pausedEnv answeredWorker) :=
  ⟨rfl, emitted_deliveredReport, rfl, fresh_plainMessage, not_postsStatus_of_none rfl⟩

/-- The peer accepts the message. -/
def acceptedEvent : Event := Event.ack (str "out-1") (str "out-1") (pausedEnv 0)

/-- The acknowledgement is an event that the transport sends. -/
theorem emitted_acceptedEvent : Emitted acceptedEvent := by
  have hsent : ((Smpp.EsmeClient.sendVumiMessage sentProcessors plainMessage).run pausedEnv
      sentClient).state.send_message_channel = [.event acceptedEvent] := by
    set_option maxRecDepth 4096 in with_unfolding_all rfl
  refine .submit sentProcessors plainMessage pausedEnv sentClient rfl ?_
  rw [hsent]
  exact List.mem_singleton_self _

/-- That the peer has accepted the message is posted. -/
theorem acceptedEvent_postsStatus :
    PostsStatus openConfig answeredWorker plainMessage.message_id
      ((handleEvent openConfig acceptedEvent).run (later pausedEnv (4 + 0)) answeredWorker) := by
  have hnone : (CacheUse.history []).run (later pausedEnv 4) answeredWorker.message_cache =
      ⟨.ok (), 0, answeredWorker.message_cache⟩ := rfl
  exact (postsStatus_iff (fun _ _ _ => le_refl _) run_plainRequest rfl hnone fresh_plainMessage
    emitted_acceptedEvent rfl).2 nofun

end TurnChannelsApi

end Vumi2
