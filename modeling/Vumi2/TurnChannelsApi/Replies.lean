import Vumi2.TurnChannelsApi.Worker

/-!
# Which inbound message a Turn message replies to

A request names the inbound message that it replies to, or leaves it to the worker to find the
latest one from the address. `Linked` says what is to be published for each kind of request.

The look-up works (`run_findInbound`), as long as no entry of the cache expires while it goes
through the cache (`TimeoutDict.Steady`). A request that names a message never does: the variable
`inbound` is assigned only where there is no name, and `http_send_message` raises when it comes to
use it (`httpSendMessage_of_named`). So `Linked` holds exactly for the other requests on a steady
cache (`linked_iff`).
-/

namespace Vumi2

open Effect Eff Text

namespace TurnOutboundMessage

/-- A key that the object has is not missed. -/
theorem require_of_get? {ms : Json.Members} {key path : String} {v : Json}
    (h : Json.Members.get? ms (str key) = some v) : require key path (.object ms) = .ok () := by
  unfold require
  rw [keyIn_of_get? h, ok_bind, if_pos rfl]

/-- What `deserialise` makes of a request that has what it looks for, and replies to a text. -/
theorem deserialise_of_present {ms turn text : Json.Members} {context to_addr body : Json}
    {id : Str} (default_from : Option Str) (hcontext : ms.get? (str "context") = some context)
    (hto : ms.get? (str "to") = some to_addr) (hturn : ms.get? (str "turn") = some (.object turn))
    (htext : turn.get? (str "text") = some (.object text))
    (hbody : text.get? (str "body") = some body)
    (hreply : ms.getD (str "reply_to") (.string []) = .string id) :
    ∃ tom, deserialise ms default_from = .ok tom ∧ tom.to_addr = to_addr ∧
      tom.from_addr = default_from ∧ tom.channel_data = [] := by
  have hnone : (to_addr.isNone && (Json.string id).isNone) = false := Bool.and_false _
  refine ⟨⟨body, to_addr, default_from, .string id, 1,
    ms.getD (str "waiting_for_user_input") (.bool false), [], hnone⟩, ?_, rfl, rfl, rfl⟩
  unfold deserialise
  rw [require_of_get? hcontext, ok_bind, require_of_get? hturn, ok_bind, require_of_get? hto,
    ok_bind, itemOf_of_get? hturn, ok_bind, require_of_get? htext, ok_bind, itemOf_of_get? htext,
    ok_bind, require_of_get? hbody, ok_bind, itemOf_of_get? hbody, ok_bind, itemOf_of_get? hto,
    ok_bind, hreply]
  unfold create
  rw [dif_pos hnone]

variable {tom : TurnOutboundMessage}

/-- A message without channel data replies with these fields. -/
theorem replyToVumi_of_plain (h : tom.channel_data = []) (in_msg : Message) (r : Reading) :
    tom.replyToVumi in_msg r =
      .ok { in_msg.replyFields tom.content tom.sessionEvent r with helper_metadata := [] } := by
  have hfields : tom.sharedVumiFields = ⟨[], none, none⟩ := by
    unfold sharedVumiFields
    rw [h]
    rfl
  unfold replyToVumi replyKwargs
  rw [hfields]
  rfl

/-- And is sent on its own with these. -/
theorem toVumi_of_plain (h : tom.channel_data = []) (lib : Library) (transport_name : Str)
    (transport_type : TransportType) (r : Reading) :
    tom.toVumi lib transport_name transport_type r =
      .ok
        { Message.create (lib.structureStr tom.to_addr)
            (lib.structureStr (tom.from_addr.elim .null .string)) transport_name transport_type
            r with
          content := if tom.content.isNone then .null else .string (lib.structureStr tom.content)
          session_event := tom.sessionEvent
          helper_metadata := [] } := by
  have hfields : tom.sharedVumiFields = ⟨[], none, none⟩ := by
    unfold sharedVumiFields
    rw [h]
    rfl
  unfold toVumi
  rw [hfields]
  rfl

end TurnOutboundMessage

namespace TurnChannelsApi

variable (lib : Library) (config : TurnChannelsApiConfig)

/-! ## What is promised -/

/-- A signed request whose body has `context`, `turn.text.body`, and `to`. -/
structure Complete (req : SendRequest) (msg_dict : Json.Members) (to_addr : Json) : Prop where
  signed : Signed lib config req
  loads : lib.loads req.data = .ok (.object msg_dict)
  context : ∃ context, msg_dict.get? (str "context") = some context
  to_addr : msg_dict.get? (str "to") = some to_addr
  body : ∃ turn text : Json.Members, ∃ body, msg_dict.get? (str "turn") = some (.object turn) ∧
    turn.get? (str "text") = some (.object text) ∧ text.get? (str "body") = some body

/-- `reply_to` is this text, and not empty. -/
def Names (msg_dict : Json.Members) (id : Str) : Prop :=
  msg_dict.get? (str "reply_to") = some (.string id) ∧ id ≠ []

/-- `reply_to` is absent or empty. -/
def NamesNone (msg_dict : Json.Members) : Prop :=
  msg_dict.get? (str "reply_to") = none ∨ msg_dict.get? (str "reply_to") = some (.string [])

/-- An entry of the inbound messages that is not too old. -/
def Cached (c : MemoryMessageCache) (now : ℚ) (id : Str) (inbound : Message) : Prop :=
  ∃ t, (id, t, inbound) ∈ c.inbounds.unexpired now

/-- A reply to an inbound message goes back to where that came from. -/
def IsReply (inbound m : Message) : Prop :=
  m.in_reply_to = some inbound.message_id ∧ m.to_addr = inbound.from_addr ∧
    m.from_addr = inbound.to_addr

/-- A message that is no reply, to the address of the request. -/
def IsNonReply (to_addr : Json) (m : Message) : Prop :=
  m.in_reply_to = none ∧ m.to_addr = lib.structureStr to_addr ∧
    m.from_addr = config.default_from_addr

/-- A request publishes one message and returns its identifier. -/
def PublishesOne (w : TurnChannelsApi) (o : Outcome PyExc TurnChannelsApi Json)
    (p : Message → Prop) : Prop :=
  ∃ m, o.result = .ok (turnOutboundFromMsg m) ∧ o.state.published = w.published ++ [m] ∧ p m

/-- What a request with these members is to do. -/
structure Linked (env : ℕ → Reading) (w : TurnChannelsApi) (req : SendRequest)
    (msg_dict : Json.Members) (to_addr : Json) : Prop where
  /-- A reply to the inbound message that the request names. -/
  named : ∀ id inbound, Names msg_dict id → Cached w.message_cache (env 0).time id inbound →
    PublishesOne w ((httpSendMessage lib config req).run env w) (IsReply inbound)
  /-- A reply to the latest inbound message from the address. -/
  latest : NamesNone msg_dict → w.message_cache.inboundsFrom (env 0).time to_addr ≠ [] →
    ∃ inbound ∈ w.message_cache.inboundsFrom (env 0).time to_addr,
      (∀ x ∈ w.message_cache.inboundsFrom (env 0).time to_addr,
        x.timestamp ≤ inbound.timestamp) ∧
      PublishesOne w ((httpSendMessage lib config req).run env w) (IsReply inbound)
  /-- No reply, if there is none. -/
  fresh : NamesNone msg_dict → w.message_cache.inboundsFrom (env 0).time to_addr = [] →
    PublishesOne w ((httpSendMessage lib config req).run env w) (IsNonReply lib config to_addr)

/-! ## What a request does -/

variable {lib config} {env : ℕ → Reading} {w : TurnChannelsApi} {req : SendRequest}
  {msg_dict : Json.Members} {to_addr : Json}

/-- The body of a complete request is read as its object. -/
theorem Complete.requestBody (h : Complete lib config req msg_dict to_addr) :
    requestBody lib config req = .ok (.object msg_dict) := by
  unfold TurnChannelsApi.requestBody
  rw [verifyHmac_of_signed lib config h.signed]
  show (lib.loads req.data).mapError jsonDecodeError = _
  rw [h.loads]
  rfl

/-- A complete request gets as far as the look-up. -/
theorem Complete.run_httpSendMessage (h : Complete lib config req msg_dict to_addr) :
    (httpSendMessage lib config req).run env w =
      (findInbound msg_dict >>= sendFound lib config).run env w := by
  have hmembers : members (.object msg_dict) = .ok msg_dict := rfl
  unfold httpSendMessage
  rw [h.requestBody, run_ofExcept_ok_bind, hmembers, run_ofExcept_ok_bind]

/-- A body that names no message has no `reply_to`. -/
theorem noReplyTo_of_namesNone (h : NamesNone msg_dict) : noReplyTo msg_dict = true := by
  unfold noReplyTo Json.Members.getD
  rcases h with h | h
  · rw [h]
    rfl
  · rw [h]
    rfl

/-- A body that names a message has a `reply_to`. -/
theorem noReplyTo_of_names {id : Str} (h : Names msg_dict id) : noReplyTo msg_dict = false := by
  unfold noReplyTo Json.Members.getD
  rw [h.1]
  exact decide_eq_false h.2

/-- A request that replies to some text is taken, whichever text that is. -/
theorem Complete.deserialise (h : Complete lib config req msg_dict to_addr) {ms : Json.Members}
    {id : Str} (hreply : ms.getD (str "reply_to") (.string []) = .string id)
    (hother : ∀ name, name ≠ str "reply_to" → ms.get? name = msg_dict.get? name) :
    ∃ tom, TurnOutboundMessage.deserialise ms (some config.default_from_addr) = .ok tom ∧
      tom.to_addr = to_addr ∧ tom.from_addr = some config.default_from_addr ∧
      tom.channel_data = [] := by
  obtain ⟨context, hcontext⟩ := h.context
  obtain ⟨turn, text, body, hturn, htext, hbody⟩ := h.body
  exact TurnOutboundMessage.deserialise_of_present (some config.default_from_addr)
    ((hother _ (by decide)).trans hcontext) ((hother _ (by decide)).trans h.to_addr)
    ((hother _ (by decide)).trans hturn) htext hbody hreply

/-- A request that leaves the inbound message to the worker gets the latest one, or none. -/
theorem run_findInbound (hclock : Clocked env) (hto : msg_dict.get? (str "to") = some to_addr)
    (hnone : NamesNone msg_dict) (hdated : w.message_cache.inbounds.Dated (env 0).time)
    (hsteady : w.message_cache.inbounds.Steady env) :
    ∃ ms id k w', (findInbound msg_dict).run env w =
        ⟨.ok (ms, some (MemoryMessageCache.latest
          (w.message_cache.inboundsFrom (env 0).time to_addr))), k, w'⟩ ∧
      w'.published = w.published ∧ ms.getD (str "reply_to") (.string []) = .string id ∧
      ∀ name, name ≠ str "reply_to" → ms.get? name = msg_dict.get? name := by
  have hfetch := MemoryMessageCache.run_fetchLast hclock hdated hsteady to_addr
  have hcache : (onMessageCache (MemoryMessageCache.fetchLastInboundByFromAddress to_addr)).run
      env w = ⟨.ok (MemoryMessageCache.latest
          (w.message_cache.inboundsFrom (env 0).time to_addr)),
        1 + (w.message_cache.inbounds.unexpired (env 0).time).length,
        { w with message_cache :=
          { w.message_cache with inbounds := w.message_cache.inbounds.expire (env 0).time } }⟩ := by
    unfold onMessageCache
    rw [run_on, hfetch]
  have hrun : (findInbound msg_dict).run env w =
      ((onMessageCache (MemoryMessageCache.fetchLastInboundByFromAddress to_addr)) >>=
        fun inbound => pure (withInbound msg_dict inbound)).run env w := by
    unfold findInbound
    rw [if_pos (noReplyTo_of_namesNone hnone), itemOf_of_get? hto, run_ofExcept_ok_bind]
  rw [hrun, run_bind_ok hcache]
  cases MemoryMessageCache.latest (w.message_cache.inboundsFrom (env 0).time to_addr) with
  | none =>
    -- Nothing is found, and `reply_to` stays as it is: absent, or the empty text.
    refine ⟨msg_dict, [], _, _, rfl, rfl, ?_, fun _ _ => rfl⟩
    unfold Json.Members.getD
    rcases hnone with h | h
    · rw [h]
      rfl
    · rw [h]
      rfl
  | some m =>
    -- The request is given the identifier of what is found.
    refine ⟨_, m.message_id, _, _, rfl, rfl, ?_, fun name hname =>
      Json.Members.get?_set_of_ne _ _ hname⟩
    unfold Json.Members.getD
    rw [Json.Members.get?_set_self]
    rfl

/-- A message is built for what was found, and published. -/
theorem httpSendMessage_of_found (h : Complete lib config req msg_dict to_addr)
    {ms : Json.Members} {inbound : Option Message} {k : ℕ} {w' : TurnChannelsApi}
    {tom : TurnOutboundMessage} {m : Message}
    (hfound : (findInbound msg_dict).run env w = ⟨.ok (ms, some inbound), k, w'⟩)
    (htom : TurnOutboundMessage.deserialise ms (some config.default_from_addr) = .ok tom)
    (hm : (buildOutbound lib config tom inbound).run (later env k) w' = ⟨.ok m, 1, w'⟩) :
    ((httpSendMessage lib config req).run env w).result = .ok (turnOutboundFromMsg m) ∧
      ((httpSendMessage lib config req).run env w).state.published = w'.published ++ [m] := by
  have hsend := run_sendOutbound lib config hm
  have hfrom : (sendFound lib config (ms, some inbound)).run (later env k) w' =
      (sendOutbound lib config tom inbound).run (later env k) w' := by
    unfold sendFound
    rw [htom, run_ofExcept_ok_bind]
  rw [h.run_httpSendMessage, run_bind_ok hfound, hfrom, hsend]
  exact ⟨rfl, rfl⟩

/-- A request that leaves the inbound message to the worker is linked, on a steady cache. -/
theorem httpSendMessage_of_namesNone (hclock : Clocked env)
    (h : Complete lib config req msg_dict to_addr) (hnone : NamesNone msg_dict)
    (hdated : w.message_cache.inbounds.Dated (env 0).time)
    (hsteady : w.message_cache.inbounds.Steady env) :
    PublishesOne w ((httpSendMessage lib config req).run env w)
      (match MemoryMessageCache.latest (w.message_cache.inboundsFrom (env 0).time to_addr) with
        | some inbound => IsReply inbound
        | none => IsNonReply lib config to_addr) := by
  obtain ⟨ms, id, k, w', hfound, hpublished, hreply, hother⟩ :=
    run_findInbound hclock h.to_addr hnone hdated hsteady
  obtain ⟨tom, htom, hto, hfrom, hplain⟩ := h.deserialise hreply hother
  cases hlatest : MemoryMessageCache.latest
      (w.message_cache.inboundsFrom (env 0).time to_addr) with
  | some inbound =>
    -- The message is a reply to the latest inbound message.
    rw [hlatest] at hfound
    have hbuild : (buildOutbound lib config tom (some inbound)).run (later env k) w' =
        ⟨.ok { inbound.replyFields tom.content tom.sessionEvent (later env k 0) with
          helper_metadata := [] }, 1, w'⟩ := by
      unfold buildOutbound
      rw [run_read_bind]
      dsimp only
      rw [TurnOutboundMessage.replyToVumi_of_plain hplain]
      rfl
    obtain ⟨hresult, hstate⟩ := httpSendMessage_of_found h hfound htom hbuild
    rw [hpublished] at hstate
    exact ⟨_, hresult, hstate, rfl, rfl, rfl⟩
  | none =>
    -- There is none: the message goes to the address itself.
    rw [hlatest] at hfound
    have hbuild : ∃ m, (buildOutbound lib config tom none).run (later env k) w' =
        ⟨.ok m, 1, w'⟩ ∧ IsNonReply lib config to_addr m := by
      unfold buildOutbound
      rw [run_read_bind]
      dsimp only
      rw [TurnOutboundMessage.toVumi_of_plain hplain, run_ofExcept]
      refine ⟨_, rfl, rfl, by rw [← hto]; rfl, ?_⟩
      show lib.structureStr (tom.from_addr.elim .null .string) = _
      rw [hfrom]
      exact lib.structureStr_string _
    obtain ⟨m, hm, hnonreply⟩ := hbuild
    obtain ⟨hresult, hstate⟩ := httpSendMessage_of_found h hfound htom hm
    rw [hpublished] at hstate
    exact ⟨m, hresult, hstate, hnonreply⟩

/-- A request that names an inbound message fails, whether or not that is cached. -/
theorem httpSendMessage_of_named (h : Complete lib config req msg_dict to_addr) {id : Str}
    (hnames : Names msg_dict id) :
    ((httpSendMessage lib config req).run env w).result = .error .unboundLocalError := by
  have hreply : msg_dict.getD (str "reply_to") (.string []) = .string id := by
    unfold Json.Members.getD
    rw [hnames.1]
    rfl
  obtain ⟨tom, htom, -⟩ := h.deserialise hreply fun _ _ => rfl
  have hfound : (findInbound msg_dict).run env w = ⟨.ok (msg_dict, none), 0, w⟩ := by
    unfold findInbound
    rw [noReplyTo_of_names hnames]
    rfl
  rw [h.run_httpSendMessage, run_bind_ok hfound]
  -- The branch does not set `inbound`, and the next use of it raises.
  unfold sendFound
  rw [htom]
  rfl

/-- The look-up fails if an entry expires meanwhile. -/
theorem findInbound_of_not_steady (hto : msg_dict.get? (str "to") = some to_addr)
    (hnone : NamesNone msg_dict) (hdated : w.message_cache.inbounds.Dated (env 0).time)
    (hsteady : ¬ w.message_cache.inbounds.Steady env) :
    ((findInbound msg_dict).run env w).result = .error .runtimeError := by
  have hcache : ((onMessageCache (MemoryMessageCache.fetchLastInboundByFromAddress to_addr)).run
      env w).result = .error .runtimeError :=
    MemoryMessageCache.fetchLast_raises hdated hsteady to_addr
  unfold findInbound
  rw [if_pos (noReplyTo_of_namesNone hnone), itemOf_of_get? hto, run_ofExcept_ok_bind, run_bind,
    hcache]

/-- And so does a request that leaves the inbound message to the worker. -/
theorem httpSendMessage_of_not_steady (h : Complete lib config req msg_dict to_addr)
    (hnone : NamesNone msg_dict) (hdated : w.message_cache.inbounds.Dated (env 0).time)
    (hsteady : ¬ w.message_cache.inbounds.Steady env) :
    ((httpSendMessage lib config req).run env w).result = .error .runtimeError := by
  rw [h.run_httpSendMessage, run_bind,
    findInbound_of_not_steady h.to_addr hnone hdated hsteady]

/-- A request that raises publishes nothing as the property asks. -/
theorem not_publishesOne_of_error {o : Outcome PyExc TurnChannelsApi Json} {p : Message → Prop}
    {e : PyExc} (h : o.result = .error e) : ¬ PublishesOne w o p := by
  rintro ⟨m, hm, -⟩
  rw [h] at hm
  cases hm

/-- On a dated cache, a complete request is linked exactly if it names no cached message and nothing
expires during the look-up that it calls for. -/
theorem linked_iff_of_dated (hclock : Clocked env)
    (h : Complete lib config req msg_dict to_addr)
    (hdated : w.message_cache.inbounds.Dated (env 0).time) :
    Linked lib config env w req msg_dict to_addr ↔
      (¬ ∃ id inbound, Names msg_dict id ∧ Cached w.message_cache (env 0).time id inbound) ∧
        (NamesNone msg_dict → w.message_cache.inbounds.Steady env) := by
  constructor
  · intro hlinked
    constructor
    · -- A request that names a cached message should be a reply to it, and fails.
      rintro ⟨id, inbound, hnames, hcached⟩
      exact not_publishesOne_of_error (httpSendMessage_of_named h hnames)
        (hlinked.named id inbound hnames hcached)
    · -- An entry that expires during the look-up makes it raise, whatever is cached.
      intro hnone
      by_contra hsteady
      have hraises := httpSendMessage_of_not_steady h hnone hdated hsteady
      by_cases hempty : w.message_cache.inboundsFrom (env 0).time to_addr = []
      · exact not_publishesOne_of_error hraises (hlinked.fresh hnone hempty)
      · obtain ⟨inbound, -, -, hone⟩ := hlinked.latest hnone hempty
        exact not_publishesOne_of_error hraises hone
  · rintro ⟨hnamed, hsteady⟩
    refine ⟨fun id inbound hnames hcached => absurd ⟨id, inbound, hnames, hcached⟩ hnamed, ?_, ?_⟩
    · -- The look-up finds the latest message from the address.
      intro hnone hsome
      have hone := httpSendMessage_of_namesNone hclock h hnone hdated (hsteady hnone)
      cases hlatest : MemoryMessageCache.latest
          (w.message_cache.inboundsFrom (env 0).time to_addr) with
      | none => exact absurd (MemoryMessageCache.latest_eq_none.1 hlatest) hsome
      | some inbound =>
        rw [hlatest] at hone
        obtain ⟨hmem, hle⟩ := MemoryMessageCache.latest_spec hlatest
        exact ⟨inbound, hmem, hle, hone⟩
    · intro hnone hempty
      have hone := httpSendMessage_of_namesNone hclock h hnone hdated (hsteady hnone)
      rw [MemoryMessageCache.latest_eq_none.2 hempty] at hone
      exact hone

/-- After every history of the cache, a complete request is linked exactly if it names no cached
message and nothing expires during the look-up that it calls for. -/
theorem linked_iff {timeout : ℚ} {uses : List CacheUse} {k : ℕ} (hclock : Clocked env)
    (hrun : (CacheUse.history uses).run env (MemoryMessageCache.new timeout) =
      ⟨.ok (), k, w.message_cache⟩)
    (h : Complete lib config req msg_dict to_addr) :
    Linked lib config (later env k) w req msg_dict to_addr ↔
      (¬ ∃ id inbound, Names msg_dict id ∧ Cached w.message_cache (env k).time id inbound) ∧
        (NamesNone msg_dict → w.message_cache.inbounds.Steady (later env k)) := by
  have hnew : CacheUse.DatedAt (env 0) (MemoryMessageCache.new timeout) :=
    ⟨TimeoutDict.dated_new _ _, TimeoutDict.dated_new _ _⟩
  have hdated := CacheUse.datedAt_history uses env _ hclock hnew
  rw [hrun] at hdated
  exact linked_iff_of_dated (hclock.later k) h hdated.2

/-! ## A request that names a cached message -/

/-- The members of the request. -/
def namingBody : Json.Members :=
  [(str "to", .string (str "27820000000")), (str "reply_to", .string (str "in-1")),
    (str "context", .object []),
    (str "turn", .object [(str "text", .object [(str "body", .string (str "hi"))])])]

/-- The request, signed with the secret `secret`. -/
def namingRequest : SendRequest where
  data := str
    "\x7b\"to\": \"27820000000\", \"reply_to\": \"in-1\", \"context\": \x7b\x7d, \"turn\": \x7b\"text\": \x7b\"body\": \"hi\"\x7d\x7d\x7d"
  signature := str "1aT31QfvduxvPmBopetBtXUOm3t+ZAkMabrczx3ab68="

/-- The HMAC of the request under the secret. -/
def namingDigest : Bytes :=
  [213, 164, 247, 213, 7, 239, 118, 236, 111, 62, 96, 104, 165, 235, 65, 181, 117, 14,
    155, 123, 126, 100, 9, 12, 105, 186, 220, 207, 29, 218, 111, 175]

/-- The libraries, as they behave on the request. -/
def namingLibrary : Library := .onRequest namingDigest (.object namingBody)

/-- The configuration of the worker. -/
def namingConfig : TurnChannelsApiConfig where
  connector_name := str "turn"
  turn_api_url := str "http://turn"
  auth_token := str "token"
  transport_type := .sms
  default_from_addr := str "12345"
  turn_hmac_secret := str "secret"

/-- The inbound message. -/
def namedInbound : Message :=
  Message.create (str "12345") (str "27820000000") (str "sms") .sms ⟨0, str "in-1", DateTime.min⟩

/-- The clock stands still. -/
def stillEnv : ℕ → Reading := fun _ => ⟨0, str "out-1", DateTime.min⟩

/-- The worker once the inbound message came. -/
def namedWorker : TurnChannelsApi where
  message_cache :=
    ((CacheUse.history [.store_inbound namedInbound]).run stillEnv
      (MemoryMessageCache.new 3600)).state
  published := []
  posts := []

/-- The naming request passes every check. -/
theorem complete_namingRequest :
    Complete namingLibrary namingConfig namingRequest namingBody (.string (str "27820000000")) where
  signed := by
    obtain ⟨key, hkey⟩ := Option.isSome_iff_exists.1
      (show (Codecs.utf8Encode (str "secret")).isSome = true by decide +kernel)
    obtain ⟨msg, hmsg⟩ := Option.isSome_iff_exists.1
      (show (Codecs.utf8Encode namingRequest.data).isSome = true by decide +kernel)
    have hsig : namingRequest.signature = Base64.b64encode namingDigest := by decide +kernel
    exact .inr ⟨key, msg, hkey, hmsg, hsig⟩
  loads := rfl
  context := ⟨_, rfl⟩
  to_addr := rfl
  body := ⟨_, _, _, rfl, rfl, rfl⟩

/-- The inbound message is in the cache. -/
theorem cached_namedInbound : Cached namedWorker.message_cache 0 (str "in-1") namedInbound := by
  have hinbounds : namedWorker.message_cache.inbounds =
      ((TimeoutDict.setitem (str "in-1") namedInbound).run stillEnv (TimeoutDict.new 3600)).state :=
    rfl
  refine ⟨0, ?_⟩
  rw [hinbounds, TimeoutDict.run_setitem]
  refine List.mem_filter.2 ⟨Dict.get?_eq_some.1 (Dict.get?_set_self _ _ _), ?_⟩
  exact decide_eq_true (by norm_num [TimeoutDict.new])

/-- A request that names a cached inbound message is not answered with a reply to it. -/
theorem naming_not_linked :
    Complete namingLibrary namingConfig namingRequest namingBody (.string (str "27820000000")) ∧
      Names namingBody (str "in-1") ∧
      Cached namedWorker.message_cache (stillEnv 0).time (str "in-1") namedInbound ∧
      ¬ Linked namingLibrary namingConfig stillEnv namedWorker namingRequest namingBody
        (.string (str "27820000000")) := by
  have hnames : Names namingBody (str "in-1") := ⟨rfl, by decide⟩
  refine ⟨complete_namingRequest, hnames, cached_namedInbound, fun hlinked => ?_⟩
  exact not_publishesOne_of_error (httpSendMessage_of_named complete_namingRequest hnames)
    (hlinked.named _ _ hnames cached_namedInbound)

/-- The members of a request that names no inbound message. -/
def latestBody : Json.Members :=
  [(str "to", .string (str "27820000000")), (str "context", .object []),
    (str "turn", .object [(str "text", .object [(str "body", .string (str "hi"))])])]

/-- The request; no signature is asked for. -/
def latestRequest : SendRequest where
  data := str "\x7b\"to\": \"27820000000\", \"context\": \x7b\x7d, " ++
    str "\"turn\": \x7b\"text\": \x7b\"body\": \"hi\"\x7d\x7d\x7d"
  signature := []

/-- The configuration of a worker without a secret. -/
def unsignedConfig : TurnChannelsApiConfig := { namingConfig with turn_hmac_secret := [] }

/-- The latest request passes every check. -/
theorem complete_latestRequest :
    Complete (.onRequest [] (.object latestBody)) unsignedConfig latestRequest latestBody
      (.string (str "27820000000")) where
  signed := .inl rfl
  loads := rfl
  context := ⟨_, rfl⟩
  to_addr := rfl
  body := ⟨_, _, _, rfl, rfl, rfl⟩

/-- It is a reply to the inbound message that came from its address. -/
theorem latest_linked :
    Linked (.onRequest [] (.object latestBody)) unsignedConfig (later stillEnv 2) namedWorker
      latestRequest latestBody (.string (str "27820000000")) := by
  have hrun : (CacheUse.history [.store_inbound namedInbound]).run stillEnv
      (MemoryMessageCache.new 3600) = ⟨.ok (), 2, namedWorker.message_cache⟩ := rfl
  refine (linked_iff (fun _ _ _ => le_refl _) hrun complete_latestRequest).2 ⟨?_, fun _ => ?_⟩
  · rintro ⟨id, inbound, ⟨hnames, -⟩, -⟩
    cases hnames
  · decide +kernel

end TurnChannelsApi

end Vumi2
