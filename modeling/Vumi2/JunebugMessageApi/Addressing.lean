import Vumi2.JunebugMessageApi.ChannelData
import Vumi2.JunebugMessageApi.Worker

/-!
# Where an outbound message goes

A request is sent as a reply to the inbound message that it names, if that is still in the cache,
and otherwise on its own, to the address and from the address of the request. `NeverInvented` says
so; `run_buildOutbound` says what the code does, in four cases (`Route`).

A request that is sent on its own with no address to send it from is not refused: cattrs converts
the `None` to a text. And what raises an exception of another kind is no `ApiError`. So the promise
is kept exactly for the requests of `Addressable` (`neverInvented_iff`).
-/

namespace Vumi2

open Effect Eff Text Attrs Wire

namespace JunebugOutboundMessage

variable {lib : JunebugLibrary} {data : Json.Members} {default_from : Option Str}
  {jom : JunebugOutboundMessage}

/-! ## What a request is read as -/

/-- The addresses of a message are read of their members. -/
structure ReadOf (lib : JunebugLibrary) (data : Json.Members) (jom : JunebugOutboundMessage) :
    Prop where
  to_addr : (defaulted "to" (text lib.toConversions).optional none to_addr).Reads data jom.to_addr
  from_addr : (defaulted "from" (text lib.toConversions).optional none from_addr).Reads data
    jom.from_addr
  reply_to : (defaulted "reply_to" (text lib.toConversions).optional none reply_to).Reads data
    jom.reply_to

/-- What the constructor stores. -/
theorem create_eq_ok {content : Str}
    {to_addr from_addr group reply_to event_url event_auth_token : Option Str} {priority : ℤ}
    {channel_data : Json.Members}
    (h : create content to_addr from_addr group reply_to event_url event_auth_token priority
      channel_data = .ok jom) :
    jom.to_addr = to_addr ∧ jom.from_addr = from_addr ∧ jom.reply_to = reply_to := by
  unfold create at h
  split_ifs at h
  obtain rfl := Except.ok.inj h
  exact ⟨rfl, rfl, rfl⟩

/-- The fields give the constructor what is read of their members. -/
theorem exists_create {result : Except PyExc JunebugOutboundMessage}
    (h : (fields lib).Reads data result) :
    ∃ c dest source group reply url token n ms,
      result = create c dest source group reply url token n ms ∧
      (required "content" (text lib.toConversions) content).Reads data c ∧
      (defaulted "to" (text lib.toConversions).optional none to_addr).Reads data dest ∧
      (defaulted "from" (text lib.toConversions).optional none from_addr).Reads data source ∧
      (defaulted "reply_to" (text lib.toConversions).optional none reply_to).Reads data reply ∧
      (defaulted "priority" (.int (intOf lib)) 1 priority).Reads data n ∧
      (defaulted "channel_data" channelData [] channel_data).Reads data ms := by
  unfold fields at h
  -- The fields are read from the last to the first, each as one application.
  obtain ⟨g₈, ms, h, hms, heq₉⟩ := Fields.reads_ap_iff.1 h
  obtain ⟨g₇, n, h, hn, heq₈⟩ := Fields.reads_ap_iff.1 h
  obtain ⟨g₆, token, h, -, heq₇⟩ := Fields.reads_ap_iff.1 h
  obtain ⟨g₅, url, h, -, heq₆⟩ := Fields.reads_ap_iff.1 h
  obtain ⟨g₄, reply, h, hreply, heq₅⟩ := Fields.reads_ap_iff.1 h
  obtain ⟨g₃, group, h, -, heq₄⟩ := Fields.reads_ap_iff.1 h
  obtain ⟨g₂, source, h, hfrom, heq₃⟩ := Fields.reads_ap_iff.1 h
  obtain ⟨g₁, dest, h, hto, heq₂⟩ := Fields.reads_ap_iff.1 h
  obtain ⟨g₀, c, h, hc, heq₁⟩ := Fields.reads_ap_iff.1 h
  obtain rfl : create = g₀ := Except.ok.inj h
  rw [heq₈, heq₇, heq₆, heq₅, heq₄, heq₃, heq₂, heq₁] at heq₉
  exact ⟨c, dest, source, group, reply, url, token, n, ms, heq₉, hc, hto, hfrom, hreply, hn, hms⟩

/-- What the fields read is what the request says. -/
theorem readOf_fields (h : (fields lib).Reads data (.ok jom)) : ReadOf lib data jom := by
  obtain ⟨_, _, _, _, _, _, _, _, _, heq, -, hto, hfrom, hreply, -, -⟩ := exists_create h
  obtain ⟨hto', hfrom', hreply'⟩ := create_eq_ok heq.symm
  exact ⟨hto' ▸ hto, hfrom' ▸ hfrom, hreply' ▸ hreply⟩

/-- A request is read as a message only if it has no member that is no field. -/
theorem structureHook_eq_ok : structureHook lib data = .ok jom ↔
    Fields.unknownNames memberNames data = [] ∧ (fields lib).Reads data (.ok jom) := by
  unfold structureHook Fields.only Fields.Reads
  dsimp only
  split_ifs with hunknown
  · rw [eq_true hunknown, true_and]
    cases (fields lib).read data with
    | error es => simp
    | ok result => cases result <;> simp
  · cases (fields lib).read data <;> simp [hunknown]

/-- A request is read if it has no unknown name, and all its fields are read. -/
theorem deserialise_eq_ok : deserialise lib (.object data) default_from = .ok jom ↔
    Fields.unknownNames memberNames (withFrom data default_from) = [] ∧
      (fields lib).Reads (withFrom data default_from) (.ok jom) := by
  rw [← structureHook_eq_ok]
  unfold deserialise
  dsimp only
  cases structureHook lib (withFrom data default_from) <;> simp [Except.mapError]

/-- The value of a member, if it is not `null`. -/
def requested (data : Json.Members) (name : String) : Option Json :=
  present (data.getD (str name) .null)

/-- What is read of a text that may be left out. -/
theorem reads_optionalText {py : Conversions} {name : String}
    {get : JunebugOutboundMessage → Option Str}
    {o : Option Str} (h : (defaulted name (text py).optional none get).Reads data o) :
    match requested data name with
    | some v => ∃ s, o = some s ∧ (text py).restructure v = .ok s
    | none => o = none := by
  unfold defaulted at h
  rw [Fields.reads_field_iff] at h
  unfold requested present Json.Members.getD
  cases hget : Json.Members.get? data (str name) with
  | none =>
    rw [hget] at h
    simpa [Json.isNone, eq_comm] using h
  | some v =>
    rw [hget] at h
    dsimp only [Hook.optional] at h
    rw [Option.getD_some]
    split_ifs at h ⊢ with hnull
    · simpa [eq_comm] using h
    · obtain ⟨s, hs, heq⟩ := bind_eq_ok.1 h
      exact ⟨s, (Except.ok.inj heq).symm, hs⟩

/-- The default from address changes no other field. -/
theorem requested_withFrom_of_ne {name : String} (hname : str name ≠ str "from") :
    requested (withFrom data default_from) name = requested data name := by
  unfold requested withFrom Json.Members.getD
  split_ifs
  · rw [Json.Members.get?_set_of_ne _ _ hname]
  · rfl

/-- It is taken where the request has none. -/
theorem requested_withFrom : requested (withFrom data default_from) "from" =
    (requested data "from").orElse fun _ => default_from.map .string := by
  unfold requested withFrom
  by_cases hnull : (data.getD (str "from") .null).isNone = true
  · have hset : Json.Members.getD (data.set (str "from") (default_from.elim .null .string))
        (str "from") .null = default_from.elim .null .string := by
      unfold Json.Members.getD
      rw [Json.Members.get?_set_self, Option.getD_some]
    rw [if_pos hnull, hset, present_eq_none.2 hnull]
    cases default_from with
    | none => rfl
    | some d => rfl
  · rw [if_neg hnull, present, if_neg hnull]
    rfl

/-- What a request gives the fields that address it. -/
structure Addressed (lib : JunebugLibrary) (data : Json.Members) (default_from : Option Str)
    (jom : JunebugOutboundMessage) : Prop where
  to_addr : match requested data "to" with
    | some v => ∃ s, jom.to_addr = some s ∧ (text lib.toConversions).restructure v = .ok s
    | none => jom.to_addr = none
  from_addr : match requested data "from" with
    | some v => ∃ s, jom.from_addr = some s ∧ (text lib.toConversions).restructure v = .ok s
    | none => jom.from_addr = default_from

/-- A request that is read is addressed as it says. -/
theorem addressed_of_deserialise (h : deserialise lib (.object data) default_from = .ok jom) :
    Addressed lib data default_from jom := by
  obtain ⟨-, hfields⟩ := deserialise_eq_ok.1 h
  have hread := readOf_fields hfields
  constructor
  · have hto := reads_optionalText hread.to_addr
    rw [requested_withFrom_of_ne (by decide)] at hto
    exact hto
  · have hfrom := reads_optionalText hread.from_addr
    rw [requested_withFrom] at hfrom
    -- Only a request without a from address can get the default one.
    cases hgiven : requested data "from" with
    | some v =>
      rw [hgiven] at hfrom
      exact hfrom
    | none =>
      rw [hgiven] at hfrom
      cases default_from with
      | none => exact hfrom
      | some d =>
        obtain ⟨s, hs, hd⟩ := hfrom
        obtain rfl : d = s := Except.ok.inj hd
        exact hs

/-- A request without an address to send to is read without one. -/
theorem Addressed.to_addr_isNone (h : Addressed lib data default_from jom) :
    jom.to_addr.isNone = true ↔ requested data "to" = none := by
  have hto := h.to_addr
  cases hgiven : requested data "to" with
  | none =>
    rw [hgiven] at hto
    simp [hto]
  | some v =>
    rw [hgiven] at hto
    obtain ⟨s, hs, -⟩ := hto
    simp [hs]

/-- A message without `to` names the message that it replies to. -/
theorem to_addr_ne_none (h : jom.reply_to = none) : jom.to_addr ≠ none := by
  intro hto
  have hboth := jom.addressed
  rw [h, hto] at hboth
  cases hboth

/-- The only error of `to_vumi` is that of its validation. -/
theorem toVumi_eq_error {py : Conversions} {transport_name : Str} {transport_type : TransportType}
    {r : Reading} {e : PyExc} (h : jom.toVumi py transport_name transport_type r = .error e) :
    e = .classValidationError := by
  unfold toVumi at h
  cases hdata : Message.deserialise py r (jom.vumiData transport_name transport_type) with
  | error es =>
    rw [hdata] at h
    exact (Except.error.inj h).symm
  | ok m =>
    rw [hdata] at h
    cases h

end JunebugOutboundMessage

namespace JunebugMessageApi

open JunebugOutboundMessage

/-! ## What is built of a request -/

/-- The ways in which `build_outbound` may go. -/
inductive Route where
  /-- It is sent on its own. -/
  | alone
  | reply (inbound : Message)
  | notFound (msg_id : Str)
  /-- The dictionary that is stored for the inbound message cannot be read. -/
  | unreadable

section

variable (lib : JunebugLibrary) (config : JunebugMessageApiConfig) (jom : JunebugOutboundMessage)
  (env : ℕ → Reading) (w : JunebugMessageApi)

/-- The inbound message of this identifier that is in the cache, and not too old. -/
def lookUp (msg_id : Str) : Except PyExc (Option Message) :=
  MemoryJunebugStateCache.readInbound lib.toConversions (env 1)
    (w.state_cache.stored (env 0).time msg_id)

/-- Where the request goes: by its `reply_to`, by the cache, and by whether replies to expired
messages are allowed. -/
def route : Route :=
  match jom.reply_to with
  | none => .alone
  | some msg_id =>
    match lookUp lib env w msg_id with
    | .error _ => .unreadable
    | .ok (some inbound) => .reply inbound
    | .ok none =>
      if jom.to_addr.isNone = true ∨ config.allow_expired_replies = false then .notFound msg_id
      else .alone

/-- The outcome of each way. -/
def built (r : Reading) : Route → Except PyExc BuiltMessage
  | .alone =>
    (jom.toVumi lib.toConversions config.connector_name config.transport_type r).map
      BuiltMessage.ofMessage
  | .reply inbound => jom.replyToVumi inbound r
  | .notFound msg_id => .error (messageNotFound msg_id)
  | .unreadable => .error .classValidationError

/-- The worker after the look-up of the inbound message, if there is one. -/
def afterLookUp : JunebugMessageApi :=
  match jom.reply_to with
  | none => w
  | some _ => { w with state_cache := w.state_cache.expireInbound (env 0).time }

variable {lib config jom env w}

/-- The only error of a look-up is that of a cached message. -/
theorem lookUp_eq_error {msg_id : Str} {e : PyExc} (h : lookUp lib env w msg_id = .error e) :
    e = .classValidationError := by
  unfold lookUp at h
  cases hstored : w.state_cache.stored (env 0).time msg_id with
  | none =>
    rw [hstored] at h
    cases h
  | some ms =>
    rw [hstored] at h
    cases ms with
    | nil => cases h
    | cons m ms =>
      unfold MemoryJunebugStateCache.readInbound at h
      dsimp only at h
      cases hread : Message.deserialise lib.toConversions (env 1) (m :: ms) with
      | error es =>
        rw [hread] at h
        exact (Except.error.inj h).symm
      | ok inbound =>
        rw [hread] at h
        cases h

variable (lib config jom env w) in
/-- What `build_outbound` does, in the four cases. -/
theorem run_buildOutbound : ∃ i used, (buildOutbound lib config jom).run env w =
    ⟨built lib config jom (env i) (route lib config jom env w), used, afterLookUp jom env w⟩ := by
  unfold buildOutbound route afterLookUp
  cases jom.reply_to with
  | none =>
    refine ⟨0, 1, ?_⟩
    dsimp only
    unfold buildNew
    rw [run_read_bind, run_ofExcept]
    rfl
  | some msg_id =>
    have hfetch : (onStateCache
        (MemoryJunebugStateCache.fetchInbound lib.toConversions msg_id)).run env w =
          ⟨lookUp lib env w msg_id, 2,
            { w with state_cache := w.state_cache.expireInbound (env 0).time }⟩ := by
      unfold onStateCache
      rw [run_on, MemoryJunebugStateCache.run_fetchInbound]
      rfl
    dsimp only
    cases hlook : lookUp lib env w msg_id with
    | error e =>
      -- A stored message that cannot be read ends the request.
      rw [hlook] at hfetch
      refine ⟨0, 2, ?_⟩
      rw [run_bind_error hfetch, lookUp_eq_error hlook]
      rfl
    | ok found =>
      rw [hlook] at hfetch
      rw [run_bind_ok hfetch]
      cases found with
      | some inbound =>
        refine ⟨2, 3, ?_⟩
        unfold buildReply
        rw [run_read_bind, run_ofExcept]
        rfl
      | none =>
        -- Without the message that it replies to, it is refused, or sent as a new one.
        unfold buildReply
        dsimp only
        split_ifs
        · exact ⟨0, 2, rfl⟩
        · refine ⟨2, 3, ?_⟩
          unfold buildNew
          rw [run_read_bind, run_ofExcept]
          rfl

end

/-! ## What is promised -/

section

variable (lib : JunebugLibrary) (config : JunebugMessageApiConfig) (data : Json.Members)
  (jom : JunebugOutboundMessage) (env : ℕ → Reading) (w : JunebugMessageApi)

/-- A reply to an inbound message goes back to where that came from. -/
structure RepliesTo (inbound m : Message) : Prop where
  in_reply_to : m.in_reply_to = some inbound.message_id
  to_addr : m.to_addr = inbound.from_addr
  from_addr : m.from_addr = inbound.to_addr

/-- A message that is no reply has the addresses of the request, as cattrs structures them. -/
structure SentAlone (m : Message) : Prop where
  in_reply_to : m.in_reply_to = none
  to_addr : ∃ v, requested data "to" = some v ∧
    (text lib.toConversions).restructure v = .ok m.to_addr
  from_addr : match requested data "from" with
    | some v => (text lib.toConversions).restructure v = .ok m.from_addr
    | none => config.default_from_addr = some m.from_addr

/-- A request that is to be sent on its own: it names no inbound message, or one that is not in the
cache any more, and may be sent all the same. -/
def OnItsOwn : Prop :=
  jom.reply_to = none ∨ ∃ msg_id, jom.reply_to = some msg_id ∧ lookUp lib env w msg_id = .ok none ∧
    requested data "to" ≠ none ∧ config.allow_expired_replies = true

/-- What `build_outbound` should make of a request. -/
structure NeverInvented (o : Except PyExc BuiltMessage) : Prop where
  ends : (∃ cls args, o = .error (.apiError cls args)) ∨ ∃ m, o = .ok m
  reply : ∀ msg_id inbound, jom.reply_to = some msg_id →
    lookUp lib env w msg_id = .ok (some inbound) → ∀ m, o = .ok m → RepliesTo inbound m.message
  alone : (∀ msg_id inbound, jom.reply_to = some msg_id →
    lookUp lib env w msg_id ≠ .ok (some inbound)) → ∀ m, o = .ok m →
      SentAlone lib config data m.message
  notFound : (∃ args, o = .error (.apiError "MessageNotFound" args)) ↔
    ∃ msg_id, jom.reply_to = some msg_id ∧ lookUp lib env w msg_id = .ok none ∧
      (requested data "to" = none ∨ config.allow_expired_replies = false)
  /-- Without an address to send it from, a request is refused. -/
  noFrom : OnItsOwn lib config data jom env w → requested data "from" = none →
    config.default_from_addr = none → ∃ cls args, o = .error (.apiError cls args)

/-- A request that is sent on its own has a from address, and no session event but a valid one; one
that is a reply has no `continue_session`; and the inbound message that a request names can be read
if it is in the cache. -/
def Addressable : Prop :=
  match route lib config jom env w with
  | .alone => jom.from_addr ≠ none ∧ ∃ s, Structured jom.sharedVumiFields s
  | .reply _ => jom.sharedVumiFields.continue_session = none
  | .notFound _ => True
  | .unreadable => False

variable {lib config data jom env w}

/-- What the worker does with a request is decided by its addresses and the cache. -/
theorem route_spec (env : ℕ → Reading) (w : JunebugMessageApi)
    (haddressed : Addressed lib data config.default_from_addr jom) :
    match route lib config jom env w with
    | .alone => OnItsOwn lib config data jom env w
    | .reply inbound => ∃ msg_id, jom.reply_to = some msg_id ∧
        lookUp lib env w msg_id = .ok (some inbound)
    | .notFound msg_id => jom.reply_to = some msg_id ∧ lookUp lib env w msg_id = .ok none ∧
        (requested data "to" = none ∨ config.allow_expired_replies = false)
    | .unreadable => ∃ msg_id e, jom.reply_to = some msg_id ∧
        lookUp lib env w msg_id = .error e := by
  -- Whether the request has an address is asked of what was read from it.
  have hto := haddressed.to_addr_isNone
  unfold route OnItsOwn
  cases hreply : jom.reply_to with
  | none => exact .inl rfl
  | some msg_id =>
    dsimp only
    cases hlook : lookUp lib env w msg_id with
    | error e => exact ⟨msg_id, e, rfl, hlook⟩
    | ok found =>
      cases found with
      | some inbound => exact ⟨msg_id, rfl, hlook⟩
      | none =>
        dsimp only
        -- Without the inbound message the request needs an address of its own, and the permission.
        by_cases hrefused : jom.to_addr.isNone = true ∨ config.allow_expired_replies = false
        · rw [if_pos hrefused]
          exact ⟨rfl, hlook, hrefused.imp_left hto.1⟩
        · rw [if_neg hrefused]
          obtain ⟨hgiven, hallow⟩ := not_or.1 hrefused
          refine .inr ⟨msg_id, rfl, hlook, fun h => hgiven (hto.2 h), ?_⟩
          simpa using hallow

/-- A request that is sent on its own has an address to go to. -/
theorem OnItsOwn.given_to (haddressed : Addressed lib data config.default_from_addr jom)
    (halone : OnItsOwn lib config data jom env w) : requested data "to" ≠ none := by
  rcases halone with hreply | ⟨_, _, _, hto, _⟩
  · intro hnone
    exact to_addr_ne_none hreply (Option.isNone_iff_eq_none.1 (haddressed.to_addr_isNone.2 hnone))
  · exact hto

/-- It is not a reply, nor is it refused as one. -/
theorem OnItsOwn.lookUp_ne (halone : OnItsOwn lib config data jom env w) {msg_id : Str}
    {inbound : Message} (hreply : jom.reply_to = some msg_id) :
    lookUp lib env w msg_id ≠ .ok (some inbound) := by
  rcases halone with hnone | ⟨other, hother, hlook, -⟩
  · rw [hnone] at hreply
    cases hreply
  · obtain rfl := Option.some.inj (hother.symm.trans hreply)
    rw [hlook]
    simp

/-- A request that may be sent on its own is not refused. -/
theorem OnItsOwn.not_refused (halone : OnItsOwn lib config data jom env w) {msg_id : Str}
    (hreply : jom.reply_to = some msg_id) :
    ¬ (requested data "to" = none ∨ config.allow_expired_replies = false) := by
  rcases halone with hnone | ⟨other, -, -, hto, hallow⟩
  · rw [hnone] at hreply
    cases hreply
  · rintro (hnone | hrefused)
    · exact hto hnone
    · rw [hallow] at hrefused
      cases hrefused

/-- The message of a request that is sent on its own has the addresses of the request, if it has a
from address. -/
theorem sentAlone_newMessage (haddressed : Addressed lib data config.default_from_addr jom)
    (hto : requested data "to" ≠ none) (hfrom : jom.from_addr ≠ none) (transport_name : Str)
    (transport_type : TransportType) (r : Reading) (s : Session) :
    SentAlone lib config data
      (newMessage lib.toConversions jom transport_name transport_type r s) := by
  refine ⟨rfl, ?_, ?_⟩
  · have hread := haddressed.to_addr
    -- A request without an address was refused before.
    cases hgiven : requested data "to" with
    | none => exact absurd hgiven hto
    | some v =>
      rw [hgiven] at hread
      obtain ⟨address, haddress, hstructured⟩ := hread
      refine ⟨v, rfl, ?_⟩
      show _ = Except.ok (jom.to_addr.getD (lib.toStr .null))
      rw [haddress]
      exact hstructured
  · have hread := haddressed.from_addr
    show match requested data "from" with
      | some v => (text lib.toConversions).restructure v =
          .ok (jom.from_addr.getD (lib.toStr .null))
      | none => config.default_from_addr = some (jom.from_addr.getD (lib.toStr .null))
    cases hgiven : requested data "from" with
    | none =>
      rw [hgiven] at hread
      obtain ⟨address, haddress⟩ := Option.ne_none_iff_exists'.1 hfrom
      dsimp only at hread ⊢
      rw [← hread, haddress]
      rfl
    | some v =>
      rw [hgiven] at hread
      obtain ⟨address, haddress, hstructured⟩ := hread
      dsimp only
      rw [haddress]
      exact hstructured

/-- A reply that is built goes back to the inbound message. -/
theorem repliesTo_of_built {inbound : Message} {r : Reading} {m : BuiltMessage}
    (h : jom.replyToVumi inbound r = .ok m) : RepliesTo inbound m.message := by
  rw [replyToVumi_eq] at h
  cases hcontinue : jom.sharedVumiFields.continue_session with
  | some v =>
    rw [hcontinue] at h
    cases h
  | none =>
    rw [hcontinue] at h
    obtain rfl := Except.ok.inj h
    exact ⟨rfl, rfl, rfl⟩

/-- A request that names an inbound message which is not to be found is refused as it should be. -/
theorem neverInvented_notFound {msg_id : Str} (hreply : jom.reply_to = some msg_id)
    (hlook : lookUp lib env w msg_id = .ok none)
    (hrefused : requested data "to" = none ∨ config.allow_expired_replies = false) (r : Reading) :
    NeverInvented lib config data jom env w (built lib config jom r (.notFound msg_id)) := by
  refine ⟨.inl ⟨_, _, rfl⟩, ?_, ?_, ?_, ?_⟩
  · intro _ _ _ _ m hok
    cases hok
  · intro _ m hok
    cases hok
  · exact ⟨fun _ => ⟨msg_id, hreply, hlook, hrefused⟩, fun _ => ⟨_, rfl⟩⟩
  · exact fun halone _ _ => absurd hrefused (halone.not_refused hreply)

/-- A reply is made as it should be, unless it continues a session: `Message` has no such field. -/
theorem neverInvented_reply_iff {msg_id : Str} {inbound : Message}
    (hreply : jom.reply_to = some msg_id) (hlook : lookUp lib env w msg_id = .ok (some inbound))
    (r : Reading) :
    NeverInvented lib config data jom env w (jom.replyToVumi inbound r) ↔
      jom.sharedVumiFields.continue_session = none := by
  constructor
  · intro h
    rw [replyToVumi_eq] at h
    cases hcontinue : jom.sharedVumiFields.continue_session with
    | none => rfl
    | some v =>
      -- `Message.reply` raises on `continue_session`, which is no `ApiError`.
      rw [hcontinue] at h
      rcases h.ends with ⟨cls, args, herror⟩ | ⟨m, hok⟩
      · cases herror
      · cases hok
  · intro hcontinue
    have hok : jom.replyToVumi inbound r =
        .ok ⟨replyMessage jom inbound r, jom.sharedVumiFields.session_event⟩ := by
      rw [replyToVumi_eq, hcontinue]
    -- The other promises are about a look-up that found nothing, and this one found the message.
    have hsame : ∀ other found, jom.reply_to = some other →
        lookUp lib env w other = .ok (some found) → found = inbound := by
      intro other found hother hfound
      obtain rfl := Option.some.inj (hreply.symm.trans hother)
      exact Option.some.inj (Except.ok.inj (hfound.symm.trans hlook))
    refine ⟨.inr ⟨_, hok⟩, ?_, ?_, ?_, ?_⟩
    · intro other found hother hfound m hm
      obtain rfl := hsame other found hother hfound
      exact repliesTo_of_built hm
    · exact fun hnot => absurd hlook (hnot msg_id inbound hreply)
    · rw [hok]
      constructor
      · rintro ⟨args, herror⟩
        cases herror
      · rintro ⟨other, hother, hnone, -⟩
        obtain rfl := Option.some.inj (hreply.symm.trans hother)
        rw [hlook] at hnone
        cases hnone
    · exact fun halone _ _ => absurd hlook (halone.lookUp_ne hreply)

/-- A message of its own is made as it should be if it has a from address, and no session event but
a valid one. -/
theorem neverInvented_alone_iff (haddressed : Addressed lib data config.default_from_addr jom)
    (halone : OnItsOwn lib config data jom env w) (r : Reading) :
    NeverInvented lib config data jom env w
        ((jom.toVumi lib.toConversions config.connector_name config.transport_type r).map
          BuiltMessage.ofMessage) ↔
      jom.from_addr ≠ none ∧ ∃ s, Structured jom.sharedVumiFields s := by
  cases hmade : jom.toVumi lib.toConversions config.connector_name config.transport_type r with
  | error e =>
    -- It has a session event that is not valid, and raises no `ApiError`.
    obtain rfl := toVumi_eq_error hmade
    constructor
    · intro h
      rcases h.ends with ⟨cls, args, herror⟩ | ⟨m, hok⟩
      · cases herror
      · cases hok
    · rintro ⟨-, s, hs⟩
      rw [toVumi_eq_ok.2 ⟨s, hs, rfl⟩] at hmade
      cases hmade
  | ok m =>
    obtain ⟨s, hs, rfl⟩ := toVumi_eq_ok.1 hmade
    constructor
    · intro h
      refine ⟨fun hfrom => ?_, s, hs⟩
      -- Without a from address the request should have been refused.
      have hgiven := haddressed.from_addr
      rw [hfrom] at hgiven
      cases hnone : requested data "from" with
      | some v =>
        rw [hnone] at hgiven
        obtain ⟨address, haddress, -⟩ := hgiven
        cases haddress
      | none =>
        rw [hnone] at hgiven
        obtain ⟨cls, args, herror⟩ := h.noFrom halone hnone hgiven.symm
        cases herror
    · rintro ⟨hfrom, -⟩
      refine ⟨.inr ⟨_, rfl⟩, ?_, ?_, ?_, ?_⟩
      · exact fun _ _ hreply hfound => absurd hfound (halone.lookUp_ne hreply)
      · intro _ m hm
        obtain rfl := Except.ok.inj hm
        exact sentAlone_newMessage haddressed (halone.given_to haddressed) hfrom _ _ _ s
      · constructor
        · rintro ⟨args, herror⟩
          cases herror
        · rintro ⟨msg_id, hreply, -, hrefused⟩
          exact absurd hrefused (halone.not_refused hreply)
      · intro _ hnone hdefault
        have hgiven := haddressed.from_addr
        rw [hnone] at hgiven
        exact absurd (hgiven.trans hdefault) hfrom

/-- The promise is kept exactly for these requests. -/
theorem neverInvented_iff
    (hread : deserialise lib (.object data) config.default_from_addr = .ok jom)
    (env : ℕ → Reading) (w : JunebugMessageApi) :
    NeverInvented lib config data jom env w ((buildOutbound lib config jom).run env w).result ↔
      Addressable lib config jom env w := by
  have haddressed := addressed_of_deserialise hread
  obtain ⟨i, used, hrun⟩ := run_buildOutbound lib config jom env w
  have hspec := route_spec env w haddressed
  rw [hrun]
  unfold Addressable
  dsimp only
  cases hroute : route lib config jom env w with
  | unreadable =>
    -- A look-up that raises ends in no answer at all.
    refine ⟨fun h => ?_, False.elim⟩
    rcases h.ends with ⟨cls, args, herror⟩ | ⟨m, hok⟩
    · cases herror
    · cases hok
  | notFound msg_id =>
    rw [hroute] at hspec
    obtain ⟨hreply, hlook, hrefused⟩ := hspec
    exact iff_of_true (neverInvented_notFound hreply hlook hrefused (env i)) trivial
  | reply inbound =>
    rw [hroute] at hspec
    obtain ⟨msg_id, hreply, hlook⟩ := hspec
    exact neverInvented_reply_iff hreply hlook (env i)
  | alone =>
    rw [hroute] at hspec
    exact neverInvented_alone_iff haddressed hspec (env i)

end

/-- A request without a from address. -/
def sendRequest : Json.Members :=
  [(str "content", .string (str "hello")), (str "to", .string (str "+27820001001"))]

/-- A configuration, with or without a default from address. -/
def sendConfig (default_from_addr : Option Str) : JunebugMessageApiConfig :=
  ⟨str "jma", .sms, default_from_addr, false⟩

/-- The message that the request is read as. -/
def sendMessage (from_addr : Option Str) : JunebugOutboundMessage :=
  ⟨str "hello", some (str "+27820001001"), from_addr, none, none, none, none, 1, [], rfl⟩

/-- A worker that has not done anything. -/
def idle : JunebugMessageApi := ⟨MemoryJunebugStateCache.new 60 true, []⟩

/-- With a default from address, it is not invented. -/
theorem default_from_neverInvented :
    NeverInvented (.onRequest .null) (sendConfig (some (str "12345"))) sendRequest
      (sendMessage (some (str "12345"))) (fun _ => reading) idle
      ((buildOutbound (.onRequest .null) (sendConfig (some (str "12345")))
        (sendMessage (some (str "12345")))).run (fun _ => reading) idle).result :=
  (neverInvented_iff rfl _ _).2 ⟨Option.some_ne_none _, .none, rfl⟩

/-- Without one, the message is sent from the address `None`. -/
theorem from_none_invented :
    deserialise (.onRequest .null) (.object sendRequest) none = .ok (sendMessage none) ∧
    (∃ m, ((buildOutbound (.onRequest .null) (sendConfig none) (sendMessage none)).run
      (fun _ => reading) idle).result = .ok m ∧ m.message.from_addr = str "None") ∧
    ¬ NeverInvented (.onRequest .null) (sendConfig none) sendRequest (sendMessage none)
      (fun _ => reading) idle
      ((buildOutbound (.onRequest .null) (sendConfig none) (sendMessage none)).run
        (fun _ => reading) idle).result := by
  refine ⟨rfl, ⟨_, rfl, rfl⟩, fun h => ?_⟩
  obtain ⟨cls, args, herror⟩ := h.noFrom (.inl rfl) rfl rfl
  cases herror

end JunebugMessageApi

end Vumi2
