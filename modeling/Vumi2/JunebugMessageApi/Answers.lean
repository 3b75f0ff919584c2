import Vumi2.JunebugMessageApi.Addressing

/-!
# What the send endpoint answers

A body that is a valid outbound message is published and answered with 201, and any other body is
answered with an error of the API, and has no effect: `Answers`.

`http_send_message` turns an `ApiError` into a response, and lets every other exception through. Of
the exceptions that cattrs collects while it structures a body, `deserialise` raises the first one,
whatever it is (`deserialise_of_not_wellFormed`); a body that is no object has no method `get`; and
a session event or a `continue_session` in the channel data may keep a message from being built or
published. So the endpoint answers exactly the bodies of `Answerable` (`answers_iff`).
-/

namespace Vumi2

open Effect Eff Text Attrs Wire

/-- An `ApiError` of a class that stands for a bad request. -/
def IsUsageError (e : PyExc) : Prop :=
  ∃ cls args, e = .apiError cls args ∧ (ApiErrorClass.named cls).status = .bad_request

namespace JunebugOutboundMessage

variable {lib : JunebugLibrary} {data : Json.Members} {default_from : Option Str}
  {jom : JunebugOutboundMessage}

/-! ## Which bodies can be structured -/

/-- The members that may not be structured: `content` is there, `priority` is a number for `int`,
and `channel_data` is an object. -/
structure WellFormed (lib : JunebugLibrary) (data : Json.Members) : Prop where
  content : data.get? (str "content") ≠ none
  priority : ∀ v, data.get? (str "priority") = some v →
    ∃ n, (Hook.int (intOf lib)).restructure v = .ok n
  channel_data : ∀ v, data.get? (str "channel_data") = some v → ∃ ms, v = .object ms

/-- Every value is structured to a text. -/
theorem exists_text (py : Conversions) (v : Json) : ∃ s, (text py).restructure v = .ok s := by
  cases v with
  | string s => exact ⟨s, rfl⟩
  | _ => exact ⟨_, rfl⟩

/-- An optional text is always read. -/
theorem exists_optionalText (py : Conversions) (name : String)
    (get : JunebugOutboundMessage → Option Str) (data : Json.Members) :
    ∃ o, (defaulted name (text py).optional none get).Reads data o := by
  apply Fields.exists_reads_of_default
  intro v _
  obtain ⟨s, hs⟩ := exists_text py v
  by_cases hnull : v.isNone = true
  · exact ⟨none, if_pos hnull⟩
  · refine ⟨some s, ?_⟩
    show (if v.isNone = true then .ok none else ((text py).restructure v).map some) = _
    rw [if_neg hnull, hs]
    rfl

/-- The fields are read of a well-formed body, and of no other. -/
theorem exists_reads_iff : (∃ result, (fields lib).Reads data result) ↔ WellFormed lib data := by
  constructor
  · rintro ⟨result, h⟩
    obtain ⟨_, _, _, _, _, _, _, n, _, -, hcontent, -, -, -, hpriority, hchannel⟩ := exists_create h
    unfold required defaulted at *
    rw [Fields.reads_field_iff] at hchannel hpriority hcontent
    refine ⟨fun hnone => ?_, fun v hv => ?_, fun v hv => ?_⟩
    · rw [hnone] at hcontent
      cases hcontent
    · rw [hv] at hpriority
      exact ⟨n, hpriority⟩
    · rw [hv] at hchannel
      cases v with
      | object ms => exact ⟨ms, rfl⟩
      | _ => cases hchannel
  · intro h
    obtain ⟨v, hv⟩ := Option.ne_none_iff_exists'.1 h.content
    obtain ⟨content, hcontent⟩ := exists_text lib.toConversions v
    obtain ⟨_, hto⟩ := exists_optionalText lib.toConversions "to" to_addr data
    obtain ⟨_, hfrom⟩ := exists_optionalText lib.toConversions "from" from_addr data
    obtain ⟨_, hgroup⟩ := exists_optionalText lib.toConversions "group" group data
    obtain ⟨_, hreply⟩ := exists_optionalText lib.toConversions "reply_to" reply_to data
    obtain ⟨_, hurl⟩ := exists_optionalText lib.toConversions "event_url" event_url data
    obtain ⟨_, htoken⟩ :=
      exists_optionalText lib.toConversions "event_auth_token" event_auth_token data
    -- These two may be missing, and then have their defaults.
    have hpriority : ∃ n, (defaulted "priority" (.int (intOf lib)) 1 priority).Reads data n :=
      Fields.exists_reads_of_default h.priority
    have hchannel : ∃ ms, (defaulted "channel_data" channelData [] channel_data).Reads data ms := by
      apply Fields.exists_reads_of_default
      intro v hv
      obtain ⟨ms, rfl⟩ := h.channel_data v hv
      exact ⟨ms, rfl⟩
    obtain ⟨_, hpriority⟩ := hpriority
    obtain ⟨_, hchannel⟩ := hchannel
    exact ⟨_, (Fields.reads_pure data create)
      |>.ap (Fields.reads_field hv hcontent)
      |>.ap hto
      |>.ap hfrom
      |>.ap hgroup
      |>.ap hreply
      |>.ap hurl
      |>.ap htoken
      |>.ap hpriority
      |>.ap hchannel⟩

/-- What the hooks raise is no `ApiError`, nor about members that are no fields. -/
def Plain : PyExc → Prop
  | .apiError _ _ | .forbiddenExtraKeysError _ => False
  | _ => True

/-- What `int` raises is plain. -/
theorem plain_intOf {v : Json} {e : PyExc} (h : (Hook.int (intOf lib)).restructure v = .error e) :
    Plain e := by
  have hint : ∀ v, intOf lib v = .error e → Plain e := by
    intro v hv
    unfold intOf at hv
    split at hv
    · cases hv
    all_goals
      obtain rfl := Except.error.inj hv
      trivial
  cases v with
  | int n => cases h
  | _ => exact hint _ h

/-- All that the fields raise is plain. -/
theorem failsWith_fields (lib : JunebugLibrary) : (fields lib).FailsWith Plain := by
  -- Texts never fail; channel data fail for a value that is no object.
  have htext : ∀ (py : Conversions) (v : Json) (e : PyExc),
      (text py).restructure v = .error e → Plain e := by
    intro py v e h
    obtain ⟨s, hs⟩ := exists_text py v
    rw [hs] at h
    cases h
  have hoptional : ∀ (py : Conversions) (v : Json) (e : PyExc),
      (text py).optional.restructure v = .error e → Plain e := by
    intro py v e h
    unfold Hook.optional at h
    dsimp only at h
    split_ifs at h
    obtain ⟨s, hs⟩ := exists_text py v
    rw [hs] at h
    cases h
  have hchannel : ∀ (v : Json) (e : PyExc), channelData.restructure v = .error e → Plain e := by
    intro v e h
    cases v with
    | object ms => cases h
    | _ =>
      obtain rfl := Except.error.inj h
      trivial
  -- The fields in the order of the class.
  have hmissing : Plain .keyError := trivial
  exact (Fields.failsWith_pure _ _)
    |>.ap (Fields.failsWith_field hmissing (htext _))
    |>.ap (Fields.failsWith_field hmissing (hoptional _))
    |>.ap (Fields.failsWith_field hmissing (hoptional _))
    |>.ap (Fields.failsWith_field hmissing (hoptional _))
    |>.ap (Fields.failsWith_field hmissing (hoptional _))
    |>.ap (Fields.failsWith_field hmissing (hoptional _))
    |>.ap (Fields.failsWith_field hmissing (hoptional _))
    |>.ap (Fields.failsWith_field hmissing fun _ _ => plain_intOf)
    |>.ap (Fields.failsWith_field hmissing hchannel)

/-! ## What a body is read as -/

/-- `from` aside, the data are as they came. -/
theorem get?_withFrom_of_ne {name : Str} (hname : name ≠ str "from") :
    (withFrom data default_from).get? name = data.get? name := by
  unfold withFrom
  split_ifs
  · exact Json.Members.get?_set_of_ne _ _ hname
  · rfl

/-- The default from address makes no request well formed, nor ill formed. -/
theorem wellFormed_withFrom (default_from : Option Str) :
    WellFormed lib (withFrom data default_from) ↔ WellFormed lib data := by
  have hcontent : (withFrom data default_from).get? (str "content") = data.get? (str "content") :=
    get?_withFrom_of_ne (by decide)
  have hpriority :
      (withFrom data default_from).get? (str "priority") = data.get? (str "priority") :=
    get?_withFrom_of_ne (by decide)
  have hchannel :
      (withFrom data default_from).get? (str "channel_data") = data.get? (str "channel_data") :=
    get?_withFrom_of_ne (by decide)
  constructor
  · rintro ⟨h₁, h₂, h₃⟩
    rw [hcontent] at h₁
    rw [hpriority] at h₂
    rw [hchannel] at h₃
    exact ⟨h₁, h₂, h₃⟩
  · rintro ⟨h₁, h₂, h₃⟩
    rw [← hcontent] at h₁
    rw [← hpriority] at h₂
    rw [← hchannel] at h₃
    exact ⟨h₁, h₂, h₃⟩

/-- What is not well-formed raises what its first bad field has raised. -/
theorem deserialise_of_not_wellFormed (default_from : Option Str) (h : ¬ WellFormed lib data) :
    ∃ e, deserialise lib (.object data) default_from = .error e ∧ ¬ IsApiError e := by
  rw [← wellFormed_withFrom default_from] at h
  cases hread : (fields lib).read (withFrom data default_from) with
  | ok result => exact absurd (exists_reads_iff.1 ⟨result, hread⟩) h
  | error es =>
    obtain ⟨hne, hall⟩ := failsWith_fields lib _ es hread
    cases es with
    | nil => exact absurd rfl hne
    | cons first es =>
      obtain ⟨name, e⟩ := first
      have hplain : Plain e := hall _ List.mem_cons_self
      -- The error for the members that are no fields comes last.
      have hfirst : ∃ rest, structureHook lib (withFrom data default_from) =
          .error ((name, e) :: rest) := by
        unfold structureHook Fields.only
        dsimp only
        split_ifs
        · rw [hread]
          exact ⟨es, rfl⟩
        · rw [hread]
          exact ⟨es ++ _, rfl⟩
      obtain ⟨rest, hrest⟩ := hfirst
      refine ⟨e, ?_, ?_⟩
      · unfold deserialise
        dsimp only
        rw [hrest]
        cases e with
        | forbiddenExtraKeysError extra_fields => exact hplain.elim
        | _ => rfl
      · rintro ⟨cls, args, rfl⟩
        exact hplain

/-- The constructor refuses what has neither `to` nor `reply_to`. -/
theorem create_eq_error {content : Str}
    {to_addr from_addr group reply_to event_url event_auth_token : Option Str} {priority : ℤ}
    {channel_data : Json.Members} {e : PyExc}
    (h : create content to_addr from_addr group reply_to event_url event_auth_token priority
      channel_data = .error e) : IsUsageError e := by
  unfold create at h
  split_ifs at h
  exact ⟨_, _, (Except.error.inj h).symm, rfl⟩

/-- A constructor that refuses raises a usage error. -/
theorem isUsageError_of_fields {e : PyExc} (h : (fields lib).Reads data (.error e)) :
    IsUsageError e := by
  obtain ⟨_, _, _, _, _, _, _, _, _, heq, -⟩ := exists_create h
  exact create_eq_error heq.symm

/-- What is well-formed and yet not read as a message is refused as a bad request. -/
theorem deserialise_of_wellFormed (default_from : Option Str) (h : WellFormed lib data) :
    (∃ jom, deserialise lib (.object data) default_from = .ok jom) ∨
      ∃ e, deserialise lib (.object data) default_from = .error e ∧ IsUsageError e := by
  rw [← wellFormed_withFrom default_from] at h
  obtain ⟨result, hread⟩ := exists_reads_iff.2 h
  have hresult : (fields lib).read (withFrom data default_from) = .ok result := hread
  -- The hook refuses unknown names before it asks what the fields gave.
  by_cases hunknown : Fields.unknownNames memberNames (withFrom data default_from) = []
  · cases result with
    | ok jom => exact .inl ⟨jom, deserialise_eq_ok.2 ⟨hunknown, hread⟩⟩
    | error e =>
      obtain ⟨cls, args, rfl, hstatus⟩ := isUsageError_of_fields hread
      refine .inr ⟨_, ?_, cls, args, rfl, hstatus⟩
      unfold deserialise structureHook Fields.only
      dsimp only
      rw [if_pos hunknown, hresult]
      rfl
  · refine .inr ⟨reraise lib [(none, .forbiddenExtraKeysError
      (Fields.unknownNames memberNames (withFrom data default_from)))], ?_, _, _, rfl, rfl⟩
    unfold deserialise structureHook Fields.only
    dsimp only
    rw [if_neg hunknown, hresult]
    rfl

/-- `from` is the name of a field. -/
theorem unknownNames_withFrom : Fields.unknownNames memberNames (withFrom data default_from) =
    Fields.unknownNames memberNames data := by
  unfold withFrom
  split_ifs
  · unfold Fields.unknownNames
    rcases Json.Members.map_fst_set data (str "from") (default_from.elim .null .string) with
      hnames | hnames
    · rw [hnames]
    · have hfrom : (memberNames.any fun known => known = str "from") = true := by decide
      rw [hnames, List.filter_append, List.filter_singleton, hfrom]
      simp
  · rfl

/-- A request whose members are all fields, and which has `to` or `reply_to`. -/
structure Complete (lib : JunebugLibrary) (data : Json.Members) : Prop where
  wellFormed : WellFormed lib data
  known : Fields.unknownNames memberNames data = []
  directed : requested data "to" ≠ none ∨ requested data "reply_to" ≠ none

/-- What a request gives the field `reply_to`. -/
theorem reply_to_of_deserialise (h : deserialise lib (.object data) default_from = .ok jom) :
    match requested data "reply_to" with
    | some v => ∃ s, jom.reply_to = some s ∧ (text lib.toConversions).restructure v = .ok s
    | none => jom.reply_to = none := by
  have hreply := reads_optionalText (readOf_fields (deserialise_eq_ok.1 h).2).reply_to
  rw [requested_withFrom_of_ne (by decide)] at hreply
  exact hreply

/-- A request is read as a message exactly if it is complete. -/
theorem exists_deserialise_iff (default_from : Option Str) :
    (∃ jom, deserialise lib (.object data) default_from = .ok jom) ↔ Complete lib data := by
  constructor
  · rintro ⟨jom, h⟩
    obtain ⟨hknown, hread⟩ := deserialise_eq_ok.1 h
    refine ⟨(wellFormed_withFrom _).1 (exists_reads_iff.1 ⟨_, hread⟩), ?_, ?_⟩
    · rwa [unknownNames_withFrom] at hknown
    · by_contra hnone
      push Not at hnone
      have hto := (addressed_of_deserialise h).to_addr_isNone.2 hnone.1
      have hreply := reply_to_of_deserialise h
      rw [hnone.2] at hreply
      have haddressed := jom.addressed
      rw [hto, hreply] at haddressed
      cases haddressed
  · intro h
    obtain ⟨result, hread⟩ := exists_reads_iff.2 ((wellFormed_withFrom _).2 h.wellFormed)
    have hknown : Fields.unknownNames memberNames (withFrom data default_from) = [] := by
      rw [unknownNames_withFrom]
      exact h.known
    cases result with
    | ok jom => exact ⟨jom, deserialise_eq_ok.2 ⟨hknown, hread⟩⟩
    | error e =>
      -- The constructor has refused it, but it has `to` or `reply_to`.
      obtain ⟨_, dest, _, _, reply, _, _, _, _, heq, -, hto, -, hreply, -, -⟩ := exists_create hread
      have hto := reads_optionalText hto
      have hreply := reads_optionalText hreply
      rw [requested_withFrom_of_ne (by decide)] at hto hreply
      have hdirected : (dest.isNone && reply.isNone) = false := by
        rcases h.directed with hgiven | hgiven
        · obtain ⟨v, hv⟩ := Option.ne_none_iff_exists'.1 hgiven
          rw [hv] at hto
          obtain ⟨s, rfl, -⟩ := hto
          rfl
        · obtain ⟨v, hv⟩ := Option.ne_none_iff_exists'.1 hgiven
          rw [hv] at hreply
          obtain ⟨s, rfl, -⟩ := hreply
          exact Bool.and_false _
      unfold create at heq
      rw [dif_pos hdirected] at heq
      cases heq

end JunebugOutboundMessage

namespace JunebugMessageApi

open JunebugOutboundMessage

variable {lib : JunebugLibrary} {config : JunebugMessageApiConfig} {env : ℕ → Reading}
  {w : JunebugMessageApi} {jom : JunebugOutboundMessage}

/-! ## What is sent -/

/-- Storing the event URL returns, and leaves all but its cache. -/
theorem run_storeEventUrl (jom : JunebugOutboundMessage) (message_id : Str) (env : ℕ → Reading)
    (w : JunebugMessageApi) :
    ∃ used c, (storeEventUrl jom message_id).run env w =
      ⟨.ok (), used, { w with state_cache := c }⟩ := by
  unfold storeEventUrl
  cases jom.event_url with
  | none => exact ⟨0, w.state_cache, rfl⟩
  | some url =>
    unfold onStateCache MemoryJunebugStateCache.storeEventHttpInfo
      MemoryJunebugStateCache.onEventHttpInfo
    dsimp only
    rw [run_on, run_get_bind]
    split_ifs
    · rw [run_on, TimeoutDict.run_setitem]
      exact ⟨_, _, rfl⟩
    · exact ⟨0, w.state_cache, rfl⟩

/-- The response to a request of which this message was made. -/
def createdResponse (config : JunebugMessageApiConfig) (m : Message) : ApiResponse :=
  response (str "message submitted") (junebugOutboundFromMsg m.serialise config.connector_name)
    .created

/-- A message that can be serialised is published. -/
theorem run_sendOutbound_of_built {m : Message} {used : ℕ} {w' : JunebugMessageApi}
    (h : (buildOutbound lib config jom).run env w = ⟨.ok (.ofMessage m), used, w'⟩) :
    ∃ used' c, (sendOutbound lib config jom).run env w =
      ⟨.ok (createdResponse config m), used',
        { w' with state_cache := c, published := w'.published ++ [m] }⟩ := by
  obtain ⟨used₁, c, hstore⟩ := run_storeEventUrl jom
    (BuiltMessage.ofMessage m).message.message_id (later env used) w'
  unfold sendOutbound
  rw [run_bind_ok h, run_bind_ok hstore]
  exact ⟨_, c, rfl⟩

/-- What `build_outbound` raises, `http_send_message` raises up to its handler. -/
theorem run_sendOutbound_of_error {e : PyExc} {used : ℕ} {w' : JunebugMessageApi}
    (h : (buildOutbound lib config jom).run env w = ⟨.error e, used, w'⟩) :
    (sendOutbound lib config jom).run env w = ⟨.error e, used, w'⟩ := by
  unfold sendOutbound
  rw [run_bind_error h]

/-- A message that holds a raw session event cannot be published. -/
theorem run_sendOutbound_of_raw {m : Message} {v : Json} {used : ℕ} {w' : JunebugMessageApi}
    (h : (buildOutbound lib config jom).run env w = ⟨.ok ⟨m, some v⟩, used, w'⟩) :
    ((sendOutbound lib config jom).run env w).result = .error .attributeError := by
  obtain ⟨used₁, c, hstore⟩ := run_storeEventUrl jom
    (BuiltMessage.mk m (some v)).message.message_id (later env used) w'
  unfold sendOutbound
  rw [run_bind_ok h, run_bind_ok hstore]
  rfl

/-! ## What is answered -/

/-- An exception that is no `ApiError` is let through, and an `ApiError` is answered. -/
theorem run_httpSendMessage_of_error {body : Bytes} {e : PyExc} {used : ℕ} {w' : JunebugMessageApi}
    (h : (ofExcept (readRequest lib config body) >>= sendOutbound lib config).run env w =
      ⟨.error e, used, w'⟩) :
    (∀ cls args, e = .apiError cls args → ∃ used', (httpSendMessage lib config body).run env w =
      ⟨.ok (errorResponse cls args), used', w'⟩) ∧
    (¬ IsApiError e → ((httpSendMessage lib config body).run env w).result = .error e) := by
  unfold httpSendMessage
  rw [run_catching, h]
  dsimp only
  constructor
  · rintro cls args rfl
    exact ⟨_, rfl⟩
  · intro hother
    cases e with
    | apiError cls args => exact absurd ⟨cls, args, rfl⟩ hother
    | _ => rfl

/-- A request that is sent is answered as created. -/
theorem run_httpSendMessage_of_ok {body : Bytes} {resp : ApiResponse} {used : ℕ}
    {w' : JunebugMessageApi}
    (h : (ofExcept (readRequest lib config body) >>= sendOutbound lib config).run env w =
      ⟨.ok resp, used, w'⟩) :
    (httpSendMessage lib config body).run env w = ⟨.ok resp, used, w'⟩ := by
  unfold httpSendMessage
  rw [run_catching, h]

section

variable (lib : JunebugLibrary) (config : JunebugMessageApiConfig) (env : ℕ → Reading)
  (w : JunebugMessageApi)

/-- A request that names an inbound message which is not in the cache any more, and that may not be
sent on its own. -/
def Lost (data : Json.Members) : Prop :=
  ∃ v msg_id, requested data "reply_to" = some v ∧
    (text lib.toConversions).restructure v = .ok msg_id ∧ lookUp lib env w msg_id = .ok none ∧
      (requested data "to" = none ∨ config.allow_expired_replies = false)

/-- A body that is a valid outbound message. -/
def Valid (body : Bytes) : Prop :=
  ∃ text data, lib.asText body = some text ∧ lib.loads text = .ok (.object data) ∧
    Complete lib data ∧ ¬ Lost lib config env w data

/-- What should come of a body. -/
structure Answers (body : Bytes) (o : Outcome PyExc JunebugMessageApi ApiResponse) : Prop where
  /-- 201 with the message that was published. -/
  created : Valid lib config env w body → ∃ m, o.result = .ok (createdResponse config m) ∧
    o.state.published = w.published ++ [m]
  /-- A response of 4xx for an `ApiError`; nothing was published, and no URL stored. -/
  refused : ¬ Valid lib config env w body → ∃ cls args,
    o.result = .ok (errorResponse cls args) ∧ 400 ≤ (errorResponse cls args).status ∧
      (errorResponse cls args).status < 500 ∧ o.state.published = w.published ∧
      o.state.state_cache.event_http_info = w.state_cache.event_http_info

/-- The message of a request can be built and published, or its inbound message is not found. -/
def Sends (jom : JunebugOutboundMessage) : Prop :=
  match route lib config jom env w with
  | .alone => ∃ s, Structured jom.sharedVumiFields s
  | .reply _ => jom.sharedVumiFields.continue_session = none ∧
      jom.sharedVumiFields.session_event = none
  | .notFound _ => True
  | .unreadable => False

/-- A body that `json.loads` refuses as no document, or an object that is well-formed, and whose
message, if it is complete, can be sent. -/
def Answerable (body : Bytes) : Prop :=
  match lib.asText body with
  | none => False
  | some text =>
    match lib.loads text with
    | .error (.decode _) => True
    | .ok (.object data) => WellFormed lib data ∧
        ∀ jom, deserialise lib (.object data) config.default_from_addr = .ok jom →
          Sends lib config env w jom
    | _ => False

end

/-- A request is read if its body is a text, the text a document, and the document a message. -/
theorem readRequest_eq_ok {body : Bytes} : readRequest lib config body = .ok jom ↔
    ∃ text data, lib.asText body = some text ∧ lib.loads text = .ok (.object data) ∧
      deserialise lib (.object data) config.default_from_addr = .ok jom := by
  unfold readRequest
  constructor
  · intro h
    cases htext : lib.asText body with
    | none =>
      rw [htext] at h
      cases h
    | some text =>
      rw [htext] at h
      dsimp only at h
      cases hloads : lib.loads text with
      | error e =>
        rw [hloads] at h
        cases h
      | ok v =>
        rw [hloads] at h
        cases v with
        | object data => exact ⟨text, data, rfl, hloads, h⟩
        | _ => cases h
  · rintro ⟨text, data, htext, hloads, h⟩
    rw [htext]
    dsimp only
    rw [hloads]
    exact h

/-- A request is lost exactly if `build_outbound` does not find its inbound message. -/
theorem lost_iff {data : Json.Members}
    (h : deserialise lib (.object data) config.default_from_addr = .ok jom) :
    Lost lib config env w data ↔ ∃ msg_id, route lib config jom env w = .notFound msg_id := by
  have hreads := reply_to_of_deserialise h
  have hspec := route_spec env w (addressed_of_deserialise h)
  constructor
  · rintro ⟨v, msg_id, hgiven, htext, hlook, hrefused⟩
    rw [hgiven] at hreads
    obtain ⟨s, hreply, hs⟩ := hreads
    obtain rfl : s = msg_id := Except.ok.inj (hs.symm.trans htext)
    -- The look-up finds nothing and is not forgiven, so no other route is left.
    cases hroute : route lib config jom env w with
    | alone =>
      rw [hroute] at hspec
      exact absurd hrefused (OnItsOwn.not_refused hspec hreply)
    | reply inbound =>
      rw [hroute] at hspec
      obtain ⟨other, hother, hfound⟩ := hspec
      obtain rfl := Option.some.inj (hreply.symm.trans hother)
      rw [hlook] at hfound
      cases hfound
    | notFound other => exact ⟨other, rfl⟩
    | unreadable =>
      rw [hroute] at hspec
      obtain ⟨other, e, hother, herror⟩ := hspec
      obtain rfl := Option.some.inj (hreply.symm.trans hother)
      rw [hlook] at herror
      cases herror
  · rintro ⟨msg_id, hroute⟩
    rw [hroute] at hspec
    obtain ⟨hreply, hlook, hrefused⟩ := hspec
    cases hgiven : requested data "reply_to" with
    | none =>
      rw [hgiven] at hreads
      rw [hreads] at hreply
      cases hreply
    | some v =>
      rw [hgiven] at hreads
      obtain ⟨s, hs, htext⟩ := hreads
      obtain rfl := Option.some.inj (hs.symm.trans hreply)
      exact ⟨v, s, hgiven, htext, hlook, hrefused⟩

/-- A body is valid exactly if it is read as a message whose inbound message is not missed. -/
theorem valid_iff {body : Bytes} : Valid lib config env w body ↔
    ∃ jom, readRequest lib config body = .ok jom ∧
      ∀ msg_id, route lib config jom env w ≠ .notFound msg_id := by
  constructor
  · rintro ⟨text, data, htext, hloads, hcomplete, hlost⟩
    obtain ⟨jom, hjom⟩ := (exists_deserialise_iff config.default_from_addr).2 hcomplete
    refine ⟨jom, readRequest_eq_ok.2 ⟨text, data, htext, hloads, hjom⟩, fun msg_id hroute => ?_⟩
    exact hlost ((lost_iff hjom).2 ⟨msg_id, hroute⟩)
  · rintro ⟨jom, hread, hroute⟩
    obtain ⟨text, data, htext, hloads, hjom⟩ := readRequest_eq_ok.1 hread
    refine ⟨text, data, htext, hloads, (exists_deserialise_iff _).1 ⟨jom, hjom⟩, fun hlost => ?_⟩
    obtain ⟨msg_id, hmissed⟩ := (lost_iff hjom).1 hlost
    exact hroute msg_id hmissed

/-- What is raised for a request that cannot be read goes through, unless it is an `ApiError`. -/
theorem run_of_readRequest_error {body : Bytes} {e : PyExc}
    (h : readRequest lib config body = .error e) :
    (ofExcept (readRequest lib config body) >>= sendOutbound lib config).run env w =
      ⟨.error e, 0, w⟩ := by
  rw [h]
  rfl

/-- A request that is read is sent as what it is read as. -/
theorem run_of_readRequest_ok {body : Bytes} (h : readRequest lib config body = .ok jom) :
    (ofExcept (readRequest lib config body) >>= sendOutbound lib config).run env w =
      (sendOutbound lib config jom).run env w := by
  rw [h, run_ofExcept_ok_bind]

/-- A body that cannot be read is answered, if that is an `ApiError` for a bad request. -/
theorem answers_of_usageError {body : Bytes} {e : PyExc} {used : ℕ} {w' : JunebugMessageApi}
    (hrun : (ofExcept (readRequest lib config body) >>= sendOutbound lib config).run env w =
      ⟨.error e, used, w'⟩) (he : IsUsageError e) (hinvalid : ¬ Valid lib config env w body)
    (hpublished : w'.published = w.published)
    (hurls : w'.state_cache.event_http_info = w.state_cache.event_http_info) :
    Answers lib config env w body ((httpSendMessage lib config body).run env w) := by
  obtain ⟨cls, args, rfl, hstatus⟩ := he
  obtain ⟨used', hanswer⟩ := (run_httpSendMessage_of_error hrun).1 cls args rfl
  have hvalue : (errorResponse cls args).status = 400 := by
    show (ApiErrorClass.named cls).status.value = 400
    rw [hstatus]
    rfl
  refine ⟨fun hvalid => absurd hvalid hinvalid, fun _ => ⟨cls, args, ?_, ?_, ?_, ?_, ?_⟩⟩
  · rw [hanswer]
  · rw [hvalue]
  · rw [hvalue]
    decide
  · rw [hanswer]
    exact hpublished
  · rw [hanswer]
    exact hurls

/-- An exception of another kind is no answer. -/
theorem not_answers_of_error {body : Bytes} {e : PyExc}
    (h : (((ofExcept (readRequest lib config body) >>= sendOutbound lib config).run env w).result =
      .error e)) (he : ¬ IsApiError e) :
    ¬ Answers lib config env w body ((httpSendMessage lib config body).run env w) := by
  intro hanswers
  have hraised : ((httpSendMessage lib config body).run env w).result = .error e := by
    cases hrun : (ofExcept (readRequest lib config body) >>= sendOutbound lib config).run env w with
    | mk result used w' =>
      rw [hrun] at h
      obtain rfl : result = .error e := h
      exact (run_httpSendMessage_of_error hrun).2 he
  by_cases hvalid : Valid lib config env w body
  · obtain ⟨m, hok, -⟩ := hanswers.created hvalid
    rw [hraised] at hok
    cases hok
  · obtain ⟨cls, args, hok, -⟩ := hanswers.refused hvalid
    rw [hraised] at hok
    cases hok

/-- The look-up of the inbound message publishes nothing, and stores no URL. -/
theorem afterLookUp_published : (afterLookUp jom env w).published = w.published := by
  unfold afterLookUp
  cases jom.reply_to with
  | none => rfl
  | some msg_id => rfl

/-- A look-up leaves the event URLs. -/
theorem afterLookUp_event_http_info : (afterLookUp jom env w).state_cache.event_http_info =
    w.state_cache.event_http_info := by
  unfold afterLookUp
  cases jom.reply_to with
  | none => rfl
  | some msg_id => rfl

/-- A message that is built is published, and answered with 201. -/
theorem answers_of_built {body : Bytes} (hread : readRequest lib config body = .ok jom)
    (hroute : ∀ msg_id, route lib config jom env w ≠ .notFound msg_id) {m : Message} {used : ℕ}
    (hbuilt : (buildOutbound lib config jom).run env w =
      ⟨.ok (.ofMessage m), used, afterLookUp jom env w⟩) :
    Answers lib config env w body ((httpSendMessage lib config body).run env w) := by
  obtain ⟨used', c, hsent⟩ := run_sendOutbound_of_built hbuilt
  have hanswer := run_httpSendMessage_of_ok ((run_of_readRequest_ok hread).trans hsent)
  have hvalid : Valid lib config env w body := valid_iff.2 ⟨jom, hread, hroute⟩
  refine ⟨fun _ => ⟨m, ?_, ?_⟩, fun hinvalid => absurd hvalid hinvalid⟩
  · rw [hanswer]
  · rw [hanswer]
    show (afterLookUp jom env w).published ++ [m] = _
    rw [afterLookUp_published]

/-- What `build_outbound` raises is no answer, unless it is an `ApiError`. -/
theorem not_answers_of_raised {body : Bytes} (hread : readRequest lib config body = .ok jom)
    {e : PyExc} {used : ℕ} {w' : JunebugMessageApi}
    (hraised : (buildOutbound lib config jom).run env w = ⟨.error e, used, w'⟩)
    (he : ¬ IsApiError e) :
    ¬ Answers lib config env w body ((httpSendMessage lib config body).run env w) := by
  refine not_answers_of_error (e := e) ?_ he
  rw [run_of_readRequest_ok hread, run_sendOutbound_of_error hraised]

/-- A reply is answered if it continues no session, and its session event is the default one. -/
theorem answers_reply_iff {body : Bytes} {inbound : Message} {r : Reading} {used : ℕ}
    (hread : readRequest lib config body = .ok jom)
    (hroute : route lib config jom env w = .reply inbound)
    (hrun : (buildOutbound lib config jom).run env w =
      ⟨jom.replyToVumi inbound r, used, afterLookUp jom env w⟩) :
    Answers lib config env w body ((httpSendMessage lib config body).run env w) ↔
      jom.sharedVumiFields.continue_session = none ∧
        jom.sharedVumiFields.session_event = none := by
  rw [replyToVumi_eq] at hrun
  cases hcontinue : jom.sharedVumiFields.continue_session with
  | some v =>
    -- `Message` has no such field.
    rw [hcontinue] at hrun
    exact iff_of_false (not_answers_of_raised hread hrun (not_isApiError fun _ _ => nofun))
      fun h => by cases h.1
  | none =>
    rw [hcontinue] at hrun
    dsimp only at hrun
    cases hsession : jom.sharedVumiFields.session_event with
    | none =>
      rw [hsession] at hrun
      refine iff_of_true (answers_of_built hread (fun msg_id h => ?_) hrun) ⟨rfl, rfl⟩
      rw [hroute] at h
      cases h
    | some v =>
      -- The message holds a raw session event, and cannot be serialised.
      rw [hsession] at hrun
      refine iff_of_false (not_answers_of_error (e := .attributeError) ?_
        (not_isApiError fun _ _ => nofun)) fun h => by cases h.2
      rw [run_of_readRequest_ok hread, run_sendOutbound_of_raw hrun]

/-- A message of its own is answered if its session event is a valid one. -/
theorem answers_alone_iff {body : Bytes} {r : Reading} {used : ℕ}
    (hread : readRequest lib config body = .ok jom)
    (hroute : route lib config jom env w = .alone)
    (hrun : (buildOutbound lib config jom).run env w =
      ⟨(jom.toVumi lib.toConversions config.connector_name config.transport_type r).map
        BuiltMessage.ofMessage, used, afterLookUp jom env w⟩) :
    Answers lib config env w body ((httpSendMessage lib config body).run env w) ↔
      ∃ s, Structured jom.sharedVumiFields s := by
  cases hmade : jom.toVumi lib.toConversions config.connector_name config.transport_type r with
  | error e =>
    -- `to_vumi` raises on a session event of another kind, which is no `ApiError`.
    obtain rfl := toVumi_eq_error hmade
    rw [hmade] at hrun
    refine iff_of_false
      (not_answers_of_raised hread hrun (not_isApiError fun _ _ => nofun)) ?_
    rintro ⟨s, hs⟩
    rw [toVumi_eq_ok.2 ⟨s, hs, rfl⟩] at hmade
    cases hmade
  | ok m =>
    rw [hmade] at hrun
    obtain ⟨s, hs, -⟩ := toVumi_eq_ok.1 hmade
    refine iff_of_true (answers_of_built hread (fun msg_id h => ?_) hrun) ⟨s, hs⟩
    rw [hroute] at h
    cases h

/-- A request that is read as a message is answered exactly if the message can be sent. -/
theorem answers_iff_sends {body : Bytes} (hread : readRequest lib config body = .ok jom) :
    Answers lib config env w body ((httpSendMessage lib config body).run env w) ↔
      Sends lib config env w jom := by
  obtain ⟨i, used, hrun⟩ := run_buildOutbound lib config jom env w
  unfold Sends
  cases hroute : route lib config jom env w with
  | unreadable =>
    rw [hroute] at hrun
    exact iff_of_false (not_answers_of_raised hread hrun (not_isApiError fun _ _ => nofun)) id
  | notFound msg_id =>
    rw [hroute] at hrun
    refine iff_of_true ?_ trivial
    have hraised := (run_of_readRequest_ok hread).trans (run_sendOutbound_of_error hrun)
    refine answers_of_usageError hraised ⟨_, _, rfl, rfl⟩ ?_ afterLookUp_published
      afterLookUp_event_http_info
    rw [valid_iff]
    rintro ⟨other, hother, hfound⟩
    obtain rfl := Except.ok.inj (hread.symm.trans hother)
    exact hfound msg_id hroute
  | reply inbound =>
    rw [hroute] at hrun
    exact answers_reply_iff hread hroute hrun
  | alone =>
    rw [hroute] at hrun
    exact answers_alone_iff hread hroute hrun

/-- The endpoint answers exactly these bodies. -/
theorem answers_iff (lib : JunebugLibrary) (config : JunebugMessageApiConfig) (env : ℕ → Reading)
    (w : JunebugMessageApi) (body : Bytes) :
    Answers lib config env w body ((httpSendMessage lib config body).run env w) ↔
      Answerable lib config env w body := by
  -- A body that is not read, for another reason than an `ApiError`, is not answered.
  have hrefuses : ∀ e, readRequest lib config body = .error e → ¬ IsApiError e →
      ¬ Answers lib config env w body ((httpSendMessage lib config body).run env w) := by
    intro e he hother
    refine not_answers_of_error (e := e) ?_ hother
    rw [run_of_readRequest_error he]
  have hanswers : ∀ e, readRequest lib config body = .error e → IsUsageError e →
      Answers lib config env w body ((httpSendMessage lib config body).run env w) := by
    intro e he husage
    refine answers_of_usageError (run_of_readRequest_error he) husage ?_ rfl rfl
    rw [valid_iff]
    rintro ⟨jom, hjom, -⟩
    rw [he] at hjom
    cases hjom
  unfold Answerable
  cases htext : lib.asText body with
  | none =>
    have hread : readRequest lib config body = .error .unicodeDecodeError := by
      simp only [readRequest, htext]
    exact iff_of_false (hrefuses _ hread (not_isApiError fun _ _ => nofun)) id
  | some text =>
    dsimp only
    cases hloads : lib.loads text with
    | error e =>
      have hread : readRequest lib config body = .error (loadsRaises e) := by
        simp only [readRequest, htext, hloads]
      cases e with
      | decode message => exact iff_of_true (hanswers _ hread ⟨_, _, rfl, rfl⟩) trivial
      | other =>
        exact iff_of_false (hrefuses _ hread (not_isApiError fun _ _ => nofun)) id
    | ok v =>
      have hread : readRequest lib config body = deserialise lib v config.default_from_addr := by
        simp only [readRequest, htext, hloads]
      cases v with
      | object data =>
        dsimp only
        by_cases hwell : WellFormed lib data
        · rcases deserialise_of_wellFormed config.default_from_addr hwell with
            ⟨jom, hjom⟩ | ⟨e, he, husage⟩
          · rw [answers_iff_sends (hread.trans hjom)]
            refine ⟨fun hsends => ⟨hwell, fun other hother => ?_⟩, fun h => h.2 jom hjom⟩
            obtain rfl := Except.ok.inj (hjom.symm.trans hother)
            exact hsends
          · refine iff_of_true (hanswers _ (hread.trans he) husage) ⟨hwell, fun jom hjom => ?_⟩
            rw [he] at hjom
            cases hjom
        · obtain ⟨e, he, hother⟩ :=
            deserialise_of_not_wellFormed config.default_from_addr hwell
          exact iff_of_false (hrefuses _ (hread.trans he) hother) fun h => hwell h.1
      | _ =>
        -- Only an object has a method `get`.
        exact iff_of_false (hrefuses _ hread (not_isApiError fun _ _ => nofun)) id

/-- A body without `content`. -/
def noContent : Json.Members := [(str "to", .string (str "+27820001001"))]

/-- It is not answered: the `KeyError` for the missing member goes through. -/
theorem noContent_not_answered :
    ((httpSendMessage (.onRequest (.object noContent)) (sendConfig none)
        ((str "\x7b\"to\": \"+27820001001\"\x7d").map toByte)).run (fun _ => reading) idle).result =
      .error .keyError ∧
    ¬ Answers (.onRequest (.object noContent)) (sendConfig none) (fun _ => reading) idle
      ((str "\x7b\"to\": \"+27820001001\"\x7d").map toByte)
      ((httpSendMessage (.onRequest (.object noContent)) (sendConfig none)
        ((str "\x7b\"to\": \"+27820001001\"\x7d").map toByte)).run (fun _ => reading) idle) := by
  exact ⟨rfl, not_answers_of_error (e := .keyError) rfl (not_isApiError fun _ _ => nofun)⟩

end JunebugMessageApi

end Vumi2
