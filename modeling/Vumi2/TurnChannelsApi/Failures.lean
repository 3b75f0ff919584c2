import Vumi2.TurnChannelsApi.Replies

/-!
# How the send endpoint of the Turn Channels API fails

A request is to end in one published message or in an `ApiError`, and one that fails is to leave no
message behind: `FailsCleanly`.

Nothing is published or stored by a request that fails (`httpSendMessage_clean`). But there are
requests that end in another exception. The body may not be UTF-8, or not an object, or `to` may be
missing, which is looked up before `deserialise` checks for it; `turn` or `turn.text` may be no
object; the cache may expire under the look-up; and a request that names an inbound message finds
the variable `inbound` without a value. `failsCleanly_iff` says which requests are left.
-/

namespace Vumi2

open Effect Eff Text

namespace TurnOutboundMessage

/-! ## What `deserialise` raises -/

variable {α : Type} {key path : String} {v x : Json} {f : Json → Except PyExc α}

/-- A key that is looked for and not there. -/
theorem look_of_lacking (h : keyIn key v = .ok false) :
    (require key path v >>= fun _ => itemOf key v >>= f) =
      .error (apiUsageError ("Missing key: " ++ path)) := by
  unfold require
  rw [h]
  rfl

/-- A key with its value. -/
theorem look_of_item (h : itemOf key v = .ok x) :
    (require key path v >>= fun _ => itemOf key v >>= f) = f x := by
  cases v with
  | object ms =>
    cases hget : Json.Members.get? ms (str key) with
    | none =>
      unfold itemOf at h
      dsimp only at h
      rw [hget] at h
      cases h
    | some y =>
      rw [require_of_get? hget, ok_bind, h, ok_bind]
  | _ => cases h

/-- A key that is looked for in a value that has no keys, or that has it in another way than an
object does. -/
theorem look_of_unreadable (hkey : keyIn key v ≠ .ok false) (hitem : ∀ x, itemOf key v ≠ .ok x) :
    (require key path v >>= fun _ => itemOf key v >>= f) = .error .typeError := by
  -- A text or an array may contain the key, so `in` succeeds where the item does not.
  have hpresent : ∀ b : Bool, keyIn key v = .ok b → require key path v = .ok () := by
    intro b hb
    unfold require
    cases b with
    | false => exact absurd hb hkey
    | true =>
      rw [hb]
      rfl
  -- An object that has the key gives its value; every other value raises `TypeError`.
  cases v with
  | object ms =>
    cases hget : Json.Members.get? ms (str key) with
    | none =>
      refine absurd ?_ hkey
      show Except.ok (Json.Members.get? ms (str key)).isSome = _
      rw [hget]
      rfl
    | some y => exact absurd (itemOf_of_get? hget) (hitem y)
  | string s =>
    rw [hpresent _ rfl]
    rfl
  | array l =>
    rw [hpresent _ rfl]
    rfl
  | _ => rfl

variable {ms : Json.Members} {default_from : Option Str} {body to_addr : Json}

/-- A member that `deserialise` requires is not there, as far as it can look for it. -/
inductive Lacks (ms : Json.Members) : Prop where
  | context (h : ms.get? (str "context") = none)
  | turn (h : ms.get? (str "turn") = none)
  | to_addr (h : ms.get? (str "to") = none)
  | text {turn : Json} (hturn : ms.get? (str "turn") = some turn)
    (h : keyIn "text" turn = .ok false)
  | body {turn text : Json} (hturn : ms.get? (str "turn") = some turn)
    (htext : itemOf "text" turn = .ok text) (h : keyIn "body" text = .ok false)

/-- The members that `deserialise` requires are there, with this body and this address. -/
structure Has (ms : Json.Members) (body to_addr : Json) : Prop where
  context : ∃ context, ms.get? (str "context") = some context
  body : ∃ turn text, ms.get? (str "turn") = some turn ∧ itemOf "text" turn = .ok text ∧
    itemOf "body" text = .ok body
  to_addr : ms.get? (str "to") = some to_addr

/-- A missing key is refused, with its path. -/
theorem require_of_absent (h : ms.get? (str key) = none) :
    require key path (.object ms) = .error (apiUsageError ("Missing key: " ++ path)) := by
  have hkey : keyIn key (.object ms) = .ok false := by
    show Except.ok (Json.Members.get? ms (str key)).isSome = _
    rw [h]
    rfl
  unfold require
  rw [hkey]
  rfl

/-- What `deserialise` does once `context`, `turn` and `to` are there. -/
theorem deserialise_of_keys {context turn : Json}
    (hcontext : ms.get? (str "context") = some context)
    (hturn : ms.get? (str "turn") = some turn) (hto : ms.get? (str "to") = some to_addr) :
    deserialise ms default_from =
      (require "text" "turn.text" turn >>= fun _ => itemOf "text" turn >>= fun text =>
        require "body" "turn.text.body" text >>= fun _ => itemOf "body" text >>= fun body =>
          create body to_addr default_from (ms.getD (str "reply_to") (.string [])) 1
            (ms.getD (str "waiting_for_user_input") (.bool false)) []) := by
  unfold deserialise
  rw [require_of_get? hcontext, ok_bind, require_of_get? hturn, ok_bind, require_of_get? hto,
    ok_bind, itemOf_of_get? hturn, ok_bind, itemOf_of_get? hto]
  rfl

/-- The first of the members that are lacking is named. -/
theorem deserialise_of_lacks (default_from : Option Str) (h : Lacks ms) :
    ∃ text, deserialise ms default_from = .error (apiUsageError text) := by
  -- The keys are asked for in the order of the source, and the first one that is missing is named.
  cases hcontext : ms.get? (str "context") with
  | none =>
    unfold deserialise
    rw [require_of_absent hcontext]
    exact ⟨_, rfl⟩
  | some context =>
    cases hturn : ms.get? (str "turn") with
    | none =>
      unfold deserialise
      rw [require_of_get? hcontext, ok_bind, require_of_absent hturn]
      exact ⟨_, rfl⟩
    | some turn =>
      cases hto : Json.Members.get? ms (str "to") with
      | none =>
        unfold deserialise
        rw [require_of_get? hcontext, ok_bind, require_of_get? hturn, ok_bind,
          require_of_absent hto]
        exact ⟨_, rfl⟩
      | some to_addr =>
        rw [deserialise_of_keys hcontext hturn hto]
        -- The keys are there, so it is the text or the body of the turn.
        cases h with
        | context h => exact absurd (hcontext.symm.trans h) (Option.some_ne_none _)
        | turn h => exact absurd (hturn.symm.trans h) (Option.some_ne_none _)
        | to_addr h => exact absurd (hto.symm.trans h) (Option.some_ne_none _)
        | text hsome h =>
          obtain rfl := Option.some.inj (hsome.symm.trans hturn)
          exact ⟨_, look_of_lacking h⟩
        | body hsome htext h =>
          obtain rfl := Option.some.inj (hsome.symm.trans hturn)
          rw [look_of_item htext]
          exact ⟨_, look_of_lacking h⟩

/-- A body that has what is required is read by the constructor. -/
theorem deserialise_of_has (default_from : Option Str) (h : Has ms body to_addr) :
    deserialise ms default_from =
      create body to_addr default_from (ms.getD (str "reply_to") (.string [])) 1
        (ms.getD (str "waiting_for_user_input") (.bool false)) [] := by
  obtain ⟨context, hcontext⟩ := h.context
  obtain ⟨turn, text, hturn, htext, hbody⟩ := h.body
  rw [deserialise_of_keys hcontext hturn h.to_addr, look_of_item htext, look_of_item hbody]

/-- Otherwise it comes upon a value that it cannot look into. -/
theorem deserialise_of_neither (default_from : Option Str) (hlacks : ¬ Lacks ms)
    (hhas : ∀ body to_addr, ¬ Has ms body to_addr) :
    deserialise ms default_from = .error .typeError := by
  obtain ⟨context, hcontext⟩ := Option.ne_none_iff_exists'.1 fun h => hlacks (.context h)
  obtain ⟨turn, hturn⟩ := Option.ne_none_iff_exists'.1 fun h => hlacks (.turn h)
  obtain ⟨to_addr, hto⟩ := Option.ne_none_iff_exists'.1 fun h => hlacks (.to_addr h)
  rw [deserialise_of_keys hcontext hturn hto]
  by_cases htext : ∃ text, itemOf "text" turn = .ok text
  · obtain ⟨text, htext⟩ := htext
    rw [look_of_item htext]
    refine look_of_unreadable (fun h => hlacks (.body hturn htext h)) fun body hbody => ?_
    exact hhas body to_addr ⟨⟨context, hcontext⟩, ⟨turn, text, hturn, htext, hbody⟩, hto⟩
  · exact look_of_unreadable (fun h => hlacks (.text hturn h)) fun text h => htext ⟨text, h⟩

/-- A message with an address, or with something to reply to. -/
theorem deserialise_of_addressed (default_from : Option Str) (h : Has ms body to_addr)
    (haddressed : (to_addr.isNone && (ms.getD (str "reply_to") (.string [])).isNone) = false) :
    ∃ tom, deserialise ms default_from = .ok tom ∧ tom.channel_data = [] := by
  rw [deserialise_of_has default_from h]
  unfold create
  rw [dif_pos haddressed]
  exact ⟨_, rfl, rfl⟩

/-- A body without an address and without a message that it replies to is refused. -/
theorem deserialise_of_not_addressed (default_from : Option Str) (h : Has ms body to_addr)
    (haddressed : (to_addr.isNone && (ms.getD (str "reply_to") (.string [])).isNone) = true) :
    ∃ text, deserialise ms default_from = .error (apiUsageError text) := by
  rw [deserialise_of_has default_from h]
  unfold create
  rw [dif_neg (by rw [haddressed]; exact Bool.noConfusion)]
  exact ⟨_, rfl⟩

end TurnOutboundMessage

namespace TurnChannelsApi

open TurnOutboundMessage (Lacks Has)

/-! ## What is promised -/

/-- What the endpoint takes from its libraries. -/
structure RequestLibrary extends Library where
  /-- `request.get_data(as_text=True)`, for a body of these octets, if it can be decoded. -/
  asText : Bytes → Option Str
  /-- It is decoded as UTF-8. -/
  utf8Encode_asText : ∀ {bs : Bytes} {s : Str}, asText bs = some s → Codecs.utf8Encode s = some bs

variable (lib : RequestLibrary) (config : TurnChannelsApiConfig) (env : ℕ → Reading)
  (w : TurnChannelsApi) (raw : RawRequest)

/-- The signature of a request is the base64 of the HMAC of its body. -/
def SignsBody : Prop :=
  ∃ key, Codecs.utf8Encode config.turn_hmac_secret = some key ∧
    raw.signature = Base64.b64encode (lib.hmacSha256 key raw.body)

/-- A request is answered, or fails with an `ApiError` and leaves no message behind. -/
structure FailsCleanly (o : Outcome PyExc TurnChannelsApi Json) : Prop where
  /-- Without the signature of its body it has no effect at all. -/
  unsigned : ¬ SignsBody lib config raw → (∃ e, o.result = .error e ∧ IsApiError e) ∧ o.state = w
  signed : SignsBody lib config raw →
    (∃ m, o.result = .ok (turnOutboundFromMsg m) ∧ o.state.published = w.published ++ [m]) ∨
      ∃ e, o.result = .error e ∧ IsApiError e
  clean : ∀ e, o.result = .error e → o.state.published = w.published ∧
    o.state.message_cache.outbounds = w.message_cache.outbounds

/-- The JSON bodies that the endpoint can read, and the errors of those that are not JSON. -/
inductive Readable : Except PyExc Json → Prop where
  | invalid {e : PyExc} (h : IsApiError (jsonDecodeError e)) : Readable (.error e)
  /-- The worker is to find the inbound message. -/
  | alone {ms : Json.Members} (h : noReplyTo ms = true)
    (hto : ∃ to_addr, ms.get? (str "to") = some to_addr)
    (hsteady : w.message_cache.inbounds.Steady env)
    (hread : Lacks ms ∨ ∃ body to_addr, Has ms body to_addr) : Readable (.ok (.object ms))
  /-- The request names an inbound message, and is refused before that matters. -/
  | named {ms : Json.Members} (h : noReplyTo ms = false)
    (hread : Lacks ms ∨ ∃ body to_addr, Has ms body to_addr ∧
      (to_addr.isNone && (ms.getD (str "reply_to") (.string [])).isNone) = true) :
    Readable (.ok (.object ms))

/-- The requests that are answered, or fail with an `ApiError`. -/
structure Answerable : Prop where
  decodes : ∃ data, lib.asText raw.body = some data
  secret : ∃ key, Codecs.utf8Encode config.turn_hmac_secret = some key
  unsigned : ¬ SignsBody lib config raw → ∀ c ∈ raw.signature, c.val < 128
  signed : SignsBody lib config raw → ∀ data, lib.asText raw.body = some data →
    Readable env w (lib.loads data)

/-! ## What a request leaves alone -/

variable {lib config env w raw} {ms : Json.Members}

/-- No message was published or stored. -/
def Untouched (w w' : TurnChannelsApi) : Prop :=
  w'.published = w.published ∧ w'.message_cache.outbounds = w.message_cache.outbounds

/-- The look-up touches the inbound messages only. -/
theorem untouched_findInbound (ms : Json.Members) (env : ℕ → Reading) (w : TurnChannelsApi) :
    Untouched w ((findInbound ms).run env w).state := by
  have hkeeps : Keeps (fun _ => True) (Untouched w) (findInbound ms) := by
    unfold findInbound
    split_ifs
    · refine keeps_bind (keeps_ofExcept _) fun to_addr => keeps_bind ?_ fun _ => keeps_pure _
      have hcache : Keeps (fun _ => True)
          (fun c : MemoryMessageCache => c.outbounds = w.message_cache.outbounds)
          (MemoryMessageCache.fetchLastInboundByFromAddress to_addr) :=
        keeps_bind (keeps_on_frame fun _ _ h => h) fun _ => keeps_pure _
      exact fun env s _ hs => ⟨hs.1, hcache env s.message_cache (fun _ _ => trivial) hs.2⟩
    · exact keeps_pure _
  exact hkeeps env w (fun _ _ => trivial) ⟨rfl, rfl⟩

/-- A message that was built is sent, and so nothing was done if sending it raises. -/
theorem state_sendOutbound_of_error {tom : TurnOutboundMessage} {inbound : Option Message}
    {e : PyExc}
    (h : ((sendOutbound lib.toLibrary config tom inbound).run env w).result = .error e) :
    ((sendOutbound lib.toLibrary config tom inbound).run env w).state = w := by
  have hbuild : ∃ r, (buildOutbound lib.toLibrary config tom inbound).run env w = ⟨r, 1, w⟩ := by
    unfold buildOutbound
    rw [run_read_bind]
    cases inbound with
    | none => exact ⟨_, rfl⟩
    | some m => exact ⟨_, rfl⟩
  obtain ⟨r, hr⟩ := hbuild
  cases r with
  | ok m =>
    rw [run_sendOutbound lib.toLibrary config hr] at h
    cases h
  | error e =>
    unfold sendOutbound
    rw [run_bind_error hr]

/-- A request that raises has published and stored nothing. -/
theorem untouched_of_error {req : SendRequest} {e : PyExc}
    (h : ((httpSendMessage lib.toLibrary config req).run env w).result = .error e) :
    Untouched w ((httpSendMessage lib.toLibrary config req).run env w).state := by
  unfold httpSendMessage at h ⊢
  -- Up to the look-up nothing is touched, and the look-up removes only what has expired.
  cases hbody : requestBody lib.toLibrary config req with
  | error e =>
    rw [run_ofExcept_error_bind]
    exact ⟨rfl, rfl⟩
  | ok body =>
    rw [hbody, run_ofExcept_ok_bind] at h
    rw [run_ofExcept_ok_bind]
    cases hmembers : members body with
    | error e =>
      rw [run_ofExcept_error_bind]
      exact ⟨rfl, rfl⟩
    | ok ms =>
      rw [hmembers, run_ofExcept_ok_bind] at h
      rw [run_ofExcept_ok_bind]
      have hfind := untouched_findInbound ms env w
      rcases hrun : (findInbound ms).run env w with ⟨r, k, w'⟩
      rw [hrun] at hfind
      cases r with
      | error e =>
        rw [run_bind_error hrun]
        exact hfind
      | ok found =>
        rw [run_bind_ok hrun] at h ⊢
        -- Sending publishes only at its end, after which nothing raises.
        have hstate : ((sendFound lib.toLibrary config found).run (later env k) w').state = w' := by
          unfold sendFound at h ⊢
          cases htom : TurnOutboundMessage.deserialise found.1 (some config.default_from_addr) with
          | error e => rw [run_ofExcept_error_bind]
          | ok tom =>
            rw [htom, run_ofExcept_ok_bind] at h
            rw [run_ofExcept_ok_bind]
            cases hinbound : found.2 with
            | none => rfl
            | some inbound =>
              rw [hinbound] at h
              exact state_sendOutbound_of_error h
        show Untouched w ((sendFound lib.toLibrary config found).run (later env k) w').state
        rw [hstate]
        exact hfind

/-! ## How a request ends -/

/-- A request publishes one message and returns, or raises an `ApiError`. -/
def EndsWell (w : TurnChannelsApi) (o : Outcome PyExc TurnChannelsApi Json) : Prop :=
  (∃ m, o.result = .ok (turnOutboundFromMsg m) ∧ o.state.published = w.published ++ [m]) ∨
    ∃ e, o.result = .error e ∧ IsApiError e

/-- A request that raises ends well exactly if it raises an `ApiError`. -/
theorem endsWell_of_error {o : Outcome PyExc TurnChannelsApi Json} {e : PyExc}
    (h : o.result = .error e) : EndsWell w o ↔ IsApiError e := by
  constructor
  · rintro (⟨m, hm, -⟩ | ⟨e', he, hapi⟩)
    · rw [h] at hm
      cases hm
    · obtain rfl := Except.error.inj (h.symm.trans he)
      exact hapi
  · exact fun hapi => .inr ⟨e, h, hapi⟩

/-- An `ApiUsageError` is an `ApiError`. -/
theorem isApiError_apiUsageError (text : String) : IsApiError (apiUsageError text) := ⟨_, _, rfl⟩

/-- A body that replies to nothing names no message. -/
theorem namesNone_of_noReplyTo (h : noReplyTo ms = true) : NamesNone ms := by
  unfold noReplyTo Json.Members.getD at h
  unfold NamesNone
  cases hget : ms.get? (str "reply_to") with
  | none => exact .inl rfl
  | some v =>
    rw [hget] at h
    cases v with
    | string s => exact .inr (by rw [show s = [] from of_decide_eq_true h])
    | _ => cases h

/-- What a message without channel data is built to is published. -/
theorem endsWell_sendOutbound {tom : TurnOutboundMessage} (hplain : tom.channel_data = [])
    (inbound : Option Message) (env : ℕ → Reading) (w : TurnChannelsApi) :
    EndsWell w ((sendOutbound lib.toLibrary config tom inbound).run env w) := by
  have hbuild : ∃ m,
      (buildOutbound lib.toLibrary config tom inbound).run env w = ⟨.ok m, 1, w⟩ := by
    unfold buildOutbound
    rw [run_read_bind]
    cases inbound with
    | none =>
      dsimp only
      rw [TurnOutboundMessage.toVumi_of_plain hplain]
      exact ⟨_, rfl⟩
    | some m =>
      dsimp only
      rw [TurnOutboundMessage.replyToVumi_of_plain hplain]
      exact ⟨_, rfl⟩
  obtain ⟨m, hm⟩ := hbuild
  rw [run_sendOutbound lib.toLibrary config hm]
  exact .inl ⟨m, rfl, rfl⟩

/-- The look-up leaves what `deserialise` requires as it is. -/
theorem lacks_congr {ms ms' : Json.Members}
    (h : ∀ name, name ≠ str "reply_to" → ms'.get? name = ms.get? name) :
    Lacks ms' ↔ Lacks ms := by
  have hone : ∀ {a b : Json.Members}, (∀ name, name ≠ str "reply_to" → b.get? name = a.get? name) →
      Lacks b → Lacks a := by
    intro a b hab hlacks
    cases hlacks with
    | context h => exact .context ((hab _ (by decide)).symm.trans h)
    | turn h => exact .turn ((hab _ (by decide)).symm.trans h)
    | to_addr h => exact .to_addr ((hab _ (by decide)).symm.trans h)
    | text hturn h => exact .text ((hab _ (by decide)).symm.trans hturn) h
    | body hturn htext h => exact .body ((hab _ (by decide)).symm.trans hturn) htext h
  exact ⟨hone h, hone fun name hname => (h name hname).symm⟩

/-- The message that is replied to is no part of what is required. -/
theorem has_congr {ms ms' : Json.Members} {body to_addr : Json}
    (h : ∀ name, name ≠ str "reply_to" → ms'.get? name = ms.get? name) :
    Has ms' body to_addr ↔ Has ms body to_addr := by
  have hcontext := h (str "context") (by decide)
  have hturn := h (str "turn") (by decide)
  have hto := h (str "to") (by decide)
  constructor
  · rintro ⟨⟨context, h₁⟩, ⟨turn, text, h₂, h₃⟩, h₄⟩
    exact ⟨⟨context, hcontext.symm.trans h₁⟩, ⟨turn, text, hturn.symm.trans h₂, h₃⟩,
      hto.symm.trans h₄⟩
  · rintro ⟨⟨context, h₁⟩, ⟨turn, text, h₂, h₃⟩, h₄⟩
    exact ⟨⟨context, hcontext.trans h₁⟩, ⟨turn, text, hturn.trans h₂, h₃⟩, hto.trans h₄⟩

/-- What `deserialise` raises goes through. -/
theorem result_sendFound_of_error {ms : Json.Members} {found : Option (Option Message)} {e : PyExc}
    (he : TurnOutboundMessage.deserialise ms (some config.default_from_addr) = .error e)
    (env : ℕ → Reading) (w : TurnChannelsApi) :
    ((sendFound lib.toLibrary config (ms, found)).run env w).result = .error e := by
  unfold sendFound
  rw [he]
  rfl

/-- A request that lacks what `deserialise` requires is refused with an `ApiError`. -/
theorem endsWell_sendFound_of_lacks {ms : Json.Members} (h : Lacks ms)
    (found : Option (Option Message)) (env : ℕ → Reading) (w : TurnChannelsApi) :
    EndsWell w ((sendFound lib.toLibrary config (ms, found)).run env w) := by
  obtain ⟨text, htext⟩ := TurnOutboundMessage.deserialise_of_lacks (some config.default_from_addr) h
  rw [endsWell_of_error (result_sendFound_of_error htext env w)]
  exact isApiError_apiUsageError _

/-- A request in which `deserialise` cannot look for what it requires raises something else. -/
theorem not_endsWell_sendFound_of_neither {ms : Json.Members} (hlacks : ¬ Lacks ms)
    (hhas : ¬ ∃ body to_addr, Has ms body to_addr) (found : Option (Option Message))
    (env : ℕ → Reading) (w : TurnChannelsApi) :
    ¬ EndsWell w ((sendFound lib.toLibrary config (ms, found)).run env w) := by
  have hraised := TurnOutboundMessage.deserialise_of_neither (some config.default_from_addr) hlacks
    fun body to_addr h => hhas ⟨body, to_addr, h⟩
  rw [endsWell_of_error (result_sendFound_of_error hraised env w)]
  exact not_isApiError fun _ _ => nofun

/-- Once the inbound message was looked up, a request ends well if `deserialise` can look for what
it requires. -/
theorem endsWell_sendFound {ms : Json.Members} {id : Str} {inbound : Option Message}
    (hreply : ms.getD (str "reply_to") (.string []) = .string id) (env : ℕ → Reading)
    (w : TurnChannelsApi) :
    EndsWell w ((sendFound lib.toLibrary config (ms, some inbound)).run env w) ↔
      Lacks ms ∨ ∃ body to_addr, Has ms body to_addr := by
  by_cases hlacks : Lacks ms
  · exact iff_of_true (endsWell_sendFound_of_lacks hlacks _ env w) (.inl hlacks)
  · by_cases hhas : ∃ body to_addr, Has ms body to_addr
    · refine iff_of_true ?_ (.inr hhas)
      obtain ⟨body, to_addr, hhas⟩ := hhas
      -- What it replies to is a text, so there is something to send it to.
      obtain ⟨tom, htom, hchannel⟩ := TurnOutboundMessage.deserialise_of_addressed
        (some config.default_from_addr) hhas (by rw [hreply]; exact Bool.and_false _)
      have hsend : (sendFound lib.toLibrary config (ms, some inbound)).run env w =
          (sendOutbound lib.toLibrary config tom inbound).run env w := by
        unfold sendFound
        rw [htom, run_ofExcept_ok_bind]
      rw [hsend]
      exact endsWell_sendOutbound hchannel inbound env w
    · refine iff_of_false (not_endsWell_sendFound_of_neither hlacks hhas _ env w) ?_
      rintro (h | h)
      · exact hlacks h
      · exact hhas h

/-- A request that names an inbound message ends well only if `deserialise` refuses it. -/
theorem endsWell_sendFound_named {ms : Json.Members} (env : ℕ → Reading) (w : TurnChannelsApi) :
    EndsWell w ((sendFound lib.toLibrary config (ms, none)).run env w) ↔
      Lacks ms ∨ ∃ body to_addr, Has ms body to_addr ∧
        (to_addr.isNone && (ms.getD (str "reply_to") (.string [])).isNone) = true := by
  by_cases hlacks : Lacks ms
  · exact iff_of_true (endsWell_sendFound_of_lacks hlacks _ env w) (.inl hlacks)
  · by_cases hhas : ∃ body to_addr, Has ms body to_addr
    · obtain ⟨body, to_addr, hhas⟩ := hhas
      cases haddressed : to_addr.isNone && (ms.getD (str "reply_to") (.string [])).isNone with
      | true =>
        obtain ⟨text, htext⟩ := TurnOutboundMessage.deserialise_of_not_addressed
          (some config.default_from_addr) hhas haddressed
        rw [endsWell_of_error (result_sendFound_of_error htext env w)]
        exact iff_of_true (isApiError_apiUsageError _) (.inr ⟨body, to_addr, hhas, haddressed⟩)
      | false =>
        -- The message is read, and then `inbound` has no value.
        obtain ⟨tom, htom, -⟩ := TurnOutboundMessage.deserialise_of_addressed
          (some config.default_from_addr) hhas haddressed
        have hunbound : ((sendFound lib.toLibrary config (ms, none)).run env w).result =
            .error .unboundLocalError := by
          unfold sendFound
          rw [htom]
          rfl
        rw [endsWell_of_error hunbound]
        refine iff_of_false (not_isApiError fun _ _ => nofun) ?_
        rintro (h | ⟨body', to_addr', h, hnone⟩)
        · exact hlacks h
        · obtain rfl := Option.some.inj (h.to_addr.symm.trans hhas.to_addr)
          rw [haddressed] at hnone
          cases hnone
    · refine iff_of_false (not_endsWell_sendFound_of_neither hlacks hhas _ env w) ?_
      rintro (h | ⟨body, to_addr, h, -⟩)
      · exact hlacks h
      · exact hhas ⟨body, to_addr, h⟩

/-- What `deserialise` makes of the members that were found, on a state where nothing was
published. -/
theorem endsWell_of_found {ms : Json.Members} {found : Json.Members × Option (Option Message)}
    {k : ℕ} {w' : TurnChannelsApi} (hrun : (findInbound ms).run env w = ⟨.ok found, k, w'⟩)
    (hpublished : w'.published = w.published) :
    EndsWell w ((findInbound ms >>= sendFound lib.toLibrary config).run env w) ↔
      EndsWell w' ((sendFound lib.toLibrary config found).run (later env k) w') := by
  rw [run_bind_ok hrun]
  unfold EndsWell
  rw [hpublished]

/-- A body that replies to nothing is readable if it has what is required and nothing of the cache
expires meanwhile, or if it lacks a key. -/
theorem readable_iff_of_noReplyTo (h : noReplyTo ms = true) :
    Readable env w (.ok (.object ms)) ↔ (∃ to_addr, ms.get? (str "to") = some to_addr) ∧
      w.message_cache.inbounds.Steady env ∧
      (Lacks ms ∨ ∃ body to_addr, Has ms body to_addr) := by
  constructor
  · intro hread
    cases hread with
    | alone _ hto hsteady hread => exact ⟨hto, hsteady, hread⟩
    | named h' => exact absurd (h.symm.trans h') (by decide)
  · rintro ⟨hto, hsteady, hread⟩
    exact .alone h hto hsteady hread

/-- Indexing with a missing key raises `KeyError`. -/
theorem itemOf_of_absent {key : String} (h : ms.get? (str key) = none) :
    itemOf key (.object ms) = .error .keyError := by
  rw [itemOf]
  simp only [h]

/-- A request that names no inbound message, as it goes on from the look-up of the last one. -/
theorem endsWell_of_noReplyTo (hclock : Clocked env)
    (hdated : w.message_cache.inbounds.Dated (env 0).time) (hreply : noReplyTo ms = true) :
    EndsWell w ((findInbound ms >>= sendFound lib.toLibrary config).run env w) ↔
      Readable env w (.ok (.object ms)) := by
  have hnone := namesNone_of_noReplyTo hreply
  rw [readable_iff_of_noReplyTo hreply]
  cases hto : Json.Members.get? ms (str "to") with
  | none =>
    -- `to` is looked up before it is checked for.
    have hraises : ((findInbound ms).run env w).result = .error .keyError := by
      unfold findInbound
      rw [if_pos hreply, itemOf_of_absent hto]
      rfl
    rw [endsWell_of_error (by rw [run_bind, hraises])]
    refine iff_of_false (not_isApiError fun _ _ => nofun) ?_
    rintro ⟨⟨_, h⟩, -⟩
    cases h
  | some to_addr =>
    by_cases hsteady : w.message_cache.inbounds.Steady env
    · obtain ⟨ms', id, k, w', hrun, hpublished, hid, hother⟩ :=
        run_findInbound hclock hto hnone hdated hsteady
      rw [endsWell_of_found hrun hpublished, endsWell_sendFound hid, lacks_congr hother]
      simp only [has_congr hother]
      exact ⟨fun h => ⟨⟨_, rfl⟩, hsteady, h⟩, fun h => h.2.2⟩
    · have hraises := findInbound_of_not_steady hto hnone hdated hsteady
      rw [endsWell_of_error (by rw [run_bind, hraises])]
      exact iff_of_false (not_isApiError fun _ _ => nofun) fun h => hsteady h.2.1

/-- A request that names an inbound message is not looked up. -/
theorem endsWell_of_replyTo (hreply : noReplyTo ms = false) :
    EndsWell w ((findInbound ms >>= sendFound lib.toLibrary config).run env w) ↔
      Readable env w (.ok (.object ms)) := by
  have hrun : (findInbound ms).run env w = ⟨.ok (ms, none), 0, w⟩ := by
    unfold findInbound
    rw [hreply]
    rfl
  rw [endsWell_of_found hrun rfl, endsWell_sendFound_named]
  constructor
  · exact .named hreply
  · intro h
    cases h with
    | alone h => exact absurd (h.symm.trans hreply) (by decide)
    | named _ hread => exact hread

/-- A request whose signature was accepted ends well exactly if its body is readable. -/
theorem endsWell_iff {req : SendRequest} (hclock : Clocked env)
    (hdated : w.message_cache.inbounds.Dated (env 0).time)
    (hverify : verifyHmac lib.toLibrary config req = .ok ()) :
    EndsWell w ((httpSendMessage lib.toLibrary config req).run env w) ↔
      Readable env w (lib.loads req.data) := by
  have hbody : requestBody lib.toLibrary config req =
      (lib.loads req.data).mapError jsonDecodeError := by
    unfold requestBody
    rw [hverify]
    rfl
  unfold httpSendMessage
  rw [hbody]
  cases lib.loads req.data with
  | error e =>
    rw [endsWell_of_error rfl]
    exact ⟨.invalid, fun h => by cases h; assumption⟩
  | ok body =>
    have hok : (Except.ok body : Except PyExc Json).mapError jsonDecodeError = .ok body := rfl
    rw [hok, run_ofExcept_ok_bind]
    cases body with
    | object ms =>
      have hmembers : members (.object ms) = .ok ms := rfl
      rw [hmembers, run_ofExcept_ok_bind]
      cases hreply : noReplyTo ms with
      | false => exact endsWell_of_replyTo hreply
      | true => exact endsWell_of_noReplyTo hclock hdated hreply
    | _ =>
      -- Only an object has a method `get`.
      rw [endsWell_of_error rfl]
      exact iff_of_false (not_isApiError fun _ _ => nofun) nofun

/-! ## The signature -/

variable {key : Bytes} {data : Str}

/-- Signatures that are not ASCII cannot be compared. -/
theorem compareDigest_of_not_ascii {a b : Str} (h : ¬ ∀ c ∈ b, c.val < 128) :
    compareDigest a b = .error .typeError := by
  unfold compareDigest
  rw [if_neg]
  intro hall
  rw [List.all_append, Bool.and_eq_true, List.all_eq_true, List.all_eq_true] at hall
  exact h fun c hc => of_decide_eq_true (hall.2 c hc)

/-- Texts in ASCII are compared by `hmac.compare_digest`. -/
theorem compareDigest_of_ascii {a b : Str} (ha : ∀ c ∈ a, c.val < 128) (hb : ∀ c ∈ b, c.val < 128) :
    compareDigest a b = .ok (decide (a = b)) := by
  unfold compareDigest
  rw [if_pos]
  rw [List.all_append, Bool.and_eq_true, List.all_eq_true, List.all_eq_true]
  exact ⟨fun c hc => decide_eq_true (ha c hc), fun c hc => decide_eq_true (hb c hc)⟩

/-- What the check does once the secret was encoded. -/
theorem verifyHmac_eq (hsecret : config.turn_hmac_secret ≠ [])
    (hkey : Codecs.utf8Encode config.turn_hmac_secret = some key)
    (hdata : lib.asText raw.body = some data) :
    verifyHmac lib.toLibrary config ⟨data, raw.signature⟩ =
      (compareDigest (Base64.b64encode (lib.hmacSha256 key raw.body)) raw.signature >>= fun same =>
        if same = true then .ok () else .error (.apiError "SignatureMismatchError" [])) := by
  unfold verifyHmac encodeUtf8
  rw [if_neg hsecret, hkey, lib.utf8Encode_asText hdata]
  rfl

/-- A request with the signature of its body passes. -/
theorem verifyHmac_of_signsBody (hsecret : config.turn_hmac_secret ≠ [])
    (hdata : lib.asText raw.body = some data) (h : SignsBody lib config raw) :
    verifyHmac lib.toLibrary config ⟨data, raw.signature⟩ = .ok () := by
  obtain ⟨key, hkey, hsigned⟩ := h
  rw [verifyHmac_eq hsecret hkey hdata, hsigned,
    compareDigest_of_ascii (Base64.b64encode_ascii _) (Base64.b64encode_ascii _),
    decide_eq_true rfl]
  rfl

/-- What the check raises, the request raises; no exception of it is a `JSONDecodeError`. -/
theorem httpSendMessage_of_verify_error (env : ℕ → Reading) (w : TurnChannelsApi)
    {req : SendRequest} {e : PyExc}
    (h : verifyHmac lib.toLibrary config req = .error e) (he : jsonDecodeError e = e) :
    ((httpSendMessage lib.toLibrary config req).run env w).result = .error e ∧
      ((httpSendMessage lib.toLibrary config req).run env w).state = w := by
  have hbody : requestBody lib.toLibrary config req = .error e := by
    unfold requestBody
    rw [h]
    exact congrArg Except.error he
  unfold httpSendMessage
  rw [hbody, run_ofExcept_error_bind]
  exact ⟨rfl, rfl⟩

/-- A request without the signature of its body fails, with no effect. -/
theorem httpSendMessage_of_not_signsBody (env : ℕ → Reading) (w : TurnChannelsApi)
    (hsecret : config.turn_hmac_secret ≠ [])
    (hkey : Codecs.utf8Encode config.turn_hmac_secret = some key)
    (hdata : lib.asText raw.body = some data) (h : ¬ SignsBody lib config raw) :
    ∃ e, ((httpSendMessage lib.toLibrary config ⟨data, raw.signature⟩).run env w).result =
        .error e ∧
      ((httpSendMessage lib.toLibrary config ⟨data, raw.signature⟩).run env w).state = w ∧
      (IsApiError e ↔ ∀ c ∈ raw.signature, c.val < 128) := by
  have hverify := verifyHmac_eq hsecret hkey hdata
  by_cases hascii : ∀ c ∈ raw.signature, c.val < 128
  · rw [compareDigest_of_ascii (Base64.b64encode_ascii _) hascii,
      decide_eq_false fun heq => h ⟨key, hkey, heq.symm⟩] at hverify
    obtain ⟨hresult, hstate⟩ := httpSendMessage_of_verify_error env w hverify rfl
    exact ⟨_, hresult, hstate, iff_of_true ⟨_, _, rfl⟩ hascii⟩
  · rw [compareDigest_of_not_ascii hascii] at hverify
    obtain ⟨hresult, hstate⟩ := httpSendMessage_of_verify_error env w hverify rfl
    exact ⟨_, hresult, hstate, iff_of_false (not_isApiError fun _ _ => nofun) hascii⟩

/-! ## Which requests fail cleanly -/

/-- A request that raises another exception does not fail cleanly, signed or not. -/
theorem not_failsCleanly_of_error {o : Outcome PyExc TurnChannelsApi Json} {e : PyExc}
    (h : o.result = .error e) (he : ¬ IsApiError e) : ¬ FailsCleanly lib config w raw o := by
  intro hclean
  by_cases hsigned : SignsBody lib config raw
  · exact he ((endsWell_of_error h).1 (hclean.signed hsigned))
  · obtain ⟨⟨e', he', hapi⟩, -⟩ := hclean.unsigned hsigned
    obtain rfl := Except.error.inj (h.symm.trans he')
    exact he hapi

/-- A request whose body is a text is handled with it. -/
theorem httpSendRaw_of_data (hdata : lib.asText raw.body = some data) :
    httpSendRaw lib.toLibrary config lib.asText raw =
      httpSendMessage lib.toLibrary config ⟨data, raw.signature⟩ := by
  unfold httpSendRaw
  rw [hdata]

/-- A request that fails cleanly has a body that is text. -/
theorem FailsCleanly.exists_data
    (h : FailsCleanly lib config w raw
      ((httpSendRaw lib.toLibrary config lib.asText raw).run env w)) :
    ∃ data, lib.asText raw.body = some data := by
  by_contra hnone
  have hdata : lib.asText raw.body = none := Option.not_isSome_iff_eq_none.1 fun h =>
    hnone (Option.isSome_iff_exists.1 h)
  refine not_failsCleanly_of_error (e := .unicodeDecodeError) ?_
    (not_isApiError fun _ _ => nofun) h
  unfold httpSendRaw
  rw [hdata]
  rfl

/-- If a secret is configured, it can be encoded. -/
theorem FailsCleanly.exists_key {data : Str} (hsecret : config.turn_hmac_secret ≠ [])
    (h : FailsCleanly lib config w raw
      ((httpSendMessage lib.toLibrary config ⟨data, raw.signature⟩).run env w)) :
    ∃ key, Codecs.utf8Encode config.turn_hmac_secret = some key := by
  by_contra hnone
  have hkey : Codecs.utf8Encode config.turn_hmac_secret = none :=
    Option.not_isSome_iff_eq_none.1 fun h => hnone (Option.isSome_iff_exists.1 h)
  have hverify : verifyHmac lib.toLibrary config ⟨data, raw.signature⟩ =
      .error .unicodeEncodeError := by
    unfold verifyHmac encodeUtf8
    rw [if_neg hsecret, hkey]
    rfl
  exact not_failsCleanly_of_error (httpSendMessage_of_verify_error env w hverify rfl).1
    (not_isApiError fun _ _ => nofun) h

/-- On a dated cache, the requests that fail cleanly are those that are answered, or fail with an
`ApiError`. -/
theorem failsCleanly_iff_of_dated (hclock : Clocked env)
    (hdated : w.message_cache.inbounds.Dated (env 0).time)
    (hsecret : config.turn_hmac_secret ≠ []) :
    FailsCleanly lib config w raw ((httpSendRaw lib.toLibrary config lib.asText raw).run env w) ↔
      Answerable lib config env w raw := by
  constructor
  · intro hclean
    obtain ⟨data, hdata⟩ := hclean.exists_data
    rw [httpSendRaw_of_data hdata] at hclean
    obtain ⟨key, hkey⟩ := hclean.exists_key hsecret
    refine ⟨⟨data, hdata⟩, ⟨key, hkey⟩, fun hunsigned => ?_, fun hsigned data' hdata' => ?_⟩
    · -- A wrong signature is answered with an `ApiError` only if it can be compared at all.
      obtain ⟨e, he, -, hapi⟩ := httpSendMessage_of_not_signsBody env w hsecret hkey
        hdata hunsigned
      by_contra hascii
      exact not_failsCleanly_of_error he (fun h => hascii (hapi.1 h)) hclean
    · obtain rfl := Option.some.inj (hdata.symm.trans hdata')
      exact (endsWell_iff hclock hdated (verifyHmac_of_signsBody hsecret hdata hsigned)).1
        (hclean.signed hsigned)
  · rintro ⟨⟨data, hdata⟩, ⟨key, hkey⟩, hunsigned, hsigned⟩
    rw [httpSendRaw_of_data hdata]
    refine ⟨fun h => ?_, fun h => ?_, fun e he => untouched_of_error he⟩
    · obtain ⟨e, he, hstate, hapi⟩ := httpSendMessage_of_not_signsBody env w hsecret
        hkey hdata h
      exact ⟨⟨e, he, hapi.2 (hunsigned h)⟩, hstate⟩
    · exact (endsWell_iff hclock hdated (verifyHmac_of_signsBody hsecret hdata h)).2
        (hsigned h data hdata)

/-- After every history of the cache, the requests that fail cleanly are those that are answered, or
fail with an `ApiError`. -/
theorem failsCleanly_iff {timeout : ℚ} {uses : List CacheUse} {k : ℕ} (hclock : Clocked env)
    (hrun : (CacheUse.history uses).run env (MemoryMessageCache.new timeout) =
      ⟨.ok (), k, w.message_cache⟩) (hsecret : config.turn_hmac_secret ≠ []) :
    FailsCleanly lib config w raw
        ((httpSendRaw lib.toLibrary config lib.asText raw).run (later env k) w) ↔
      Answerable lib config (later env k) w raw := by
  have hnew : CacheUse.DatedAt (env 0) (MemoryMessageCache.new timeout) :=
    ⟨TimeoutDict.dated_new _ _, TimeoutDict.dated_new _ _⟩
  have hdated := CacheUse.datedAt_history uses env _ hclock hnew
  rw [hrun] at hdated
  exact failsCleanly_iff_of_dated (hclock.later k) hdated.2 hsecret

/-! ## A request without an address -/

/-- A body of ASCII octets. -/
def asciiText (bs : Bytes) : Option Str :=
  if bs.all (fun b => b < 128) = true then some (bs.map ofByte) else none

/-- ASCII octets are the UTF-8 of the text that they stand for. -/
theorem utf8Encode_asciiText {bs : Bytes} {s : Str} (h : asciiText bs = some s) :
    Codecs.utf8Encode s = some bs := by
  unfold asciiText at h
  split_ifs at h with hall
  obtain rfl := Option.some.inj h
  have hmap : (bs.map ofByte).mapM Codecs.utf8Enc = some (bs.map fun b => [b]) := by
    clear h
    induction bs with
    | nil => rfl
    | cons b bs ih =>
      rw [List.all_cons, Bool.and_eq_true] at hall
      have hlt : (ofByte b).val < 0x80 := of_decide_eq_true hall.1
      have hb : Codecs.utf8Enc (ofByte b) = some [b] := by
        unfold Codecs.utf8Enc
        dsimp only
        rw [if_pos hlt, ofByte_val, UInt8.ofNat_toNat]
      rw [List.map_cons, List.mapM_cons, hb, ih hall.2]
      rfl
  unfold Codecs.utf8Encode
  rw [hmap]
  exact congrArg some (List.flatMap_singleton' bs)

/-- The HMAC of the body under the secret `secret`. -/
def emptyDigest : Bytes :=
  [119, 50, 89, 2, 202, 202, 129, 45, 194, 89, 115, 58, 172, 208, 70, 183, 56, 23, 55, 44, 119,
    123, 141, 149, 180, 2, 100, 116, 116, 81, 110, 19]

/-- The libraries, as they behave on the request. -/
def emptyLibrary : RequestLibrary where
  toLibrary := .onRequest emptyDigest (.object [])
  asText := asciiText
  utf8Encode_asText := utf8Encode_asciiText

/-- An empty object, signed with the secret `secret`. -/
def emptyRequest : RawRequest where
  body := (str "{}").map toByte
  signature := str "dzJZAsrKgS3CWXM6rNBGtzgXNyx3e42VtAJkdHRRbhM="

/-- A worker that has not done anything. -/
def idleWorker : TurnChannelsApi := ⟨MemoryMessageCache.new 3600, [], []⟩

/-- The empty request has the signature of its body. -/
theorem signsBody_emptyRequest : SignsBody emptyLibrary namingConfig emptyRequest := by
  obtain ⟨key, hkey⟩ := Option.isSome_iff_exists.1
    (show (Codecs.utf8Encode (str "secret")).isSome = true by decide +kernel)
  have hsig : emptyRequest.signature = Base64.b64encode emptyDigest := by decide +kernel
  exact ⟨key, hkey, hsig⟩

/-- It is signed, and ends in a `KeyError`. -/
theorem empty_not_failsCleanly :
    SignsBody emptyLibrary namingConfig emptyRequest ∧
      ((httpSendRaw emptyLibrary.toLibrary namingConfig emptyLibrary.asText emptyRequest).run
        stillEnv idleWorker).result = .error .keyError ∧
      ¬ FailsCleanly emptyLibrary namingConfig idleWorker emptyRequest
        ((httpSendRaw emptyLibrary.toLibrary namingConfig emptyLibrary.asText emptyRequest).run
          stillEnv idleWorker) := by
  have hdata : emptyLibrary.asText emptyRequest.body = some (str "\x7b\x7d") := by decide +kernel
  -- The body is signed and read; what is missing is `to`, which is asked for without a check.
  have hverify := verifyHmac_of_signsBody (by decide) hdata signsBody_emptyRequest
  have hbody : requestBody emptyLibrary.toLibrary namingConfig
      ⟨str "\x7b\x7d", emptyRequest.signature⟩ = .ok (.object []) := by
    unfold requestBody
    rw [hverify]
    rfl
  have hresult : ((httpSendRaw emptyLibrary.toLibrary namingConfig emptyLibrary.asText
      emptyRequest).run stillEnv idleWorker).result = .error .keyError := by
    rw [httpSendRaw_of_data hdata]
    unfold httpSendMessage
    rw [hbody]
    rfl
  exact ⟨signsBody_emptyRequest, hresult,
    not_failsCleanly_of_error hresult (not_isApiError fun _ _ => nofun)⟩

/-- The HMAC of the request under the secret. -/
def freshDigest : Bytes :=
  [38, 235, 149, 44, 193, 52, 141, 34, 87, 123, 175, 168, 239, 142, 27, 63, 185, 243,
    219, 139, 68, 28, 249, 109, 66, 106, 180, 150, 189, 61, 164, 138]

/-- The libraries, as they behave on the request. -/
def freshLibrary : RequestLibrary where
  toLibrary := .onRequest freshDigest (.object latestBody)
  asText := asciiText
  utf8Encode_asText := utf8Encode_asciiText

/-- The request, signed with the secret `secret`. -/
def freshRequest : RawRequest where
  body := (str "\x7b\"to\": \"27820000000\", \"context\": \x7b\x7d, " ++
    str "\"turn\": \x7b\"text\": \x7b\"body\": \"hi\"\x7d\x7d\x7d").map toByte
  signature := str "JuuVLME0jSJXe6+o744bP7nz24tEHPltQmq0lr09pIo="

/-- It is answered, in an idle worker. -/
theorem fresh_failsCleanly :
    FailsCleanly freshLibrary namingConfig idleWorker freshRequest
      ((httpSendRaw freshLibrary.toLibrary namingConfig freshLibrary.asText freshRequest).run
        (later stillEnv 0) idleWorker) := by
  have hrun : (CacheUse.history []).run stillEnv (MemoryMessageCache.new 3600) =
      ⟨.ok (), 0, idleWorker.message_cache⟩ := rfl
  refine (failsCleanly_iff (fun _ _ _ => le_refl _) hrun (by decide)).2 ⟨?_, ?_, ?_, ?_⟩
  · exact Option.isSome_iff_exists.1
      (show (freshLibrary.asText freshRequest.body).isSome = true by decide +kernel)
  · exact Option.isSome_iff_exists.1
      (show (Codecs.utf8Encode namingConfig.turn_hmac_secret).isSome = true by decide +kernel)
  · have hascii : freshRequest.signature.all (fun c => decide (c.val < 128)) = true := by
      decide +kernel
    exact fun _ c hc => of_decide_eq_true (List.all_eq_true.1 hascii c hc)
  · intro _ data _
    have hsteady : idleWorker.message_cache.inbounds.Steady (later stillEnv 0) := by decide
    have hhas : Has latestBody (.string (str "hi")) (.string (str "27820000000")) :=
      ⟨⟨_, rfl⟩, ⟨_, _, rfl, rfl, rfl⟩, rfl⟩
    exact .alone (show noReplyTo latestBody = true from rfl) ⟨_, rfl⟩ hsteady (.inr ⟨_, _, hhas⟩)

end TurnChannelsApi

end Vumi2
