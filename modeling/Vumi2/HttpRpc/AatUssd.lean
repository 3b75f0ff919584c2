import Vumi2.HttpRpc.Requests
import Vumi2.Lib.UrlEncoding
import Vumi2.Lib.Xml
import Vumi2.ReplyRoutes

/-!
# USSD sessions over HTTP

A USSD gateway asks the AAT USSD transport for every input of its users, and the transport keeps
nothing from one request to the next. The service code that a user has dialled stands in the first
request of a session alone. The transport gives it to the gateway with every answer, in the callback
URL for the next request, and so has it back.

`sessions_kept` says that this does what a table of the open sessions would do: over any requests of
any users, in any order, every message has the service code of its session, and is a new one or a
later one as it is in the table. A session ends with a reply that closes it, and with one that the
gateway cannot read: `read_body` says which these are.
-/

namespace Vumi2

open Effect Eff Text

namespace AatUssdTransport

/-- `AatUssdTransportConfig`, as far as the handlers read it. -/
structure Config where
  transport_name : Str := str "http_rpc"
  web_path : Str := str "/http_rpc"
  base_url : Str := str "http://localhost"

/-! ## The handlers -/

/-- `values.get(name)`. -/
def arg (values : List (Str × Str)) (name : Str) : Option Str :=
  (values.find? fun value => value.1 = name).map Prod.snd

/-- `EXPECTED_FIELDS`. -/
def expectedFields : List Str := [str "msisdn", str "provider"]

/-- `sorted(missing_fields)`. -/
def missingFields (values : List (Str × Str)) : List Str :=
  (expectedFields.filter fun name => (arg values name).isNone) ++
    if (arg values (str "to_addr")).isNone && (arg values (str "request")).isNone then
      [str "request"]
    else []

/-- A text, or `None`. -/
def orNull (s : Option Str) : Json :=
  match s with
  | some s => .string s
  | none => .null

/-- The message of a request: the fields that the transport sets. -/
def inboundMessage (config : Config) (message_id : Str) (values : List (Str × Str)) (to_addr : Str)
    (session_event : Session) (content : Option Str) (from_addr provider : Str) (r : Reading) :
    Message :=
  { Message.create to_addr from_addr config.transport_name .ussd r with
    message_id := message_id
    session_event := session_event
    content := orNull content
    from_addr_type := some .msisdn
    helper_metadata := [(str "session_id", orNull (arg values (str "ussdSessionId")))]
    transport_metadata := [(str "aat_ussd", .object [(str "provider", .string provider),
      (str "ussd_session_id", orNull (arg values (str "ussdSessionId")))])]
    provider := some provider }

/-- The response to a request that lacks some fields. -/
def missingResponse (missing_fields : List Str) : HttpResponse :=
  ⟨.value (.object [(str "missing_parameter", .array (missing_fields.map .string))]), 400, []⟩

/-- `handle_raw_inbound_message`: the message that it publishes, or the response that it finishes
the request with. -/
def handleRawInboundMessage (config : Config) (message_id : Str) (request : HttpRequest)
    (r : Reading) : Except HttpResponse Message :=
  match arg request.args (str "msisdn"), arg request.args (str "provider"),
      arg request.args (str "to_addr"), arg request.args (str "request") with
  | some from_addr, some provider, some to_addr, content =>
    .ok (inboundMessage config message_id request.args to_addr .resume content from_addr provider r)
  | some from_addr, some provider, none, some code =>
    .ok (inboundMessage config message_id request.args code .new (some code) from_addr provider r)
  | _, _, _, _ => .error (missingResponse (missingFields request.args))

/-- A request is turned away if it lacks a field, with the names of all that it lacks. -/
theorem handleRawInboundMessage_eq_error {config : Config} {message_id : Str}
    {request : HttpRequest}
    {r : Reading} {response : HttpResponse} :
    handleRawInboundMessage config message_id request r = .error response ↔
      missingFields request.args ≠ [] ∧
        response = missingResponse (missingFields request.args) := by
  unfold handleRawInboundMessage missingFields expectedFields
  cases hmsisdn : arg request.args (str "msisdn") <;>
    cases hprovider : arg request.args (str "provider") <;>
      cases hto : arg request.args (str "to_addr") <;>
        cases hrequest : arg request.args (str "request") <;>
          simp [hmsisdn, hprovider] <;> exact eq_comm

/-- The document that `generate_body` builds. -/
def document (reply callback : Str) (session_event : Session) : Xml.Element :=
  .mk (str "request") [] [] (.mk (str "headertext") [] reply [] ::
    if session_event = .close then []
    else [.mk (str "options") [] [] [.mk (str "option") [(str "command", str "1"),
      (str "order", str "1"), (str "callback", callback), (str "display", str "false")] [] []]])

/-- `generate_body`. -/
def generateBody (reply : Json) (callback : Str) (session_event : Session) : Except PyExc Bytes :=
  match reply with
  | .string reply => .ok (Xml.tostring (document reply callback session_event))
  | _ => .error .typeError

section Urls

variable (urljoin : Str → Str → Str)

/-- `urljoin(self.config.base_url, self.config.web_path)`. -/
def Config.url (config : Config) : Str := urljoin config.base_url config.web_path

/-- `get_callback_url`. -/
def getCallbackUrl (config : Config) (to_addr : Str) : Except PyExc Str :=
  match UrlEncoding.urlencode [(str "to_addr", to_addr)] with
  | some query => .ok (config.url urljoin ++ ofChar '?' :: query)
  | none => .error .unicodeEncodeError

/-- The body that `handle_outbound_message` makes of a message. -/
def body (config : Config) (message : Message) : Except PyExc Bytes :=
  match getCallbackUrl urljoin config message.from_addr with
  | .ok callback_url => generateBody message.content callback_url message.session_event
  | .error e => .error e

end Urls

/-! ## The gateway -/

/-- `request.args` of a request to a URL. -/
def argsOf (url : Str) : Option (List (Str × Str)) :=
  UrlEncoding.parseQsl ((url.dropWhile fun c => c ≠ ofChar '?').drop 1)

/-- The callback URL of an option. -/
def callbackOf : Xml.Event → Option Str
  | .start tag attrib => if tag = str "option" then arg attrib (str "callback") else none
  | _ => none

/-- The callback URL in a document. -/
def callbackIn (events : List Xml.Event) : Option Str := events.findSome? callbackOf

/-- An input of a user, and what the application answers. -/
structure Turn where
  msisdn : Str
  provider : Str
  /-- What the user enters: the service code, or an answer. -/
  input : Str
  /-- The other parameters. -/
  extra : List (Str × Str)
  message_id : Str
  reading : Reading
  reply : Str
  session_event : Session
  replyReading : Reading

namespace Turn

/-- The parameters that the gateway gives. -/
def params (t : Turn) : List (Str × Str) :=
  (str "msisdn", t.msisdn) :: (str "provider", t.provider) :: (str "request", t.input) :: t.extra

/-- The answer of the application to a message. -/
def replyTo (t : Turn) (message : Message) : Message :=
  message.replyFields (.string t.reply) t.session_event t.replyReading

/-- What the gateway can ask: texts that have an encoding, under names that are its own. -/
structure Valid (t : Turn) : Prop where
  encoded : (UrlEncoding.urlencode t.params).isSome = true
  own : ∀ p ∈ t.extra, p.1 ≠ str "to_addr"
  message_id : t.message_id ≠ []

end Turn

section Sessions

variable (urljoin : Str → Str → Str) (config : Config)

/-- Where the gateway asks: the URL of the service, or the callback URL of the session. -/
def requestUrl (callback : Option Str) (query : Str) : Str :=
  match callback with
  | none => config.url urljoin ++ ofChar '?' :: query
  | some callback_url => callback_url ++ ofChar '&' :: query

/-- The message that the transport publishes for a request of the gateway. -/
def received (callback : Option Str) (t : Turn) : Option Message :=
  (UrlEncoding.urlencode t.params).bind fun query =>
    (argsOf (requestUrl urljoin config callback query)).bind fun values =>
      (handleRawInboundMessage config t.message_id ⟨str "GET", [], values, []⟩ t.reading).toOption

/-- The callback URL that the gateway has from the response. -/
def callbackFrom (reply : Message) : Option Str :=
  match (Replying.aatUssd (body urljoin config)).plan reply with
  | .reply ⟨.bytes bs, _, _⟩ => (Xml.read bs).bind callbackIn
  | _ => none

/-- The messages for the inputs of all users, each with the callback URL of their session. -/
def sessions (callbacks : Str → Option Str) : List Turn → Option (List Message)
  | [] => some []
  | t :: ts =>
    (received urljoin config (callbacks t.msisdn) t).bind fun message =>
      (sessions (Function.update callbacks t.msisdn
        (callbackFrom urljoin config (t.replyTo message))) ts).map fun messages =>
          message :: messages

end Sessions

/-! ## Sessions as a table would keep them -/

/-- Whether the gateway can read the reply, and goes on with the session. -/
def Turn.goesOn (t : Turn) : Bool :=
  !t.reply.isEmpty && t.reply.all Xml.isXmlChar && decide (t.session_event ≠ .close)

/-- The service code of the session after a turn. -/
def Turn.codeAfter (t : Turn) (code : Option Str) : Option Str :=
  if t.goesOn = true then some (code.getD t.input) else none

/-- A message with the service code of its session. -/
structure Carries (code : Option Str) (t : Turn) (message : Message) : Prop where
  to_addr : message.to_addr = code.getD t.input
  session_event : message.session_event = if code.isSome = true then .resume else .new
  content : message.content = .string t.input
  from_addr : message.from_addr = t.msisdn
  provider : message.provider = some t.provider
  message_id : message.message_id = t.message_id

/-- The messages of all users, by the service codes of their open sessions. -/
def Kept (codes : Str → Option Str) : List Turn → List Message → Prop
  | [], [] => True
  | t :: ts, message :: messages =>
    Carries (codes t.msisdn) t message ∧
      Kept (Function.update codes t.msisdn (t.codeAfter (codes t.msisdn))) ts messages
  | _, _ => False

/-! ## The document -/

/-- A text of name characters that is not empty is a name. -/
theorem isName_of_all {s : Str} (h : (!s.isEmpty && s.all Xml.isNameChar) = true) :
    Xml.IsName s := by
  obtain ⟨hne, hall⟩ := (Bool.and_eq_true_iff).1 h
  refine ⟨?_, List.all_eq_true.1 hall⟩
  rintro rfl
  cases hne

/-- All names in the document are names. -/
theorem named_document (reply callback : Str) (session_event : Session) :
    (document reply callback session_event).Named := by
  have hrequest : Xml.IsName (str "request") := isName_of_all (by decide)
  have hheader : Xml.IsName (str "headertext") := isName_of_all (by decide)
  have hoptions : Xml.IsName (str "options") := isName_of_all (by decide)
  have hoption : Xml.IsName (str "option") := isName_of_all (by decide)
  have hnone : ∀ attr ∈ ([] : List (Str × Str)), Xml.IsName attr.1 := fun _ h => by cases h
  refine ⟨hrequest, hnone, ⟨hheader, hnone, trivial⟩, ?_⟩
  split_ifs
  · trivial
  · have hcommand : Xml.IsName (str "command") := isName_of_all (by decide)
    have horder : Xml.IsName (str "order") := isName_of_all (by decide)
    have hcallback : Xml.IsName (str "callback") := isName_of_all (by decide)
    have hdisplay : Xml.IsName (str "display") := isName_of_all (by decide)
    have hattrs : ∀ attr ∈ [(str "command", str "1"), (str "order", str "1"),
        (str "callback", callback), (str "display", str "false")], Xml.IsName attr.1 :=
      List.forall_mem_cons.2 ⟨hcommand, List.forall_mem_cons.2 ⟨horder,
        List.forall_mem_cons.2 ⟨hcallback, List.forall_mem_singleton.2 hdisplay⟩⟩⟩
    exact ⟨⟨hoptions, hnone, ⟨hoption, hattrs, trivial⟩, trivial⟩, trivial⟩

/-- The document has only characters that it may have if the text and the callback URL do. -/
theorem clean_document (reply callback : Str) (session_event : Session) :
    (document reply callback session_event).clean =
      (reply.all Xml.isXmlChar &&
        (decide (session_event = .close) || callback.all Xml.isXmlChar)) := by
  have hone : (str "1").all Xml.isXmlChar = true := by decide
  have hfalse : (str "false").all Xml.isXmlChar = true := by decide
  unfold document
  split_ifs with hclose
  · simp [Xml.Element.clean, Xml.cleanAll, Xml.cleanAttrs, hclose]
  · simp [Xml.Element.clean, Xml.cleanAll, Xml.cleanAttrs, hclose, hone, hfalse]

/-- The callback URL is in the document, unless it ends the session. -/
theorem callbackIn_document (reply callback : Str) (session_event : Session) :
    callbackIn (document reply callback session_event).events =
      if session_event = .close then none else some callback := by
  have hrequest : str "request" ≠ str "option" := by decide
  have hheader : str "headertext" ≠ str "option" := by decide
  have hoptions : str "options" ≠ str "option" := by decide
  have hfound : arg [(str "command", str "1"), (str "order", str "1"), (str "callback", callback),
      (str "display", str "false")] (str "callback") = some callback := rfl
  have htext : ∀ s, (Xml.textEvents s).findSome? callbackOf = none := by
    intro s
    unfold Xml.textEvents
    split_ifs
    · rfl
    · rfl
  unfold document callbackIn
  split_ifs with hclose
  · simp only [Xml.Element.events, Xml.eventsAll, List.findSome?_cons, List.findSome?_append,
      callbackOf, hrequest, hheader, htext, if_false, Option.none_or, List.findSome?_nil]
  · simp only [Xml.Element.events, Xml.eventsAll, List.findSome?_cons, List.findSome?_append,
      callbackOf, hrequest, hheader, hoptions, htext, if_false, if_true, hfound, Option.none_or,
      List.findSome?_nil, Option.some_or]

/-! ## What the gateway can read -/

variable {urljoin : Str → Str → Str} {config : Config}

/-- A document with a character that none may have cannot be read. -/
theorem read_document (reply callback : Str) (session_event : Session) :
    Xml.read (Xml.tostring (document reply callback session_event)) =
      if (reply.all Xml.isXmlChar &&
          (decide (session_event = .close) || callback.all Xml.isXmlChar)) = true then
        some (document reply callback session_event).events
      else none := by
  rw [Xml.read_tostring (named_document reply callback session_event), clean_document]

/-- What the URL of the service has to be for the callback URLs to come back. -/
structure Config.Usable (urljoin : Str → Str → Str) (config : Config) : Prop where
  noQuery : ∀ c ∈ config.url urljoin, c ≠ ofChar '?'
  clean : (config.url urljoin).all Xml.isXmlChar = true

/-- A quoted text may stand in a document. -/
theorem isXmlChar_of_isQuoted {c : CodePoint} (h : UrlEncoding.IsQuoted c) :
    Xml.isXmlChar c = true := by
  have hsafe : ∀ b : UInt8, UrlEncoding.alwaysSafe b = true → 0x20 ≤ b.toNat := by
    intro b hb
    simp only [UrlEncoding.alwaysSafe, Bool.or_eq_true, Bool.and_eq_true, decide_eq_true_eq] at hb
    rcases hb with ((((((hb | hb) | hb) | rfl) | rfl) | rfl) | rfl)
    · omega
    · omega
    · omega
    · decide
    · decide
    · decide
    · decide
  rcases h with rfl | rfl | ⟨hlt, halways⟩
  · decide
  · decide
  · have hlow := hsafe (toByte c) halways
    rw [toNat_toByte (by omega)] at hlow
    simp only [Xml.isXmlChar, Bool.or_eq_true, Bool.and_eq_true, decide_eq_true_eq]
    omega

/-- The callback URL goes with every document. -/
theorem all_getCallbackUrl (hclean : (config.url urljoin).all Xml.isXmlChar = true)
    {to_addr callback : Str}
    (h : getCallbackUrl urljoin config to_addr = .ok callback) :
    callback.all Xml.isXmlChar = true := by
  unfold getCallbackUrl at h
  split at h
  · rename_i query hquery
    obtain rfl := Except.ok.inj h
    have hquoted : query.all Xml.isXmlChar = true := by
      refine List.all_eq_true.2 fun c hc => ?_
      rcases UrlEncoding.isQuoted_of_urlencode hquery c hc with rfl | rfl | hq
      · decide
      · decide
      · exact isXmlChar_of_isQuoted hq
    have hmark : Xml.isXmlChar (ofChar '?') = true := by decide
    rw [List.all_append, hclean, List.all_cons, hmark, hquoted]
    rfl
  · cases h

/-- A body can be read if the text of the message has only characters that a document may have; and
then it is this text, but for its line ends, with the callback URL. -/
theorem read_body (hclean : (config.url urljoin).all Xml.isXmlChar = true) {message : Message}
    {reply callback : Str}
    (hcontent : message.content = .string reply)
    (hcallback : getCallbackUrl urljoin config message.from_addr = .ok callback) :
    ∃ bs, body urljoin config message = .ok bs ∧
      Xml.read bs =
        if reply.all Xml.isXmlChar = true then
          some (document reply callback message.session_event).events
        else none := by
  have hurl := all_getCallbackUrl hclean hcallback
  refine ⟨Xml.tostring (document reply callback message.session_event), ?_, ?_⟩
  · rw [body, hcallback, hcontent]
    rfl
  · rw [read_document, hurl, Bool.or_true, Bool.and_true]

/-- `urljoin` of a base URL without a path, and a path. -/
def joined (base_url web_path : Str) : Str := base_url ++ web_path

/-- A transport with its default configuration. -/
def localhost : Config := ⟨str "http_rpc", str "/http_rpc", str "http://localhost"⟩

/-- The service on localhost can be called back. -/
theorem usable_localhost : localhost.Usable joined where
  noQuery := by
    have hnone : (localhost.url joined).any (fun c => c = ofChar '?') = false := by decide
    intro c hc hmark
    exact List.any_eq_false.1 hnone c hc (decide_eq_true hmark)
  clean := by decide

/-- A text with a control character makes a body that cannot be read. -/
theorem bell_not_read : ∃ message bs, message.content = .string (str "Hi\x07") ∧
    body joined localhost message = .ok bs ∧ Xml.read bs = none := by
  have hcontent : (aReply (str "r") (str "Hi\x07")).content = .string (str "Hi\x07") := rfl
  obtain ⟨bs, hbs, hread⟩ := read_body usable_localhost.clean hcontent rfl
  exact ⟨_, bs, rfl, hbs, hread⟩

/-! ## What comes back -/

/-- The arguments of a URL are those of its query. -/
theorem argsOf_append (hurl : config.Usable urljoin) (query : Str) :
    argsOf (config.url urljoin ++ ofChar '?' :: query) = UrlEncoding.parseQsl query := by
  have hne : ∀ c ∈ config.url urljoin, decide (c ≠ ofChar '?') = true := fun c hc =>
    decide_eq_true (hurl.noQuery c hc)
  have hdrop : (config.url urljoin ++ ofChar '?' :: query).dropWhile (fun c => c ≠ ofChar '?') =
      ofChar '?' :: query := by
    rw [List.dropWhile_append_of_pos hne, List.dropWhile_cons_of_neg (by simp)]
  rw [argsOf, hdrop, List.drop_succ_cons, List.drop_zero]

/-- The callback URL of the session of a service code, as the gateway has it. -/
inductive Held (urljoin : Str → Str → Str) (config : Config) : Option Str → Option Str → Prop where
  | none : Held urljoin config none none
  | some {callback code : Str} (h : getCallbackUrl urljoin config code = .ok callback) :
    Held urljoin config (some callback) (some code)

/-- The service code comes back before what the gateway adds. -/
theorem argsOf_requestUrl (hurl : config.Usable urljoin) {callback code : Option Str}
    (hheld : Held urljoin config callback code) {t : Turn} {query : Str}
    (hquery : UrlEncoding.urlencode t.params = some query) :
    argsOf (requestUrl urljoin config callback query) =
      some ((code.toList.map fun code => (str "to_addr", code)) ++ t.params) := by
  cases hheld with
  | none =>
    rw [requestUrl, argsOf_append hurl]
    exact UrlEncoding.parseQsl_urlencode hquery
  | some h =>
    unfold getCallbackUrl at h
    split at h
    · rename_i first hfirst
      obtain rfl := Except.ok.inj h
      have hboth := UrlEncoding.urlencode_cons hfirst hquery
      rw [requestUrl, List.append_assoc, List.cons_append, argsOf_append hurl]
      exact UrlEncoding.parseQsl_urlencode hboth
    · cases h

/-- No parameter of the gateway's own is a service code. -/
theorem arg_extra {t : Turn} (hvalid : t.Valid) : arg t.params (str "to_addr") = none := by
  have hextra : t.extra.find? (fun value => value.1 = str "to_addr") = none :=
    List.find?_eq_none.2 fun p hp => by simpa using hvalid.own p hp
  have h1 : str "msisdn" ≠ str "to_addr" := by decide
  have h2 : str "provider" ≠ str "to_addr" := by decide
  have h3 : str "request" ≠ str "to_addr" := by decide
  simp [arg, Turn.params, h1, h2, h3, hextra]

/-- The message of a request has the service code of the session. -/
theorem received_of_held (hurl : config.Usable urljoin) {callback code : Option Str}
    (hheld : Held urljoin config callback code) {t : Turn} (hvalid : t.Valid) :
    ∃ message, received urljoin config callback t = some message ∧ Carries code t message := by
  obtain ⟨query, hquery⟩ := Option.isSome_iff_exists.1 hvalid.encoded
  rw [received, hquery, Option.bind_some, argsOf_requestUrl hurl hheld hquery, Option.bind_some]
  have hmsisdn : arg t.params (str "msisdn") = some t.msisdn := rfl
  have hprovider : arg t.params (str "provider") = some t.provider := rfl
  have hrequest : arg t.params (str "request") = some t.input := rfl
  -- A session without a code has its first input for an address, the others their code.
  cases code with
  | none =>
    rw [Option.toList_none, List.map_nil, List.nil_append, handleRawInboundMessage, hmsisdn,
      hprovider, hrequest, arg_extra hvalid]
    exact ⟨_, rfl, ⟨rfl, rfl, rfl, rfl, rfl, rfl⟩⟩
  | some code =>
    have hskip : ∀ name, str "to_addr" ≠ name →
        arg ((str "to_addr", code) :: t.params) name = arg t.params name := fun name hne => by
      simp [arg, hne]
    have hcode : arg ((str "to_addr", code) :: t.params) (str "to_addr") = some code := rfl
    rw [Option.toList_some, List.map_singleton, List.singleton_append, handleRawInboundMessage,
      hskip (str "msisdn") (by decide), hskip (str "provider") (by decide),
      hskip (str "request") (by decide), hmsisdn, hprovider, hrequest, hcode]
    exact ⟨_, rfl, ⟨rfl, rfl, rfl, rfl, rfl, rfl⟩⟩

/-! ## What the gateway gets -/

/-- The service code of a session can be put into a callback URL. -/
theorem exists_callback {callback code : Option Str} (hheld : Held urljoin config callback code)
    {t : Turn} (hvalid : t.Valid) :
    ∃ callback', getCallbackUrl urljoin config (code.getD t.input) = .ok callback' := by
  cases hheld with
  | some h => exact ⟨_, h⟩
  | none =>
    -- the service code came in a request, so it can be written in another
    have hmem : (str "request", t.input) ∈ t.params :=
      List.mem_cons_of_mem _ (List.mem_cons_of_mem _ List.mem_cons_self)
    obtain ⟨query, hquery⟩ :=
      UrlEncoding.exists_urlencode_of_mem hvalid.encoded hmem (str "to_addr") (by decide)
    unfold getCallbackUrl
    rw [Option.getD_none, hquery]
    exact ⟨_, rfl⟩

/-- The gateway has the callback URL of the session after a reply, if the session goes on. -/
theorem held_callbackFrom (hurl : config.Usable urljoin) {callback code : Option Str}
    (hheld : Held urljoin config callback code) {t : Turn} (hvalid : t.Valid) {message : Message}
    (hcarries : Carries code t message) :
    Held urljoin config (callbackFrom urljoin config (t.replyTo message)) (t.codeAfter code) := by
  obtain ⟨callback', hcallback⟩ := exists_callback hheld hvalid
  have hto : HttpRpcTransport.replyTo (t.replyTo message) ≠ [] := by
    show message.message_id ≠ []
    rw [hcarries.message_id]
    exact hvalid.message_id
  have hbody : body urljoin config (t.replyTo message) =
      .ok (Xml.tostring (document t.reply callback' t.session_event)) := by
    have hback : (t.replyTo message).from_addr = code.getD t.input := hcarries.to_addr
    rw [body, hback, hcallback]
    rfl
  -- An empty reply has no body that a gateway could read; the session ends with it.
  by_cases hempty : t.reply = []
  · have hfalsy : (t.replyTo message).content.truthy = false := by
      show decide (t.reply ≠ []) = false
      rw [hempty]
      rfl
    have hends : t.goesOn = false := by
      rw [Turn.goesOn, hempty]
      rfl
    simp only [callbackFrom, Replying.aatUssd, hto, hfalsy, if_true, if_false, Turn.codeAfter,
      hends, Bool.false_eq_true]
    exact .none
  · have htruthy : (t.replyTo message).content.truthy = true := decide_eq_true hempty
    have hfrom : callbackFrom urljoin config (t.replyTo message) =
        (Xml.read (Xml.tostring (document t.reply callback' t.session_event))).bind callbackIn := by
      simp only [callbackFrom, Replying.aatUssd, hto, htruthy, if_false, Bool.true_eq_false, hbody]
    -- The document is read back, and the URL in it is the one that was written.
    rw [hfrom, read_document, all_getCallbackUrl hurl.clean hcallback, Bool.or_true, Bool.and_true,
      Turn.codeAfter, Turn.goesOn, List.isEmpty_eq_false_iff.2 hempty, Bool.not_false,
      Bool.true_and]
    cases t.reply.all Xml.isXmlChar with
    | false => exact .none
    | true =>
      rw [if_pos rfl, Option.bind_some, callbackIn_document, Bool.true_and]
      by_cases hclose : t.session_event = .close
      · rw [if_pos hclose, if_neg (by simp [hclose])]
        exact .none
      · rw [if_neg hclose, if_pos (by simp [hclose])]
        exact .some hcallback

/-- The transport that keeps nothing does what a table of the open sessions would do. -/
theorem sessions_held (hurl : config.Usable urljoin) {callbacks codes : Str → Option Str}
    (hheld : ∀ msisdn, Held urljoin config (callbacks msisdn) (codes msisdn)) {ts : List Turn}
    (hvalid : ∀ t ∈ ts, t.Valid) :
    ∃ messages, sessions urljoin config callbacks ts = some messages ∧ Kept codes ts messages := by
  induction ts generalizing callbacks codes with
  | nil => exact ⟨[], rfl, trivial⟩
  | cons t ts ih =>
    obtain ⟨ht, hts⟩ := List.forall_mem_cons.1 hvalid
    obtain ⟨message, hreceived, hcarries⟩ := received_of_held hurl (hheld t.msisdn) ht
    have hnext := held_callbackFrom hurl (hheld t.msisdn) ht hcarries
    -- The step concerns the user of the turn alone.
    have hafter : ∀ msisdn, Held urljoin config
        (Function.update callbacks t.msisdn (callbackFrom urljoin config (t.replyTo message))
          msisdn)
        (Function.update codes t.msisdn (t.codeAfter (codes t.msisdn)) msisdn) := by
      intro msisdn
      by_cases hsame : msisdn = t.msisdn
      · rw [hsame, Function.update_self, Function.update_self]
        exact hnext
      · rw [Function.update_of_ne hsame, Function.update_of_ne hsame]
        exact hheld msisdn
    obtain ⟨messages, hsessions, hkept⟩ := ih hafter hts
    refine ⟨message :: messages, ?_, hcarries, hkept⟩
    rw [sessions, hreceived, Option.bind_some, hsessions]
    rfl

/-- Whatever the users enter, in whatever order, every message has the service code of its
session. -/
theorem sessions_kept (hurl : config.Usable urljoin) {ts : List Turn} (hvalid : ∀ t ∈ ts, t.Valid) :
    ∃ messages, sessions urljoin config (fun _ => none) ts = some messages ∧
      Kept (fun _ => none) ts messages :=
  sessions_held hurl (fun _ => .none) hvalid

/-- A user dials a code, another one dials another, and the first one answers. -/
def threeTurns : List Turn :=
  [⟨str "+27820001001", str "Vodacom", str "*120*1#", [], str "a", ⟨0, str "a", DateTime.min⟩,
      str "Your name?", .resume, ⟨0, str "x", DateTime.min⟩⟩,
    ⟨str "+27820001002", str "Vodacom", str "*120*2#", [], str "b", ⟨0, str "b", DateTime.min⟩,
      str "Closed.", .close, ⟨0, str "y", DateTime.min⟩⟩,
    ⟨str "+27820001001", str "Vodacom", str "Thandi & co", [], str "c", ⟨0, str "c", DateTime.min⟩,
      str "Thank you.", .close, ⟨0, str "z", DateTime.min⟩⟩]

/-- Each of the three turns comes to the session of its user. -/
theorem threeTurns_kept : ∃ messages,
    sessions joined localhost (fun _ => none) threeTurns = some messages ∧
      Kept (fun _ => none) threeTurns messages := by
  refine sessions_kept usable_localhost ?_
  have hencoded : threeTurns.all (fun t => (UrlEncoding.urlencode t.params).isSome) = true := by
    decide +kernel
  intro t ht
  refine ⟨List.all_eq_true.1 hencoded t ht, ?_, ?_⟩
  · rcases List.mem_cons.1 ht with rfl | ht
    · exact fun p hp => absurd hp List.not_mem_nil
    · rcases List.mem_pair.1 ht with rfl | rfl
      · exact fun p hp => absurd hp List.not_mem_nil
      · exact fun p hp => absurd hp List.not_mem_nil
  · rcases List.mem_cons.1 ht with rfl | ht
    · decide
    · rcases List.mem_pair.1 ht with rfl | rfl
      · decide
      · decide

end AatUssdTransport

end Vumi2
