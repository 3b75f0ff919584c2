import Vumi2.CacheHistory
import Vumi2.Lib.Base64
import Vumi2.Lib.Codecs
import Vumi2.TurnChannelsApi.Messages

/-!
# The Turn Channels API worker

`http_send_message` and `handle_event`. What the worker publishes and what it posts to Turn are
appended to two lists; the broker takes what is published and no deadline passes.

`inbound` is a local variable that `http_send_message` assigns on one branch only, so it is an
`Option` here, `none` where it has no value.
-/

namespace Vumi2

open Effect Eff Text

/-- `TurnChannelsApiConfig`, as far as the handlers use it. -/
structure TurnChannelsApiConfig where
  connector_name : Str
  turn_api_url : Str
  auth_token : Str
  transport_type : TransportType
  default_from_addr : Str
  turn_hmac_secret : Str

/-- A request to the send endpoint. -/
structure SendRequest where
  /-- `request.get_data(as_text=True)`. -/
  data : Str
  /-- `request.headers.get("X-Turn-Hook-Signature", "")`. -/
  signature : Str

/-- A request to the send endpoint as it comes in. -/
structure RawRequest where
  body : Bytes
  /-- `request.headers.get("X-Turn-Hook-Signature", "")`. -/
  signature : Str

/-- A `POST` to Turn. -/
structure TurnPost where
  url : Str
  authorization : Str
  json : Json

/-- `TurnChannelsApi`. -/
structure TurnChannelsApi where
  message_cache : MemoryMessageCache
  /-- What was published through the connector. -/
  published : List Message
  /-- What was posted to Turn. -/
  posts : List TurnPost

/-- `s.encode()`. -/
def encodeUtf8 (s : Str) : Except PyExc Bytes :=
  match Codecs.utf8Encode s with
  | some bs => .ok bs
  | none => .error .unicodeEncodeError

/-- `hmac.compare_digest(a, b)` of two texts, which must be ASCII. -/
def compareDigest (a b : Str) : Except PyExc Bool :=
  if (a ++ b).all (fun c => c.val < 128) = true then .ok (decide (a = b)) else .error .typeError

/-- `url.rstrip("/") + "/" + path.lstrip("/")`. -/
def joinUrl (url path : Str) : Str :=
  (url.reverse.dropWhile (fun c => c = ofChar '/')).reverse ++ [ofChar '/'] ++
    path.dropWhile (fun c => c = ofChar '/')

/-- `TurnChannelsApiConfig.turn_url`. -/
def TurnChannelsApiConfig.turnUrl (config : TurnChannelsApiConfig) (path : Str) : Str :=
  joinUrl config.turn_api_url path

namespace TurnChannelsApi

/-- A computation on the message cache. -/
def onMessageCache {α : Type} (m : Py MemoryMessageCache α) : Py TurnChannelsApi α :=
  on message_cache (fun w c => { w with message_cache := c }) m

/-- `self.connector.publish_outbound(message)`. -/
def publishOutbound (message : Message) : Py TurnChannelsApi Unit :=
  modify fun w => { w with published := w.published ++ [message] }

/-- `client.post(url, json=json, headers=headers)`. -/
def post (p : TurnPost) : Py TurnChannelsApi Unit :=
  modify fun w => { w with posts := w.posts ++ [p] }

variable (lib : Library) (config : TurnChannelsApiConfig)

/-- `_verify_hmac`. -/
def verifyHmac (req : SendRequest) : Except PyExc Unit :=
  if config.turn_hmac_secret = [] then .ok ()
  else do
    let key ← encodeUtf8 config.turn_hmac_secret
    let msg ← encodeUtf8 req.data
    let same ← compareDigest (Base64.b64encode (lib.hmacSha256 key msg)) req.signature
    if same = true then .ok () else .error (.apiError "SignatureMismatchError" [])

/-- The body of a request: its signature is checked before it is parsed. -/
def requestBody (req : SendRequest) : Except PyExc Json :=
  ((verifyHmac lib config req).bind fun _ => lib.loads req.data).mapError jsonDecodeError

/-- The members of `msg_dict`; only a dictionary has a method `get`. -/
def members : Json → Except PyExc Json.Members
  | .object ms => .ok ms
  | _ => .error .attributeError

/-- `msg_dict.get("reply_to", "") == ""`. -/
def noReplyTo (msg_dict : Json.Members) : Bool :=
  match msg_dict.getD (str "reply_to") (.string []) with
  | .string s => s = []
  | _ => false

/-- `msg_dict` and the local variable `inbound` once the last inbound message was looked up. -/
def withInbound (msg_dict : Json.Members) :
    Option Message → Json.Members × Option (Option Message)
  | some m => (msg_dict.set (str "reply_to") (.string m.message_id), some (some m))
  | none => (msg_dict, some none)

/-- The branch that looks for the last inbound message: `msg_dict` and `inbound` after it. -/
def findInbound (msg_dict : Json.Members) :
    Py TurnChannelsApi (Json.Members × Option (Option Message)) :=
  if noReplyTo msg_dict = true then do
    let to_addr ← ofExcept (itemOf "to" (.object msg_dict))
    let inbound ← onMessageCache (MemoryMessageCache.fetchLastInboundByFromAddress to_addr)
    pure (withInbound msg_dict inbound)
  else pure (msg_dict, none)

/-- `build_outbound`. -/
def buildOutbound (tom : TurnOutboundMessage) (inbound : Option Message) :
    Py TurnChannelsApi Message := do
  let r ← read
  match inbound with
  | some m => ofExcept (tom.replyToVumi m r)
  | none => ofExcept (tom.toVumi lib config.connector_name config.transport_type r)

/-- `http_send_message` from the building of the outbound message on. -/
def sendOutbound (tom : TurnOutboundMessage) (inbound : Option Message) :
    Py TurnChannelsApi Json := do
  let outbound ← buildOutbound lib config tom inbound
  onMessageCache (MemoryMessageCache.storeOutbound outbound)
  publishOutbound outbound
  pure (turnOutboundFromMsg outbound)

/-- `http_send_message` from `deserialise` on. -/
def sendFound (found : Json.Members × Option (Option Message)) : Py TurnChannelsApi Json := do
  let tom ← ofExcept (TurnOutboundMessage.deserialise found.1 (some config.default_from_addr))
  match found.2 with
  | some inbound => sendOutbound lib config tom inbound
  | none => raise .unboundLocalError

/-- `http_send_message`. -/
def httpSendMessage (req : SendRequest) : Py TurnChannelsApi Json := do
  let body ← ofExcept (requestBody lib config req)
  let msg_dict ← ofExcept (members body)
  let found ← findInbound msg_dict
  sendFound lib config found

/-- `http_send_message`, with the octets of the request that `get_data(as_text=True)` decodes. -/
def httpSendRaw (asText : Bytes → Option Str) (raw : RawRequest) : Py TurnChannelsApi Json :=
  match asText raw.body with
  | none => raise .unicodeDecodeError
  | some data => httpSendMessage lib config ⟨data, raw.signature⟩

/-- `handle_event`. -/
def handleEvent (event : Event) : Py TurnChannelsApi Unit := do
  let outbound ← onMessageCache (MemoryMessageCache.fetchOutbound event.sent_message_id)
  match outbound with
  | none => pure ()
  | some outbound =>
    post
      { url := config.turnUrl (str "/statuses")
        authorization := str "Bearer " ++ config.auth_token
        json := turnEventFromEv event outbound }

/-! ## What the steps of a request do -/

/-- A signed request: there is no secret, or its signature is the base64 of the HMAC of its body. -/
def Signed (req : SendRequest) : Prop :=
  config.turn_hmac_secret = [] ∨
    ∃ key msg, Codecs.utf8Encode config.turn_hmac_secret = some key ∧
      Codecs.utf8Encode req.data = some msg ∧
      req.signature = Base64.b64encode (lib.hmacSha256 key msg)

/-- A signed request passes the check of its signature. -/
theorem verifyHmac_of_signed {req : SendRequest} (h : Signed lib config req) :
    verifyHmac lib config req = .ok () := by
  unfold verifyHmac
  split_ifs with hsecret
  · rfl
  · obtain h | ⟨key, msg, hkey, hmsg, hsig⟩ := h
    · exact absurd h hsecret
    · have hascii := Base64.b64encode_ascii (lib.hmacSha256 key msg)
      -- `compare_digest` refuses texts outside ASCII, but a digest in base 64 is in it.
      have hboth : (Base64.b64encode (lib.hmacSha256 key msg) ++ req.signature).all
          (fun c => c.val < 128) = true := by
        rw [hsig, List.all_eq_true]
        intro c hc
        rw [decide_eq_true_eq]
        rcases List.mem_append.1 hc with hc | hc
        · exact hascii c hc
        · exact hascii c hc
      have hcompare : compareDigest (Base64.b64encode (lib.hmacSha256 key msg)) req.signature =
          .ok true := by
        unfold compareDigest
        rw [if_pos hboth, hsig, decide_eq_true rfl]
      unfold encodeUtf8
      rw [hkey, hmsg]
      dsimp only
      rw [ok_bind, ok_bind, hcompare, ok_bind, if_pos rfl]

/-- The first reading of the clock is the one by which an outbound message is stored. -/
theorem run_sendOutbound {env : ℕ → Reading} {w : TurnChannelsApi} {tom : TurnOutboundMessage}
    {inbound : Option Message} {m : Message}
    (h : (buildOutbound lib config tom inbound).run env w = ⟨.ok m, 1, w⟩) :
    (sendOutbound lib config tom inbound).run env w =
      ⟨.ok (turnOutboundFromMsg m), 3,
        { message_cache :=
            ((MemoryMessageCache.storeOutbound m).run (later env 1) w.message_cache).state
          published := w.published ++ [m]
          posts := w.posts }⟩ := by
  have hstore : (onMessageCache (MemoryMessageCache.storeOutbound m)).run (later env 1) w =
      ⟨.ok (), 2, { w with message_cache :=
        ((MemoryMessageCache.storeOutbound m).run (later env 1) w.message_cache).state }⟩ := by
    unfold onMessageCache MemoryMessageCache.storeOutbound MemoryMessageCache.onOutbounds
    rw [run_on, run_on, TimeoutDict.run_setitem]
  unfold sendOutbound
  rw [run_bind_ok h, run_bind_ok hstore]
  rfl

end TurnChannelsApi

end Vumi2
