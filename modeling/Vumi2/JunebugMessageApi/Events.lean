import Mathlib.Tactic.Linarith
import Vumi2.Lib.Machine
import Vumi2.Lib.Slots
import Vumi2.JunebugMessageApi.Answers

/-!
# Where the events of the Junebug HTTP message API go

A request stores the URL for the events of its message before it publishes the message, and a
handler of an event looks it up. Neither waits before its call to the broker, or to the URL: so a
request is one step up to its publishing call, and another one from there on (`JunebugAction`), and
the handling of an event is one step up to its `POST`.

No two messages have the same identifier, so each key of the cache is set once (`SetOnce`). Hence an
event in time goes to the URL of its own message, with the token of its own message, if it has one;
any other event goes to the default URL with the default token (`junebug_event_routed`).
-/

namespace Vumi2

open Effect Eff Text

namespace TimeoutDict

variable {V : Type}

/-! ## A dictionary in which each key is set once -/

/-- What was set are these entries (key, time and value), each under a key of its own. An entry is
there as long as it is not too old at the time `now`, and nothing else is there. -/
structure SetOnce (timeout : ℚ) (entries : List (Str × ℚ × V)) (d : TimeoutDict V) (now : ℚ) :
    Prop where
  timeout_eq : d.timeout = timeout
  held : ∀ e ∈ entries, TimeoutDict.age now e.2.1 ≤ timeout → Holds e.1 e.2.1 e.2.2 timeout d
  owned : ∀ key t v, d.data.get? key = some (t, v) → (key, t, v) ∈ entries

namespace SetOnce

variable {timeout now now' : ℚ} {entries : List (Str × ℚ × V)} {d : TimeoutDict V}

/-- In a new dictionary nothing was set. -/
theorem new (timeout now : ℚ) :
    SetOnce timeout [] (TimeoutDict.new timeout : TimeoutDict V) now where
  timeout_eq := rfl
  held := fun e he => by cases he
  owned := fun key t v h => by cases h

/-- What was set once is so later. -/
theorem mono (h : SetOnce timeout entries d now) (hle : now ≤ now') :
    SetOnce timeout entries d now' :=
  ⟨h.timeout_eq, fun e he hin => h.held e he ((age_mono hle le_rfl).trans hin), h.owned⟩

/-- Expiry removes only what is too old. -/
theorem expire (h : SetOnce timeout entries d now) (hle : now ≤ now') :
    SetOnce timeout entries (d.expire now') now' := by
  refine ⟨h.timeout_eq, fun e he hin => ?_, fun key t v hget => ?_⟩
  · obtain ⟨htimeout, hget⟩ := h.held e he ((age_mono hle le_rfl).trans hin)
    have hfresh : d.Fresh now' e.1 e.2.2 := ⟨e.2.1, hget, by rw [htimeout]; exact hin⟩
    exact ⟨htimeout, (get?_expire_of_fresh hfresh).trans hget⟩
  · exact h.owned key t v (get?_of_expire hget)

/-- A key is set that was not set before. -/
theorem setitem (h : SetOnce timeout entries d now) {env : ℕ → Reading} (hclock : Clocked env)
    (hle : now ≤ (env 0).time) {key : Str} (hnew : ∀ e ∈ entries, e.1 ≠ key) (v : V) :
    SetOnce timeout (entries ++ [(key, (env 1).time, v)])
      ((TimeoutDict.setitem key v).run env d).state (env 1).time := by
  have hfirst : (env 0).time ≤ (env 1).time := hclock (Nat.zero_le 1)
  refine ⟨?_, fun e he hin => ?_, fun other t w hget => ?_⟩
  · rw [run_setitem]
    exact h.timeout_eq
  · rcases List.mem_append.1 he with hold | hadded
    · -- The other entries stay, as long as they are not too old at the last reading.
      have hstays : ∀ k < ((TimeoutDict.setitem key v).run env d).used,
          InTime e.2.1 timeout (env k) := by
        intro k hk
        rw [run_setitem] at hk
        have hlast : (env k).time ≤ (env 1).time := hclock (Nat.le_of_lt_succ hk)
        show age (env k).time e.2.1 ≤ timeout
        exact (age_mono hlast le_rfl).trans hin
      have hbefore : age now e.2.1 ≤ timeout := (age_mono (hle.trans hfirst) le_rfl).trans hin
      exact keeps_setitem (hnew e hold) v env d hstays (h.held e hold hbefore)
    · obtain rfl := List.mem_singleton.1 hadded
      rw [run_setitem]
      exact ⟨h.timeout_eq, Dict.get?_set_self _ _ _⟩
  · rw [run_setitem] at hget
    dsimp only at hget
    by_cases hkey : other = key
    · rw [hkey, Dict.get?_set_self] at hget
      cases hget
      rw [hkey]
      exact List.mem_append_right _ (List.mem_singleton.2 rfl)
    · rw [Dict.get?_set_of_ne _ _ hkey] at hget
      have herased := get?_of_expire hget
      dsimp only at herased
      rw [Dict.get?_erase_of_ne _ hkey] at herased
      exact List.mem_append_left _ (h.owned other t w herased)

/-- What is found was set. -/
theorem mem_of_lookedUp (h : SetOnce timeout entries d now) {key : Str} {v : V}
    (hfound : d.lookedUp now' key = some v) : ∃ t, (key, t, v) ∈ entries := by
  unfold lookedUp at hfound
  obtain ⟨⟨t, w⟩, hget, rfl⟩ := Option.map_eq_some_iff.1 hfound
  exact ⟨t, h.owned key t w (get?_of_expire hget)⟩

/-- What was set is found until it is too old. -/
theorem lookedUp_of_mem (h : SetOnce timeout entries d now) (hle : now ≤ now') {key : Str} {t : ℚ}
    {v : V} (hmem : (key, t, v) ∈ entries) (hin : TimeoutDict.age now' t ≤ timeout) :
    d.lookedUp now' key = some v := by
  obtain ⟨-, hget⟩ := (h.expire hle).held (key, t, v) hmem hin
  unfold lookedUp
  rw [hget]
  rfl

end SetOnce

end TimeoutDict

/-! ## The worker -/

/-- `JunebugMessageApiConfig`, with what `handle_event` uses of it. -/
structure JunebugEventConfig extends JunebugMessageApiConfig where
  default_event_url : Option Str := none
  default_event_auth_token : Option Str := none

/-- A `POST` of an event. -/
structure EventPost where
  url : Str
  headers : List (Str × Str)
  json : Json

namespace JunebugMessageApi

variable (lib : JunebugLibrary) (config : JunebugEventConfig)

/-- The headers of a `POST` with this token. -/
def eventHeaders : Option Str → List (Str × Str)
  | some auth_token => [(str "Authorization", str "Token " ++ auth_token)]
  | none => []

/-- The `POST` of an event. -/
def eventPost (event : Event) (event_hi : EventHttpInfo) : EventPost :=
  ⟨event_hi.url, eventHeaders event_hi.auth_token, junebugEventFromEv event config.connector_name⟩

/-- `EventHttpInfo(default_event_url, default_event_auth_token)`, if there is a default URL. -/
def defaultEventHttpInfo : Option EventHttpInfo :=
  config.default_event_url.map fun url => ⟨url, config.default_event_auth_token⟩

/-- `handle_event` up to its `POST`. -/
def handleEvent (event : Event) : Py JunebugMessageApi (Option EventPost) := do
  let event_hi ← onStateCache (MemoryJunebugStateCache.fetchEventHttpInfo event.user_message_id)
  match event_hi with
  | some event_hi => pure (some (eventPost config event event_hi))
  | none => pure ((defaultEventHttpInfo config).map (eventPost config event))

/-- `http_send_message` up to its publishing call: what the request is read as, and its message. -/
def startSend (body : Bytes) : Py JunebugMessageApi (JunebugOutboundMessage × BuiltMessage) := do
  let jom ← ofExcept (readRequest lib config.toJunebugMessageApiConfig body)
  let msg ← buildOutbound lib config.toJunebugMessageApiConfig jom
  storeEventUrl jom msg.message.message_id
  pure (jom, msg)

/-- `http_send_message` from its publishing call on. -/
def finishSend (msg : BuiltMessage) : Py JunebugMessageApi ApiResponse := do
  publishOutbound msg
  let vumi_dict ← ofExcept msg.serialise
  pure (response (str "message submitted") (junebugOutboundFromMsg vumi_dict config.connector_name)
    .created)

/-- The two parts make up `http_send_message`, inside its `try`. -/
theorem startSend_finishSend (body : Bytes) :
    (startSend lib config body >>= fun p => finishSend config p.2) =
      (ofExcept (readRequest lib config.toJunebugMessageApiConfig body) >>=
        sendOutbound lib config.toJunebugMessageApiConfig) := by
  unfold startSend
  rw [bind_assoc]
  congr 1
  funext jom
  unfold sendOutbound
  rw [bind_assoc]
  congr 1
  funext msg
  rw [bind_assoc]
  congr 1
  funext u
  rw [pure_bind]
  rfl

end JunebugMessageApi

/-! ## The worker at work -/

/-- A request that has come to its publishing call. -/
structure SendTask where
  jom : JunebugOutboundMessage
  msg : BuiltMessage
  /-- The clock at the last reading before the publishing call. -/
  time : ℚ
  /-- What the request has come to, after its publishing call. -/
  outcome : Option (Except PyExc ApiResponse)

namespace SendTask

/-- The identifier of the message. -/
def message_id (t : SendTask) : Str := t.msg.message.message_id

/-- Where the request wants the events of its message. -/
def event_hi (t : SendTask) : Option EventHttpInfo :=
  t.jom.event_url.map fun url => ⟨url, t.jom.event_auth_token⟩

/-- What the request has stored. -/
def entry (t : SendTask) : Option (Str × ℚ × EventHttpInfo) :=
  t.event_hi.map fun event_hi => (t.message_id, t.time, event_hi)

end SendTask

/-- A worker at work. -/
structure JunebugState where
  worker : JunebugMessageApi
  /-- The requests that have come to their publishing call, in order. -/
  sends : List SendTask
  /-- The `POST`s of events, each with its event. -/
  posts : List (Event × EventPost)
  /-- The clock at its last reading. -/
  now : ℚ

/-- A step of a worker at work. -/
inductive JunebugAction where
  /-- A request comes in, and runs to its publishing call. -/
  | http_send_message (body : Bytes) (env : ℕ → Reading)
  /-- The publishing call of a request is made, and returns. -/
  | publish (i : ℕ) (env : ℕ → Reading)
  | handle_event (event : Event) (env : ℕ → Reading)
  /-- An inbound message is stored, to be replied to. -/
  | handle_inbound_message (message : Message) (env : ℕ → Reading)

namespace JunebugState

/-- A worker that has not done anything. -/
def new (timeout now : ℚ) : JunebugState :=
  ⟨⟨MemoryJunebugStateCache.new timeout true, []⟩, [], [], now⟩

/-- What the requests have stored. -/
def entries (s : JunebugState) : List (Str × ℚ × EventHttpInfo) := s.sends.filterMap SendTask.entry

end JunebugState

namespace JunebugMessageApi

variable (lib : JunebugLibrary) (config : JunebugEventConfig)

/-- The clock at the last of the readings that were taken. -/
def lastReading (env : ℕ → Reading) (used : ℕ) : ℚ := (env (used - 1)).time

/-- The requests that a request adds, when it has come to its publishing call or to its end. -/
def started (time : ℚ) : Except PyExc (JunebugOutboundMessage × BuiltMessage) → List SendTask
  | .ok p => [⟨p.1, p.2, time, none⟩]
  | .error _ => []

/-- The `POST`s that the handling of an event adds. -/
def delivered (event : Event) : Except PyExc (Option EventPost) → List (Event × EventPost)
  | .ok (some p) => [(event, p)]
  | _ => []

/-- The state after a request has come to its publishing call. -/
def sent (s : JunebugState) (env : ℕ → Reading)
    (o : Outcome PyExc JunebugMessageApi (JunebugOutboundMessage × BuiltMessage)) : JunebugState :=
  { s with
    worker := o.state
    sends := s.sends ++ started (lastReading env o.used) o.result
    now := lastReading env o.used }

/-- The state after an event was handled. -/
def handled (s : JunebugState) (event : Event) (env : ℕ → Reading)
    (o : Outcome PyExc JunebugMessageApi (Option EventPost)) : JunebugState :=
  { s with
    worker := o.state
    posts := s.posts ++ delivered event o.result
    now := lastReading env o.used }

/-- The state after an inbound message was stored. -/
def received (s : JunebugState) (env : ℕ → Reading) (o : Outcome PyExc JunebugMessageApi Unit) :
    JunebugState :=
  { s with worker := o.state, now := lastReading env o.used }

/-- The state after a step. -/
def step (s : JunebugState) : JunebugAction → Option JunebugState
  | .http_send_message body env => some (sent s env ((startSend lib config body).run env s.worker))
  | .publish i env =>
    match s.sends[i]? with
    | some ⟨jom, msg, time, none⟩ =>
      some { s with
        worker := ((finishSend config msg).run env s.worker).state
        sends := s.sends.set i
          ⟨jom, msg, time, some ((finishSend config msg).run env s.worker).result⟩ }
    | _ => none
  | .handle_event event env =>
    some (handled s event env ((handleEvent config event).run env s.worker))
  | .handle_inbound_message message env =>
    some (received s env
      ((onStateCache (MemoryJunebugStateCache.storeInbound message)).run env s.worker))

/-- The clock goes forward, and no message has the identifier of another. -/
def Permitted (s : JunebugState) : JunebugAction → Prop
  | .http_send_message body env =>
    Clocked env ∧ s.now ≤ (env 0).time ∧
      ∀ p, ((startSend lib config body).run env s.worker).result = .ok p →
        ∀ t ∈ s.sends, t.message_id ≠ p.2.message.message_id
  | .publish _ _ => True
  | .handle_event _ env => Clocked env ∧ s.now ≤ (env 0).time
  | .handle_inbound_message _ env => Clocked env ∧ s.now ≤ (env 0).time

/-- The `POST` of an event goes where the message with its identifier wants it, or where events go
by default. -/
def Belongs (s : JunebugState) (event : Event) (p : EventPost) : Prop :=
  (∃ t ∈ s.sends, t.message_id = event.user_message_id ∧
    ∃ event_hi, t.event_hi = some event_hi ∧ p = eventPost config event event_hi) ∨
  ∃ event_hi, defaultEventHttpInfo config = some event_hi ∧ p = eventPost config event event_hi

/-- What holds of a worker at work. -/
structure JunebugInv (timeout : ℚ) (s : JunebugState) : Prop where
  stores : s.worker.state_cache.store_event_info = true
  cache : TimeoutDict.SetOnce timeout s.entries s.worker.state_cache.event_http_info s.now
  distinct : (s.sends.map SendTask.message_id).Nodup
  posted : ∀ x ∈ s.posts, Belongs config s x.1 x.2
  /-- What was published is the message of a request that had come to its publishing call. -/
  published : ∀ m ∈ s.worker.published, ∃ t ∈ s.sends, t.msg.message = m

variable {lib : JunebugLibrary} {config : JunebugEventConfig} {env : ℕ → Reading}
  {w : JunebugMessageApi} {timeout : ℚ} {s s' : JunebugState}

/-! ## What one call does -/

/-- The worker has stored and published nothing new. -/
structure Undisturbed (w w' : JunebugMessageApi) : Prop where
  stores : w'.state_cache.store_event_info = w.state_cache.store_event_info
  cache : w'.state_cache.event_http_info = w.state_cache.event_http_info
  published : w'.published = w.published

/-- A look-up of an inbound message stores and publishes nothing. -/
theorem undisturbed_afterLookUp (jom : JunebugOutboundMessage) (env : ℕ → Reading)
    (w : JunebugMessageApi) : Undisturbed w (afterLookUp jom env w) := by
  refine ⟨?_, afterLookUp_event_http_info, afterLookUp_published⟩
  unfold afterLookUp
  cases jom.reply_to with
  | none => rfl
  | some msg_id => rfl

/-- What a request does up to its publishing call: it ends there, or it has a message, and stores
the URL for its events last, if it has one. -/
inductive Starts (env : ℕ → Reading) (w : JunebugMessageApi)
    (o : Outcome PyExc JunebugMessageApi (JunebugOutboundMessage × BuiltMessage)) : Prop where
  | refused {e : PyExc} (hresult : o.result = .error e) (hrest : Undisturbed w o.state)
  | unnamed {p : JunebugOutboundMessage × BuiltMessage} (hresult : o.result = .ok p)
    (hurl : p.1.event_url = none) (hrest : Undisturbed w o.state)
  | named {p : JunebugOutboundMessage × BuiltMessage} {url : Str} {k : ℕ}
    (hresult : o.result = .ok p) (hurl : p.1.event_url = some url) (hused : o.used = k + 2)
    (hstores : o.state.state_cache.store_event_info = w.state_cache.store_event_info)
    (hcache : o.state.state_cache.event_http_info =
      ((TimeoutDict.setitem p.2.message.message_id ⟨url, p.1.event_auth_token⟩).run (later env k)
        w.state_cache.event_http_info).state)
    (hpublished : o.state.published = w.published)

/-- Without an event URL nothing is stored. -/
theorem run_storeEventUrl_none {jom : JunebugOutboundMessage} (h : jom.event_url = none)
    (message_id : Str) (env : ℕ → Reading) (w : JunebugMessageApi) :
    (storeEventUrl jom message_id).run env w = ⟨.ok (), 0, w⟩ := by
  unfold storeEventUrl
  rw [h]
  rfl

/-- An event URL is stored under the identifier of the message. -/
theorem run_storeEventUrl_some {jom : JunebugOutboundMessage} {url : Str}
    (h : jom.event_url = some url) (message_id : Str) (env : ℕ → Reading)
    (hstores : w.state_cache.store_event_info = true) :
    (storeEventUrl jom message_id).run env w =
      ⟨.ok (), 2,
        { w with
          state_cache :=
            { w.state_cache with
              event_http_info :=
                ((TimeoutDict.setitem message_id ⟨url, jom.event_auth_token⟩).run env
                  w.state_cache.event_http_info).state } }⟩ := by
  unfold storeEventUrl onStateCache MemoryJunebugStateCache.storeEventHttpInfo
    MemoryJunebugStateCache.onEventHttpInfo
  rw [h]
  dsimp only
  rw [run_on, run_get_bind, if_pos hstores, run_on, TimeoutDict.run_setitem]

/-- A call comes to its await with the event URL of its message stored, or ends without a trace. -/
theorem starts_startSend (lib : JunebugLibrary) (config : JunebugEventConfig)
    (hstores : w.state_cache.store_event_info = true) (body : Bytes) (env : ℕ → Reading) :
    Starts env w ((startSend lib config body).run env w) := by
  unfold startSend
  cases hread : readRequest lib config.toJunebugMessageApiConfig body with
  | error e => exact .refused rfl ⟨rfl, rfl, rfl⟩
  | ok jom =>
    rw [ofExcept_ok, pure_bind]
    obtain ⟨i, used, hrun⟩ := run_buildOutbound lib config.toJunebugMessageApiConfig jom env w
    have hbuilt := undisturbed_afterLookUp jom env w
    -- Up to the message only the message cache changes, which no part of the statement is about.
    cases hresult : built lib config.toJunebugMessageApiConfig jom (env i)
        (route lib config.toJunebugMessageApiConfig jom env w) with
    | error e =>
      rw [hresult] at hrun
      rw [run_bind_error hrun]
      exact .refused rfl hbuilt
    | ok msg =>
      rw [hresult] at hrun
      rw [run_bind_ok hrun]
      -- The URL is stored before the message is published, so it is there when events come.
      cases hurl : jom.event_url with
      | none =>
        rw [run_bind_ok (run_storeEventUrl_none hurl msg.message.message_id (later env used)
          (afterLookUp jom env w))]
        exact .unnamed rfl hurl hbuilt
      | some url =>
        have hstore := run_storeEventUrl_some hurl msg.message.message_id (later env used)
          (hbuilt.stores.trans hstores)
        rw [run_bind_ok hstore, hbuilt.cache]
        exact .named rfl hurl rfl hbuilt.stores rfl hbuilt.published

/-- What the publishing call of a request does. -/
theorem run_finishSend (config : JunebugEventConfig) (msg : BuiltMessage) (env : ℕ → Reading)
    (w : JunebugMessageApi) :
    ∃ result used published, (finishSend config msg).run env w =
        ⟨result, used, { w with published := published }⟩ ∧
      (published = w.published ∨ published = w.published ++ [msg.message]) := by
  unfold finishSend publishOutbound
  cases msg.serialise with
  | error e => exact ⟨_, _, w.published, rfl, .inl rfl⟩
  | ok vumi_dict => exact ⟨_, _, w.published ++ [msg.message], rfl, .inr rfl⟩

/-- Where an event goes, by what is found for its message. -/
theorem run_handleEvent (event : Event) (env : ℕ → Reading) (w : JunebugMessageApi) :
    (handleEvent config event).run env w =
      ⟨.ok (((w.state_cache.event_http_info.lookedUp (env 0).time event.user_message_id).or
          (defaultEventHttpInfo config)).map (eventPost config event)), 1,
        { w with
          state_cache :=
            { w.state_cache with
              event_http_info := w.state_cache.event_http_info.expire (env 0).time } }⟩ := by
  -- The look-up takes one reading, and drops what is too old by then.
  have hfetch : (onStateCache
      (MemoryJunebugStateCache.fetchEventHttpInfo event.user_message_id)).run env w =
        ⟨.ok (w.state_cache.event_http_info.lookedUp (env 0).time event.user_message_id), 1,
          { w with
            state_cache :=
              { w.state_cache with
                event_http_info := w.state_cache.event_http_info.expire (env 0).time } }⟩ := by
    unfold onStateCache MemoryJunebugStateCache.fetchEventHttpInfo
      MemoryJunebugStateCache.onEventHttpInfo
    rw [run_on, run_on, TimeoutDict.run_getitem]
    rfl
  unfold handleEvent
  rw [run_bind_ok hfetch]
  cases w.state_cache.event_http_info.lookedUp (env 0).time event.user_message_id with
  | none => rfl
  | some event_hi => rfl

/-! ## What every step keeps -/

/-- A POST belongs to its event after more was sent. -/
theorem Belongs.mono {event : Event} {p : EventPost} (h : Belongs config s event p)
    (hsends : ∀ t ∈ s.sends, ∃ t' ∈ s'.sends, t'.jom = t.jom ∧ t'.msg = t.msg) :
    Belongs config s' event p := by
  rcases h with ⟨t, ht, hid, event_hi, hhi, hp⟩ | hdefault
  · obtain ⟨t', ht', hjom, hmsg⟩ := hsends t ht
    refine .inl ⟨t', ht', ?_, event_hi, ?_, hp⟩
    · rw [SendTask.message_id, hmsg]
      exact hid
    · rw [SendTask.event_hi, hjom]
      exact hhi
  · exact .inr hdefault

/-- A new worker has stored nothing. -/
theorem JunebugInv.new (timeout now : ℚ) :
    JunebugInv config timeout (JunebugState.new timeout now) where
  stores := rfl
  cache := TimeoutDict.SetOnce.new timeout now
  distinct := List.nodup_nil
  posted := fun x hx => by cases hx
  published := fun m hm => by cases hm

/-- The entries of a worker with one more request. -/
theorem entries_append (t : SendTask) :
    (s.sends ++ [t]).filterMap SendTask.entry = s.entries ++ t.entry.toList := by
  unfold JunebugState.entries
  rw [List.filterMap_append]
  cases h : t.entry with
  | none => rw [List.filterMap_cons_none h]; rfl
  | some e => rw [List.filterMap_cons_some h]; rfl

/-- What is stored was stored by a request. -/
theorem exists_send_of_mem {e : Str × ℚ × EventHttpInfo} (h : e ∈ s.entries) :
    ∃ t ∈ s.sends, t.message_id = e.1 ∧ t.event_hi = some e.2.2 := by
  obtain ⟨t, ht, hentry⟩ := List.mem_filterMap.1 h
  obtain ⟨event_hi, hhi, rfl⟩ := Option.map_eq_some_iff.1 hentry
  exact ⟨t, ht, rfl, hhi⟩

/-- A call that stores and publishes nothing does not matter. -/
theorem JunebugInv.undisturbed (hinv : JunebugInv config timeout s) {w' : JunebugMessageApi}
    (h : Undisturbed s.worker w') {now : ℚ} (hle : s.now ≤ now) :
    JunebugInv config timeout { s with worker := w', now := now } where
  stores := h.stores.trans hinv.stores
  cache := by
    show TimeoutDict.SetOnce timeout s.entries w'.state_cache.event_http_info now
    rw [h.cache]
    exact hinv.cache.mono hle
  distinct := hinv.distinct
  posted := hinv.posted
  published := by
    show ∀ m ∈ w'.published, ∃ t ∈ s.sends, t.msg.message = m
    rw [h.published]
    exact hinv.published

/-- One more request, with a message of its own. -/
theorem JunebugInv.append (hinv : JunebugInv config timeout s) {w' : JunebugMessageApi}
    {t : SendTask} {now : ℚ} (hstores : w'.state_cache.store_event_info = true)
    (hcache : TimeoutDict.SetOnce timeout (s.entries ++ t.entry.toList)
      w'.state_cache.event_http_info now)
    (hpublished : w'.published = s.worker.published)
    (hnew : ∀ t' ∈ s.sends, t'.message_id ≠ t.message_id) :
    JunebugInv config timeout { s with worker := w', sends := s.sends ++ [t], now := now } where
  stores := hstores
  cache := by
    show TimeoutDict.SetOnce timeout ((s.sends ++ [t]).filterMap SendTask.entry) _ _
    rw [entries_append]
    exact hcache
  distinct := by
    show ((s.sends ++ [t]).map SendTask.message_id).Nodup
    rw [List.map_append, List.nodup_append]
    -- The new id is none of those before.
    refine ⟨hinv.distinct, List.nodup_singleton _, fun id hid id' hid' => ?_⟩
    obtain ⟨t', ht', rfl⟩ := List.mem_map.1 hid
    rw [List.map_singleton, List.mem_singleton] at hid'
    rw [hid']
    exact hnew t' ht'
  posted := fun x hx =>
    (hinv.posted x hx).mono fun t ht => ⟨t, List.mem_append_left _ ht, rfl, rfl⟩
  published := by
    show ∀ m ∈ w'.published, ∃ t' ∈ s.sends ++ [t], t'.msg.message = m
    rw [hpublished]
    intro m hm
    obtain ⟨t', ht', hmessage⟩ := hinv.published m hm
    exact ⟨t', List.mem_append_left _ ht', hmessage⟩

/-- A request keeps the invariant. -/
theorem JunebugInv.step_send (hinv : JunebugInv config timeout s) {body : Bytes}
    (hok : Permitted lib config s (.http_send_message body env))
    (hstep : step lib config s (.http_send_message body env) = some s') :
    JunebugInv config timeout s' := by
  obtain ⟨hclock, hle, hnew⟩ := hok
  obtain rfl := Option.some.inj hstep
  have hnow : s.now ≤ lastReading env ((startSend lib config body).run env s.worker).used :=
    le_trans hle (hclock (Nat.zero_le _))
  unfold sent
  cases starts_startSend lib config hinv.stores body env with
  | refused hresult hrest =>
    rw [hresult, started, List.append_nil]
    exact hinv.undisturbed hrest hnow
  | unnamed hresult hurl hrest =>
    rw [hresult, started]
    refine hinv.append (hrest.stores.trans hinv.stores) ?_ hrest.published (hnew _ hresult)
    -- A request without a URL stores nothing.
    rw [hrest.cache, SendTask.entry, SendTask.event_hi, hurl]
    dsimp only [Option.map_none, Option.toList_none]
    rw [List.append_nil]
    exact hinv.cache.mono hnow
  | @named p url k hresult hurl hused hstores hcache hpublished =>
    rw [hresult, started]
    refine hinv.append (hstores.trans hinv.stores) ?_ hpublished (hnew _ hresult)
    have hlast : lastReading env ((startSend lib config body).run env s.worker).used =
        (later env k 1).time := by
      rw [hused]
      rfl
    have hfirst : s.now ≤ (later env k 0).time := le_trans hle (hclock (Nat.zero_le _))
    have hother : ∀ e ∈ s.entries, e.1 ≠ p.2.message.message_id := by
      intro e he
      obtain ⟨t, ht, hid, -⟩ := exists_send_of_mem he
      rw [← hid]
      exact hnew p hresult t ht
    rw [hcache, hlast, SendTask.entry, SendTask.event_hi, hurl]
    exact hinv.cache.setitem (hclock.later k) hfirst hother _

/-- A request that has returned is still there, as far as its message goes. -/
theorem exists_mem_set {i : ℕ} {a b t : SendTask} (ha : s.sends[i]? = some a) (hjom : b.jom = a.jom)
    (hmsg : b.msg = a.msg) (ht : t ∈ s.sends) :
    ∃ t' ∈ s.sends.set i b, t'.jom = t.jom ∧ t'.msg = t.msg := by
  obtain ⟨j, hj⟩ := List.mem_iff_getElem?.1 ht
  have hsame : ∃ x, s.sends[j]? = some x ∧ x.jom = t.jom ∧ x.msg = t.msg := ⟨t, hj, rfl, rfl⟩
  obtain ⟨x, hx, hxjom, hxmsg⟩ := Slots.exists_getElem?_set ha hsame fun h =>
    (⟨hjom.trans h.1, hmsg.trans h.2⟩ : b.jom = t.jom ∧ b.msg = t.msg)
  exact ⟨x, List.mem_iff_getElem?.2 ⟨j, hx⟩, hxjom, hxmsg⟩

/-- So does the end of its publishing call. -/
theorem JunebugInv.step_publish (hinv : JunebugInv config timeout s) {i : ℕ}
    (hstep : step lib config s (.publish i env) = some s') : JunebugInv config timeout s' := by
  unfold step at hstep
  dsimp only at hstep
  split at hstep
  · rename_i jom msg time htask
    obtain rfl := Option.some.inj hstep
    obtain ⟨result, used, published, hrun, hpublished⟩ := run_finishSend config msg env s.worker
    rw [hrun]
    -- What the request has stored, and its message, stay as they are.
    have hentries : (s.sends.set i ⟨jom, msg, time, some result⟩).filterMap SendTask.entry =
        s.entries := Slots.filterMap_set_keep SendTask.entry htask _ rfl
    have hids : (s.sends.set i ⟨jom, msg, time, some result⟩).map SendTask.message_id =
        s.sends.map SendTask.message_id := Slots.map_set_keep SendTask.message_id htask rfl
    have hstays : ∀ t ∈ s.sends, ∃ t' ∈ s.sends.set i ⟨jom, msg, time, some result⟩,
        t'.jom = t.jom ∧ t'.msg = t.msg := fun t ht => exists_mem_set htask rfl rfl ht
    refine ⟨hinv.stores, ?_, ?_, fun x hx => (hinv.posted x hx).mono hstays, fun m hm => ?_⟩
    · show TimeoutDict.SetOnce timeout
        ((s.sends.set i ⟨jom, msg, time, some result⟩).filterMap SendTask.entry) _ _
      rw [hentries]
      exact hinv.cache
    · show ((s.sends.set i ⟨jom, msg, time, some result⟩).map SendTask.message_id).Nodup
      rw [hids]
      exact hinv.distinct
    · have hold : ∀ m ∈ s.worker.published,
          ∃ t ∈ s.sends.set i ⟨jom, msg, time, some result⟩, t.msg.message = m := by
        intro m hm
        obtain ⟨t, ht, hmessage⟩ := hinv.published m hm
        obtain ⟨t', ht', -, hmsg⟩ := hstays t ht
        exact ⟨t', ht', hmsg ▸ hmessage⟩
      rcases hpublished with heq | heq
      · exact hold m (heq ▸ hm)
      · rcases List.mem_append.1 (heq ▸ hm) with hm | hm
        · exact hold m hm
        · -- The message that is published now is that of the request.
          exact ⟨_, Slots.mem_set_self htask _, (List.mem_singleton.1 hm).symm⟩
  · cases hstep

/-- Where the event of a message goes that was looked up. -/
theorem belongs_of_lookedUp (hinv : JunebugInv config timeout s) {event : Event} {now : ℚ}
    {event_hi : EventHttpInfo}
    (h : (s.worker.state_cache.event_http_info.lookedUp now event.user_message_id).or
      (defaultEventHttpInfo config) = some event_hi) :
    Belongs config s event (eventPost config event event_hi) := by
  rcases Option.or_eq_some_iff.1 h with hfound | ⟨-, hdefault⟩
  · obtain ⟨t, ht⟩ := hinv.cache.mem_of_lookedUp hfound
    obtain ⟨task, htask, hid, hhi⟩ := exists_send_of_mem ht
    exact .inl ⟨task, htask, hid, event_hi, hhi, rfl⟩
  · exact .inr ⟨event_hi, hdefault, rfl⟩

/-- So does the handling of an event. -/
theorem JunebugInv.step_event (hinv : JunebugInv config timeout s) {event : Event}
    (hok : Permitted lib config s (.handle_event event env))
    (hstep : step lib config s (.handle_event event env) = some s') :
    JunebugInv config timeout s' := by
  obtain ⟨-, hle⟩ := hok
  obtain rfl := Option.some.inj hstep
  unfold handled
  rw [run_handleEvent]
  refine ⟨hinv.stores, hinv.cache.expire hle, hinv.distinct, fun x hx => ?_, hinv.published⟩
  rcases List.mem_append.1 hx with hold | hnew
  · exact hinv.posted x hold
  · cases hdestination : (s.worker.state_cache.event_http_info.lookedUp (env 0).time
        event.user_message_id).or (defaultEventHttpInfo config) with
    | none =>
      rw [hdestination] at hnew
      cases hnew
    | some event_hi =>
      rw [hdestination] at hnew
      obtain rfl := List.mem_singleton.1 hnew
      exact belongs_of_lookedUp hinv hdestination

/-- So does the storing of an inbound message. -/
theorem JunebugInv.step_inbound (hinv : JunebugInv config timeout s) {message : Message}
    (hok : Permitted lib config s (.handle_inbound_message message env))
    (hstep : step lib config s (.handle_inbound_message message env) = some s') :
    JunebugInv config timeout s' := by
  obtain ⟨hclock, hle⟩ := hok
  obtain rfl := Option.some.inj hstep
  have hrest : Undisturbed s.worker
      ((onStateCache (MemoryJunebugStateCache.storeInbound message)).run env s.worker).state :=
    ⟨rfl, rfl, rfl⟩
  have hnow : s.now ≤ lastReading env
      ((onStateCache (MemoryJunebugStateCache.storeInbound message)).run env s.worker).used :=
    le_trans hle (hclock (Nat.zero_le _))
  exact hinv.undisturbed hrest hnow

/-- Every step keeps the invariant. -/
theorem JunebugInv.step (hinv : JunebugInv config timeout s) {action : JunebugAction}
    (hok : Permitted lib config s action) (hstep : step lib config s action = some s') :
    JunebugInv config timeout s' := by
  cases action with
  | http_send_message body env => exact hinv.step_send hok hstep
  | publish i env => exact hinv.step_publish hstep
  | handle_event event env => exact hinv.step_event hok hstep
  | handle_inbound_message message env => exact hinv.step_inbound hok hstep

/-- So does every run. -/
theorem JunebugInv.run {now : ℚ} {actions : List JunebugAction}
    (hok : Machine.Meets (JunebugMessageApi.step lib config) (Permitted lib config)
      (JunebugState.new timeout now) actions)
    (hrun : Machine.run (JunebugMessageApi.step lib config) (JunebugState.new timeout now) actions =
      some s) : JunebugInv config timeout s :=
  Machine.run_induction _ (fun _ _ _ hinv hok hstep => hinv.step hok hstep)
    (JunebugInv.new timeout now) hok hrun

/-- An event in time goes where its own message wants it. -/
theorem JunebugInv.posts_of_send (hinv : JunebugInv config timeout s) {event : Event}
    (hle : s.now ≤ (env 0).time) {t : SendTask} (ht : t ∈ s.sends)
    (hid : t.message_id = event.user_message_id)
    (hin : TimeoutDict.age (env 0).time t.time ≤ timeout) :
    (s.worker.state_cache.event_http_info.lookedUp (env 0).time event.user_message_id).or
        (defaultEventHttpInfo config) = t.event_hi.or (defaultEventHttpInfo config) := by
  -- It is the only message with its identifier.
  have honly : ∀ t' ∈ s.sends, t'.message_id = event.user_message_id → t' = t := by
    intro t' ht' hid'
    exact List.inj_on_of_nodup_map hinv.distinct ht' ht (hid'.trans hid.symm)
  cases hhi : t.event_hi with
  | some event_hi =>
    have hmem : (event.user_message_id, t.time, event_hi) ∈ s.entries := by
      refine List.mem_filterMap.2 ⟨t, ht, ?_⟩
      rw [SendTask.entry, hhi, hid]
      rfl
    rw [hinv.cache.lookedUp_of_mem hle hmem hin]
  | none =>
    cases hfound : s.worker.state_cache.event_http_info.lookedUp (env 0).time
        event.user_message_id with
    | none => rfl
    | some event_hi =>
      obtain ⟨u, hmem⟩ := hinv.cache.mem_of_lookedUp hfound
      obtain ⟨t', ht', hid', hhi'⟩ := exists_send_of_mem hmem
      rw [honly t' ht' hid', hhi] at hhi'
      cases hhi'

/-- In every run, an event that is handled in time after its message came to be published goes to
the URL that the request gave, with its token, or else to the default URL with the default token, if
there is one. No event goes to another message's URL, or with another message's token. -/
theorem junebug_event_routed {now : ℚ} {actions : List JunebugAction}
    (hok : Machine.Meets (step lib config) (Permitted lib config) (JunebugState.new timeout now)
      actions)
    (hrun : Machine.run (step lib config) (JunebugState.new timeout now) actions = some s) :
    (∀ m ∈ s.worker.published, ∃ t ∈ s.sends, t.msg.message = m) ∧
    (∀ x ∈ s.posts, Belongs config s x.1 x.2) ∧
    ∀ event env t, Permitted lib config s (.handle_event event env) → t ∈ s.sends →
      t.message_id = event.user_message_id → TimeoutDict.age (env 0).time t.time ≤ timeout →
        ∃ s', step lib config s (.handle_event event env) = some s' ∧ s'.sends = s.sends ∧
          s'.posts = s.posts ++ ((t.event_hi.or (defaultEventHttpInfo config)).map fun event_hi =>
            (event, eventPost config event event_hi)).toList := by
  have hinv := JunebugInv.run hok hrun
  refine ⟨hinv.published, hinv.posted, fun event env t hpermitted ht hid hin => ?_⟩
  refine ⟨_, rfl, rfl, ?_⟩
  unfold handled
  rw [run_handleEvent, hinv.posts_of_send hpermitted.2 ht hid hin]
  cases t.event_hi.or (defaultEventHttpInfo config) with
  | none => rfl
  | some event_hi => rfl

/-- A request with a URL and a token for its events. -/
def urlRequest (url token : Str) : Json.Members :=
  sendRequest ++ [(str "event_url", .string url), (str "event_auth_token", .string token)]

/-- The libraries on two requests, of which the body of the first is empty. -/
def urlLibrary : JunebugLibrary where
  toConversions := (JunebugLibrary.onRequest .null).toConversions
  toInt := (JunebugLibrary.onRequest .null).toInt
  firstOf := (JunebugLibrary.onRequest .null).firstOf
  asText := (JunebugLibrary.onRequest .null).asText
  loads s :=
    if s.isEmpty = true then
      .ok (.object (urlRequest (str "http://localhost/first") (str "secret")))
    else .ok (.object (urlRequest (str "http://localhost/second") (str "token")))

/-- A configuration without a default URL. -/
def urlConfig : JunebugEventConfig := { sendConfig none with }

/-- A clock that stands, with an identifier. -/
def standing (time : ℚ) (uuid : Str) (_ : ℕ) : Reading := ⟨time, uuid, DateTime.min⟩

/-- A clock that stands does not go back. -/
theorem clocked_standing (time : ℚ) (uuid : Str) : Clocked (standing time uuid) :=
  fun _ _ _ => le_refl _

/-- Two requests come in, and the message of the second is published before that of the first. -/
def urlActions : List JunebugAction :=
  [.http_send_message [] (standing 0 (str "m1")), .http_send_message [0x32] (standing 0 (str "m2")),
    .publish 1 (standing 0 []), .publish 0 (standing 0 [])]

/-- The run of the two messages is permitted throughout. -/
theorem meets_urlActions :
    Machine.Meets (step urlLibrary urlConfig) (Permitted urlLibrary urlConfig)
    (JunebugState.new 60 0) urlActions := by
  have hfirst : Permitted urlLibrary urlConfig (JunebugState.new 60 0)
      (.http_send_message [] (standing 0 (str "m1"))) :=
    ⟨clocked_standing 0 _, le_refl _, fun _ _ t ht => by cases ht⟩
  refine Machine.meets_cons _ hfirst rfl ?_
  refine Machine.meets_cons _ ⟨clocked_standing 0 _, le_refl _, fun p hp t ht => ?_⟩ rfl
    ⟨trivial, fun _ _ => ⟨trivial, fun _ _ => trivial⟩⟩
  -- The second message has an identifier of its own.
  obtain rfl := Except.ok.inj hp
  rw [List.mem_singleton.1 ht]
  decide

/-- An event of the message with an identifier. -/
def ackEvent (message_id : Str) : Event :=
  Event.ack message_id (str "s1") ⟨1, str "e1", DateTime.min⟩

/-- An event of either message goes where its request wants it. -/
theorem urlRequests_event_routed :
    ∃ s, Machine.run (step urlLibrary urlConfig) (JunebugState.new 60 0) urlActions = some s ∧
      (∃ s', step urlLibrary urlConfig s (.handle_event (ackEvent (str "m1")) (standing 1 [])) =
          some s' ∧ s'.posts = [(ackEvent (str "m1"), ⟨str "http://localhost/first",
            [(str "Authorization", str "Token secret")],
            junebugEventFromEv (ackEvent (str "m1")) (str "jma")⟩)]) ∧
      ∃ s', step urlLibrary urlConfig s (.handle_event (ackEvent (str "m2")) (standing 1 [])) =
          some s' ∧ s'.posts = [(ackEvent (str "m2"), ⟨str "http://localhost/second",
            [(str "Authorization", str "Token token")],
            junebugEventFromEv (ackEvent (str "m2")) (str "jma")⟩)] := by
  obtain ⟨-, -, hrouted⟩ := junebug_event_routed meets_urlActions rfl
  have hin : TimeoutDict.age 1 0 ≤ 60 := by decide +kernel
  obtain ⟨s₁, hstep₁, -, hposts₁⟩ := hrouted (ackEvent (str "m1")) (standing 1 []) _
    ⟨clocked_standing 1 _, zero_le_one⟩ List.mem_cons_self rfl hin
  obtain ⟨s₂, hstep₂, -, hposts₂⟩ := hrouted (ackEvent (str "m2")) (standing 1 []) _
    ⟨clocked_standing 1 _, zero_le_one⟩ (List.mem_cons_of_mem _ (List.mem_singleton_self _)) rfl hin
  exact ⟨_, rfl, ⟨s₁, hstep₁, hposts₁⟩, s₂, hstep₂, hposts₂⟩

end JunebugMessageApi

end Vumi2
