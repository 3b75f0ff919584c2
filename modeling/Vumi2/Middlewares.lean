import Vumi2.Routers

/-!
# Middlewares

A worker applies its middlewares to each message and event that it consumes, in the order of its
configuration, and its handler gets what the last one returns. A middleware is applied if it is
enabled for the connector and for the direction.

The handler is called once, with the message that came, except that its content is in ASCII when a
`Unidecoder` is enabled; this does not depend on the order of the middlewares (`pipeline_run`). What
is logged does: each `LoggingMiddleware` shows the message as the ones before it have left it.
Besides log records, the lines that each `Unidecoder` prints are all that the middlewares leave
behind.
-/

namespace Vumi2

open Effect Eff Text

/-- `BaseMiddlewareConfig`. -/
structure BaseMiddlewareConfig where
  class_path : Str
  enable_for_connectors : List Str
  inbound_enabled : Bool := false
  outbound_enabled : Bool := false
  event_enabled : Bool := false

/-- `LoggingMiddlewareConfig`. -/
structure LoggingMiddlewareConfig extends BaseMiddlewareConfig where
  log_level : Str := str "info"
  logger_name : Str := str "vumi2.middlewares.logging"

/-- A middleware of one of the classes that there are. -/
inductive Middleware where
  | base (config : BaseMiddlewareConfig)
  /-- With the level that its `setup` has looked up. -/
  | logging (config : LoggingMiddlewareConfig) (log_level : Option ℕ)
  | unidecoder (config : BaseMiddlewareConfig)

/-- What was logged. -/
structure LogRecord where
  level : ℕ
  logger_name : Str
  text : Str
deriving DecidableEq

/-- A worker with its logs, and the lines that it has printed. -/
structure Logged (σ : Type) where
  worker : σ
  logged : List LogRecord
  printed : List Str

/-- The same worker, once more was logged and printed. -/
def Logged.wrote {σ : Type} (w : Logged σ) (records : List LogRecord)
    (lines : List Str) : Logged σ :=
  ⟨w.worker, w.logged ++ records, w.printed ++ lines⟩

/-- Writing nothing changes nothing. -/
theorem Logged.wrote_nil {σ : Type} (w : Logged σ) : w.wrote [] [] = w := by
  unfold wrote
  rw [List.append_nil, List.append_nil]

/-- What is written twice is written one after the other. -/
theorem Logged.wrote_wrote {σ : Type} (w : Logged σ) (records records' : List LogRecord)
    (lines lines' : List Str) :
    (w.wrote records lines).wrote records' lines' =
      w.wrote (records ++ records') (lines ++ lines') := by
  unfold wrote
  rw [List.append_assoc, List.append_assoc]

/-- What the middlewares use of other packages. -/
structure MiddlewareTools where
  /-- `unidecode`. -/
  unidecode : Str → Str
  /-- `str(message)`, and the same of an event. -/
  showMessage : Message → Str
  showEvent : Event → Str

namespace Middleware

/-- The configuration of a middleware. -/
def config : Middleware → BaseMiddlewareConfig
  | base config => config
  | logging config _ => config.toBaseMiddlewareConfig
  | unidecoder config => config

variable (connector_name : Str) (m : Middleware)

/-- `_conn_enabled`. -/
def connEnabled : Bool := m.config.enable_for_connectors.any fun name => name = connector_name

/-- `inbound_enabled`. -/
def inboundEnabled : Bool := m.config.inbound_enabled && m.connEnabled connector_name

/-- `outbound_enabled`. -/
def outboundEnabled : Bool := m.config.outbound_enabled && m.connEnabled connector_name

/-- `event_enabled`. -/
def eventEnabled : Bool := m.config.event_enabled && m.connEnabled connector_name

/-- `getLevelNamesMapping()`. -/
def levelNamesMapping : List (Str × ℕ) :=
  [(str "CRITICAL", 50), (str "FATAL", 50), (str "ERROR", 40), (str "WARN", 30),
    (str "WARNING", 30), (str "INFO", 20), (str "DEBUG", 10), (str "NOTSET", 0)]

/-- `setup`. -/
def setup (upper : Str → Str) : Middleware → Except PyExc Middleware
  | logging config _ =>
    match levelNamesMapping.find? fun entry => entry.1 = upper config.log_level with
    | some entry => .ok (logging config (some entry.2))
    | none => .error .keyError
  | m => .ok m

/-- `_log_msg`. -/
def logMsg {σ α : Type} (config : LoggingMiddlewareConfig) (log_level : Option ℕ) (direction : Str)
    (msg : α) (shown : Str) : Py (Logged σ) α :=
  match log_level with
  | none => raise .attributeError
  | some level => do
    modify fun w => w.wrote [⟨level, config.logger_name, str "Processed " ++ direction ++
      str " message for " ++ connector_name ++ str ": " ++ shown⟩] []
    pure msg

variable (tools : MiddlewareTools)

/-- `message.content = unidecode(message.content)`, if there is any content, which is printed. -/
def unidecodeContent {σ : Type} (message : Message) : Py (Logged σ) Message :=
  if message.content.truthy = true then
    match message.content with
    | .string s => do
      modify fun w => w.wrote [] [str "unidecoded message " ++ tools.unidecode s]
      pure { message with content := .string (tools.unidecode s) }
    | _ => raise .attributeError
  else pure message

/-- What the two handlers for messages do. -/
def handleMessage {σ : Type} (direction : Str) (message : Message) :
    Middleware → Py (Logged σ) Message
  | base _ => pure message
  | logging config log_level =>
    logMsg connector_name config log_level direction message (tools.showMessage message)
  | unidecoder _ => unidecodeContent tools message

/-- `handle_inbound`. -/
def handleInbound {σ : Type} (message : Message) : Py (Logged σ) Message :=
  handleMessage connector_name tools (str "inbound") message m

/-- `handle_outbound`. -/
def handleOutbound {σ : Type} (message : Message) : Py (Logged σ) Message :=
  handleMessage connector_name tools (str "outbound") message m

/-- `handle_event`. -/
def handleEvent {σ : Type} (event : Event) : Py (Logged σ) Event :=
  match m with
  | logging config log_level =>
    logMsg connector_name config log_level (str "event") event (tools.showEvent event)
  | _ => pure event

end Middleware

/-- `BaseWorker.setup`. -/
def setupMiddlewares (upper : Str → Str) (middlewares : List Middleware) :
    Except PyExc (List Middleware) := middlewares.mapM (Middleware.setup upper)

/-- A computation of the worker itself. -/
def onWorker {σ α : Type} (m : Py σ α) : Py (Logged σ) α :=
  on Logged.worker (fun w s => ⟨s, w.logged, w.printed⟩) m

/-- The handlers that `middleware_inbound_handler` and its siblings make. -/
def middlewareHandler {σ μ α : Type} (enabled : Middleware → Bool)
    (handle : Middleware → μ → Py (Logged σ) μ) (middlewares : List Middleware)
    (handler : μ → Py σ α)
    (msg : μ) : Py (Logged σ) α := do
  let msg ← (middlewares.filter enabled).foldlM (fun msg m => handle m msg) msg
  onWorker (handler msg)

section

variable {σ α : Type} (tools : MiddlewareTools) (connector_name : Str)
    (middlewares : List Middleware)

/-- `middleware_inbound_handler`. -/
def middlewareInboundHandler (inbound_handler : Message → Py σ α) (msg : Message) :
    Py (Logged σ) α :=
  middlewareHandler (Middleware.inboundEnabled connector_name)
    (fun m => m.handleInbound connector_name tools) middlewares inbound_handler msg

/-- `middleware_outbound_handler`. -/
def middlewareOutboundHandler (outbound_handler : Message → Py σ α) (msg : Message) :
    Py (Logged σ) α :=
  middlewareHandler (Middleware.outboundEnabled connector_name)
    (fun m => m.handleOutbound connector_name tools) middlewares outbound_handler msg

/-- `middleware_event_handler`. -/
def middlewareEventHandler (event_handler : Event → Py σ α) (msg : Event) : Py (Logged σ) α :=
  middlewareHandler (Middleware.eventEnabled connector_name)
    (fun m => m.handleEvent connector_name tools) middlewares event_handler msg

end

/-! ## What a handler gets -/

/-- What is documented of `unidecode`: it returns ASCII, and leaves ASCII as it is. -/
structure MiddlewareTools.Documented (tools : MiddlewareTools) : Prop where
  ascii : ∀ s, ∀ c ∈ tools.unidecode s, c.val < 128
  same : ∀ s, (∀ c ∈ s, c.val < 128) → tools.unidecode s = s

/-- The content is `str | None`, as it is in every message that is consumed. -/
def Message.HasText (message : Message) : Prop :=
  message.content = .null ∨ ∃ s, message.content = .string s

/-- The message with its content in ASCII. -/
def Message.unidecoded (tools : MiddlewareTools) (message : Message) : Message :=
  match message.content with
  | .string s => { message with content := .string (tools.unidecode s) }
  | _ => message

namespace Middleware

/-- Whether the middleware is a `Unidecoder`. -/
def isUnidecoder : Middleware → Bool
  | unidecoder _ => true
  | _ => false

/-- The middleware was set up. -/
def IsReady : Middleware → Prop
  | logging _ none => False
  | _ => True

variable {tools : MiddlewareTools} {upper : Str → Str}

/-- A middleware that sets up is ready, of the same configuration and class. -/
theorem setup_eq_ok {m m' : Middleware} (h : m.setup upper = .ok m') :
    m'.IsReady ∧ m'.config = m.config ∧ m'.isUnidecoder = m.isUnidecoder := by
  cases m with
  | base config =>
    obtain rfl := Except.ok.inj h
    exact ⟨trivial, rfl, rfl⟩
  | unidecoder config =>
    obtain rfl := Except.ok.inj h
    exact ⟨trivial, rfl, rfl⟩
  | logging config log_level =>
    rw [setup] at h
    cases hfind : levelNamesMapping.find? fun entry => entry.1 = upper config.log_level with
    | none =>
      rw [hfind] at h
      cases h
    | some entry =>
      rw [hfind] at h
      obtain rfl := Except.ok.inj h
      exact ⟨trivial, rfl, rfl⟩

variable (tools) in
/-- What a middleware returns. -/
def passes (m : Middleware) (message : Message) : Message :=
  if m.isUnidecoder = true then message.unidecoded tools else message

/-- What was unidecoded still has its text. -/
theorem hasText_unidecoded {message : Message} (h : message.HasText) :
    (message.unidecoded tools).HasText := by
  unfold Message.unidecoded
  obtain hnull | ⟨s, hs⟩ := h
  · rw [hnull]
    exact .inl hnull
  · rw [hs]
    exact .inr ⟨_, rfl⟩

/-- A message with a text has one after any middleware. -/
theorem hasText_passes {message : Message} (h : message.HasText) (m : Middleware) :
    (m.passes tools message).HasText := by
  unfold passes
  split_ifs
  · exact hasText_unidecoded h
  · exact h

/-- A `Unidecoder` prints at most, and returns the message in ASCII. -/
theorem run_unidecodeContent {σ : Type} (htools : tools.Documented) {message : Message}
    (h : message.HasText) (env : ℕ → Reading) (w : Logged σ) :
    ∃ lines, (unidecodeContent tools message).run env w =
      ⟨.ok (message.unidecoded tools), 0, w.wrote [] lines⟩ := by
  unfold unidecodeContent Message.unidecoded
  obtain hnull | ⟨s, hs⟩ := h
  · refine ⟨[], ?_⟩
    rw [hnull, Logged.wrote_nil]
    rfl
  · rw [hs]
    cases s with
    | nil =>
      -- Without any content, none is printed.
      have hempty : tools.unidecode [] = [] := htools.same [] fun c hc => by cases hc
      have hsame : ({ message with content := .string [] } : Message) = message := by
        rw [← hs]
      refine ⟨[], ?_⟩
      dsimp only
      rw [hempty, hsame, Logged.wrote_nil]
      rfl
    | cons c s => exact ⟨_, rfl⟩

/-- A middleware logs and prints at most, and returns the message. -/
theorem run_handleMessage {σ : Type} (htools : tools.Documented) (connector_name direction : Str)
    {message : Message} (h : message.HasText) {m : Middleware} (hready : m.IsReady)
    (env : ℕ → Reading) (w : Logged σ) :
    ∃ records lines, (handleMessage connector_name tools direction message m).run env w =
      ⟨.ok (m.passes tools message), 0, w.wrote records lines⟩ := by
  cases m with
  | base config => exact ⟨[], [], by rw [Logged.wrote_nil]; rfl⟩
  | unidecoder config => exact ⟨[], run_unidecodeContent htools h env w⟩
  | logging config log_level =>
    cases log_level with
    | none => exact absurd hready id
    | some level => exact ⟨_, [], rfl⟩

/-- It does no more to an event. -/
theorem run_handleEvent {σ : Type} (connector_name : Str) (event : Event) {m : Middleware}
    (hready : m.IsReady) (env : ℕ → Reading) (w : Logged σ) :
    ∃ records lines, (handleEvent connector_name m tools event).run env w =
      ⟨.ok event, 0, w.wrote records lines⟩ := by
  cases m with
  | base config => exact ⟨[], [], by rw [Logged.wrote_nil]; rfl⟩
  | unidecoder config => exact ⟨[], [], by rw [Logged.wrote_nil]; rfl⟩
  | logging config log_level =>
    cases log_level with
    | none => exact absurd hready id
    | some level => exact ⟨_, [], rfl⟩

end Middleware

/-- What follows a computation that reads nothing. -/
theorem run_bind_of_silent {σ α β : Type} {m : Py σ α} {env : ℕ → Reading} {s s' : σ} {a : α}
    (h : m.run env s = ⟨.ok a, 0, s'⟩) (f : α → Py σ β) :
    (m >>= f).run env s = (f a).run env s' := by
  rw [run_bind_ok h, later_zero]
  exact congrArg (fun used => Outcome.mk _ used _) (Nat.zero_add _)

/-- Middlewares that return what they are given but for a function log and print, and return its
fold. -/
theorem run_foldlM {σ μ : Type} (handle : Middleware → μ → Py (Logged σ) μ)
    (passes : Middleware → μ → μ) (good : μ → Prop) {middlewares : List Middleware}
    (hpasses : ∀ m msg, good msg → good (passes m msg))
    (hhandle : ∀ m ∈ middlewares, ∀ msg, good msg → ∀ env w, ∃ records lines,
      (handle m msg).run env w = ⟨.ok (passes m msg), 0, w.wrote records lines⟩)
    (msg : μ) (hmsg : good msg) (env : ℕ → Reading) (w : Logged σ) :
    ∃ records lines, (middlewares.foldlM (fun msg m => handle m msg) msg).run env w =
      ⟨.ok (middlewares.foldl (fun msg m => passes m msg) msg), 0, w.wrote records lines⟩ := by
  induction middlewares generalizing msg w with
  | nil => exact ⟨[], [], by rw [Logged.wrote_nil]; rfl⟩
  | cons m middlewares ih =>
    obtain ⟨first, line, hfirst⟩ := hhandle m List.mem_cons_self msg hmsg env w
    obtain ⟨rest, lines, hrest⟩ := ih (fun m hm => hhandle m (List.mem_cons_of_mem _ hm))
      (passes m msg) (hpasses m msg hmsg) (w.wrote first line)
    refine ⟨first ++ rest, line ++ lines, ?_⟩
    rw [List.foldlM_cons, run_bind_ok hfirst, later_zero, hrest, Logged.wrote_wrote]
    rfl

variable {tools : MiddlewareTools} {upper : Str → Str}

/-- The text of ASCII that `unidecode` gives, it leaves as it is. -/
theorem unidecoded_idem (htools : tools.Documented) (message : Message) :
    (message.unidecoded tools).unidecoded tools = message.unidecoded tools := by
  unfold Message.unidecoded
  cases hcontent : message.content with
  | string s =>
    dsimp only
    rw [htools.same _ (htools.ascii s)]
  | null | bool | int | float | array | object =>
    dsimp only
    rw [hcontent]

/-- It is enough that one of them is a `Unidecoder`, and the order does not matter. -/
theorem foldl_passes (htools : tools.Documented) (middlewares : List Middleware)
    (message : Message) :
    middlewares.foldl (fun msg m => m.passes tools msg) message =
      if middlewares.any Middleware.isUnidecoder = true then message.unidecoded tools
      else message := by
  induction middlewares generalizing message with
  | nil => rfl
  | cons m middlewares ih =>
    rw [List.foldl_cons, ih, List.any_cons, Middleware.passes]
    cases m.isUnidecoder with
    | false => rfl
    | true =>
      rw [Bool.true_or, if_pos rfl, unidecoded_idem htools, ite_self]

/-- The middlewares of a worker that is set up are. -/
theorem isReady_of_setup {configured middlewares : List Middleware}
    (h : setupMiddlewares upper configured = .ok middlewares) :
    ∀ m ∈ middlewares, m.IsReady := by
  unfold setupMiddlewares at h
  induction configured generalizing middlewares with
  | nil =>
    obtain rfl := Except.ok.inj h
    exact fun m hm => by cases hm
  | cons m configured ih =>
    rw [List.mapM_cons] at h
    obtain ⟨m', hm', h⟩ := bind_eq_ok.1 h
    obtain ⟨rest, hrest, h⟩ := bind_eq_ok.1 h
    obtain rfl := Except.ok.inj h
    exact List.forall_mem_cons.2 ⟨(Middleware.setup_eq_ok hm').1, ih hrest⟩

/-- Before a handler for messages. -/
theorem run_messages {σ α : Type} (htools : tools.Documented) {middlewares : List Middleware}
    (hready : ∀ m ∈ middlewares, m.IsReady) (enabled : Middleware → Bool)
    (connector_name direction : Str) {message : Message} (htext : message.HasText)
    (handler : Message → Py σ α) (env : ℕ → Reading) (w : Logged σ) :
    ∃ records lines, (middlewareHandler enabled
        (fun m msg => Middleware.handleMessage connector_name tools direction msg m) middlewares
        handler message).run env w =
      (onWorker (handler (if (middlewares.filter enabled).any Middleware.isUnidecoder = true then
        message.unidecoded tools else message))).run env (w.wrote records lines) := by
  -- The middlewares run one after the other, and none of them reads the clock.
  have hfold : ∃ records lines, ((middlewares.filter enabled).foldlM
      (fun msg m =>
        Middleware.handleMessage connector_name tools direction msg m) message).run env w =
        ⟨.ok ((middlewares.filter enabled).foldl (fun msg m => m.passes tools msg) message), 0,
          w.wrote records lines⟩ :=
    run_foldlM (fun m msg => Middleware.handleMessage connector_name tools direction msg m)
      (fun m msg => m.passes tools msg) Message.HasText
      (fun m msg hmsg => Middleware.hasText_passes hmsg m)
      (fun m hm msg hmsg env w => Middleware.run_handleMessage htools connector_name direction hmsg
        (hready m (List.mem_of_mem_filter hm)) env w) message htext env w
  -- Together they make one change, whatever their order.
  obtain ⟨records, lines, hrun⟩ := hfold
  rw [foldl_passes htools] at hrun
  exact ⟨records, lines, run_bind_of_silent hrun _⟩

/-- Before a handler for events. -/
theorem run_events {σ α : Type} {middlewares : List Middleware}
    (hready : ∀ m ∈ middlewares, m.IsReady) (connector_name : Str) (event : Event)
    (handler : Event → Py σ α) (env : ℕ → Reading) (w : Logged σ) :
    ∃ records lines, (middlewareEventHandler tools connector_name middlewares handler event).run env
      w = (onWorker (handler event)).run env (w.wrote records lines) := by
  have hfold := run_foldlM
    (fun m (msg : Event) => Middleware.handleEvent (σ := σ) connector_name m tools msg)
    (fun _ msg => msg) (fun _ => True) (fun _ _ _ => trivial)
    (fun m hm msg _ env w => Middleware.run_handleEvent connector_name msg
      (hready m (List.mem_of_mem_filter (p := Middleware.eventEnabled connector_name) hm)) env w)
    event trivial env w
  obtain ⟨records, lines, hrun⟩ := hfold
  rw [List.foldl_fixed] at hrun
  exact ⟨records, lines, run_bind_of_silent hrun _⟩

/-- What a handler of a worker gets, whatever middlewares are before it: the message itself, with
its content in ASCII if one of those that are enabled is a `Unidecoder`, and the event itself. It is
called once, and what it does is not changed. Before that, something may have been logged or
printed. -/
theorem pipeline_run {σ α : Type} (htools : tools.Documented)
    {configured middlewares : List Middleware}
    (hsetup : setupMiddlewares upper configured = .ok middlewares) (connector_name : Str)
    {message : Message} (htext : message.HasText) (event : Event) (handler : Message → Py σ α)
    (event_handler : Event → Py σ α) (env : ℕ → Reading) (w : Logged σ) :
    (∃ records lines,
        (middlewareInboundHandler tools connector_name middlewares handler message).run env w =
          (onWorker (handler (if (middlewares.filter (Middleware.inboundEnabled connector_name)).any
              Middleware.isUnidecoder = true then message.unidecoded tools else message))).run env
            (w.wrote records lines)) ∧
      (∃ records lines,
        (middlewareOutboundHandler tools connector_name middlewares handler message).run env w =
          (onWorker (handler
            (if (middlewares.filter (Middleware.outboundEnabled connector_name)).any
              Middleware.isUnidecoder = true then message.unidecoded tools else message))).run env
            (w.wrote records lines)) ∧
      ∃ records lines,
        (middlewareEventHandler tools connector_name middlewares event_handler event).run env w =
          (onWorker (event_handler event)).run env (w.wrote records lines) := by
  have hready := isReady_of_setup hsetup
  -- The three handlers differ in which middlewares are enabled, and in what they are called for.
  exact ⟨run_messages htools hready _ connector_name _ htext handler env w,
    run_messages htools hready _ connector_name _ htext handler env w,
    run_events hready connector_name event event_handler env w⟩

/-- What `unidecode` makes of a character, of which only `é` stands for all that is not in ASCII. -/
def unidecodeChar (c : CodePoint) : Option CodePoint :=
  if c.val < 128 then some c else if c = ofChar 'é' then some (ofChar 'e') else none

/-- Tools that know the characters of ASCII and `é`; a message is shown by its identifier. -/
def asciiTools : MiddlewareTools where
  unidecode s := s.filterMap unidecodeChar
  showMessage message := message.message_id
  showEvent event := event.event_id

/-- The tools of ASCII do what the documentation of `unidecode` says. -/
theorem asciiTools_documented : asciiTools.Documented where
  ascii := by
    intro s c hc
    obtain ⟨d, -, hd⟩ := List.mem_filterMap.1 hc
    unfold unidecodeChar at hd
    split_ifs at hd with hascii
    · exact Option.some.inj hd ▸ hascii
    · exact Option.some.inj hd ▸ by decide
  same := by
    intro s hs
    have hall : ∀ c ∈ s, unidecodeChar c = some c := fun c hc => if_pos (hs c hc)
    calc s.filterMap unidecodeChar = s.filterMap some := List.filterMap_congr hall
      _ = s := List.filterMap_some

/-- Outbound messages are logged, and then lose their accents. -/
def loggedAndUnidecoded (log_level : Option ℕ) : List Middleware :=
  [.logging ⟨⟨[], [str "sms"], false, true, false⟩, str "info", str "sms"⟩ log_level,
    .unidecoder ⟨[], [str "sms"], false, true, false⟩]

/-- A message whose content has an accent. -/
def cafeMessage : Message :=
  { Message.create [] [] [] .sms ⟨0, str "m", DateTime.min⟩ with content := .string (str "café") }

/-- A handler that returns the content gets it without its accent. -/
theorem accent_lost : ∃ records lines,
    (middlewareOutboundHandler asciiTools (str "sms") (loggedAndUnidecoded (some 20))
      (fun message => (pure message.content : Py Unit Json)) cafeMessage).run
        (fun _ => ⟨0, str "m", DateTime.min⟩) ⟨(), [], []⟩ =
      ⟨.ok (.string (str "cafe")), 0, ⟨(), records, lines⟩⟩ := by
  have hsetup : setupMiddlewares (fun _ => str "INFO") (loggedAndUnidecoded none) =
      .ok (loggedAndUnidecoded (some 20)) := rfl
  have htext : cafeMessage.HasText := .inr ⟨_, rfl⟩
  obtain ⟨-, ⟨records, lines, hrun⟩, -⟩ :=
    pipeline_run asciiTools_documented hsetup (str "sms") htext
    (Event.ack [] [] ⟨0, [], DateTime.min⟩) (fun message => (pure message.content : Py Unit Json))
    (fun _ => pure Json.null) (fun _ => ⟨0, str "m", DateTime.min⟩) ⟨(), [], []⟩
  exact ⟨[] ++ records, [] ++ lines, hrun⟩

/-- Whatever middlewares a router has, it sends each inbound message where it would without them. -/
theorem ToAddressRouter.routes_through_middlewares {compile : Str → Option (Str → Bool)}
    {config : ToAddressRouterConfig} {r : ToAddressRouter} (hr : IsSetUp compile config r)
    (htools : tools.Documented) {configured middlewares : List Middleware}
    (hsetup : setupMiddlewares upper configured = .ok middlewares) (connector_name : Str)
    {message : Message} (htext : message.HasText) (env : ℕ → Reading)
    (w : Logged MemoryMessageCache) :
    ∃ m records lines, (m = message ∨ m = message.unidecoded tools) ∧
      (middlewareInboundHandler tools connector_name middlewares r.handleInboundMessage message).run
          env w =
        ⟨.ok ((config.selected compile message.to_addr).map fun app => .inbound app m), 0,
          w.wrote records lines⟩ := by
  -- The router looks at the address only, which no middleware changes.
  have hto_addr : (message.unidecoded tools).to_addr = message.to_addr := by
    unfold Message.unidecoded
    cases message.content with
    | string s => rfl
    | null | bool | int | float | array | object => rfl
  obtain ⟨records, lines, hrun⟩ := run_messages htools (isReady_of_setup hsetup)
    (Middleware.inboundEnabled connector_name) connector_name (str "inbound") htext
    r.handleInboundMessage env w
  rw [onWorker, run_on, run_handleInboundMessage hr] at hrun
  split_ifs at hrun
  · rw [hto_addr] at hrun
    exact ⟨message.unidecoded tools, records, lines, .inr rfl, hrun⟩
  · exact ⟨message, records, lines, .inl rfl, hrun⟩

end Vumi2
