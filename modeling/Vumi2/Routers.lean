import Vumi2.Lib.Machine
import Vumi2.MessageCaches

/-!
# The to-address router

`ToAddressRouter` after its `setup`, and a machine for its handlers. A handler waits only in the
publishing call at its end: nothing in the message cache waits. So a call of a handler is one step,
up to its publishing call, and the end of that call is another; the runs of the machine are the
interleavings of the tasks. The broker takes what is published.

What a pattern matches is a parameter: `compile` is `re.compile`, which gives the truth of
`pattern.match` for each address, or refuses a pattern. `run_handleEvent` and its siblings say what
each handler does, by the application that the configuration selects for an address.
-/

namespace Vumi2

open Effect Eff Text

/-- `ToAddressMapping`. -/
structure ToAddressMapping where
  name : Str
  pattern : Str
deriving DecidableEq

/-- `ToAddressRouterConfig`, where the message cache is a `MemoryMessageCache`. -/
structure ToAddressRouterConfig where
  transport_names : List Str
  to_address_mappings : List ToAddressMapping
  /-- The timeout that `message_cache_config` gives. -/
  timeout : ℚ
  default_app : Option Str

/-- What `setup` raises. -/
inductive SetupExc where
  /-- `re.compile` refuses a pattern. -/
  | patternError
  | duplicateConnectorError (message : Str)

/-- `ToAddressRouter`, with the names of its connectors. -/
structure ToAddressRouter where
  config : ToAddressRouterConfig
  mappings : List (Str × (Str → Bool))
  receive_inbound_connectors : List Str
  receive_outbound_connectors : List Str

/-- A call of a publishing method of a connector. -/
inductive Publication where
  | outbound (connector : Str) (message : Message)
  | inbound (connector : Str) (message : Message)
  | event (connector : Str) (event : Event)

namespace ToAddressRouter

/-- A name is that of a connector. -/
def isConnector (connectors : List Str) (name : Str) : Bool := connectors.any fun c => c = name

/-- `setup_receive_outbound_connector`. -/
def setupReceiveOutboundConnector (r : ToAddressRouter) (name : Str) :
    Except SetupExc ToAddressRouter :=
  if isConnector r.receive_outbound_connectors name = true then
    .error (.duplicateConnectorError
      (str "Attempt to add duplicate receive outbound connector with name " ++ name))
  else .ok { r with receive_outbound_connectors := r.receive_outbound_connectors ++ [name] }

/-- `setup_receive_inbound_connector`. -/
def setupReceiveInboundConnector (r : ToAddressRouter) (name : Str) :
    Except SetupExc ToAddressRouter :=
  if isConnector r.receive_inbound_connectors name = true then
    .error (.duplicateConnectorError
      (str "Attempt to add duplicate receive inbound connector with name " ++ name))
  else .ok { r with receive_inbound_connectors := r.receive_inbound_connectors ++ [name] }

variable (compile : Str → Option (Str → Bool))

/-- One round of the loop of `setup` over the mappings. -/
def setupMapping (r : ToAddressRouter) (mapping : ToAddressMapping) :
    Except SetupExc ToAddressRouter :=
  match compile mapping.pattern with
  | none => .error .patternError
  | some pattern =>
    setupReceiveOutboundConnector { r with mappings := r.mappings ++ [(mapping.name, pattern)] }
      mapping.name

/-- `setup` between its loops. -/
def setupDefaultApp (r : ToAddressRouter) : Except SetupExc ToAddressRouter :=
  match r.config.default_app with
  | none => .ok r
  | some [] => .ok r
  | some default_app =>
    if isConnector r.receive_outbound_connectors default_app = true then .ok r
    else r.setupReceiveOutboundConnector default_app

/-- `ToAddressRouter.setup`. -/
def setup (config : ToAddressRouterConfig) : Except SetupExc ToAddressRouter := do
  let r ← config.to_address_mappings.foldlM (setupMapping compile) ⟨config, [], [], []⟩
  let r ← r.setupDefaultApp
  config.transport_names.foldlM setupReceiveInboundConnector r

/-- `_get_matched_mapping_name`. -/
def getMatchedMappingName (r : ToAddressRouter) (addr : Str) : Option Str :=
  match r.mappings.find? fun m => m.2 addr with
  | some m => some m.1
  | none => r.config.default_app

/-- `self.receive_outbound_connectors[name]`, and its like. -/
def connector {σ : Type} (connectors : List Str) (name : Str) : Py σ Unit :=
  if isConnector connectors name = true then pure () else raise .keyError

/-- The end of a handler: publishes to an application if its name is true. -/
def toApp (r : ToAddressRouter) (app_name : Option Str) (publication : Str → Publication) :
    Py MemoryMessageCache (Option Publication) :=
  match app_name with
  | none => pure none
  | some [] => pure none
  | some name => do
    connector r.receive_outbound_connectors name
    pure (some (publication name))

/-- `handle_inbound_message` up to its publishing call. -/
def handleInboundMessage (r : ToAddressRouter) (message : Message) :
    Py MemoryMessageCache (Option Publication) :=
  r.toApp (r.getMatchedMappingName message.to_addr) fun app_name => .inbound app_name message

/-- `handle_event` up to its publishing call. -/
def handleEvent (r : ToAddressRouter) (event : Event) :
    Py MemoryMessageCache (Option Publication) := do
  let outbound ← MemoryMessageCache.fetchOutbound (some event.user_message_id)
  match outbound with
  | none => pure none
  | some outbound =>
    r.toApp (r.getMatchedMappingName outbound.from_addr) fun app_name => .event app_name event

/-- `handle_outbound_message` up to its publishing call. -/
def handleOutboundMessage (r : ToAddressRouter) (message : Message) :
    Py MemoryMessageCache (Option Publication) := do
  MemoryMessageCache.storeOutbound message
  connector r.receive_inbound_connectors message.transport_name
  pure (some (.outbound message.transport_name message))

end ToAddressRouter

/-- A call of a handler. -/
inductive RouterCall where
  | handle_outbound_message (message : Message)
  | handle_event (event : Event)
  | handle_inbound_message (message : Message)

/-- How far a call of a handler has come. -/
inductive RouterPhase where
  /-- It waits in its publishing call. -/
  | publishing (p : Publication)
  /-- It has returned after its publishing call. -/
  | published (p : Publication)
  /-- It has returned without one. -/
  | dropped
  | raised (e : PyExc)

namespace RouterPhase

/-- The phase of a handler that has come to its publishing call, or to its end. -/
def reached : Except PyExc (Option Publication) → RouterPhase
  | .ok (some p) => publishing p
  | .ok none => dropped
  | .error e => raised e

/-- What a handler in this phase came to. -/
def outcome : RouterPhase → Except PyExc (Option Publication)
  | publishing p => .ok (some p)
  | published p => .ok (some p)
  | dropped => .ok none
  | raised e => .error e

/-- What has been published. -/
def sent : RouterPhase → Option Publication
  | published p => some p
  | _ => none

/-- The outcome of a reached phase is what it was reached with. -/
@[simp] theorem outcome_reached (x : Except PyExc (Option Publication)) :
    (reached x).outcome = x := by
  rcases x with e | p | p
  · rfl
  · rfl
  · rfl

/-- A phase that is reached has sent nothing by itself. -/
@[simp] theorem sent_reached (x : Except PyExc (Option Publication)) : (reached x).sent = none := by
  rcases x with e | p | p
  · rfl
  · rfl
  · rfl

/-- A handler comes to a publication before and after the publishing call. -/
theorem outcome_eq_some_iff {phase : RouterPhase} {p : Publication} :
    phase.outcome = .ok (some p) ↔ phase = publishing p ∨ phase = published p := by
  constructor
  · intro h
    cases phase with
    | publishing q =>
      cases h
      exact .inl rfl
    | published q =>
      cases h
      exact .inr rfl
    | dropped => cases h
    | raised e => cases h
  · rintro (rfl | rfl)
    · rfl
    · rfl

/-- Only a dropped message is an outcome without a publication. -/
theorem outcome_eq_none_iff {phase : RouterPhase} :
    phase.outcome = .ok none ↔ phase = dropped := by
  constructor
  · intro h
    cases phase with
    | dropped => rfl
    | _ => cases h
  · rintro rfl
    rfl

end RouterPhase

/-- A task that runs a handler. -/
structure RouterTask where
  call : RouterCall
  /-- The clock at the last reading before the publishing call. -/
  time : ℚ
  phase : RouterPhase

/-- A call of a handler and what it came to. -/
structure RouterEntry where
  call : RouterCall
  time : ℚ
  outcome : Except PyExc (Option Publication)

/-- What does not change of a task. -/
def RouterTask.entry (task : RouterTask) : RouterEntry := ⟨task.call, task.time, task.phase.outcome⟩

/-- A router at work. -/
structure RouterState where
  message_cache : MemoryMessageCache
  /-- The calls of the handlers, in order. -/
  tasks : List RouterTask
  /-- What was published, each with the task that published it. -/
  published : List (ℕ × Publication)
  /-- The clock at its last reading. -/
  now : ℚ

/-- A step of a router at work. -/
inductive RouterAction where
  /-- A handler is called, and runs to its publishing call. -/
  | call (c : RouterCall) (env : ℕ → Reading)
  /-- The publishing call of a task returns. -/
  | publish (i : ℕ)

namespace RouterState

/-- A router after `setup`. -/
def new (config : ToAddressRouterConfig) (now : ℚ) : RouterState :=
  ⟨MemoryMessageCache.new config.timeout, [], [], now⟩

/-- What has been called, and what it came to. -/
def history (s : RouterState) : List RouterEntry := s.tasks.map RouterTask.entry

/-- What a task has published. -/
def publications (s : RouterState) (i : ℕ) : List Publication :=
  (s.published.filter fun p => p.1 = i).map Prod.snd

/-- A task publishes `p`, and that once: it is about to, or it has. -/
def PublishesOnce (s : RouterState) (i : ℕ) (p : Publication) : Prop :=
  ∃ task, s.tasks[i]? = some task ∧
    (task.phase = .publishing p ∧ s.publications i = [] ∨
      task.phase = .published p ∧ s.publications i = [p])

/-- A task publishes nothing. -/
def Drops (s : RouterState) (i : ℕ) : Prop :=
  ∃ task, s.tasks[i]? = some task ∧ task.phase = .dropped ∧ s.publications i = []

end RouterState

namespace ToAddressRouter

/-- The handler of a call. -/
def handler (r : ToAddressRouter) : RouterCall → Py MemoryMessageCache (Option Publication)
  | .handle_outbound_message message => r.handleOutboundMessage message
  | .handle_event event => r.handleEvent event
  | .handle_inbound_message message => r.handleInboundMessage message

/-- The clock at the last of the readings that were taken. -/
def lastTime (now : ℚ) (env : ℕ → Reading) : ℕ → ℚ
  | 0 => now
  | used + 1 => (env used).time

/-- The state after a handler has come to its publishing call, at the time `now`. -/
def called (s : RouterState) (c : RouterCall) (now : ℚ)
    (o : Outcome PyExc MemoryMessageCache (Option Publication)) : RouterState :=
  { s with
    message_cache := o.state
    tasks := s.tasks ++ [⟨c, now, .reached o.result⟩]
    now := now }

/-- The state after a step. -/
def step (r : ToAddressRouter) (s : RouterState) : RouterAction → Option RouterState
  | .call c env =>
    some (called s c (lastTime s.now env ((r.handler c).run env s.message_cache).used)
      ((r.handler c).run env s.message_cache))
  | .publish i =>
    match s.tasks[i]? with
    | some ⟨c, time, .publishing p⟩ =>
      some { s with
        tasks := s.tasks.set i ⟨c, time, .published p⟩
        published := s.published ++ [(i, p)] }
    | _ => none

end ToAddressRouter

/-! ## What setup builds -/

/-- The application that a configuration names for an address: that of the first mapping whose
pattern matches, else the default. -/
def ToAddressRouterConfig.chosen (config : ToAddressRouterConfig)
    (compile : Str → Option (Str → Bool)) (addr : Str) : Option Str :=
  match config.to_address_mappings.find? fun m => (compile m.pattern).any fun p => p addr with
  | some m => some m.name
  | none => config.default_app

/-- The application that an address is routed to: an empty name stands for none. -/
def ToAddressRouterConfig.selected (config : ToAddressRouterConfig)
    (compile : Str → Option (Str → Bool)) (addr : Str) : Option Str :=
  (config.chosen compile addr).filter fun name => !name.isEmpty

namespace ToAddressRouter

variable {compile : Str → Option (Str → Bool)}

/-- A connector more is a name more that has one. -/
theorem isConnector_append (connectors : List Str) (a b : Str) :
    isConnector (connectors ++ [a]) b = (isConnector connectors b || decide (a = b)) := by
  unfold isConnector
  rw [List.any_append]
  simp

/-- A router that is set up for a configuration. -/
structure IsSetUp (compile : Str → Option (Str → Bool)) (config : ToAddressRouterConfig)
    (r : ToAddressRouter) : Prop where
  config_eq : r.config = config
  /-- Every address is matched as the configuration says. -/
  matched : ∀ addr, r.getMatchedMappingName addr = config.chosen compile addr
  /-- Every application that an address is routed to has its connector. -/
  connected : ∀ addr name, config.selected compile addr = some name →
    isConnector r.receive_outbound_connectors name = true

/-- What the loop of `setup` over the mappings has done. -/
structure Mapped (compile : Str → Option (Str → Bool)) (config : ToAddressRouterConfig)
    (done : List ToAddressMapping) (r : ToAddressRouter) : Prop where
  config_eq : r.config = config
  found : ∀ addr, (r.mappings.find? fun m => m.2 addr).map Prod.fst =
    (done.find? fun m => (compile m.pattern).any fun p => p addr).map ToAddressMapping.name
  connected : ∀ m ∈ done, isConnector r.receive_outbound_connectors m.name = true

variable {config : ToAddressRouterConfig} {r r' : ToAddressRouter}

/-- Setting up a connector for outbound messages adds its name to them. -/
theorem setupReceiveOutboundConnector_ok {name : Str}
    (h : r.setupReceiveOutboundConnector name = .ok r') :
    r' = { r with receive_outbound_connectors := r.receive_outbound_connectors ++ [name] } := by
  unfold setupReceiveOutboundConnector at h
  split_ifs at h
  exact (Except.ok.inj h).symm

/-- One round of the loop. -/
theorem Mapped.setupMapping {done : List ToAddressMapping} {m : ToAddressMapping}
    (h : Mapped compile config done r) (hround : r.setupMapping compile m = .ok r') :
    Mapped compile config (done ++ [m]) r' := by
  unfold ToAddressRouter.setupMapping at hround
  cases hcompile : compile m.pattern with
  | none =>
    rw [hcompile] at hround
    cases hround
  | some pattern =>
    rw [hcompile] at hround
    obtain rfl := setupReceiveOutboundConnector_ok hround
    refine ⟨h.config_eq, fun addr => ?_, fun m' hm' => ?_⟩
    · -- The new mapping comes after those of `done`, so it is tried last.
      have hlast : (List.find? (fun m : Str × (Str → Bool) => m.2 addr) [(m.name, pattern)]).map
            Prod.fst =
          (List.find? (fun m => (compile m.pattern).any fun p => p addr) [m]).map
            ToAddressMapping.name := by
        unfold List.find?
        rw [hcompile]
        cases hpattern : pattern addr with
        | true => simp [hpattern]
        | false => simp [hpattern]
      dsimp only
      rw [List.find?_append, List.find?_append, Option.map_or, Option.map_or, h.found addr, hlast]
    · -- Its connector is there now, and the others still are.
      dsimp only
      rw [isConnector_append]
      rcases List.mem_append.1 hm' with hdone | hlast
      · rw [h.connected m' hdone, Bool.true_or]
      · rw [List.mem_singleton.1 hlast]
        simp

/-- The loop of `setup` over the mappings. -/
theorem Mapped.foldlM {done ms : List ToAddressMapping} (h : Mapped compile config done r)
    (hloop : ms.foldlM (ToAddressRouter.setupMapping compile) r = .ok r') :
    Mapped compile config (done ++ ms) r' := by
  induction ms generalizing done r with
  | nil =>
    obtain rfl := Except.ok.inj hloop
    rw [List.append_nil]
    exact h
  | cons m ms ih =>
    rw [List.foldlM_cons] at hloop
    obtain ⟨t, hround, hloop⟩ := bind_eq_ok.1 hloop
    have hrest := ih (h.setupMapping hround) hloop
    rw [List.append_assoc] at hrest
    exact hrest

/-- The default application gets a connector, and no connector goes. -/
theorem setupDefaultApp_ok (h : r.setupDefaultApp = .ok r') :
    r'.config = r.config ∧ r'.mappings = r.mappings ∧
      (∀ name, isConnector r.receive_outbound_connectors name = true →
        isConnector r'.receive_outbound_connectors name = true) ∧
      ∀ name, r.config.default_app = some name → name ≠ [] →
        isConnector r'.receive_outbound_connectors name = true := by
  unfold setupDefaultApp at h
  split at h
  · rename_i hnone
    obtain rfl := Except.ok.inj h
    refine ⟨rfl, rfl, fun _ hname => hname, fun name hdefault => ?_⟩
    rw [hnone] at hdefault
    cases hdefault
  · -- An empty name is as good as none.
    rename_i hempty
    obtain rfl := Except.ok.inj h
    refine ⟨rfl, rfl, fun _ hname => hname, fun name hdefault hname => ?_⟩
    rw [hempty] at hdefault
    exact absurd (Option.some.inj hdefault).symm hname
  · rename_i default_app _ hsome
    split_ifs at h with hpresent
    · -- A mapping has set up its connector already.
      obtain rfl := Except.ok.inj h
      refine ⟨rfl, rfl, fun _ hname => hname, fun name hdefault _ => ?_⟩
      rw [hsome] at hdefault
      rw [← Option.some.inj hdefault]
      exact hpresent
    · obtain rfl := setupReceiveOutboundConnector_ok h
      refine ⟨rfl, rfl, fun name hname => ?_, fun name hdefault _ => ?_⟩
      · dsimp only
        rw [isConnector_append, hname, Bool.true_or]
      · rw [hsome] at hdefault
        dsimp only
        rw [isConnector_append, Option.some.inj hdefault]
        simp

/-- The loop of `setup` over the transports leaves what the applications need. -/
theorem foldlM_setupReceiveInboundConnector {names : List Str}
    (h : names.foldlM setupReceiveInboundConnector r = .ok r') :
    r'.config = r.config ∧ r'.mappings = r.mappings ∧
      r'.receive_outbound_connectors = r.receive_outbound_connectors := by
  induction names generalizing r with
  | nil =>
    obtain rfl := Except.ok.inj h
    exact ⟨rfl, rfl, rfl⟩
  | cons name names ih =>
    rw [List.foldlM_cons] at h
    unfold setupReceiveInboundConnector at h
    split_ifs at h
    · cases h
    · obtain ⟨hconfig, hmappings, hconnectors⟩ := ih h
      exact ⟨hconfig, hmappings, hconnectors⟩

/-- After the loop, an address is matched as the configuration says. -/
theorem Mapped.matched (h : Mapped compile config config.to_address_mappings r')
    (hmappings : r.mappings = r'.mappings) (hconfig : r.config = config) (addr : Str) :
    r.getMatchedMappingName addr = config.chosen compile addr := by
  have hfound := h.found addr
  unfold getMatchedMappingName ToAddressRouterConfig.chosen
  rw [hmappings, hconfig]
  cases hfind : r'.mappings.find? fun m => m.2 addr with
  | none =>
    rw [hfind, Option.map_none] at hfound
    rw [Option.map_eq_none_iff.1 hfound.symm]
  | some m =>
    rw [hfind, Option.map_some] at hfound
    obtain ⟨m', hm', hname⟩ := Option.map_eq_some_iff.1 hfound.symm
    rw [hm']
    dsimp only
    rw [hname]

/-- The application that an address selects is that of a mapping, or the default one. -/
theorem selected_cases {addr name : Str} (h : config.selected compile addr = some name) :
    (∃ m ∈ config.to_address_mappings, m.name = name) ∨
      config.default_app = some name ∧ name ≠ [] := by
  unfold ToAddressRouterConfig.selected at h
  obtain ⟨hchosen, hnonempty⟩ := Option.filter_eq_some_iff.1 h
  unfold ToAddressRouterConfig.chosen at hchosen
  split at hchosen
  · rename_i m hm
    exact .inl ⟨m, List.mem_of_find?_eq_some hm, Option.some.inj hchosen⟩
  · refine .inr ⟨hchosen, fun heq => ?_⟩
    rw [heq] at hnonempty
    cases hnonempty

/-- `setup` succeeds in its three stages. -/
theorem stages_of_setup (h : setup compile config = .ok r) :
    ∃ r₁ r₂, config.to_address_mappings.foldlM (ToAddressRouter.setupMapping compile)
        ⟨config, [], [], []⟩ = .ok r₁ ∧
      r₁.setupDefaultApp = .ok r₂ ∧
        config.transport_names.foldlM setupReceiveInboundConnector r₂ = .ok r := by
  unfold setup at h
  obtain ⟨r₁, hmap, h⟩ := bind_eq_ok.1 h
  obtain ⟨r₂, hdefault, h⟩ := bind_eq_ok.1 h
  exact ⟨r₁, r₂, hmap, hdefault, h⟩

/-- The mappings that the loop of `setup` has gone through are all of them. -/
theorem mapped_of_foldlM
    (h : config.to_address_mappings.foldlM (ToAddressRouter.setupMapping compile)
      ⟨config, [], [], []⟩ = .ok r) :
    Mapped compile config config.to_address_mappings r := by
  have hstart : Mapped compile config [] ⟨config, [], [], []⟩ :=
    ⟨rfl, fun _ => rfl, fun _ hm => absurd hm List.not_mem_nil⟩
  exact hstart.foldlM h

/-- Where `setup` succeeds, the router routes as its configuration says. -/
theorem isSetUp_of_setup (h : setup compile config = .ok r) : IsSetUp compile config r := by
  obtain ⟨r₁, r₂, hmap, hdefault, hinbound⟩ := stages_of_setup h
  have hmapped := mapped_of_foldlM hmap
  obtain ⟨hconfig₂, hmappings₂, hkept, happ⟩ := setupDefaultApp_ok hdefault
  obtain ⟨hconfig, hmappings, hconnectors⟩ := foldlM_setupReceiveInboundConnector hinbound
  have hconfig_eq : r.config = config := by rw [hconfig, hconfig₂, hmapped.config_eq]
  refine ⟨hconfig_eq, hmapped.matched (hmappings.trans hmappings₂) hconfig_eq, ?_⟩
  intro addr name hname
  rw [hconnectors]
  rcases selected_cases hname with ⟨m, hm, rfl⟩ | ⟨hdefaultApp, hne⟩
  · exact hkept _ (hmapped.connected m hm)
  · exact happ name (by rw [hmapped.config_eq]; exact hdefaultApp) hne

/-! ## What the handlers do -/

/-- A handler publishes to the selected application, if there is one. -/
theorem run_toApp (h : IsSetUp compile config r) (addr : Str) (publication : Str → Publication)
    (env : ℕ → Reading) (c : MemoryMessageCache) :
    (r.toApp (r.getMatchedMappingName addr) publication).run env c =
      ⟨.ok ((config.selected compile addr).map publication), 0, c⟩ := by
  have hconnected := h.connected addr
  rw [h.matched addr]
  unfold toApp
  unfold ToAddressRouterConfig.selected at hconnected ⊢
  -- No mapping matches, or the name is empty, or there is a connector of the name.
  split
  · rename_i hnone
    rw [hnone]
    rfl
  · rename_i hempty
    rw [hempty]
    rfl
  · rename_i name hne hname
    have hselected : (some name).filter (fun name => !name.isEmpty) = some name := by
      cases name with
      | nil => exact absurd rfl hne
      | cons c cs => rfl
    rw [hname, hselected]
    unfold connector
    rw [if_pos (hconnected name (by rw [hname, hselected]))]
    rfl

/-- An inbound message goes to the application that its address selects, if any. -/
theorem run_handleInboundMessage (h : IsSetUp compile config r) (message : Message)
    (env : ℕ → Reading) (c : MemoryMessageCache) :
    (r.handleInboundMessage message).run env c =
      ⟨.ok ((config.selected compile message.to_addr).map fun app => .inbound app message), 0, c⟩ :=
  run_toApp h message.to_addr _ env c

/-- The message that an event finds in the cache. -/
def found (c : MemoryMessageCache) (now : ℚ) (id : Str) : Option Message :=
  ((c.outbounds.expire now).data.get? id).map Prod.snd

/-- An event goes to the application of its message, if the message is found. -/
theorem run_handleEvent (h : IsSetUp compile config r) (event : Event) (env : ℕ → Reading)
    (c : MemoryMessageCache) :
    (r.handleEvent event).run env c =
      ⟨.ok ((found c (env 0).time event.user_message_id).bind fun m =>
          (config.selected compile m.from_addr).map fun app => .event app event), 1,
        { c with outbounds := c.outbounds.expire (env 0).time }⟩ := by
  have hfetch : (MemoryMessageCache.fetchOutbound (some event.user_message_id)).run env c =
      ⟨.ok (found c (env 0).time event.user_message_id), 1,
        { c with outbounds := c.outbounds.expire (env 0).time }⟩ := by
    unfold MemoryMessageCache.fetchOutbound MemoryMessageCache.onOutbounds found
    rw [run_on, TimeoutDict.run_getitem]
  unfold handleEvent
  rw [run_bind_ok hfetch]
  cases found c (env 0).time event.user_message_id with
  | none => rfl
  | some m =>
    dsimp only
    rw [run_toApp h]
    rfl

/-- An outbound message is in the cache before it is published, also if its transport is unknown. -/
theorem run_handleOutboundMessage (message : Message) (env : ℕ → Reading)
    (c : MemoryMessageCache) :
    (r.handleOutboundMessage message).run env c =
      ⟨if isConnector r.receive_inbound_connectors message.transport_name = true then
          .ok (some (.outbound message.transport_name message))
        else .error .keyError, 2,
        ((MemoryMessageCache.storeOutbound message).run env c).state⟩ := by
  have hstore : (MemoryMessageCache.storeOutbound message).run env c =
      ⟨.ok (), 2, ((MemoryMessageCache.storeOutbound message).run env c).state⟩ := by
    unfold MemoryMessageCache.storeOutbound MemoryMessageCache.onOutbounds
    rw [run_on, TimeoutDict.run_setitem]
  unfold handleOutboundMessage
  rw [run_bind_ok hstore]
  unfold connector
  split_ifs
  · rfl
  · rfl

end ToAddressRouter

end Vumi2
