import Vumi2.Routers.Events

/-!
# Set-up covers every route

`setup` refuses a second connector of one name, so the names of the connectors are distinct; every
mapping gets one, and so does a default application that no mapping names (`connected_of_setup`).
Hence the look-up at the end of `handle_inbound_message` succeeds, and each inbound message is
published once, to the application of the first mapping whose pattern matches, or to the default one
(`inbound_routed`). Only a mapping with an empty name publishes nothing (`inbound_not_routed`).
-/

namespace Vumi2

open Effect Eff Text

/-- There is one connector of this name. -/
def OneConnector (connectors : List Str) (name : Str) : Prop :=
  (connectors.filter fun c => c = name) = [name]

/-- An inbound message was handled. -/
def Arrived (h : List RouterEntry) (i : ℕ) (m : Message) : Prop :=
  ∃ t x, h[i]? = some ⟨.handle_inbound_message m, t, x⟩

/-- A task publishes an inbound message to an application, once, or to none. -/
def RouterState.Delivers (s : RouterState) (i : ℕ) (m : Message) : Option Str → Prop
  | some app => s.PublishesOnce i (.inbound app m)
  | none => s.Drops i

namespace ToAddressRouter

variable {compile : Str → Option (Str → Bool)} {config : ToAddressRouterConfig}
  {r r' : ToAddressRouter}

/-! ## The connectors -/

/-- A name has a connector if it is one of the connectors' names. -/
theorem isConnector_iff {connectors : List Str} {name : Str} :
    isConnector connectors name = true ↔ name ∈ connectors := by
  unfold isConnector
  rw [List.any_eq_true]
  constructor
  · rintro ⟨c, hc, heq⟩
    rw [← of_decide_eq_true heq]
    exact hc
  · intro h
    exact ⟨name, h, decide_eq_true rfl⟩

/-- Among distinct names, a name that is there is there once. -/
theorem oneConnector_of_mem {connectors : List Str} (hnodup : connectors.Nodup) {name : Str}
    (h : name ∈ connectors) : OneConnector connectors name := by
  unfold OneConnector
  induction connectors with
  | nil => cases h
  | cons c connectors ih =>
    obtain ⟨hc, hrest⟩ := List.nodup_cons.1 hnodup
    rcases List.mem_cons.1 h with rfl | hmem
    · have hnone : (connectors.filter fun c => c = name) = [] := by
        rw [List.filter_eq_nil_iff]
        intro c' hc' heq
        exact hc (of_decide_eq_true heq ▸ hc')
      rw [List.filter_cons_of_pos (by simp), hnone]
    · have hne : c ≠ name := by
        rintro rfl
        exact hc hmem
      rw [List.filter_cons_of_neg (by simpa using hne)]
      exact ih hrest hmem

/-- A connector is added only under a new name. -/
theorem setupReceiveOutboundConnector_nodup (h : r.receive_outbound_connectors.Nodup) {name : Str}
    (hok : r.setupReceiveOutboundConnector name = .ok r') :
    r'.receive_outbound_connectors.Nodup := by
  unfold setupReceiveOutboundConnector at hok
  split_ifs at hok with hpresent
  obtain rfl := Except.ok.inj hok
  have hnew : name ∉ r.receive_outbound_connectors := fun hmem =>
    hpresent (isConnector_iff.2 hmem)
  rw [List.nodup_append]
  refine ⟨h, List.nodup_singleton name, ?_⟩
  rintro a ha b hb rfl
  rw [List.mem_singleton.1 hb] at ha
  exact hnew ha

/-- One round of the loop over the mappings. -/
theorem setupMapping_nodup (h : r.receive_outbound_connectors.Nodup) {m : ToAddressMapping}
    (hok : r.setupMapping compile m = .ok r') : r'.receive_outbound_connectors.Nodup := by
  unfold setupMapping at hok
  cases hcompile : compile m.pattern with
  | none =>
    rw [hcompile] at hok
    cases hok
  | some pattern =>
    rw [hcompile] at hok
    exact setupReceiveOutboundConnector_nodup
      (r := { r with mappings := r.mappings ++ [(m.name, pattern)] }) h hok

/-- The loop over the mappings. -/
theorem foldlM_setupMapping_nodup {ms : List ToAddressMapping}
    (h : r.receive_outbound_connectors.Nodup)
    (hok : ms.foldlM (setupMapping compile) r = .ok r') : r'.receive_outbound_connectors.Nodup := by
  induction ms generalizing r with
  | nil =>
    obtain rfl := Except.ok.inj hok
    exact h
  | cons m ms ih =>
    rw [List.foldlM_cons] at hok
    obtain ⟨t, hround, hok⟩ := bind_eq_ok.1 hok
    exact ih (setupMapping_nodup h hround) hok

/-- The default application. -/
theorem setupDefaultApp_nodup (h : r.receive_outbound_connectors.Nodup)
    (hok : r.setupDefaultApp = .ok r') : r'.receive_outbound_connectors.Nodup := by
  unfold setupDefaultApp at hok
  split at hok
  · obtain rfl := Except.ok.inj hok
    exact h
  · obtain rfl := Except.ok.inj hok
    exact h
  · split_ifs at hok
    · obtain rfl := Except.ok.inj hok
      exact h
    · exact setupReceiveOutboundConnector_nodup h hok

/-- After `setup`, every application of a mapping and the default one have one connector each. -/
theorem connected_of_setup (h : setup compile config = .ok r) :
    (∀ m ∈ config.to_address_mappings, OneConnector r.receive_outbound_connectors m.name) ∧
      ∀ name, config.default_app = some name → name ≠ [] →
        OneConnector r.receive_outbound_connectors name := by
  obtain ⟨r₁, r₂, hmap, hdefault, hinbound⟩ := stages_of_setup h
  have hmapped := mapped_of_foldlM hmap
  have hnodup : r₂.receive_outbound_connectors.Nodup :=
    setupDefaultApp_nodup (foldlM_setupMapping_nodup List.nodup_nil hmap) hdefault
  obtain ⟨-, -, hkept, happ⟩ := setupDefaultApp_ok hdefault
  obtain ⟨-, -, hconnectors⟩ := foldlM_setupReceiveInboundConnector hinbound
  rw [hconnectors]
  constructor
  · intro m hm
    have hconnector := hkept _ (hmapped.connected m hm)
    exact oneConnector_of_mem hnodup (isConnector_iff.1 hconnector)
  · intro name hname hne
    have hconnector := happ name (by rw [hmapped.config_eq]; exact hname) hne
    exact oneConnector_of_mem hnodup (isConnector_iff.1 hconnector)

/-! ## The runs -/

/-- What holds of the inbound messages of a router at work. -/
structure InboundInv (compile : Str → Option (Str → Bool)) (config : ToAddressRouterConfig)
    (s : RouterState) : Prop where
  /-- Each comes to its publishing call, at the application that its address selects. -/
  outcome : ∀ (i : ℕ) (m : Message) (t : ℚ) (x : Except PyExc (Option Publication)),
    s.history[i]? = some ⟨.handle_inbound_message m, t, x⟩ →
      x = .ok ((config.selected compile m.to_addr).map fun app => .inbound app m)
  logged : s.Logged

/-- Every step keeps it. -/
theorem InboundInv.step (hsetup : IsSetUp compile config r) {s s' : RouterState}
    (hinv : InboundInv compile config s) {action : RouterAction}
    (hstep : r.step s action = some s') : InboundInv compile config s' := by
  cases action with
  | call c env =>
    obtain rfl := Option.some.inj hstep
    refine ⟨fun i m t x hx => ?_, logged_called hinv.logged _ _ _⟩
    unfold called at hx
    rw [RouterState.history_append] at hx
    rcases Slots.getElem?_append_singleton.1 hx with hold | ⟨-, hnew⟩
    · exact hinv.outcome i m t x hold
    · -- The new call is that of an inbound message.
      obtain ⟨rfl, -, rfl⟩ := RouterEntry.mk.inj hnew
      unfold handler
      rw [RouterPhase.outcome_reached, run_handleInboundMessage hsetup]
  | publish k =>
    obtain ⟨c, now, p, htask, rfl, hhistory⟩ := publish_cases hstep
    refine ⟨fun i m t x hx => hinv.outcome i m t x ?_, logged_publish hinv.logged htask⟩
    rw [← hhistory]
    exact hx

/-- So does every run. -/
theorem InboundInv.run (hsetup : IsSetUp compile config r) {now : ℚ} {actions : List RouterAction}
    {s : RouterState}
    (hrun : Machine.run r.step (RouterState.new config now) actions = some s) :
    InboundInv compile config s := by
  refine Machine.run_invariant r.step (fun _ _ _ hinv hstep => hinv.step hsetup hstep) ?_ hrun
  exact ⟨fun i m t x hx => (by cases hx), fun i => rfl⟩

/-- Where `setup` completes, every application that may be routed to has one connector, and in every
run each inbound message is published once, to the application that its address selects, or to
none. -/
theorem inbound_routed (h : setup compile config = .ok r) :
    ((∀ m ∈ config.to_address_mappings, OneConnector r.receive_outbound_connectors m.name) ∧
      ∀ name, config.default_app = some name → name ≠ [] →
        OneConnector r.receive_outbound_connectors name) ∧
      ∀ now actions s, Machine.run r.step (RouterState.new config now) actions = some s →
        ∀ i m, Arrived s.history i m → s.Delivers i m (config.selected compile m.to_addr) := by
  refine ⟨connected_of_setup h, fun now actions s hrun i m hm => ?_⟩
  have hinv := InboundInv.run (isSetUp_of_setup h) hrun
  obtain ⟨t, x, hx⟩ := hm
  have houtcome := hinv.outcome i m t x hx
  rw [houtcome] at hx
  cases hselected : config.selected compile m.to_addr with
  | none =>
    rw [hselected] at hx
    exact hinv.logged.drops hx
  | some app =>
    rw [hselected] at hx
    exact hinv.logged.publishesOnce hx

end ToAddressRouter

namespace RouterExample

/-- A message of a user for the number of `app1`. -/
def inbound : Message :=
  Message.create (str "12345") (str "+27820001001") (str "test1") .sms ⟨0, str "m2", DateTime.min⟩

/-- The message comes in and is published. -/
def inboundActions : List RouterAction :=
  [.call (.handle_inbound_message inbound) (clockAt 0), .publish 0]

end RouterExample

open RouterExample ToAddressRouter

/-- An inbound message is published to the application of the mapping. -/
theorem inbound_routed_example : ∃ s,
    Machine.run (router (str "app1")).step (RouterState.new (oneApp (str "app1")) 0)
        inboundActions = some s ∧ s.Delivers 0 inbound (some (str "app1")) := by
  have hsetup : setup plainCompile (oneApp (str "app1")) = .ok (router (str "app1")) := rfl
  refine ⟨_, rfl, ?_⟩
  exact (inbound_routed hsetup).2 0 inboundActions _ rfl 0 inbound ⟨_, _, rfl⟩

/-- The first mapping matches, and its connector is set up, but its name is empty. -/
theorem inbound_not_routed :
    setup plainCompile (oneApp []) = .ok (router []) ∧
      OneConnector (router []).receive_outbound_connectors [] ∧
        (oneApp []).chosen plainCompile inbound.to_addr = some [] ∧
          ∃ s, Machine.run (router []).step (RouterState.new (oneApp []) 0)
              [.call (.handle_inbound_message inbound) (clockAt 0)] = some s ∧
            Arrived s.history 0 inbound ∧ ¬ s.PublishesOnce 0 (.inbound [] inbound) ∧
              s.Drops 0 := by
  refine ⟨rfl, rfl, rfl, _, rfl, ⟨_, _, rfl⟩, ?_, ⟨_, rfl, rfl, rfl⟩⟩
  rintro ⟨task, htask, hphase⟩
  obtain rfl := Option.some.inj htask
  rcases hphase with ⟨hphase, -⟩ | ⟨hphase, -⟩
  · cases hphase
  · cases hphase

end Vumi2
