import Mathlib.Tactic.Linarith
import Vumi2.Lib.Slots
import Vumi2.Routers

/-!
# No event is lost

An outbound message is in the message cache before it is published, and a look-up leaves it there,
so every event that is handled before the message is too old finds it, whatever other tasks do
meanwhile (`CacheInv`). The message of an event is the only one with its identifier, so the event is
routed by that message's address and by no other (`event_routed`). A mapping with an empty name
takes the events that it matches, and they go nowhere (`event_not_routed`).

What a task is called with, when, and what it comes to never changes: `history` only grows. So what
the cache and the decisions have to do with each other is said of the history, and a publishing call
that returns changes none of it.
-/

namespace Vumi2

open Effect Eff Text TimeoutDict ToAddressRouter

/-- A call of `handle_outbound_message` stored its message at the time `t`. -/
def Stored (h : List RouterEntry) (i : ℕ) (m : Message) (t : ℚ) : Prop :=
  ∃ x, h[i]? = some ⟨.handle_outbound_message m, t, x⟩

/-- A call of `handle_event` looked the message of its event up at the time `t`. -/
def LookedUp (h : List RouterEntry) (i : ℕ) (e : Event) (t : ℚ) : Prop :=
  ∃ x, h[i]? = some ⟨.handle_event e, t, x⟩

/-- A task publishes an event to an application, once, or to none. -/
def RouterState.Routed (s : RouterState) (i : ℕ) (e : Event) : Option Str → Prop
  | some app => s.PublishesOnce i (.event app e)
  | none => s.Drops i

/-- The clock goes forward, and no outbound message has the identifier of another. -/
def Permitted (s : RouterState) : RouterAction → Prop
  | .call c env =>
    Clocked env ∧ s.now ≤ (env 0).time ∧
      ∀ m, c = .handle_outbound_message m →
        ∀ i n t, Stored s.history i n t → n.message_id ≠ m.message_id
  | .publish _ => True

variable {h : List RouterEntry} {a : RouterEntry} {i j : ℕ} {m : Message} {e : Event} {t : ℚ}

/-- An entry of the history is inside it. -/
theorem Stored.lt (hs : Stored h i m t) : i < h.length := by
  obtain ⟨x, hx⟩ := hs
  exact (List.getElem?_eq_some_iff.1 hx).1

/-- What is stored stays stored as the history grows. -/
theorem Stored.append (hs : Stored h i m t) (a : RouterEntry) : Stored (h ++ [a]) i m t := by
  obtain ⟨x, hx⟩ := hs
  exact ⟨x, Slots.getElem?_append_singleton.2 (.inl hx)⟩

/-- The entry for an outbound message stores that message and no other. -/
theorem stored_append_outbound {n : Message} {u : ℚ} {x : Except PyExc (Option Publication)} :
    Stored (h ++ [⟨.handle_outbound_message n, u, x⟩]) i m t ↔
      Stored h i m t ∨ i = h.length ∧ m = n ∧ t = u := by
  constructor
  · rintro ⟨y, hy⟩
    rcases Slots.getElem?_append_singleton.1 hy with hold | ⟨hi, hnew⟩
    · exact .inl ⟨y, hold⟩
    · cases hnew
      exact .inr ⟨hi, rfl, rfl⟩
  · rintro (hold | ⟨rfl, rfl, rfl⟩)
    · exact hold.append _
    · exact ⟨x, Slots.getElem?_append_singleton.2 (.inr ⟨rfl, rfl⟩)⟩

/-- What is not a call of `handle_outbound_message` stores nothing. -/
theorem stored_append_other (ha : ∀ n, a.call ≠ .handle_outbound_message n) :
    Stored (h ++ [a]) i m t ↔ Stored h i m t := by
  constructor
  · rintro ⟨x, hx⟩
    rcases Slots.getElem?_append_singleton.1 hx with hold | ⟨-, hnew⟩
    · exact ⟨x, hold⟩
    · rw [← hnew] at ha
      exact absurd rfl (ha m)
  · exact fun hs => hs.append a

/-! ## The cache -/

/-- What the cache has to do with what was stored, at the time `now`. -/
structure CacheInv (timeout : ℚ) (h : List RouterEntry) (c : MemoryMessageCache) (now : ℚ) :
    Prop where
  timeout_eq : c.outbounds.timeout = timeout
  /-- What was stored is there until it is too old. -/
  held : ∀ i m t, Stored h i m t → TimeoutDict.age now t ≤ timeout →
    Holds m.message_id t m timeout c.outbounds
  /-- What is there was stored, under its own identifier. -/
  owned : ∀ id t m, c.outbounds.data.get? id = some (t, m) →
    m.message_id = id ∧ ∃ i, Stored h i m t
  /-- No two messages have the same identifier. -/
  distinct : ∀ i j m n t u, Stored h i m t → Stored h j n u → m.message_id = n.message_id → i = j

namespace CacheInv

variable {timeout now : ℚ} {c : MemoryMessageCache} {env : ℕ → Reading}

/-- The invariant holds of the empty cache and the empty history. -/
theorem new (timeout now : ℚ) : CacheInv timeout [] (MemoryMessageCache.new timeout) now := by
  refine ⟨rfl, ?_, ?_, ?_⟩
  · rintro i m t ⟨x, hx⟩
    cases hx
  · intro id t m hget
    cases hget
  · rintro i j m n t u ⟨x, hx⟩
    cases hx

/-- The first task in which a message was stored tells which message it is. -/
theorem eq_of_id (hinv : CacheInv timeout h c now) {n : Message} {u : ℚ} (hm : Stored h i m t)
    (hn : Stored h j n u) (hid : m.message_id = n.message_id) : m = n := by
  obtain rfl := hinv.distinct i j m n t u hm hn hid
  obtain ⟨x, hx⟩ := hm
  obtain ⟨y, hy⟩ := hn
  rw [hx] at hy
  cases hy
  rfl

/-- A call that stores nothing does not matter. -/
theorem append_other (hinv : CacheInv timeout h c now)
    (ha : ∀ n, a.call ≠ .handle_outbound_message n) : CacheInv timeout (h ++ [a]) c now := by
  refine ⟨hinv.timeout_eq, fun i m t hs => ?_, fun id t m hget => ?_, fun i j m n t u hm hn => ?_⟩
  · exact hinv.held i m t ((stored_append_other ha).1 hs)
  · obtain ⟨hid, i, hs⟩ := hinv.owned id t m hget
    exact ⟨hid, i, hs.append a⟩
  · exact hinv.distinct i j m n t u ((stored_append_other ha).1 hm) ((stored_append_other ha).1 hn)

/-- Expiry removes only what is too old. -/
theorem expire (hinv : CacheInv timeout h c now) {now' : ℚ} (hle : now ≤ now') :
    CacheInv timeout h { c with outbounds := c.outbounds.expire now' } now' := by
  refine ⟨hinv.timeout_eq, fun i m t hs hin => ?_, fun id t m hget => ?_, hinv.distinct⟩
  · -- What is in time now was in time before.
    have hbefore : TimeoutDict.age now t ≤ timeout := (TimeoutDict.age_mono hle le_rfl).trans hin
    obtain ⟨htimeout, hget⟩ := hinv.held i m t hs hbefore
    have hfresh : c.outbounds.Fresh now' m.message_id m := ⟨t, hget, by rw [htimeout]; exact hin⟩
    exact ⟨htimeout, (get?_expire_of_fresh hfresh).trans hget⟩
  · exact hinv.owned id t m (get?_of_expire hget)

/-- A message is stored, under an identifier that no other one has. -/
theorem store (hinv : CacheInv timeout h c now) (hclock : Clocked env) (hle : now ≤ (env 0).time)
    (hnew : ∀ i n u, Stored h i n u → n.message_id ≠ m.message_id)
    (x : Except PyExc (Option Publication)) :
    CacheInv timeout (h ++ [⟨.handle_outbound_message m, (env 1).time, x⟩])
      ((MemoryMessageCache.storeOutbound m).run env c).state (env 1).time := by
  have hlast : (env 0).time ≤ (env 1).time := hclock (Nat.zero_le 1)
  have hstate : ((MemoryMessageCache.storeOutbound m).run env c).state.outbounds =
      ((setitem m.message_id m).run env c.outbounds).state := rfl
  have htimeout : ((setitem m.message_id m).run env c.outbounds).state.timeout = timeout := by
    rw [run_setitem]
    exact hinv.timeout_eq
  refine ⟨htimeout, fun i n t hs hin => ?_, fun id t n hget => ?_,
    fun i j n n' t u hn hn' hid => ?_⟩
  · rw [hstate]
    rcases stored_append_outbound.1 hs with hold | ⟨rfl, rfl, rfl⟩
    · -- An older message stays, as long as it is not too old at the last reading.
      have hbefore : TimeoutDict.age now t ≤ timeout :=
        (TimeoutDict.age_mono (hle.trans hlast) le_rfl).trans hin
      have hin' : ∀ k < ((setitem m.message_id m).run env c.outbounds).used,
          InTime t timeout (env k) := by
        intro k hk
        rw [run_setitem] at hk
        have hk1 : (env k).time ≤ (env 1).time := hclock (Nat.le_of_lt_succ hk)
        show TimeoutDict.age (env k).time t ≤ timeout
        exact (TimeoutDict.age_mono hk1 le_rfl).trans hin
      exact keeps_setitem (hnew i n t hold) m env c.outbounds hin' (hinv.held i n t hold hbefore)
    · -- The new message is the youngest entry.
      refine ⟨htimeout, ?_⟩
      rw [run_setitem]
      exact Dict.get?_set_self _ _ _
  · rw [hstate, run_setitem] at hget
    dsimp only at hget
    -- What is stored under another identifier was stored before.
    by_cases hid : id = m.message_id
    · rw [hid, Dict.get?_set_self] at hget
      cases hget
      exact ⟨hid.symm, h.length, stored_append_outbound.2 (.inr ⟨rfl, rfl, rfl⟩)⟩
    · rw [Dict.get?_set_of_ne _ _ hid] at hget
      have herased := get?_of_expire hget
      dsimp only at herased
      rw [Dict.get?_erase_of_ne _ hid] at herased
      obtain ⟨hid', i, hs⟩ := hinv.owned id t n herased
      exact ⟨hid', i, hs.append _⟩
  · -- No older message has the identifier of the new one.
    rcases stored_append_outbound.1 hn with hold | ⟨hi, rfl, -⟩
    · rcases stored_append_outbound.1 hn' with hold' | ⟨-, rfl, -⟩
      · exact hinv.distinct i j n n' t u hold hold' hid
      · exact absurd hid (hnew i n t hold)
    · rcases stored_append_outbound.1 hn' with hold' | ⟨hj, -, -⟩
      · exact absurd hid.symm (hnew j n' u hold')
      · rw [hi, hj]

/-- An event in time finds its message. -/
theorem found_of_stored (hinv : CacheInv timeout h c now) {now' : ℚ} (hle : now ≤ now')
    (hs : Stored h i m t) (hin : TimeoutDict.age now' t ≤ timeout) :
    found c now' m.message_id = some m := by
  obtain ⟨htimeout, hget⟩ := (hinv.expire hle).held i m t hs hin
  unfold found
  rw [hget]
  rfl

/-- What an event finds is its message. -/
theorem stored_of_found (hinv : CacheInv timeout h c now) {now' : ℚ} {id : Str}
    (hfound : found c now' id = some m) : m.message_id = id ∧ ∃ i t, Stored h i m t := by
  unfold found at hfound
  obtain ⟨⟨t, n⟩, hget, rfl⟩ := Option.map_eq_some_iff.1 hfound
  obtain ⟨hid, i, hs⟩ := hinv.owned id t n (get?_of_expire hget)
  exact ⟨hid, i, t, hs⟩

end CacheInv

/-! ## What each task comes to -/

section

variable (compile : Str → Option (Str → Bool)) (config : ToAddressRouterConfig)

/-- What the handling of an event comes to, by the messages that were stored before it. -/
structure Decided (h : List RouterEntry) (i : ℕ) (e : Event) (t : ℚ)
    (x : Except PyExc (Option Publication)) : Prop where
  /-- In time, it is published to the application of its message's address, if there is one. -/
  complete : ∀ j m u, j < i → Stored h j m u → m.message_id = e.user_message_id →
    TimeoutDict.age t u ≤ config.timeout →
    x = .ok ((config.selected compile m.from_addr).map fun app => .event app e)
  /-- It is published nowhere else. -/
  sound : ∀ p, x = .ok (some p) → ∃ j m u app, j < i ∧ Stored h j m u ∧
    m.message_id = e.user_message_id ∧ config.selected compile m.from_addr = some app ∧
      p = .event app e

/-- What holds of a router at work. -/
structure RouterInv (s : RouterState) : Prop where
  cache : CacheInv config.timeout s.history s.message_cache s.now
  decided : ∀ i e t x, s.history[i]? = some ⟨.handle_event e, t, x⟩ →
    Decided compile config s.history i e t x
  /-- What was published is what the tasks that have returned say. -/
  logged : ∀ i, s.publications i = (s.tasks[i]?.bind fun task => task.phase.sent).toList

end

variable {compile : Str → Option (Str → Bool)} {config : ToAddressRouterConfig}
  {r : ToAddressRouter} {s s' : RouterState}

/-- Later calls do not change what an event comes to. -/
theorem Decided.append {x : Except PyExc (Option Publication)}
    (hx : Decided compile config h i e t x) (hi : i < h.length) (a : RouterEntry) :
    Decided compile config (h ++ [a]) i e t x := by
  refine ⟨fun j m u hj hs => ?_, fun p hp => ?_⟩
  · obtain ⟨y, hy⟩ := hs
    rcases Slots.getElem?_append_singleton.1 hy with hold | ⟨heq, -⟩
    · exact hx.complete j m u hj ⟨y, hold⟩
    · -- The new call comes after the event.
      omega
  · obtain ⟨j, m, u, app, hj, hs, hid, happ, heq⟩ := hx.sound p hp
    exact ⟨j, m, u, app, hj, hs.append a, hid, happ, heq⟩

/-- What an event comes to when it is handled. -/
theorem decided_handleEvent (hsetup : IsSetUp compile config r) {c : MemoryMessageCache} {now : ℚ}
    (hinv : CacheInv config.timeout h c now) {env : ℕ → Reading} (hle : now ≤ (env 0).time) :
    Decided compile config
      (h ++ [⟨.handle_event e, (env 0).time, ((r.handleEvent e).run env c).result⟩])
      h.length e (env 0).time ((r.handleEvent e).run env c).result := by
  have hother : ∀ n, RouterCall.handle_event e ≠ .handle_outbound_message n := fun n => nofun
  rw [run_handleEvent hsetup]
  refine ⟨fun j m u _ hs hid hin => ?_, fun p hp => ?_⟩
  · -- In time, the lookup finds the message.
    have hs' : Stored h j m u := (stored_append_other hother).1 hs
    dsimp only
    rw [← hid, hinv.found_of_stored hle hs' hin]
    rfl
  · -- What it finds is a message that was stored under this identifier.
    obtain ⟨m, hfound, happ⟩ := Option.bind_eq_some_iff.1 (Except.ok.inj hp)
    obtain ⟨app, hselected, rfl⟩ := Option.map_eq_some_iff.1 happ
    obtain ⟨hid, j, u, hs⟩ := hinv.stored_of_found hfound
    exact ⟨j, m, u, app, hs.lt, hs.append _, hid, hselected, rfl⟩

namespace RouterState

/-- The history of a state whose task and cache were replaced. -/
theorem history_append (s : RouterState) (task : RouterTask) (c : MemoryMessageCache) (now : ℚ) :
    history { s with message_cache := c, tasks := s.tasks ++ [task], now := now } =
      s.history ++ [task.entry] := by
  unfold history
  rw [List.map_append]
  rfl

end RouterState

/-- What was published is what the tasks that have returned say. -/
def RouterState.Logged (s : RouterState) : Prop :=
  ∀ i, s.publications i = (s.tasks[i]?.bind fun task => task.phase.sent).toList

/-- A new task has published nothing yet. -/
theorem logged_called (h : s.Logged) (c : RouterCall) (now : ℚ)
    (o : Outcome PyExc MemoryMessageCache (Option Publication)) : (called s c now o).Logged := by
  intro i
  have hpublications : (called s c now o).publications i = s.publications i := rfl
  rw [hpublications, h i]
  unfold called
  dsimp only
  rcases Nat.lt_trichotomy i s.tasks.length with hlt | heq | hgt
  · rw [List.getElem?_append_left hlt]
  · rw [heq, List.getElem?_concat_length, List.getElem?_eq_none (Nat.le_refl _)]
    dsimp only [Option.bind_none, Option.bind_some]
    rw [RouterPhase.sent_reached]
  · rw [List.getElem?_eq_none (Nat.le_of_lt hgt), List.getElem?_eq_none]
    rw [List.length_append, List.length_singleton]
    exact hgt

/-- A call that publishes is recorded as such, and the history does not tell. -/
theorem publish_cases {r : ToAddressRouter} {k : ℕ} (hstep : r.step s (.publish k) = some s') :
    ∃ c now p, s.tasks[k]? = some ⟨c, now, .publishing p⟩ ∧
      s' = { s with
        tasks := s.tasks.set k ⟨c, now, .published p⟩
        published := s.published ++ [(k, p)] } ∧
      s'.history = s.history := by
  unfold ToAddressRouter.step at hstep
  dsimp only at hstep
  split at hstep
  · rename_i c now p htask
    obtain rfl := Option.some.inj hstep
    refine ⟨c, now, p, htask, rfl, ?_⟩
    unfold RouterState.history
    exact Slots.map_set_keep RouterTask.entry htask rfl
  · cases hstep

/-- A task publishes for the first time. -/
theorem logged_publish (h : s.Logged) {k : ℕ} {c : RouterCall} {now : ℚ} {p : Publication}
    (htask : s.tasks[k]? = some ⟨c, now, .publishing p⟩) :
    RouterState.Logged { s with
      tasks := s.tasks.set k ⟨c, now, .published p⟩
      published := s.published ++ [(k, p)] } := by
  intro i
  have hlogged := h i
  unfold RouterState.publications at hlogged ⊢
  dsimp only
  rw [List.filter_append, List.map_append, hlogged]
  by_cases hi : i = k
  · obtain ⟨hlt, -⟩ := List.getElem?_eq_some_iff.1 htask
    rw [hi, htask, List.getElem?_set_self hlt]
    simp [RouterPhase.sent]
  · rw [List.getElem?_set_ne (Ne.symm hi)]
    simp [Ne.symm hi]

/-- A call keeps the invariant if it does so of the cache, and of the decision if it is an event. -/
theorem RouterInv.call (hinv : RouterInv compile config s) {c : RouterCall} {now : ℚ}
    {o : Outcome PyExc MemoryMessageCache (Option Publication)}
    (hcache : CacheInv config.timeout (s.history ++ [⟨c, now, o.result⟩]) o.state now)
    (hdecided : ∀ e, c = .handle_event e →
      Decided compile config (s.history ++ [⟨c, now, o.result⟩]) s.history.length e now o.result) :
    RouterInv compile config (called s c now o) := by
  have hhistory : (called s c now o).history = s.history ++ [⟨c, now, o.result⟩] := by
    unfold called
    rw [RouterState.history_append]
    unfold RouterTask.entry
    rw [RouterPhase.outcome_reached]
  refine ⟨?_, fun i e t x hx => ?_, fun i => ?_⟩
  · rw [hhistory]
    exact hcache
  · rw [hhistory] at hx ⊢
    rcases Slots.getElem?_append_singleton.1 hx with hold | ⟨rfl, hnew⟩
    · -- What the earlier events have come to does not change.
      exact (hinv.decided i e t x hold).append (List.getElem?_eq_some_iff.1 hold).1 _
    · cases hnew
      exact hdecided e rfl
  · exact logged_called hinv.logged c now o i

/-- An outbound message is stored at the second reading of its call. -/
theorem step_outbound (r : ToAddressRouter) (s : RouterState) (m : Message) (env : ℕ → Reading) :
    r.step s (.call (.handle_outbound_message m) env) =
      some (called s (.handle_outbound_message m) (env 1).time
        ((r.handleOutboundMessage m).run env s.message_cache)) := by
  have hused : ((r.handleOutboundMessage m).run env s.message_cache).used = 2 := by
    rw [run_handleOutboundMessage]
  unfold ToAddressRouter.step handler
  dsimp only
  rw [hused]
  rfl

/-- The message of an event is looked up at the only reading of its call. -/
theorem step_event (hsetup : IsSetUp compile config r) (s : RouterState) (e : Event)
    (env : ℕ → Reading) :
    r.step s (.call (.handle_event e) env) =
      some (called s (.handle_event e) (env 0).time
        ((r.handleEvent e).run env s.message_cache)) := by
  have hused : ((r.handleEvent e).run env s.message_cache).used = 1 := by
    rw [run_handleEvent hsetup]
  unfold ToAddressRouter.step handler
  dsimp only
  rw [hused]
  rfl

/-- Every call of a handler keeps the invariant. -/
theorem RouterInv.step_call (hsetup : IsSetUp compile config r) (hinv : RouterInv compile config s)
    {c : RouterCall} {env : ℕ → Reading} (hok : Permitted s (.call c env))
    (hstep : r.step s (.call c env) = some s') : RouterInv compile config s' := by
  obtain ⟨hclock, hle, hnew⟩ := hok
  cases c with
  | handle_outbound_message m =>
    rw [step_outbound, run_handleOutboundMessage] at hstep
    obtain rfl := Option.some.inj hstep
    exact hinv.call (hinv.cache.store hclock hle (hnew m rfl) _) fun e he => by cases he
  | handle_event e =>
    rw [step_event hsetup] at hstep
    obtain rfl := Option.some.inj hstep
    have hstate : ((r.handleEvent e).run env s.message_cache).state =
        { s.message_cache with outbounds := s.message_cache.outbounds.expire (env 0).time } := by
      rw [run_handleEvent hsetup]
    apply hinv.call
    · rw [hstate]
      exact (hinv.cache.expire hle).append_other fun n => nofun
    · intro e' he'
      cases he'
      exact decided_handleEvent hsetup hinv.cache hle
  | handle_inbound_message m =>
    -- An inbound message stores nothing, and looks nothing up.
    obtain rfl := Option.some.inj hstep
    unfold handler
    dsimp only
    rw [run_handleInboundMessage hsetup]
    exact hinv.call (hinv.cache.append_other fun n => nofun) fun e he => by cases he

/-- So does the end of a publishing call. -/
theorem RouterInv.step_publish (hinv : RouterInv compile config s) {k : ℕ}
    (hstep : r.step s (.publish k) = some s') : RouterInv compile config s' := by
  obtain ⟨c, now, p, htask, rfl, hhistory⟩ := publish_cases hstep
  -- The history does not tell whether a call has published yet.
  refine ⟨?_, fun i e t x hx => ?_, fun i => ?_⟩
  · rw [hhistory]
    exact hinv.cache
  · rw [hhistory] at hx ⊢
    exact hinv.decided i e t x hx
  · exact logged_publish hinv.logged htask i

/-- Every step keeps the invariant. -/
theorem RouterInv.step (hsetup : IsSetUp compile config r) (hinv : RouterInv compile config s)
    {action : RouterAction} (hok : Permitted s action) (hstep : r.step s action = some s') :
    RouterInv compile config s' := by
  cases action with
  | call c env => exact hinv.step_call hsetup hok hstep
  | publish k => exact hinv.step_publish hstep

/-- The invariant holds of a new router. -/
theorem RouterInv.new (now : ℚ) : RouterInv compile config (RouterState.new config now) := by
  refine ⟨CacheInv.new config.timeout now, fun i e t x hx => ?_, fun i => rfl⟩
  cases hx

/-- So does every run. -/
theorem RouterInv.run (hsetup : IsSetUp compile config r) {now : ℚ} {actions : List RouterAction}
    (hok : Machine.Meets r.step Permitted (RouterState.new config now) actions)
    (hrun : Machine.run r.step (RouterState.new config now) actions = some s) :
    RouterInv compile config s :=
  Machine.run_induction r.step (fun _ _ _ hinv hok hstep => hinv.step hsetup hok hstep)
    (RouterInv.new now) hok hrun

/-- What a task comes to is told by its phase. -/
theorem RouterState.exists_task {c : RouterCall} {x : Except PyExc (Option Publication)}
    (hx : s.history[i]? = some ⟨c, t, x⟩) :
    ∃ task, s.tasks[i]? = some task ∧ task.phase.outcome = x := by
  unfold RouterState.history at hx
  rw [List.getElem?_map] at hx
  obtain ⟨task, htask, hentry⟩ := Option.map_eq_some_iff.1 hx
  exact ⟨task, htask, congrArg RouterEntry.outcome hentry⟩

/-- A task publishes what it comes to. -/
theorem RouterState.Logged.publishesOnce (h : s.Logged) {c : RouterCall} {p : Publication}
    (hx : s.history[i]? = some ⟨c, t, .ok (some p)⟩) : s.PublishesOnce i p := by
  have hlogged := h i
  obtain ⟨task, htask, hphase⟩ := RouterState.exists_task hx
  rw [htask, Option.bind_some] at hlogged
  refine ⟨task, htask, ?_⟩
  rcases RouterPhase.outcome_eq_some_iff.1 hphase with hp | hp
  · rw [hp] at hlogged
    exact .inl ⟨hp, hlogged⟩
  · rw [hp] at hlogged
    exact .inr ⟨hp, hlogged⟩

/-- A task that comes to nothing publishes nothing. -/
theorem RouterState.Logged.drops (h : s.Logged) {c : RouterCall}
    (hx : s.history[i]? = some ⟨c, t, .ok none⟩) : s.Drops i := by
  have hlogged := h i
  obtain ⟨task, htask, hphase⟩ := RouterState.exists_task hx
  have hp := RouterPhase.outcome_eq_none_iff.1 hphase
  rw [htask, Option.bind_some, hp] at hlogged
  exact ⟨task, htask, hp, hlogged⟩

/-- What a task publishes is what it comes to. -/
theorem RouterState.PublishesOnce.outcome {p : Publication} (hp : s.PublishesOnce i p)
    {c : RouterCall} {x : Except PyExc (Option Publication)}
    (hx : s.history[i]? = some ⟨c, t, x⟩) : x = .ok (some p) := by
  obtain ⟨task, htask, hphase⟩ := hp
  obtain ⟨task', htask', houtcome⟩ := RouterState.exists_task hx
  obtain rfl := Option.some.inj (htask.symm.trans htask')
  rw [← houtcome]
  rcases hphase with ⟨hphase, -⟩ | ⟨hphase, -⟩
  · rw [hphase]
    rfl
  · rw [hphase]
    rfl

/-- An event that is handled in time is routed by the address of its message. -/
theorem RouterInv.routed (hinv : RouterInv compile config s) {u : ℚ}
    (he : LookedUp s.history i e t) (hm : Stored s.history j m u) (hlt : j < i)
    (hid : m.message_id = e.user_message_id) (hin : TimeoutDict.age t u ≤ config.timeout) :
    s.Routed i e (config.selected compile m.from_addr) := by
  obtain ⟨x, hx⟩ := he
  have houtcome := (hinv.decided i e t x hx).complete j m u hlt hm hid hin
  rw [houtcome] at hx
  cases hselected : config.selected compile m.from_addr with
  | none =>
    rw [hselected] at hx
    exact RouterState.Logged.drops hinv.logged hx
  | some app =>
    rw [hselected] at hx
    exact RouterState.Logged.publishesOnce hinv.logged hx

/-- In every run, each event that is handled in time after its message is published once, to the
application that the message's address selects, and is dropped only if it selects none; no event is
published by the address of another message. -/
theorem event_routed (hsetup : setup compile config = .ok r) {now : ℚ} {actions : List RouterAction}
    (hok : Machine.Meets r.step Permitted (RouterState.new config now) actions)
    (hrun : Machine.run r.step (RouterState.new config now) actions = some s) :
    (∀ i j e m t u, LookedUp s.history i e t → Stored s.history j m u → j < i →
      m.message_id = e.user_message_id → TimeoutDict.age t u ≤ config.timeout →
        s.Routed i e (config.selected compile m.from_addr)) ∧
      ∀ i e t p, LookedUp s.history i e t → s.PublishesOnce i p →
        ∃ j m u app, j < i ∧ Stored s.history j m u ∧ m.message_id = e.user_message_id ∧
          config.selected compile m.from_addr = some app ∧ p = .event app e ∧
            ∀ k n v, Stored s.history k n v → n.message_id = e.user_message_id → n = m := by
  have hinv := RouterInv.run (isSetUp_of_setup hsetup) hok hrun
  constructor
  · intro i j e m t u he hm hlt hid hin
    exact hinv.routed he hm hlt hid hin
  · rintro i e t p ⟨x, hx⟩ hp
    have houtcome := hp.outcome hx
    obtain ⟨j, m, u, app, hlt, hm, hid, happ, heq⟩ := (hinv.decided i e t x hx).sound p houtcome
    -- The address is that of the only message with this identifier.
    refine ⟨j, m, u, app, hlt, hm, hid, happ, heq, fun k n v hn hid' => ?_⟩
    exact hinv.cache.eq_of_id hn hm (hid'.trans hid.symm)

/-! ## On given inputs -/

namespace RouterExample

/-- What `re.compile` gives for a pattern that is a plain text, after an anchor or without one. -/
def plainCompile (pattern : Str) : Option (Str → Bool) :=
  match pattern with
  | [] => some fun _ => true
  | c :: text =>
    if c = ofChar '^' then some fun addr => decide (addr.take text.length = text)
    else some fun addr => decide (addr.take (text.length + 1) = c :: text)

/-- A router for one application, of this name, and a default one. -/
def oneApp (name : Str) : ToAddressRouterConfig where
  transport_names := [str "test1"]
  to_address_mappings := [⟨name, str "^1"⟩]
  timeout := 3600
  default_app := some (str "app3")

/-- The router after `setup`. -/
def router (name : Str) : ToAddressRouter where
  config := oneApp name
  mappings := [(name, fun addr => decide (addr.take 1 = str "1"))]
  receive_inbound_connectors := [str "test1"]
  receive_outbound_connectors := [name, str "app3"]

/-- A clock that stands. -/
def clockAt (time : ℚ) (_ : ℕ) : Reading := ⟨time, [], DateTime.min⟩

/-- A message of the application that has the addresses of `app1`. -/
def outbound : Message :=
  Message.create (str "+27820001001") (str "12345") (str "test1") .sms ⟨0, str "m1", DateTime.min⟩

/-- The ACK of that message. -/
def event : Event := Event.ack (str "m1") (str "s1") ⟨0, str "e1", DateTime.min⟩

/-- The event comes while the message is published, and once more after that. -/
def actions : List RouterAction :=
  [.call (.handle_outbound_message outbound) (clockAt 0), .call (.handle_event event) (clockAt 1),
    .publish 0, .call (.handle_event event) (clockAt 2)]

/-- A clock that stands still runs forward. -/
theorem clocked (time : ℚ) : Clocked (clockAt time) := fun _ _ _ => le_refl _

/-- The router once the message is about to be published. -/
def afterOutbound (name : Str) : RouterState :=
  called (RouterState.new (oneApp name) 0) (.handle_outbound_message outbound) 0
    (((router name).handleOutboundMessage outbound).run (clockAt 0)
      (MemoryMessageCache.new 3600))

/-- The run of `actions`, whatever the name of the application is. -/
theorem run_actions {name : Str} (hsetup : IsSetUp plainCompile (oneApp name) (router name)) :
    Machine.Meets (router name).step Permitted (RouterState.new (oneApp name) 0) actions ∧
      ∃ s, Machine.run (router name).step (RouterState.new (oneApp name) 0) actions = some s ∧
        s.publications 0 = [.outbound (str "test1") outbound] ∧ Stored s.history 0 outbound 0 ∧
          LookedUp s.history 1 event 1 ∧ LookedUp s.history 2 event 2 := by
  -- An event is looked up and not stored, so it may come at any later time.
  have hevent : ∀ s : RouterState, ∀ time, s.now ≤ time →
      Permitted s (.call (.handle_event event) (clockAt time)) :=
    fun s time hle => ⟨clocked time, hle, fun m hm => by cases hm⟩
  have hfirst : Permitted (RouterState.new (oneApp name) 0)
      (.call (.handle_outbound_message outbound) (clockAt 0)) := by
    refine ⟨clocked 0, le_refl _, ?_⟩
    rintro m - i n t ⟨x, hx⟩
    cases hx
  have hearly := step_event hsetup (afterOutbound name) event (clockAt 1)
  constructor
  · -- One action after the other, each from the state that the last one left.
    refine Machine.meets_cons _ hfirst (step_outbound _ _ _ _) ?_
    refine Machine.meets_cons _ (hevent _ 1 zero_le_one) hearly ?_
    refine Machine.meets_cons _ trivial rfl ?_
    exact Machine.meets_cons _ (hevent _ 2 one_le_two) (step_event hsetup _ _ _) trivial
  · refine ⟨_, (Machine.run_cons _).2 ⟨_, step_outbound _ _ _ _, (Machine.run_cons _).2 ⟨_, hearly,
      (Machine.run_cons _).2 ⟨_, rfl, (Machine.run_cons _).2 ⟨_, step_event hsetup _ _ _, rfl⟩⟩⟩⟩,
      rfl, ⟨_, rfl⟩, ⟨_, rfl⟩, ⟨_, rfl⟩⟩

end RouterExample

open RouterExample

/-- An event is published to the application of the mapping, before and after its message is
published. -/
theorem event_routed_example : ∃ s,
    Machine.run (router (str "app1")).step (RouterState.new (oneApp (str "app1")) 0) actions =
        some s ∧
      s.PublishesOnce 1 (.event (str "app1") event) ∧
        s.PublishesOnce 2 (.event (str "app1") event) := by
  have hsetup : setup plainCompile (oneApp (str "app1")) = .ok (router (str "app1")) := rfl
  obtain ⟨hmeets, s, hrun, -, hstored, hearly, hlate⟩ := run_actions (isSetUp_of_setup hsetup)
  have hin : TimeoutDict.age 1 0 ≤ (oneApp (str "app1")).timeout := by
    decide +kernel
  have hin' : TimeoutDict.age 2 0 ≤ (oneApp (str "app1")).timeout := by
    decide +kernel
  refine ⟨s, hrun, ?_, ?_⟩
  · have hrouted := (event_routed hsetup hmeets hrun).1 1 0 event outbound 1 0
    exact hrouted hearly hstored Nat.one_pos rfl hin
  · have hrouted := (event_routed hsetup hmeets hrun).1 2 0 event outbound 2 0
    exact hrouted hlate hstored Nat.two_pos rfl hin'

/-- The first mapping matches, and its connector is set up, but its name is empty. -/
theorem event_not_routed :
    setup plainCompile (oneApp []) = .ok (router []) ∧
      Machine.Meets (router []).step Permitted (RouterState.new (oneApp []) 0) actions ∧
        (oneApp []).chosen plainCompile outbound.from_addr = some [] ∧
          ∃ s, Machine.run (router []).step (RouterState.new (oneApp []) 0) actions = some s ∧
            s.publications 0 = [.outbound (str "test1") outbound] ∧
              Stored s.history 0 outbound 0 ∧ LookedUp s.history 2 event 2 ∧
                ¬ s.PublishesOnce 2 (.event [] event) ∧ s.Drops 2 := by
  have hsetup : setup plainCompile (oneApp []) = .ok (router []) := rfl
  obtain ⟨hmeets, s, hrun, hsent, hstored, -, hlate⟩ := run_actions (isSetUp_of_setup hsetup)
  have hinv := RouterInv.run (isSetUp_of_setup hsetup) hmeets hrun
  have hin : TimeoutDict.age 2 0 ≤ (oneApp []).timeout := by
    decide +kernel
  have hdrops : s.Drops 2 := hinv.routed hlate hstored Nat.two_pos rfl hin
  refine ⟨hsetup, hmeets, rfl, s, hrun, hsent, hstored, hlate, ?_, hdrops⟩
  -- A task that has dropped its event is not one that publishes.
  rintro ⟨task, htask, hphase⟩
  obtain ⟨task', htask', hdropped, -⟩ := hdrops
  obtain rfl := Option.some.inj (htask.symm.trans htask')
  rw [hdropped] at hphase
  rcases hphase with ⟨hphase, -⟩ | ⟨hphase, -⟩
  · cases hphase
  · cases hphase

end Vumi2
