import Mathlib.Data.List.Nodup
import Mathlib.Data.List.Perm.Subperm
import Vumi2.Connectors.Closing

/-!
# Settling every delivery before the publishers close

What a started consumer can do is one of the moves of `Moves`; `moves_of_step` says so, given that
the memory channel never blocks. Three invariants are kept by every move. `Flow` says which tasks
can wait, and that the broker's window keeps the channel from blocking. `Custody` says where each
accepted delivery is: in the buffer, with one task, or settled. `Records` says how a settlement
comes from what happened to the delivery. `Drains` is all of them, and `orderly` what they mean for
the broker and the callback.

A collection closes a publisher only after every consumer's `aclose` returned, which it does only
after `_closed` is set, when no task is left and hence every accepted delivery is settled.
-/

namespace Vumi2

open Text Machine Slots

namespace ConsumeTask

/-- The delivery that a task has received and not yet settled. -/
def held : ConsumeTask → Option Delivery
  | received d | handling d | settling d _ => some d
  | _ => none

/-- The delivery whose callback a task runs. -/
def inCallback : ConsumeTask → Option Delivery
  | handling d => some d
  | _ => none

/-- The delivery that a task is about to settle. -/
def decided : ConsumeTask → Option Delivery
  | settling d _ => some d
  | _ => none

/-- How much a task has left to do, if nothing more is delivered. -/
def work : ConsumeTask → ℕ
  | parked | done => 0
  | ending => 1
  | ready => 2
  | settling _ _ => 3
  | handling _ => 4
  | received _ => 5

end ConsumeTask

namespace Consumer

open ConsumeTask (held inCallback decided work)

variable (deserialises : Bytes → Bool)

/-- What a started consumer can do. -/
inductive Moves (c : Consumer) : Consumer → Prop where
  /-- `start` returns at its guard. -/
  | start : Moves c c
  /-- A further call of `aclose`. -/
  | closeAgain (h : c.closing = true) : Moves c { c with waiting := c.waiting + 1 }
  /-- The first call of `aclose`. -/
  | close (h : c.closing = false) :
    Moves c { c with
      closing := true
      senders := []
      tasks := c.tasks.map endParked
      waiting := c.waiting + 1 }
  | wake (h : c.closed = true) :
    Moves c { c with
      waiting := c.waiting - 1, returned := c.returned + 1, channels := c.channels - 1 }
  /-- A delivery that comes too late is left to the broker. -/
  | drop (d : Delivery) (may : c.MayDeliver d) (h : c.closing = true) :
    Moves c { c with delivered := c.delivered ++ [d] }
  /-- A delivery goes to a task that waits. -/
  | hand (d : Delivery) (i : ℕ) (may : c.MayDeliver d) (h : c.closing = false)
    (hi : c.tasks[i]? = some .parked) :
    Moves c { c with
      delivered := c.delivered ++ [d]
      accepted := c.accepted ++ [d]
      tasks := c.tasks.set i (.received d) }
  /-- A delivery goes into the buffer. -/
  | store (d : Delivery) (may : c.MayDeliver d) (h : c.closing = false)
    (busy : .parked ∉ c.tasks) :
    Moves c { c with
      delivered := c.delivered ++ [d]
      accepted := c.accepted ++ [d]
      buffer := c.buffer ++ [d] }
  | take (i : ℕ) (d : Delivery) (rest : List Delivery) (hi : c.tasks[i]? = some .ready)
    (hbuffer : c.buffer = d :: rest) :
    Moves c { c with tasks := c.tasks.set i (.received d), buffer := rest }
  | park (i : ℕ) (hi : c.tasks[i]? = some .ready) (hbuffer : c.buffer = [])
    (h : c.closing = false) : Moves c { c with tasks := c.tasks.set i .parked }
  | endOfChannel (i : ℕ) (hi : c.tasks[i]? = some .ready) (hbuffer : c.buffer = [])
    (h : c.closing = true) : Moves c { c with tasks := c.tasks.set i .ending }
  | call (i : ℕ) (d : Delivery) (hi : c.tasks[i]? = some (.received d))
    (hd : deserialises d.body = true) :
    Moves c { c with tasks := c.tasks.set i (.handling d), callbacks := c.callbacks ++ [d] }
  | refuse (i : ℕ) (d : Delivery) (hi : c.tasks[i]? = some (.received d))
    (hd : deserialises d.body = false) :
    Moves c { c with
      tasks := c.tasks.set i (.settling d .undecodable)
      outcomes := c.outcomes ++ [(d, .undecodable)] }
  | finish (i : ℕ) (d : Delivery) (h : Handled) (hi : c.tasks[i]? = some (.handling d))
    (hh : h ≠ .undecodable) :
    Moves c { c with
      tasks := c.tasks.set i (.settling d h)
      outcomes := c.outcomes ++ [(d, h)] }
  | settle (i : ℕ) (d : Delivery) (h : Handled) (hi : c.tasks[i]? = some (.settling d h)) :
    Moves c { c with
      tasks := c.tasks.set i .ready
      settlements := c.settlements ++ [(d, h.settlement)] }
  | stop (i : ℕ) (hi : c.tasks[i]? = some .ending) : Moves c (c.stop i)

/-! ## The memory channel -/

/-- The state of the memory channel, and what the broker has delivered. -/
structure Flow (c : Consumer) : Prop where
  started : c.tasks ≠ []
  /-- No two deliveries have the same tag. -/
  tags : (c.delivered.map Delivery.delivery_tag).Nodup
  accepted : c.accepted.Sublist c.delivered
  /-- Until it closes, the consumer accepts what is delivered. -/
  all : c.closing = false → c.accepted = c.delivered
  /-- Only one channel delivers. -/
  window : c.channels ≤ 1
  /-- No `queue_message` waits in `send`. -/
  senders : c.senders = []
  /-- A task waits only for an empty channel that is open. -/
  parked : .parked ∈ c.tasks → c.buffer = [] ∧ c.closing = false
  /-- A task ends only once the channel is empty. -/
  finished : ∀ t ∈ c.tasks, t = .ending ∨ t = .done → c.buffer = []
  returned : 0 < c.returned → c.closed = true

variable {deserialises} {c c' : Consumer}

/-- A parked task was so before another task went on. -/
theorem mem_set_parked {i : ℕ} {t : ConsumeTask} (ht : t ≠ .parked)
    (h : .parked ∈ c.tasks.set i t) : .parked ∈ c.tasks := by
  rcases List.mem_or_eq_of_mem_set h with h | h
  · exact h
  · exact absurd h.symm ht

/-- A task that goes on changes neither who waits nor who ends. -/
theorem Flow.setTask (h : c.Flow) {i : ℕ} {t : ConsumeTask} (ht : t ≠ .parked)
    (ht' : ¬ (t = .ending ∨ t = .done)) :
    c.tasks.set i t ≠ [] ∧ (.parked ∈ c.tasks.set i t → c.buffer = [] ∧ c.closing = false) ∧
      ∀ u ∈ c.tasks.set i t, u = .ending ∨ u = .done → c.buffer = [] := by
  refine ⟨?_, fun hp => h.parked (mem_set_parked ht hp), ?_⟩
  · rw [← List.length_pos_iff_ne_nil, List.length_set, List.length_pos_iff_ne_nil]
    exact h.started
  · exact forall_mem_set h.finished fun hu => absurd hu ht'

/-- So the channel stays in order, whatever the task records. -/
theorem Flow.goOn (h : c.Flow) {i : ℕ} {t : ConsumeTask} (ht : t ≠ .parked)
    (ht' : ¬ (t = .ending ∨ t = .done)) (callbacks : List Delivery)
    (outcomes : List (Delivery × Handled)) (settlements : List (Delivery × Settlement)) :
    ({ c with
      tasks := c.tasks.set i t
      callbacks := callbacks
      outcomes := outcomes
      settlements := settlements }).Flow := by
  obtain ⟨hne, hparked, hover⟩ := h.setTask (i := i) ht ht'
  exact ⟨hne, h.tags, h.accepted, h.all, h.window, h.senders, hparked, hover, h.returned⟩

/-- A delivery that may come has a tag of its own. -/
theorem tags_append (h : c.Flow) {d : Delivery} (may : c.MayDeliver d) :
    ((c.delivered ++ [d]).map Delivery.delivery_tag).Nodup := by
  rw [List.map_append, List.nodup_append]
  refine ⟨h.tags, List.pairwise_singleton _ _, ?_⟩
  intro a ha b hb
  obtain ⟨e, he, rfl⟩ := List.mem_map.1 ha
  rw [List.mem_singleton.1 hb]
  exact may.2 e he

/-- No task is parked when all are told to end. -/
theorem mem_map_endParked {ts : List ConsumeTask} : .parked ∉ ts.map endParked := by
  intro h
  obtain ⟨t, -, ht⟩ := List.mem_map.1 h
  cases t <;> cases ht

/-- Every move keeps the channel in order. -/
theorem Flow.move (hs : c.Sound) (h : c.Flow) (hmove : c.Moves deserialises c') : c'.Flow := by
  cases hmove with
  | start => exact h
  | closeAgain hc =>
    exact ⟨h.started, h.tags, h.accepted, h.all, h.window, h.senders, h.parked, h.finished,
      h.returned⟩
  | close hc =>
    -- The tasks that wait end, and the others go on.
    constructor
    · exact fun hnil => h.started (List.map_eq_nil_iff.1 hnil)
    · exact h.tags
    · exact h.accepted
    · intro hopen
      cases hopen
    · exact h.window
    · rfl
    · exact fun hp => absurd hp mem_map_endParked
    · intro t ht hend
      obtain ⟨u, hu, rfl⟩ := List.mem_map.1 ht
      -- What ends now has been waiting, for an empty channel.
      cases u with
      | parked => exact (h.parked hu).1
      | ending => exact h.finished _ hu (.inl rfl)
      | done => exact h.finished _ hu (.inr rfl)
      | ready | received | handling | settling => rcases hend with hend | hend <;> cases hend
    · exact h.returned
  | wake hc =>
    have hwindow := h.window
    exact ⟨h.started, h.tags, h.accepted, h.all, by show c.channels - 1 ≤ 1; omega, h.senders,
      h.parked, h.finished, fun _ => hc⟩
  | drop d may hc =>
    refine ⟨h.started, tags_append h may, h.accepted.trans (List.sublist_append_left _ _), ?_,
      h.window, h.senders, h.parked, h.finished, h.returned⟩
    intro hopen
    rw [show c.closing = false from hopen] at hc
    cases hc
  | hand d i may hc hi =>
    -- A consumer that accepts has accepted everything so far.
    obtain ⟨hne, hparked, hover⟩ := h.setTask (i := i) (t := .received d) (by simp) (by simp)
    exact ⟨hne, tags_append h may, h.accepted.append (List.Sublist.refl _),
      fun hopen => congrArg (· ++ [d]) (h.all hopen), h.window, h.senders, hparked, hover,
      h.returned⟩
  | store d may hc busy =>
    refine ⟨h.started, tags_append h may, h.accepted.append (List.Sublist.refl _),
      fun hopen => congrArg (· ++ [d]) (h.all hopen), h.window, h.senders,
      fun hp => absurd hp busy, ?_, h.returned⟩
    -- Only a consumer that is closing has tasks that end.
    intro t ht hend
    obtain ⟨hnot, hnot'⟩ := (hs.full hc h.started).2 t ht
    rcases hend with hend | hend
    · exact absurd hend hnot
    · exact absurd hend hnot'
  | take i d rest hi hbuffer =>
    -- The buffer was not empty, so no task waited or ended before.
    have hnone : c.buffer ≠ [] := by rw [hbuffer]; exact List.cons_ne_nil _ _
    obtain ⟨hne, hparked, hover⟩ := h.setTask (i := i) (t := .received d) (by simp) (by simp)
    exact ⟨hne, h.tags, h.accepted, h.all, h.window, h.senders,
      fun hp => absurd (hparked hp).1 hnone, fun t ht hend => absurd (hover t ht hend) hnone,
      h.returned⟩
  | park i hi hbuffer hc =>
    refine ⟨?_, h.tags, h.accepted, h.all, h.window, h.senders, fun _ => ⟨hbuffer, hc⟩,
      fun _ _ _ => hbuffer, h.returned⟩
    exact List.ne_nil_of_mem (mem_set_self hi .parked)
  | endOfChannel i hi hbuffer hc =>
    refine ⟨?_, h.tags, h.accepted, h.all, h.window, h.senders, fun hp => ?_,
      fun _ _ _ => hbuffer, h.returned⟩
    · exact List.ne_nil_of_mem (mem_set_self hi .ending)
    · exact h.parked (mem_set_parked (by simp) hp)
  | call => exact h.goOn (by simp) (by simp) _ _ _
  | refuse => exact h.goOn (by simp) (by simp) _ _ _
  | finish => exact h.goOn (by simp) (by simp) _ _ _
  | settle => exact h.goOn (by simp) (by simp) _ _ _
  | stop i hi =>
    have hbuffer : c.buffer = [] := h.finished _ (List.mem_of_getElem? hi) (.inl rfl)
    refine ⟨?_, h.tags, h.accepted, h.all, h.window, h.senders, fun hp => ?_,
      fun _ _ _ => hbuffer, fun hr => ?_⟩
    · exact List.ne_nil_of_mem (mem_set_self hi .done)
    · exact h.parked (mem_set_parked (by simp) hp)
    · show (c.closed || decide (c.active_consumers - 1 = 0)) = true
      rw [h.returned hr, Bool.true_or]

/-! ## Where the deliveries are -/

/-- Each accepted delivery is in the buffer, with one task, or settled; and the same for what has
been decided and for what was passed to the callback. -/
structure Custody (c : Consumer) : Prop where
  accepted : c.accepted.Perm
    (c.buffer ++ (c.tasks.filterMap ConsumeTask.held ++ c.settlements.map Prod.fst))
  outcomes : (c.outcomes.map Prod.fst).Perm
    (c.tasks.filterMap ConsumeTask.decided ++ c.settlements.map Prod.fst)
  called : c.callbacks.Perm (c.tasks.filterMap ConsumeTask.inCallback ++
    (c.outcomes.filter fun e => decide (e.2 ≠ .undecodable)).map Prod.fst)

/-- What the tasks hold when the channel closes is what they held. -/
theorem filterMap_endParked (f : ConsumeTask → Option Delivery) (hf : f .parked = f .ending)
    (ts : List ConsumeTask) : (ts.map endParked).filterMap f = ts.filterMap f := by
  rw [List.filterMap_map]
  refine List.filterMap_congr fun t _ => ?_
  cases t with
  | parked => exact hf.symm
  | _ => rfl

/-- A task keeps what it held. -/
theorem custody_keep (f : ConsumeTask → Option Delivery) {i : ℕ} {t : ConsumeTask}
    {ts : List ConsumeTask} (hi : ts[i]? = some t) (u : ConsumeTask) (htu : f u = f t)
    (rest : List Delivery) : (ts.filterMap f ++ rest).Perm ((ts.set i u).filterMap f ++ rest) := by
  rw [filterMap_set_keep f hi u htu]

/-- What a task takes comes off the front of the buffer. -/
theorem custody_take {ds ds' : List Delivery} {d : Delivery} {rest settled : List Delivery}
    (h : ds'.Perm (d :: ds)) :
    (d :: rest ++ (ds ++ settled)).Perm (rest ++ (ds' ++ settled)) := by
  calc d :: rest ++ (ds ++ settled)
      _ |>.Perm (rest ++ (d :: ds ++ settled)) := List.perm_middle.symm
      _ |>.Perm (rest ++ (ds' ++ settled)) := (h.symm.append_right _).append_left _

/-- What a task gives up is added to the end of a log. -/
theorem custody_give {ds ds' : List Delivery} {d : Delivery} {settled : List Delivery}
    (h : (d :: ds').Perm ds) : (ds ++ settled).Perm (ds' ++ (settled ++ [d])) := by
  calc ds ++ settled
      _ |>.Perm (d :: ds' ++ settled) := h.symm.append_right _
      _ |>.Perm (ds' ++ (d :: settled)) := List.perm_middle.symm
      _ |>.Perm (ds' ++ (settled ++ [d])) := (List.perm_append_singleton _ _).symm.append_left _

/-- A delivery that is new to a log is new to where its deliveries are. -/
theorem custody_new {log ds ds' rest : List Delivery} {d : Delivery} (h : log.Perm (ds ++ rest))
    (hd : ds'.Perm (d :: ds)) : (log ++ [d]).Perm (ds' ++ rest) := by
  calc log ++ [d]
      _ |>.Perm (d :: log) := List.perm_append_singleton _ _
      _ |>.Perm (d :: ds ++ rest) := h.cons d
      _ |>.Perm (ds' ++ rest) := hd.symm.append_right _

/-- A task that goes on with what it had keeps account of the deliveries. -/
theorem Custody.setTask (h : c.Custody) {i : ℕ} {t : ConsumeTask} (hi : c.tasks[i]? = some t)
    (u : ConsumeTask) (hheld : u.held = t.held) (hdecided : u.decided = t.decided)
    (hcallback : u.inCallback = t.inCallback) :
    Custody { c with tasks := c.tasks.set i u } :=
  ⟨h.accepted.trans ((custody_keep held hi u hheld _).append_left _),
    h.outcomes.trans (custody_keep decided hi u hdecided _),
    h.called.trans (custody_keep inCallback hi u hcallback _)⟩

/-- Every move keeps account of the deliveries. -/
theorem Custody.move (h : c.Custody) (hmove : c.Moves deserialises c') : c'.Custody := by
  cases hmove with
  | start => exact h
  | closeAgain | wake | drop => exact ⟨h.accepted, h.outcomes, h.called⟩
  | close hc =>
    refine ⟨?_, ?_, ?_⟩
    · rw [filterMap_endParked _ rfl]
      exact h.accepted
    · rw [filterMap_endParked _ rfl]
      exact h.outcomes
    · rw [filterMap_endParked _ rfl]
      exact h.called
  | hand d i may hc hi =>
    refine ⟨?_, h.outcomes.trans (custody_keep decided hi (.received d) rfl _),
      h.called.trans (custody_keep inCallback hi (.received d) rfl _)⟩
    -- The task takes the delivery past the buffer.
    have hheld : ((c.tasks.set i (.received d)).filterMap held).Perm
        (d :: c.tasks.filterMap held) :=
      filterMap_set_take held hi (.received d) rfl rfl
    calc c.accepted ++ [d]
        _ |>.Perm (d :: c.accepted) := List.perm_append_singleton _ _
        _ |>.Perm (d :: c.buffer ++ _) := h.accepted.cons d
        _ |>.Perm _ := custody_take hheld
  | store d may hc busy =>
    refine ⟨?_, h.outcomes, h.called⟩
    exact custody_new h.accepted (List.perm_append_singleton _ _)
  | take i d rest hi hbuffer =>
    refine ⟨?_, h.outcomes.trans (custody_keep decided hi (.received d) rfl _),
      h.called.trans (custody_keep inCallback hi (.received d) rfl _)⟩
    have haccepted := h.accepted
    rw [hbuffer] at haccepted
    exact haccepted.trans (custody_take (filterMap_set_take held hi (.received d) rfl rfl))
  | park i hi =>
    have hkeep := h.setTask hi .parked rfl rfl rfl
    exact ⟨hkeep.accepted, hkeep.outcomes, hkeep.called⟩
  | endOfChannel i hi =>
    have hkeep := h.setTask hi .ending rfl rfl rfl
    exact ⟨hkeep.accepted, hkeep.outcomes, hkeep.called⟩
  | call i d hi hd =>
    refine ⟨h.accepted.trans ((custody_keep held hi (.handling d) rfl _).append_left _),
      h.outcomes.trans (custody_keep decided hi (.handling d) rfl _), ?_⟩
    exact custody_new h.called (filterMap_set_take inCallback hi (.handling d) rfl rfl)
  | refuse i d hi hd =>
    refine ⟨h.accepted.trans
      ((custody_keep held hi (.settling d .undecodable) rfl _).append_left _), ?_, ?_⟩
    · show ((c.outcomes ++ [(d, Handled.undecodable)]).map Prod.fst).Perm _
      rw [List.map_append]
      exact custody_new h.outcomes
        (filterMap_set_take decided hi (.settling d .undecodable) rfl rfl)
    · -- What cannot be decoded is not a call of the callback.
      show c.callbacks.Perm (_ ++ ((c.outcomes ++ [(d, Handled.undecodable)]).filter _).map _)
      rw [List.filter_append, List.filter_singleton, decide_eq_false (by simp), cond_false,
        List.append_nil]
      exact h.called.trans (custody_keep inCallback hi (.settling d .undecodable) rfl _)
  | finish i d hh hi hne =>
    refine ⟨h.accepted.trans ((custody_keep held hi (.settling d hh) rfl _).append_left _), ?_, ?_⟩
    · show ((c.outcomes ++ [(d, hh)]).map Prod.fst).Perm _
      rw [List.map_append]
      exact custody_new h.outcomes (filterMap_set_take decided hi (.settling d hh) rfl rfl)
    · -- The callback is over, and the delivery goes to the log of what was decided.
      show c.callbacks.Perm (_ ++ ((c.outcomes ++ [(d, hh)]).filter _).map _)
      rw [List.filter_append, List.filter_singleton, decide_eq_true hne, cond_true, List.map_append]
      exact h.called.trans
        (custody_give (filterMap_set_give inCallback hi (.settling d hh) rfl rfl))
  | settle i d hh hi =>
    refine ⟨?_, ?_, h.called.trans (custody_keep inCallback hi .ready rfl _)⟩
    · show c.accepted.Perm (c.buffer ++ (_ ++ (c.settlements ++ [(d, _)]).map Prod.fst))
      rw [List.map_append]
      exact h.accepted.trans
        ((custody_give (filterMap_set_give held hi .ready rfl rfl)).append_left _)
    · show (c.outcomes.map Prod.fst).Perm (_ ++ (c.settlements ++ [(d, _)]).map Prod.fst)
      rw [List.map_append]
      exact h.outcomes.trans (custody_give (filterMap_set_give decided hi .ready rfl rfl))
  | stop i hi =>
    have hkeep := h.setTask hi .done rfl rfl rfl
    exact ⟨hkeep.accepted, hkeep.outcomes, hkeep.called⟩

/-- What has come of the deliveries. -/
structure Records (deserialises : Bytes → Bool) (c : Consumer) : Prop where
  settled : ∀ e ∈ c.settlements, ∃ h, (e.1, h) ∈ c.outcomes ∧ e.2 = h.settlement
  settling : ∀ d h, .settling d h ∈ c.tasks → (d, h) ∈ c.outcomes
  handling : ∀ d, .handling d ∈ c.tasks → deserialises d.body = true
  outcomes : ∀ e ∈ c.outcomes, e.2 = .undecodable ↔ deserialises e.1.body = false

/-- A task that neither runs a callback nor settles leaves the records as they are. -/
theorem Records.setTask (h : c.Records deserialises) {i : ℕ} {t : ConsumeTask}
    (ht : decided t = none) (ht' : inCallback t = none) :
    (∀ d hd, .settling d hd ∈ c.tasks.set i t → (d, hd) ∈ c.outcomes) ∧
      ∀ d, .handling d ∈ c.tasks.set i t → deserialises d.body = true := by
  constructor
  · intro d hd hmem
    rcases List.mem_or_eq_of_mem_set hmem with hmem | rfl
    · exact h.settling d hd hmem
    · cases ht
  · intro d hmem
    rcases List.mem_or_eq_of_mem_set hmem with hmem | rfl
    · exact h.handling d hmem
    · cases ht'

/-- So the records stay right, wherever the deliveries are. -/
theorem Records.goOn (h : c.Records deserialises) {i : ℕ} {t : ConsumeTask}
    (htasks : c'.tasks = c.tasks.set i t) (ht : decided t = none) (ht' : inCallback t = none)
    (hsettlements : c'.settlements = c.settlements) (houtcomes : c'.outcomes = c.outcomes) :
    c'.Records deserialises := by
  obtain ⟨hsettling, hhandling⟩ := h.setTask (i := i) ht ht'
  refine ⟨?_, ?_, ?_, ?_⟩
  · rw [hsettlements, houtcomes]
    exact h.settled
  · rw [htasks, houtcomes]
    exact hsettling
  · rw [htasks]
    exact hhandling
  · rw [houtcomes]
    exact h.outcomes

/-- What a task has decided about a delivery goes to the records. -/
theorem Records.decide (h : c.Records deserialises) {i : ℕ} {d : Delivery} {hd : Handled}
    (hbody : hd = .undecodable ↔ deserialises d.body = false) :
    ({ c with
      tasks := c.tasks.set i (.settling d hd)
      outcomes := c.outcomes ++ [(d, hd)] }).Records deserialises := by
  refine ⟨?_, ?_, ?_, ?_⟩
  · intro e he
    obtain ⟨h', hmem, hset⟩ := h.settled e he
    exact ⟨h', List.mem_append_left _ hmem, hset⟩
  · -- The task that settles now is the one whose outcome was just recorded.
    intro d' h' hmem
    rcases List.mem_or_eq_of_mem_set hmem with hmem | heq
    · exact List.mem_append_left _ (h.settling d' h' hmem)
    · cases heq
      exact List.mem_append_right _ (List.mem_singleton_self _)
  · intro d' hmem
    rcases List.mem_or_eq_of_mem_set hmem with hmem | heq
    · exact h.handling d' hmem
    · cases heq
  · intro e he
    rcases List.mem_append.1 he with he | he
    · exact h.outcomes e he
    · rw [List.mem_singleton.1 he]
      exact hbody

/-- Every move keeps the records. -/
theorem Records.move (h : c.Records deserialises) (hmove : c.Moves deserialises c') :
    c'.Records deserialises := by
  cases hmove with
  | start => exact h
  | closeAgain | wake | drop | store =>
    exact ⟨h.settled, h.settling, h.handling, h.outcomes⟩
  | close hc =>
    have hmem : ∀ t : ConsumeTask, t ≠ .ending → t ∈ c.tasks.map endParked → t ∈ c.tasks := by
      intro t ht hmem
      obtain ⟨u, hu, rfl⟩ := List.mem_map.1 hmem
      cases u with
      | parked => exact absurd rfl ht
      | _ => exact hu
    exact ⟨h.settled, fun d hd hm => h.settling d hd (hmem _ (by simp) hm),
      fun d hm => h.handling d (hmem _ (by simp) hm), h.outcomes⟩
  | hand d i => exact h.goOn (t := .received d) rfl rfl rfl rfl rfl
  | take i d => exact h.goOn (t := .received d) rfl rfl rfl rfl rfl
  | park i => exact h.goOn (t := .parked) rfl rfl rfl rfl rfl
  | endOfChannel i => exact h.goOn (t := .ending) rfl rfl rfl rfl rfl
  | stop i => exact h.goOn (t := .done) rfl rfl rfl rfl rfl
  | call i d hi hd =>
    -- The callback is called with what was decoded.
    refine ⟨h.settled, ?_, ?_, h.outcomes⟩
    · intro d' h' hmem
      rcases List.mem_or_eq_of_mem_set hmem with hmem | heq
      · exact h.settling d' h' hmem
      · cases heq
    · intro d' hmem
      rcases List.mem_or_eq_of_mem_set hmem with hmem | heq
      · exact h.handling d' hmem
      · cases heq
        exact hd
  | refuse i d hi hd => exact h.decide ⟨fun _ => hd, fun _ => rfl⟩
  | finish i d hh hi hne =>
    have hd : deserialises d.body = true := h.handling d (List.mem_of_getElem? hi)
    refine h.decide ⟨fun heq => absurd heq hne, fun hfalse => ?_⟩
    rw [hd] at hfalse
    cases hfalse
  | settle i d hh hi =>
    -- What is settled has been decided before.
    obtain ⟨hsettling, hhandling⟩ := h.setTask (i := i) (t := .ready) rfl rfl
    refine ⟨?_, hsettling, hhandling, h.outcomes⟩
    intro e he
    rcases List.mem_append.1 he with he | he
    · exact h.settled e he
    · rw [List.mem_singleton.1 he]
      exact ⟨hh, h.settling d hh (List.mem_of_getElem? hi), rfl⟩

/-! ## The actions of a started consumer -/

/-- The invariants of a started consumer. -/
structure Drains (deserialises : Bytes → Bool) (c : Consumer) : Prop where
  sound : c.Sound
  flow : c.Flow
  custody : c.Custody
  records : c.Records deserialises

/-- The broker's window leaves room in the channel. -/
theorem Drains.room (h : c.Drains deserialises) (hopen : c.closing = false) {d : Delivery}
    (may : c.MayDeliver d) : c.buffer.length < c.concurrency := by
  have hwindow : c.channels * c.concurrency ≤ 1 * c.concurrency :=
    Nat.mul_le_mul_right _ h.flow.window
  -- What is buffered was delivered, and is not settled.
  have hlen := h.custody.accepted.length_eq
  rw [h.flow.all hopen, List.length_append, List.length_append, List.length_map] at hlen
  have hmay := may.1
  omega

/-- A delivery is dropped, handed to a task that waits, or stored. -/
theorem Drains.moves_deliver (h : c.Drains deserialises) {d : Delivery} {task : Option ℕ}
    (hstep : c.queueMessage d task = some c') : c.Moves deserialises c' := by
  unfold Consumer.queueMessage at hstep
  split_ifs at hstep with may hclosing
  · rw [← Option.some.inj hstep]
    exact .drop d may hclosing
  · have hopen : c.closing = false := by simpa using hclosing
    unfold send at hstep
    cases task with
    | some i =>
      dsimp only at hstep
      split_ifs at hstep with hi
      rw [← Option.some.inj hstep]
      exact .hand d i may hopen hi
    | none =>
      dsimp only at hstep
      split_ifs at hstep with hbusy hroom
      · rw [← Option.some.inj hstep]
        exact .store d may hopen hbusy
      · exact absurd (h.room hopen may) hroom

/-- A task that is ready takes the next delivery, waits, or ends. -/
theorem Drains.moves_receive (h : c.Drains deserialises) {i : ℕ}
    (hi : c.tasks[i]? = some .ready) : c.Moves deserialises (c.receive i) := by
  have hsenders := h.flow.senders
  unfold Consumer.receive setTask
  rw [hsenders, List.take_nil, List.drop_nil, List.append_nil]
  split
  · rename_i d rest hbuffer
    have hmove : c.Moves deserialises _ := .take i d rest hi hbuffer
    rwa [hsenders] at hmove
  · rename_i hbuffer
    split_ifs with hclosing
    · have hmove : c.Moves deserialises _ := .endOfChannel i hi hbuffer hclosing
      rwa [hsenders] at hmove
    · have hmove : c.Moves deserialises _ := .park i hi hbuffer (by simpa using hclosing)
      rwa [hsenders] at hmove

/-- What a task does next depends on what it is at. -/
theorem Drains.moves_task (h : c.Drains deserialises) {i : ℕ} {t : ConsumeTask} {a : TaskAction}
    (hi : c.tasks[i]? = some t) (ht : c.taskStep deserialises i t a = some c') :
    c.Moves deserialises c' := by
  unfold Consumer.taskStep at ht
  -- One case for each phase of `consume`, in the order of its definition.
  split at ht
  · rw [← Option.some.inj ht]
    exact h.moves_receive hi
  · rename_i d
    rw [← Option.some.inj ht]
    unfold Consumer.deserialise
    split_ifs with hd
    · exact .call i d hi hd
    · exact .refuse i d hi (by simpa using hd)
  · rename_i d ok
    rw [← Option.some.inj ht]
    refine .finish i d _ hi ?_
    split_ifs
    · simp
    · simp
  · rename_i d hh
    rw [← Option.some.inj ht]
    exact .settle i d hh hi
  · rw [← Option.some.inj ht]
    exact .stop i hi
  · cases ht

/-- No call of `start` is pending once there are tasks. -/
theorem Drains.starts_eq_nil (h : c.Drains deserialises) : c.starts = [] := by
  by_contra hne
  exact h.flow.started (h.sound.pending hne).1

/-- Every action of a started consumer is one of the moves. -/
theorem Drains.moves_of_step (h : c.Drains deserialises) {a : ConsumerAction}
    (hstep : c.step deserialises a = some c') : c.Moves deserialises c' := by
  have hnone : ∀ call : ℕ, c.starts[call]? = none := by
    intro call
    rw [h.starts_eq_nil]
    rfl
  cases a with
  | start =>
    rw [← Option.some.inj hstep]
    unfold Consumer.start
    rw [if_pos ?_]
    · exact .start
    · -- Until it closes, all the tasks are alive.
      rcases Bool.eq_false_or_eq_true c.closing with hclosing | hopen
      · exact .inr hclosing
      · obtain ⟨hlen, hall⟩ := h.sound.full hopen h.flow.started
        left
        rw [h.sound.active, total_alive_of_ne_done fun t ht => (hall t ht).2, hlen]
  | answer call =>
    simp only [step, answer, hnone call] at hstep
    cases hstep
  | resume call =>
    simp only [step, resume, hnone call] at hstep
    cases hstep
  | aclose =>
    rw [← Option.some.inj hstep]
    unfold Consumer.aclose
    split_ifs with hclosing
    · exact .closeAgain hclosing
    · exact .close (by simpa using hclosing)
  | wake =>
    simp only [step, wake] at hstep
    split_ifs at hstep with hguard
    rw [← Option.some.inj hstep]
    exact .wake hguard.1
  | deliver d task => exact h.moves_deliver hstep
  | task i a =>
    obtain ⟨t, hi, ht⟩ := Option.bind_eq_some_iff.1 hstep
    exact h.moves_task hi ht

/-- Every action keeps the invariants. -/
theorem Drains.step (h : c.Drains deserialises) {a : ConsumerAction}
    (hstep : c.step deserialises a = some c') : c'.Drains deserialises := by
  have hmove := h.moves_of_step hstep
  have hcare : c.Careful a := by
    cases a with
    | start => exact .inr h.starts_eq_nil
    | aclose => exact .inr h.flow.started
    | _ => trivial
  exact ⟨h.sound.step hcare hstep, h.flow.move h.sound hmove, h.custody.move hmove,
    h.records.move hmove⟩

/-! ## After `start` -/

/-- A call of `start` that returns, with the deliveries that come before it does. -/
def startup (ds : List Delivery) : List ConsumerAction :=
  .start :: List.replicate startOperations (.answer 0) ++ ds.map (fun d => .deliver d none) ++
    [.resume 0]

/-- `start` has returned. -/
def HasStarted (deserialises : Bytes → Bool) (c : Consumer) : Prop :=
  ∃ concurrency ds, 0 < concurrency ∧
    run (step deserialises) (new concurrency) (startup ds) = some c

/-- The consumer with a channel that delivers, before `start` goes on. -/
def subscribed (concurrency : ℕ) (ds : List Delivery) : Consumer :=
  { new concurrency with
    starts := [6], channels := 1, buffer := ds, delivered := ds, accepted := ds }

/-- The consumer when `start` has returned. -/
def started (concurrency : ℕ) (ds : List Delivery) : Consumer :=
  { new concurrency with
    active_consumers := concurrency
    tasks := List.replicate concurrency .ready
    receive_closed := true
    channels := 1
    buffer := ds
    delivered := ds
    accepted := ds }

/-- A consumer that starts gets the answers of the broker to its operations. -/
theorem run_subscribe {concurrency : ℕ} (hpos : 0 < concurrency) :
    run (step deserialises) (new concurrency)
        (.start :: List.replicate startOperations (.answer 0)) =
      some (subscribed concurrency []) := by
  have hguard : ¬ ((new concurrency).active_consumers = (new concurrency).concurrency ∨
      (new concurrency).closing = true) := by
    rintro (h | h)
    · exact absurd h (Nat.ne_of_lt hpos)
    · cases h
  have hstart : step deserialises (new concurrency) .start =
      some { new concurrency with starts := [0] } := by
    unfold step start
    rw [if_neg hguard]
    rfl
  exact (run_cons _).2 ⟨_, hstart, rfl⟩

/-- What is delivered before `start` goes on stays in the buffer. -/
theorem run_deliveries {concurrency : ℕ} (ds : List Delivery) {stored : List Delivery}
    (hnodup : (stored.map Delivery.delivery_tag).Nodup)
    (h : run (step deserialises) (subscribed concurrency stored)
      (ds.map fun d => .deliver d none) = some c) :
    c = subscribed concurrency (stored ++ ds) ∧
      ((stored ++ ds).map Delivery.delivery_tag).Nodup := by
  induction ds generalizing stored with
  | nil =>
    rw [List.append_nil]
    exact ⟨(Option.some.inj h).symm, hnodup⟩
  | cons d ds ih =>
    obtain ⟨c₁, hd, hrun⟩ := (run_cons _).1 h
    simp only [step, Consumer.queueMessage] at hd
    split_ifs at hd with may hclosing
    · cases hclosing
    · have hlen : (subscribed concurrency stored).buffer.length <
          (subscribed concurrency stored).concurrency := by
        have hmay := may.1
        simp only [subscribed, new, List.length_nil, Nat.one_mul, Nat.add_zero] at hmay
        exact hmay
      have hnot : ConsumeTask.parked ∉ (subscribed concurrency stored).tasks := List.not_mem_nil
      simp only [send] at hd
      rw [if_neg hnot, if_pos hlen] at hd
      -- The tag is new, since `deliver` is possible only then.
      have htags : ((stored ++ [d]).map Delivery.delivery_tag).Nodup := by
        rw [List.map_append, List.nodup_append]
        refine ⟨hnodup, List.pairwise_singleton _ _, ?_⟩
        intro a ha b hb
        obtain ⟨e, he, rfl⟩ := List.mem_map.1 ha
        rw [List.mem_singleton.1 hb]
        exact may.2 e he
      rw [← Option.some.inj hd] at hrun
      have hgoal := ih htags hrun
      rwa [List.append_assoc] at hgoal

/-- So `start` returns with its tasks ready, and with what was delivered in the buffer. -/
theorem eq_started_of_run {concurrency : ℕ} {ds : List Delivery} (hpos : 0 < concurrency)
    (hrun : run (step deserialises) (new concurrency) (startup ds) = some c) :
    c = started concurrency ds ∧ (ds.map Delivery.delivery_tag).Nodup := by
  obtain ⟨c₂, hrun, hresume⟩ := (run_append _).1 hrun
  obtain ⟨c₁, hsub, hds⟩ := (run_append _).1 hrun
  rw [run_subscribe hpos] at hsub
  obtain rfl := Option.some.inj hsub
  have hnil : (([] : List Delivery).map Delivery.delivery_tag).Nodup := List.Pairwise.nil
  obtain ⟨rfl, htags⟩ := run_deliveries ds hnil hds
  rw [List.nil_append] at hresume htags
  refine ⟨?_, htags⟩
  have hzero : 0 + concurrency = concurrency := Nat.zero_add _
  rw [← Option.some.inj hresume]
  unfold started
  simp only [subscribed, new, createTasks, Bool.false_eq_true, if_false, List.nil_append, hzero,
    List.eraseIdx_zero, List.tail_cons]

/-- The tasks of a started consumer are ready. -/
theorem eq_ready_of_started {concurrency : ℕ} {ds : List Delivery} {t : ConsumeTask}
    (ht : t ∈ (started concurrency ds).tasks) : t = .ready := List.eq_of_mem_replicate ht

/-- A started consumer has tasks. -/
theorem started_tasks_ne_nil {concurrency : ℕ} (hpos : 0 < concurrency) (ds : List Delivery) :
    (started concurrency ds).tasks ≠ [] :=
  List.ne_nil_of_length_pos (Nat.lt_of_lt_of_eq hpos List.length_replicate.symm)

/-- A started consumer is sound. -/
theorem sound_started {concurrency : ℕ} (hpos : 0 < concurrency) (ds : List Delivery) :
    (started concurrency ds).Sound :=
  sound_of_ready hpos rfl rfl rfl (fun hw => absurd hw (Nat.lt_irrefl 0)) rfl

/-- A started consumer holds what the broker has delivered. -/
theorem flow_started {concurrency : ℕ} (hpos : 0 < concurrency) {ds : List Delivery}
    (htags : (ds.map Delivery.delivery_tag).Nodup) : (started concurrency ds).Flow := by
  refine ⟨started_tasks_ne_nil hpos ds, htags, List.Sublist.refl _, fun _ => rfl, Nat.le_refl 1,
    rfl, ?_, ?_, ?_⟩
  · intro hp
    cases eq_ready_of_started hp
  · intro t ht hend
    rw [eq_ready_of_started ht] at hend
    rcases hend with hend | hend <;> cases hend
  · intro hr
    exact absurd hr (Nat.lt_irrefl 0)

/-- Everything that was delivered is in the buffer. -/
theorem custody_started (concurrency : ℕ) (ds : List Delivery) :
    (started concurrency ds).Custody := by
  have hnone : ∀ f : ConsumeTask → Option Delivery, f .ready = none →
      (started concurrency ds).tasks.filterMap f = [] := by
    intro f hf
    rw [List.filterMap_eq_nil_iff]
    intro t ht
    rw [eq_ready_of_started ht]
    exact hf
  refine ⟨?_, ?_, ?_⟩
  · show ds.Perm (ds ++ ((started concurrency ds).tasks.filterMap held ++ []))
    rw [hnone held rfl, List.append_nil, List.append_nil]
  · show [].Perm ((started concurrency ds).tasks.filterMap decided ++ [])
    rw [hnone decided rfl, List.append_nil]
  · show [].Perm ((started concurrency ds).tasks.filterMap inCallback ++ [])
    rw [hnone inCallback rfl, List.append_nil]

/-- A started consumer has settled nothing yet. -/
theorem records_started (concurrency : ℕ) (ds : List Delivery) :
    (started concurrency ds).Records deserialises := by
  refine ⟨fun e he => absurd he List.not_mem_nil, ?_, ?_, fun e he => absurd he List.not_mem_nil⟩
  · intro d hd hmem
    cases eq_ready_of_started hmem
  · intro d hmem
    cases eq_ready_of_started hmem

/-- The invariants hold when `start` has returned. -/
theorem drains_of_hasStarted (h : c.HasStarted deserialises) : c.Drains deserialises := by
  obtain ⟨concurrency, ds, hpos, hrun⟩ := h
  obtain ⟨rfl, htags⟩ := eq_started_of_run hpos hrun
  exact ⟨sound_started hpos ds, flow_started hpos htags, custody_started concurrency ds,
    records_started concurrency ds⟩

/-- An `aclose` that has returned stays so. -/
theorem Moves.returned_le (hmove : c.Moves deserialises c') : c.returned ≤ c'.returned := by
  cases hmove with
  | wake => exact Nat.le_succ _
  | _ => exact Nat.le_refl _

/-! ## What the invariants mean -/

/-- Of what a task holds, it runs the callback or is about to settle it, not both. -/
theorem held_subperm (ts : List ConsumeTask) :
    (ts.filterMap inCallback ++ ts.filterMap decided).Subperm (ts.filterMap held) := by
  induction ts with
  | nil => exact List.Subperm.refl _
  | cons t ts ih =>
    cases t with
    | handling d => exact (List.subperm_cons d).2 ih
    | settling d h =>
      have hmiddle : (ts.filterMap inCallback ++ d :: ts.filterMap decided).Perm
          (d :: (ts.filterMap inCallback ++ ts.filterMap decided)) := List.perm_middle
      exact hmiddle.subperm.trans ((List.subperm_cons d).2 ih)
    | received d => exact ih.trans (List.Subperm.cons_right d (List.Subperm.refl _))
    | ready | parked | ending | done => exact ih

/-- Only what was accepted is passed to the callback, and no more often. -/
theorem Custody.callbacks (h : c.Custody) : c.callbacks.Subperm c.accepted := by
  have hfilter : ((c.outcomes.filter fun e => decide (e.2 ≠ .undecodable)).map Prod.fst).Subperm
      (c.tasks.filterMap decided ++ c.settlements.map Prod.fst) :=
    (List.filter_sublist.map Prod.fst).subperm.trans h.outcomes.subperm
  have hheld : (c.tasks.filterMap inCallback ++
      (c.tasks.filterMap decided ++ c.settlements.map Prod.fst)).Subperm
        (c.tasks.filterMap held ++ c.settlements.map Prod.fst) := by
    rw [← List.append_assoc]
    exact (List.subperm_append_right _).2 (held_subperm c.tasks)
  have haccepted : (c.tasks.filterMap held ++ c.settlements.map Prod.fst).Subperm c.accepted :=
    (List.sublist_append_right c.buffer _).subperm.trans h.accepted.symm.subperm
  exact h.called.subperm.trans
    (((List.subperm_append_left _).2 hfilter).trans (hheld.trans haccepted))

/-- Only what was accepted is settled, and no more often. -/
theorem Custody.settlements (h : c.Custody) : (c.settlements.map Prod.fst).Subperm c.accepted :=
  ((List.sublist_append_right _ _).trans (List.sublist_append_right _ _)).subperm.trans
    h.accepted.symm.subperm

/-- Some of the deliveries have different tags if all have. -/
theorem nodup_of_subperm {ds ds' : List Delivery} (h : ds.Subperm ds')
    (hnodup : (ds'.map Delivery.delivery_tag).Nodup) : (ds.map Delivery.delivery_tag).Nodup := by
  obtain ⟨ds₁, hperm, hsub⟩ := h
  exact ((hperm.map _).nodup_iff).1 (hnodup.sublist (hsub.map _))

/-- What the callback got could be deserialised. -/
theorem Drains.deserialises_of_callback (h : c.Drains deserialises) {d : Delivery}
    (hd : d ∈ c.callbacks) : deserialises d.body = true := by
  rcases List.mem_append.1 (h.custody.called.mem_iff.1 hd) with hd | hd
  · -- The callback is running, or it is over.
    obtain ⟨t, ht, hheld⟩ := List.mem_filterMap.1 hd
    cases t with
    | handling e =>
      obtain rfl : e = d := Option.some.inj hheld
      exact h.records.handling e ht
    | _ => cases hheld
  · obtain ⟨e, he, rfl⟩ := List.mem_map.1 hd
    obtain ⟨he, hne⟩ := List.mem_filter.1 he
    by_contra hfalse
    exact of_decide_eq_true hne ((h.records.outcomes e he).2 (by simpa using hfalse))

/-- Two outcomes of one delivery are the same. -/
theorem Drains.outcome_unique (h : c.Drains deserialises) {d : Delivery} {h₁ h₂ : Handled}
    (hd₁ : (d, h₁) ∈ c.outcomes) (hd₂ : (d, h₂) ∈ c.outcomes) : h₁ = h₂ := by
  have hsub : (c.outcomes.map Prod.fst).Subperm c.accepted := by
    have hheld : (c.tasks.filterMap decided).Subperm (c.tasks.filterMap held) :=
      (List.sublist_append_right _ _).subperm.trans (held_subperm c.tasks)
    exact h.custody.outcomes.subperm.trans (((List.subperm_append_right _).2 hheld).trans
      ((List.sublist_append_right c.buffer _).subperm.trans h.custody.accepted.symm.subperm))
  have htags := nodup_of_subperm hsub (h.flow.tags.sublist (h.flow.accepted.map _))
  have hnodup : (c.outcomes.map Prod.fst).Nodup := List.Nodup.of_map _ htags
  exact congrArg Prod.snd (List.inj_on_of_nodup_map hnodup hd₁ hd₂ rfl)

/-- A delivery is acked exactly if it could be deserialised and its callback returned. -/
theorem Drains.ack_iff (h : c.Drains deserialises) {e : Delivery × Settlement}
    (he : e ∈ c.settlements) :
    e.2 = .ack ↔ deserialises e.1.body = true ∧ (e.1, Handled.succeeded) ∈ c.outcomes := by
  obtain ⟨hd, hmem, hset⟩ := h.records.settled e he
  rw [hset]
  constructor
  · intro hack
    cases hd with
    | succeeded =>
      refine ⟨?_, hmem⟩
      by_contra hfalse
      have hun := (h.records.outcomes _ hmem).2 (by simpa using hfalse)
      cases hun
    | undecodable | failed => cases hack
  · rintro ⟨-, hsucceeded⟩
    rw [h.outcome_unique hmem hsucceeded]
    rfl

/-- What is settled is acked, or nacked without being queued again. -/
theorem Drains.ack_or_nack (h : c.Drains deserialises) {e : Delivery × Settlement}
    (he : e ∈ c.settlements) : e.2 = .ack ∨ e.2 = .nack false := by
  obtain ⟨hd, -, hset⟩ := h.records.settled e he
  rw [hset]
  cases hd with
  | succeeded => exact .inl rfl
  | undecodable | failed => exact .inr rfl

/-- A task that holds a delivery, or is ready, can go on. -/
theorem exists_taskStep {i : ℕ} {t : ConsumeTask} (hi : c.tasks[i]? = some t)
    (ht : t = .ready ∨ ∃ d, held t = some d) :
    ∃ a c', c.step deserialises (.task i a) = some c' := by
  have hstep : ∀ a, c.step deserialises (.task i a) = c.taskStep deserialises i t a := by
    intro a
    simp only [step, hi, Option.bind_some]
  cases t with
  | ready => exact ⟨.receive, _, hstep _⟩
  | received d => exact ⟨.deserialise, _, hstep _⟩
  | handling d => exact ⟨.finish true, _, hstep _⟩
  | settling d h => exact ⟨.settle, _, hstep _⟩
  | parked | ending | done =>
    rcases ht with ht | ⟨d, hd⟩
    · cases ht
    · cases hd

/-- As long as an accepted delivery is not settled, a task can go on. -/
theorem Drains.progress (h : c.Drains deserialises) {d : Delivery} (hd : d ∈ c.accepted)
    (hnot : d ∉ c.settlements.map Prod.fst) :
    ∃ i a c', c.step deserialises (.task i a) = some c' := by
  rcases List.mem_append.1 (h.custody.accepted.mem_iff.1 hd) with hbuffer | hrest
  · -- With something in the buffer, no task waits or ends.
    have hne : c.buffer ≠ [] := List.ne_nil_of_mem hbuffer
    obtain ⟨t, ht⟩ := List.exists_mem_of_ne_nil _ h.flow.started
    obtain ⟨i, hi⟩ := List.mem_iff_getElem?.1 ht
    refine ⟨i, exists_taskStep hi ?_⟩
    cases t with
    | ready => exact .inl rfl
    | parked => exact absurd (h.flow.parked ht).1 hne
    | ending => exact absurd (h.flow.finished _ ht (.inl rfl)) hne
    | done => exact absurd (h.flow.finished _ ht (.inr rfl)) hne
    | received d | handling d | settling d => exact .inr ⟨_, rfl⟩
  · rcases List.mem_append.1 hrest with hheld | hsettled
    · obtain ⟨t, ht, hheld⟩ := List.mem_filterMap.1 hheld
      obtain ⟨i, hi⟩ := List.mem_iff_getElem?.1 ht
      exact ⟨i, exists_taskStep hi (.inr ⟨d, hheld⟩)⟩
    · exact absurd hsettled hnot

/-- How many steps the tasks can take, if nothing more is delivered. -/
def weight (c : Consumer) : ℕ := 4 * c.buffer.length + total work c.tasks

/-- What is left to do, when one task changes. -/
theorem weight_lt_of_set {i : ℕ} {t u : ConsumeTask} (hi : c.tasks[i]? = some t)
    (htasks : c'.tasks = c.tasks.set i u)
    (hwork : 4 * c'.buffer.length + work u < 4 * c.buffer.length + work t) :
    c'.weight < c.weight := by
  have hset := total_set work hi u
  unfold weight
  rw [htasks]
  omega

/-- A step of a task lessens what is left to do. -/
theorem Drains.weight_lt (h : c.Drains deserialises) {i : ℕ} {a : TaskAction}
    (hstep : c.step deserialises (.task i a) = some c') : c'.weight < c.weight := by
  obtain ⟨t, hi, ht⟩ := Option.bind_eq_some_iff.1 hstep
  unfold Consumer.taskStep at ht
  split at ht
  · rw [← Option.some.inj ht]
    unfold Consumer.receive
    rw [h.flow.senders, List.take_nil, List.append_nil]
    split
    · -- What is taken weighs `4` in the buffer, and `5 - 2 = 3` more with the task.
      rename_i d rest hbuffer
      refine weight_lt_of_set hi rfl ?_
      rw [hbuffer, List.length_cons]
      simp only [work]
      omega
    · split_ifs
      · exact weight_lt_of_set hi rfl (by simp [setTask, work])
      · exact weight_lt_of_set hi rfl (by simp [setTask, work])
  · rw [← Option.some.inj ht]
    unfold Consumer.deserialise
    split_ifs
    · exact weight_lt_of_set hi rfl (by simp [setTask, work])
    · exact weight_lt_of_set hi rfl (by simp [setTask, work])
  · rw [← Option.some.inj ht]
    exact weight_lt_of_set hi rfl (by simp [Consumer.finish, setTask, work])
  · rw [← Option.some.inj ht]
    exact weight_lt_of_set hi rfl (by simp [Consumer.settle, setTask, work])
  · rw [← Option.some.inj ht]
    exact weight_lt_of_set hi rfl (by simp [Consumer.stop, setTask, work])
  · cases ht

/-- The tasks come to rest. -/
theorem Drains.length_le_weight (h : c.Drains deserialises) {as : List (ℕ × TaskAction)}
    (hrun : run (Consumer.step deserialises) c (as.map fun a => .task a.1 a.2) = some c') :
    as.length ≤ c.weight := by
  have hlt : ∀ s a s', Drains deserialises s → (∃ i b, a = ConsumerAction.task i b) →
      Consumer.step deserialises s a = some s' → Drains deserialises s' ∧ s'.weight < s.weight := by
    rintro s a s' hs ⟨i, b, rfl⟩ hstep
    exact ⟨hs.step hstep, hs.weight_lt hstep⟩
  have hle := run_length_le (Consumer.step deserialises) hlt h ?_ hrun
  · rw [List.length_map] at hle
    omega
  · intro a ha
    obtain ⟨b, -, rfl⟩ := List.mem_map.1 ha
    exact ⟨b.1, b.2, rfl⟩

/-- Once `_closed` is set, every accepted delivery is settled. -/
theorem Drains.settled_of_closed (h : c.Drains deserialises) (hclosed : c.closed = true) :
    ∀ d ∈ c.accepted, d ∈ c.settlements.map Prod.fst := by
  intro d hd
  have hactive : c.active_consumers = 0 := (h.sound.closed hclosed).2
  have hdone : ∀ t ∈ c.tasks, t = .done := active_eq_zero.1 (h.sound.active.symm.trans hactive)
  have hbuffer : c.buffer = [] := by
    obtain ⟨t, ht⟩ := List.exists_mem_of_ne_nil _ h.flow.started
    exact h.flow.finished t ht (.inr (hdone t ht))
  have hheld : c.tasks.filterMap held = [] := by
    rw [List.filterMap_eq_nil_iff]
    intro t ht
    rw [hdone t ht]
    rfl
  have hall := h.custody.accepted
  rw [hbuffer, hheld, List.nil_append, List.nil_append] at hall
  exact hall.mem_iff.1 hd

/-- How a consumer treats its deliveries. -/
structure Orderly (deserialises : Bytes → Bool) (c : Consumer) : Prop where
  /-- No accepted delivery is passed to the callback twice, and no other is passed to it. -/
  callback_once : (c.callbacks.map Delivery.delivery_tag).Nodup
  callback_accepted : ∀ d ∈ c.callbacks, d ∈ c.accepted ∧ deserialises d.body = true
  /-- No accepted delivery is settled twice, and no other is settled. -/
  settled_once : (c.settlements.map fun e => e.1.delivery_tag).Nodup
  settled_accepted : ∀ e ∈ c.settlements, e.1 ∈ c.accepted
  /-- The callback was over by then; it had returned exactly if the delivery is acked. -/
  settlement : ∀ e ∈ c.settlements, (e.2 = .ack ∨ e.2 = .nack false) ∧
    (e.2 = .ack ↔ deserialises e.1.body = true ∧ (e.1, Handled.succeeded) ∈ c.outcomes)
  /-- No `queue_message` waits. -/
  unblocked : c.senders = []
  /-- As long as an accepted delivery is not settled, a task can go on. -/
  progress : ∀ d ∈ c.accepted, d ∉ c.settlements.map Prod.fst →
    ∃ i a c', c.step deserialises (.task i a) = some c'
  /-- The tasks do not go on for ever without a delivery. -/
  bounded : ∀ (as : List (ℕ × TaskAction)) (c' : Consumer),
    run (step deserialises) c (as.map fun a => .task a.1 a.2) = some c' → as.length ≤ c.weight

/-- The invariants of a consumer make it orderly. -/
theorem Drains.orderly (h : c.Drains deserialises) : c.Orderly deserialises := by
  have htags := h.flow.tags.sublist (h.flow.accepted.map _)
  constructor
  · exact nodup_of_subperm h.custody.callbacks htags
  · exact fun d hd => ⟨h.custody.callbacks.subset hd, h.deserialises_of_callback hd⟩
  · have hnodup := nodup_of_subperm h.custody.settlements htags
    rwa [List.map_map] at hnodup
  · exact fun e he => h.custody.settlements.subset (List.mem_map_of_mem he)
  · exact fun e he => ⟨h.ack_or_nack he, h.ack_iff he⟩
  · exact h.flow.senders
  · exact fun d hd hnot => h.progress hd hnot
  · exact fun as c' hrun => h.length_le_weight hrun

end Consumer

/-! ## The collection -/

namespace ConnectorCollection

variable {deserialises : Bytes → Bool}

/-- The invariant of a collection whose consumers have started. -/
structure Drains (deserialises : Bytes → Bool) (s : ConnectorCollection) : Prop where
  consumers : ∀ c ∈ s.consumers, c.Drains deserialises
  /-- The publishers are closed after every `aclose` of a consumer. -/
  returned : s.phase = .publishers → ∀ c ∈ s.consumers, 0 < c.returned
  publishers : s.phase ≠ .publishers → ∀ p ∈ s.publishers, p.closed = false

/-- Every action of a collection keeps the invariant. -/
theorem Drains.step {s s' : ConnectorCollection} {a : CollectionAction} (h : s.Drains deserialises)
    (hstep : s.step deserialises a = some s') : s'.Drains deserialises := by
  cases a with
  | consumer i b =>
    obtain ⟨c, hi, hc⟩ := Option.bind_eq_some_iff.1 hstep
    obtain ⟨c', hc', rfl⟩ := Option.map_eq_some_iff.1 hc
    have hdrains : c.Drains deserialises := h.consumers c (List.mem_of_getElem? hi)
    refine ⟨forall_mem_set h.consumers (hdrains.step hc'), fun hphase => ?_, h.publishers⟩
    have hreturned := h.returned hphase
    -- The other consumers have not moved, and this one has returned no fewer tasks.
    refine forall_mem_set hreturned (Nat.lt_of_lt_of_le (hreturned c (List.mem_of_getElem? hi)) ?_)
    exact (hdrains.moves_of_step hc').returned_le
  | aclose =>
    rw [← Option.some.inj hstep]
    -- With no consumer the phase is over at once; the publishers were not closed yet.
    split_ifs with hidle
    · refine ⟨h.consumers, fun hphase => ?_, fun _ => h.publishers ?_⟩
      · cases hphase
      · rw [hidle]
        simp
    · exact h
  | consumersClosed =>
    simp only [ConnectorCollection.step] at hstep
    split_ifs at hstep with hguard
    rw [← Option.some.inj hstep]
    exact ⟨h.consumers, fun _ => hguard.2, fun hphase => absurd rfl hphase⟩
  | closePublisher i =>
    simp only [ConnectorCollection.step] at hstep
    split_ifs at hstep with hphase
    rw [← Option.some.inj hstep]
    exact ⟨h.consumers, h.returned, fun hnot => absurd hphase hnot⟩

/-- A collection of one consumer, which has got a delivery before `start` returned, and one
publisher. -/
def startedCollection : ConnectorCollection :=
  ⟨[Consumer.started 1 [⟨7, []⟩]], [⟨false⟩], .idle⟩

/-- The collection is closed while the callback runs. -/
def closingRun : List CollectionAction :=
  [.consumer 0 (.task 0 .receive), .consumer 0 (.task 0 .deserialise), .aclose,
    .consumer 0 .aclose, .consumer 0 (.task 0 (.finish true)), .consumer 0 (.task 0 .settle),
    .consumer 0 (.task 0 .receive), .consumer 0 (.task 0 .stop), .consumer 0 .wake,
    .consumersClosed, .closePublisher 0]

/-- The consumer after it. -/
def closedConsumer : Consumer :=
  { Consumer.started 1 [⟨7, []⟩] with
    active_consumers := 0
    closing := true
    closed := true
    buffer := []
    tasks := [.done]
    channels := 0
    returned := 1
    callbacks := [⟨7, []⟩]
    outcomes := [(⟨7, []⟩, .succeeded)]
    settlements := [(⟨7, []⟩, .ack)] }

end ConnectorCollection

end Vumi2
