import Vumi2.Connectors
import Vumi2.Lib.Slots

/-!
# Closing a worker

`_closed` is set by the last task that runs `consume_messages`, and `aclose` waits for it. So an
`aclose` is stuck (`Stuck`) if there is no such task and none will be created.

`Sound` is what keeps a consumer from it: a consumer that is closing has a pending `start` or has
its tasks, a pending `start` finds `receive_channel` open, and `_active_consumers` counts the tasks
that have not returned. It is kept by every action (`Sound.step`), as long as `aclose` is not called
before `start`, and `start` not while an earlier one awaits the broker (`Careful`). Neither is true
of a worker whose `setup` raises before `start_consuming` (`setup_raises_stuck`).
-/

namespace Vumi2

open Text Machine Slots

namespace ConsumeTask

/-- One for a task that has not returned. -/
def alive : ConsumeTask → ℕ
  | done => 0
  | _ => 1

/-- A task that is not alive is done. -/
theorem alive_eq_zero {t : ConsumeTask} : t.alive = 0 ↔ t = done := by
  cases t <;> simp [alive]

/-- A task is alive as long as it is not done. -/
theorem alive_eq_one {t : ConsumeTask} : t.alive = 1 ↔ t ≠ done := by
  cases t <;> simp [alive]

end ConsumeTask

namespace Consumer

/-- A pending `start` will create a task. -/
def CanCreate (c : Consumer) : Prop :=
  c.starts ≠ [] ∧ c.receive_closed = false ∧ 0 < c.concurrency

/-- An `aclose` waits on `_closed`, there is no task, and no pending `start` can create one. -/
def Stuck (c : Consumer) : Prop :=
  0 < c.waiting ∧ c.closed = false ∧ (∀ t ∈ c.tasks, t = .done) ∧ ¬ c.CanCreate

instance (c : Consumer) : Decidable c.Stuck := by
  unfold Stuck CanCreate
  infer_instance

/-- What keeps a consumer from being stuck. -/
structure Sound (c : Consumer) : Prop where
  pos : 0 < c.concurrency
  /-- `_active_consumers` counts the tasks that have not returned. -/
  active : c.active_consumers = total ConsumeTask.alive c.tasks
  /-- Only one `start` is pending, and only before there are tasks. -/
  pending : c.starts ≠ [] → c.tasks = [] ∧ c.starts.length = 1
  /-- Without tasks, they can still be created. -/
  fresh : c.tasks = [] → c.receive_closed = false
  /-- A consumer that is closing was started. -/
  begun : c.closing = true → c.starts ≠ [] ∨ c.tasks ≠ []
  /-- A consumer that is not closing has all its tasks, once it has any. -/
  full : c.closing = false → c.tasks ≠ [] →
    c.tasks.length = c.concurrency ∧ ∀ t ∈ c.tasks, t ≠ .ending ∧ t ≠ .done
  /-- Only an `aclose` waits. -/
  waiting : 0 < c.waiting → c.closing = true
  /-- The last task sets `_closed`. -/
  ended : c.tasks ≠ [] → c.active_consumers = 0 → c.closed = true
  /-- And no other does. -/
  closed : c.closed = true → c.tasks ≠ [] ∧ c.active_consumers = 0

/-- No task is active exactly if all are done. -/
theorem active_eq_zero {ts : List ConsumeTask} :
    total ConsumeTask.alive ts = 0 ↔ ∀ t ∈ ts, t = .done := by
  induction ts with
  | nil => simp
  | cons t ts ih =>
    rw [total_cons, Nat.add_eq_zero_iff, ih, ConsumeTask.alive_eq_zero,
      List.forall_mem_cons]

/-- When no task has returned, all count. -/
theorem total_alive_of_ne_done {ts : List ConsumeTask} (h : ∀ t ∈ ts, t ≠ .done) :
    total ConsumeTask.alive ts = ts.length := by
  induction ts with
  | nil => rfl
  | cons t ts ih =>
    obtain ⟨ht, hts⟩ := List.forall_mem_cons.1 h
    rw [total_cons, ih hts, ConsumeTask.alive_eq_one.2 ht, List.length_cons,
      Nat.add_comm]

/-- A new consumer has no tasks and is not closing. -/
theorem sound_new {concurrency : ℕ} (h : 0 < concurrency) : (new concurrency).Sound where
  pos := h
  active := rfl
  pending := fun h => absurd rfl h
  fresh := fun _ => rfl
  begun := fun h => by cases h
  full := fun _ h => absurd rfl h
  waiting := fun h => absurd h (Nat.lt_irrefl 0)
  ended := fun h => absurd rfl h
  closed := fun h => by cases h

/-- A sound consumer is not stuck. -/
theorem Sound.not_stuck {c : Consumer} (h : c.Sound) : ¬ c.Stuck := by
  rintro ⟨hwait, hclosed, hdone, hcreate⟩
  have hclosing := h.waiting hwait
  by_cases htasks : c.tasks = []
  · -- There is a pending `start`, and it can create the tasks.
    have hstarts : c.starts ≠ [] := by
      rcases h.begun hclosing with hs | ht
      · exact hs
      · exact absurd htasks ht
    exact hcreate ⟨hstarts, h.fresh htasks, h.pos⟩
  · -- The last task has set `_closed`.
    have hactive : c.active_consumers = 0 := h.active.trans (active_eq_zero.2 hdone)
    have hset := h.ended htasks hactive
    rw [hclosed] at hset
    cases hset

/-! ## What the actions keep -/

/-- Two consumers with the same fields, apart from the tasks and what goes through the memory
channel. -/
structure SameControl (c c' : Consumer) : Prop where
  concurrency : c'.concurrency = c.concurrency
  active_consumers : c'.active_consumers = c.active_consumers
  closing : c'.closing = c.closing
  closed : c'.closed = c.closed
  receive_closed : c'.receive_closed = c.receive_closed
  starts : c'.starts = c.starts
  waiting : c'.waiting = c.waiting

/-- The tasks count only by how many there are and which have returned. -/
theorem Sound.congr {c c' : Consumer} (h : c.Sound) (hsame : SameControl c c')
    (hlen : c'.tasks.length = c.tasks.length)
    (htotal : total ConsumeTask.alive c'.tasks = total ConsumeTask.alive c.tasks)
    (hkeep : c.closing = false → c.tasks ≠ [] → ∀ t ∈ c'.tasks, t ≠ .ending ∧ t ≠ .done) :
    c'.Sound := by
  -- No part of the invariant looks at a task, except for how many live and whether they go on.
  have hnil : c'.tasks = [] ↔ c.tasks = [] := by
    rw [← List.length_eq_zero_iff, hlen, List.length_eq_zero_iff]
  constructor
  · rw [hsame.concurrency]
    exact h.pos
  · rw [hsame.active_consumers, htotal]
    exact h.active
  · rw [hsame.starts, hnil]
    exact h.pending
  · rw [hsame.receive_closed, hnil]
    exact h.fresh
  · rw [hsame.closing, hsame.starts, ne_eq, ne_eq, hnil]
    exact h.begun
  · rw [hsame.closing, hsame.concurrency, hlen, ne_eq, hnil]
    exact fun hopen htasks => ⟨(h.full hopen htasks).1, hkeep hopen htasks⟩
  · rw [hsame.waiting, hsame.closing]
    exact h.waiting
  · rw [hsame.active_consumers, hsame.closed, ne_eq, hnil]
    exact h.ended
  · rw [hsame.active_consumers, hsame.closed, ne_eq, hnil]
    exact h.closed

/-- A task that neither had returned nor returns, and gets the end of the channel only when the
consumer is closing. -/
theorem Sound.changeTask {c c' : Consumer} (h : c.Sound) (hsame : SameControl c c') {i : ℕ}
    {t t' : ConsumeTask} (hi : c.tasks[i]? = some t) (htasks : c'.tasks = c.tasks.set i t')
    (ht : t ≠ .done) (ht' : t' ≠ .done) (hending : t' = .ending → c.closing = true) :
    c'.Sound := by
  refine h.congr hsame (by rw [htasks, List.length_set]) ?_ ?_
  · have hset := total_set ConsumeTask.alive hi t'
    rw [ConsumeTask.alive_eq_one.2 ht, ConsumeTask.alive_eq_one.2 ht'] at hset
    rw [htasks]
    omega
  · intro hopen hne
    rw [htasks]
    refine forall_mem_set (h.full hopen hne).2 ⟨fun heq => ?_, ht'⟩
    have hclosing := hending heq
    rw [hopen] at hclosing
    cases hclosing

/-- A careful `start` keeps a consumer sound. -/
theorem Sound.start {c : Consumer} (h : c.Sound) (hcare : c.closing = true ∨ c.starts = []) :
    c.start.Sound := by
  unfold Consumer.start
  split_ifs with hguard
  · exact h
  · obtain ⟨hactive, hopen⟩ := not_or.1 hguard
    have hopen' : c.closing = false := by simpa using hopen
    have hstarts : c.starts = [] := by
      rcases hcare with hclosing | hstarts
      · exact absurd hclosing hopen
      · exact hstarts
    -- With its tasks, the consumer would have been stopped by the guard.
    have htasks : c.tasks = [] := by
      by_contra hne
      obtain ⟨hlen, hall⟩ := h.full hopen' hne
      have hcount : c.active_consumers = c.concurrency := by
        rw [h.active, total_alive_of_ne_done fun t ht => (hall t ht).2, hlen]
      exact hactive hcount
    constructor
    · exact h.pos
    · exact h.active
    · intro _
      exact ⟨htasks, by rw [hstarts]; rfl⟩
    · exact h.fresh
    · intro hclosing
      exact absurd hclosing hopen
    · exact h.full
    · exact h.waiting
    · exact h.ended
    · exact h.closed

/-- The broker's answer keeps a consumer sound. -/
theorem Sound.answer {c c' : Consumer} (h : c.Sound) {call : ℕ} (hstep : c.answer call = some c') :
    c'.Sound := by
  unfold Consumer.answer at hstep
  split at hstep
  · rename_i n hn
    have hne : c.starts ≠ [] := by
      intro hnil
      rw [hnil] at hn
      cases hn
    obtain ⟨htasks, hlen⟩ := h.pending hne
    have hsound : ∀ channels,
        ({ c with starts := c.starts.set call (n + 1), channels := channels }).Sound := by
      intro channels
      have hset : (c.starts.set call (n + 1)).length = 1 := by rw [List.length_set, hlen]
      have hne' : c.starts.set call (n + 1) ≠ [] := List.ne_nil_of_length_pos (by omega)
      -- The call that is answered stays the only one.
      constructor
      · exact h.pos
      · exact h.active
      · exact fun _ => ⟨htasks, hset⟩
      · exact h.fresh
      · exact fun _ => .inl hne'
      · exact h.full
      · exact h.waiting
      · exact h.ended
      · exact h.closed
    split_ifs at hstep
    · rw [← Option.some.inj hstep]
      exact hsound c.channels
    · rw [← Option.some.inj hstep]
      exact hsound (c.channels + 1)
  · cases hstep

/-- A consumer all of whose tasks are ready is sound. -/
theorem sound_of_ready {c : Consumer} (hpos : 0 < c.concurrency)
    (hactive : c.active_consumers = c.concurrency)
    (htasks : c.tasks = List.replicate c.concurrency .ready) (hstarts : c.starts = [])
    (hwaiting : 0 < c.waiting → c.closing = true) (hclosed : c.closed = false) : c.Sound := by
  have hlen : c.tasks.length = c.concurrency := by rw [htasks, List.length_replicate]
  have hne : c.tasks ≠ [] := List.ne_nil_of_length_pos (by omega)
  have hlive : ∀ t ∈ c.tasks, t ≠ .ending ∧ t ≠ .done := by
    intro t ht
    rw [htasks] at ht
    rw [List.eq_of_mem_replicate ht]
    exact ⟨fun h => (by cases h), fun h => (by cases h)⟩
  -- The parts about a pending `start` and about the end hold because neither is there.
  constructor
  · exact hpos
  · rw [hactive, total_alive_of_ne_done fun t ht => (hlive t ht).2, hlen]
  · exact fun hs => absurd hstarts hs
  · exact fun ht => absurd ht hne
  · exact fun _ => .inr hne
  · exact fun _ _ => ⟨hlen, hlive⟩
  · exact hwaiting
  · intro _ hzero
    omega
  · intro hset
    rw [hclosed] at hset
    cases hset

/-- A call that goes on keeps a consumer sound. -/
theorem Sound.resume {c c' : Consumer} (h : c.Sound) {call : ℕ} (hstep : c.resume call = some c') :
    c'.Sound := by
  unfold Consumer.resume at hstep
  split at hstep
  · rename_i n hn
    split_ifs at hstep
    obtain ⟨hcall, -⟩ := List.getElem?_eq_some_iff.1 hn
    have hne : c.starts ≠ [] := List.ne_nil_of_length_pos (by omega)
    -- The only pending `start` creates the only tasks.
    obtain ⟨htasks, hlen⟩ := h.pending hne
    have hfresh := h.fresh htasks
    have hactive : c.active_consumers = 0 := by
      rw [h.active, htasks]
      rfl
    have hnotclosed : c.closed = false := by
      by_contra hclosed
      exact (h.closed (by simpa using hclosed)).1 htasks
    have herase : c.starts.eraseIdx call = [] := by
      rw [← List.length_eq_zero_iff, List.length_eraseIdx_of_lt hcall, hlen]
    have hc' : c' = { c with
        starts := []
        active_consumers := c.concurrency
        tasks := List.replicate c.concurrency .ready
        receive_closed := true } := by
      rw [← Option.some.inj hstep]
      unfold createTasks
      simp only [hfresh, herase, htasks, hactive, List.nil_append, Nat.zero_add,
        Bool.false_eq_true, if_false]
    rw [hc']
    exact sound_of_ready h.pos rfl rfl rfl h.waiting hnotclosed
  · cases hstep

/-- A task that is told to end is alive until it does. -/
theorem alive_endParked (t : ConsumeTask) : (endParked t).alive = t.alive := by
  cases t <;> rfl

/-- A careful `aclose` keeps a consumer sound. -/
theorem Sound.aclose {c : Consumer} (h : c.Sound) (hcare : c.starts ≠ [] ∨ c.tasks ≠ []) :
    c.aclose.Sound := by
  unfold Consumer.aclose
  split_ifs with hclosing
  · exact ⟨h.pos, h.active, h.pending, h.fresh, h.begun, h.full, fun _ => hclosing, h.ended,
      h.closed⟩
  · have hnil : c.tasks.map endParked = [] ↔ c.tasks = [] := List.map_eq_nil_iff
    have htotal : total ConsumeTask.alive (c.tasks.map endParked) =
        total ConsumeTask.alive c.tasks := total_map _ _ alive_endParked _
    -- The tasks that wait end, but count as alive until they stop.
    constructor
    · exact h.pos
    · exact h.active.trans htotal.symm
    · exact fun hs => ⟨hnil.2 (h.pending hs).1, (h.pending hs).2⟩
    · exact fun ht => h.fresh (hnil.1 ht)
    · exact fun _ => hcare.imp_right fun ht hmap => ht (hnil.1 hmap)
    · intro hopen
      cases hopen
    · exact fun _ => rfl
    · exact fun ht => h.ended fun hmap => ht (hnil.2 hmap)
    · exact fun hclosed => ⟨fun hmap => (h.closed hclosed).1 (hnil.1 hmap), (h.closed hclosed).2⟩

/-- The end of the wait in `aclose` keeps a consumer sound. -/
theorem Sound.wake {c c' : Consumer} (h : c.Sound) (hstep : c.wake = some c') : c'.Sound := by
  unfold Consumer.wake at hstep
  split_ifs at hstep with hguard
  rw [← Option.some.inj hstep]
  exact ⟨h.pos, h.active, h.pending, h.fresh, h.begun, h.full, fun _ => h.waiting hguard.2, h.ended,
    h.closed⟩

/-- A delivery keeps a consumer sound. -/
theorem Sound.queueMessage {c c' : Consumer} (h : c.Sound) {d : Delivery} {task : Option ℕ}
    (hstep : c.queueMessage d task = some c') : c'.Sound := by
  unfold Consumer.queueMessage at hstep
  split_ifs at hstep with hmay hclosing
  · rw [← Option.some.inj hstep]
    exact h.congr ⟨rfl, rfl, rfl, rfl, rfl, rfl, rfl⟩ rfl rfl fun ho ht => (h.full ho ht).2
  · unfold send at hstep
    cases task with
    | some i =>
      dsimp only at hstep
      split_ifs at hstep with hi
      rw [← Option.some.inj hstep]
      exact h.changeTask ⟨rfl, rfl, rfl, rfl, rfl, rfl, rfl⟩ hi rfl (fun h => by cases h)
        (fun h => by cases h) (fun h => by cases h)
    | none =>
      dsimp only at hstep
      split_ifs at hstep
      · rw [← Option.some.inj hstep]
        exact h.congr ⟨rfl, rfl, rfl, rfl, rfl, rfl, rfl⟩ rfl rfl fun ho ht => (h.full ho ht).2
      · rw [← Option.some.inj hstep]
        exact h.congr ⟨rfl, rfl, rfl, rfl, rfl, rfl, rfl⟩ rfl rfl fun ho ht => (h.full ho ht).2

/-- The end of a task keeps a consumer sound. -/
theorem Sound.stop {c : Consumer} (h : c.Sound) {i : ℕ} (hi : c.tasks[i]? = some .ending) :
    (c.stop i).Sound := by
  have hset := total_set ConsumeTask.alive hi .done
  rw [ConsumeTask.alive_eq_one.2 (fun h => by cases h), ConsumeTask.alive_eq_zero.2 rfl,
    ← h.active] at hset
  have hmem : ConsumeTask.ending ∈ c.tasks := List.mem_of_getElem? hi
  have hne : c.tasks ≠ [] := List.ne_nil_of_mem hmem
  have hne' : c.tasks.set i .done ≠ [] := by
    rw [← List.length_pos_iff_ne_nil, List.length_set, List.length_pos_iff_ne_nil]
    exact hne
  -- A task ends only when the consumer is closing.
  have hclosing : c.closing = true := by
    by_contra hopen
    exact ((h.full (by simpa using hopen) hne).2 _ hmem).1 rfl
  have hstarts : c.starts = [] := by
    by_contra hs
    exact hne (h.pending hs).1
  constructor
  · exact h.pos
  · show c.active_consumers - 1 = total ConsumeTask.alive (c.tasks.set i .done)
    omega
  · exact fun hs => absurd hstarts hs
  · exact fun ht => absurd ht hne'
  · exact fun _ => .inr hne'
  · intro hopen
    rw [show (c.stop i).closing = c.closing from rfl, hclosing] at hopen
    cases hopen
  · exact fun _ => hclosing
  · intro _ hzero
    have hzero' : c.active_consumers - 1 = 0 := hzero
    show (c.closed || decide (c.active_consumers - 1 = 0)) = true
    rw [decide_eq_true hzero', Bool.or_true]
  · intro hclosed
    refine ⟨hne', ?_⟩
    show c.active_consumers - 1 = 0
    have hor : c.closed = true ∨ decide (c.active_consumers - 1 = 0) = true :=
      Bool.or_eq_true_iff.1 hclosed
    rcases hor with hclosed | hzero
    · -- `_closed` was set already, and then no task is left to stop.
      have hzero := (h.closed hclosed).2
      omega
    · exact of_decide_eq_true hzero

/-- A task that waits for the next message keeps a consumer sound. -/
theorem Sound.receive {c : Consumer} (h : c.Sound) {i : ℕ} (hi : c.tasks[i]? = some .ready) :
    (c.receive i).Sound := by
  unfold Consumer.receive
  split
  · exact h.changeTask ⟨rfl, rfl, rfl, rfl, rfl, rfl, rfl⟩ hi rfl (fun h => by cases h)
      (fun h => by cases h) (fun h => by cases h)
  · refine h.changeTask ⟨rfl, rfl, rfl, rfl, rfl, rfl, rfl⟩ hi rfl (fun h => by cases h) ?_ ?_
    · split_ifs
      · exact fun h => by cases h
      · exact fun h => by cases h
    · split_ifs with hclosing
      · exact fun _ => hclosing
      · exact fun h => by cases h

/-- Whatever a task does keeps a consumer sound. -/
theorem Sound.taskStep {deserialises : Bytes → Bool} {c c' : Consumer} (h : c.Sound) {i : ℕ}
    {t : ConsumeTask} (hi : c.tasks[i]? = some t) {a : TaskAction}
    (hstep : c.taskStep deserialises i t a = some c') : c'.Sound := by
  unfold Consumer.taskStep at hstep
  split at hstep
  -- `receive` and `stop` change the counters; what is between them changes only the task.
  · rw [← Option.some.inj hstep]
    exact h.receive hi
  · rw [← Option.some.inj hstep]
    unfold Consumer.deserialise
    split_ifs
    · exact h.changeTask ⟨rfl, rfl, rfl, rfl, rfl, rfl, rfl⟩ hi rfl (fun h => by cases h)
        (fun h => by cases h) (fun h => by cases h)
    · exact h.changeTask ⟨rfl, rfl, rfl, rfl, rfl, rfl, rfl⟩ hi rfl (fun h => by cases h)
        (fun h => by cases h) (fun h => by cases h)
  · rw [← Option.some.inj hstep]
    exact h.changeTask ⟨rfl, rfl, rfl, rfl, rfl, rfl, rfl⟩ hi rfl (fun h => by cases h)
      (fun h => by cases h) (fun h => by cases h)
  · rw [← Option.some.inj hstep]
    exact h.changeTask ⟨rfl, rfl, rfl, rfl, rfl, rfl, rfl⟩ hi rfl (fun h => by cases h)
      (fun h => by cases h) (fun h => by cases h)
  · rw [← Option.some.inj hstep]
    exact h.stop hi
  · cases hstep

/-- `start` is not called while an earlier one awaits the broker, unless the consumer is closing,
and `aclose` not before a `start` has passed its guard. -/
def Careful (c : Consumer) : ConsumerAction → Prop
  | .start => c.closing = true ∨ c.starts = []
  | .aclose => c.starts ≠ [] ∨ c.tasks ≠ []
  | _ => True

/-- Every careful action keeps a consumer sound. -/
theorem Sound.step {deserialises : Bytes → Bool} {c c' : Consumer} {a : ConsumerAction}
    (h : c.Sound) (hcare : c.Careful a) (hstep : c.step deserialises a = some c') : c'.Sound := by
  cases a with
  | start =>
    rw [← Option.some.inj hstep]
    exact h.start hcare
  | answer call => exact h.answer hstep
  | resume call => exact h.resume hstep
  | aclose =>
    rw [← Option.some.inj hstep]
    exact h.aclose hcare
  | wake => exact h.wake hstep
  | deliver d task => exact h.queueMessage hstep
  | task i a =>
    obtain ⟨t, hi, ht⟩ := Option.bind_eq_some_iff.1 hstep
    exact h.taskStep hi ht

end Consumer

/-! ## Runs of a worker -/

namespace ConnectorCollection

/-- What an action of a collection does to its consumers: one of them takes a step, or none. -/
theorem step_consumers {deserialises : Bytes → Bool} {s s' : ConnectorCollection}
    {a : CollectionAction} (h : s.step deserialises a = some s') :
    (∃ i b c c', a = .consumer i b ∧ s.consumers[i]? = some c ∧
        c.step deserialises b = some c' ∧ s'.consumers = s.consumers.set i c' ∧
        s'.publishers = s.publishers ∧ s'.phase = s.phase) ∨
      (∀ i b, a ≠ .consumer i b) ∧ s'.consumers = s.consumers := by
  cases a with
  | consumer i b =>
    obtain ⟨c, hi, hc⟩ := Option.bind_eq_some_iff.1 h
    obtain ⟨c', hstep, rfl⟩ := Option.map_eq_some_iff.1 hc
    exact .inl ⟨i, b, c, c', rfl, hi, hstep, rfl, rfl, rfl⟩
  | aclose =>
    -- The other actions act on the collection, not on a consumer.
    refine .inr ⟨fun _ _ h => (by cases h), ?_⟩
    rw [← Option.some.inj h]
    split_ifs
    · rfl
    · rfl
  | consumersClosed =>
    refine .inr ⟨fun _ _ h => (by cases h), ?_⟩
    simp only [step] at h
    split_ifs at h
    rw [← Option.some.inj h]
  | closePublisher i =>
    refine .inr ⟨fun _ _ h => (by cases h), ?_⟩
    simp only [step] at h
    split_ifs at h
    rw [← Option.some.inj h]

/-- The actions of consumers are careful. -/
def Careful (s : ConnectorCollection) (a : CollectionAction) : Prop :=
  ∀ i b c, a = .consumer i b → s.consumers[i]? = some c → c.Careful b

/-- A careful action keeps all consumers of a worker's connectors sound. -/
theorem sound_step {deserialises : Bytes → Bool} {s s' : ConnectorCollection}
    {a : CollectionAction} (h : ∀ c ∈ s.consumers, c.Sound) (hcare : s.Careful a)
    (hstep : s.step deserialises a = some s') : ∀ c ∈ s'.consumers, c.Sound := by
  rcases step_consumers hstep with ⟨i, b, c, c', ha, hi, hc, hset, -, -⟩ | ⟨-, hsame⟩
  · rw [hset]
    have hsound : c.Sound := h c (List.mem_of_getElem? hi)
    exact forall_mem_set h (hsound.step (hcare i b c ha hi) hc)
  · rw [hsame]
    exact h

end ConnectorCollection

namespace BaseWorker

/-- A worker is used carefully: the concurrency is not zero, and the consumers are started and
closed with care. -/
def Careful (w : BaseWorker) : WorkerAction → Prop
  | .setupConsumer concurrency => 0 < concurrency
  | .connectors a => w.connectors.Careful a
  | _ => True

/-- A careful action of a worker keeps all its consumers sound. -/
theorem sound_step {deserialises : Bytes → Bool} {w w' : BaseWorker} {a : WorkerAction}
    (h : ∀ c ∈ w.connectors.consumers, c.Sound) (hcare : w.Careful a)
    (hstep : w.step deserialises a = some w') : ∀ c ∈ w'.connectors.consumers, c.Sound := by
  cases a with
  | setupPublisher =>
    simp only [step] at hstep
    split_ifs at hstep
    rw [← Option.some.inj hstep]
    exact h
  | setupConsumer concurrency =>
    simp only [step] at hstep
    split_ifs at hstep
    rw [← Option.some.inj hstep]
    intro c hc
    rcases List.mem_append.1 hc with hc | hc
    · exact h c hc
    · -- The new consumer has no tasks yet, and a positive concurrency.
      rw [List.mem_singleton.1 hc]
      exact Consumer.sound_new hcare
  | setupReturns =>
    simp only [step] at hstep
    split_ifs at hstep
    rw [← Option.some.inj hstep]
    exact h
  | setupRaises =>
    simp only [step] at hstep
    split_ifs at hstep
    obtain ⟨s, hs, rfl⟩ := Option.map_eq_some_iff.1 hstep
    exact ConnectorCollection.sound_step h (fun i b c ha _ => by cases ha) hs
  | connectors a =>
    obtain ⟨s, hs, rfl⟩ := Option.map_eq_some_iff.1 hstep
    exact ConnectorCollection.sound_step h hcare hs

/-- In every state that a careful run of a worker reaches, no consumer is stuck. -/
theorem not_stuck_of_careful {deserialises : Bytes → Bool} {w : BaseWorker}
    {as : List WorkerAction} (hcare : Meets (step deserialises) Careful new as)
    (hrun : run (step deserialises) new as = some w) : ∀ c ∈ w.connectors.consumers, ¬ c.Stuck := by
  have hsound : ∀ c ∈ w.connectors.consumers, c.Sound := by
    refine run_induction (step deserialises) (fun _ _ _ h hok hstep => sound_step h hok hstep) ?_
      hcare hrun
    intro c hc
    cases hc
  exact fun c hc => (hsound c hc).not_stuck

/-- The `setup` of a worker raises once it has created a consumer. -/
def raisingSetup : List WorkerAction :=
  [.setupConsumer 1, .setupRaises, .connectors (.consumer 0 .aclose)]

/-- Then the consumer is stuck. -/
theorem setup_raises_stuck :
    ∃ w, run (step fun _ => true) new raisingSetup = some w ∧
      ∃ c ∈ w.connectors.consumers, c.Stuck := by
  refine ⟨⟨⟨[{ Consumer.new 1 with closing := true, waiting := 1 }], [], .consumers⟩, false⟩, rfl,
    _, List.mem_singleton_self _, ?_⟩
  decide

/-- A worker that is started and closed with care. -/
def carefulRun : List WorkerAction :=
  [.setupConsumer 1, .connectors (.consumer 0 .start), .setupReturns,
    .connectors (.consumer 0 .aclose)]

/-- Its consumer after it: an `aclose` waits, and a `start` will create the task that ends the
wait. -/
def carefulConsumer : Consumer :=
  { Consumer.new 1 with starts := [0], closing := true, waiting := 1 }

/-- The given run is careful throughout. -/
theorem careful_carefulRun : Meets (step fun _ => true) Careful new carefulRun := by
  refine ⟨Nat.zero_lt_one, fun w h => ⟨?_, fun w' h' => ⟨trivial, fun w'' h'' => ⟨?_, fun _ _ =>
    trivial⟩⟩⟩⟩
  · obtain rfl := Option.some.inj h
    intro i b c ha hi
    cases ha
    obtain rfl := Option.some.inj hi
    exact .inr rfl
  · obtain rfl := Option.some.inj h
    obtain rfl := Option.some.inj h'
    obtain rfl := Option.some.inj h''
    intro i b c ha hi
    cases ha
    obtain rfl := Option.some.inj hi
    exact .inl (List.cons_ne_nil _ _)

/-- `not_stuck_of_careful` holds of it. -/
theorem carefulRun_not_stuck : ¬ carefulConsumer.Stuck := by
  have hrun : run (step fun _ => true) new carefulRun =
      some ⟨⟨[carefulConsumer], [], .idle⟩, false⟩ := rfl
  exact not_stuck_of_careful careful_carefulRun hrun _ (List.mem_singleton_self _)

end BaseWorker

/-- Two calls of `start` at once count one task too many, so that `_closed` is never set. -/
example :
    ((run (Consumer.step fun _ => true) (Consumer.new 1)
      ([.start, .start] ++ List.replicate 6 (.answer 0) ++ List.replicate 6 (.answer 1) ++
        [.resume 0, .resume 0, .aclose, .task 0 .receive, .task 0 .stop])).any
      fun c => decide c.Stuck) = true := by
  decide

end Vumi2
