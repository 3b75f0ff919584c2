import Vumi2.Lib.Machine
import Vumi2.Lib.Text

/-!
# Connectors

The consumers and publishers of a worker, as a machine. A consumer is its fields, the `trio` memory
channel between `queue_message` and its tasks, the calls of `start` and `aclose` that have not
returned, and the state of each task that runs `consume_messages`. An action is what one party does
between two points at which it may wait: a call, an answer of the broker, a delivery, or a step of a
task. So the runs of the machine are the interleavings.

The broker answers every operation, and keeps to the prefetch window of each channel. A handler
returns or raises. What is logged beside the fields (`delivered` and so on) is what the properties
speak about; no step looks at it, except that the broker knows what it has delivered.
-/

namespace Vumi2

open Text

/-- A delivery of the broker, by its tag. -/
structure Delivery where
  delivery_tag : ℕ
  body : Bytes
deriving DecidableEq, Repr

/-- How `consume_message` fared with a delivery. -/
inductive Handled where
  /-- `deserialise(json.loads(body))` raised. -/
  | undecodable
  /-- The callback raised. -/
  | failed
  | succeeded
deriving DecidableEq, Repr

/-- What the broker is told about a delivery. -/
inductive Settlement where
  /-- `basic_client_ack(delivery_tag)`. -/
  | ack
  /-- `basic_client_nack(delivery_tag=..., requeue=...)`. -/
  | nack (requeue : Bool)
deriving DecidableEq, Repr

/-- How `consume_message` settles a delivery. -/
def Handled.settlement : Handled → Settlement
  | succeeded => .ack
  | _ => .nack false

/-- A task that runs `consume_messages`. -/
inductive ConsumeTask where
  /-- It is about to receive. -/
  | ready
  /-- It waits in `receive`. -/
  | parked
  /-- It has received a delivery. -/
  | received (d : Delivery)
  /-- The callback runs. -/
  | handling (d : Delivery)
  /-- It is about to ack or nack. -/
  | settling (d : Delivery) (h : Handled)
  /-- It has got the end of the channel. -/
  | ending
  /-- It has returned. -/
  | done
deriving DecidableEq, Repr

/-- `Consumer`. -/
structure Consumer where
  concurrency : ℕ
  /-- `_active_consumers`. -/
  active_consumers : ℕ
  /-- `_closing`, which is also whether `send_channel` is closed. -/
  closing : Bool
  /-- Whether `_closed` is set. -/
  closed : Bool
  /-- Whether `receive_channel` is closed, apart from its clones. -/
  receive_closed : Bool
  /-- What the memory channel holds. -/
  buffer : List Delivery
  /-- The calls of `queue_message` that wait in `send`. -/
  senders : List Delivery
  tasks : List ConsumeTask
  /-- The calls of `start` that passed the guard and have not returned, each with the number of
  operations that the broker has answered. -/
  starts : List ℕ
  /-- The AMQP channels that are open and deliver. -/
  channels : ℕ
  /-- The calls of `aclose` that wait on `_closed`. -/
  waiting : ℕ
  /-- The calls of `aclose` that returned. -/
  returned : ℕ
  /-- What the broker delivered. -/
  delivered : List Delivery
  /-- What `queue_message` put into the memory channel. -/
  accepted : List Delivery
  /-- What was passed to the callback. -/
  callbacks : List Delivery
  /-- How each delivery fared. -/
  outcomes : List (Delivery × Handled)
  /-- What the broker was told. -/
  settlements : List (Delivery × Settlement)
deriving DecidableEq, Repr

/-- A step of a task. -/
inductive TaskAction where
  | receive
  | deserialise
  /-- The callback returns, or raises. -/
  | finish (ok : Bool)
  | settle
  | stop
deriving DecidableEq, Repr

/-- An action of or on a consumer. -/
inductive ConsumerAction where
  /-- `start` is called. -/
  | start
  /-- The broker answers the next operation of a pending `start`. -/
  | answer (call : ℕ)
  /-- A pending `start` goes on after the last answer. -/
  | resume (call : ℕ)
  /-- `aclose` is called. -/
  | aclose
  /-- An `aclose` that waited on `_closed` goes on, and returns. -/
  | wake
  /-- `queue_message` is called for a delivery, which a waiting task may get at once. -/
  | deliver (d : Delivery) (task : Option ℕ)
  | task (i : ℕ) (a : TaskAction)
deriving DecidableEq, Repr

namespace Consumer

/-- `Consumer(..., concurrency)`. -/
def new (concurrency : ℕ) : Consumer where
  concurrency := concurrency
  active_consumers := 0
  closing := false
  closed := false
  receive_closed := false
  buffer := []
  senders := []
  tasks := []
  starts := []
  channels := 0
  waiting := 0
  returned := 0
  delivered := []
  accepted := []
  callbacks := []
  outcomes := []
  settlements := []

/-- The operations that `start` asks of the broker: it opens a channel, sets the prefetch count,
declares the exchange and the queue, binds the queue, and subscribes. -/
def startOperations : ℕ := 6

/-- `start` up to its first await. -/
def start (c : Consumer) : Consumer :=
  if c.active_consumers = c.concurrency ∨ c.closing = true then c
  else { c with starts := c.starts ++ [0] }

/-- An operation of a pending `start` is answered. The last one subscribes its channel. -/
def answer (c : Consumer) (call : ℕ) : Option Consumer :=
  match c.starts[call]? with
  | some n =>
    if n + 1 < startOperations then some { c with starts := c.starts.set call (n + 1) }
    else if n + 1 = startOperations then
      some { c with starts := c.starts.set call (n + 1), channels := c.channels + 1 }
    else none
  | none => none

/-- The loop of `start`, and the closing of `receive_channel` after it. A `receive_channel` that is
already closed cannot be cloned, which raises once the first task has been counted. -/
def createTasks (c : Consumer) : Consumer :=
  if c.receive_closed = true then { c with active_consumers := c.active_consumers + 1 }
  else
    { c with
      active_consumers := c.active_consumers + c.concurrency
      tasks := c.tasks ++ List.replicate c.concurrency .ready
      receive_closed := true }

/-- `start` from the last answer on. -/
def resume (c : Consumer) (call : ℕ) : Option Consumer :=
  match c.starts[call]? with
  | some n =>
    if n = startOperations then some ({ c with starts := c.starts.eraseIdx call }).createTasks
    else none
  | none => none

/-- What the closing of `send_channel` does to a task: one that waits gets the end of the
channel. -/
def endParked : ConsumeTask → ConsumeTask
  | .parked => .ending
  | t => t

/-- `aclose` up to its wait. What waits in `send` gets an error. -/
def aclose (c : Consumer) : Consumer :=
  if c.closing = true then { c with waiting := c.waiting + 1 }
  else
    { c with
      closing := true
      senders := []
      tasks := c.tasks.map endParked
      waiting := c.waiting + 1 }

/-- `aclose` from its wait on: the AMQP channel is closed if it is open. -/
def wake (c : Consumer) : Option Consumer :=
  if c.closed = true ∧ 0 < c.waiting then
    some { c with
      waiting := c.waiting - 1, returned := c.returned + 1, channels := c.channels - 1 }
  else none

/-- The broker may deliver: no channel has more than `prefetch_count` unsettled deliveries, and no
delivery has the tag of another. -/
def MayDeliver (c : Consumer) (d : Delivery) : Prop :=
  c.delivered.length < c.channels * c.concurrency + c.settlements.length ∧
    ∀ e ∈ c.delivered, e.delivery_tag ≠ d.delivery_tag

instance (c : Consumer) (d : Delivery) : Decidable (c.MayDeliver d) :=
  inferInstanceAs (Decidable (_ ∧ ∀ e ∈ _, _))

/-- `send_channel.send(d)`: a task that waits gets it, else the buffer takes it, and the call waits
if the buffer is full. -/
def send (c : Consumer) (d : Delivery) : Option ℕ → Option Consumer
  | some i =>
    if c.tasks[i]? = some .parked then some { c with tasks := c.tasks.set i (.received d) }
    else none
  | none =>
    if .parked ∈ c.tasks then none
    else if c.buffer.length < c.concurrency then some { c with buffer := c.buffer ++ [d] }
    else some { c with senders := c.senders ++ [d] }

/-- `queue_message`, for a delivery of the broker. -/
def queueMessage (c : Consumer) (d : Delivery) (task : Option ℕ) : Option Consumer :=
  if c.MayDeliver d then
    if c.closing = true then some { c with delivered := c.delivered ++ [d] }
    else ({ c with delivered := c.delivered ++ [d], accepted := c.accepted ++ [d] }).send d task
  else none

/-- A task changes its state. -/
def setTask (c : Consumer) (i : ℕ) (t : ConsumeTask) : Consumer :=
  { c with tasks := c.tasks.set i t }

/-- `receive_channel.receive()`. One call that waits in `send` can go on first. -/
def receive (c : Consumer) (i : ℕ) : Consumer :=
  match c.buffer ++ c.senders.take 1 with
  | d :: buffer => { c.setTask i (.received d) with buffer := buffer, senders := c.senders.drop 1 }
  | [] => c.setTask i (if c.closing = true then .ending else .parked)

variable (deserialises : Bytes → Bool)

/-- `consume_message` up to the callback. -/
def deserialise (c : Consumer) (i : ℕ) (d : Delivery) : Consumer :=
  if deserialises d.body = true then
    { c.setTask i (.handling d) with callbacks := c.callbacks ++ [d] }
  else
    { c.setTask i (.settling d .undecodable) with outcomes := c.outcomes ++ [(d, .undecodable)] }

/-- The callback is over. -/
def finish (c : Consumer) (i : ℕ) (d : Delivery) (h : Handled) : Consumer :=
  { c.setTask i (.settling d h) with outcomes := c.outcomes ++ [(d, h)] }

/-- The ack or the nack at the end of `consume_message`. -/
def settle (c : Consumer) (i : ℕ) (d : Delivery) (h : Handled) : Consumer :=
  { c.setTask i .ready with settlements := c.settlements ++ [(d, h.settlement)] }

/-- The `finally` clause of `consume_messages`. -/
def stop (c : Consumer) (i : ℕ) : Consumer :=
  { c.setTask i .done with
    active_consumers := c.active_consumers - 1
    closed := c.closed || c.active_consumers - 1 = 0 }

/-- A step of a task that is in the state `t`. -/
def taskStep (c : Consumer) (i : ℕ) : ConsumeTask → TaskAction → Option Consumer
  | .ready, .receive => some (c.receive i)
  | .received d, .deserialise => some (c.deserialise deserialises i d)
  | .handling d, .finish ok => some (c.finish i d (if ok = true then .succeeded else .failed))
  | .settling d h, .settle => some (c.settle i d h)
  | .ending, .stop => some (c.stop i)
  | _, _ => none

/-- The state after an action; `deserialises` says of which bodies
`message_class.deserialise(json.loads(body))` does not raise. -/
def step (c : Consumer) : ConsumerAction → Option Consumer
  | .start => some c.start
  | .answer call => c.answer call
  | .resume call => c.resume call
  | .aclose => some c.aclose
  | .wake => c.wake
  | .deliver d task => c.queueMessage d task
  | .task i a => (c.tasks[i]?).bind fun t => c.taskStep deserialises i t a

end Consumer

/-- `Publisher`, by whether it is closed. -/
structure Publisher where
  closed : Bool
deriving DecidableEq, Repr

/-- How far `ConnectorCollection.aclose` has come. -/
inductive ClosePhase where
  /-- It was not called. -/
  | idle
  /-- It waits for the consumers of all connectors. -/
  | consumers
  /-- It closes the publishers of all connectors. -/
  | publishers
deriving DecidableEq, Repr

/-- `ConnectorCollection`: the consumers and the publishers of all its connectors. -/
structure ConnectorCollection where
  consumers : List Consumer
  publishers : List Publisher
  phase : ClosePhase
deriving DecidableEq, Repr

/-- An action of or on a collection. -/
inductive CollectionAction where
  /-- An action of or on one of the consumers; a call of its `aclose` may come from anywhere. -/
  | consumer (i : ℕ) (a : ConsumerAction)
  /-- `aclose` is called. -/
  | aclose
  /-- Every consumer has been closed. -/
  | consumersClosed
  /-- A publisher is closed. -/
  | closePublisher (i : ℕ)
deriving DecidableEq, Repr

namespace ConnectorCollection

variable (deserialises : Bytes → Bool)

/-- The state after an action. -/
def step (s : ConnectorCollection) : CollectionAction → Option ConnectorCollection
  | .consumer i a =>
    (s.consumers[i]?).bind fun c =>
      (c.step deserialises a).map fun c' => { s with consumers := s.consumers.set i c' }
  | .aclose => some (if s.phase = .idle then { s with phase := .consumers } else s)
  | .consumersClosed =>
    if s.phase = .consumers ∧ ∀ c ∈ s.consumers, 0 < c.returned then
      some { s with phase := .publishers }
    else none
  | .closePublisher i =>
    if s.phase = .publishers then some { s with publishers := s.publishers.set i ⟨true⟩ } else none

end ConnectorCollection

/-- `BaseWorker`, with its connectors, and whether its `setup` runs. -/
structure BaseWorker where
  connectors : ConnectorCollection
  in_setup : Bool
deriving DecidableEq, Repr

/-- An action of or on a worker that `run_worker` runs. -/
inductive WorkerAction where
  /-- `setup` creates a publisher of a connector. -/
  | setupPublisher
  /-- `setup` creates a consumer of a connector. -/
  | setupConsumer (concurrency : ℕ)
  /-- `setup` returns. -/
  | setupReturns
  /-- `setup` raises, so that `run_worker` calls `aclose` of the worker. -/
  | setupRaises
  /-- An action of or on the connectors. -/
  | connectors (a : CollectionAction)
deriving DecidableEq, Repr

namespace BaseWorker

/-- The worker at the start of its `setup`. -/
def new : BaseWorker := ⟨⟨[], [], .idle⟩, true⟩

variable (deserialises : Bytes → Bool)

/-- The state after an action. -/
def step (w : BaseWorker) : WorkerAction → Option BaseWorker
  | .setupPublisher =>
    if w.in_setup = true then
      some { w with connectors := { w.connectors with
        publishers := w.connectors.publishers ++ [⟨false⟩] } }
    else none
  | .setupConsumer concurrency =>
    if w.in_setup = true then
      some { w with connectors := { w.connectors with
        consumers := w.connectors.consumers ++ [Consumer.new concurrency] } }
    else none
  | .setupReturns => if w.in_setup = true then some { w with in_setup := false } else none
  | .setupRaises =>
    if w.in_setup = true then
      (w.connectors.step deserialises .aclose).map fun s => ⟨s, false⟩
    else none
  | .connectors a =>
    (w.connectors.step deserialises a).map fun s => { w with connectors := s }

end BaseWorker

end Vumi2
