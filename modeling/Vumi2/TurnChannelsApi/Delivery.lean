import Mathlib.Order.Bounds.Basic
import Vumi2.CacheHistory
import Vumi2.Lib.Retry
import Vumi2.TurnChannelsApi.Worker

/-!
# The delivery of inbound messages to Turn

`handle_inbound_message` stores the message and posts it to Turn, up to `max_retries + 1` times,
with a random delay after each attempt that failed but the last. The deadline over all attempts does
not pass here; what the attempts come to is given.

The delay is below `retry_delay_base ** (attempt * retry_delay_exponent)`, and `secrets.randbelow`
raises when that is zero: with a base of zero, at the second attempt. `trio.sleep` adds the delay to
the time, and raises when it is too large for a float. And a `TooSlowError` that the last attempt
itself raises is taken for the deadline. Otherwise the retries are exact (`deliversExactly_iff`).
-/

namespace Vumi2

open Effect Eff Text

/-- `TurnChannelsApiConfig`, with what `handle_inbound_message` uses of it. -/
structure TurnDeliveryConfig extends TurnChannelsApiConfig where
  max_retries : ℕ := 3
  retry_delay_exponent : ℕ := 2
  retry_delay_base : ℕ := 2

/-- What a `POST` to Turn comes to. -/
inductive PostOutcome where
  | response (status_code : ℕ)
  | raises (e : PyExc)

/-- `HttpErrorResponse(code)`. -/
def httpErrorResponse (code : ℕ) : PyExc :=
  .apiError "HttpErrorResponse" [str "HTTP error response: " ++ str (toString code)]

/-- What an attempt with this `POST` returns or raises. -/
def PostOutcome.result : PostOutcome → Except PyExc Unit
  | .response status_code =>
    if 200 ≤ status_code ∧ status_code < 300 then .ok ()
    else .error (httpErrorResponse status_code)
  | .raises e => .error e

/-- The response is a success. -/
def PostOutcome.Succeeds (o : PostOutcome) : Prop :=
  ∃ status_code, o = .response status_code ∧ 200 ≤ status_code ∧ status_code < 300

/-- What a delivery does: a `POST`, with the inbound messages that are in the cache meanwhile, or a
delay. -/
inductive DeliveryAction where
  | post (p : TurnPost) (inbounds : TimeoutDict Message)
  | sleep (delay : ℕ)

/-- `TurnChannelsApi`, as far as `handle_inbound_message` uses it. -/
structure TurnDelivery where
  message_cache : MemoryMessageCache
  /-- What was done, in order. -/
  actions : List DeliveryAction
  /-- The labels under which `turn_rate_limit_retry` was counted up. -/
  turn_rate_limit_retry : List ℕ
  /-- What the coming `POST`s come to. -/
  turn : ℕ → PostOutcome
  /-- The randomness that is left. -/
  draws : ℕ → ℕ
  /-- What `trio.sleep` does with a delay. -/
  sleeps : ℕ → Except PyExc Unit

namespace TurnDelivery

/-- A computation on the message cache. -/
def onMessageCache {α : Type} (m : Py MemoryMessageCache α) : Py TurnDelivery α :=
  on message_cache (fun w c => { w with message_cache := c }) m

/-- `client.post(url, json=json, headers=headers)`. -/
def post (p : TurnPost) : Py TurnDelivery PostOutcome := do
  let w ← get
  modify fun w =>
    { w with
      actions := w.actions ++ [.post p w.message_cache.inbounds]
      turn := later w.turn 1 }
  pure (w.turn 0)

/-- `secrets.randbelow(n)`. -/
def randbelow (n : ℕ) : Py TurnDelivery ℕ := do
  let w ← get
  if n = 0 then raise .valueError
  else do
    modify fun w => { w with draws := later w.draws 1 }
    pure (w.draws 0 % n)

/-- `trio.sleep(delay)`. -/
def sleep (delay : ℕ) : Py TurnDelivery Unit := do
  let w ← get
  ofExcept (w.sleeps delay)
  modify fun w => { w with actions := w.actions ++ [.sleep delay] }

/-- One attempt to deliver, inside the `try`. -/
def tryDelivery (p : TurnPost) : Py TurnDelivery Unit := do
  let outcome ← post p
  ofExcept outcome.result

variable (config : TurnDeliveryConfig)

/-- What the delay after an attempt is below. -/
def delayBound (attempt : ℕ) : ℕ :=
  config.retry_delay_base ^ (attempt * config.retry_delay_exponent)

/-- `_backoff`. -/
def backoff (attempt : ℕ) : Py TurnDelivery Unit := do
  let delay ← randbelow (delayBound config attempt)
  sleep delay

/-- What is done after a failed attempt, in the `except`. -/
def deliveryFailed (attempt : ℕ) (e : PyExc) : Py TurnDelivery Unit := do
  modify fun w => { w with turn_rate_limit_retry := w.turn_rate_limit_retry ++ [attempt + 1] }
  if attempt < config.max_retries then backoff config attempt
  else raise e

/-- The `POST` of a message. -/
def inboundPost (message : Message) : TurnPost :=
  ⟨config.turnUrl (str "/messages"), str "Bearer " ++ config.auth_token,
    turnInboundFromMsg message⟩

/-- The loop over the attempts. -/
def deliver (p : TurnPost) : Py TurnDelivery Unit :=
  tryEach (fun _ => tryDelivery p) (deliveryFailed config) (List.range (config.max_retries + 1))

/-- The outer `except` of `handle_inbound_message`. -/
def deadlineError : PyExc → Py TurnDelivery Unit
  | .tooSlowError => raise (.apiError "TimeoutError" [])
  | e => raise e

/-- `handle_inbound_message`. -/
def handleInboundMessage (message : Message) : Py TurnDelivery Unit := do
  onMessageCache (MemoryMessageCache.storeInbound message)
  catching (deliver config (inboundPost config message)) deadlineError

/-! ## What one step does -/

variable {config}

/-- A POST succeeds exactly if it raises nothing. -/
theorem succeeds_iff {o : PostOutcome} : o.Succeeds ↔ o.result = .ok () := by
  cases o with
  | response status_code =>
    unfold PostOutcome.result
    dsimp only
    constructor
    · rintro ⟨code, hcode, hrange⟩
      obtain rfl := PostOutcome.response.inj hcode
      exact if_pos hrange
    · intro h
      by_contra hnot
      rw [if_neg fun hrange => hnot ⟨status_code, rfl, hrange⟩] at h
      cases h
  | raises e =>
    constructor
    · rintro ⟨code, hcode, -⟩
      cases hcode
    · intro h
      cases h

/-- A POST that does not succeed raises an exception. -/
theorem exists_failure {o : PostOutcome} (h : ¬ o.Succeeds) : ∃ e, o.result = .error e := by
  rw [succeeds_iff] at h
  cases hresult : o.result with
  | ok u => exact absurd hresult h
  | error e => exact ⟨e, rfl⟩

/-- The worker after a `POST`. -/
def posted (w : TurnDelivery) (p : TurnPost) : TurnDelivery :=
  { w with
    actions := w.actions ++ [.post p w.message_cache.inbounds]
    turn := later w.turn 1 }

/-- An attempt makes one POST. -/
theorem run_tryDelivery (p : TurnPost) (env : ℕ → Reading) (w : TurnDelivery) :
    (tryDelivery p).run env w = ⟨(w.turn 0).result, 0, w.posted p⟩ := by
  have hpost : (post p).run env w = ⟨.ok (w.turn 0), 0, w.posted p⟩ := by
    unfold post
    rw [run_get_bind, run_modify_bind]
    rfl
  unfold tryDelivery
  rw [run_bind_ok hpost]
  rfl

/-- A random number below a bound is the next draw, reduced. -/
theorem run_randbelow {n : ℕ} (h : n ≠ 0) (env : ℕ → Reading) (w : TurnDelivery) :
    (randbelow n).run env w = ⟨.ok (w.draws 0 % n), 0, { w with draws := later w.draws 1 }⟩ := by
  unfold randbelow
  rw [run_get_bind, if_neg h, run_modify_bind]
  rfl

/-- There is no random number below zero: `randbelow` raises. -/
theorem run_randbelow_zero (env : ℕ → Reading) (w : TurnDelivery) :
    (randbelow 0).run env w = ⟨.error .valueError, 0, w⟩ := by
  unfold randbelow
  rw [run_get_bind, if_pos rfl]
  rfl

/-- A delay that fits is slept. -/
theorem run_sleep {delay : ℕ} {w : TurnDelivery} (h : w.sleeps delay = .ok ()) (env : ℕ → Reading) :
    (sleep delay).run env w = ⟨.ok (), 0, { w with actions := w.actions ++ [.sleep delay] }⟩ := by
  unfold sleep
  rw [run_get_bind, h]
  rfl

/-- One that does not raises. -/
theorem run_sleep_error {delay : ℕ} {w : TurnDelivery} {e : PyExc} (h : w.sleeps delay = .error e)
    (env : ℕ → Reading) : (sleep delay).run env w = ⟨.error e, 0, w⟩ := by
  unfold sleep
  rw [run_get_bind, h]
  rfl

/-- The worker after a failed attempt was counted. -/
def counted (w : TurnDelivery) (attempt : ℕ) : TurnDelivery :=
  { w with turn_rate_limit_retry := w.turn_rate_limit_retry ++ [attempt + 1] }

/-- The last attempt raises what the POST did. -/
theorem run_deliveryFailed_last {attempt : ℕ} (h : ¬ attempt < config.max_retries) (e : PyExc)
    (env : ℕ → Reading) (w : TurnDelivery) :
    (deliveryFailed config attempt e).run env w = ⟨.error e, 0, w.counted attempt⟩ := by
  unfold deliveryFailed
  rw [run_modify_bind, if_neg h]
  rfl

variable (config) in
/-- The delay after an attempt is drawn and slept. -/
def Rests (w : TurnDelivery) (attempt : ℕ) : Prop :=
  delayBound config attempt ≠ 0 ∧
    w.sleeps (w.draws attempt % delayBound config attempt) = .ok ()

/-- A delay is drawn and slept. -/
theorem run_backoff {attempt : ℕ} (hbound : delayBound config attempt ≠ 0) (env : ℕ → Reading)
    {w : TurnDelivery} (hsleeps : w.sleeps (w.draws 0 % delayBound config attempt) = .ok ()) :
    (backoff config attempt).run env w =
      ⟨.ok (), 0,
        { w with
          actions := w.actions ++ [.sleep (w.draws 0 % delayBound config attempt)]
          draws := later w.draws 1 }⟩ := by
  have hsleep : (sleep (w.draws 0 % delayBound config attempt)).run (later env 0)
      { w with draws := later w.draws 1 } = _ :=
    run_sleep (w := { w with draws := later w.draws 1 }) hsleeps _
  unfold backoff
  rw [run_bind_ok (run_randbelow hbound env w), hsleep]
  rfl

/-- A delay that is not drawn or not slept raises, and nothing is done. -/
theorem run_backoff_raises {attempt : ℕ} {w : TurnDelivery}
    (hnot : ¬ (delayBound config attempt ≠ 0 ∧
      w.sleeps (w.draws 0 % delayBound config attempt) = .ok ())) (env : ℕ → Reading) :
    ∃ e w', (backoff config attempt).run env w = ⟨.error e, 0, w'⟩ ∧ w'.actions = w.actions := by
  unfold backoff
  by_cases hbound : delayBound config attempt = 0
  · rw [hbound, run_bind_error (run_randbelow_zero env w)]
    exact ⟨_, _, rfl, rfl⟩
  · cases hsleeps : w.sleeps (w.draws 0 % delayBound config attempt) with
    | ok u => exact absurd ⟨hbound, hsleeps⟩ hnot
    | error e =>
      have hsleep : (sleep (w.draws 0 % delayBound config attempt)).run (later env 0)
          { w with draws := later w.draws 1 } = _ :=
        run_sleep_error (w := { w with draws := later w.draws 1 }) hsleeps _
      rw [run_bind_ok (run_randbelow hbound env w), hsleep]
      exact ⟨e, _, rfl, rfl⟩

/-- An attempt that is not the last has a delay after it. -/
theorem run_deliveryFailed {attempt : ℕ} (h : attempt < config.max_retries)
    (hbound : delayBound config attempt ≠ 0) (e : PyExc) (env : ℕ → Reading) {w : TurnDelivery}
    (hsleeps : w.sleeps (w.draws 0 % delayBound config attempt) = .ok ()) :
    (deliveryFailed config attempt e).run env w =
      ⟨.ok (), 0,
        { w.counted attempt with
          actions := w.actions ++ [.sleep (w.draws 0 % delayBound config attempt)]
          draws := later w.draws 1 }⟩ := by
  have hbackoff : (backoff config attempt).run env (w.counted attempt) = _ :=
    run_backoff hbound env hsleeps
  unfold deliveryFailed
  rw [run_modify_bind, if_pos h]
  exact hbackoff

/-- A bound of zero raises, and so may the sleep. Nothing is done then. -/
theorem run_deliveryFailed_raises {attempt : ℕ} (h : attempt < config.max_retries)
    {w : TurnDelivery}
    (hnot : ¬ (delayBound config attempt ≠ 0 ∧
      w.sleeps (w.draws 0 % delayBound config attempt) = .ok ()))
    (e : PyExc) (env : ℕ → Reading) :
    ∃ e' w', (deliveryFailed config attempt e).run env w = ⟨.error e', 0, w'⟩ ∧
      w'.actions = w.actions := by
  obtain ⟨e', w', hbackoff, hactions⟩ := run_backoff_raises (w := w.counted attempt) hnot env
  refine ⟨e', w', ?_, hactions⟩
  unfold deliveryFailed
  rw [run_modify_bind, if_pos h]
  exact hbackoff

/-! ## The loop -/

variable (config) in
/-- The delays after the first attempts. -/
def delays (w : TurnDelivery) (attempts : ℕ) : List ℕ :=
  (List.range attempts).map fun i => w.draws i % delayBound config i

variable (config) in
/-- The worker after some failed attempts, each with its delay. -/
def afterFailures (p : TurnPost) (w : TurnDelivery) (attempts : ℕ) : TurnDelivery :=
  { w with
    actions := w.actions ++ (delays config w attempts).flatMap fun delay =>
      [.post p w.message_cache.inbounds, .sleep delay]
    turn_rate_limit_retry := w.turn_rate_limit_retry ++ List.range' 1 attempts
    turn := later w.turn attempts
    draws := later w.draws attempts }

/-- One more failed attempt. -/
theorem afterFailures_succ (p : TurnPost) (w : TurnDelivery) (i : ℕ) :
    afterFailures config p w (i + 1) =
      { ((afterFailures config p w i).posted p).counted i with
        actions := ((afterFailures config p w i).posted p).actions ++
          [.sleep ((afterFailures config p w i).draws 0 % delayBound config i)]
        draws := later (afterFailures config p w i).draws 1 } := by
  have hdelays : delays config w (i + 1) =
      delays config w i ++ [w.draws i % delayBound config i] := by
    unfold delays
    rw [List.range_succ, List.map_append, List.map_singleton]
  have hlabels : List.range' 1 (i + 1) = List.range' 1 i ++ [i + 1] := by
    rw [List.range'_concat, Nat.one_mul, Nat.add_comm 1 i]
  have hdraw : (afterFailures config p w i).draws 0 = w.draws i := rfl
  rw [hdraw]
  unfold afterFailures posted counted
  dsimp only
  rw [hdelays, hlabels, List.flatMap_append, later_later, later_later, List.flatMap_singleton]
  simp only [List.append_assoc, List.cons_append, List.nil_append]

/-- An attempt that fails is followed by a rest, and then by the next attempt. -/
theorem failsAt_delivery {p : TurnPost} {w : TurnDelivery} {i : ℕ} (env : ℕ → Reading)
    (h : i < config.max_retries) (hrests : Rests config w i) (hfails : ¬ (w.turn i).Succeeds) :
    FailsAt (fun _ => tryDelivery p) (deliveryFailed config) env
      (fun i => (0, afterFailures config p w i)) i := by
  obtain ⟨e, he⟩ := exists_failure hfails
  have hturn : (afterFailures config p w i).turn 0 = w.turn i := rfl
  refine ⟨e, 0, 0, (afterFailures config p w i).posted p, ?_, ?_, rfl⟩
  · rw [run_tryDelivery, hturn, he]
  · rw [run_deliveryFailed h hrests.1 _ _ hrests.2]
    exact congrArg (Outcome.mk (Except.ok ()) 0) (afterFailures_succ p w i).symm

/-- After failed attempts the loop goes on with the next one. -/
theorem run_deliver {p : TurnPost} {w : TurnDelivery} {k : ℕ} (env : ℕ → Reading)
    (hk : k ≤ config.max_retries) (hrests : ∀ i < k, Rests config w i)
    (hfails : ∀ i < k, ¬ (w.turn i).Succeeds) :
    ∃ used rest, (deliver config p).run env w =
      ⟨((tryEach (fun _ => tryDelivery p) (deliveryFailed config) (k :: rest)).run env
          (afterFailures config p w k)).result,
        used,
        ((tryEach (fun _ => tryDelivery p) (deliveryFailed config) (k :: rest)).run env
          (afterFailures config p w k)).state⟩ := by
  -- The range of the attempts is cut behind the failed ones.
  have hsplit : List.range (config.max_retries + 1) =
      List.range' 0 (k + (config.max_retries - k + 1)) := by
    rw [List.range_eq_range']
    congr 1
    omega
  have hrest : List.range' (0 + k) (config.max_retries - k + 1) =
      k :: List.range' (k + 1) (config.max_retries - k) := by
    rw [Nat.zero_add, List.range'_succ]
  have hzero : afterFailures config p w 0 = w := by
    unfold afterFailures delays
    simp
  -- Each of them fails, and its delay is accepted.
  have hfailsAt : ∀ j < k, FailsAt (fun _ => tryDelivery p) (deliveryFailed config) env
      (fun i => (0, afterFailures config p w i)) (0 + j) := by
    intro j hj
    rw [Nat.zero_add]
    exact failsAt_delivery env (Nat.lt_of_lt_of_le hj hk) (hrests j hj) (hfails j hj)
  obtain ⟨used, hrun⟩ := run_tryEach_add k 0 (config.max_retries - k + 1) hfailsAt
  rw [hrest, Nat.zero_add] at hrun
  dsimp only at hrun
  rw [later_zero, hzero] at hrun
  unfold deliver
  rw [hsplit]
  exact ⟨used, _, hrun⟩

/-! ## Exact retries -/

/-- A `POST` before each delay, and one after the last. -/
def alternating (post : DeliveryAction) (delays : List ℕ) : List DeliveryAction :=
  delays.flatMap (fun delay => [post, .sleep delay]) ++ [post]

/-- The first of the coming `POST`s that succeeds, counted from zero. -/
def FirstSuccess (w : TurnDelivery) (k : ℕ) : Prop := IsLeast {i | (w.turn i).Succeeds} k

variable (config) in
/-- The message is in the cache at every `POST`, there is one delay between any two of them, and
there are as many as it takes to succeed, and `max_retries + 1` at most. The delivery returns if one
of them succeeds, else it raises what the last one failed with. -/
def DeliversExactly (message : Message) (env : ℕ → Reading) (w : TurnDelivery)
    (o : Outcome PyExc TurnDelivery Unit) : Prop :=
  ∃ inbounds delays,
    inbounds.data.get? message.message_id = some ((env 1).time, message) ∧
    o.state.actions =
      w.actions ++ alternating (.post (inboundPost config message) inbounds) delays ∧
    (∀ k, w.FirstSuccess k → delays.length + 1 = min (k + 1) (config.max_retries + 1)) ∧
    ((∀ i, ¬ (w.turn i).Succeeds) → delays.length + 1 = config.max_retries + 1) ∧
    (o.result = .ok () ↔ ∃ k ≤ config.max_retries, w.FirstSuccess k) ∧
    ((¬ ∃ k ≤ config.max_retries, w.FirstSuccess k) →
      ∃ e, (w.turn config.max_retries).result = .error e ∧ o.result = .error e)

variable (config) in
/-- The second attempt fails, and its delay is to be below zero. -/
structure BackoffRaises (w : TurnDelivery) : Prop where
  base : config.retry_delay_base = 0
  exponent : 0 < config.retry_delay_exponent
  retries : 2 ≤ config.max_retries
  first : ¬ (w.turn 0).Succeeds
  second : ¬ (w.turn 1).Succeeds

variable (config) in
/-- An attempt fails that is not the last, and the sleep after it raises. -/
def SleepRaises (w : TurnDelivery) : Prop :=
  ∃ i < config.max_retries, (∀ j ≤ i, ¬ (w.turn j).Succeeds) ∧
    ∃ e, w.sleeps (w.draws i % delayBound config i) = .error e

variable (config) in
/-- All attempts fail, and the last one with a `TooSlowError`. -/
structure LastTooSlow (w : TurnDelivery) : Prop where
  fails : ∀ i < config.max_retries, ¬ (w.turn i).Succeeds
  last : w.turn config.max_retries = .raises .tooSlowError

/-- There is one first success at most. -/
theorem firstSuccess_unique {w : TurnDelivery} {k l : ℕ} (hk : w.FirstSuccess k)
    (hl : w.FirstSuccess l) : k = l := IsLeast.unique hk hl

/-- What comes before the first success has failed. -/
theorem not_succeeds_of_lt {w : TurnDelivery} {k i : ℕ} (h : w.FirstSuccess k) (hi : i < k) :
    ¬ (w.turn i).Succeeds := fun hs => absurd (h.2 hs) (Nat.not_le.2 hi)

/-- Of the attempts up to one there is a first that succeeds, or all of them fail. -/
theorem firstSuccess_or_fails (w : TurnDelivery) (n : ℕ) :
    (∃ k ≤ n, w.FirstSuccess k) ∨ ∀ i ≤ n, ¬ (w.turn i).Succeeds := by
  by_cases h : ∃ i, i ≤ n ∧ (w.turn i).Succeeds
  · obtain ⟨i, hi, hs⟩ := h
    classical
    have hex : ∃ j, (w.turn j).Succeeds := ⟨i, hs⟩
    refine .inl ⟨Nat.find hex, le_trans (Nat.find_le hs) hi, Nat.find_spec hex, ?_⟩
    intro j hj
    exact Nat.find_le hj
  · exact .inr fun i hi hs => h ⟨i, hi, hs⟩

/-- If all attempts fail, there is no first success. -/
theorem no_firstSuccess_of_fails {w : TurnDelivery} {n : ℕ}
    (h : ∀ i ≤ n, ¬ (w.turn i).Succeeds) : ¬ ∃ k ≤ n, w.FirstSuccess k := by
  rintro ⟨k, hk, hfirst⟩
  exact h k hk hfirst.1

/-- A bound of zero is that of the second attempt, or of a later one. -/
theorem backoffRaises_of_zero {w : TurnDelivery} {i : ℕ} (hi : i < config.max_retries)
    (hfails : ∀ j ≤ i, ¬ (w.turn j).Succeeds) (hzero : delayBound config i = 0) :
    BackoffRaises config w := by
  obtain ⟨hbase, hproduct⟩ := Nat.pow_eq_zero.1 hzero
  -- The first delay is below one: it is the second one at least.
  have hindex : 1 ≤ i := Nat.one_le_iff_ne_zero.2 (Nat.ne_zero_of_mul_ne_zero_left hproduct)
  have hexponent : 0 < config.retry_delay_exponent :=
    Nat.pos_of_ne_zero (Nat.ne_zero_of_mul_ne_zero_right hproduct)
  exact ⟨hbase, hexponent, by omega, hfails 0 (Nat.zero_le i), hfails 1 hindex⟩

/-- Where no delay is refused, every failed attempt has one. -/
theorem rests_of_not_raises {w : TurnDelivery} {i : ℕ} (hback : ¬ BackoffRaises config w)
    (hsleep : ¬ SleepRaises config w) (hi : i < config.max_retries)
    (hfails : ∀ j ≤ i, ¬ (w.turn j).Succeeds) : Rests config w i := by
  refine ⟨fun hzero => hback (backoffRaises_of_zero hi hfails hzero), ?_⟩
  cases hsleeps : w.sleeps (w.draws i % delayBound config i) with
  | ok u => rfl
  | error e => exact absurd ⟨i, hi, hfails, e, hsleeps⟩ hsleep

/-- A delay that is refused is the first one of an attempt that fails. -/
theorem exists_first_refused {w : TurnDelivery}
    (h : BackoffRaises config w ∨ SleepRaises config w) :
    ∃ i < config.max_retries, (∀ j ≤ i, ¬ (w.turn j).Succeeds) ∧ (∀ j < i, Rests config w j) ∧
      ¬ Rests config w i := by
  have hsome : ∃ i, i < config.max_retries ∧ (∀ j ≤ i, ¬ (w.turn j).Succeeds) ∧
      ¬ Rests config w i := by
    -- A base of zero is refused at the second attempt; any other delay may be too large for a
    -- float.
    obtain hback | ⟨i, hi, hfails, e, he⟩ := h
    · have hexponent := hback.exponent
      refine ⟨1, hback.retries, fun j hj => ?_, fun hrests => hrests.1 ?_⟩
      · obtain rfl | rfl : j = 0 ∨ j = 1 := by omega
        · exact hback.first
        · exact hback.second
      · rw [delayBound, hback.base, Nat.one_mul]
        exact zero_pow (by omega)
    · refine ⟨i, hi, hfails, fun hrests => ?_⟩
      rw [hrests.2] at he
      cases he
  -- The first index of this kind has only accepted delays before it.
  classical
  obtain ⟨hi, hfails, hnot⟩ := Nat.find_spec hsome
  refine ⟨Nat.find hsome, hi, hfails, fun j hj => ?_, hnot⟩
  by_contra hrests
  exact Nat.find_min hsome hj ⟨by omega, fun k hk => hfails k (by omega), hrests⟩

/-- Between `n` rests there are `n + 1` POSTs. -/
theorem length_alternating (post : DeliveryAction) (delays : List ℕ) :
    (alternating post delays).length = 2 * delays.length + 1 := by
  have hpairs : (delays.flatMap fun delay => [post, DeliveryAction.sleep delay]).length =
      2 * delays.length := by
    induction delays with
    | nil => rfl
    | cons delay delays ih =>
      rw [List.flatMap_cons, List.length_append, ih, List.length_cons]
      simp only [List.length_cons, List.length_nil]
      omega
  unfold alternating
  rw [List.length_append, hpairs, List.length_singleton]

/-- As many rests are taken as attempts have failed. -/
theorem length_delays (w : TurnDelivery) (k : ℕ) : (delays config w k).length = k := by
  unfold delays
  rw [List.length_map, List.length_range]

/-- What is done up to a `POST` that ends the loop. -/
theorem actions_posted_afterFailures (p : TurnPost) (w : TurnDelivery) (k : ℕ) :
    ((afterFailures config p w k).posted p).actions =
      w.actions ++ alternating (.post p w.message_cache.inbounds) (delays config w k) := by
  unfold posted afterFailures alternating
  rw [List.append_assoc]

/-- A delivery whose attempt `k` is the first to succeed makes `k + 1` POSTs, and returns. -/
theorem run_deliver_success {p : TurnPost} {w : TurnDelivery} {k : ℕ} (env : ℕ → Reading)
    (hback : ¬ BackoffRaises config w) (hsleep : ¬ SleepRaises config w)
    (hk : k ≤ config.max_retries) (hfirst : w.FirstSuccess k) :
    ∃ used w', (deliver config p).run env w = ⟨.ok (), used, w'⟩ ∧
      w'.actions =
        w.actions ++ alternating (.post p w.message_cache.inbounds) (delays config w k) := by
  have hfails : ∀ i < k, ¬ (w.turn i).Succeeds := fun i hi => not_succeeds_of_lt hfirst hi
  have hrests : ∀ i < k, Rests config w i := fun i hi =>
    rests_of_not_raises hback hsleep (Nat.lt_of_lt_of_le hi hk) fun j hj => hfails j (by omega)
  obtain ⟨used, rest, hrun⟩ := run_deliver (p := p) env hk hrests hfails
  have hturn : ((afterFailures config p w k).turn 0).result = .ok () :=
    succeeds_iff.1 (hfirst.1 : (w.turn k).Succeeds)
  have hattempt := run_tryDelivery p env (afterFailures config p w k)
  rw [hturn] at hattempt
  rw [run_tryEach_ok hattempt] at hrun
  exact ⟨used, _, hrun, actions_posted_afterFailures p w k⟩

/-- A delivery of which no attempt succeeds makes all POSTs that it may, and raises what the last
one did. -/
theorem run_deliver_failure {p : TurnPost} {w : TurnDelivery} (env : ℕ → Reading)
    (hback : ¬ BackoffRaises config w) (hsleep : ¬ SleepRaises config w)
    (hfails : ∀ i ≤ config.max_retries, ¬ (w.turn i).Succeeds) :
    ∃ e used w', (w.turn config.max_retries).result = .error e ∧
      (deliver config p).run env w = ⟨.error e, used, w'⟩ ∧
      w'.actions = w.actions ++
        alternating (.post p w.message_cache.inbounds) (delays config w config.max_retries) := by
  have hrests : ∀ i < config.max_retries, Rests config w i := fun i hi =>
    rests_of_not_raises hback hsleep hi fun j hj => hfails j (by omega)
  obtain ⟨used, rest, hrun⟩ := run_deliver (p := p) env (Nat.le_refl _) hrests
    fun i hi => hfails i (Nat.le_of_lt hi)
  obtain ⟨e, he⟩ := exists_failure (hfails _ (Nat.le_refl _))
  have hattempt := run_tryDelivery p env (afterFailures config p w config.max_retries)
  have hturn : (afterFailures config p w config.max_retries).turn 0 =
      w.turn config.max_retries := rfl
  rw [hturn, he] at hattempt
  -- The last attempt has no delay after it.
  have hlast := run_deliveryFailed_last (Nat.lt_irrefl config.max_retries) e (later env 0)
    ((afterFailures config p w config.max_retries).posted p)
  rw [run_tryEach_raise hattempt hlast] at hrun
  exact ⟨e, used, _, he, hrun, actions_posted_afterFailures p w config.max_retries⟩

/-- Where a delay is refused, there is no further attempt. -/
theorem run_deliver_refused {p : TurnPost} {w : TurnDelivery} {i : ℕ} (env : ℕ → Reading)
    (hi : i < config.max_retries) (hfails : ∀ j ≤ i, ¬ (w.turn j).Succeeds)
    (hrests : ∀ j < i, Rests config w j) (hnot : ¬ Rests config w i) :
    ∃ e used w', (deliver config p).run env w = ⟨.error e, used, w'⟩ ∧
      w'.actions =
        w.actions ++ alternating (.post p w.message_cache.inbounds) (delays config w i) := by
  obtain ⟨used, rest, hrun⟩ := run_deliver (p := p) env hi.le hrests fun j hj => hfails j hj.le
  obtain ⟨e, he⟩ := exists_failure (hfails i le_rfl)
  have hattempt := run_tryDelivery p env (afterFailures config p w i)
  have hturn : (afterFailures config p w i).turn 0 = w.turn i := rfl
  rw [hturn, he] at hattempt
  obtain ⟨e', w', hraise, hactions⟩ := run_deliveryFailed_raises hi
    (w := (afterFailures config p w i).posted p) hnot e (later env 0)
  rw [run_tryEach_raise hattempt hraise] at hrun
  refine ⟨e', used, w', hrun, ?_⟩
  rw [hactions, actions_posted_afterFailures]

/-! ## The whole delivery -/

/-- The worker after the message was stored. -/
def stored (message : Message) (env : ℕ → Reading) (w : TurnDelivery) : TurnDelivery :=
  { w with
    message_cache :=
      { w.message_cache with
        inbounds := ((TimeoutDict.setitem message.message_id message).run env
          w.message_cache.inbounds).state } }

/-- A message that was stored is in the cache, with the time of the clock. -/
theorem get?_stored (message : Message) (env : ℕ → Reading) (w : TurnDelivery) :
    (stored message env w).message_cache.inbounds.data.get? message.message_id =
      some ((env 1).time, message) := by
  unfold stored
  rw [TimeoutDict.run_setitem]
  exact Dict.get?_set_self _ _ _

/-- Storing the message changes nothing of the attempts. -/
theorem backoffRaises_stored {message : Message} {env : ℕ → Reading} {w : TurnDelivery} :
    BackoffRaises config (stored message env w) ↔ BackoffRaises config w := by
  constructor
  · exact fun h => ⟨h.base, h.exponent, h.retries, h.first, h.second⟩
  · exact fun h => ⟨h.base, h.exponent, h.retries, h.first, h.second⟩

/-- What `handle_inbound_message` makes of the result of its loop. -/
def reported : Except PyExc Unit → Except PyExc Unit
  | .error .tooSlowError => .error (.apiError "TimeoutError" [])
  | r => r

/-- The loop starts from a worker that has stored the message, and what it does stays done. -/
theorem run_handleInboundMessage {message : Message} {env : ℕ → Reading} {w w' : TurnDelivery}
    {r : Except PyExc Unit} {used : ℕ}
    (h : (deliver config (inboundPost config message)).run (later env 2) (stored message env w) =
      ⟨r, used, w'⟩) :
    (handleInboundMessage config message).run env w = ⟨reported r, 2 + used, w'⟩ := by
  have hstore : (onMessageCache (MemoryMessageCache.storeInbound message)).run env w =
      ⟨.ok (), 2, stored message env w⟩ := by
    unfold onMessageCache MemoryMessageCache.storeInbound MemoryMessageCache.onInbounds stored
    rw [run_on, run_on, TimeoutDict.run_setitem]
  unfold handleInboundMessage
  rw [run_bind_ok hstore, run_catching, h]
  cases r with
  | ok u => rfl
  | error e => cases e <;> rfl

/-- Nor of the sleeps. -/
theorem sleepRaises_stored {message : Message} {env : ℕ → Reading} {w : TurnDelivery} :
    SleepRaises config (stored message env w) ↔ SleepRaises config w := Iff.rfl

/-- Only a `TooSlowError` is reported as another exception. -/
theorem reported_of_ne {e : PyExc} (h : e ≠ .tooSlowError) : reported (.error e) = .error e := by
  cases e with
  | tooSlowError => exact absurd rfl h
  | _ => rfl

/-- An outcome that raises a `TooSlowError` is no response. -/
theorem eq_raises_of_result {o : PostOutcome} (h : o.result = .error .tooSlowError) :
    o = .raises .tooSlowError := by
  cases o with
  | response status_code =>
    unfold PostOutcome.result at h
    dsimp only at h
    split_ifs at h
    cases h
  | raises e => exact congrArg PostOutcome.raises (Except.error.inj h)

/-- Where a delay is refused, an attempt is missing. -/
theorem not_deliversExactly_of_refused {message : Message} {env : ℕ → Reading} {w : TurnDelivery}
    (h : BackoffRaises config w ∨ SleepRaises config w) :
    ¬ DeliversExactly config message env w ((handleInboundMessage config message).run env w) := by
  obtain ⟨i, hi, hfails, hrests, hnot⟩ := exists_first_refused h
  obtain ⟨e, used, w', hrun, hactions⟩ := run_deliver_refused (p := inboundPost config message)
    (w := stored message env w) (later env 2) hi hfails hrests hnot
  rw [run_handleInboundMessage hrun]
  rintro ⟨inbounds, delays', -, hactions', hfirst, hnone, -, -⟩
  -- There is a delay for each attempt before, but there should be one more.
  have hcount : delays'.length = i := by
    have hlength := congrArg List.length (hactions.symm.trans hactions')
    rw [List.length_append, List.length_append, length_alternating, length_alternating,
      length_delays] at hlength
    have hsame : (stored message env w).actions = w.actions := rfl
    rw [hsame] at hlength
    omega
  by_cases hex : ∃ k, w.FirstSuccess k
  · obtain ⟨k, hk⟩ := hex
    have hlate : i < k := by
      by_contra hle
      exact hfails k (by omega) hk.1
    have hcount' := hfirst k hk
    have hmin : i + 2 ≤ min (k + 1) (config.max_retries + 1) := le_min (by omega) (by omega)
    omega
  · have hall : ∀ j, ¬ (w.turn j).Succeeds := by
      intro j
      rcases firstSuccess_or_fails w j with ⟨k, -, hk⟩ | hfails'
      · exact absurd ⟨k, hk⟩ hex
      · exact hfails' j (Nat.le_refl j)
    have hcount' := hnone hall
    omega

/-- If the last attempt raises a `TooSlowError` of its own, a `TimeoutError` takes its place. -/
theorem not_deliversExactly_of_lastTooSlow {message : Message} {env : ℕ → Reading}
    {w : TurnDelivery} (hback : ¬ BackoffRaises config w) (hsleep : ¬ SleepRaises config w)
    (h : LastTooSlow config w) :
    ¬ DeliversExactly config message env w ((handleInboundMessage config message).run env w) := by
  intro hexact
  have htooSlow : (w.turn config.max_retries).result = .error .tooSlowError := by
    rw [h.last]
    rfl
  -- The last attempt fails as the others do, with an exception of its own.
  have hfails : ∀ i ≤ config.max_retries, ¬ (w.turn i).Succeeds := by
    intro i hi
    rcases Nat.lt_or_eq_of_le hi with hlt | rfl
    · exact h.fails i hlt
    · rw [succeeds_iff, htooSlow]
      exact nofun
  obtain ⟨e, used, w', he, hrun, -⟩ := run_deliver_failure
    (p := inboundPost config message) (w := stored message env w) (later env 2)
    (mt backoffRaises_stored.1 hback) (mt sleepRaises_stored.1 hsleep) hfails
  rw [run_handleInboundMessage hrun] at hexact
  obtain ⟨-, -, -, -, -, -, -, hraises⟩ := hexact
  -- The exception that leaves is not the one of the attempt.
  obtain ⟨e', he', hresult⟩ := hraises (no_firstSuccess_of_fails hfails)
  obtain rfl := Except.error.inj (he.symm.trans htooSlow)
  obtain rfl := Except.error.inj (he'.symm.trans htooSlow)
  cases hresult

/-- A delivery that succeeds is exact. -/
theorem deliversExactly_of_firstSuccess {message : Message} {env : ℕ → Reading} {w : TurnDelivery}
    {k : ℕ} (hback : ¬ BackoffRaises config w) (hsleep : ¬ SleepRaises config w)
    (hk : k ≤ config.max_retries) (hfirst : w.FirstSuccess k) :
    DeliversExactly config message env w ((handleInboundMessage config message).run env w) := by
  obtain ⟨used, w', hrun, hactions⟩ := run_deliver_success
    (p := inboundPost config message) (w := stored message env w) (later env 2)
    (mt backoffRaises_stored.1 hback) (mt sleepRaises_stored.1 hsleep) hk hfirst
  rw [run_handleInboundMessage hrun]
  refine ⟨_, _, get?_stored message env w, hactions, fun k' hk' => ?_, fun hnone => ?_,
    iff_of_true rfl ⟨k, hk, hfirst⟩, fun hnone => absurd ⟨k, hk, hfirst⟩ hnone⟩
  · obtain rfl := firstSuccess_unique hk' hfirst
    rw [length_delays]
    omega
  · exact absurd hfirst.1 (hnone k)

/-- So is one that gives up, unless its last error is taken for the deadline. -/
theorem deliversExactly_of_fails {message : Message} {env : ℕ → Reading} {w : TurnDelivery}
    (hback : ¬ BackoffRaises config w) (hsleep : ¬ SleepRaises config w)
    (hlast : ¬ LastTooSlow config w)
    (hfails : ∀ i ≤ config.max_retries, ¬ (w.turn i).Succeeds) :
    DeliversExactly config message env w ((handleInboundMessage config message).run env w) := by
  obtain ⟨e, used, w', he, hrun, hactions⟩ := run_deliver_failure
    (p := inboundPost config message) (w := stored message env w) (later env 2)
    (mt backoffRaises_stored.1 hback) (mt sleepRaises_stored.1 hsleep) hfails
  have hne : e ≠ .tooSlowError := by
    rintro rfl
    exact hlast ⟨fun i hi => hfails i (Nat.le_of_lt hi), eq_raises_of_result he⟩
  have hnone := no_firstSuccess_of_fails hfails
  rw [run_handleInboundMessage hrun, reported_of_ne hne]
  refine ⟨_, _, get?_stored message env w, hactions, fun k hk => ?_, fun _ => ?_,
    iff_of_false nofun hnone, fun _ => ⟨e, he, rfl⟩⟩
  · have hlate : config.max_retries < k := by
      by_contra hle
      exact hnone ⟨k, by omega, hk⟩
    rw [length_delays]
    omega
  · rw [length_delays]

/-- A delivery is exact unless a delay is refused, which is drawn below zero or too long to sleep,
or the last attempt raises a `TooSlowError` of its own. -/
theorem deliversExactly_iff (config : TurnDeliveryConfig) (message : Message) (env : ℕ → Reading)
    (w : TurnDelivery) :
    DeliversExactly config message env w ((handleInboundMessage config message).run env w) ↔
      ¬ BackoffRaises config w ∧ ¬ SleepRaises config w ∧ ¬ LastTooSlow config w := by
  constructor
  · intro hexact
    have hback : ¬ BackoffRaises config w := fun h =>
      not_deliversExactly_of_refused (.inl h) hexact
    have hsleep : ¬ SleepRaises config w := fun h =>
      not_deliversExactly_of_refused (.inr h) hexact
    exact ⟨hback, hsleep, fun h => not_deliversExactly_of_lastTooSlow hback hsleep h hexact⟩
  · rintro ⟨hback, hsleep, hlast⟩
    rcases firstSuccess_or_fails w config.max_retries with ⟨k, hk, hfirst⟩ | hfails
    · exact deliversExactly_of_firstSuccess hback hsleep hk hfirst
    · exact deliversExactly_of_fails hback hsleep hlast hfails

/-- A configuration with a base of zero, and the default for all else. -/
def zeroBaseConfig : TurnDeliveryConfig where
  connector_name := str "turn"
  turn_api_url := str "http://localhost"
  auth_token := str "token"
  transport_type := .sms
  default_from_addr := str "12345"
  turn_hmac_secret := str "secret"
  retry_delay_base := 0

/-- `trio.sleep` adds the delay to a float, which not every delay fits in. -/
def floatSleep (delay : ℕ) : Except PyExc Unit :=
  if delay < 2 ^ 1024 - 2 ^ 970 then .ok () else .error (.external "OverflowError" [])

/-- With a base of zero, two responses that are no success end the delivery with a `ValueError`. -/
theorem zeroBaseConfig_not_deliversExactly :
    ¬ DeliversExactly zeroBaseConfig
      (Message.create (str "12345") (str "+27820001001") (str "turn") .sms
        ⟨0, str "m", DateTime.min⟩)
      (fun _ => ⟨0, [], DateTime.min⟩) ⟨.new 86400, [], [], fun _ => .response 500, id, floatSleep⟩
      ((handleInboundMessage zeroBaseConfig
        (Message.create (str "12345") (str "+27820001001") (str "turn") .sms
          ⟨0, str "m", DateTime.min⟩)).run
        (fun _ => ⟨0, [], DateTime.min⟩)
        ⟨.new 86400, [], [], fun _ => .response 500, id, floatSleep⟩) := by
  have hfails : ¬ (PostOutcome.response 500).Succeeds := by
    rw [succeeds_iff]
    exact nofun
  exact not_deliversExactly_of_refused (.inl ⟨rfl, by decide, by decide, hfails, hfails⟩)

end TurnDelivery

end Vumi2
