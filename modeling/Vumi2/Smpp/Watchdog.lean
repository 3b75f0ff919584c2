import Mathlib.Data.Rat.Cast.Order
import Mathlib.Tactic.Linarith
import Vumi2.Lib.Machine
import Vumi2.Smpp.Requests

/-!
# The watch over the link

`start` binds, and then starts `enquire_link`, which goes on for as long as the client does: it
enquires, waits for the answer, and sleeps until an interval has passed since it began with this
enquiry. Both waits for an answer are in a scope that is cancelled at its deadline.

A machine with a clock: an action is what the task does when it comes to run, or what happens to it
while it waits, and has the time at which that is. A task does not come to run by itself when its
deadline is over. How late the event loop is with that is a parameter of the results (`Timely`).

Times are exact: a deadline is the time plus the interval, where `trio` adds floats and rounds the
sum.
-/

namespace Vumi2.Smpp

open Text

/-- The part of `SmppTransceiverTransportConfig` that is about time. -/
structure LinkConfig where
  smpp_bind_timeout : ℕ
  smpp_enquire_link_interval : ℕ

/-- The defaults. -/
def LinkConfig.default : LinkConfig where
  smpp_bind_timeout := 30
  smpp_enquire_link_interval := 55

/-- What ends the watch. -/
inductive LinkFailure where
  | bindTimeout
  | enquireLinkTimeout
  /-- What `send_pdu` raises for a response. -/
  | response (e : PyExc)
deriving DecidableEq

/-- How far the task is. -/
inductive WatchPhase where
  /-- `bind` waits for its response. -/
  | binding (scope : ℚ)
  /-- `enquire_link` was started at this time. -/
  | starting (since : ℚ)
  /-- `enquire_link` waits for its response. -/
  | enquiring (deadline scope : ℚ)
  /-- It has come to `sleep_until(deadline)` at this time. -/
  | sleeping (deadline since : ℚ)
  | raised (failure : LinkFailure)
deriving DecidableEq

/-- An enquiry. -/
structure Enquiry where
  seqNum : ℕ
  /-- When the loop read the clock for its deadline. -/
  started : ℚ
  /-- When it entered the scope. -/
  sent : ℚ
deriving DecidableEq

/-- The task that binds and watches the link. -/
structure Watchdog where
  phase : WatchPhase
  now : ℚ
  /-- When the responses to `bind` and the enquiries came, the last one first. -/
  answers : List ℚ
  /-- The enquiries, the last one first. -/
  enquiries : List Enquiry
deriving DecidableEq

/-- What happens to the task, and when. -/
inductive WatchAction where
  /-- `send_pdu` gets a response. -/
  | respond (pdu : ResponsePDU) (t : ℚ)
  /-- `enquire_link` starts with an enquiry, and comes to send it, with the number that it was
  given. -/
  | enquire (seqNum : ℕ) (t sent : ℚ)
  /-- The scope is cancelled. -/
  | expire (t : ℚ)
  /-- Nothing happens until then. -/
  | pass (t : ℚ)

/-- When an action is over. -/
def WatchAction.time : WatchAction → ℚ
  | .respond _ t => t
  | .enquire _ _ sent => sent
  | .expire t => t
  | .pass t => t

namespace Watchdog

variable (config : LinkConfig)

/-- `start` calls `bind` at this time. -/
def start (t : ℚ) : Watchdog where
  phase := .binding (t + config.smpp_bind_timeout)
  now := t
  answers := []
  enquiries := []

/-- `send_pdu` gets its response. -/
def getResponse (s : Watchdog) (requireAck : ResponseClass) (next : WatchPhase) (pdu : ResponsePDU)
    (t : ℚ) : Watchdog :=
  match checkResponse requireAck true pdu with
  | .error e => { s with phase := .raised (.response e), now := t }
  | .ok _ => { s with phase := next, now := t, answers := t :: s.answers }

/-- The body of the loop of `enquire_link`, up to its first wait. -/
def sendEnquiry (s : Watchdog) (seqNum : ℕ) (t sent : ℚ) : Watchdog :=
  { s with
    phase := .enquiring (t + config.smpp_enquire_link_interval)
      (sent + config.smpp_enquire_link_interval)
    now := sent
    enquiries := ⟨seqNum, t, sent⟩ :: s.enquiries }

/-- The state after an action. -/
def step (s : Watchdog) : WatchAction → Option Watchdog
  | .respond pdu t =>
    if s.now ≤ t then
      match s.phase with
      | .binding _ => some (s.getResponse .bind_transceiver_resp (.starting t) pdu t)
      | .enquiring deadline _ =>
        some (s.getResponse .enquire_link_resp (.sleeping deadline t) pdu t)
      | _ => none
    else none
  | .enquire seqNum t sent =>
    if s.now ≤ t ∧ t ≤ sent then
      match s.phase with
      | .starting _ => some (s.sendEnquiry config seqNum t sent)
      | .sleeping deadline _ =>
        if deadline ≤ t then some (s.sendEnquiry config seqNum t sent) else none
      | _ => none
    else none
  | .expire t =>
    -- A cancel scope ends what is awaited in it, and nothing else.
    if s.now ≤ t then
      match s.phase with
      | .binding scope =>
        if scope ≤ t then some { s with phase := .raised .bindTimeout, now := t } else none
      | .enquiring _ scope =>
        if scope ≤ t then some { s with phase := .raised .enquireLinkTimeout, now := t } else none
      | _ => none
    else none
  | .pass t => if s.now ≤ t then some { s with now := t } else none

/-- When the task is to come to run, if nothing comes before. -/
def due (s : Watchdog) : Option ℚ :=
  match s.phase with
  | .binding scope => some scope
  | .starting since => some since
  | .enquiring _ scope => some scope
  | .sleeping deadline since => some (max deadline since)
  | .raised _ => none

/-- The event loop lets it run at most `lag` later. -/
def Timely (lag : ℚ) (s : Watchdog) (a : WatchAction) : Prop :=
  ∀ due, s.due = some due → a.time ≤ due + lag

instance (lag : ℚ) (s : Watchdog) (a : WatchAction) : Decidable (s.Timely lag a) :=
  inferInstanceAs (Decidable (∀ due ∈ s.due, a.time ≤ due + lag))

/-- Where the times of a phase come from. -/
def Awaits (lag t₀ : ℚ) (s : Watchdog) : Prop :=
  match s.phase with
  | .binding scope =>
    scope = t₀ + config.smpp_bind_timeout ∧ s.answers = [] ∧ s.enquiries = []
  | .starting since => s.answers = [since] ∧ s.enquiries = []
  | .enquiring deadline scope =>
    ∃ answer answers enquiry enquiries, s.answers = answer :: answers ∧
      s.enquiries = enquiry :: enquiries ∧ answers.length = enquiries.length ∧
      deadline = enquiry.started + config.smpp_enquire_link_interval ∧
      scope = enquiry.sent + config.smpp_enquire_link_interval ∧
      (∀ t ∈ s.answers, t ≤ enquiry.started) ∧ enquiry.started ≤ enquiry.sent ∧
      enquiry.sent ≤ s.now ∧ enquiry.sent ≤ answer + config.smpp_enquire_link_interval + lag
  | .sleeping deadline since =>
    ∃ answers enquiry enquiries, s.answers = since :: answers ∧
      s.enquiries = enquiry :: enquiries ∧ answers.length = s.enquiries.length ∧
      deadline = enquiry.started + config.smpp_enquire_link_interval ∧ enquiry.started ≤ since
  | .raised .bindTimeout =>
    s.answers = [] ∧ s.enquiries = [] ∧ t₀ + config.smpp_bind_timeout ≤ s.now
  | .raised .enquireLinkTimeout =>
    s.enquiries.length = s.answers.length ∧
      ∃ enquiry enquiries, s.enquiries = enquiry :: enquiries ∧
      (∀ t ∈ s.answers, t ≤ enquiry.sent) ∧
      enquiry.sent + config.smpp_enquire_link_interval ≤ s.now
  | .raised (.response _) => s.enquiries.length ≤ s.answers.length

/-- The invariant of timely runs. -/
structure Watched (lag t₀ : ℚ) (s : Watchdog) : Prop where
  awaits : s.Awaits config lag t₀
  inTime : ∀ due, s.due = some due → s.now ≤ due + lag
  answered : ∀ t ∈ s.answers, t ≤ s.now
  paced : s.enquiries.IsChain (fun later earlier : Enquiry =>
    earlier.started + config.smpp_enquire_link_interval ≤ later.started)

variable {config} {lag t₀ t : ℚ} {s s' : Watchdog}

/-- A link that was just bound is watched. -/
theorem watched_start (hlag : 0 ≤ lag) : (start config t₀).Watched config lag t₀ where
  awaits := ⟨rfl, rfl, rfl⟩
  inTime := by
    intro due hdue
    obtain rfl := Option.some.inj hdue
    have htimeout : (0 : ℚ) ≤ config.smpp_bind_timeout := Nat.cast_nonneg _
    change t₀ ≤ t₀ + config.smpp_bind_timeout + lag
    linarith
  answered := fun t ht => absurd ht List.not_mem_nil
  paced := List.IsChain.nil

/-- What is known in a phase. -/
theorem Watched.awaitsIn (h : s.Watched config lag t₀) {phase : WatchPhase}
    (hphase : s.phase = phase) :
    ({ s with phase := phase } : Watchdog).Awaits config lag t₀ := by
  subst hphase
  exact h.awaits

/-- Time passes. -/
theorem Watched.pass (h : s.Watched config lag t₀) (hnow : s.now ≤ t)
    (hinTime : ∀ due, s.due = some due → t ≤ due + lag) :
    ({ s with now := t } : Watchdog).Watched config lag t₀ where
  awaits := by
    have hawaits := h.awaits
    unfold Awaits at hawaits ⊢
    dsimp only at hawaits ⊢
    -- Of the phases, an enquiry and the two failures say something about the present.
    split at hawaits
    · exact hawaits
    · exact hawaits
    · obtain ⟨answer, answers, enquiry, enquiries, hanswers, henquiries, hlength, hdeadline, hscope,
        horder, hstarted, hsent, hbound⟩ := hawaits
      exact ⟨answer, answers, enquiry, enquiries, hanswers, henquiries, hlength, hdeadline, hscope,
        horder, hstarted, hsent.trans hnow, hbound⟩
    · exact hawaits
    · exact ⟨hawaits.1, hawaits.2.1, hawaits.2.2.trans hnow⟩
    · obtain ⟨hlength, enquiry, enquiries, henquiries, horder, hexpired⟩ := hawaits
      exact ⟨hlength, enquiry, enquiries, henquiries, horder, hexpired.trans hnow⟩
    · exact hawaits
  inTime := hinTime
  answered := fun a ha => (h.answered a ha).trans hnow
  paced := h.paced

/-- A response comes, and it ends the watch or is an answer. -/
theorem Watched.getResponse (h : s.Watched config lag t₀) (hnow : s.now ≤ t)
    (hlength : s.enquiries.length ≤ s.answers.length) {next : WatchPhase}
    (hawaits : ({ s with phase := next, now := t, answers := t :: s.answers } : Watchdog).Awaits
      config lag t₀)
    (hinTime : ∀ due, ({ s with phase := next } : Watchdog).due = some due → t ≤ due + lag)
    (requireAck : ResponseClass) (pdu : ResponsePDU) :
    (s.getResponse requireAck next pdu t).Watched config lag t₀ := by
  unfold Watchdog.getResponse
  -- A response of another class, or with another status than OK, raises.
  split
  · refine ⟨hlength, ?_, fun a ha => (h.answered a ha).trans hnow, h.paced⟩
    intro due hdue
    cases hdue
  · refine ⟨hawaits, hinTime, fun a ha => ?_, h.paced⟩
    obtain rfl | ha := List.mem_cons.1 ha
    · exact le_rfl
    · exact (h.answered a ha).trans hnow

/-- The answer to `bind`. -/
theorem Watched.bound (h : s.Watched config lag t₀) (hlag : 0 ≤ lag) {scope : ℚ}
    (hphase : s.phase = .binding scope) (hnow : s.now ≤ t) (pdu : ResponsePDU) :
    (s.getResponse .bind_transceiver_resp (.starting t) pdu t).Watched config lag t₀ := by
  obtain ⟨-, hanswers, henquiries⟩ := h.awaitsIn hphase
  apply h.getResponse hnow
  · rw [henquiries]
    exact Nat.zero_le _
  · exact ⟨by rw [hanswers], henquiries⟩
  · intro due hdue
    obtain rfl := Option.some.inj hdue
    linarith

/-- The answer to an enquiry. -/
theorem Watched.enquiryAnswered (h : s.Watched config lag t₀) (hlag : 0 ≤ lag) {deadline scope : ℚ}
    (hphase : s.phase = .enquiring deadline scope) (hnow : s.now ≤ t) (pdu : ResponsePDU) :
    (s.getResponse .enquire_link_resp (.sleeping deadline t) pdu t).Watched config lag t₀ := by
  obtain ⟨answer, answers, enquiry, enquiries, hanswers, henquiries, hlength,
    hdeadline, -, -, horder, hsent, -⟩ := h.awaitsIn hphase
  have hlengths : s.answers.length = s.enquiries.length := by
    rw [hanswers, henquiries, List.length_cons, List.length_cons, hlength]
  apply h.getResponse hnow hlengths.ge
  · exact ⟨s.answers, enquiry, enquiries, rfl, henquiries, hlengths, hdeadline,
      (horder.trans hsent).trans hnow⟩
  · intro due hdue
    obtain rfl := Option.some.inj hdue
    have hmax : t ≤ max deadline t := le_max_right deadline t
    linarith

/-- The first enquiry. -/
theorem Watched.firstEnquiry (h : s.Watched config lag t₀) (hlag : 0 ≤ lag) {since sent : ℚ}
    (hphase : s.phase = .starting since) (hnow : s.now ≤ t) (ht : t ≤ sent)
    (hinTime : sent ≤ since + lag) (seqNum : ℕ) :
    (s.sendEnquiry config seqNum t sent).Watched config lag t₀ := by
  have hinterval : (0 : ℚ) ≤ config.smpp_enquire_link_interval := Nat.cast_nonneg _
  obtain ⟨hanswers, henquiries⟩ := h.awaitsIn hphase
  constructor
  · refine ⟨since, [], ⟨seqNum, t, sent⟩, s.enquiries, hanswers, rfl,
      congrArg List.length henquiries.symm, rfl, rfl, fun a ha => (h.answered a ha).trans hnow, ht,
      le_rfl, ?_⟩
    change sent ≤ since + config.smpp_enquire_link_interval + lag
    linarith
  · intro due hdue
    obtain rfl := Option.some.inj hdue
    change sent ≤ sent + config.smpp_enquire_link_interval + lag
    linarith
  · exact fun a ha => ((h.answered a ha).trans hnow).trans ht
  · change List.IsChain _ (_ :: s.enquiries)
    rw [henquiries]
    exact List.IsChain.singleton _

/-- The deadline for the next enquiry is an interval after the start of one that was answered
since. -/
theorem Watched.wake_le (h : s.Watched config lag t₀) {deadline since : ℚ}
    (hphase : s.phase = .sleeping deadline since) :
    max deadline since ≤ since + config.smpp_enquire_link_interval := by
  have hinterval : (0 : ℚ) ≤ config.smpp_enquire_link_interval := Nat.cast_nonneg _
  obtain ⟨answers, enquiry, enquiries, -, -, -, hdeadline, hstarted⟩ := h.awaitsIn hphase
  apply max_le
  · calc deadline
        _ = enquiry.started + config.smpp_enquire_link_interval := hdeadline
        _ ≤ since + config.smpp_enquire_link_interval := by linarith
  · linarith

/-- Each further one. -/
theorem Watched.nextEnquiry (h : s.Watched config lag t₀) (hlag : 0 ≤ lag)
    {deadline since sent : ℚ} (hphase : s.phase = .sleeping deadline since) (hnow : s.now ≤ t)
    (ht : t ≤ sent) (hdue : deadline ≤ t) (hinTime : sent ≤ max deadline since + lag) (seqNum : ℕ) :
    (s.sendEnquiry config seqNum t sent).Watched config lag t₀ := by
  have hinterval : (0 : ℚ) ≤ config.smpp_enquire_link_interval := Nat.cast_nonneg _
  obtain ⟨answers, enquiry, enquiries, hanswers, henquiries, hlength, hdeadline, hstarted⟩ :=
    h.awaitsIn hphase
  constructor
  · refine ⟨since, answers, ⟨seqNum, t, sent⟩, s.enquiries, hanswers, rfl, hlength, rfl, rfl,
      fun a ha => (h.answered a ha).trans hnow, ht, le_rfl, ?_⟩
    have hwake := h.wake_le hphase
    change sent ≤ since + config.smpp_enquire_link_interval + lag
    linarith
  · -- The next enquiry is due one interval after it was sent.
    intro due hdue
    obtain rfl := Option.some.inj hdue
    change sent ≤ sent + config.smpp_enquire_link_interval + lag
    linarith
  · exact fun a ha => ((h.answered a ha).trans hnow).trans ht
  · -- The one before was sent an interval ago, since the wait has a deadline.
    change List.IsChain _ (_ :: s.enquiries)
    have hpaced := h.paced
    rw [henquiries] at hpaced ⊢
    refine List.isChain_cons_cons.2 ⟨?_, hpaced⟩
    change enquiry.started + config.smpp_enquire_link_interval ≤ t
    linarith

/-- The deadline of a scope is over. -/
theorem Watched.expired (h : s.Watched config lag t₀) (hnow : s.now ≤ t) {scope : ℚ}
    (hscope : scope ≤ t) :
    (s.phase = .binding scope →
      ({ s with phase := .raised .bindTimeout, now := t } : Watchdog).Watched config lag t₀) ∧
    ∀ deadline, s.phase = .enquiring deadline scope →
      ({ s with phase := .raised .enquireLinkTimeout, now := t } : Watchdog).Watched
        config lag t₀ := by
  constructor
  · intro hphase
    obtain ⟨rfl, hanswers, henquiries⟩ := h.awaitsIn hphase
    refine ⟨⟨hanswers, henquiries, hscope⟩, ?_, fun a ha => (h.answered a ha).trans hnow, h.paced⟩
    intro due hdue
    cases hdue
  · intro deadline hphase
    obtain ⟨answer, answers, enquiry, enquiries, hanswers, henquiries, hlength, -, rfl,
      horder, hsent, -, -⟩ := h.awaitsIn hphase
    -- There is one enquiry without an answer, and so as many enquiries as answers.
    have hlengths : s.enquiries.length = s.answers.length := by
      rw [hanswers, henquiries, List.length_cons, List.length_cons, hlength]
    refine ⟨⟨hlengths, enquiry, enquiries, henquiries,
      fun a ha => (horder a ha).trans hsent, hscope⟩,
      ?_, fun a ha => (h.answered a ha).trans hnow, h.paced⟩
    intro due hdue
    cases hdue

/-- Every timely step keeps the invariant. -/
theorem Watched.step (hlag : 0 ≤ lag) (h : s.Watched config lag t₀) {a : WatchAction}
    (htimely : s.Timely lag a) (hstep : s.step config a = some s') : s'.Watched config lag t₀ := by
  cases a with
  | respond pdu t =>
    unfold Watchdog.step at hstep
    dsimp only at hstep
    split_ifs at hstep with hnow
    -- Only `bind` and `enquire_link` wait for a response.
    split at hstep
    · rename_i scope hphase
      obtain rfl := Option.some.inj hstep
      exact h.bound hlag hphase hnow pdu
    · rename_i deadline scope hphase
      obtain rfl := Option.some.inj hstep
      exact h.enquiryAnswered hlag hphase hnow pdu
    · cases hstep
  | enquire seqNum t sent =>
    unfold Watchdog.step at hstep
    dsimp only at hstep
    split_ifs at hstep with hnow
    -- The loop is at its start, or wakes up when its deadline is over.
    split at hstep
    · rename_i since hphase
      obtain rfl := Option.some.inj hstep
      have hinTime : sent ≤ since + lag := htimely since (by rw [due, hphase])
      exact h.firstEnquiry hlag hphase hnow.1 hnow.2 hinTime seqNum
    · rename_i deadline since hphase
      split_ifs at hstep with hdue
      obtain rfl := Option.some.inj hstep
      have hinTime : sent ≤ max deadline since + lag := htimely _ (by rw [due, hphase])
      exact h.nextEnquiry hlag hphase hnow.1 hnow.2 hdue hinTime seqNum
    · cases hstep
  | expire t =>
    unfold Watchdog.step at hstep
    dsimp only at hstep
    split_ifs at hstep with hnow
    split at hstep
    · rename_i scope hphase
      split_ifs at hstep with hscope
      obtain rfl := Option.some.inj hstep
      exact (h.expired hnow hscope).1 hphase
    · rename_i deadline scope hphase
      split_ifs at hstep with hscope
      obtain rfl := Option.some.inj hstep
      exact (h.expired hnow hscope).2 deadline hphase
    · cases hstep
  | pass t =>
    unfold Watchdog.step at hstep
    dsimp only at hstep
    split_ifs at hstep with hnow
    obtain rfl := Option.some.inj hstep
    exact h.pass hnow htimely

/-- While the watch goes on, the time is bounded by the last answer. -/
theorem Watched.now_le (hlag : 0 ≤ lag) (h : s.Watched config lag t₀)
    (hon : ∀ failure, s.phase ≠ .raised failure) :
    (s.answers = [] ∧ s.now ≤ t₀ + config.smpp_bind_timeout + lag) ∨
      ∃ answer, s.answers.head? = some answer ∧
        s.now ≤ answer + 2 * config.smpp_enquire_link_interval + 2 * lag := by
  have hinterval : (0 : ℚ) ≤ config.smpp_enquire_link_interval := Nat.cast_nonneg _
  have hinTime := h.inTime
  unfold due at hinTime
  -- How long a phase may last, after the answer that the client had last.
  cases hphase : s.phase with
  | binding scope =>
    rw [hphase] at hinTime
    obtain ⟨rfl, hanswers, -⟩ := h.awaitsIn hphase
    exact .inl ⟨hanswers, hinTime _ rfl⟩
  | starting since =>
    rw [hphase] at hinTime
    refine .inr ⟨since, by rw [(h.awaitsIn hphase).1]; rfl, ?_⟩
    have hnow := hinTime _ rfl
    linarith
  | enquiring deadline scope =>
    rw [hphase] at hinTime
    obtain ⟨answer, answers, enquiry, enquiries, hanswers, -, -, -, rfl, -, -, -, hsent⟩ :=
      h.awaitsIn hphase
    refine .inr ⟨answer, by rw [hanswers]; rfl, ?_⟩
    have hnow := hinTime _ rfl
    linarith
  | sleeping deadline since =>
    rw [hphase] at hinTime
    obtain ⟨answers, enquiry, enquiries, hanswers, -⟩ := h.awaitsIn hphase
    refine .inr ⟨since, by rw [hanswers]; rfl, ?_⟩
    have hnow := hinTime _ rfl
    have hwake := h.wake_le hphase
    linarith
  | raised failure => exact absurd hphase (hon failure)

/-- An enquiry is not sent before the last one is answered. -/
theorem Watched.length_le (h : s.Watched config lag t₀) :
    s.enquiries.length ≤ s.answers.length := by
  have hawaits := h.awaits
  unfold Awaits at hawaits
  split at hawaits
  · rw [hawaits.2.2]
    exact Nat.zero_le _
  · rw [hawaits.2]
    exact Nat.zero_le _
  · obtain ⟨answer, answers, enquiry, enquiries, hanswers, henquiries, hlength, -⟩ := hawaits
    rw [hanswers, henquiries, List.length_cons, List.length_cons, hlength]
  · obtain ⟨answers, enquiry, enquiries, hanswers, -, hlength, -⟩ := hawaits
    rw [hanswers, List.length_cons, hlength]
    exact Nat.le_succ _
  · rw [hawaits.2.1]
    exact Nat.zero_le _
  · exact hawaits.1.le
  · exact hawaits

/-- The watch over the link, if the event loop is never later than `lag`. A client that goes on has
had an answer in the last two intervals, but for the lag, or its bind has not timed out. It does not
give up on a peer that answers within an interval, and it sends at most one enquiry in an interval,
and none before the last one is answered. -/
theorem link_watched (hlag : 0 ≤ lag) {actions : List WatchAction}
    (htimely : Machine.Meets (Watchdog.step config) (Timely lag) (start config t₀) actions)
    (hrun : Machine.run (Watchdog.step config) (start config t₀) actions = some s) :
    ((∀ failure, s.phase ≠ .raised failure) →
      (s.answers = [] ∧ s.now ≤ t₀ + config.smpp_bind_timeout + lag) ∨
        ∃ answer, s.answers.head? = some answer ∧
          s.now ≤ answer + 2 * config.smpp_enquire_link_interval + 2 * lag) ∧
    (s.phase = .raised .bindTimeout → s.answers = [] ∧ t₀ + config.smpp_bind_timeout ≤ s.now) ∧
    (s.phase = .raised .enquireLinkTimeout → ∃ enquiry, s.enquiries.head? = some enquiry ∧
      (∀ answer ∈ s.answers, answer ≤ enquiry.sent) ∧
      enquiry.sent + config.smpp_enquire_link_interval ≤ s.now) ∧
    s.enquiries.length ≤ s.answers.length ∧
    s.enquiries.IsChain (fun later earlier : Enquiry =>
      earlier.started + config.smpp_enquire_link_interval ≤ later.started) := by
  -- Each action keeps the watch, by its phase and its times.
  have hwatched : s.Watched config lag t₀ := by
    refine Machine.run_induction _ ?_ (watched_start hlag) htimely hrun
    exact fun s a s' h htimely hstep => h.step hlag htimely hstep
  refine ⟨hwatched.now_le hlag, ?_, ?_, hwatched.length_le, hwatched.paced⟩
  · intro hphase
    obtain ⟨hanswers, -, hexpired⟩ := hwatched.awaitsIn hphase
    exact ⟨hanswers, hexpired⟩
  · intro hphase
    obtain ⟨-, enquiry, enquiries, henquiries, hanswers, hexpired⟩ := hwatched.awaitsIn hphase
    exact ⟨enquiry, by rw [henquiries]; rfl, hanswers, hexpired⟩

/-- A peer that answers once, and then no more. The event loop is up to a second late. -/
def silentPeer : List WatchAction :=
  [.respond ⟨.bind_transceiver_resp, 1, .ESME_ROK⟩ 1, .enquire 2 1 1,
    .respond ⟨.enquire_link_resp, 2, .ESME_ROK⟩ 2, .pass 40, .enquire 3 56 57, .expire 113]

/-- The client gives up on it, and it had its interval. -/
theorem silentPeer_noticed : ∃ s,
    Machine.run (Watchdog.step .default) (start .default 0) silentPeer = some s ∧
      s.phase = .raised .enquireLinkTimeout ∧
      ∃ enquiry, s.enquiries.head? = some enquiry ∧
        (∀ answer ∈ s.answers, answer ≤ enquiry.sent) ∧ enquiry.sent + (55 : ℕ) ≤ s.now := by
  have hrun : Machine.run (Watchdog.step .default) (start .default 0) silentPeer =
      some ⟨.raised .enquireLinkTimeout, 113, [2, 1], [⟨3, 56, 57⟩, ⟨2, 1, 1⟩]⟩ := by
    decide +kernel
  have htimely :
      Machine.Meets (Watchdog.step .default) (Timely 1) (start .default 0) silentPeer := by
    decide +kernel
  exact ⟨_, hrun, rfl, (link_watched zero_le_one htimely hrun).2.2.1 rfl⟩

end Watchdog

end Vumi2.Smpp
