import Vumi2.JunebugMessageApi.Messages
import Vumi2.TurnChannelsApi.Messages

/-!
# Which way a reply goes

Eight fields of a reply are set from the message that it answers, and `reply` should refuse keyword
arguments for them. It refuses six of them: for want of a comma, the names `provider` and
`transport_name` are one string in its list, so these two keywords are accepted and replace what was
set (`goesBack_iff`). The applications pass neither, so their replies go back the way the message
came.
-/

namespace Vumi2

open Effect Text

namespace Message

/-- A reply has the way back of a message. -/
structure GoesBack (m reply : Message) : Prop where
  to_addr : reply.to_addr = m.from_addr
  from_addr : reply.from_addr = m.to_addr
  group : reply.group = m.group
  in_reply_to : reply.in_reply_to = some m.message_id
  provider : reply.provider = m.provider
  transport_name : reply.transport_name = m.transport_name
  transport_type : reply.transport_type = m.transport_type
  transport_metadata : reply.transport_metadata = m.transport_metadata

/-- The names of these fields. -/
def wayBack : List Str :=
  [str "to_addr", str "from_addr", str "group", str "in_reply_to", str "provider",
    str "transport_name", str "transport_type", str "transport_metadata"]

/-- A reply goes back the way the message came, and a keyword argument for one of the fields makes
`reply` raise a `TypeError`. -/
def ReplyGoesBack (m : Message) (content : Json) (session_event : Session) (kwargs : List Kwarg)
    (r : Reading) : Prop :=
  (∀ reply, m.reply content session_event kwargs r = .ok reply → m.GoesBack reply) ∧
    ((∃ kw ∈ kwargs, kw.name ∈ wayBack) →
      m.reply content session_event kwargs r = .error .typeError)

/-- A keyword argument that `reply` refuses, or the constructor after it. -/
def Kwarg.Refused (kw : Kwarg) : Prop := kw.name ∈ replyRefused ∨ ∃ name, kw = unknown name

/-- A keyword argument for the provider or for the transport. -/
def Kwarg.Reroutes : Kwarg → Prop
  | provider _ => True
  | transport_name _ => True
  | _ => False

/-- A keyword argument for one of the fields is refused, but for the two. -/
theorem Kwarg.refused_of_wayBack {kw : Kwarg} (h : kw.name ∈ wayBack) (hroute : ¬ kw.Reroutes) :
    kw.Refused := by
  cases kw with
  | unknown name => exact .inr ⟨name, rfl⟩
  | provider v => exact absurd trivial hroute
  | transport_name v => exact absurd trivial hroute
  | to_addr v | from_addr v | transport_type v | message_version v | message_type v | timestamp v
  | routing_metadata v | helper_metadata v | message_id v | in_reply_to v | transport_metadata v
  | group v | to_addr_type v | from_addr_type v =>
    have hrefused : ∀ name ∈ wayBack, name ≠ str "provider" → name ≠ str "transport_name" →
        name ∈ replyRefused := by decide
    exact .inl (hrefused _ h (by simp only [Kwarg.name]; decide)
      (by simp only [Kwarg.name]; decide))

/-- A keyword argument of neither kind is accepted, and leaves the way back alone. -/
theorem Kwarg.apply_goesBack {m reply : Message} {kw : Kwarg} (hrefused : ¬ kw.Refused)
    (hroute : ¬ kw.Reroutes) (h : m.GoesBack reply) :
    ∃ reply', kw.apply reply = .ok reply' ∧ m.GoesBack reply' := by
  have hname : kw.name ∉ replyRefused := fun hmem => hrefused (.inl hmem)
  cases kw with
  | unknown name => exact absurd (.inr ⟨name, rfl⟩) hrefused
  | provider v => exact absurd trivial hroute
  | transport_name v => exact absurd trivial hroute
  | to_addr v | from_addr v | transport_type v | in_reply_to v | transport_metadata v | group v =>
    exact absurd (by simp only [Kwarg.name]; decide) hname
  | message_version v | message_type v | timestamp v | routing_metadata v | helper_metadata v
  | message_id v | to_addr_type v | from_addr_type v =>
    exact ⟨_, rfl, ⟨h.to_addr, h.from_addr, h.group, h.in_reply_to, h.provider, h.transport_name,
      h.transport_type, h.transport_metadata⟩⟩

/-- The reply before its keyword arguments. -/
theorem goesBack_replyFields (m : Message) (content : Json) (session_event : Session)
    (r : Reading) : m.GoesBack (m.replyFields content session_event r) :=
  ⟨rfl, rfl, rfl, rfl, rfl, rfl, rfl, rfl⟩

/-- Keyword arguments that are all accepted leave the way back alone if none is of the two. -/
theorem foldlM_goesBack {m : Message} {kwargs : List Kwarg} (hrefused : ∀ kw ∈ kwargs, ¬ kw.Refused)
    (hroute : ∀ kw ∈ kwargs, ¬ kw.Reroutes) {reply : Message} (h : m.GoesBack reply) :
    ∃ reply', kwargs.foldlM Kwarg.apply reply = .ok reply' ∧ m.GoesBack reply' := by
  induction kwargs generalizing reply with
  | nil => exact ⟨reply, rfl, h⟩
  | cons kw kwargs ih =>
    obtain ⟨reply', happly, hback⟩ := Kwarg.apply_goesBack (hrefused kw List.mem_cons_self)
      (hroute kw List.mem_cons_self) h
    obtain ⟨reply'', hrest, hback'⟩ := ih (fun k hk => hrefused k (List.mem_cons_of_mem _ hk))
      (fun k hk => hroute k (List.mem_cons_of_mem _ hk)) hback
    refine ⟨reply'', ?_, hback'⟩
    rw [List.foldlM_cons, happly, ok_bind, hrest]

/-- A keyword argument is applied unless it is no field. -/
theorem Kwarg.apply_cases (kw : Kwarg) (reply : Message) :
    (∃ reply', kw.apply reply = .ok reply') ∨
      (∃ name, kw = unknown name) ∧ kw.apply reply = .error .typeError := by
  cases kw with
  | unknown name => exact .inr ⟨⟨name, rfl⟩, rfl⟩
  | to_addr v | from_addr v | transport_name v | transport_type v | message_version v
  | message_type v | timestamp v | routing_metadata v | helper_metadata v | message_id v
  | in_reply_to v | provider v | transport_metadata v | group v | to_addr_type v
  | from_addr_type v => exact .inl ⟨_, rfl⟩

/-- The constructor makes a message if all keywords are fields, and raises otherwise. -/
theorem foldlM_apply_cases (kwargs : List Kwarg) (reply : Message) :
    (∃ reply', kwargs.foldlM Kwarg.apply reply = .ok reply') ∧
        (∀ kw ∈ kwargs, ∀ name, kw ≠ .unknown name) ∨
      (∃ kw ∈ kwargs, ∃ name, kw = .unknown name) ∧
        kwargs.foldlM Kwarg.apply reply = .error .typeError := by
  induction kwargs generalizing reply with
  | nil => exact .inl ⟨⟨reply, rfl⟩, by simp⟩
  | cons kw kwargs ih =>
    rcases kw.apply_cases reply with ⟨reply', happly⟩ | ⟨hunknown, happly⟩
    · rcases ih reply' with ⟨⟨reply'', hrest⟩, hfields⟩ | ⟨⟨k, hk, hunknown⟩, hrest⟩
      · refine .inl ⟨⟨reply'', by rw [List.foldlM_cons, happly, ok_bind, hrest]⟩, ?_⟩
        refine List.forall_mem_cons.2 ⟨?_, hfields⟩
        rintro name rfl
        cases happly
      · exact .inr ⟨⟨k, List.mem_cons_of_mem _ hk, hunknown⟩,
          by rw [List.foldlM_cons, happly, ok_bind, hrest]⟩
    · exact .inr ⟨⟨kw, List.mem_cons_self, hunknown⟩,
        by rw [List.foldlM_cons, happly, error_bind]⟩

variable (m : Message) (content : Json) (session_event : Session) (r : Reading)

/-- `reply` raises a `TypeError` exactly if a keyword argument is refused. -/
theorem reply_cases (kwargs : List Kwarg) :
    (∃ reply, m.reply content session_event kwargs r = .ok reply) ∧
        (∀ kw ∈ kwargs, ¬ kw.Refused) ∨
      (∃ kw ∈ kwargs, kw.Refused) ∧
        m.reply content session_event kwargs r = .error .typeError := by
  unfold reply
  by_cases hlisted : kwargs.any (fun kw => kw.name ∈ replyRefused) = true
  · rw [if_pos hlisted]
    obtain ⟨kw, hkw, hname⟩ := List.any_eq_true.1 hlisted
    exact .inr ⟨⟨kw, hkw, .inl (of_decide_eq_true hname)⟩, rfl⟩
  · rw [if_neg hlisted]
    rcases foldlM_apply_cases kwargs (m.replyFields content session_event r) with
      ⟨hok, hfields⟩ | ⟨⟨kw, hkw, hunknown⟩, herror⟩
    · refine .inl ⟨hok, fun kw hkw hrefused => ?_⟩
      rcases hrefused with hname | ⟨name, hname⟩
      · exact hlisted (List.any_eq_true.2 ⟨kw, hkw, decide_eq_true hname⟩)
      · exact hfields kw hkw name hname
    · exact .inr ⟨⟨kw, hkw, .inr hunknown⟩, herror⟩

/-- A reply without a keyword argument for the provider or the transport goes back. -/
theorem reply_goesBack {kwargs : List Kwarg} (hroute : ∀ kw ∈ kwargs, ¬ kw.Reroutes)
    {reply : Message} (h : m.reply content session_event kwargs r = .ok reply) :
    m.GoesBack reply := by
  rcases m.reply_cases content session_event r kwargs with ⟨-, haccepted⟩ | ⟨-, herror⟩
  · obtain ⟨reply', hfold, hback⟩ := foldlM_goesBack haccepted hroute
      (m.goesBack_replyFields content session_event r)
    have hlisted : ¬ kwargs.any (fun kw => kw.name ∈ replyRefused) = true := by
      intro hany
      obtain ⟨kw, hkw, hname⟩ := List.any_eq_true.1 hany
      exact haccepted kw hkw (.inl (of_decide_eq_true hname))
    unfold Message.reply at h
    rw [if_neg hlisted, hfold] at h
    obtain rfl := Except.ok.inj h
    exact hback
  · rw [herror] at h
    cases h

/-- A reply goes back the way its message came, with the other arguments refused, exactly if no
keyword is `provider` or `transport_name`, or the call is refused for another one anyway. -/
theorem goesBack_iff (kwargs : List Kwarg) :
    m.ReplyGoesBack content session_event kwargs r ↔
      (∀ kw ∈ kwargs, ¬ kw.Reroutes) ∨ ∃ kw ∈ kwargs, kw.Refused := by
  constructor
  · intro h
    by_contra hnot
    push Not at hnot
    obtain ⟨⟨kw, hkw, hroute⟩, haccepted⟩ := hnot
    -- The keyword is one of the eight, and `reply` accepts it.
    have hname : kw.name ∈ wayBack := by
      cases kw with
      | provider v =>
        simp only [Kwarg.name]
        decide
      | transport_name v =>
        simp only [Kwarg.name]
        decide
      | _ => exact hroute.elim
    have herror := h.2 ⟨kw, hkw, hname⟩
    rcases m.reply_cases content session_event r kwargs with
      ⟨⟨reply, hok⟩, -⟩ | ⟨⟨k, hk, hrefused⟩, -⟩
    · rw [hok] at herror
      cases herror
    · exact haccepted k hk hrefused
  · intro h
    rcases m.reply_cases content session_event r kwargs with ⟨-, haccepted⟩ | ⟨-, herror⟩
    · have hroute : ∀ kw ∈ kwargs, ¬ kw.Reroutes := by
        rcases h with hroute | ⟨kw, hkw, hrefused⟩
        · exact hroute
        · exact absurd hrefused (haccepted kw hkw)
      refine ⟨fun reply hok => m.reply_goesBack content session_event r hroute hok, ?_⟩
      rintro ⟨kw, hkw, hname⟩
      exact absurd (Kwarg.refused_of_wayBack hname (hroute kw hkw)) (haccepted kw hkw)
    · refine ⟨fun reply hok => ?_, fun _ => herror⟩
      rw [herror] at hok
      cases hok

/-- A reply to this message that is given another transport leaves through that. -/
theorem transport_not_goesBack :
    ¬ (Message.create (str "12345") (str "+27820001001") (str "sms") .sms
        ⟨0, str "m", DateTime.min⟩).ReplyGoesBack (.string (str "hello")) .resume
      [.transport_name (str "ussd")] ⟨0, str "n", DateTime.min⟩ := by
  rintro ⟨-, h⟩
  exact nomatch h ⟨_, List.mem_singleton_self _, by simp only [Kwarg.name]; decide⟩

end Message

/-- What the Junebug application replies goes back. -/
theorem JunebugOutboundMessage.replyToVumi_goesBack {jom : JunebugOutboundMessage}
    {in_msg : Message} {r : Reading} {reply : BuiltMessage}
    (h : jom.replyToVumi in_msg r = .ok reply) : in_msg.GoesBack reply.message := by
  unfold JunebugOutboundMessage.replyToVumi at h
  cases hreply : in_msg.reply (.string jom.content) .resume jom.replyKwargs r with
  | error e =>
    rw [hreply] at h
    cases h
  | ok message =>
    rw [hreply] at h
    obtain rfl := Except.ok.inj h
    refine in_msg.reply_goesBack _ _ r (fun kw hkw => ?_) hreply
    -- Neither of the two keywords is one of those that decide where a reply goes.
    unfold JunebugOutboundMessage.replyKwargs at hkw
    rcases List.mem_cons.1 hkw with rfl | hkw
    · exact id
    · cases hcontinue : jom.sharedVumiFields.continue_session with
      | none =>
        rw [hcontinue] at hkw
        cases hkw
      | some v =>
        rw [hcontinue] at hkw
        obtain rfl := List.mem_singleton.1 hkw
        exact id

end Vumi2
