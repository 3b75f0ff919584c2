import Vumi2.JunebugMessageApi.Messages
import Vumi2.Wire.RoundTrip

/-!
# What the channel data of a request do

A session event in the channel data of a request is meant for the message that is built of it, and
so is not left in its metadata. `to_vumi` converts it to a `Session`, and ignores `continue_session`
(`toVumi_eq_ok`). `reply_to_vumi` stores the session event as it came, which no connector can send,
and raises for `continue_session`. So the two agree exactly if the channel data have neither
(`bothHonour_iff`).
-/

namespace Vumi2

open Effect Text Attrs Wire

namespace JunebugOutboundMessage

/-- This is the session event that the channel data name; without one it is the default. -/
def Names (channel_data : Json.Members) (default s : Session) : Prop :=
  match channel_data.get? (str "session_event") with
  | some v => session.restructure v = .ok s
  | none => s = default

/-- The session event of the channel data, if there is one, is the value of a `Session`. -/
def ValidSession (channel_data : Json.Members) : Prop :=
  ∀ v, channel_data.get? (str "session_event") = some v → ∃ s, session.restructure v = .ok s

/-- A message is built as the channel data say. -/
structure Honours (py : Conversions) (jom : JunebugOutboundMessage) (default : Session)
    (m : BuiltMessage) : Prop where
  metadata : m.message.helper_metadata = jom.metadataLeft
  session_event : ∃ s, m.sessionEvent = some s ∧ Names jom.channel_data default s
  /-- It can be serialised, and deserialised to itself. -/
  restored : ∀ r, ∃ data, m.serialise = .ok data ∧ Message.deserialise py r data = .ok m.message

/-- Both ways of building a message honour the channel data. -/
def BothHonour (py : Conversions) (jom : JunebugOutboundMessage) (transport_name : Str)
    (transport_type : TransportType) (in_msg : Message) (r : Reading) : Prop :=
  (∃ m, jom.toVumi py transport_name transport_type r = .ok m ∧
      Honours py jom .none (.ofMessage m)) ∧
    ∃ m, jom.replyToVumi in_msg r = .ok m ∧ Honours py jom .resume m

variable {py : Conversions} {jom : JunebugOutboundMessage} {transport_name : Str}
  {transport_type : TransportType} {in_msg : Message} {r : Reading}

/-! ## Messages that are no replies -/

/-- The message that `to_vumi` builds, with this session event. -/
def newMessage (py : Conversions) (jom : JunebugOutboundMessage) (transport_name : Str)
    (transport_type : TransportType) (r : Reading) (s : Session) : Message :=
  { Message.create (jom.to_addr.getD (py.toStr .null)) (jom.from_addr.getD (py.toStr .null))
      transport_name transport_type r with
    group := jom.group
    content := .string jom.content
    helper_metadata := jom.metadataLeft
    session_event := s }

/-- The session event that `to_vumi` gives to `Message.deserialise`. -/
def Structured (shared : SharedFields) (s : Session) : Prop :=
  match shared.session_event with
  | some v => session.restructure v = .ok s
  | none => s = .none

/-- The names of the members that `to_vumi` may give. -/
def vumiNames : List Str :=
  [str "to_addr", str "from_addr", str "group", str "content", str "transport_name",
    str "transport_type", str "helper_metadata", str "continue_session", str "session_event"]

/-- Only the names of a message are given to the message by name. -/
theorem get?_vumiData_eq_none (jom : JunebugOutboundMessage) (transport_name : Str)
    (transport_type : TransportType) {name : Str} (hname : name ∉ vumiNames) :
    (jom.vumiData transport_name transport_type).get? name = none := by
  have hnames : ((jom.vumiData transport_name transport_type).map Prod.fst).Sublist vumiNames := by
    refine List.isSublist_iff_sublist.1 ?_
    unfold vumiData SharedFields.members
    cases jom.sharedVumiFields.continue_session <;>
      cases jom.sharedVumiFields.session_event <;> rfl
  exact Json.Members.get?_eq_none fun hmem => hname (hnames.subset hmem)

/-- The session event is the one of the shared fields. -/
theorem get?_vumiData_session_event (jom : JunebugOutboundMessage) (transport_name : Str)
    (transport_type : TransportType) :
    (jom.vumiData transport_name transport_type).get? (str "session_event") =
      jom.sharedVumiFields.session_event := by
  unfold vumiData SharedFields.members
  cases jom.sharedVumiFields.continue_session <;> cases jom.sharedVumiFields.session_event <;> rfl

/-- A text, or what cattrs makes of `None`. -/
theorem text_restructure (py : Conversions) (o : Option Str) :
    (text py).restructure (o.elim .null .string) = .ok (o.getD (py.toStr .null)) := by
  cases o with
  | none => rfl
  | some s => rfl

/-- An optional text is read back as it was written. -/
theorem optionalText_restructure (py : Conversions) (o : Option Str) :
    (text py).optional.restructure (o.elim .null .string) = .ok o := by
  cases o with
  | none => rfl
  | some s => rfl

/-- The session event that is read of the dictionary. -/
theorem reads_session_event {s : Session} :
    (defaulted "session_event" session .none Message.session_event).Reads
      (jom.vumiData transport_name transport_type) s ↔ Structured jom.sharedVumiFields s := by
  unfold Structured defaulted
  rw [Fields.reads_field_iff, get?_vumiData_session_event]
  cases jom.sharedVumiFields.session_event with
  | none => simp [eq_comm]
  | some v => rfl

/-- The dictionary is structured, with a valid session event. -/
theorem deserialise_vumiData (py : Conversions) (transport_name : Str)
    (transport_type : TransportType) (r : Reading) {s : Session}
    (hs : Structured jom.sharedVumiFields s) :
    Message.deserialise py r (jom.vumiData transport_name transport_type) =
      .ok (newMessage py jom transport_name transport_type r s) := by
  -- The names that the dictionary has are those that `to_vumi` writes.
  have habsent : ∀ {name : Str}, name ∉ vumiNames →
      (jom.vumiData transport_name transport_type).get? name = none :=
    fun hname => get?_vumiData_eq_none jom transport_name transport_type hname
  have hmetadata : (defaulted "helper_metadata" (dict py) [] Message.helper_metadata).Reads
      (jom.vumiData transport_name transport_type) jom.metadataLeft := by
    rw [← jom.helper_metadata_eq]
    exact Fields.reads_field rfl rfl
  -- Each field reads its own name, in the order of the class, or takes its default.
  exact (Fields.reads_pure _ Message.mk)
    |>.ap (Fields.reads_field rfl (text_restructure py jom.to_addr))
    |>.ap (Fields.reads_field rfl (text_restructure py jom.from_addr))
    |>.ap (Fields.reads_field rfl rfl)
    |>.ap (Fields.reads_field rfl (transportType_inverts _ trivial))
    |>.ap (Fields.reads_default (habsent (by decide)))
    |>.ap (Fields.reads_default (habsent (by decide)))
    |>.ap (Fields.reads_default (habsent (by decide)))
    |>.ap (Fields.reads_default (habsent (by decide)))
    |>.ap hmetadata
    |>.ap (Fields.reads_default (habsent (by decide)))
    |>.ap (Fields.reads_default (habsent (by decide)))
    |>.ap (Fields.reads_default (habsent (by decide)))
    |>.ap (reads_session_event.2 hs)
    |>.ap (Fields.reads_field rfl rfl)
    |>.ap (Fields.reads_default (habsent (by decide)))
    |>.ap (Fields.reads_field rfl (optionalText_restructure py jom.group))
    |>.ap (Fields.reads_default (habsent (by decide)))
    |>.ap (Fields.reads_default (habsent (by decide)))

/-- `to_vumi` builds a message exactly if the session event, where there is one, is valid. -/
theorem toVumi_eq_ok {m : Message} : jom.toVumi py transport_name transport_type r = .ok m ↔
    ∃ s, Structured jom.sharedVumiFields s ∧
      m = newMessage py jom transport_name transport_type r s := by
  have hbuilds : ∀ s, Structured jom.sharedVumiFields s →
      jom.toVumi py transport_name transport_type r =
        .ok (newMessage py jom transport_name transport_type r s) := by
    intro s hs
    unfold toVumi
    rw [deserialise_vumiData py transport_name transport_type r hs]
    rfl
  constructor
  · intro h
    have hread : (Message.fields py r).Reads (jom.vumiData transport_name transport_type) m := by
      unfold toVumi Message.deserialise at h
      unfold Fields.Reads
      cases hdata : (Message.fields py r).read (jom.vumiData transport_name transport_type) with
      | error es =>
        rw [hdata] at h
        cases h
      | ok m' =>
        rw [hdata] at h
        exact congrArg Except.ok (Except.ok.inj h)
    -- Five fields come after the session event.
    unfold Message.fields at hread
    obtain ⟨_, _, hread, -, -⟩ := Fields.reads_ap_iff.1 hread
    obtain ⟨_, _, hread, -, -⟩ := Fields.reads_ap_iff.1 hread
    obtain ⟨_, _, hread, -, -⟩ := Fields.reads_ap_iff.1 hread
    obtain ⟨_, _, hread, -, -⟩ := Fields.reads_ap_iff.1 hread
    obtain ⟨_, _, hread, -, -⟩ := Fields.reads_ap_iff.1 hread
    obtain ⟨_, s, -, hsession, -⟩ := Fields.reads_ap_iff.1 hread
    have hs := reads_session_event.1 hsession
    exact ⟨s, hs, Except.ok.inj (h.symm.trans (hbuilds s hs))⟩
  · rintro ⟨s, hs, rfl⟩
    exact hbuilds s hs

/-! ## Replies -/

/-- The message that `reply_to_vumi` builds, before a session event from the channel data. -/
def replyMessage (jom : JunebugOutboundMessage) (in_msg : Message) (r : Reading) : Message :=
  { in_msg.replyFields (.string jom.content) .resume r with helper_metadata := jom.metadataLeft }

/-- A reply is built exactly if the channel data have no `continue_session`, and holds the session
event of the channel data as it came. -/
theorem replyToVumi_eq (jom : JunebugOutboundMessage) (in_msg : Message) (r : Reading) :
    jom.replyToVumi in_msg r =
      match jom.sharedVumiFields.continue_session with
      | none => .ok ⟨replyMessage jom in_msg r, jom.sharedVumiFields.session_event⟩
      | some _ => .error .typeError := by
  unfold replyToVumi replyKwargs replyMessage
  rw [helper_metadata_eq]
  cases jom.sharedVumiFields.continue_session with
  | none => rfl
  | some v => rfl

/-! ## Both ways -/

/-- A value is absent if it is null. -/
theorem present_eq_none {v : Json} : present v = none ↔ v.isNone = true := by
  unfold present
  split_ifs with h
  · simp [h]
  · simp [h]

/-- Without the key there is no session event. -/
theorem session_event_eq_none_of_absent
    (h : Json.Members.get? jom.channel_data (str "session_event") = none) :
    jom.sharedVumiFields.session_event = none := by
  rw [session_event_eq, Json.Members.getD, h]
  rfl

/-- A session event that is structured is the one that the channel data name. -/
theorem names_of_structured {s : Session} (hs : Structured jom.sharedVumiFields s) :
    Names jom.channel_data .none s := by
  unfold Structured at hs
  unfold Names
  rw [session_event_eq, Json.Members.getD] at hs
  cases hget : Json.Members.get? jom.channel_data (str "session_event") with
  | none => simpa [hget, present, Json.isNone] using hs
  | some v =>
    rw [hget, Option.getD_some] at hs
    -- `null` is the value of `Session.NONE`.
    cases v with
    | null =>
      obtain rfl : s = .none := hs
      rfl
    | bool b => exact hs
    | int n => exact hs
    | float text => exact hs
    | string text => exact hs
    | array l => exact hs
    | object ms => exact hs

/-- A valid session event is structured. -/
theorem exists_structured (hvalid : ValidSession jom.channel_data) :
    ∃ s, Structured jom.sharedVumiFields s := by
  unfold Structured
  rw [session_event_eq, Json.Members.getD]
  cases hget : Json.Members.get? jom.channel_data (str "session_event") with
  | none => exact ⟨.none, rfl⟩
  | some v =>
    rw [Option.getD_some]
    obtain ⟨s, hs⟩ := hvalid v hget
    unfold present
    split_ifs
    · exact ⟨.none, rfl⟩
    · exact ⟨s, hs⟩

/-- A message without a raw session event comes back, if the clock was read in the year 1000 or
later. -/
theorem restored_ofMessage {m : Message} (hyear : 1000 ≤ m.timestamp.fields.date.year)
    (hcontent : ∃ s, m.content = .string s) (r : Reading) :
    ∃ data, (BuiltMessage.ofMessage m).serialise = .ok data ∧
      Message.deserialise py r data = .ok m :=
  ⟨m.serialise, rfl, Message.deserialise_of_readable hyear (.inr hcontent) r⟩

/-- A message that is no reply honours the channel data. -/
theorem honours_toVumi (hclock : 1000 ≤ r.utcnow.fields.date.year)
    (hvalid : ValidSession jom.channel_data) :
    ∃ m, jom.toVumi py transport_name transport_type r = .ok m ∧
      Honours py jom .none (.ofMessage m) := by
  obtain ⟨s, hs⟩ := exists_structured hvalid
  refine ⟨_, toVumi_eq_ok.2 ⟨s, hs, rfl⟩, rfl, ⟨s, rfl, names_of_structured hs⟩, ?_⟩
  exact restored_ofMessage hclock ⟨jom.content, rfl⟩

/-- A reply honours the channel data exactly if there is nothing in them that it is to honour. -/
theorem honours_replyToVumi (hclock : 1000 ≤ r.utcnow.fields.date.year) :
    (∃ m, jom.replyToVumi in_msg r = .ok m ∧ Honours py jom .resume m) ↔
      (Json.Members.getD jom.channel_data (str "continue_session") .null).isNone = true ∧
        Json.Members.get? jom.channel_data (str "session_event") = none := by
  rw [replyToVumi_eq, ← present_eq_none, ← continue_session_eq]
  cases hcontinue : jom.sharedVumiFields.continue_session with
  | some v =>
    -- The constructor has no such argument.
    refine ⟨?_, fun ⟨h, _⟩ => by cases h⟩
    rintro ⟨m, heq, -⟩
    cases heq
  | none =>
    constructor
    · rintro ⟨m, heq, hhonours⟩
      obtain rfl := Except.ok.inj heq
      refine ⟨rfl, ?_⟩
      obtain ⟨s, hs, hnames⟩ := hhonours.session_event
      by_contra hpresent
      obtain ⟨v, hget⟩ := Option.ne_none_iff_exists'.1 hpresent
      unfold Names at hnames
      rw [hget] at hnames
      unfold BuiltMessage.sessionEvent at hs
      rw [session_event_eq, Json.Members.getD, hget, Option.getD_some] at hs
      unfold present at hs
      split_ifs at hs with hnull
      -- It is `null`: the reply resumes the session, and `null` names no session.
      obtain rfl : Session.resume = s := Option.some.inj hs
      cases v with
      | null => cases hnames
      | _ => cases hnull
    · rintro ⟨-, habsent⟩
      have hnone := session_event_eq_none_of_absent habsent
      refine ⟨_, rfl, rfl, ⟨.resume, ?_, ?_⟩, ?_⟩
      · unfold BuiltMessage.sessionEvent
        rw [hnone]
        rfl
      · unfold Names
        rw [habsent]
      · rw [hnone]
        exact restored_ofMessage hclock ⟨jom.content, rfl⟩

/-- Both ways honour the channel data exactly if these have no `continue_session` and no
`session_event`. -/
theorem bothHonour_iff (hclock : 1000 ≤ r.utcnow.fields.date.year)
    (hvalid : ValidSession jom.channel_data) :
    BothHonour py jom transport_name transport_type in_msg r ↔
      (Json.Members.getD jom.channel_data (str "continue_session") .null).isNone = true ∧
        Json.Members.get? jom.channel_data (str "session_event") = none := by
  unfold BothHonour
  rw [honours_replyToVumi hclock]
  exact and_iff_right (honours_toVumi hclock hvalid)

/-- A request with these channel data. -/
def aRequest (channel_data : Json.Members) : JunebugOutboundMessage :=
  ⟨str "Bye", some (str "+27820001002"), some (str "12345"), none, none, none, none, 1,
    channel_data, rfl⟩

/-- Without channel data for the session both ways do. -/
theorem plain_bothHonour : BothHonour plainConversions (aRequest [(str "tag", .int 1)])
    (str "jma") .ussd (aMessage (str "hello")) reading :=
  (bothHonour_iff (by decide) fun v hv => by cases hv).2 ⟨rfl, rfl⟩

/-- A reply that is to close the session holds a text where its `Session` should be, and a reply
that is to continue it cannot be built. -/
theorem session_not_honoured :
    (ValidSession [(str "session_event", .string (str "close"))] ∧
      ¬ BothHonour plainConversions (aRequest [(str "session_event", .string (str "close"))])
        (str "jma") .ussd (aMessage (str "hello")) reading) ∧
    (ValidSession [(str "continue_session", .bool true)] ∧
      ¬ BothHonour plainConversions (aRequest [(str "continue_session", .bool true)])
        (str "jma") .ussd (aMessage (str "hello")) reading) := by
  refine ⟨⟨fun v hv => ?_, ?_⟩, fun v hv => ?_, ?_⟩
  · obtain rfl := Option.some.inj hv
    exact ⟨.close, rfl⟩
  · rintro ⟨-, m, heq, hhonours⟩
    obtain rfl := Except.ok.inj heq
    obtain ⟨s, hs, -⟩ := hhonours.session_event
    cases hs
  · cases hv
  · rintro ⟨-, m, heq, -⟩
    cases heq

end JunebugOutboundMessage

end Vumi2
