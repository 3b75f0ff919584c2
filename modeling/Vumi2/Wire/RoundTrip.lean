import Vumi2.Wire

/-!
# What survives the wire

A message, or an event, comes back from the wire field by field, if its timestamp is of the year
1000 or later, its texts have no surrogate pair in them, and its metadata holds JSON values
(`survive`). A text with a high surrogate and a low one behind it does not: `json` writes the two as
two escapes, and reads these as one character (`not_survive`).
-/

namespace Vumi2

open Effect Text Attrs Wire

/-! ## Hooks -/

namespace Wire

/-- All session events are listed. -/
theorem mem_session (a : Session) : a ∈ Session.members := by cases a <;> decide

/-- All transport types are listed. -/
theorem mem_transportType (a : TransportType) : a ∈ TransportType.members := by cases a <;> decide

/-- All address types are listed. -/
theorem mem_addressType (a : AddressType) : a ∈ AddressType.members := by cases a <;> decide

/-- All event types are listed. -/
theorem mem_eventType (a : EventType) : a ∈ EventType.members := by cases a <;> decide

/-- All delivery statuses are listed. -/
theorem mem_deliveryStatus (a : DeliveryStatus) : a ∈ DeliveryStatus.members := by
  cases a <;> decide

/-- A session event comes back, also `NONE`, which goes as `None`. -/
theorem session_inverts : session.Inverts fun _ => True :=
  Hook.enum_inverts _ mem_session (by decide)

/-- A transport type comes back. -/
theorem transportType_inverts : transportType.Inverts fun _ => True :=
  Hook.enum_inverts _ mem_transportType (by decide)

/-- An address type comes back. -/
theorem addressType_inverts : addressType.Inverts fun _ => True :=
  Hook.enum_inverts _ mem_addressType (by decide)

/-- An event type comes back. -/
theorem eventType_inverts : eventType.Inverts fun _ => True :=
  Hook.enum_inverts _ mem_eventType (by decide)

/-- A delivery status comes back. -/
theorem deliveryStatus_inverts : deliveryStatus.Inverts fun _ => True :=
  Hook.enum_inverts _ mem_deliveryStatus (by decide)

/-- A timestamp comes back if its year has four digits. -/
theorem timestamp_inverts : timestamp.Inverts fun d => 1000 ≤ d.fields.date.year :=
  fun _ hyear => deserialise_serialise hyear

variable (py : Conversions)

/-- A text comes back. -/
theorem text_inverts : (text py).Inverts fun _ => True := Hook.text_inverts _

/-- A dictionary comes back. -/
theorem dict_inverts : (dict py).Inverts fun _ => True := Hook.dict_inverts _

/-- A content comes back if it is a text or `None`. -/
theorem content_inverts : (content py).Inverts fun v => v = .null ∨ ∃ s, v = .string s := by
  rintro v (rfl | ⟨s, rfl⟩)
  · rfl
  · rfl

/-- An optional text comes back. -/
theorem optionalText_inverts : (text py).optional.Inverts fun _ => True :=
  fun o _ => (text_inverts py).optional (fun _ _ => rfl) o fun _ _ => trivial

/-- An optional dictionary comes back. -/
theorem optionalDict_inverts : (dict py).optional.Inverts fun _ => True :=
  fun o _ => (dict_inverts py).optional (fun _ _ => rfl) o fun _ _ => trivial

/-- An optional address type comes back. -/
theorem optionalAddressType_inverts : addressType.optional.Inverts fun _ => True :=
  fun o _ => addressType_inverts.optional (fun a _ => by cases a <;> rfl) o fun _ _ => trivial

/-- An optional delivery status comes back. -/
theorem optionalDeliveryStatus_inverts : deliveryStatus.optional.Inverts fun _ => True :=
  fun o _ => deliveryStatus_inverts.optional (fun a _ => by cases a <;> rfl) o fun _ _ => trivial

/-! ## Documents -/

/-- A text that comes back. -/
def ValidText (s : Str) : Prop := Json.NoSurrogatePair s

/-- A text in ASCII comes back, since it has no surrogates. -/
theorem validText_of_ascii {s : Str} (h : (s.all fun c => c.val < 128) = true) : ValidText s :=
  Json.noSurrogatePair_of_ascii fun c hc => of_decide_eq_true (List.all_eq_true.1 h c hc)

/-- So do the names of fields, which are ASCII texts. -/
theorem validText_of_mem {names : List Str}
    (hascii : (names.all fun name => name.all fun c => c.val < 128) = true) {name : Str}
    (h : name ∈ names) : ValidText name :=
  validText_of_ascii (List.all_eq_true.1 hascii name h)

/-- A text that comes back, if there is one. -/
def ValidOption (o : Option Str) : Prop := ∀ s, o = some s → ValidText s

section

variable {py}

/-- The document of an optional text that comes back is valid. -/
theorem valid_option {o : Option Str} (h : ValidOption o) :
    Json.Valid py.floatRepr (o.elim .null .string) := by
  cases o with
  | none => exact .null
  | some s => exact .string (h s rfl)

/-- The value of a member of an enumeration. -/
theorem valid_enum {α : Type} {error : PyExc} {members : List α} {value : α → Option Str}
    (hmembers : ∀ a, a ∈ members)
    (hascii : members.all (fun a => (value a).all fun s => s.all fun c => c.val < 128) = true)
    (a : α) :
    Json.Valid py.floatRepr ((Hook.enum error members value).unstructure a) := by
  refine valid_option fun s hs => ?_
  have hall := List.all_eq_true.1 hascii a (hmembers a)
  rw [hs] at hall
  exact validText_of_ascii hall

/-- The document of a session event is valid. -/
theorem valid_session (a : Session) : Json.Valid py.floatRepr (session.unstructure a) :=
  valid_enum mem_session (by decide) a

/-- The document of a transport type is valid. -/
theorem valid_transportType (a : TransportType) :
    Json.Valid py.floatRepr (transportType.unstructure a) :=
  valid_enum mem_transportType (by decide) a

/-- The document of an address type is valid. -/
theorem valid_addressType (a : AddressType) : Json.Valid py.floatRepr (addressType.unstructure a) :=
  valid_enum mem_addressType (by decide) a

/-- The document of an event type is valid. -/
theorem valid_eventType (a : EventType) : Json.Valid py.floatRepr (eventType.unstructure a) :=
  valid_enum mem_eventType (by decide) a

/-- The document of a delivery status is valid. -/
theorem valid_deliveryStatus (a : DeliveryStatus) :
    Json.Valid py.floatRepr (deliveryStatus.unstructure a) :=
  valid_enum mem_deliveryStatus (by decide) a

/-- The document of a timestamp is valid, since its text is in ASCII. -/
theorem valid_timestamp (d : DateTime) : Json.Valid py.floatRepr (timestamp.unstructure d) := by
  refine .string (Json.noSurrogatePair_of_ascii fun c hc => ?_)
  refine TimeFormat.strftime_ascii (fun e he => ?_) d.fields c hc
  -- The format has ASCII literals only.
  have hliterals : e = ofChar '-' ∨ e = ofChar ':' ∨ e = ofChar '.' := by
    simp [vumiDateFormat] at he
    grind
  rcases hliterals with rfl | rfl | rfl <;> decide

end

end Wire

namespace Message

/-- A message whose texts and metadata a document can hold, with a timestamp that can be written. -/
structure Sendable (py : Conversions) (m : Message) : Prop where
  to_addr : ValidText m.to_addr
  from_addr : ValidText m.from_addr
  transport_name : ValidText m.transport_name
  message_version : ValidText m.message_version
  message_type : ValidText m.message_type
  timestamp : 1000 ≤ m.timestamp.fields.date.year
  routing_metadata : Json.Valid py.floatRepr (.object m.routing_metadata)
  helper_metadata : Json.Valid py.floatRepr (.object m.helper_metadata)
  message_id : ValidText m.message_id
  in_reply_to : ValidOption m.in_reply_to
  provider : ValidOption m.provider
  content : m.content = .null ∨ ∃ s, m.content = .string s ∧ ValidText s
  transport_metadata : Json.Valid py.floatRepr (.object m.transport_metadata)
  group : ValidOption m.group

variable {py : Conversions} {m : Message}

/-- The names of the fields. -/
def fieldNames : List Str :=
  [str "to_addr", str "from_addr", str "transport_name", str "transport_type",
    str "message_version", str "message_type", str "timestamp", str "routing_metadata",
    str "helper_metadata", str "message_id", str "in_reply_to", str "provider",
    str "session_event", str "content", str "transport_metadata", str "group",
    str "to_addr_type", str "from_addr_type"]

/-- No two fields of a message have one name. -/
theorem fieldNames_nodup : fieldNames.Nodup := by decide

/-- The members of the document of a message are its fields, in their order. -/
theorem map_fst_serialise (m : Message) : m.serialise.map Prod.fst = fieldNames := rfl

/-- The document of a message that can be sent is valid. -/
theorem Sendable.valid (h : m.Sendable py) : Json.Valid py.floatRepr (.object m.serialise) := by
  have hcontent : Json.Valid py.floatRepr m.content := by
    rcases h.content with hnull | ⟨s, hs, htext⟩
    · rw [hnull]
      exact .null
    · rw [hs]
      exact .string htext
  have haddress : ∀ o : Option AddressType,
      Json.Valid py.floatRepr (addressType.optional.unstructure o) := by
    intro o
    cases o with
    | none => exact .null
    | some a => exact valid_addressType a
  -- The names are distinct and valid, and each value is valid.
  refine .object ?_ (fun x hx => ?_) ?_
  · rw [map_fst_serialise]
    exact fieldNames_nodup
  · have hname : x.1 ∈ fieldNames := by
      rw [← map_fst_serialise m]
      exact List.mem_map_of_mem hx
    exact validText_of_mem (by decide) hname
  · unfold serialise
    simp only [List.forall_mem_cons]
    exact ⟨.string h.to_addr, .string h.from_addr, .string h.transport_name,
      valid_transportType _, .string h.message_version, .string h.message_type, valid_timestamp _,
      h.routing_metadata, h.helper_metadata, .string h.message_id, valid_option h.in_reply_to,
      valid_option h.provider, valid_session _, hcontent,
      h.transport_metadata, valid_option h.group, haddress _, haddress _,
      fun _ hx => absurd hx List.not_mem_nil⟩

/-- The fields give the message back, whatever its texts are. -/
theorem restores_of_readable (hyear : 1000 ≤ m.timestamp.fields.date.year)
    (hcontent : m.content = .null ∨ ∃ s, m.content = .string s) (r : Reading) :
    (fields py r).Restores m m :=
  (Fields.restores_pure m Message.mk)
    |>.ap (Fields.restores_field (text_inverts py) trivial)
    |>.ap (Fields.restores_field (text_inverts py) trivial)
    |>.ap (Fields.restores_field (text_inverts py) trivial)
    |>.ap (Fields.restores_field transportType_inverts trivial)
    |>.ap (Fields.restores_field (text_inverts py) trivial)
    |>.ap (Fields.restores_field (text_inverts py) trivial)
    |>.ap (Fields.restores_field timestamp_inverts hyear)
    |>.ap (Fields.restores_field (dict_inverts py) trivial)
    |>.ap (Fields.restores_field (dict_inverts py) trivial)
    |>.ap (Fields.restores_field (text_inverts py) trivial)
    |>.ap (Fields.restores_field (optionalText_inverts py) trivial)
    |>.ap (Fields.restores_field (optionalText_inverts py) trivial)
    |>.ap (Fields.restores_field session_inverts trivial)
    |>.ap (Fields.restores_field (content_inverts py) hcontent)
    |>.ap (Fields.restores_field (dict_inverts py) trivial)
    |>.ap (Fields.restores_field (optionalText_inverts py) trivial)
    |>.ap (Fields.restores_field optionalAddressType_inverts trivial)
    |>.ap (Fields.restores_field optionalAddressType_inverts trivial)

/-- A dictionary gives its message back, if the timestamp can be read. -/
theorem deserialise_of_readable (hyear : 1000 ≤ m.timestamp.fields.date.year)
    (hcontent : m.content = .null ∨ ∃ s, m.content = .string s) (r : Reading) :
    deserialise py r m.serialise = .ok m := by
  have hnames : (((fields py r).write m).map Prod.fst).Nodup := by
    rw [write_fields, map_fst_serialise]
    exact fieldNames_nodup
  have hread := (restores_of_readable hyear hcontent r).read_write hnames
  rw [write_fields] at hread
  exact hread

/-- A message that can be sent comes back from its dictionary. -/
theorem deserialise_serialise (h : m.Sendable py) (r : Reading) :
    deserialise py r m.serialise = .ok m :=
  deserialise_of_readable h.timestamp (h.content.imp_right fun ⟨s, hs, _⟩ => ⟨s, hs⟩) r

end Message

namespace Event

/-- An event whose texts and metadata a document can hold, with a timestamp that can be written. -/
structure Sendable (py : Conversions) (e : Event) : Prop where
  user_message_id : ValidText e.user_message_id
  message_version : ValidText e.message_version
  message_type : ValidText e.message_type
  timestamp : 1000 ≤ e.timestamp.fields.date.year
  routing_metadata : Json.Valid py.floatRepr (.object e.routing_metadata)
  helper_metadata : Json.Valid py.floatRepr (.object e.helper_metadata)
  transport_metadata : ∀ ms, e.transport_metadata = some ms → Json.Valid py.floatRepr (.object ms)
  event_id : ValidText e.event_id
  sent_message_id : ValidOption e.sent_message_id
  nack_reason : ValidOption e.nack_reason

variable {py : Conversions} {e : Event}

/-- The names of the fields. -/
def fieldNames : List Str :=
  [str "user_message_id", str "event_type", str "message_version", str "message_type",
    str "timestamp", str "routing_metadata", str "helper_metadata", str "transport_metadata",
    str "event_id", str "sent_message_id", str "nack_reason", str "delivery_status"]

/-- No two fields of an event have one name. -/
theorem fieldNames_nodup : fieldNames.Nodup := by decide

/-- The members of the document of an event are its fields, in their order. -/
theorem map_fst_serialise (e : Event) : e.serialise.map Prod.fst = fieldNames := rfl

/-- The document of an event that can be sent is valid. -/
theorem Sendable.valid (h : e.Sendable py) : Json.Valid py.floatRepr (.object e.serialise) := by
  have hmetadata : Json.Valid py.floatRepr (e.transport_metadata.elim .null .object) := by
    cases hms : e.transport_metadata with
    | none => exact .null
    | some ms => exact h.transport_metadata ms hms
  have hstatus :
      Json.Valid py.floatRepr (deliveryStatus.optional.unstructure e.delivery_status) := by
    cases e.delivery_status with
    | none => exact .null
    | some status => exact valid_deliveryStatus status
  -- The names are distinct and valid, and each value is valid.
  refine .object ?_ (fun x hx => ?_) ?_
  · rw [map_fst_serialise]
    exact fieldNames_nodup
  · have hname : x.1 ∈ fieldNames := by
      rw [← map_fst_serialise e]
      exact List.mem_map_of_mem hx
    exact validText_of_mem (by decide) hname
  · unfold serialise
    simp only [List.forall_mem_cons]
    exact ⟨.string h.user_message_id, valid_eventType _,
      .string h.message_version, .string h.message_type, valid_timestamp _, h.routing_metadata,
      h.helper_metadata, hmetadata, .string h.event_id, valid_option h.sent_message_id,
      valid_option h.nack_reason, hstatus, fun _ hx => absurd hx List.not_mem_nil⟩

/-- The fields give the constructor what the event was made of, so its validator accepts it. -/
theorem Sendable.restores (h : e.Sendable py) (r : Reading) : (fields py r).Restores e (.ok e) := by
  have hinit : init e.user_message_id e.event_type e.message_version e.message_type e.timestamp
      e.routing_metadata e.helper_metadata e.transport_metadata e.event_id e.sent_message_id
      e.nack_reason e.delivery_status = .ok e := dif_pos e.check
  rw [← hinit]
  exact (Fields.restores_pure e Event.init)
    |>.ap (Fields.restores_field (text_inverts py) trivial)
    |>.ap (Fields.restores_field eventType_inverts trivial)
    |>.ap (Fields.restores_field (text_inverts py) trivial)
    |>.ap (Fields.restores_field (text_inverts py) trivial)
    |>.ap (Fields.restores_field timestamp_inverts h.timestamp)
    |>.ap (Fields.restores_field (dict_inverts py) trivial)
    |>.ap (Fields.restores_field (dict_inverts py) trivial)
    |>.ap (Fields.restores_field (optionalDict_inverts py) trivial)
    |>.ap (Fields.restores_field (text_inverts py) trivial)
    |>.ap (Fields.restores_field (optionalText_inverts py) trivial)
    |>.ap (Fields.restores_field (optionalText_inverts py) trivial)
    |>.ap (Fields.restores_field optionalDeliveryStatus_inverts trivial)

/-- An event that can be sent comes back from its dictionary; the validator of its constructor
passes. -/
theorem deserialise_serialise (h : e.Sendable py) (r : Reading) :
    deserialise py r e.serialise = .ok e := by
  have hread :=
    (h.restores r).read_write (by rw [write_fields, map_fst_serialise]; exact fieldNames_nodup)
  rw [write_fields] at hread
  unfold deserialise
  rw [hread]

end Event

/-- What survives the document. -/
theorem overWire_of_valid {α : Type} {py : Conversions} {data : Json.Members}
    (h : Json.Valid py.floatRepr (.object data))
    (deserialise : Json.Members → Except (List (Option Str × PyExc)) α) :
    overWire py deserialise data = (deserialise data).toOption := by
  unfold overWire
  rw [Json.loads_dumps h]

/-- Messages and events survive the wire. -/
theorem survive (py : Conversions) (r : Reading) :
    (∀ m : Message, m.Sendable py → overWire py (Message.deserialise py r) m.serialise = some m) ∧
      ∀ e : Event, e.Sendable py → overWire py (Event.deserialise py r) e.serialise = some e := by
  constructor
  · intro m h
    -- The document gives the dictionary back, and that gives the message back.
    rw [overWire_of_valid h.valid, Message.deserialise_serialise h]
    rfl
  · intro e h
    -- So with an event, whose validator accepts what it has accepted before.
    rw [overWire_of_valid h.valid, Event.deserialise_serialise h]
    rfl

/-! ## On given inputs -/

namespace Wire

/-- Conversions that agree with Python's on the floats and the fields below. -/
def plainConversions : Conversions := ⟨fun _ => [], fun _ => .error .typeError, id⟩

/-- The environment below: 2022-05-16 13:14:15.123456. -/
def reading : Reading := ⟨0, str "7c9af210bc1b4718ae74a1aa026b4757", ⟨63788303655123456, by decide⟩⟩

/-- A message with this content, and some metadata. -/
def aMessage (content : Str) : Message :=
  { Message.create (str "+27820001001") (str "12345") (str "test_sms") .sms reading with
    content := .string content
    helper_metadata :=
      [(str "tags", .array [.string (str "a"), .int (-1), .float (str "1.5"), .null])] }

/-- An ACK. -/
def anEvent : Event := Event.ack (str "m") (str "m") reading

/-- No text at all comes back. -/
theorem validOption_none : ValidOption none := fun _ h => nomatch h

/-- The empty dictionary is a valid document. -/
theorem valid_empty (canon : Str → Str) : Json.Valid canon (.object []) :=
  .object List.nodup_nil (fun _ h => absurd h List.not_mem_nil) fun _ h => absurd h List.not_mem_nil

/-- A message with metadata can be sent. -/
theorem sendable_aMessage : (aMessage (str "hello")).Sendable plainConversions := by
  -- Of the metadata, the float is the one that needs an argument.
  have hfloat : Json.IsFloat plainConversions.floatRepr (str "1.5") := by
    refine ⟨rfl, [], str "1", str ".5", [], ⟨.inl rfl, ?_, ?_, .inl rfl⟩, rfl, .inl (by decide)⟩
    · exact ⟨digit 1, [], rfl, by decide, fun _ h => absurd h List.not_mem_nil, fun _ => rfl⟩
    · have hdigit : ∀ d ∈ [digit 5], isDigit d = true := by
        intro d hd
        rw [List.mem_singleton.1 hd]
        decide
      exact .inr ⟨[digit 5], rfl, List.cons_ne_nil _ _, hdigit⟩
  have hdigits : (decimal (-1 : ℤ).natAbs).length ≤ Json.maxStrDigits := by
    unfold Json.maxStrDigits
    exact Nat.le_add_left 1 4299
  have htags : Json.Valid plainConversions.floatRepr
      (.array [.string (str "a"), .int (-1), .float (str "1.5"), .null]) := by
    refine .array ?_
    simp only [List.forall_mem_cons]
    exact ⟨.string (validText_of_ascii (by decide)), .int hdigits, .float hfloat, .null,
      fun _ h => absurd h List.not_mem_nil⟩
  have hmetadata : Json.Valid plainConversions.floatRepr
      (.object (aMessage (str "hello")).helper_metadata) := by
    refine .object (List.nodup_singleton _) (fun x hx => ?_) fun x hx => ?_
    · rw [List.mem_singleton.1 hx]
      exact validText_of_ascii (by decide)
    · rw [List.mem_singleton.1 hx]
      exact htags
  exact ⟨validText_of_ascii (by decide), validText_of_ascii (by decide),
    validText_of_ascii (by decide), validText_of_ascii (by decide), validText_of_ascii (by decide),
    by decide, valid_empty _, hmetadata, validText_of_ascii (by decide), validOption_none,
    validOption_none, .inr ⟨_, rfl, validText_of_ascii (by decide)⟩, valid_empty _,
    validOption_none⟩

/-- An event can be sent. -/
theorem sendable_anEvent : anEvent.Sendable plainConversions := by
  refine ⟨validText_of_ascii (by decide), validText_of_ascii (by decide),
    validText_of_ascii (by decide), by decide, valid_empty _, valid_empty _, fun ms hms => ?_,
    validText_of_ascii (by decide), fun s hs => ?_, validOption_none⟩
  · obtain rfl := Option.some.inj hms
    exact valid_empty _
  · obtain rfl := Option.some.inj hs
    exact validText_of_ascii (by decide)

end Wire

/-- The content of a message, where it is a string. -/
def Wire.textOf (m : Message) : Option Str :=
  match m.content with
  | .string s => some s
  | _ => none

/-- They survive. -/
theorem survive_examples :
    overWire plainConversions (Message.deserialise plainConversions reading)
        (aMessage (str "hello")).serialise = some (aMessage (str "hello")) ∧
      overWire plainConversions (Event.deserialise plainConversions reading) anEvent.serialise =
        some anEvent :=
  ⟨(survive plainConversions reading).1 _ sendable_aMessage,
    (survive plainConversions reading).2 _ sendable_anEvent⟩

/-- Two code points that are a surrogate pair come back as one character, and an integer of too many
digits cannot be written. -/
theorem not_survive :
    overWire plainConversions (Message.deserialise plainConversions reading)
        (aMessage [Json.chr 0xd83d, Json.chr 0xde00]).serialise ≠
          some (aMessage [Json.chr 0xd83d, Json.chr 0xde00]) ∧
      overWire plainConversions (Message.deserialise plainConversions reading)
        { aMessage (str "hello") with
          helper_metadata := [(str "n", .int ((10 ^ Json.maxStrDigits : ℕ) : ℤ))] }.serialise =
          none := by
  constructor
  · -- Both escapes are read as the one character of the pair.
    have hjoined : (overWire plainConversions (Message.deserialise plainConversions reading)
        (aMessage [Json.chr 0xd83d, Json.chr 0xde00]).serialise).bind textOf =
          some [Json.chr 0x1f600] := by decide +kernel
    intro h
    rw [h] at hjoined
    have hlength : [Json.chr 0xd83d, Json.chr 0xde00] = [Json.chr 0x1f600] :=
      Option.some.inj hjoined
    exact absurd (congrArg List.length hlength) (by decide)
  · -- `json.dumps` raises for the integer, and so for all that holds it.
    have hrefused : ∀ n : ℤ, Json.dumps (.int n) = none →
        overWire plainConversions (Message.deserialise plainConversions reading)
          { aMessage (str "hello") with
            helper_metadata := [(str "n", .int n)] }.serialise = none := by
      intro n hint
      have hmetadata : Json.dumps (.object [(str "n", .int n)]) = none :=
        Json.dumps_object_eq_none ⟨_, List.mem_singleton.2 rfl, hint⟩
      have hmember : ((str "helper_metadata", .object [(str "n", .int n)]) : Str × Json) ∈
          { aMessage (str "hello") with
            helper_metadata := [(str "n", .int n)] }.serialise := by
        unfold Message.serialise
        simp
      unfold overWire
      rw [Json.dumps_object_eq_none ⟨_, hmember, hmetadata⟩]
      rfl
    exact hrefused _ (Json.dumps_int_eq_none (Nat.le_of_eq (Int.natAbs_natCast _).symm))

end Vumi2
