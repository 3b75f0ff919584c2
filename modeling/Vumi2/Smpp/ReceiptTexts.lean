import Vumi2.Smpp.Sessions

/-!
# The two encodings of a delivery receipt

A receipt may be in the optional parameters of a PDU, or in its text: the SMPP message id and the
abbreviation of the message state, with further fields that may be left out (`ReceiptText`). The
default regex reads every such text (`reMatch_content`): it is followed field by field with
the first alternatives of `Lib.Regex`, where each optional field is either taken, or fails at the
label of a later field.

The two encodings should mean the same (`SameMeaning`). But the default mapping knows only some of
the abbreviations, and takes the others for `pending`; `sameMeaning_iff` says which states this
loses.
-/

namespace Vumi2.Smpp

open Effect Eff Text Regex

/-- The abbreviation of a state in the text of a receipt. -/
def MessageState.abbreviation : MessageState → Option Str
  | ENROUTE => none
  | DELIVERED => some (str "DELIVRD")
  | EXPIRED => some (str "EXPIRED")
  | DELETED => some (str "DELETED")
  | UNDELIVERABLE => some (str "UNDELIV")
  | ACCEPTED => some (str "ACCEPTD")
  | UNKNOWN => some (str "UNKNOWN")
  | REJECTED => some (str "REJECTD")

/-- A character of Latin-1. -/
def latin (c : CodePoint) : Bool := c.val < 256

/-- A non-empty text of Latin-1 without spaces. -/
def word (v : Str) : Bool := v ≠ [] ∧ v.all notSpace ∧ v.all latin

/-- The text of a receipt. -/
structure ReceiptText where
  /-- The SMPP message id. -/
  id : Str
  sub : Option Str
  dlvrd : Option Str
  submit_date : Option Str
  done_date : Option Str
  /-- The state, which the text gives by its abbreviation. -/
  state : MessageState
  stat : Str
  err : Option Str
  /-- Whether the last label is `Text:`, or `text:`. -/
  capital : Bool
  text : Str
  id_ne : id ≠ []
  id_length : id.length ≤ 65
  id_words : id.all notSpace = true
  id_ascii : id.all (fun c => c.val < 128) = true
  sub_spec : sub.all word = true
  dlvrd_spec : dlvrd.all word = true
  submit_date_spec : submit_date.all (List.all · digit) = true
  done_date_spec : done_date.all (List.all · digit) = true
  stat_spec : state.abbreviation = some stat
  err_spec : err.all word = true
  text_spec : text.all latin = true

/-- An optional field, with the space before it. -/
def fieldText (label : String) : Option Str → Str
  | some value => ofChar ' ' :: (str label ++ value)
  | none => []

namespace ReceiptText

variable (r : ReceiptText)

/-- What follows the abbreviation of the state. -/
def tail : Str :=
  fieldText "err:" r.err ++
    (ofChar ' ' :: (str (if r.capital then "Text:" else "text:") ++ r.text))

/-- What follows the id. -/
def fields : Str :=
  fieldText "sub:" r.sub ++ (fieldText "dlvrd:" r.dlvrd ++
    (fieldText "submit date:" r.submit_date ++ (fieldText "done date:" r.done_date ++
      (ofChar ' ' :: (str "stat:" ++ (r.stat ++ r.tail))))))

/-- The text, as it is sent. -/
def content : Str := str "id:" ++ (r.id ++ r.fields)

/-- The octets of the text, one for each of its characters. -/
def octets : Bytes := r.content.map toByte

end ReceiptText

/-! ## What the regex takes -/

/-- A label does not begin with a space. -/
def Label (l : String) : Prop := (str l).head?.any notSpace = true

/-- Neither of two labels begins with the other. -/
def Apart (label other : String) : Prop :=
  ¬ str label <+: str other ∧ ¬ str other <+: str label

instance (l : String) : Decidable (Label l) := inferInstanceAs (Decidable (_ = true))

instance (label other : String) : Decidable (Apart label other) :=
  inferInstanceAs (Decidable (_ ∧ _))

/-- A text goes on with a space and one of the labels. -/
def Starts (labels : List String) (s : Str) : Prop :=
  ∃ l ∈ labels, ∃ rest, s = ofChar ' ' :: (str l ++ rest)

variable {label name : String} {labels : List String} {value : Option Str} {s : Str} {g : Groups}

/-- A text that may begin with a field begins with its label or with a later one. -/
theorem starts_fieldText (label : String) (value : Option Str) (h : Starts labels s) :
    Starts (label :: labels) (fieldText label value ++ s) := by
  cases value with
  | some v => exact ⟨label, List.mem_cons_self, v ++ s, by simp [fieldText]⟩
  | none =>
    obtain ⟨l, hl, rest, hs⟩ := h
    exact ⟨l, List.mem_cons_of_mem _ hl, rest, hs⟩

/-- The value of a field ends at the space before the next label. -/
theorem Starts.stops (h : Starts labels s) {p : CodePoint → Bool} (hp : p (ofChar ' ') = false) :
    Stops p s := by
  obtain ⟨l, _, rest, rfl⟩ := h
  rintro c _ hc
  obtain ⟨rfl, _⟩ := List.cons.inj hc
  exact hp

/-- A field ends where a label begins. -/
theorem Label.stops {l : String} (h : Label l) (s : Str) :
    Stops (fun c => c = ofChar ' ') (str l ++ s) := by
  rw [Label] at h
  rintro c rest hc
  cases hl : str l with
  | nil => rw [hl] at h; cases h
  | cons d ds =>
    rw [hl] at h hc
    obtain ⟨rfl, _⟩ := List.cons.inj hc
    simpa [notSpace] using h

/-- The spaces before a label. -/
theorem takes_spaces {l : String} (h : Label l) (s : Str) (g : Groups) :
    Takes spaces (ofChar ' ' :: (str l ++ s)) g (str l ++ s) g := by
  have hspace : ∀ c ∈ [ofChar ' '], (fun c => decide (c = ofChar ' ')) c = true := by simp
  exact takes_many hspace (h.stops s) (le_refl _) (by rintro _ ⟨⟩) g

/-- An option fails at the label of another field. -/
theorem fails_label (hs : Starts labels s) (hlabels : ∀ l ∈ labels, Label l ∧ Apart label l)
    (a : Regex) : Fails (.cat [spaces, .lit (str label), a]) s := by
  obtain ⟨l, hl, rest, rfl⟩ := hs
  obtain ⟨hlabel, hnot, hnot'⟩ := hlabels l hl
  have havailable :
      available (fun c => c = ofChar ' ') none (ofChar ' ' :: (str l ++ rest)) = 1 := by
    have hspace : ∀ c ∈ [ofChar ' '], (fun c => decide (c = ofChar ' ')) c = true := by simp
    exact congrArg List.length (takeWhile_of_stops hspace (hlabel.stops rest))
  refine fails_many_seq fun m hm hmle => Fails.seq (fails_lit fun hprefix => ?_) _
  -- Only the one space can be skipped, and there the label of the other field begins.
  obtain rfl : m = 1 := by omega
  rcases List.prefix_or_prefix_of_prefix hprefix (List.prefix_append (str l) rest) with h | h
  · exact hnot h
  · exact hnot' h

/-- The groups after an optional field. -/
def setGroup (g : Groups) (name : String) : Option Str → Groups
  | some value => g.set (str name) value
  | none => g

/-- An optional field is taken if it is there. -/
theorem takes_optionalField {p : CodePoint → Bool} {lo : ℕ} (hlabel : Label label)
    (hvalue : ∀ v, value = some v → lo ≤ v.length ∧ v.all p = true) (hp : p (ofChar ' ') = false)
    (hs : Starts labels s) (hlabels : ∀ l ∈ labels, Label l ∧ Apart label l) :
    Takes (optionalField label name (.many p lo none)) (fieldText label value ++ s) g s
      (setGroup g name value) := by
  cases value with
  | none => exact takes_opt_of_fails (fails_label hs hlabels _)
  | some v =>
    obtain ⟨hlo, hv⟩ := hvalue v rfl
    have htext : fieldText label (some v) ++ s = ofChar ' ' :: (str label ++ (v ++ s)) := by
      simp [fieldText]
    have hmany : Takes (.many p lo none) (v ++ s) g s g :=
      takes_many (List.all_eq_true.1 hv) (hs.stops hp) hlo (by rintro _ ⟨⟩) g
    rw [htext]
    exact ((takes_spaces hlabel (v ++ s) g).seq
      ((takes_lit (str label) (v ++ s) g).seq
        ((hmany.group (str name)).seq (takes_empty s _)))).opt

/-- A group leaves the groups of other names. -/
theorem get?_setGroup (g : Groups) (name : String) (value : Option Str) {other : String}
    (h : str other ≠ str name) : (setGroup g name value).get? (str other) = g.get? (str other) := by
  cases value with
  | some v => exact Dict.get?_set_of_ne _ _ h
  | none => rfl

namespace ReceiptText

variable (r : ReceiptText)

/-- An abbreviation has seven capital letters. -/
theorem abbreviation_spec {state : MessageState} {stat : Str} (h : state.abbreviation = some stat) :
    stat.length = 7 ∧ stat.all (between 'A' 'Z') = true := by
  cases state with
  | ENROUTE => cases h
  | DELIVERED | EXPIRED | DELETED | UNDELIVERABLE | ACCEPTED | UNKNOWN | REJECTED =>
    obtain rfl := Option.some.inj h
    exact ⟨rfl, rfl⟩

/-- The text of a receipt comes after its label. -/
theorem starts_text (rest : Str) :
    Starts ["Text:", "text:"]
      (ofChar ' ' :: (str (if r.capital then "Text:" else "text:") ++ rest)) :=
  ⟨_, by split_ifs <;> simp, rest, rfl⟩

/-- The tail begins with the error, or with the text. -/
theorem starts_tail : Starts ["err:", "Text:", "text:"] r.tail :=
  starts_fieldText "err:" r.err (r.starts_text r.text)

/-- The last label, in either spelling, and what the text holds after it. -/
theorem takes_text (g : Groups) :
    ∃ rest text, Takes (.cat [spaces, .one (fun c => c = ofChar 'T' ∨ c = ofChar 't'),
        .lit (str "ext:"), .group (str "text") (.many (fun c => c ≠ ofChar '\n') 0 (some 20)),
        .many (fun c => c ≠ ofChar '\n') 0 none])
      (ofChar ' ' :: (str (if r.capital then "Text:" else "text:") ++ r.text)) g rest
      (g.set (str "text") text) := by
  have hlabel : Label (if r.capital then "Text:" else "text:") := by split_ifs <;> decide
  have hone : (fun c => decide (c = ofChar 'T' ∨ c = ofChar 't'))
      (ofChar (if r.capital then 'T' else 't')) = true := by split_ifs <;> rfl
  have hext : str (if r.capital then "Text:" else "text:") ++ r.text =
      ofChar (if r.capital then 'T' else 't') :: (str "ext:" ++ r.text) := by split_ifs <;> rfl
  have hspaces := takes_spaces hlabel r.text g
  rw [hext] at hspaces ⊢
  -- The group takes what it may, and the rest of the line is left for `.*`.
  exact ⟨_, _, hspaces.seq ((takes_one hone _ g).seq ((takes_lit (str "ext:") r.text g).seq
    ((takes_group_many_any (str "text") (some 20) r.text g).seq
      ((takes_many_any none _ _).seq (takes_empty _ _)))))⟩

/-- A value that is a word. -/
theorem word_spec {value : Option Str} (h : value.all word = true) :
    ∀ v, value = some v → 1 ≤ v.length ∧ v.all notSpace = true := by
  rintro v rfl
  obtain ⟨hne, hwords, _⟩ := of_decide_eq_true (show word v = true from h)
  exact ⟨List.length_pos_iff.2 hne, hwords⟩

/-- A value that is a date. -/
theorem date_spec {value : Option Str} (h : value.all (List.all · digit) = true) :
    ∀ v, value = some v → 0 ≤ v.length ∧ v.all digit = true := by
  rintro v rfl
  exact ⟨Nat.zero_le _, h⟩

/-- The regex reads the id and the state of every receipt. -/
theorem reMatch_content :
    ∃ g, deliveryReportRegex.reMatch r.content = some g ∧ g.get? (str "id") = some r.id ∧
      g.get? (str "stat") = some r.stat := by
  obtain ⟨hlength, hcapitals⟩ := abbreviation_spec r.stat_spec
  -- Each part is followed by a space and one of the labels of the parts after it.
  have htail := r.starts_tail
  have hstat : Starts ["stat:"] (ofChar ' ' :: (str "stat:" ++ (r.stat ++ r.tail))) :=
    ⟨_, List.mem_cons_self, _, rfl⟩
  have hdone := starts_fieldText "done date:" r.done_date hstat
  have hsubmit := starts_fieldText "submit date:" r.submit_date hdone
  have hdlvrd := starts_fieldText "dlvrd:" r.dlvrd hsubmit
  have hsub : Starts _ r.fields := starts_fieldText "sub:" r.sub hdlvrd
  have hidgroup : Takes (.many notSpace 0 (some 65)) (r.id ++ r.fields) Dict.empty r.fields
      Dict.empty :=
    takes_many (List.all_eq_true.1 r.id_words) (hsub.stops rfl) (Nat.zero_le _)
      (by rintro _ ⟨⟩; exact r.id_length) _
  have hstatgroup (g : Groups) : Takes (.many (between 'A' 'Z') 5 (some 7)) (r.stat ++ r.tail) g
      r.tail g :=
    takes_many (List.all_eq_true.1 hcapitals) (htail.stops rfl) (by omega)
      (by rintro _ ⟨⟩; omega) g
  obtain ⟨rest, text, htext⟩ := r.takes_text (setGroup ((setGroup (setGroup (setGroup (setGroup
    (Dict.empty.set (str "id") r.id) "sub" r.sub) "dlvrd" r.dlvrd) "submit_date" r.submit_date)
    "done_date" r.done_date).set (str "stat") r.stat) "err" r.err)
  have hall : Takes deliveryReportRegex r.content Dict.empty rest _ :=
    (takes_lit (str "id:") (r.id ++ r.fields) _).seq <|
    (hidgroup.group (str "id")).seq <|
    (takes_optionalField (by decide) (word_spec r.sub_spec) rfl hdlvrd (by decide)).seq <|
    (takes_optionalField (by decide) (word_spec r.dlvrd_spec) rfl hsubmit (by decide)).seq <|
    (takes_optionalField (by decide) (date_spec r.submit_date_spec) rfl hdone (by decide)).seq <|
    (takes_optionalField (by decide) (date_spec r.done_date_spec) rfl hstat (by decide)).seq <|
    (takes_spaces (by decide) (r.stat ++ r.tail) _).seq <|
    (takes_lit (str "stat:") (r.stat ++ r.tail) _).seq <|
    ((hstatgroup _).group (str "stat")).seq <|
    (takes_optionalField (by decide) (word_spec r.err_spec) rfl (r.starts_text r.text)
      (by decide)).seq htext
  refine ⟨_, reMatch_of_takes hall, ?_, ?_⟩
  · rw [Dict.get?_set_of_ne _ _ (by decide), get?_setGroup _ _ _ (by decide),
      Dict.get?_set_of_ne _ _ (by decide), get?_setGroup _ _ _ (by decide),
      get?_setGroup _ _ _ (by decide), get?_setGroup _ _ _ (by decide),
      get?_setGroup _ _ _ (by decide), Dict.get?_set_self]
  · rw [Dict.get?_set_of_ne _ _ (by decide), get?_setGroup _ _ _ (by decide), Dict.get?_set_self]

/-- A field is in Latin-1 if its label and its value are. -/
theorem latin_fieldText {label : String} {value : Option Str}
    (hlabel : (str label).all latin = true) (hvalue : value.all (List.all · latin) = true) :
    (fieldText label value).all latin = true := by
  cases value with
  | none => rfl
  | some v =>
    rw [fieldText, List.all_cons, List.all_append, hlabel, show v.all latin = true from hvalue]
    rfl

/-- A word is in Latin-1. -/
theorem latin_of_word {value : Option Str} (h : value.all word = true) :
    value.all (List.all · latin) = true := by
  cases value with
  | none => rfl
  | some v => exact (of_decide_eq_true (show word v = true from h)).2.2

/-- A text of characters between two of Latin-1 is in Latin-1. -/
theorem latin_of_between {a b : Char} (hb : b.toNat < 256) {s : Str}
    (h : s.all (between a b) = true) : s.all latin = true := by
  refine List.all_eq_true.2 fun c hc => decide_eq_true ?_
  exact Nat.lt_of_le_of_lt (of_decide_eq_true (List.all_eq_true.1 h c hc)).2 hb

/-- A date is in Latin-1. -/
theorem latin_of_date {value : Option Str} (h : value.all (List.all · digit) = true) :
    value.all (List.all · latin) = true := by
  cases value with
  | none => rfl
  | some v => exact latin_of_between (by decide) h

/-- A text in ASCII is in Latin-1. -/
theorem latin_of_ascii {s : Str} (h : s.all (fun c => c.val < 128) = true) :
    s.all latin = true := by
  refine List.all_eq_true.2 fun c hc => decide_eq_true ?_
  exact Nat.lt_of_lt_of_le (of_decide_eq_true (List.all_eq_true.1 h c hc)) (by decide)

/-- A receipt is a text of Latin-1. -/
theorem latin_content : r.content.all latin = true := by
  -- Each field is a label and a word, and both are in Latin-1.
  have hstat := latin_of_between (by decide) (abbreviation_spec r.stat_spec).2
  have hlabel : (str (if r.capital then "Text:" else "text:")).all latin = true := by
    split_ifs
    · rfl
    · rfl
  have hdone : (fieldText "done date:" r.done_date).all latin = true :=
    latin_fieldText rfl (latin_of_date r.done_date_spec)
  have hsubmit : (fieldText "submit date:" r.submit_date).all latin = true :=
    latin_fieldText rfl (latin_of_date r.submit_date_spec)
  have hdlvrd : (fieldText "dlvrd:" r.dlvrd).all latin = true :=
    latin_fieldText rfl (latin_of_word r.dlvrd_spec)
  have hsub : (fieldText "sub:" r.sub).all latin = true :=
    latin_fieldText rfl (latin_of_word r.sub_spec)
  have herr : (fieldText "err:" r.err).all latin = true :=
    latin_fieldText rfl (latin_of_word r.err_spec)
  have hspace : latin (ofChar ' ') = true := rfl
  have hid : (str "id:").all latin = true := rfl
  have hstatlabel : (str "stat:").all latin = true := rfl
  simp only [content, fields, tail, List.all_append, List.all_cons, hid, latin_of_ascii r.id_ascii,
    hsub, hdlvrd, hsubmit, hdone, hspace, hstatlabel, hstat, herr, hlabel, r.text_spec,
    Bool.and_self]

end ReceiptText

namespace DeliveryReportProcesser

variable {r : ReceiptText} {pdu : DeliverSM}

/-- A text in Latin-1 comes back from its octets. -/
theorem map_ofByte_toByte {s : Str} (h : s.all latin = true) : (s.map toByte).map ofByte = s := by
  rw [List.map_map]
  refine (List.map_congr_left fun c hc => ?_).trans (List.map_id s)
  exact ofByte_toByte (of_decide_eq_true (List.all_eq_true.1 h c hc))

/-- A receipt in the text is read, by its abbreviation. -/
theorem reads_receiptText (htext : pdu.short_message = some r.octets)
    (hparams : pdu.receipted_message_id = none ∨ pdu.message_state = none) :
    DeliveryReportProcesser.default.reads pdu = .ok (some (some r.id, some r.stat)) := by
  obtain ⟨g, hmatch, hid, hstat⟩ := r.reMatch_content
  have hbody : DeliveryReportProcesser.default.reads pdu =
      DeliveryReportProcesser.default.readsBody pdu := by
    rw [reads]
    rcases hparams with h | h
    · rw [h]
    · cases hreceipted : pdu.receipted_message_id with
      | none => rfl
      | some id => rw [h]
  have hcontent : r.octets.map ofByte = r.content := map_ofByte_toByte r.latin_content
  rw [hbody, readsBody_match htext (by rw [hcontent]; exact hmatch), hid, hstat]

/-- A receipt in the optional parameters is read, by the name of its state. -/
theorem reads_parameters (hid : pdu.receipted_message_id = some (r.id.map toByte))
    (hstate : pdu.message_state = some r.state) :
    DeliveryReportProcesser.default.reads pdu = .ok (some (some r.id, some r.state.name)) := by
  have hascii : ∀ b ∈ r.id.map toByte, b.toNat < 0x80 := by
    intro b hb
    obtain ⟨c, hc, rfl⟩ := List.mem_map.1 hb
    have hlt : c.val < 128 := of_decide_eq_true (List.all_eq_true.1 r.id_ascii c hc)
    rw [toNat_toByte (by omega)]
    exact hlt
  have hback : (r.id.map toByte).map ofByte = r.id :=
    map_ofByte_toByte (ReceiptText.latin_of_ascii r.id_ascii)
  have hdecode : decodeUtf8 (r.id.map toByte) = .ok r.id := by
    rw [decodeUtf8, Codecs.utf8_decode_ascii hascii, hback]
    rfl
  rw [reads, hid, hstate]
  dsimp only
  rw [hdecode, ok_bind]

/-! ## What both encodings mean -/

/-- What an event says of a message. -/
def said (event : Event) : Str × Option DeliveryStatus :=
  (event.user_message_id, event.delivery_status)

/-- Both PDUs are handled, the first one as a receipt of the id, with the same status for the same
message and the same change of the cache. -/
def SameMeaning (id : Str) (pdu pdu' : DeliverSM) (env : ℕ → Reading) (c : InMemorySmppCache) :
    Prop :=
  (∃ stat, DeliveryReportProcesser.default.reads pdu = .ok (some (some id, stat))) ∧
    ∃ event event',
      ((DeliveryReportProcesser.default.handleDeliverSm pdu).run env c).result =
        .ok (true, event) ∧
      ((DeliveryReportProcesser.default.handleDeliverSm pdu').run env c).result =
        .ok (true, event') ∧
      event.map said = event'.map said ∧
      ((DeliveryReportProcesser.default.handleDeliverSm pdu).run env c).state =
        ((DeliveryReportProcesser.default.handleDeliverSm pdu').run env c).state

variable {P : DeliveryReportProcesser} {id : Str} {stat stat' : Option Str}
  {status : DeliveryStatus} {env : ℕ → Reading} {c : InMemorySmppCache}

/-- A PDU that is read as a receipt is handled, and its event is created. -/
theorem run_handleDeliverSm_read {pdu : DeliverSM} {id : Option Str} {event : Option Event}
    (hread : P.reads pdu = .ok (some (id, stat)))
    (hevent : ((P.createEvent id stat).run env c).result = .ok event) :
    ((P.handleDeliverSm pdu).run env c).result = .ok (true, event) ∧
      ((P.handleDeliverSm pdu).run env c).state = ((P.createEvent id stat).run env c).state := by
  have hrun : (P.createEvent id stat).run env c =
      ⟨.ok event, ((P.createEvent id stat).run env c).used,
        ((P.createEvent id stat).run env c).state⟩ := by rw [← hevent]
  rw [handleDeliverSm_eq, hread, ofExcept_ok, pure_bind, handleRead, run_bind_ok hrun]
  exact ⟨rfl, rfl⟩

/-- The status of a state and the one of its abbreviation. -/
theorem mappedStatus_abbreviation {state : MessageState} {stat : Str}
    (h : state.abbreviation = some stat) :
    ∃ status status', DeliveryReportProcesser.default.mappedStatus (some stat) = .ok status ∧
      DeliveryReportProcesser.default.mappedStatus (some state.name) = .ok status' ∧
      (status = status' ↔ state ≠ .UNDELIVERABLE ∧ state ≠ .ACCEPTED) := by
  cases state with
  | ENROUTE => cases h
  | DELIVERED | EXPIRED | DELETED | UNDELIVERABLE | ACCEPTED | UNKNOWN | REJECTED =>
    obtain rfl := Option.some.inj h
    exact ⟨_, _, rfl, rfl, by decide⟩

section

variable {pdu pdu' : DeliverSM}

/-- With a message for the id the events say the status. -/
theorem sameMeaning_found_iff {status' : DeliveryStatus}
    (hread : DeliveryReportProcesser.default.reads pdu = .ok (some (some id, stat)))
    (hread' : DeliveryReportProcesser.default.reads pdu' = .ok (some (some id, stat')))
    (hstatus : DeliveryReportProcesser.default.mappedStatus stat = .ok status)
    (hstatus' : DeliveryReportProcesser.default.mappedStatus stat' = .ok status')
    (hfinds : Finds id env c) : SameMeaning id pdu pdu' env c ↔ status = status' := by
  obtain ⟨v, _, _, ⟨_, hget⟩, hresult, hafter⟩ := run_createEvent_found hstatus hfinds
  obtain ⟨v', _, _, ⟨_, hget'⟩, hresult', hafter'⟩ := run_createEvent_found hstatus' hfinds
  obtain ⟨hhandled, hcache⟩ := run_handleDeliverSm_read hread hresult
  obtain ⟨hhandled', hcache'⟩ := run_handleDeliverSm_read hread' hresult'
  -- Both reports find the same message, so the events differ in the status alone.
  obtain rfl : v = v' := by
    rw [hget] at hget'
    exact congrArg Prod.snd (Option.some.inj hget')
  constructor
  · rintro ⟨_, event, event', hevent, hevent', hsaid, _⟩
    rw [hhandled] at hevent
    rw [hhandled'] at hevent'
    cases hevent
    cases hevent'
    have hsame := congrArg Prod.snd (Option.some.inj hsaid)
    exact Option.some.inj hsame
  · rintro rfl
    exact ⟨⟨_, hread⟩, _, _, hhandled, hhandled', rfl, by rw [hcache, hcache', hafter, hafter']⟩

/-- Without a message for the id no event says anything of a status. -/
theorem sameMeaning_of_unfound {status' : DeliveryStatus}
    (hread : DeliveryReportProcesser.default.reads pdu = .ok (some (some id, stat)))
    (hread' : DeliveryReportProcesser.default.reads pdu' = .ok (some (some id, stat')))
    (hstatus : DeliveryReportProcesser.default.mappedStatus stat = .ok status)
    (hstatus' : DeliveryReportProcesser.default.mappedStatus stat' = .ok status')
    (hfinds : ¬ Finds id env c) : SameMeaning id pdu pdu' env c := by
  have hrun := run_createEvent_unfound hstatus hfinds
  have hrun' := run_createEvent_unfound hstatus' hfinds
  obtain ⟨hhandled, hcache⟩ := run_handleDeliverSm_read hread (congrArg Outcome.result hrun)
  obtain ⟨hhandled', hcache'⟩ := run_handleDeliverSm_read hread' (congrArg Outcome.result hrun')
  exact ⟨⟨_, hread⟩, none, none, hhandled, hhandled', rfl, by rw [hcache, hcache', hrun, hrun']⟩

/-- Both encodings of a receipt mean the same, unless the mapping lacks the abbreviation of the
state and the cache holds a message for the id. -/
theorem sameMeaning_iff {r : ReceiptText} (htext : pdu.short_message = some r.octets)
    (hparams : pdu.receipted_message_id = none ∨ pdu.message_state = none)
    (hid : pdu'.receipted_message_id = some (r.id.map toByte))
    (hstate : pdu'.message_state = some r.state) (env : ℕ → Reading) (c : InMemorySmppCache) :
    SameMeaning r.id pdu pdu' env c ↔
      (r.state ≠ .UNDELIVERABLE ∧ r.state ≠ .ACCEPTED) ∨ ¬ Finds r.id env c := by
  have hread := reads_receiptText htext hparams
  have hread' := reads_parameters hid hstate
  obtain ⟨status, status', hstatus, hstatus', heq⟩ := mappedStatus_abbreviation r.stat_spec
  by_cases hfinds : Finds r.id env c
  · rw [sameMeaning_found_iff hread hread' hstatus hstatus' hfinds, heq]
    simp [hfinds]
  · exact iff_of_true (sameMeaning_of_unfound hread hread' hstatus hstatus' hfinds) (.inr hfinds)

end

/-- A receipt for `abc` with some of the fields. -/
def abcReceipt (state : MessageState) (stat : Str) (h : state.abbreviation = some stat) :
    ReceiptText where
  id := str "abc"
  sub := some (str "001")
  dlvrd := none
  submit_date := some (str "2301021030")
  done_date := none
  state := state
  stat := stat
  err := some (str "000")
  capital := true
  text := str "hi"
  id_ne := List.cons_ne_nil _ _
  id_length := Nat.le_of_ble_eq_true rfl
  id_words := rfl
  id_ascii := rfl
  sub_spec := rfl
  dlvrd_spec := rfl
  submit_date_spec := rfl
  done_date_spec := rfl
  stat_spec := h
  err_spec := rfl
  text_spec := rfl

/-- A PDU with a receipt in its text. -/
def textPdu (r : ReceiptText) : DeliverSM :=
  { CacheOp.receiptPdu r.state with
    short_message := some r.octets, receipted_message_id := none, message_state := none }

/-- The cache with one mapping finds it. -/
theorem finds_oneMapping : Finds (str "abc") CacheOp.stillEnv CacheOp.oneMapping := by
  have hget := (CacheOp.mapped_oneMapping).2
  refine ⟨0, str "m", List.cons_ne_nil _ _, ?_⟩
  rw [TimeoutDict.get?_expire_of_fresh ⟨0, hget, CacheOp.inTime_stillEnv 0⟩, hget]

/-- A receipt of the delivery. -/
theorem delivered_sameMeaning :
    SameMeaning (str "abc") (textPdu (abcReceipt .DELIVERED (str "DELIVRD") rfl))
      (CacheOp.receiptPdu .DELIVERED) CacheOp.stillEnv CacheOp.oneMapping :=
  (sameMeaning_iff (r := abcReceipt .DELIVERED (str "DELIVRD") rfl) rfl (.inl rfl) rfl rfl _ _).2
    (.inl (by decide))

/-- A receipt of a failure is pending as a text, and failed in the parameters. -/
theorem undeliv_not_sameMeaning :
    ¬ SameMeaning (str "abc") (textPdu (abcReceipt .UNDELIVERABLE (str "UNDELIV") rfl))
      (CacheOp.receiptPdu .UNDELIVERABLE) CacheOp.stillEnv CacheOp.oneMapping := by
  have hread : DeliveryReportProcesser.default.reads
      (textPdu (abcReceipt .UNDELIVERABLE (str "UNDELIV") rfl)) =
        .ok (some (some (str "abc"), some (str "UNDELIV"))) :=
    reads_receiptText (r := abcReceipt .UNDELIVERABLE (str "UNDELIV") rfl) rfl (.inl rfl)
  have hread' : DeliveryReportProcesser.default.reads (CacheOp.receiptPdu .UNDELIVERABLE) =
      .ok (some (some (str "abc"), some (str "UNDELIVERABLE"))) :=
    reads_parameters (r := abcReceipt .UNDELIVERABLE (str "UNDELIV") rfl) rfl rfl
  have hpending : DeliveryReportProcesser.default.mappedStatus (some (str "UNDELIV")) =
      .ok .pending := rfl
  have hfailed : DeliveryReportProcesser.default.mappedStatus (some (str "UNDELIVERABLE")) =
      .ok .failed := rfl
  rw [sameMeaning_found_iff hread hread' hpending hfailed finds_oneMapping]
  decide

end DeliveryReportProcesser

end Vumi2.Smpp
