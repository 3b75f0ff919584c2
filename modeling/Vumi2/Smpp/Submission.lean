import Vumi2.Smpp.SubmitShortMessage

/-!
# Which PDUs an outbound message becomes

Encoded content that is `Submittable` becomes PDUs that carry the user data of `userDataOf`
(`returns_submitContent`), and any other raises (`raises_submitContent`). Neither depends on the
state of the sequencer, except for the reference number of a split message.
-/

namespace Vumi2.Smpp

open Effect Eff Text Chunks

/-- What a PDU carries of the message itself, and the fields for putting it together. -/
structure UserData where
  data_coding : DataCoding
  short_message : Option Bytes := none
  message_payload : Option Bytes := none
  sar_msg_ref_num : Option ℤ := none
  sar_total_segments : Option ℕ := none
  sar_segment_seqnum : Option ℕ := none
deriving DecidableEq, Repr

/-- The user data of a PDU. -/
def SubmitSM.userData (pdu : SubmitSM) : UserData where
  data_coding := pdu.data_coding
  short_message := pdu.short_message
  message_payload := pdu.message_payload
  sar_msg_ref_num := pdu.sar_msg_ref_num
  sar_total_segments := pdu.sar_total_segments
  sar_segment_seqnum := pdu.sar_segment_seqnum

/-- The concatenation header of `submit_csm_udh_message`. -/
def udh (ref_num total part : ℕ) : Bytes :=
  [0x05, 0x00, 0x03, UInt8.ofNat ref_num, UInt8.ofNat total, UInt8.ofNat part]

/-- How the segments of a message are numbered: in SAR fields, or in a header of their own. -/
inductive Splitting where
  | sar
  | udh
deriving DecidableEq, Repr

section

variable {σ : Type}

/-- What each segment becomes, and so what all of them become. -/
theorem returns_eachSegment {submit : ℕ → Bytes → Py σ SubmitSM} {mk : ℕ → Bytes → UserData}
    {n : ℕ} (h : ∀ i segment, i < n → Returns (submit i segment) fun p => p.userData = mk i segment)
    (segments : List Bytes) :
    ∀ i, i + segments.length ≤ n →
      Returns (eachSegment submit i segments) fun pdus =>
        pdus.map SubmitSM.userData = (segments.zipIdx i).map fun e => mk e.2 e.1 := by
  induction segments with
  | nil =>
    intro i _
    exact returns_pure rfl
  | cons segment segments ih =>
    intro i hi
    simp only [List.length_cons] at hi
    refine returns_bind (h i segment (by omega)) fun pdu hpdu => ?_
    refine returns_bind (ih (i + 1) (by omega)) fun pdus hpdus => ?_
    exact returns_pure (by rw [List.map_cons, hpdu, hpdus, List.zipIdx_cons, List.map_cons])

/-- If the first segment raises, the loop does. -/
theorem raises_eachSegment {submit : ℕ → Bytes → Py σ SubmitSM} {i : ℕ} {segments : List Bytes}
    (hne : segments ≠ []) (h : ∀ segment, Raises (submit i segment)) :
    Raises (eachSegment submit i segments) := by
  obtain ⟨segment, segments, rfl⟩ := List.exists_cons_of_ne_nil hne
  exact raises_bind (h segment) _

end

/-- The number that a sequencer gives next. -/
def InMemorySequencer.next (s : InMemorySequencer) : ℕ := s.sequence_number % 0x7FFFFFFF + 1

/-- A number is drawn without a reading of the clock. -/
theorem run_getNextSequenceNumber (env : ℕ → Reading) (s : InMemorySequencer) :
    getNextSequenceNumber.run env s = ⟨.ok s.next, 0, ⟨s.next⟩⟩ := rfl

/-- Drawing a number always returns. -/
theorem returns_getNextSequenceNumber : Returns getNextSequenceNumber fun _ => True :=
  fun _ s => ⟨s.next, rfl, trivial⟩

namespace SubmitShortMessageProcessor

variable (self : SubmitShortMessageProcessor)

/-- A text is encoded by the codec of the data coding. -/
theorem encodeContent_string {codec : Codec} {text : Str}
    (h : dataCodingCodecs self.config.data_coding = .ok codec) :
    self.encodeContent (.string text) = codec.encode text := by
  have htext : contentText (.string text) = .ok text := by
    rw [contentText]
    split_ifs with htruthy
    · rfl
    · rw [show text = [] by simpa [Json.truthy] using htruthy]
  rw [encodeContent, h, htext]
  rfl

/-- The texts that every PDU of a message is built with can be put into it. -/
def Addressable (from_addr to_addr : Str) : Prop :=
  (∃ service_type, self.config.service_type.mapM self.octets = .ok service_type) ∧
    (∃ source_addr, self.octets from_addr = .ok source_addr) ∧
    ∃ destination_addr, self.octets to_addr = .ok destination_addr

/-- A message of these octets is split into several PDUs. -/
def Splits (content : Bytes) : Prop :=
  self.config.multipart_handling ≠ .short_message ∧
    self.config.multipart_handling ≠ .message_payload ∧ self.fitsInOneMessage content = false

instance (content : Bytes) : Decidable (self.Splits content) :=
  inferInstanceAs (Decidable (_ ∧ _))

/-- The slices of a message that is split. -/
abbrev segments (content : Bytes) : List Bytes := splitMessage content self.getSplitMsgLength

/-- The octets of a message can be submitted: its addresses can be put into a PDU, and if it is
split, its segments can be numbered. -/
def Submittable (from_addr to_addr : Str) (content : Bytes) : Prop :=
  self.Addressable from_addr to_addr ∧
    (self.Splits content →
      match self.config.multipart_handling with
      | .multipart_sar => self.config.multipart_sar_reference_rollover ≠ 0
      | _ => (self.segments content).length ≤ 255)

/-- How many PDUs a message of these octets becomes. -/
def pduCount (content : Bytes) : ℕ :=
  if self.Splits content then (self.segments content).length else 1

/-- The function that splits a message. -/
def submitSplit (how : Splitting) : Str → Str → Bytes → Py InMemorySequencer (List SubmitSM) :=
  match how with
  | .sar => self.submitCsmSarMessage
  | .udh => self.submitCsmUdhMessage

/-- How the configuration splits messages, if it does. -/
def splitting : Splitting :=
  if self.config.multipart_handling = .multipart_sar then .sar else .udh

/-- The reference number made from a sequence number. -/
def refNum (how : Splitting) (number : ℕ) : ℤ :=
  match how with
  | .sar => (number : ℤ).fmod self.config.multipart_sar_reference_rollover
  | .udh => (number % 0xFF : ℕ)

/-- The segments of a message can be numbered. -/
def CanSplit (how : Splitting) (content : Bytes) : Prop :=
  match how with
  | .sar => self.config.multipart_sar_reference_rollover ≠ 0
  | .udh => (self.segments content).length ≤ 255

/-- The user data of the segment `i` of a message. -/
def segmentData (how : Splitting) (number total i : ℕ) (segment : Bytes) : UserData :=
  match how with
  | .sar =>
    { data_coding := .default self.config.data_coding
      short_message := some segment
      sar_msg_ref_num := some (self.refNum .sar number)
      sar_total_segments := some total
      sar_segment_seqnum := some (i + 1) }
  | .udh =>
    { data_coding := .default self.config.data_coding
      short_message := some (udh (number % 0xFF) total (i + 1) ++ segment) }

/-- The user data of all segments of a message, for a sequence number. -/
def splitData (how : Splitting) (content : Bytes) (number : ℕ) : List UserData :=
  (self.segments content).zipIdx.map fun e =>
    self.segmentData how number (self.segments content).length e.2 e.1

/-- The user data of the PDUs of a message, for a sequence number. -/
def userDataOf (content : Bytes) (number : ℕ) : List UserData :=
  let data_coding := DataCoding.default self.config.data_coding
  if self.Splits content then self.splitData self.splitting content number
  else if self.config.multipart_handling = .message_payload ∧
      self.fitsInOneMessage content = false then
    [{ data_coding := data_coding, message_payload := some content }]
  else [{ data_coding := data_coding, short_message := some content }]

/-- A segment holds something. -/
theorem getSplitMsgLength_pos : 0 < self.getSplitMsgLength := by
  rw [getSplitMsgLength]
  split_ifs
  · decide
  · decide

/-- A segment holds less than a message of one PDU. -/
theorem getSplitMsgLength_lt : self.getSplitMsgLength < self.getMsgLength := by
  rw [getSplitMsgLength, getMsgLength]
  split_ifs
  · decide
  · decide

/-- A message that does not fit has several segments. -/
theorem two_le_segments {content : Bytes} (h : self.fitsInOneMessage content = false) :
    2 ≤ (self.segments content).length := by
  have hlt := self.getSplitMsgLength_lt
  have hpos := self.getSplitMsgLength_pos
  have hlong : self.getMsgLength < content.length := by simpa [fitsInOneMessage] using h
  rw [segments, splitMessage, length_chunks, Nat.le_div_iff_mul_le hpos]
  omega

/-- There are as many user data as PDUs. -/
theorem length_userDataOf (content : Bytes) (number : ℕ) :
    (self.userDataOf content number).length = self.pduCount content := by
  by_cases h : self.Splits content
  · simp [userDataOf, splitData, pduCount, h]
  · rw [userDataOf, pduCount, if_neg h, if_neg h]
    split_ifs
    · rfl
    · rfl

/-- A PDU is built from its arguments. -/
theorem returns_submitSm {args : SubmitArgs}
    (h : self.Addressable args.source_addr args.destination_addr) :
    Returns (self.submitSm args) fun p =>
      p.userData =
        { data_coding := .default self.config.data_coding
          short_message := args.short_message
          message_payload := args.message_payload
          sar_msg_ref_num := args.sar_msg_ref_num
          sar_total_segments := args.sar_total_segments
          sar_segment_seqnum := args.sar_segment_seqnum } := by
  obtain ⟨⟨service_type, h1⟩, ⟨source_addr, h2⟩, ⟨destination_addr, h3⟩⟩ := h
  refine returns_bind returns_getNextSequenceNumber fun number _ => ?_
  rw [h1, h2, h3]
  simp only [ofExcept_ok, pure_bind]
  exact returns_pure rfl

/-- A PDU is not built if one of its texts cannot be put into it. -/
theorem raises_submitSm {args : SubmitArgs}
    (h : ¬ self.Addressable args.source_addr args.destination_addr) :
    Raises (self.submitSm args) := by
  refine raises_bind_right fun number => ?_
  cases h1 : self.config.service_type.mapM self.octets with
  | error e => exact fun env s => ⟨e, rfl⟩
  | ok service_type =>
    rw [ofExcept_ok, pure_bind]
    cases h2 : self.octets args.source_addr with
    | error e => exact fun env s => ⟨e, rfl⟩
    | ok source_addr =>
      rw [ofExcept_ok, pure_bind]
      cases h3 : self.octets args.destination_addr with
      | error e => exact fun env s => ⟨e, rfl⟩
      | ok destination_addr => exact absurd ⟨⟨_, h1⟩, ⟨_, h2⟩, ⟨_, h3⟩⟩ h

/-- A number below 256 is an octet. -/
theorem octet_of_lt {n : ℕ} (h : n < 256) : octet n = .ok [UInt8.ofNat n] := if_pos h

/-- A message is split into the PDUs of its segments. -/
theorem returns_submitSplit {how : Splitting} {from_addr to_addr : Str} {content : Bytes}
    (haddr : self.Addressable from_addr to_addr) (hcan : self.CanSplit how content)
    (env : ℕ → Reading) (s : InMemorySequencer) :
    ∃ pdus, ((self.submitSplit how from_addr to_addr content).run env s).result = .ok pdus ∧
      pdus.map SubmitSM.userData = self.splitData how content s.next := by
  cases how with
  | sar =>
    have hroll : self.config.multipart_sar_reference_rollover ≠ 0 := hcan
    -- Each segment is a PDU with its place in the optional parameters.
    have hsegment : ∀ i segment, i < (self.segments content).length →
        Returns (self.submitSarSegment from_addr to_addr (self.refNum .sar s.next)
          (self.segments content).length i segment) fun p =>
            p.userData = self.segmentData .sar s.next (self.segments content).length i segment :=
      fun i segment _ => self.returns_submitSm haddr
    obtain ⟨pdus, hpdus, hdata⟩ :=
      returns_eachSegment hsegment (self.segments content) 0 (by omega) (later env 0) ⟨s.next⟩
    refine ⟨pdus, ?_, hdata⟩
    rw [submitSplit, submitCsmSarMessage, run_bind_ok (run_getNextSequenceNumber env s), pyMod,
      if_neg hroll, ofExcept_ok, pure_bind]
    exact hpdus
  | udh =>
    have hlen : (self.segments content).length ≤ 255 := hcan
    -- Each segment begins with a header of six octets, into which the numbers fit.
    have hsegment : ∀ i segment, i < (self.segments content).length →
        Returns (self.submitUdhSegment from_addr to_addr (s.next % 0xFF)
          (self.segments content).length i segment) fun p =>
            p.userData =
              self.segmentData .udh s.next (self.segments content).length i segment := by
      intro i segment hi
      rw [submitUdhSegment, octet_of_lt (show s.next % 0xFF < 256 by omega),
        octet_of_lt (show (self.segments content).length < 256 by omega),
        octet_of_lt (show i + 1 < 256 by omega)]
      simp only [ofExcept_ok, pure_bind]
      exact self.returns_submitSm haddr
    obtain ⟨pdus, hpdus, hdata⟩ :=
      returns_eachSegment hsegment (self.segments content) 0 (by omega) (later env 0) ⟨s.next⟩
    refine ⟨pdus, ?_, hdata⟩
    rw [submitSplit, submitCsmUdhMessage, run_bind_ok (run_getNextSequenceNumber env s)]
    exact hpdus

/-- A message with segments that cannot be built or numbered is not split. -/
theorem raises_submitSplit {how : Splitting} {from_addr to_addr : Str} {content : Bytes}
    (hne : self.segments content ≠ [])
    (h : ¬ self.Addressable from_addr to_addr ∨ ¬ self.CanSplit how content) :
    Raises (self.submitSplit how from_addr to_addr content) := by
  cases how with
  | sar =>
    refine raises_bind_right fun number => ?_
    -- The remainder by zero raises; else the first segment does.
    by_cases hroll : self.config.multipart_sar_reference_rollover = 0
    · rw [pyMod, if_pos hroll]
      exact fun env s => ⟨_, rfl⟩
    · have hcan : self.CanSplit .sar content := hroll
      rw [pyMod, if_neg hroll, ofExcept_ok, pure_bind]
      exact raises_eachSegment hne fun segment =>
        self.raises_submitSm (h.resolve_right fun hnot => hnot hcan)
  | udh =>
    refine raises_bind_right fun number => ?_
    refine raises_eachSegment hne fun segment => ?_
    rw [submitUdhSegment, octet_of_lt (show number % 0xFF < 256 by omega), ofExcept_ok, pure_bind]
    by_cases hlen : (self.segments content).length ≤ 255
    · have hcan : self.CanSplit .udh content := hlen
      rw [octet_of_lt (show (self.segments content).length < 256 by omega),
        octet_of_lt (show 0 + 1 < 256 by decide)]
      simp only [ofExcept_ok, pure_bind]
      exact self.raises_submitSm (h.resolve_right fun hnot => hnot hcan)
    · -- The number of the segments does not fit into an octet.
      rw [octet, if_neg (show ¬ (self.segments content).length < 256 by omega)]
      exact fun env s => ⟨_, rfl⟩

/-- The PDUs that a message was split into carry its segments. -/
theorem userData_submitSplit {how : Splitting} {from_addr to_addr : Str} {content : Bytes}
    {env : ℕ → Reading} {s : InMemorySequencer} {pdus : List SubmitSM}
    (hne : self.segments content ≠ [])
    (h : ((self.submitSplit how from_addr to_addr content).run env s).result = .ok pdus) :
    self.CanSplit how content ∧ pdus.map SubmitSM.userData = self.splitData how content s.next := by
  by_cases hok : self.Addressable from_addr to_addr ∧ self.CanSplit how content
  · obtain ⟨pdus', hpdus', hdata⟩ := self.returns_submitSplit hok.1 hok.2 env s
    rw [h, Except.ok.injEq] at hpdus'
    rw [hpdus']
    exact ⟨hok.2, hdata⟩
  · -- Else it would have raised.
    obtain ⟨e, he⟩ := self.raises_submitSplit hne (not_and_or.1 hok) env s
    rw [h] at he
    cases he

/-- A message that is split is split as the configuration says. -/
theorem submitContent_of_splits {from_addr to_addr : Str} {content : Bytes}
    (h : self.Splits content) :
    self.submitContent from_addr to_addr content =
      self.submitSplit self.splitting from_addr to_addr content := by
  obtain ⟨hshort, hpayload, hfits⟩ := h
  have hone : ¬ (self.config.multipart_handling = .short_message ∨
      self.fitsInOneMessage content = true) := by simp [hshort, hfits]
  rw [submitContent, if_neg hone, splitting]
  cases hmode : self.config.multipart_handling with
  | short_message => exact absurd hmode hshort
  | message_payload => exact absurd hmode hpayload
  | multipart_sar => rfl
  | multipart_udh => rfl

/-- A content that splits is submitted in segments. -/
theorem handleOutboundMessage_of_splits {message : Message} {codec : Codec} {text : Str}
    {octets : Bytes} (hcontent : message.content = .string text)
    (hcodec : dataCodingCodecs self.config.data_coding = .ok codec)
    (hencode : codec.encode text = .ok octets) (h : self.Splits octets) :
    self.handleOutboundMessage message =
      self.submitSplit self.splitting message.from_addr message.to_addr octets := by
  rw [handleOutboundMessage, hcontent, self.encodeContent_string hcodec, hencode, ofExcept_ok,
    pure_bind, self.submitContent_of_splits h]

/-- When the segments can be submitted: with SAR fields unless the reference wraps at zero, with a
UDH if they are at most 255. -/
theorem canSplit_iff {content : Bytes} :
    self.CanSplit self.splitting content ↔
      match self.config.multipart_handling with
      | .multipart_sar => self.config.multipart_sar_reference_rollover ≠ 0
      | _ => (self.segments content).length ≤ 255 := by
  rw [splitting]
  cases self.config.multipart_handling with
  | short_message => rfl
  | message_payload => rfl
  | multipart_sar => rfl
  | multipart_udh => rfl

/-- A `short_message` always returns, with the content as its user data. -/
theorem returns_submitSmShortMessage {from_addr to_addr : Str} {content : Bytes}
    (haddr : self.Addressable from_addr to_addr) :
    Returns (self.submitSmShortMessage from_addr to_addr content) fun p =>
      p.userData =
        { data_coding := .default self.config.data_coding, short_message := some content } :=
  self.returns_submitSm haddr

/-- A `message_payload` always returns, with the content as its user data. -/
theorem returns_submitSmLongMessage {from_addr to_addr : Str} {content : Bytes}
    (haddr : self.Addressable from_addr to_addr) :
    Returns (self.submitSmLongMessage from_addr to_addr content) fun p =>
      p.userData =
        { data_coding := .default self.config.data_coding, message_payload := some content } :=
  self.returns_submitSm haddr

/-- One PDU has the user data that it was submitted with. -/
theorem returns_single {submit : Py InMemorySequencer SubmitSM} {data : UserData}
    (h : Returns submit fun p => p.userData = data) :
    Returns (do let pdu ← submit; pure [pdu]) fun pdus => pdus.map SubmitSM.userData = [data] :=
  returns_bind h fun pdu hpdu => returns_pure (by rw [List.map_cons, List.map_nil, hpdu])

/-- A message that is not split is sent as it is, in one PDU. -/
theorem submitContent_of_not_splits (from_addr to_addr : Str) {content : Bytes}
    (h : ¬ self.Splits content) (number : ℕ) :
    ∃ submit data, self.submitContent from_addr to_addr content =
        (do let pdu ← submit; pure [pdu]) ∧
      self.userDataOf content number = [data] ∧
      (self.Addressable from_addr to_addr → Returns submit fun p => p.userData = data) ∧
      (¬ self.Addressable from_addr to_addr → Raises submit) := by
  rw [submitContent, userDataOf, if_neg h]
  -- The payload is taken for long content in that mode only; otherwise the content fits in one
  -- message.
  by_cases hpayload : self.config.multipart_handling = .message_payload ∧
      self.fitsInOneMessage content = false
  · obtain ⟨hmode, hfits⟩ := hpayload
    refine ⟨self.submitSmLongMessage from_addr to_addr content, _, ?_,
      if_pos ⟨hmode, hfits⟩, self.returns_submitSmLongMessage,
        fun haddr => self.raises_submitSm haddr⟩
    rw [if_neg (by simp [hmode, hfits]), hmode]
  · have hone : self.config.multipart_handling = .short_message ∨
        self.fitsInOneMessage content = true := by
      by_contra hnot
      obtain ⟨hshort, hfits⟩ := not_or.1 hnot
      rw [Bool.not_eq_true] at hfits
      exact h ⟨hshort, fun hmode => hpayload ⟨hmode, hfits⟩, hfits⟩
    exact ⟨self.submitSmShortMessage from_addr to_addr content, _, if_pos hone,
      if_neg hpayload, self.returns_submitSmShortMessage, fun haddr => self.raises_submitSm haddr⟩

/-- An encoded message that can be submitted becomes the PDUs of its user data. -/
theorem returns_submitContent {from_addr to_addr : Str} {content : Bytes}
    (h : self.Submittable from_addr to_addr content) :
    Returns (self.submitContent from_addr to_addr content) fun pdus =>
      ∃ number, pdus.map SubmitSM.userData = self.userDataOf content number := by
  obtain ⟨haddr, hcan⟩ := h
  intro env s
  by_cases hsplits : self.Splits content
  · obtain ⟨pdus, hpdus, hdata⟩ :=
      self.returns_submitSplit haddr (self.canSplit_iff.2 (hcan hsplits)) env s
    rw [self.submitContent_of_splits hsplits]
    exact ⟨pdus, hpdus, s.next, by rw [hdata, userDataOf, if_pos hsplits]⟩
  · obtain ⟨submit, data, heq, hdata, hreturns, _⟩ :=
      self.submitContent_of_not_splits from_addr to_addr hsplits 0
    rw [heq]
    obtain ⟨pdus, hpdus, hmap⟩ := returns_single (hreturns haddr) env s
    exact ⟨pdus, hpdus, 0, by rw [hmap, hdata]⟩

/-- An encoded message that cannot be submitted raises. -/
theorem raises_submitContent {from_addr to_addr : Str} {content : Bytes}
    (h : ¬ self.Submittable from_addr to_addr content) :
    Raises (self.submitContent from_addr to_addr content) := by
  by_cases hsplits : self.Splits content
  · have htwo := self.two_le_segments hsplits.2.2
    have hne : self.segments content ≠ [] := List.ne_nil_of_length_pos (by omega)
    rw [self.submitContent_of_splits hsplits]
    apply self.raises_submitSplit hne
    by_contra hnot
    rw [not_or, not_not, not_not] at hnot
    exact h ⟨hnot.1, fun _ => self.canSplit_iff.1 hnot.2⟩
  · have haddr : ¬ self.Addressable from_addr to_addr :=
      fun haddr => h ⟨haddr, fun hs => absurd hs hsplits⟩
    obtain ⟨submit, data, heq, _, _, hraises⟩ :=
      self.submitContent_of_not_splits from_addr to_addr hsplits 0
    rw [heq]
    exact raises_bind (hraises haddr) _

end SubmitShortMessageProcessor

end Vumi2.Smpp
