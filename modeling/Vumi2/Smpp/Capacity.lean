import Vumi2.Smpp.WireLimits

/-!
# What fits into a short message

A short message holds 160 septets or 140 octets. The segments of a longer one leave room for a
concatenation header of six octets, which takes the room of seven septets in the codings that put
one septet into each octet. `Segmentation` says what PDUs a message becomes, in these terms, and
reads the numbering back from the PDUs. `handleOutboundMessage_segmentation` is that
`handle_outbound_message` segments like this, with the lengths of `_get_msg_length`.
-/

namespace Vumi2.Smpp

open Effect Eff Text Chunks

/-! ## Septets and octets -/

namespace DataCodingDefault

/-- The codings in which an octet stands for a septet. -/
def SevenBit (data_coding : DataCodingDefault) : Prop :=
  data_coding = .SMSC_DEFAULT_ALPHABET ∨ data_coding = .IA5_ASCII

instance (data_coding : DataCodingDefault) : Decidable data_coding.SevenBit :=
  inferInstanceAs (Decidable (_ ∨ _))

/-- How many octets of a coding a short message holds. -/
def capacity (data_coding : DataCodingDefault) : ℕ := if data_coding.SevenBit then 160 else 140

/-- The room that a header of six octets takes, filled up to the next septet. -/
def headerSize (data_coding : DataCodingDefault) : ℕ :=
  if data_coding.SevenBit then (6 * 8 + 6) / 7 else 6

/-- How many octets of a coding a segment holds. -/
def segmentSize (data_coding : DataCodingDefault) : ℕ := if data_coding.SevenBit then 153 else 134

/-- A segment and its header fill a message. -/
theorem segmentSize_add_headerSize (data_coding : DataCodingDefault) :
    data_coding.segmentSize + data_coding.headerSize = data_coding.capacity := by
  unfold segmentSize headerSize capacity
  split_ifs
  · rfl
  · rfl

/-- A segment has room for at least one octet. -/
theorem segmentSize_pos (data_coding : DataCodingDefault) : 0 < data_coding.segmentSize := by
  unfold segmentSize
  split_ifs
  · decide
  · decide

end DataCodingDefault

/-! ## Segments -/

/-- A segment of a message, with its place in the message. -/
structure Segment where
  reference : ℤ
  total : ℕ
  number : ℕ
  payload : Bytes
deriving DecidableEq, Repr

/-- The segment that a PDU carries: numbered in its optional parameters, or in a header. -/
def UserData.segment (how : Splitting) (data : UserData) : Option Segment :=
  match how with
  | .sar => do
    let reference ← data.sar_msg_ref_num
    let total ← data.sar_total_segments
    let number ← data.sar_segment_seqnum
    let payload ← data.short_message
    some ⟨reference, total, number, payload⟩
  | .udh =>
    match data.short_message with
    | some (0x05 :: 0x00 :: 0x03 :: reference :: total :: number :: payload) =>
      some ⟨reference.toNat, total.toNat, number.toNat, payload⟩
    | _ => none

/-- Octets of a coding as a message of several segments: as few as can be, full but for the last,
each with room for a header, and numbered from 1 to the total under one reference. -/
structure Segmented (data_coding : DataCodingDefault) (how : Splitting) (content : Bytes)
    (pdus : List SubmitSM) : Prop where
  /-- The length over the size of a segment, rounded up. -/
  count : pdus.length =
    (content.length + data_coding.segmentSize - 1) / data_coding.segmentSize
  several : 2 ≤ pdus.length
  minimal : ∀ parts : List Bytes, parts.flatten = content →
    (∀ part ∈ parts, part.length + data_coding.headerSize ≤ data_coding.capacity) →
      pdus.length ≤ parts.length
  numbered : ∃ (reference : ℤ) (payloads : List Bytes),
    pdus.map (fun pdu => pdu.userData.segment how) = payloads.zipIdx.map (fun e =>
      some ⟨reference, payloads.length, e.2 + 1, e.1⟩) ∧
    payloads.flatten = content ∧
    (∀ payload ∈ payloads, payload ≠ [] ∧
      payload.length + data_coding.headerSize ≤ data_coding.capacity) ∧
    ∀ i (h : i + 1 < payloads.length), (payloads[i]).length = data_coding.segmentSize

/-- The PDUs of a message: one with its octets exactly if they fit, else several segments. -/
structure Segmentation (data_coding : DataCodingDefault) (how : Splitting) (content : Bytes)
    (pdus : List SubmitSM) : Prop where
  single : pdus.map SubmitSM.userData =
      [{ data_coding := .default data_coding, short_message := some content }] ↔
    content.length ≤ data_coding.capacity
  split : data_coding.capacity < content.length → Segmented data_coding how content pdus

namespace SubmitShortMessageProcessor

variable (self : SubmitShortMessageProcessor)

/-- The length of a message is the capacity of the data coding. -/
theorem getMsgLength_eq : self.getMsgLength = self.config.data_coding.capacity := rfl

/-- The length of a segment is what the header leaves of the capacity. -/
theorem getSplitMsgLength_eq : self.getSplitMsgLength = self.config.data_coding.segmentSize := rfl

/-- With at most 255 segments, the place of each is read back from its PDU. -/
theorem segment_segmentData {how : Splitting} {number total i : ℕ} (segment : Bytes)
    (hi : i < total) (htotal : total ≤ 255) :
    (self.segmentData how number total i segment).segment how =
      some ⟨self.refNum how number, total, i + 1, segment⟩ := by
  cases how with
  | sar => rfl
  | udh =>
    have hoctet : ∀ n < 256, (UInt8.ofNat n).toNat = n := fun n hn => UInt8.toNat_ofNat_of_lt' hn
    have href := hoctet (number % 0xFF) (by omega)
    have hcount := hoctet total (by omega)
    have hplace := hoctet (i + 1) (by omega)
    show some (Segment.mk (UInt8.ofNat (number % 0xFF)).toNat (UInt8.ofNat total).toNat
      (UInt8.ofNat (i + 1)).toNat segment) = _
    rw [href, hcount, hplace]
    rfl

/-- The PDUs of a message that was split are its segments. -/
theorem segmented_of_splitData {how : Splitting} {content : Bytes} {number : ℕ}
    {pdus : List SubmitSM} (hlong : self.config.data_coding.capacity < content.length)
    (hle : (self.segments content).length ≤ 255)
    (h : pdus.map SubmitSM.userData = self.splitData how content number) :
    Segmented self.config.data_coding how content pdus := by
  have hpos := self.config.data_coding.segmentSize_pos
  have hroom := self.config.data_coding.segmentSize_add_headerSize
  have hlength : pdus.length = (self.segments content).length := by
    have hmap := congrArg List.length h
    rwa [List.length_map, splitData, List.length_map, List.length_zipIdx] at hmap
  have hcount : (self.segments content).length =
      (content.length + self.config.data_coding.segmentSize - 1) /
        self.config.data_coding.segmentSize := length_chunks _ _
  -- The content is longer than one message, so it was split.
  have hfits : self.fitsInOneMessage content = false :=
    decide_eq_false (by rw [getMsgLength_eq]; omega)
  refine ⟨hlength.trans hcount, ?_, fun parts hflatten hparts => ?_,
    self.refNum how number, self.segments content, ?_, flatten_chunks hpos content,
    fun payload hpayload => ⟨ne_nil_of_mem_chunks hpos hpayload, ?_⟩,
    fun i hi => length_getElem_chunks hi⟩
  · rw [hlength]
    exact self.two_le_segments hfits
  · -- Fewer parts would leave no room for the content.
    rw [hlength, ← hflatten]
    refine length_chunks_le_of_parts hpos fun part hpart => ?_
    have hpart := hparts part hpart
    omega
  · -- Each PDU has its segment behind the header, or beside the SAR fields.
    have hdata : pdus.map (fun pdu => pdu.userData.segment how) =
        (pdus.map SubmitSM.userData).map (UserData.segment how) := by
      rw [List.map_map]
      rfl
    rw [hdata, h, splitData, List.map_map]
    refine List.map_congr_left fun e he => ?_
    have hi : e.2 < (self.segments content).length := by
      have hmem := List.mem_zipIdx (x := e.1) (i := e.2) he
      omega
    exact self.segment_segmentData e.1 hi hle
  · have hlen := length_le_of_mem_chunks hpayload
    rw [getSplitMsgLength_eq] at hlen
    omega

/-- With multipart messages, what does not fit is split. -/
theorem splits_iff {content : Bytes}
    (hmode : self.config.multipart_handling = .multipart_udh ∨
      self.config.multipart_handling = .multipart_sar) :
    self.Splits content ↔ self.config.data_coding.capacity < content.length := by
  have hfits : self.fitsInOneMessage content = false ↔ self.getMsgLength < content.length := by
    rw [fitsInOneMessage, decide_eq_false_iff_not, Nat.not_le]
  rw [Splits, hfits, getMsgLength_eq]
  rcases hmode with hmode | hmode
  · simp [hmode]
  · simp [hmode]

/-- With multipart messages, one PDU with all octets is sent exactly if they fit. -/
theorem userDataOf_eq_single_iff {content : Bytes} (number : ℕ)
    (hmode : self.config.multipart_handling = .multipart_udh ∨
      self.config.multipart_handling = .multipart_sar) :
    self.userDataOf content number =
        [{ data_coding := .default self.config.data_coding, short_message := some content }] ↔
      content.length ≤ self.config.data_coding.capacity := by
  constructor
  · -- A message that is split is several PDUs.
    intro hone
    by_contra hlong
    have hlength := self.length_userDataOf content number
    have hsplit := (self.splits_iff hmode).2 (Nat.not_le.1 hlong)
    have htwo := self.two_le_segments hsplit.2.2
    rw [hone, pduCount, if_pos hsplit, List.length_singleton] at hlength
    omega
  · intro hle
    have hnot : ¬self.Splits content := fun h =>
      absurd ((self.splits_iff hmode).1 h) (Nat.not_lt.2 hle)
    rw [userDataOf, if_neg hnot, if_neg ?_]
    -- The octets go into `message_payload` in another mode only.
    rintro ⟨hpayload, -⟩
    rcases hmode with hmode | hmode
    · rw [hmode] at hpayload
      cases hpayload
    · rw [hmode] at hpayload
      cases hpayload

/-- `handle_outbound_message` segments a message, unless its addresses cannot be put into a PDU or
SAR references are to roll over at 0: then it raises. -/
theorem handleOutboundMessage_segmentation {message : Message} {content : Bytes}
    (hmode : self.config.multipart_handling = .multipart_udh ∨
      self.config.multipart_handling = .multipart_sar)
    (hencode : self.encodeContent message.content = .ok content)
    (hle : content.length ≤ 255 * self.config.data_coding.segmentSize)
    (env : ℕ → Reading) (s : InMemorySequencer) :
    (∃ pdus, ((self.handleOutboundMessage message).run env s).result = .ok pdus ∧
        Segmentation self.config.data_coding self.splitting content pdus) ∨
      (∃ e, ((self.handleOutboundMessage message).run env s).result = .error e) ∧
        (¬self.Addressable message.from_addr message.to_addr ∨
          self.config.multipart_handling = .multipart_sar ∧
            self.config.data_coding.capacity < content.length ∧
            self.config.multipart_sar_reference_rollover = 0) := by
  have hcount : (self.segments content).length ≤ 255 := length_segments_le_iff.2 hle
  have hsplits : self.Splits content ↔ self.config.data_coding.capacity < content.length :=
    self.splits_iff hmode
  rw [handleOutboundMessage, hencode, run_ofExcept_ok_bind]
  by_cases hsubmit : self.Submittable message.from_addr message.to_addr content
  · obtain ⟨pdus, hpdus, number, hdata⟩ := self.returns_submitContent hsubmit env s
    refine .inl ⟨pdus, hpdus, ?_, fun hlong => ?_⟩
    · rw [hdata]
      exact self.userDataOf_eq_single_iff number hmode
    · rw [userDataOf, if_pos (hsplits.2 hlong)] at hdata
      exact self.segmented_of_splitData hlong hcount hdata
  · refine .inr ⟨self.raises_submitContent hsubmit env s, ?_⟩
    -- Nothing else is in the way of a submission.
    by_contra hnone
    obtain ⟨haddr, hroll⟩ := not_or.1 hnone
    refine hsubmit ⟨not_not.1 haddr, fun hsplit => ?_⟩
    rcases hmode with hmode | hmode
    · rw [hmode]
      exact hcount
    · rw [hmode]
      exact fun hzero => hroll ⟨hmode, hsplits.1 hsplit, hzero⟩

/-- The default configuration, but with headers for the segments of a message. -/
def udhProcessor : SubmitShortMessageProcessor :=
  { defaultProcessor with config := { multipart_handling := .multipart_udh } }

/-- One letter more than fits makes two segments. -/
theorem longMessage_segmentation : ∃ env s pdus,
    ((udhProcessor.handleOutboundMessage (longMessage 161)).run env s).result = .ok pdus ∧
      Segmentation .SMSC_DEFAULT_ALPHABET .udh (List.replicate 161 0x61) pdus := by
  have hencode : udhProcessor.encodeContent (longMessage 161).content =
      .ok (List.replicate 161 0x61) := encodeContent_longMessage 161
  refine ⟨fun _ => ⟨0, [], DateTime.min⟩, ⟨0⟩, ?_⟩
  refine (udhProcessor.handleOutboundMessage_segmentation (.inl rfl) hencode ?_ _
    _).resolve_right ?_
  · rw [List.length_replicate]
    decide
  · rintro ⟨-, haddr | ⟨hmode, -⟩⟩
    · exact haddr (addressable_longMessage 161)
    · cases hmode

end SubmitShortMessageProcessor

end Vumi2.Smpp
