import Vumi2.Smpp.Submission

/-!
# Which PDUs can be put on the wire

The fields of a `SubmitSM` have ranges (`UserData.OnWire`), which the encoder of the package checks
only when the PDU is written to the connection. The segments of a message that is split always fit
into `short_message`, and those with a header are counted in an octet, which raises. But the mode
`short_message` sends content of any length in that field, and `multipart_sar` numbers any number of
segments. So `handle_outbound_message` keeps to the ranges exactly if the content is within the
limits of these two modes (`allOnWire_iff`).
-/

namespace Vumi2.Smpp

open Effect Eff Text Chunks

/-- The fields of a PDU are in the ranges of SMPP 3.4. -/
structure UserData.OnWire (data : UserData) : Prop where
  short_message : ∀ bs, data.short_message = some bs → bs.length ≤ 254
  sar_msg_ref_num : ∀ n, data.sar_msg_ref_num = some n → 0 ≤ n ∧ n ≤ 65535
  sar_total_segments : ∀ n, data.sar_total_segments = some n → 1 ≤ n ∧ n ≤ 255
  sar_segment_seqnum : ∀ n, data.sar_segment_seqnum = some n → 1 ≤ n ∧ n ≤ 255
  segment_le : ∀ part total, data.sar_segment_seqnum = some part →
    data.sar_total_segments = some total → part ≤ total

/-- A call raises, or each PDU that it returns can be put on the wire. -/
def AllOnWire (result : Except PyExc (List SubmitSM)) : Prop :=
  ∀ pdus, result = .ok pdus → ∀ pdu ∈ pdus, pdu.userData.OnWire

/-- Without SAR fields only the length of `short_message` matters. -/
theorem onWire_of_short_message {data_coding : DataCoding} {bs : Bytes} :
    UserData.OnWire { data_coding := data_coding, short_message := some bs } ↔
      bs.length ≤ 254 := by
  constructor
  · exact fun h => h.short_message bs rfl
  · intro h
    refine ⟨fun bs' hbs => ?_, nofun, nofun, nofun, nofun⟩
    obtain rfl := Option.some.inj hbs
    exact h

/-- A payload fits the wire up to the length its field can say. -/
theorem onWire_of_message_payload {data_coding : DataCoding} {bs : Bytes} :
    UserData.OnWire { data_coding := data_coding, message_payload := some bs } :=
  ⟨nofun, nofun, nofun, nofun, nofun⟩

namespace SubmitShortMessageProcessor

variable {self : SubmitShortMessageProcessor} {content : Bytes}

/-- No message holds more than 160 characters. -/
theorem getMsgLength_le (self : SubmitShortMessageProcessor) : self.getMsgLength ≤ 160 := by
  unfold getMsgLength
  split_ifs
  · exact le_refl _
  · decide

/-- A message has up to 255 segments while each of them is full. -/
theorem length_segments_le_iff :
    (self.segments content).length ≤ 255 ↔ content.length ≤ 255 * self.getSplitMsgLength := by
  have hpos := self.getSplitMsgLength_pos
  unfold segments splitMessage
  rw [length_chunks, ← Nat.lt_succ_iff, Nat.div_lt_iff_lt_mul hpos]
  omega

/-- A segment of a message is short enough, also behind a header. -/
theorem length_segment_le {segment : Bytes} (h : segment ∈ self.segments content) :
    segment.length ≤ 153 := by
  have hle : segment.length ≤ self.getSplitMsgLength := length_le_of_mem_chunks h
  have hsize := self.getSplitMsgLength_lt
  unfold getMsgLength getSplitMsgLength at *
  split_ifs at * with hcoding
  · exact hle
  · omega

/-! ## The segments -/

/-- A segment in SAR fields can be put on the wire exactly if the segments can be counted. -/
theorem onWire_sarSegment (hroll : self.config.multipart_sar_reference_rollover = 0x10000)
    {number i : ℕ} {segment : Bytes} (hi : i < (self.segments content).length)
    (hsegment : segment ∈ self.segments content) :
    (self.segmentData .sar number (self.segments content).length i segment).OnWire ↔
      (self.segments content).length ≤ 255 := by
  have hlen := length_segment_le hsegment
  constructor
  · -- The number of segments is in one octet.
    exact fun h => (h.sar_total_segments _ rfl).2
  · -- Each field has its range: the reference two octets, the counts one each.
    intro hcount
    refine ⟨fun bs hbs => ?_, fun n hn => ?_, fun n hn => ?_, fun n hn => ?_,
      fun part total hpart htotal => ?_⟩
    · obtain rfl := Option.some.inj hbs
      omega
    · obtain rfl := Option.some.inj hn
      unfold refNum
      dsimp only
      rw [hroll]
      have hlow := Int.fmod_nonneg_of_pos (number : ℤ) (show (0 : ℤ) < 0x10000 by decide)
      have hhigh := Int.fmod_lt_of_pos (number : ℤ) (show (0 : ℤ) < 0x10000 by decide)
      omega
    · obtain rfl := Option.some.inj hn
      omega
    · obtain rfl := Option.some.inj hn
      omega
    · obtain rfl := Option.some.inj hpart
      obtain rfl := Option.some.inj htotal
      omega

/-- A segment with a header can always be. -/
theorem onWire_udhSegment {number total i : ℕ} {segment : Bytes}
    (hsegment : segment ∈ self.segments content) :
    (self.segmentData .udh number total i segment).OnWire := by
  have hlen := length_segment_le hsegment
  refine onWire_of_short_message.2 ?_
  rw [List.length_append]
  show 6 + segment.length ≤ 254
  omega

/-- The segments of a message can be put on the wire exactly if they can be counted, or have a
header. -/
theorem onWire_splitData (hroll : self.config.multipart_sar_reference_rollover = 0x10000)
    (hsplits : self.Splits content) (how : Splitting) (number : ℕ) :
    (∀ data ∈ self.splitData how content number, data.OnWire) ↔
      (how = .sar → content.length ≤ 255 * self.getSplitMsgLength) := by
  unfold splitData
  rw [List.forall_mem_map]
  cases how with
  | udh =>
    refine iff_of_true (fun e he => ?_) nofun
    exact onWire_udhSegment (List.fst_mem_of_mem_zipIdx he)
  | sar =>
    rw [← length_segments_le_iff]
    constructor
    · intro hall _
      -- There is a first segment, and it has the total in it.
      have htwo := self.two_le_segments hsplits.2.2
      have hne : self.segments content ≠ [] := List.ne_nil_of_length_pos (by omega)
      obtain ⟨segment, rest, hsegments⟩ := List.exists_cons_of_ne_nil hne
      have hfirst : (segment, 0) ∈ (self.segments content).zipIdx := by
        rw [hsegments, List.zipIdx_cons]
        exact List.mem_cons_self
      exact (onWire_sarSegment hroll (Nat.lt_of_lt_of_le Nat.two_pos htwo)
        (List.fst_mem_of_mem_zipIdx hfirst)).1 (hall _ hfirst)
    · intro hcount e he
      have hi := List.snd_lt_of_mem_zipIdx he
      exact (onWire_sarSegment hroll (by simpa using hi) (List.fst_mem_of_mem_zipIdx he)).2
        (hcount rfl)

/-! ## A whole message -/

/-- The content is within the limits of the modes that do not keep to them by themselves. -/
structure WithinLimits (processor : SubmitShortMessageProcessor) (content : Bytes) : Prop where
  short_message : processor.config.multipart_handling = .short_message → content.length ≤ 254
  multipart_sar : processor.config.multipart_handling = .multipart_sar →
    content.length ≤ 255 * processor.getSplitMsgLength

/-- Content that fits into one message is within the limits. -/
theorem withinLimits_of_fits (h : self.fitsInOneMessage content = true) :
    self.WithinLimits content := by
  have hlen : content.length ≤ self.getMsgLength := of_decide_eq_true h
  have hmax := getMsgLength_le self
  refine ⟨fun _ => by omega, fun _ => ?_⟩
  have hsize : 134 ≤ self.getSplitMsgLength := by
    unfold getSplitMsgLength
    split_ifs
    · decide
    · exact le_refl _
  omega

/-- The PDUs of a message can be put on the wire exactly if it is within the limits. -/
theorem onWire_userDataOf (hroll : self.config.multipart_sar_reference_rollover = 0x10000)
    (content : Bytes) (number : ℕ) :
    (∀ data ∈ self.userDataOf content number, data.OnWire) ↔ self.WithinLimits content := by
  unfold userDataOf
  dsimp only
  by_cases hsplits : self.Splits content
  · rw [if_pos hsplits, onWire_splitData hroll hsplits]
    unfold splitting
    constructor
    · refine fun h => ⟨fun hmode => absurd hmode hsplits.1, fun hmode => h ?_⟩
      rw [if_pos hmode]
    · intro h hsar
      refine h.multipart_sar ?_
      by_contra hmode
      rw [if_neg hmode] at hsar
      cases hsar
  · rw [if_neg hsplits]
    split_ifs with hpayload
    · refine iff_of_true ?_ ⟨fun hmode => ?_, fun hmode => ?_⟩
      · rw [List.forall_mem_singleton]
        exact onWire_of_message_payload
      · exact absurd (hpayload.1.symm.trans hmode) (by decide)
      · exact absurd (hpayload.1.symm.trans hmode) (by decide)
    · rw [List.forall_mem_singleton, onWire_of_short_message]
      constructor
      · intro hlen
        refine ⟨fun _ => hlen, fun hmode => ?_⟩
        -- A message that would be split, but is not, fits.
        have hfits : self.fitsInOneMessage content = true := by
          by_contra hlong
          rw [Bool.not_eq_true] at hlong
          exact hsplits ⟨by rw [hmode]; decide, by rw [hmode]; decide, hlong⟩
        exact (withinLimits_of_fits hfits).multipart_sar hmode
      · intro h
        by_cases hmode : self.config.multipart_handling = .short_message
        · exact h.short_message hmode
        · have hfits : self.fitsInOneMessage content = true := by
            by_contra hlong
            rw [Bool.not_eq_true] at hlong
            exact hsplits ⟨hmode, fun hpay => hpayload ⟨hpay, hlong⟩, hlong⟩
          have hlen : content.length ≤ self.getMsgLength := of_decide_eq_true hfits
          have hmax := getMsgLength_le self
          omega

/-- What raises puts nothing on the wire. -/
theorem allOnWire_of_raises {m : Py InMemorySequencer (List SubmitSM)} (h : Raises m)
    (env : ℕ → Reading) (s : InMemorySequencer) : AllOnWire (m.run env s).result := by
  obtain ⟨e, he⟩ := h env s
  intro pdus hpdus
  rw [he] at hpdus
  cases hpdus

/-- Encoded content is sent on the wire exactly if it is within the limits or raises. -/
theorem allOnWire_submitContent (hroll : self.config.multipart_sar_reference_rollover = 0x10000)
    (from_addr to_addr : Str) (content : Bytes) (env : ℕ → Reading) (s : InMemorySequencer) :
    AllOnWire ((self.submitContent from_addr to_addr content).run env s).result ↔
      (self.Addressable from_addr to_addr → self.WithinLimits content) := by
  by_cases hsubmit : self.Submittable from_addr to_addr content
  · obtain ⟨pdus, hpdus, number, hdata⟩ := self.returns_submitContent hsubmit env s
    rw [hpdus]
    have hall : AllOnWire (.ok pdus) ↔ ∀ data ∈ self.userDataOf content number, data.OnWire := by
      rw [← hdata, List.forall_mem_map]
      constructor
      · exact fun h => h pdus rfl
      · intro h pdus' hpdus'
        obtain rfl := Except.ok.inj hpdus'
        exact h
    rw [hall, onWire_userDataOf hroll]
    exact ⟨fun h _ => h, fun h => h hsubmit.1⟩
  · refine iff_of_true (allOnWire_of_raises (self.raises_submitContent hsubmit) env s)
      fun haddr => ?_
    -- Only segments that are too many for an octet keep an addressed message from being sent.
    by_contra hlimits
    refine hsubmit ⟨haddr, fun hsplits => ?_⟩
    cases hmode : self.config.multipart_handling with
    | short_message => exact absurd hmode hsplits.1
    | message_payload => exact absurd hmode hsplits.2.1
    | multipart_sar =>
      dsimp only
      rw [hroll]
      decide
    | multipart_udh =>
      refine absurd ⟨fun h => ?_, fun h => ?_⟩ hlimits
      · exact absurd (hmode.symm.trans h) (by decide)
      · exact absurd (hmode.symm.trans h) (by decide)

/-- A message raises or is sent on the wire, in every state of the sequencer, exactly if its encoded
content is within the limits. -/
theorem allOnWire_iff (hroll : self.config.multipart_sar_reference_rollover = 0x10000)
    (message : Message) (env : ℕ → Reading) (s : InMemorySequencer) :
    AllOnWire ((self.handleOutboundMessage message).run env s).result ↔
      ∀ content, self.encodeContent message.content = .ok content →
        self.Addressable message.from_addr message.to_addr → self.WithinLimits content := by
  unfold handleOutboundMessage
  cases hencode : self.encodeContent message.content with
  | error e =>
    refine iff_of_true ?_ nofun
    rw [run_ofExcept_error_bind]
    exact nofun
  | ok content =>
    rw [run_ofExcept_ok_bind, allOnWire_submitContent hroll]
    constructor
    · intro h content' hcontent
      obtain rfl := Except.ok.inj hcontent
      exact h
    · exact fun h => h content rfl

/-! ## A message that does not allow a long one -/

/-- A processor with the default configuration. -/
def defaultProcessor : SubmitShortMessageProcessor := ⟨{}, fun s => encoded (Codecs.utf8Encode s)⟩

/-- The letter `a`, as many times as this. -/
def longMessage (n : ℕ) : Message :=
  { Message.create (str "27820000001") (str "12345") (str "sms") .sms
      ⟨0, str "m1", DateTime.min⟩ with
    content := .string (List.replicate n (ofChar 'a')) }

/-- A long message of letters is encoded letter by letter. -/
theorem encodeContent_longMessage (n : ℕ) :
    defaultProcessor.encodeContent (longMessage n).content = .ok (List.replicate n 0x61) := by
  have hbase : gsm0338CharsetMap (ofChar 'a') = some 0x61 := by decide +kernel
  have hencode : gsm0338Encode (str "strict") (List.replicate n (ofChar 'a')) =
      .ok (List.replicate n 0x61) := by
    induction n with
    | zero => rfl
    | succ n ih =>
      rw [List.replicate_succ, gsm0338Encode, hbase, ih]
      rfl
  exact (defaultProcessor.encodeContent_string rfl).trans hencode

/-- The addresses of a long message can be written. -/
theorem addressable_longMessage (n : ℕ) :
    defaultProcessor.Addressable (longMessage n).from_addr (longMessage n).to_addr := by
  obtain ⟨source_addr, hsource⟩ := Option.isSome_iff_exists.1
    (show (Codecs.utf8Encode (str "12345")).isSome = true by decide +kernel)
  obtain ⟨destination_addr, hdestination⟩ := Option.isSome_iff_exists.1
    (show (Codecs.utf8Encode (str "27820000001")).isSome = true by decide +kernel)
  refine ⟨⟨none, rfl⟩, ⟨source_addr, ?_⟩, destination_addr, ?_⟩
  · exact congrArg encoded hsource
  · exact congrArg encoded hdestination

/-- `allOnWire_iff` holds of a short one. -/
theorem short_allOnWire_iff :
    AllOnWire ((defaultProcessor.handleOutboundMessage (longMessage 2)).run
        (fun _ => ⟨0, [], DateTime.min⟩) ⟨0⟩).result ↔
      ∀ content, defaultProcessor.encodeContent (longMessage 2).content = .ok content →
        defaultProcessor.Addressable (longMessage 2).from_addr (longMessage 2).to_addr →
        defaultProcessor.WithinLimits content :=
  allOnWire_iff rfl _ _ _

/-- By default, a message of 255 octets is put into one `short_message`. -/
theorem long_not_allOnWire :
    ¬ AllOnWire ((defaultProcessor.handleOutboundMessage (longMessage 255)).run
      (fun _ => ⟨0, [], DateTime.min⟩) ⟨0⟩).result := by
  unfold handleOutboundMessage
  rw [encodeContent_longMessage, run_ofExcept_ok_bind, allOnWire_submitContent rfl]
  intro h
  have hlimits := h (addressable_longMessage 255)
  have hlen := hlimits.short_message rfl
  rw [List.length_replicate] at hlen
  omega

end SubmitShortMessageProcessor

end Vumi2.Smpp
