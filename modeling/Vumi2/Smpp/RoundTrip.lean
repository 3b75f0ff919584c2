import Vumi2.Smpp.Reassembly
import Vumi2.Smpp.Segmentation
import Vumi2.Smpp.Submission

/-!
# Splitting a message and putting it together

The header or the SAR fields that a segment is sent with are read back as the same numbers
(`Delivery.multipart`), so segments that arrive in any order, among those of other messages, are put
together as soon as the last one is there (`reassembles`). What the message says then is its text
exactly when the text survived being cut.
-/

namespace Vumi2.Smpp

open Effect Eff Text Chunks Codecs InMemorySmppCache ShortMessageProcessor
open SubmitShortMessageProcessor

/-! ## From the sender to the receiver -/

/-- The user data of an inbound PDU. -/
def DeliverSM.userData (pdu : DeliverSM) : UserData where
  data_coding := pdu.data_coding
  short_message := pdu.short_message
  message_payload := pdu.message_payload
  sar_msg_ref_num := pdu.sar_msg_ref_num
  sar_total_segments := pdu.sar_total_segments
  sar_segment_seqnum := pdu.sar_segment_seqnum

section

variable {P : SubmitShortMessageProcessor} {pdu : DeliverSM} {number total i : ℕ} {segment : Bytes}

/-- A part with SAR fields is read as the part it was made of. -/
theorem extract_sar (h : pdu.userData = P.segmentData .sar number total i segment) :
    extractMultipart pdu = some (P.refNum .sar number, total, i + 1, some segment) := by
  have hmessage : pdu.short_message = some segment := congrArg UserData.short_message h
  have href : pdu.sar_msg_ref_num = some (P.refNum .sar number) :=
    congrArg UserData.sar_msg_ref_num h
  have htotal : pdu.sar_total_segments = some total := congrArg UserData.sar_total_segments h
  have hpart : pdu.sar_segment_seqnum = some (i + 1) := congrArg UserData.sar_segment_seqnum h
  rw [extractMultipart, href, htotal, hpart, hmessage]

/-- The octets of the header are read as the numbers that were put into it. -/
theorem slice_udh {ref : ℕ} (segment : Bytes) (hi : i < total) (htotal : total ≤ 255)
    (href : ref < 0xFF) :
    slice (udh ref total (i + 1) ++ segment) 0 3 = [0x05, 0x00, 0x03] ∧
      fromBytesBig (slice (udh ref total (i + 1) ++ segment) 3 4) = ref ∧
      fromBytesBig (slice (udh ref total (i + 1) ++ segment) 4 5) = total ∧
      fromBytesBig (slice (udh ref total (i + 1) ++ segment) 5 6) = i + 1 ∧
      (udh ref total (i + 1) ++ segment).drop 6 = segment ∧
      6 ≤ (udh ref total (i + 1) ++ segment).length := by
  have htoNat : ∀ n < 256, fromBytesBig [UInt8.ofNat n] = n := by
    intro n hn
    rw [fromBytesBig_singleton, UInt8.toNat_ofNat']
    exact Nat.mod_eq_of_lt hn
  refine ⟨rfl, htoNat ref (by omega), htoNat total (by omega), htoNat (i + 1) (by omega), rfl, ?_⟩
  simp [udh]

/-- A part with a UDH is read as the part it was made of, if there are at most 255. -/
theorem extract_udh (h : pdu.userData = P.segmentData .udh number total i segment)
    (hi : i < total) (htotal : total ≤ 255) :
    extractMultipart pdu = some (P.refNum .udh number, total, i + 1, some segment) := by
  have hmessage : pdu.short_message = some (udh (number % 0xFF) total (i + 1) ++ segment) :=
    congrArg UserData.short_message h
  have href : pdu.sar_msg_ref_num = none := congrArg UserData.sar_msg_ref_num h
  obtain ⟨h1, h2, h3, h4, h5, h6⟩ :=
    slice_udh segment hi htotal (Nat.mod_lt number (by decide : 0 < 0xFF))
  rw [extractMultipart, href, hmessage]
  dsimp only
  rw [h1, h2, h3, h4, h5, if_pos ⟨h6, rfl, by omega, by omega, by omega⟩]
  rfl

end

/-- A message that was split: by which processor, from which text, and into which PDUs. -/
structure SplitMessage where
  processor : SubmitShortMessageProcessor
  how : Splitting
  from_addr : Str
  to_addr : Str
  text : Str
  codec : Codec
  octets : Bytes
  env : ℕ → Reading
  sequencer : InMemorySequencer
  pdus : List SubmitSM
  codec_eq : dataCodingCodecs processor.config.data_coding = .ok codec
  encoded : codec.encode text = .ok octets
  /-- It needs at least two segments. -/
  two_le : 2 ≤ (processor.segments octets).length
  le : (processor.segments octets).length ≤ 255
  split : ((processor.submitSplit how from_addr to_addr octets).run env sequencer).result = .ok pdus

namespace SplitMessage

variable (m : SplitMessage)

/-- The slices of the encoded text. -/
abbrev segments : List Bytes := m.processor.segments m.octets

/-- The reference number and the number of segments. -/
def key : ℤ × ℕ := (m.processor.refNum m.how m.sequencer.next, m.segments.length)

/-- The PDUs carry the segments. -/
theorem userData_pdus :
    m.pdus.map SubmitSM.userData = m.processor.splitData m.how m.octets m.sequencer.next := by
  have hne : m.segments ≠ [] := List.ne_nil_of_length_pos (lt_of_lt_of_le Nat.zero_lt_two m.two_le)
  exact (m.processor.userData_submitSplit hne m.split).2

/-- The user data of one PDU. -/
theorem userData_pdu {k : ℕ} (hk : k < m.segments.length) :
    m.pdus[k]?.map SubmitSM.userData =
      some (m.processor.segmentData m.how m.sequencer.next m.segments.length k m.segments[k]) := by
  rw [← List.getElem?_map, m.userData_pdus, splitData, List.getElem?_map, List.getElem?_zipIdx,
    List.getElem?_eq_getElem hk]
  simp

/-- An outbound message that `handle_outbound_message` splits. -/
def ofOutbound (P : SubmitShortMessageProcessor) (message : Message) {codec : Codec} {text : Str}
    {octets : Bytes} (hcontent : message.content = .string text)
    (hcodec : dataCodingCodecs P.config.data_coding = .ok codec)
    (hencode : codec.encode text = .ok octets) (hsplits : P.Splits octets)
    (hsubmit : P.Submittable message.from_addr message.to_addr octets)
    (hle : (P.segments octets).length ≤ 255) (env : ℕ → Reading) (s : InMemorySequencer) :
    SplitMessage where
  processor := P
  how := P.splitting
  from_addr := message.from_addr
  to_addr := message.to_addr
  text := text
  codec := codec
  octets := octets
  env := env
  sequencer := s
  pdus := ((P.handleOutboundMessage message).run env s).result.toOption.getD []
  codec_eq := hcodec
  encoded := hencode
  two_le := P.two_le_segments hsplits.2.2
  le := hle
  split := by
    have hcan := P.canSplit_iff.2 (hsubmit.2 hsplits)
    obtain ⟨pdus, hpdus, _⟩ := P.returns_submitSplit hsubmit.1 hcan env s
    rw [P.handleOutboundMessage_of_splits hcontent hcodec hencode hsplits, hpdus]
    rfl

end SplitMessage

/-- How the PDUs of a split message arrive: with the same user data, and from and to addresses that
are texts. -/
structure Delivery (m : SplitMessage) where
  source_addr : Option Bytes
  destination_addr : Option Bytes
  from_addr : Str
  to_addr : Str
  pdu : ℕ → DeliverSM
  carries : ∀ k < m.segments.length, m.pdus[k]?.map SubmitSM.userData = some (pdu k).userData
  source : ∀ k < m.segments.length, (pdu k).source_addr = source_addr
  destination : ∀ k < m.segments.length, (pdu k).destination_addr = destination_addr
  from_eq : decodeAddr source_addr = .ok from_addr
  to_eq : decodeAddr destination_addr = .ok to_addr

namespace Delivery

variable {m : SplitMessage} (d : Delivery m)

/-- The data of a PDU are those of its segment. -/
theorem userData_pdu {k : ℕ} (hk : k < m.segments.length) :
    (d.pdu k).userData =
      m.processor.segmentData m.how m.sequencer.next m.segments.length k m.segments[k] := by
  have h := d.carries k hk
  rw [m.userData_pdu hk, Option.some.injEq] at h
  exact h.symm

/-- The PDUs of a split message, passed on with the addresses of two octet strings. -/
def passedOn (m : SplitMessage) {source_addr destination_addr : Option Bytes}
    {from_addr to_addr : Str} (hfrom : decodeAddr source_addr = .ok from_addr)
    (hto : decodeAddr destination_addr = .ok to_addr) : Delivery m where
  source_addr := source_addr
  destination_addr := destination_addr
  from_addr := from_addr
  to_addr := to_addr
  pdu k :=
    let data := (m.pdus[k]?.map SubmitSM.userData).getD { data_coding := .raw 0 }
    { seqNum := k
      source_addr := source_addr
      destination_addr := destination_addr
      esm_class := .DEFAULT
      data_coding := data.data_coding
      short_message := data.short_message
      message_payload := data.message_payload
      sar_msg_ref_num := data.sar_msg_ref_num
      sar_total_segments := data.sar_total_segments
      sar_segment_seqnum := data.sar_segment_seqnum
      receipted_message_id := none
      message_state := none }
  carries k hk := by
    rw [m.userData_pdu hk]
    rfl
  source _ _ := rfl
  destination _ _ := rfl
  from_eq := hfrom
  to_eq := hto

/-- What arrives is a message in parts. -/
def multipart : Multipart where
  ref_num := m.processor.refNum m.how m.sequencer.next
  total := m.segments.length
  source_addr := d.source_addr
  destination_addr := d.destination_addr
  pdu := d.pdu
  octets k := m.segments[k]?
  extract k hk := by
    have hdata := d.userData_pdu hk
    rw [List.getElem?_eq_getElem hk]
    cases hhow : m.how with
    | sar =>
      rw [hhow] at hdata
      exact extract_sar hdata
    | udh =>
      rw [hhow] at hdata
      exact extract_udh hdata hk m.le
  source := d.source
  destination := d.destination

/-- A message in parts is between its two addresses. -/
theorem between : d.multipart.Between d.to_addr d.from_addr := ⟨d.to_eq, d.from_eq⟩

/-- The text of a part is its segment, decoded. -/
theorem text?_multipart {receiver : ShortMessageProcessor}
    (hreceiver : receiver.data_coding_overrides m.processor.config.data_coding = none) {k : ℕ}
    (hk : k < m.segments.length) :
    d.multipart.text? receiver k = (m.codec.decode m.segments[k]).toOption := by
  have hcoding : (d.pdu k).data_coding = .default m.processor.config.data_coding := by
    have h := congrArg UserData.data_coding (d.userData_pdu hk)
    cases hhow : m.how with
    | sar =>
      rw [hhow] at h
      exact h
    | udh =>
      rw [hhow] at h
      exact h
  have hcodec : receiver.codecFor (.default m.processor.config.data_coding) = .ok m.codec := by
    rw [codecFor, hreceiver]
    exact m.codec_eq
  show (receiver.decodeText m.segments[k]? (d.pdu k).data_coding).toOption = _
  rw [hcoding, List.getElem?_eq_getElem hk, decodeText, hcodec, ok_bind]

end Delivery

/-- The texts of the segments are those of the parts. -/
theorem Delivery.texts {m : SplitMessage} (d : Delivery m) {receiver : ShortMessageProcessor}
    (hreceiver : receiver.data_coding_overrides m.processor.config.data_coding = none)
    (h : SurvivesCutting m.codec m.processor.getSplitMsgLength m.text m.octets) :
    (∀ k < m.segments.length, (d.multipart.text? receiver k).isSome = true) ∧
      d.multipart.fullText receiver = m.text := by
  obtain ⟨texts, htexts, hflatten⟩ := h
  obtain ⟨hlength, hget⟩ := getElem?_of_mapM htexts
  -- Each segment is decoded by the codec that encoded it.
  have htext? : ∀ k < m.segments.length, d.multipart.text? receiver k = texts[k]? := by
    intro k hk
    obtain ⟨t, ht, hdecode⟩ := hget k _ (List.getElem?_eq_getElem hk)
    rw [d.text?_multipart hreceiver hk, hdecode, ht]
    rfl
  have hall : (List.range m.segments.length).map (d.multipart.text receiver) = texts := by
    apply List.ext_getElem?
    intro k
    by_cases hk : k < m.segments.length
    · have hk' : k < texts.length := by rwa [hlength]
      rw [List.getElem?_map, List.getElem?_range hk, Option.map_some, Multipart.text,
        htext? k hk, List.getElem?_eq_getElem hk']
      rfl
    · have hk' : ¬ k < texts.length := by rwa [hlength]
      simp [hk, hk']
  refine ⟨fun k hk => ?_, ?_⟩
  · have hk' : k < texts.length := by rwa [hlength]
    rw [htext? k hk, List.getElem?_eq_getElem hk']
    rfl
  · rw [Multipart.fullText, ← hflatten, ← hall]
    rfl

/-! ## Segments of many messages, in any order -/

section

variable {ι : Type} [DecidableEq ι] (m : ι → SplitMessage)

/-- The list of arrivals has each segment of each message once. -/
structure EachOnce (arrivals : List (Arrival ι)) : Prop where
  nodup : arrivals.Nodup
  all : ∀ i k, (i, k) ∈ arrivals ↔ k < (m i).segments.length

/-- The arrival at the position `n` is the last outstanding segment of the message `i`. -/
def LastOf (arrivals : List (Arrival ι)) (i : ι) (n : ℕ) : Prop :=
  (∃ k, arrivals[n]? = some (i, k)) ∧ ∀ k < (m i).segments.length, (i, k) ∈ arrivals.take (n + 1)

variable {m} {arrivals : List (Arrival ι)}

/-- In a list without repetitions, what is among the first elements is at one of their positions. -/
theorem lt_of_mem_take {α : Type} {l : List α} (h : l.Nodup) {a : α} {n j : ℕ}
    (hn : l[n]? = some a) (hmem : a ∈ l.take j) : n < j := by
  obtain ⟨hlt, hget⟩ := List.getElem?_eq_some_iff.1 hn
  obtain ⟨k, hk, hget'⟩ := List.mem_take_iff_getElem.1 hmem
  have heq : n = k := (h.getElem_inj_iff).1 (hget.trans hget'.symm)
  omega

/-- Each message has one last segment. -/
theorem EachOnce.existsUnique_lastOf (h : EachOnce m arrivals) (i : ι) :
    ∃! n, LastOf m arrivals i n := by
  -- The least number of arrivals that has all of its segments.
  have hall : ∃ n, ∀ k < (m i).segments.length, (i, k) ∈ arrivals.take n := by
    refine ⟨arrivals.length, fun k hk => ?_⟩
    rw [List.take_length]
    exact (h.all i k).2 hk
  have hspec := Nat.find_spec hall
  have hleast := fun n hn => Nat.find_min hall (m := n) hn
  cases hfind : Nat.find hall with
  | zero =>
    have hpos : 0 < (m i).segments.length := lt_of_lt_of_le Nat.zero_lt_two (m i).two_le
    have hmem := hspec 0 hpos
    rw [hfind] at hmem
    simp at hmem
  | succ n =>
    rw [hfind] at hspec
    have hnot := hleast n (by rw [hfind]; exact Nat.lt_succ_self n)
    push Not at hnot
    obtain ⟨k, hk, hbefore⟩ := hnot
    have hget : arrivals[n]? = some (i, k) := by
      have hmem := hspec k hk
      rw [List.take_add_one, List.mem_append] at hmem
      rcases hmem with hmem | hmem
      · exact absurd hmem hbefore
      · simpa using hmem
    refine ⟨n, ⟨⟨k, hget⟩, hspec⟩, ?_⟩
    rintro n' ⟨⟨k', hget'⟩, hall'⟩
    -- Each of the two last segments is there when the other one has come.
    have hlt : n < n' + 1 := lt_of_mem_take h.nodup hget (hall' k hk)
    have hk' : k' < (m i).segments.length := (h.all i k').1 (List.mem_of_getElem? hget')
    have hlt' : n' < n + 1 := lt_of_mem_take h.nodup hget' (hspec k' hk')
    omega

/-- A segment completes its message exactly if it is the last one. -/
theorem completes_iff_lastOf {receiver : ShortMessageProcessor} (d : ∀ i, Delivery (m i))
    {start : Dict (ℤ × ℕ) (Dict ℕ Str)}
    (hsome : ∀ a ∈ arrivals,
      (arrivedText? receiver (fun i => (d i).multipart) a).isSome = true)
    {n : ℕ} {a : Arrival ι} (ha : arrivals[n]? = some a)
    (hfits : Fits receiver (fun i => (d i).multipart) start (arrivals.take n) a) :
    Completes receiver (fun i => (d i).multipart) (arrivals.take n) a ↔
      LastOf m arrivals a.1 n := by
  have htake : arrivals.take (n + 1) = arrivals.take n ++ [a] := by
    rw [List.take_add_one, ha]
    rfl
  -- All segments so far are decoded, so the parts that came are the parts that count.
  have hdecodes : ∀ b ∈ arrivals.take n ++ [a],
      (arrivedText? receiver (fun i => (d i).multipart) b).isSome = true := by
    intro b hb
    rw [← htake] at hb
    exact hsome b (List.mem_of_mem_take hb)
  rw [hfits.completes_iff hdecodes, LastOf, htake]
  constructor
  · intro hall
    exact ⟨⟨a.2, ha⟩, hall⟩
  · intro h
    exact h.2

/-- In the end no message is pending. -/
theorem EachOnce.not_pending {receiver : ShortMessageProcessor} (d : ∀ i, Delivery (m i))
    (h : EachOnce m arrivals)
    (hsome : ∀ a ∈ arrivals,
      (arrivedText? receiver (fun i => (d i).multipart) a).isSome = true) (i : ι) :
    ¬ Pending receiver (fun i => (d i).multipart) arrivals i := by
  intro hpending
  have hsubset : List.range (m i).segments.length ⊆
      got receiver (fun i => (d i).multipart) arrivals i := by
    intro k hk
    have hmem := (h.all i k).2 (List.mem_range.1 hk)
    have hdecodes := hsome _ hmem
    exact List.mem_map.2 ⟨(i, k), List.mem_filter.2 ⟨hmem, by simpa using hdecodes⟩, rfl⟩
  have hle := (List.subperm_of_subset List.nodup_range hsubset).length_le
  have hlt : (got receiver (fun i => (d i).multipart) arrivals i).length <
    (m i).segments.length := hpending.2
  rw [List.length_range] at hle
  omega

/-- Segments of messages whose texts survive being cut are put together to these texts, each with
the last outstanding segment of its message, and nothing of them stays in the cache. -/
theorem reassembles {receiver : ShortMessageProcessor} (d : ∀ i, Delivery (m i))
    (hreceiver : ∀ i, receiver.data_coding_overrides (m i).processor.config.data_coding = none)
    (hsurvives : ∀ i,
      SurvivesCutting (m i).codec (m i).processor.getSplitMsgLength (m i).text (m i).octets)
    (hkeys : Function.Injective fun i => (m i).key) (honce : EachOnce m arrivals)
    (env : ℕ → Reading) {c : InMemorySmppCache} (hfree : ∀ i, c.multipart.get? (m i).key = none) :
    ∃ rs, ((receive receiver (pdusOf (fun i => (d i).multipart) arrivals)).run env c).result =
        .ok rs ∧ rs.length = arrivals.length ∧
      (∀ i n, LastOf m arrivals i n → ∃ reading, rs[n]? =
        some (.ok (some (messageOf (d i).to_addr (d i).from_addr (m i).text reading)))) ∧
      (∀ n < arrivals.length, (∀ i, ¬ LastOf m arrivals i n) → rs[n]? = some (.ok none)) ∧
      ∀ key, ((receive receiver (pdusOf (fun i => (d i).multipart) arrivals)).run env
        c).state.multipart.get? key = c.multipart.get? key := by
  have hvalid :
      ∀ a ∈ arrivals, a.2 < (m a.1).segments.length := fun a ha => (honce.all a.1 a.2).1 ha
  -- Survival gives each part its own text, and all together the whole.
  have htexts := fun i => (d i).texts (hreceiver i) (hsurvives i)
  have hsome : ∀ a ∈ arrivals,
      (arrivedText? receiver (fun i => (d i).multipart) a).isSome = true :=
    fun a ha => (htexts a.1).1 a.2 (hvalid a ha)
  have hcaught : Caught receiver (fun i => (d i).multipart) c.multipart [] c := caught_nil rfl
  obtain ⟨rs, hrs, hlength, hanswers, hend⟩ := run_receive hcaught hvalid honce.nodup
    (exclusive_of_injective hkeys _ _) (fun a _ => hfree a.1) env
  simp only [List.nil_append] at hanswers hend
  refine ⟨rs, hrs, hlength, fun i n hi => ?_, fun n hn hnone => ?_, fun key => ?_⟩
  · -- The last segment of a message completes it.
    obtain ⟨k, hk⟩ := hi.1
    obtain ⟨r, hr, hfits, hanswer⟩ := hanswers n _ hk
    have hcompletes := (completes_iff_lastOf d hsome hk hfits).2 hi
    obtain ⟨reading, hmsg⟩ := hanswer.last hcompletes _ _ (d i).between
    refine ⟨reading, ?_⟩
    rw [hr, hmsg, (htexts i).2]
  · -- A segment that is not the last of its message completes nothing.
    have hget : arrivals[n]? = some arrivals[n] := List.getElem?_eq_getElem hn
    obtain ⟨r, hr, hfits, hanswer⟩ := hanswers n _ hget
    have hmore := hanswer.more (hsome _ (List.getElem_mem hn)) fun hcompletes =>
      hnone _ ((completes_iff_lastOf d hsome hget hfits).1 hcompletes)
    rw [hr, hmore]
  · exact hend.others key fun i _ hpending => honce.not_pending d hsome i hpending

/-- In Latin-1 every text survives. So however the segments of messages with different numbers are
mixed, each message is put together once, with its last outstanding segment. -/
theorem latin1_reassembles {receiver : ShortMessageProcessor} (d : ∀ i, Delivery (m i))
    (hlatin1 : ∀ i, (m i).processor.config.data_coding = .LATIN_1)
    (hreceiver : receiver.data_coding_overrides .LATIN_1 = none)
    (hkeys : Function.Injective fun i => (m i).key) (honce : EachOnce m arrivals)
    (env : ℕ → Reading) {c : InMemorySmppCache} (hempty : c.multipart = Dict.empty) :
    ∃ rs, ((receive receiver (pdusOf (fun i => (d i).multipart) arrivals)).run env c).result =
        .ok rs ∧ rs.length = arrivals.length ∧
      (∀ i, ∃! n, LastOf m arrivals i n) ∧
      (∀ i n, LastOf m arrivals i n → ∃ reading, rs[n]? =
        some (.ok (some (messageOf (d i).to_addr (d i).from_addr (m i).text reading)))) ∧
      (∀ n < arrivals.length, (∀ i, ¬ LastOf m arrivals i n) → rs[n]? = some (.ok none)) ∧
      ((receive receiver (pdusOf (fun i => (d i).multipart) arrivals)).run env c).state.multipart =
        Dict.empty := by
  -- A character of Latin-1 is one octet, so no cut goes through a character.
  have hsurvives : ∀ i,
      SurvivesCutting (m i).codec (m i).processor.getSplitMsgLength (m i).text (m i).octets := by
    intro i
    have hpos := (m i).processor.getSplitMsgLength_pos
    rw [survivesCutting_iff_cutsCleanly (m i).codec_eq hpos (m i).encoded, hlatin1 i]
    trivial
  -- The general result, for a cache that is empty at first.
  obtain ⟨rs, hrs, hlength, hlast, hmore, hend⟩ := reassembles d
    (fun i => by rw [hlatin1 i, hreceiver]) hsurvives hkeys honce env
    (fun i => by rw [hempty, Dict.get?_empty])
  refine ⟨rs, hrs, hlength, honce.existsUnique_lastOf, hlast, hmore, ?_⟩
  apply Dict.eq_empty_of_get?
  intro key
  rw [hend, hempty, Dict.get?_empty]

end

/-! ## One message -/

/-- The segments of one message, in order. -/
def inOrder (n : ℕ) : List (Arrival Unit) := (List.range n).map fun k => ((), k)

/-- In order, the segments arrive one after the other, and no others. -/
theorem getElem?_inOrder {n k : ℕ} {a : Arrival Unit} :
    (inOrder n)[k]? = some a ↔ k < n ∧ a = ((), k) := by
  rw [inOrder, List.getElem?_map, Option.map_eq_some_iff]
  constructor
  · rintro ⟨j, hj, rfl⟩
    obtain ⟨hk, rfl⟩ := List.getElem?_eq_some_iff.1 hj
    rw [List.length_range] at hk
    exact ⟨hk, by rw [List.getElem_range]⟩
  · rintro ⟨hk, rfl⟩
    exact ⟨k, List.getElem?_range hk, rfl⟩

/-- In order, each segment arrives once. -/
theorem eachOnce_inOrder (m : SplitMessage) :
    EachOnce (fun _ : Unit => m) (inOrder m.segments.length) where
  nodup := List.nodup_range.map fun j k h => congrArg Prod.snd h
  all i k := by
    rw [inOrder, List.mem_map]
    constructor
    · rintro ⟨j, hj, heq⟩
      obtain rfl : j = k := congrArg Prod.snd heq
      exact List.mem_range.1 hj
    · intro hk
      exact ⟨k, List.mem_range.2 hk, rfl⟩

/-- In order, the last segment is the last arrival. -/
theorem lastOf_inOrder (m : SplitMessage) (n : ℕ) :
    LastOf (fun _ : Unit => m) (inOrder m.segments.length) () n ↔ n + 1 = m.segments.length := by
  have hnodup := (eachOnce_inOrder m).nodup
  constructor
  · rintro ⟨⟨k, hk⟩, hall⟩
    obtain ⟨hn, _⟩ := getElem?_inOrder.1 hk
    have hlt : m.segments.length - 1 < m.segments.length := by omega
    have hlast : (inOrder m.segments.length)[m.segments.length - 1]? =
        some ((), m.segments.length - 1) := getElem?_inOrder.2 ⟨hlt, rfl⟩
    have hle := lt_of_mem_take hnodup hlast (hall (m.segments.length - 1) hlt)
    omega
  · intro hn
    refine ⟨⟨n, getElem?_inOrder.2 ⟨by omega, rfl⟩⟩, fun k hk => ?_⟩
    have hlength : (inOrder m.segments.length).length = n + 1 := by simp [inOrder, hn]
    rw [← hlength, List.take_length]
    exact ((eachOnce_inOrder m).all () k).2 hk

/-- The answers to the segments of one message in order: none until the last one, and then the
message. -/
def OneMessage (receiver : ShortMessageProcessor) (m : SplitMessage) : Prop :=
  ∀ (d : Delivery m) (env : ℕ → Reading) (c : InMemorySmppCache), c.multipart.get? m.key = none →
    ∃ reading, ((receive receiver ((List.range m.segments.length).map d.pdu)).run env c).result =
      .ok (List.replicate (m.segments.length - 1) (.ok none) ++
        [.ok (some (messageOf d.to_addr d.from_addr m.text reading))])

/-- The segments of a text that survives being cut give one message. -/
theorem oneMessage_of_survivesCutting {m : SplitMessage} {receiver : ShortMessageProcessor}
    (hreceiver : receiver.data_coding_overrides m.processor.config.data_coding = none)
    (h : SurvivesCutting m.codec m.processor.getSplitMsgLength m.text m.octets) :
    OneMessage receiver m := by
  intro d env c hfree
  -- There is one message only, so nothing is mixed.
  have hkeys : Function.Injective fun _ : Unit => m.key := Function.injective_of_subsingleton _
  obtain ⟨rs, hrs, hlength, hlast, hmore, _⟩ := reassembles (fun _ : Unit => d)
    (fun _ => hreceiver) (fun _ => h) hkeys (eachOnce_inOrder m) env (fun _ => hfree)
  have htwo : 2 ≤ m.segments.length := m.two_le
  have hpdus : pdusOf (fun _ : Unit => d.multipart) (inOrder m.segments.length) =
      (List.range m.segments.length).map d.pdu := by
    rw [pdusOf, inOrder, List.map_map]
    rfl
  have hcount : (inOrder m.segments.length).length = m.segments.length := by simp [inOrder]
  obtain ⟨reading, hmsg⟩ :=
    hlast () (m.segments.length - 1) ((lastOf_inOrder m _).2 (by omega))
  refine ⟨reading, ?_⟩
  rw [← hpdus, hrs, Except.ok.injEq]
  apply List.ext_getElem?
  intro n
  -- The segments before the last one, the last one, and no more.
  rcases Nat.lt_trichotomy (n + 1) m.segments.length with hlt | heq | hgt
  · have hn : n < m.segments.length - 1 := by omega
    have hnone : ∀ i, ¬ LastOf (fun _ : Unit => m) (inOrder m.segments.length) i n := by
      intro i hi
      have := (lastOf_inOrder m n).1 hi
      omega
    rw [hmore n (by omega) hnone, List.getElem?_append_left (by rwa [List.length_replicate]),
      List.getElem?_replicate, if_pos hn]
  · obtain rfl : n = m.segments.length - 1 := by omega
    have hreplicate : (List.replicate (m.segments.length - 1)
        (.ok none : Except PyExc (Option Message))).length = m.segments.length - 1 :=
      List.length_replicate
    rw [hmsg, List.getElem?_append_right hreplicate.le, hreplicate, Nat.sub_self]
    rfl
  · rw [List.getElem?_eq_none (by omega), List.getElem?_eq_none]
    rw [List.length_append, List.length_replicate, List.length_singleton]
    omega

/-- A long message survives being split exactly when it is cut cleanly. -/
theorem survives_split_iff (m : SplitMessage) {receiver : ShortMessageProcessor}
    (hreceiver : receiver.data_coding_overrides m.processor.config.data_coding = none) :
    SurvivesCutting m.codec m.processor.getSplitMsgLength m.text m.octets ∧
        OneMessage receiver m ↔
      CutsCleanly m.processor.config.data_coding m.processor.getSplitMsgLength m.text := by
  have hpos := m.processor.getSplitMsgLength_pos
  rw [← survivesCutting_iff_cutsCleanly m.codec_eq hpos m.encoded]
  constructor
  · intro h
    exact h.1
  · intro h
    exact ⟨h, oneMessage_of_survivesCutting hreceiver h⟩

/-! ## Examples -/

/-- A processor with its defaults, except for the data coding and the way of splitting. -/
def splitter (data_coding : DataCodingDefault) (multipart_handling : MultipartHandling) :
    SubmitShortMessageProcessor where
  config := { data_coding := data_coding, multipart_handling := multipart_handling }
  octets s := Vumi2.Smpp.encoded (utf8Encode s)

/-- An outbound message from `1` to `2`. -/
def outbound (text : Str) : Message :=
  { Message.create (str "2") (str "1") [] .sms ⟨0, str "m", DateTime.min⟩ with
    content := .string text }

/-- A content of at most 255 segments can be submitted. -/
theorem submittable_splitter {data_coding : DataCodingDefault}
    {multipart_handling : MultipartHandling} {octets : Bytes}
    (hle : ((splitter data_coding multipart_handling).segments octets).length ≤ 255) :
    (splitter data_coding multipart_handling).Submittable (str "1") (str "2") octets := by
  refine ⟨⟨⟨none, rfl⟩, ⟨[0x31], rfl⟩, ⟨[0x32], rfl⟩⟩, fun _ => ?_⟩
  cases multipart_handling with
  | multipart_sar =>
    show (0x10000 : ℤ) ≠ 0
    decide
  | _ => exact hle

/-- Of 70 characters one has four octets in UTF-16, and the first cut falls into it. -/
def pairText : Str :=
  List.replicate 66 (ofChar 'a') ++ ofChar '😀' :: List.replicate 3 (ofChar 'a')

/-- The text with a character outside the BMP is encoded in surrogates. -/
theorem encode_pairText : utf16beCodec.encode pairText = .ok (pairText.flatMap utf16Word) := by
  have ha : IsScalar (ofChar 'a') := by decide
  have hface : IsScalar (ofChar '😀') := by decide
  have hscalar : ∀ c ∈ pairText, IsScalar c := by
    intro c hc
    simp only [pairText, List.mem_append, List.mem_replicate, List.mem_cons] at hc
    rcases hc with ⟨_, rfl⟩ | rfl | ⟨_, rfl⟩
    · exact ha
    · exact hface
    · exact ha
  rw [encode_utf16beCodec, utf16Encode, if_pos hscalar, encoded_eq_ok_iff]

/-- The message of these characters, split by UDH. -/
def pairMessage : SplitMessage :=
  have hsplits : (splitter .UCS2 .multipart_udh).Splits (pairText.flatMap utf16Word) := by
    decide +kernel
  have hle : ((splitter .UCS2 .multipart_udh).segments (pairText.flatMap utf16Word)).length ≤ 255 :=
    by decide +kernel
  .ofOutbound (splitter .UCS2 .multipart_udh) (outbound pairText) rfl rfl encode_pairText hsplits
    (submittable_splitter hle) hle (fun _ => ⟨0, str "e", DateTime.min⟩) ⟨0⟩

/-- A surrogate pair is cut in two, and neither of the two segments can be decoded. -/
theorem pair_does_not_survive :
    ¬ (SurvivesCutting pairMessage.codec pairMessage.processor.getSplitMsgLength pairMessage.text
        pairMessage.octets ∧ OneMessage .default pairMessage) := by
  rintro ⟨h, _⟩
  have hpos := pairMessage.processor.getSplitMsgLength_pos
  rw [survivesCutting_iff_cutsCleanly pairMessage.codec_eq hpos pairMessage.encoded] at h
  have hcut : ¬ Decoder.NoneCut 134 utf16Word 0 pairText := by decide +kernel
  exact hcut h

/-- A text of 141 characters, one too many for a single message. -/
def latin1Text : Str := List.replicate 141 (ofChar 'a')

/-- The text in Latin-1 is one octet for each character. -/
theorem encode_latin1Text :
    (charmapCodec latin1).encode latin1Text = .ok (List.replicate 141 0x61) := by
  show Vumi2.Smpp.encoded (latin1.encode latin1Text) = _
  rw [encoded_eq_ok_iff]
  decide +kernel

/-- It takes two segments, with either method. -/
theorem length_latin1Segments (multipart_handling : MultipartHandling) :
    ((splitter .LATIN_1 multipart_handling).segments (List.replicate 141 0x61)).length = 2 := by
  show (chunks 134 _).length = 2
  rw [length_chunks, List.length_replicate]

/-- It splits with SAR fields. -/
theorem splits_sar : (splitter .LATIN_1 .multipart_sar).Splits (List.replicate 141 0x61) := by
  decide +kernel

/-- It splits with a UDH. -/
theorem splits_udh : (splitter .LATIN_1 .multipart_udh).Splits (List.replicate 141 0x61) := by
  decide +kernel

/-- The message of this text, split by a processor whose sequencer stands at `n`. -/
def latin1Message (multipart_handling : MultipartHandling) (n : ℕ)
    (hsplits : (splitter .LATIN_1 multipart_handling).Splits (List.replicate 141 0x61)) :
    SplitMessage :=
  have hle : ((splitter .LATIN_1 multipart_handling).segments
      (List.replicate 141 0x61)).length ≤ 255 := by
    rw [length_latin1Segments]
    decide
  .ofOutbound (splitter .LATIN_1 multipart_handling) (outbound latin1Text) rfl rfl
    encode_latin1Text hsplits (submittable_splitter hle) hle
    (fun _ => ⟨0, str "e", DateTime.min⟩) ⟨n⟩

/-- A text in Latin-1 survives. -/
theorem latin1_survives :
    SurvivesCutting (charmapCodec latin1) (splitter .LATIN_1 .multipart_sar).getSplitMsgLength
        latin1Text (List.replicate 141 0x61) ∧
      OneMessage .default (latin1Message .multipart_sar 0 splits_sar) :=
  (survives_split_iff (latin1Message .multipart_sar 0 splits_sar) rfl).2 trivial

/-- Two messages with different reference numbers, one split by UDH and one by SAR. -/
def latin1Messages : Bool → SplitMessage
  | false => latin1Message .multipart_udh 0 splits_udh
  | true => latin1Message .multipart_sar 1 splits_sar

/-- Both messages have two segments. -/
theorem length_latin1Messages (i : Bool) : (latin1Messages i).segments.length = 2 := by
  cases i with
  | false => exact length_latin1Segments .multipart_udh
  | true => exact length_latin1Segments .multipart_sar

/-- Their keys differ. -/
theorem latin1Messages_keys : Function.Injective fun i => (latin1Messages i).key := by
  have hfalse : (latin1Messages false).key.1 = 1 := rfl
  have htrue : (latin1Messages true).key.1 = 2 := rfl
  intro i j h
  have hnumbers : (latin1Messages i).key.1 = (latin1Messages j).key.1 := congrArg Prod.fst h
  cases i with
  | false =>
    cases j with
    | false => rfl
    | true =>
      rw [hfalse, htrue] at hnumbers
      cases hnumbers
  | true =>
    cases j with
    | false =>
      rw [hfalse, htrue] at hnumbers
      cases hnumbers
    | true => rfl

/-- The segments of the two messages in a mixed order. -/
def mixedArrivals : List (Arrival Bool) := [(true, 1), (false, 0), (true, 0), (false, 1)]

/-- In the mixed order, each segment of both arrives once. -/
theorem eachOnce_mixedArrivals : EachOnce latin1Messages mixedArrivals where
  nodup := by decide
  all i k := by
    rw [length_latin1Messages]
    constructor
    · intro h
      have hall : ∀ a ∈ mixedArrivals, a.2 < 2 := by decide
      exact hall _ h
    · intro hk
      have hall : ∀ i : Bool, ∀ k < 2, (i, k) ∈ mixedArrivals := by decide
      exact hall i k hk

/-- Each of the two messages comes out with its last segment. -/
theorem mixed_arrivals_reassemble :
    ∃ rs, ((receive .default (pdusOf (fun i => (Delivery.passedOn (latin1Messages i)
        (show decodeAddr (some [0x31]) = .ok (str "1") from rfl)
        (show decodeAddr (some [0x32]) = .ok (str "2") from rfl)).multipart)
          mixedArrivals)).run (fun _ => ⟨0, str "e", DateTime.min⟩) (.new 86400)).result =
        .ok rs ∧ rs.length = 4 ∧
      (∀ i, ∃! n, LastOf latin1Messages mixedArrivals i n) ∧
      ∀ i n, LastOf latin1Messages mixedArrivals i n → ∃ reading, rs[n]? =
        some (.ok (some (messageOf (str "2") (str "1") (latin1Messages i).text reading))) := by
  -- The two messages meet the conditions of the general result.
  have hlatin1 : ∀ i, (latin1Messages i).processor.config.data_coding = .LATIN_1 := by
    intro i
    cases i with
    | false => rfl
    | true => rfl
  have hreceiver : ShortMessageProcessor.default.data_coding_overrides .LATIN_1 = none := rfl
  have hempty : (InMemorySmppCache.new 86400).multipart = Dict.empty := rfl
  obtain ⟨rs, hrs, hlength, hunique, hlast, _⟩ := latin1_reassembles
    (fun i => Delivery.passedOn (latin1Messages i)
      (show decodeAddr (some [0x31]) = .ok (str "1") from rfl)
      (show decodeAddr (some [0x32]) = .ok (str "2") from rfl))
    hlatin1 hreceiver latin1Messages_keys eachOnce_mixedArrivals
    (fun _ => ⟨0, str "e", DateTime.min⟩) hempty
  exact ⟨rs, hrs, hlength, hunique, hlast⟩

end Vumi2.Smpp
