import Vumi2.Smpp.Outcomes
import Vumi2.Smpp.Parts
import Vumi2.Smpp.Receipts

/-!
# Which inbound PDUs a session survives

An inbound PDU should be answered with one `DeliverSMResp`, whatever it holds (`Survives`). With the
default processors it is answered exactly when every octet string that has to be read for it can be
read (`Readable`): the id of a delivery report as UTF-8, the text in the codec of its data coding,
and the addresses of a message as UTF-8. A PDU that cannot be read raises, and its exception leaves
`consume_stream`.
-/

namespace Vumi2.Smpp

open Effect Eff Text InMemorySmppCache

/-! ## Reports -/

/-- Every octet is a character of Latin-1. -/
theorem latin1_decode (bs : Bytes) : Codecs.latin1.decode bs = some (bs.map ofByte) := by
  induction bs with
  | nil => rfl
  | cons b bs ih =>
    have hb : Codecs.latin1.dec b = some (ofByte b) := if_pos b.toNat_lt
    rw [Codecs.Charmap.decode] at ih ⊢
    rw [List.mapM_cons, hb, ih]
    rfl

namespace DeliveryReportProcesser

/-- Every status of the default mapping is a `DeliveryStatus`. -/
theorem mappedStatus_default (stat : Option Str) :
    ∃ status, DeliveryReportProcesser.default.mappedStatus stat = .ok status := by
  have hvalues : ∀ m ∈ deliveryReportStatusMapping, ∃ status, deliveryStatus m.2 = .ok status := by
    intro m hm
    have hthree : m.2 = str "pending" ∨ m.2 = str "failed" ∨ m.2 = str "delivered" := by
      revert m
      decide
    rcases hthree with h | h | h
    · exact ⟨.pending, by rw [h]; rfl⟩
    · exact ⟨.failed, by rw [h]; rfl⟩
    · exact ⟨.delivered, by rw [h]; rfl⟩
  rw [mappedStatus]
  cases h : stat.bind fun s =>
      DeliveryReportProcesser.default.status_mapping.find? fun m => m.1 = s with
  | none => exact ⟨.pending, rfl⟩
  | some m =>
    obtain ⟨s, _, hs⟩ := Option.bind_eq_some_iff.1 h
    exact hvalues m (List.mem_of_find?_eq_some hs)

/-- A look-up always returns. -/
theorem returns_lookUp (id : Option Str) : Returns (lookUp id) fun _ => True := by
  intro env c
  cases id with
  | some id =>
    have hpop := TimeoutDict.run_pop id env c.smpp_msg_id
    exact ⟨_, congrArg Outcome.result hpop, trivial⟩
  | none => exact ⟨none, rfl, trivial⟩

/-- Forgetting a final report always returns. -/
theorem returns_forgetIfFinal (status : DeliveryStatus) (id : Option Str) :
    Returns (forgetIfFinal status id) fun _ => True := by
  intro env c
  cases id with
  | some id => exact ⟨(), result_forgetIfFinal status env c, trivial⟩
  | none =>
    rw [forgetIfFinal]
    split_ifs
    · exact ⟨(), rfl, trivial⟩
    · exact ⟨(), rfl, trivial⟩

/-- Making an event always returns under the default configuration. -/
theorem returns_createEvent (id stat : Option Str) :
    Returns (DeliveryReportProcesser.default.createEvent id stat) fun _ => True := by
  obtain ⟨status, hstatus⟩ := mappedStatus_default stat
  rw [createEvent, hstatus, ofExcept_ok, pure_bind]
  refine returns_bind (returns_lookUp id) fun found _ => ?_
  cases found with
  | none => exact returns_pure trivial
  | some v =>
    dsimp only
    split_ifs
    · exact returns_pure trivial
    · refine returns_bind (returns_forgetIfFinal status id) fun _ _ => ?_
      intro env c
      exact ⟨_, rfl, trivial⟩

/-- A report that was read is handled. -/
theorem returns_handleRead (id stat : Option Str) :
    Returns (DeliveryReportProcesser.default.handleRead (some (id, stat))) fun r => r.1 = true := by
  rw [handleRead]
  refine returns_bind (returns_createEvent id stat) fun event _ => ?_
  exact returns_pure rfl

/-- The text of a PDU, taken as Latin-1, matches the default regex. -/
def ReportText (octets : Bytes) : Prop :=
  (deliveryReportRegex.reMatch (octets.map ofByte)).isSome = true

instance (octets : Bytes) : Decidable (ReportText octets) := inferInstanceAs (Decidable (_ = true))

/-- The groups that a report is read from are groups of the regex. -/
theorem field_groupdict {name : String} (hname : str name ∈ deliveryReportRegex.names)
    (g : Regex.Groups) :
    field (deliveryReportRegex.groupdict g) name = .ok (g.get? (str name)) := by
  have hmem : (str name, g.get? (str name)) ∈ deliveryReportRegex.groupdict g :=
    List.mem_map.2 ⟨_, hname, rfl⟩
  rw [field]
  cases h : (deliveryReportRegex.groupdict g).find? fun f => f.1 = str name with
  | some f =>
    have hname : f.1 = str name := by simpa using List.find?_some h
    obtain ⟨other, -, rfl⟩ := List.mem_map.1 (List.mem_of_find?_eq_some h)
    rw [show other = str name from hname]
  | none =>
    have := List.find?_eq_none.1 h _ hmem
    simp at this

/-- Octets are decoded as Latin-1 one by one. -/
theorem decodeLatin1_some (octets : Bytes) :
    decodeLatin1 (some octets) = .ok (octets.map ofByte) := by
  rw [decodeLatin1, latin1_decode]
  rfl

/-- What a text that matches the regex is read as. -/
theorem readsBody_match {pdu : DeliverSM} {octets : Bytes} (h : pdu.short_message = some octets)
    {g : Regex.Groups} (hg : deliveryReportRegex.reMatch (octets.map ofByte) = some g) :
    DeliveryReportProcesser.default.readsBody pdu =
      .ok (some (g.get? (str "id"), g.get? (str "stat"))) := by
  have hregex : DeliveryReportProcesser.default.regex (octets.map ofByte) =
      some (deliveryReportRegex.groupdict g) := by
    show (deliveryReportRegex.reMatch (octets.map ofByte)).map deliveryReportRegex.groupdict = _
    rw [hg]
    rfl
  have hidmem : str "id" ∈ deliveryReportRegex.names := by decide
  have hstatmem : str "stat" ∈ deliveryReportRegex.names := by decide
  rw [readsBody, h, decodeLatin1_some, ok_bind, hregex]
  dsimp only
  rw [field_groupdict hidmem, ok_bind, field_groupdict hstatmem, ok_bind]

/-- A text that matches the regex is read as a report, and never without an id or a status. -/
theorem readsBody_report {pdu : DeliverSM} {octets : Bytes} (h : pdu.short_message = some octets)
    (hreport : ReportText octets) :
    ∃ id stat, DeliveryReportProcesser.default.readsBody pdu = .ok (some (some id, some stat)) := by
  obtain ⟨g, hg⟩ := Option.isSome_iff_exists.1 hreport
  -- Both groups lie under no option of the regex.
  have hidmem : str "id" ∈ deliveryReportRegex.always := by decide
  have hstatmem : str "stat" ∈ deliveryReportRegex.always := by decide
  obtain ⟨id, hid⟩ := Regex.reMatch_always hg hidmem
  obtain ⟨stat, hstat⟩ := Regex.reMatch_always hg hstatmem
  exact ⟨id, stat, by rw [readsBody_match h hg, hid, hstat]⟩

/-- Any other text is read as no report. -/
theorem readsBody_other {pdu : DeliverSM} {octets : Bytes} (h : pdu.short_message = some octets)
    (hother : ¬ ReportText octets) : DeliveryReportProcesser.default.readsBody pdu = .ok none := by
  have hregex : DeliveryReportProcesser.default.regex (octets.map ofByte) = none := by
    show (deliveryReportRegex.reMatch (octets.map ofByte)).map deliveryReportRegex.groupdict = _
    have hno : deliveryReportRegex.reMatch (octets.map ofByte) = none := by
      simpa [ReportText] using hother
    rw [hno]
    rfl
  rw [readsBody, h, decodeLatin1_some, ok_bind, hregex]

end DeliveryReportProcesser

/-! ## Messages -/

namespace ShortMessageProcessor

/-- The octets are a text in the codec of the data coding. -/
def TextOf (data_coding : DataCoding) (octets : Option Bytes) (text : Str) : Prop :=
  ∃ name codec bs, data_coding = .default name ∧ dataCodingCodecs name = .ok codec ∧
    octets = some bs ∧ codec.decode bs = .ok text

/-- By default a data coding has the codec of its name. -/
theorem codecFor_default (name : DataCodingDefault) :
    ShortMessageProcessor.default.codecFor (.default name) = dataCodingCodecs name := rfl

/-- By default the text of a PDU is what its data coding says. -/
theorem decodeText_default {data_coding : DataCoding} {octets : Option Bytes} {text : Str} :
    ShortMessageProcessor.default.decodeText octets data_coding = .ok text ↔
      TextOf data_coding octets text := by
  constructor
  · intro h
    cases data_coding with
    | default name =>
      rw [decodeText, codecFor_default] at h
      obtain ⟨codec, hcodec, h⟩ := bind_eq_ok.1 h
      cases octets with
      | none => cases h
      | some bs => exact ⟨name, codec, bs, rfl, hcodec, rfl, h⟩
    | gsm_message_class schemeData => cases h
    | raw schemeData => cases h
  · rintro ⟨name, codec, bs, rfl, hcodec, rfl, hdecode⟩
    rw [decodeText, codecFor_default, hcodec, ok_bind]
    exact hdecode

/-- The octets of a message that is no part: the payload, if there is one. -/
def bodyOf (pdu : DeliverSM) : Option Bytes :=
  match pdu.message_payload with
  | some message_payload => some message_payload
  | none => pdu.short_message

/-- The addresses of a PDU can be read. -/
def HasAddresses (pdu : DeliverSM) : Prop := ∃ to_addr from_addr, Addressed pdu to_addr from_addr

/-- The message that a PDU is, or is a part of, can be read: the text, and the addresses where a
message is made. -/
def MessageReadable (c : InMemorySmppCache) (pdu : DeliverSM) : Prop :=
  match extractMultipart pdu with
  | some (ref_num, tot_num, part_num, content) =>
    ∃ text, TextOf pdu.data_coding content text ∧
      ((c.stored ref_num tot_num part_num text).length = tot_num → HasAddresses pdu)
  | none => HasAddresses pdu ∧ ∃ text, TextOf pdu.data_coding (bodyOf pdu) text

/-- The text of a part is needed at once, the addresses only with the last part. -/
theorem succeeds_part_iff {pdu : DeliverSM} {ref_num : ℤ} {tot_num part_num : ℕ}
    {content : Option Bytes}
    (hextract : extractMultipart pdu = some (ref_num, tot_num, part_num, content))
    (env : ℕ → Reading) (c : InMemorySmppCache) :
    Succeeds (ShortMessageProcessor.default.handleDeliverSm pdu) env c ↔
      ∃ text, TextOf pdu.data_coding content text ∧
        ((c.stored ref_num tot_num part_num text).length = tot_num → HasAddresses pdu) := by
  cases htext : ShortMessageProcessor.default.decodeText content pdu.data_coding with
  | error e =>
    obtain ⟨e', hrun⟩ := run_handleDeliverSm_undecodable _ hextract htext env c
    refine iff_of_false (not_succeeds_of_error (by rw [hrun])) ?_
    rintro ⟨text, h, _⟩
    rw [decodeText_default.2 h] at htext
    cases htext
  | ok text =>
    -- The text of the part is determined by its octets.
    have hunique : ∀ other, TextOf pdu.data_coding content other ↔ other = text := by
      intro other
      rw [← decodeText_default, htext]
      constructor
      · intro h
        cases h
        rfl
      · rintro rfl
        rfl
    simp only [hunique, exists_eq_left]
    -- Whether the part is the last one is asked of the cache, with the part in it.
    by_cases hlast : (c.stored ref_num tot_num part_num text).length = tot_num
    · by_cases haddr : HasAddresses pdu
      · obtain ⟨to_addr, from_addr, h⟩ := haddr
        have hrun := run_handleDeliverSm_last _ hextract htext h env hlast
        exact iff_of_true ⟨_, by rw [hrun]⟩ fun _ => ⟨to_addr, from_addr, h⟩
      · obtain ⟨e, hrun⟩ := run_handleDeliverSm_unaddressed _ hextract htext haddr env hlast
        exact iff_of_false (not_succeeds_of_error (by rw [hrun])) fun h => haddr (h hlast)
    · have hrun := run_handleDeliverSm_more _ hextract htext env hlast
      exact iff_of_true ⟨_, by rw [hrun]⟩ fun h => absurd h hlast

/-- A message of its own needs both. -/
theorem succeeds_single_iff {pdu : DeliverSM} (hextract : extractMultipart pdu = none)
    (env : ℕ → Reading) (c : InMemorySmppCache) :
    Succeeds (ShortMessageProcessor.default.handleDeliverSm pdu) env c ↔
      HasAddresses pdu ∧ ∃ text, TextOf pdu.data_coding (bodyOf pdu) text := by
  have hrun := run_handleDeliverSm_single ShortMessageProcessor.default hextract env c
  have htext : ShortMessageProcessor.default.getText pdu =
      ShortMessageProcessor.default.decodeText (bodyOf pdu) pdu.data_coding := rfl
  simp only [← decodeText_default, ← htext]
  by_cases h : HasAddresses pdu ∧
      ∃ text, ShortMessageProcessor.default.getText pdu = .ok text
  · obtain ⟨⟨to_addr, from_addr, haddr⟩, text, hget⟩ := h
    rw [hget, fromCoroutine_ok, run_message haddr] at hrun
    exact iff_of_true ⟨_, by rw [hrun]; rfl⟩ ⟨⟨to_addr, from_addr, haddr⟩, text, hget⟩
  · have hunread : ¬(HasAddresses pdu ∧
        ∃ text, fromCoroutine (ShortMessageProcessor.default.getText pdu) = .ok text) :=
      fun ⟨haddr, text, hget⟩ => h ⟨haddr, text, fromCoroutine_eq_ok.1 hget⟩
    obtain ⟨e, hmessage⟩ := run_message_error hunread env c
    rw [hmessage] at hrun
    exact iff_of_false (not_succeeds_of_error (by rw [hrun]; rfl)) h

/-- A message is processed exactly when it can be read. -/
theorem succeeds_handleDeliverSm (pdu : DeliverSM) (env : ℕ → Reading) (c : InMemorySmppCache) :
    Succeeds (ShortMessageProcessor.default.handleDeliverSm pdu) env c ↔ MessageReadable c pdu := by
  rw [MessageReadable]
  cases hextract : extractMultipart pdu with
  | some part => exact succeeds_part_iff hextract env c
  | none => exact succeeds_single_iff hextract env c

end ShortMessageProcessor

open DeliveryReportProcesser ShortMessageProcessor

namespace EsmeClient

variable (S : SubmitShortMessageProcessor)

/-- Processors whose inbound side has the default configurations. -/
def inboundDefaults : Processors where
  submit_sm_processor := S
  sm_processer := .default
  dr_processor := .default

/-- The handler of an inbound PDU returns, and has put one PDU on the wire: the response with its
sequence number. -/
def Survives (pdu : DeliverSM) (env : ℕ → Reading) (c : EsmeClient) : Prop :=
  Succeeds (handleDeliverSm (inboundDefaults S) pdu) env c ∧
    ((handleDeliverSm (inboundDefaults S) pdu).run env c).state.pdu_send_channel =
      c.pdu_send_channel ++ [.deliver_sm_resp pdu.seqNum]

/-- What has to be read of a PDU can be read. If its optional parameters report on a message, that
is the id. Else it needs a text, which matches the regex of the delivery reports or is, or
completes, a readable message. -/
def Readable (cache : InMemorySmppCache) (pdu : DeliverSM) : Prop :=
  match pdu.receipted_message_id, pdu.message_state with
  | some receipted_message_id, some _ => ∃ id, decodeUtf8 receipted_message_id = .ok id
  | _, _ => ∃ octets, pdu.short_message = some octets ∧
      (ReportText octets ∨ MessageReadable cache pdu)

/-- Sending on a channel always returns. -/
theorem returns_sendMessage (item : Published) : Returns (sendMessage item) fun _ => True :=
  fun _ _ => ⟨(), rfl, trivial⟩

/-- A PDU that is read as a report is forwarded or dropped. -/
theorem succeeds_forward_report {pdu : DeliverSM} {id stat : Option Str}
    (h : DeliveryReportProcesser.default.reads pdu = .ok (some (id, stat))) (env : ℕ → Reading)
    (c : EsmeClient) : Succeeds (forwardDeliverSm (inboundDefaults S) pdu) env c := by
  have hhandle : (inboundDefaults S).dr_processor.handleDeliverSm pdu =
      DeliveryReportProcesser.default.handleRead (some (id, stat)) := by
    show DeliveryReportProcesser.default.handleDeliverSm pdu = _
    rw [handleDeliverSm_eq, h, ofExcept_ok, pure_bind]
  have hreturns : Returns (forwardDeliverSm (inboundDefaults S) pdu) fun _ => True := by
    rw [forwardDeliverSm, hhandle]
    refine returns_bind (returns_on (returns_handleRead id stat)) fun r hr => ?_
    obtain ⟨handled, event⟩ := r
    obtain rfl : handled = true := hr
    cases event with
    | none => exact returns_pure trivial
    | some event => exact returns_sendMessage _
  exact succeeds_of_returns hreturns env c

/-- A PDU that cannot be read as a report or as none is not forwarded. -/
theorem not_succeeds_forward {pdu : DeliverSM} {e : PyExc}
    (h : DeliveryReportProcesser.default.reads pdu = .error e) (env : ℕ → Reading)
    (c : EsmeClient) : ¬ Succeeds (forwardDeliverSm (inboundDefaults S) pdu) env c := by
  have hhandle : (inboundDefaults S).dr_processor.handleDeliverSm pdu = raise e := by
    show DeliveryReportProcesser.default.handleDeliverSm pdu = _
    rw [handleDeliverSm_eq, h, ofExcept_error, raise_bind]
  apply not_succeeds_of_error
  rw [forwardDeliverSm, hhandle]
  rfl

/-- A PDU that is no report is forwarded exactly when its message can be read. -/
theorem succeeds_forward_message {pdu : DeliverSM}
    (h : DeliveryReportProcesser.default.reads pdu = .ok none) (env : ℕ → Reading)
    (c : EsmeClient) :
    Succeeds (forwardDeliverSm (inboundDefaults S) pdu) env c ↔
      MessageReadable c.smpp_cache pdu := by
  have hhandle : (inboundDefaults S).dr_processor.handleDeliverSm pdu = pure (false, none) := by
    show DeliveryReportProcesser.default.handleDeliverSm pdu = _
    rw [handleDeliverSm_eq, h, ofExcept_ok, pure_bind]
    rfl
  have hfirst : (onSmppCache ((inboundDefaults S).dr_processor.handleDeliverSm pdu)).run env c =
      ⟨.ok (false, none), 0, c⟩ := by
    rw [hhandle]
    rfl
  have hrest : Succeeds (forwardDeliverSm (inboundDefaults S) pdu) env c ↔
      Succeeds (onSmppCache (ShortMessageProcessor.default.handleDeliverSm pdu)) env c := by
    rw [Succeeds, forwardDeliverSm, run_bind_ok hfirst, later_zero]
    refine succeeds_bind (p := fun _ _ => True) (fun msg => ?_) env c
    cases msg with
    | none => exact returns_pure trivial
    | some msg => exact returns_sendMessage _
  rw [hrest]
  exact succeeds_handleDeliverSm pdu env c.smpp_cache

/-- A PDU is forwarded exactly if it can be read. -/
theorem succeeds_forward (pdu : DeliverSM) (env : ℕ → Reading) (c : EsmeClient) :
    Succeeds (forwardDeliverSm (inboundDefaults S) pdu) env c ↔ Readable c.smpp_cache pdu := by
  -- Without both optional parameters it is the text that is read.
  have hbody : DeliveryReportProcesser.default.reads pdu =
        DeliveryReportProcesser.default.readsBody pdu →
      (Succeeds (forwardDeliverSm (inboundDefaults S) pdu) env c ↔
        ∃ octets, pdu.short_message = some octets ∧
          (ReportText octets ∨ MessageReadable c.smpp_cache pdu)) := by
    intro hreads
    cases htext : pdu.short_message with
    | none =>
      -- `None` has no `decode`.
      have herror : DeliveryReportProcesser.default.reads pdu = .error .attributeError := by
        rw [hreads, readsBody, htext]
        rfl
      simp [not_succeeds_forward S herror env c]
    | some octets =>
      simp only [Option.some.injEq, exists_eq_left']
      by_cases hreport : ReportText octets
      · -- The text is that of a report.
        obtain ⟨id, stat, hread⟩ := readsBody_report htext hreport
        have := succeeds_forward_report S (hreads.trans hread) env c
        simp [hreport, this]
      · have hread := readsBody_other htext hreport
        rw [succeeds_forward_message S (hreads.trans hread) env c]
        simp [hreport]
  rw [Readable]
  cases hid : pdu.receipted_message_id with
  | none => exact hbody (by rw [reads, hid])
  | some receipted =>
    cases hstate : pdu.message_state with
    | none => exact hbody (by rw [reads, hid, hstate])
    | some state =>
      -- Both optional parameters are there, and only the id has to be decoded.
      dsimp only
      cases hdecode : decodeUtf8 receipted with
      | error e =>
        have herror : DeliveryReportProcesser.default.reads pdu = .error e := by
          rw [reads, hid, hstate]
          dsimp only
          rw [hdecode]
          rfl
        simp [not_succeeds_forward S herror env c]
      | ok id =>
        have hreads : DeliveryReportProcesser.default.reads pdu =
            .ok (some (some id, some state.name)) := by
          rw [reads, hid, hstate]
          dsimp only
          rw [hdecode]
          rfl
        have := succeeds_forward_report S hreads env c
        simp [this]

/-- Forwarding puts nothing on the wire. -/
theorem keeps_forwardDeliverSm (P : Processors) (pdu : DeliverSM) (sent : List SentPDU) :
    Keeps (fun _ => True) (fun c : EsmeClient => c.pdu_send_channel = sent)
      (forwardDeliverSm P pdu) := by
  have hcache : ∀ {α : Type} (m : Py InMemorySmppCache α),
      Keeps (fun _ => True) (fun c : EsmeClient => c.pdu_send_channel = sent) (onSmppCache m) :=
    fun _ => keeps_on_frame fun _ _ h => h
  have hsend : ∀ item : Published,
      Keeps (fun _ => True) (fun c : EsmeClient => c.pdu_send_channel = sent) (sendMessage item) :=
    fun _ => keeps_modify fun _ h => h
  refine keeps_bind (hcache _) fun r => ?_
  obtain ⟨handled, event⟩ := r
  cases handled with
  | true =>
    cases event with
    | none => exact keeps_pure _
    | some event => exact hsend _
  | false =>
    refine keeps_bind (hcache _) fun msg => ?_
    cases msg with
    | none => exact keeps_pure _
    | some msg => exact hsend _

/-- A PDU is answered exactly when it is forwarded. -/
theorem survives_iff_forwards (pdu : DeliverSM) (env : ℕ → Reading) (c : EsmeClient) :
    Survives S pdu env c ↔ Succeeds (forwardDeliverSm (inboundDefaults S) pdu) env c := by
  have hsucceeds : Succeeds (handleDeliverSm (inboundDefaults S) pdu) env c ↔
      Succeeds (forwardDeliverSm (inboundDefaults S) pdu) env c :=
    succeeds_bind (p := fun _ _ => True) (fun _ _ _ => ⟨(), rfl, trivial⟩) env c
  constructor
  · intro h
    exact hsucceeds.1 h.1
  · rintro ⟨⟨⟩, h⟩
    have hsent := keeps_forwardDeliverSm (inboundDefaults S) pdu c.pdu_send_channel env c
      (fun _ _ => trivial) rfl
    refine ⟨hsucceeds.2 ⟨(), h⟩, ?_⟩
    rw [handleDeliverSm, run_bind, h]
    show _ ++ [SentPDU.deliver_sm_resp pdu.seqNum] = _
    rw [hsent]

/-- A session survives a PDU exactly when the PDU can be read. -/
theorem survives_iff_readable (pdu : DeliverSM) (env : ℕ → Reading) (c : EsmeClient) :
    Survives S pdu env c ↔ Readable c.smpp_cache pdu := by
  rw [survives_iff_forwards]
  exact succeeds_forward S pdu env c

/-- A text of one octet in UCS2, which takes two for each character. -/
def oddUcs2Pdu : DeliverSM where
  seqNum := 1
  source_addr := some [0x31]
  destination_addr := some [0x32]
  esm_class := .DEFAULT
  data_coding := .default .UCS2
  short_message := some [0x61]
  message_payload := none
  sar_msg_ref_num := none
  sar_total_segments := none
  sar_segment_seqnum := none
  receipted_message_id := none
  message_state := none

/-- It ends the session, whatever the state. -/
theorem odd_ucs2_ends_session : ¬ Survives ⟨{}, fun s => encoded (Codecs.utf8Encode s)⟩ oddUcs2Pdu
    (fun _ => ⟨0, str "e", DateTime.min⟩) freshClient := by
  rw [survives_iff_forwards, succeeds_forward]
  rintro ⟨octets, hoctets, hreport | hmessage⟩
  · cases hoctets
    revert hreport
    decide
  · have hsingle : extractMultipart oddUcs2Pdu = none := by decide
    rw [MessageReadable, hsingle] at hmessage
    obtain ⟨_, text, hmessage⟩ := hmessage
    have hodd : ShortMessageProcessor.default.decodeText (some [0x61]) (.default .UCS2) =
        .error .unicodeDecodeError := rfl
    have hdecode := hodd.symm.trans (decodeText_default.2 hmessage)
    cases hdecode

end EsmeClient

end Vumi2.Smpp
