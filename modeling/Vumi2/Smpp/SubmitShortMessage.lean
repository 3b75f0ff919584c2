import Vumi2.Lib.Chunks
import Vumi2.Smpp.Codecs
import Vumi2.Smpp.SmppCache

/-!
# Outbound messages as `SubmitSM` PDUs

`SubmitShortMessageProcessor`: a message is encoded, and becomes one PDU or one PDU for each slice
of the encoded octets.
-/

namespace Vumi2.Smpp

open Effect Eff Text Chunks

/-- `MultipartHandling`. -/
inductive MultipartHandling where
  | short_message
  | message_payload
  | multipart_sar
  | multipart_udh
deriving DecidableEq, Repr

/-- `RegisteredDeliveryConfig`. -/
structure RegisteredDeliveryConfig where
  delivery_receipt : RegisteredDeliveryReceipt := .NO_SMSC_DELIVERY_RECEIPT_REQUESTED
  sme_originated_acks : List RegisteredDeliverySmeOriginatedAcks := []
  intermediate_notification : Bool := false
deriving DecidableEq, Repr

/-- `SubmitShortMessageProcessorConfig`. -/
structure SubmitShortMessageProcessorConfig where
  data_coding : DataCodingDefault := .SMSC_DEFAULT_ALPHABET
  multipart_handling : MultipartHandling := .short_message
  service_type : Option Str := none
  source_addr_ton : AddrTon := .UNKNOWN
  source_addr_npi : AddrNpi := .UNKNOWN
  dest_addr_ton : AddrTon := .UNKNOWN
  dest_addr_npi : AddrNpi := .ISDN
  registered_delivery : RegisteredDeliveryConfig := {}
  multipart_sar_reference_rollover : ℤ := 0x10000
deriving DecidableEq, Repr

/-- `SubmitShortMessageProcessor`. -/
structure SubmitShortMessageProcessor where
  config : SubmitShortMessageProcessorConfig
  /-- What the package makes of a `str` that a PDU is built with. -/
  octets : Str → Except PyExc Bytes

/-- The arguments of `_submit_sm` that differ from one call to the next. -/
structure SubmitArgs where
  source_addr : Str
  destination_addr : Str
  short_message : Option Bytes := none
  message_payload : Option Bytes := none
  sar_msg_ref_num : Option ℤ := none
  sar_total_segments : Option ℕ := none
  sar_segment_seqnum : Option ℕ := none

/-- `message.content or ""`, which must be a `str` to be encoded. -/
def contentText (content : Json) : Except PyExc Str :=
  if content.truthy then
    match content with
    | .string s => .ok s
    | _ => .error .attributeError
  else .ok []

/-- `bytes([n])`. -/
def octet (n : ℕ) : Except PyExc Bytes :=
  if n < 256 then .ok [UInt8.ofNat n] else .error .valueError

/-- `n % m`, for integers. -/
def pyMod (n m : ℤ) : Except PyExc ℤ :=
  if m = 0 then .error .zeroDivisionError else .ok (n.fmod m)

/-- A PDU for each of a list of segments, which are numbered from `i` on. -/
def eachSegment {σ : Type} (submit : ℕ → Bytes → Py σ SubmitSM) :
    ℕ → List Bytes → Py σ (List SubmitSM)
  | _, [] => pure []
  | i, segment :: segments => do
    let pdu ← submit i segment
    let pdus ← eachSegment submit (i + 1) segments
    pure (pdu :: pdus)

namespace SubmitShortMessageProcessor

variable (self : SubmitShortMessageProcessor)

/-- `_get_msg_length(split_msg=False)`. -/
def getMsgLength : ℕ :=
  if self.config.data_coding = .SMSC_DEFAULT_ALPHABET ∨ self.config.data_coding = .IA5_ASCII then
    160
  else 140

/-- `_get_msg_length(split_msg=True)`. -/
def getSplitMsgLength : ℕ :=
  if self.config.data_coding = .SMSC_DEFAULT_ALPHABET ∨ self.config.data_coding = .IA5_ASCII then
    153
  else 134

/-- `_fits_in_one_message`. -/
def fitsInOneMessage (content : Bytes) : Bool := content.length ≤ self.getMsgLength

/-- `_submit_sm`. -/
def submitSm (args : SubmitArgs) : Py InMemorySequencer SubmitSM := do
  let seqNum ← getNextSequenceNumber
  let service_type ← ofExcept (self.config.service_type.mapM self.octets)
  let source_addr ← ofExcept (self.octets args.source_addr)
  let destination_addr ← ofExcept (self.octets args.destination_addr)
  pure
    { seqNum := seqNum
      service_type := service_type
      source_addr_ton := self.config.source_addr_ton
      source_addr_npi := self.config.source_addr_npi
      dest_addr_ton := self.config.dest_addr_ton
      dest_addr_npi := self.config.dest_addr_npi
      data_coding := .default self.config.data_coding
      registered_delivery :=
        ⟨self.config.registered_delivery.delivery_receipt,
          self.config.registered_delivery.sme_originated_acks,
          self.config.registered_delivery.intermediate_notification⟩
      source_addr := source_addr
      destination_addr := destination_addr
      short_message := args.short_message
      message_payload := args.message_payload
      sar_msg_ref_num := args.sar_msg_ref_num
      sar_total_segments := args.sar_total_segments
      sar_segment_seqnum := args.sar_segment_seqnum }

/-- `submit_sm_short_message`. -/
def submitSmShortMessage (from_addr to_addr : Str) (short_message : Bytes) :
    Py InMemorySequencer SubmitSM :=
  self.submitSm
    { source_addr := from_addr, destination_addr := to_addr, short_message := some short_message }

/-- `submit_sm_long_message`. -/
def submitSmLongMessage (from_addr to_addr : Str) (message : Bytes) :
    Py InMemorySequencer SubmitSM :=
  self.submitSm
    { source_addr := from_addr, destination_addr := to_addr, message_payload := some message }

/-- `_split_message`. -/
def splitMessage (message : Bytes) (size : ℕ) : List Bytes := chunks size message

/-- The PDU of one segment in `submit_csm_sar_message`. -/
def submitSarSegment (from_addr to_addr : Str) (ref_num : ℤ) (total i : ℕ) (segment : Bytes) :
    Py InMemorySequencer SubmitSM :=
  self.submitSm
    { source_addr := from_addr
      destination_addr := to_addr
      sar_msg_ref_num := some ref_num
      sar_total_segments := some total
      sar_segment_seqnum := some (i + 1)
      short_message := some segment }

/-- `submit_csm_sar_message`. -/
def submitCsmSarMessage (from_addr to_addr : Str) (message : Bytes) :
    Py InMemorySequencer (List SubmitSM) := do
  let number ← getNextSequenceNumber
  let ref_num ← ofExcept (pyMod number self.config.multipart_sar_reference_rollover)
  let segments := splitMessage message self.getSplitMsgLength
  eachSegment (self.submitSarSegment from_addr to_addr ref_num segments.length) 0 segments

/-- The PDU of one segment in `submit_csm_udh_message`. -/
def submitUdhSegment (from_addr to_addr : Str) (ref_num total i : ℕ) (segment : Bytes) :
    Py InMemorySequencer SubmitSM := do
  let ref_octet ← ofExcept (octet ref_num)
  let total_octet ← ofExcept (octet total)
  let part_octet ← ofExcept (octet (i + 1))
  self.submitSm
    { source_addr := from_addr
      destination_addr := to_addr
      short_message := some
        ([0x05] ++ [0x00] ++ [0x03] ++ ref_octet ++ total_octet ++ part_octet ++ segment) }

/-- `submit_csm_udh_message`. -/
def submitCsmUdhMessage (from_addr to_addr : Str) (message : Bytes) :
    Py InMemorySequencer (List SubmitSM) := do
  let number ← getNextSequenceNumber
  let ref_num := number % 0xFF
  let segments := splitMessage message self.getSplitMsgLength
  eachSegment (self.submitUdhSegment from_addr to_addr ref_num segments.length) 0 segments

/-- The first part of `handle_outbound_message`: the octets of a content. -/
def encodeContent (content : Json) : Except PyExc Bytes := do
  let codec ← dataCodingCodecs self.config.data_coding
  let text ← contentText content
  codec.encode text

/-- The second part of `handle_outbound_message`: the PDUs of the octets. -/
def submitContent (from_addr to_addr : Str) (message_content : Bytes) :
    Py InMemorySequencer (List SubmitSM) :=
  if self.config.multipart_handling = .short_message ∨ self.fitsInOneMessage message_content then do
    let pdu ← self.submitSmShortMessage from_addr to_addr message_content
    pure [pdu]
  else
    match self.config.multipart_handling with
    | .message_payload => do
      let pdu ← self.submitSmLongMessage from_addr to_addr message_content
      pure [pdu]
    | .multipart_sar => self.submitCsmSarMessage from_addr to_addr message_content
    | _ => self.submitCsmUdhMessage from_addr to_addr message_content

/-- `handle_outbound_message`. -/
def handleOutboundMessage (message : Message) : Py InMemorySequencer (List SubmitSM) := do
  let message_content ← ofExcept (self.encodeContent message.content)
  self.submitContent message.from_addr message.to_addr message_content

end SubmitShortMessageProcessor

end Vumi2.Smpp
