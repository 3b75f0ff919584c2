import Vumi2.Smpp.Codecs
import Vumi2.Smpp.SmppCache

/-!
# Inbound short messages

`ShortMessageProcessor`: a `DeliverSM` with the fields or the header of a concatenated message is a
part of one, and is stored until the others are there; any other is a message of its own.
-/

namespace Vumi2.Smpp

open Effect Eff Text

/-- `ShortMessageProcessor`, by its configuration. -/
structure ShortMessageProcessor where
  /-- `data_coding_overrides`: codecs that replace those of `DataCodingCodecs`. -/
  data_coding_overrides : DataCodingDefault → Option Codec

/-- The default configuration. -/
def ShortMessageProcessor.default : ShortMessageProcessor := ⟨fun _ => none⟩

/-- `address.decode()`. -/
def decodeAddr (address : Option Bytes) : Except PyExc Str :=
  match address with
  | some bs => decodeUtf8 bs
  | none => .error .attributeError

/-- `bs[i:j]`. -/
def slice (bs : Bytes) (i j : ℕ) : Bytes := (bs.drop i).take (j - i)

namespace ShortMessageProcessor

variable (self : ShortMessageProcessor)

/-- The codec of a data coding. The data of a scheme other than the default one has no name. -/
def codecFor (data_coding : DataCoding) : Except PyExc Codec :=
  match data_coding with
  | .default name =>
    match self.data_coding_overrides name with
    | some codec => .ok codec
    | none => dataCodingCodecs name
  | _ => .error .attributeError

/-- `_decode_text`. -/
def decodeText (text : Option Bytes) (data_coding : DataCoding) : Except PyExc Str := do
  let codec ← self.codecFor data_coding
  match text with
  | some text => codec.decode text
  | none => .error .attributeError

/-- `_get_text`. -/
def getText (pdu : DeliverSM) : Except PyExc Str :=
  let short_message :=
    match pdu.message_payload with
    | some message_payload => some message_payload
    | none => pdu.short_message
  self.decodeText short_message pdu.data_coding

/-- The message from the addresses of a PDU, with a content. -/
def message (pdu : DeliverSM) (content : Except PyExc Str) : Py InMemorySmppCache Message := do
  let to_addr ← ofExcept (decodeAddr pdu.destination_addr)
  let from_addr ← ofExcept (decodeAddr pdu.source_addr)
  let content ← ofExcept content
  let r ← read
  pure { Message.create to_addr from_addr [] .sms r with content := .string content }

/-- `_handle_short_message`, as it is called by the coroutine `handle_deliver_sm`. -/
def handleShortMessage (pdu : DeliverSM) : Py InMemorySmppCache Message :=
  message pdu (fromCoroutine (self.getText pdu))

/-- `_extract_multipart`: the reference number, the total, the number and the octets of a part. -/
def extractMultipart (pdu : DeliverSM) : Option (ℤ × ℕ × ℕ × Option Bytes) :=
  match pdu.sar_msg_ref_num, pdu.sar_total_segments, pdu.sar_segment_seqnum with
  | some reference_number, some total_number, some part_number =>
    some (reference_number, total_number, part_number, pdu.short_message)
  | _, _, _ =>
    match pdu.short_message with
    | none => none
    | some short_message =>
      -- CSM
      let total_number := fromBytesBig (slice short_message 4 5)
      let part_number := fromBytesBig (slice short_message 5 6)
      if 6 ≤ short_message.length ∧ slice short_message 0 3 = [0x05, 0x00, 0x03] ∧
          1 ≤ total_number ∧ 1 ≤ part_number ∧ part_number ≤ total_number then
        some (fromBytesBig (slice short_message 3 4), total_number, part_number,
          some (short_message.drop 6))
      else
        -- CSM16
        let total_number := fromBytesBig (slice short_message 5 6)
        let part_number := fromBytesBig (slice short_message 6 7)
        if 7 ≤ short_message.length ∧ slice short_message 0 3 = [0x06, 0x08, 0x04] ∧
            1 ≤ total_number ∧ 1 ≤ part_number ∧ part_number ≤ total_number then
          some (fromBytesBig (slice short_message 3 5), total_number, part_number,
            some (short_message.drop 7))
        else none

/-- `_handle_multipart_message`. -/
def handleMultipartMessage (pdu : DeliverSM) : Py InMemorySmppCache (Bool × Option Message) :=
  match extractMultipart pdu with
  | none => pure (false, none)
  | some (ref_num, tot_num, part_num, content) => do
    let decoded_content ← ofExcept (fromCoroutine (self.decodeText content pdu.data_coding))
    let full_message ←
      InMemorySmppCache.storeMultipart ref_num tot_num part_num decoded_content
    match full_message with
    | none => pure (true, none)
    | some full_message => do
      let msg ← message pdu (.ok full_message)
      pure (true, some msg)

/-- `handle_deliver_sm`. -/
def handleDeliverSm (pdu : DeliverSM) : Py InMemorySmppCache (Option Message) := do
  let (handled, msg) ← self.handleMultipartMessage pdu
  if handled then pure msg
  else do
    let msg ← self.handleShortMessage pdu
    pure (some msg)

end ShortMessageProcessor

end Vumi2.Smpp
