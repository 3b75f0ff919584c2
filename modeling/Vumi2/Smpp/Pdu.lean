import Vumi2.Lib.Text

/-!
# The PDUs of the `smpp.pdu` package

The package is not part of the repository. Its types are given as far as the transport reads or
builds them: a decoded `DeliverSM`, the parameters of a `SubmitSM`, and the responses to it. An
optional parameter that is absent, and a mandatory one that the package gives as `None`, is `none`.
-/

namespace Vumi2.Smpp

open Text

/-- `DataCodingDefault`. -/
inductive DataCodingDefault where
  | SMSC_DEFAULT_ALPHABET
  | IA5_ASCII
  | OCTET_UNSPECIFIED
  | LATIN_1
  | OCTET_UNSPECIFIED_COMMON
  | JIS
  | CYRILLIC
  | ISO_8859_8
  | UCS2
  | PICTOGRAM
  | ISO_2022_JP
  | EXTENDED_KANJI_JIS
  | KS_C_5601
deriving DecidableEq, Repr

/-- `DataCoding`: its scheme, with the data of the scheme. Only the data of the default scheme is an
enum, with a name. -/
inductive DataCoding where
  | default (schemeData : DataCodingDefault)
  | gsm_message_class (schemeData : UInt8)
  | raw (schemeData : UInt8)
deriving DecidableEq, Repr

/-- `EsmClassType`. Nothing but the name of the other types is used. -/
inductive EsmClassType where
  | DEFAULT
  | other (name : Str)
deriving DecidableEq, Repr

/-- `MessageState`. -/
inductive MessageState where
  | ENROUTE
  | DELIVERED
  | EXPIRED
  | DELETED
  | UNDELIVERABLE
  | ACCEPTED
  | UNKNOWN
  | REJECTED
deriving DecidableEq, Repr

/-- `message_state.name`. -/
def MessageState.name : MessageState → Str
  | ENROUTE => str "ENROUTE"
  | DELIVERED => str "DELIVERED"
  | EXPIRED => str "EXPIRED"
  | DELETED => str "DELETED"
  | UNDELIVERABLE => str "UNDELIVERABLE"
  | ACCEPTED => str "ACCEPTED"
  | UNKNOWN => str "UNKNOWN"
  | REJECTED => str "REJECTED"

/-- `AddrTon`. -/
inductive AddrTon where
  | UNKNOWN
  | INTERNATIONAL
  | NATIONAL
  | NETWORK_SPECIFIC
  | SUBSCRIBER_NUMBER
  | ALPHANUMERIC
  | ABBREVIATED
deriving DecidableEq, Repr

/-- `AddrNpi`. -/
inductive AddrNpi where
  | UNKNOWN
  | ISDN
  | DATA
  | TELEX
  | LAND_MOBILE
  | NATIONAL
  | PRIVATE
  | ERMES
  | INTERNET
  | WAP_CLIENT_ID
deriving DecidableEq, Repr

/-- `RegisteredDeliveryReceipt`. -/
inductive RegisteredDeliveryReceipt where
  | NO_SMSC_DELIVERY_RECEIPT_REQUESTED
  | SMSC_DELIVERY_RECEIPT_REQUESTED
  | SMSC_DELIVERY_RECEIPT_REQUESTED_FOR_FAILURE
deriving DecidableEq, Repr

/-- `RegisteredDeliverySmeOriginatedAcks`. -/
inductive RegisteredDeliverySmeOriginatedAcks where
  | SME_DELIVERY_ACK_REQUESTED
  | SME_USER_ACK_REQUESTED
deriving DecidableEq, Repr

/-- `RegisteredDelivery`. -/
structure RegisteredDelivery where
  receipt : RegisteredDeliveryReceipt
  smeOriginatedAcks : List RegisteredDeliverySmeOriginatedAcks
  intermediateNotification : Bool
deriving DecidableEq, Repr

/-- `DeliverSM`, as far as the transport reads it. -/
structure DeliverSM where
  seqNum : ℕ
  source_addr : Option Bytes
  destination_addr : Option Bytes
  esm_class : EsmClassType
  data_coding : DataCoding
  short_message : Option Bytes
  message_payload : Option Bytes
  sar_msg_ref_num : Option ℤ
  sar_total_segments : Option ℕ
  sar_segment_seqnum : Option ℕ
  receipted_message_id : Option Bytes
  message_state : Option MessageState
deriving DecidableEq, Repr

/-- `SubmitSM`, with the parameters that the transport sets. -/
structure SubmitSM where
  seqNum : ℕ
  service_type : Option Bytes
  source_addr_ton : AddrTon
  source_addr_npi : AddrNpi
  dest_addr_ton : AddrTon
  dest_addr_npi : AddrNpi
  data_coding : DataCoding
  registered_delivery : RegisteredDelivery
  source_addr : Bytes
  destination_addr : Bytes
  short_message : Option Bytes
  message_payload : Option Bytes
  sar_msg_ref_num : Option ℤ
  sar_total_segments : Option ℕ
  sar_segment_seqnum : Option ℕ
deriving DecidableEq, Repr

/-- `CommandStatus`. An error status comes with its description in the package's tables. -/
inductive CommandStatus where
  | ESME_ROK
  | error (name description : Str)
deriving DecidableEq, Repr

/-- The responses to a `SubmitSM`. -/
inductive PDUResponse where
  | submit_sm_resp (status : CommandStatus) (message_id : Option Bytes)
  | generic_nack (status : CommandStatus)
deriving DecidableEq, Repr

/-- `response.status`. -/
def PDUResponse.status : PDUResponse → CommandStatus
  | submit_sm_resp status _ => status
  | generic_nack status => status

/-- The PDUs that the transport sends. -/
inductive SentPDU where
  | submit_sm (pdu : SubmitSM)
  | deliver_sm_resp (seqNum : ℕ)
deriving DecidableEq, Repr

end Vumi2.Smpp
