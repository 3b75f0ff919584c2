import Vumi2.Lib.Regex
import Vumi2.Smpp.Codecs
import Vumi2.Smpp.SmppCache

/-!
# Delivery reports

`DeliveryReportProcesser`: a `DeliverSM` may be a delivery report by its optional parameters, by its
`esm_class`, or only by its text; the report becomes an event for the vumi message whose SMPP
message id it names.
-/

namespace Vumi2.Smpp

open Effect Eff Text

/-- A character class of the code points between two characters. -/
def between (a b : Char) (c : CodePoint) : Bool := a.toNat ≤ c.val ∧ c.val ≤ b.toNat

/-- `[^ ]`. -/
def notSpace (c : CodePoint) : Bool := c ≠ ofChar ' '

/-- `\d`. Of the characters that `latin1` decodes to, these are the ASCII digits. -/
def digit : CodePoint → Bool := between '0' '9'

/-- ` +`. -/
def spaces : Regex := .many (fun c => c = ofChar ' ') 1 none

/-- `(?: +label(?P<name>value))?`. -/
def optionalField (label name : String) (value : Regex) : Regex :=
  .opt (.cat [spaces, .lit (str label), .group (str name) value])

/-- `DELIVERY_REPORT_REGEX`. -/
def deliveryReportRegex : Regex :=
  .cat
    [.lit (str "id:"), .group (str "id") (.many notSpace 0 (some 65)),
      optionalField "sub:" "sub" (.many notSpace 1 none),
      optionalField "dlvrd:" "dlvrd" (.many notSpace 1 none),
      optionalField "submit date:" "submit_date" (.many digit 0 none),
      optionalField "done date:" "done_date" (.many digit 0 none),
      spaces, .lit (str "stat:"), .group (str "stat") (.many (between 'A' 'Z') 5 (some 7)),
      optionalField "err:" "err" (.many notSpace 1 none),
      spaces, .one (fun c => c = ofChar 'T' ∨ c = ofChar 't'), .lit (str "ext:"),
      .group (str "text") (.many (fun c => c ≠ ofChar '\n') 0 (some 20)),
      .many (fun c => c ≠ ofChar '\n') 0 none]

/-- `DELIVERY_REPORT_STATUS_MAPPING`. -/
def deliveryReportStatusMapping : List (Str × Str) :=
  [(str "ENROUTE", str "pending"), (str "DELIVERED", str "delivered"),
    (str "EXPIRED", str "failed"), (str "DELETED", str "failed"),
    (str "UNDELIVERABLE", str "failed"), (str "ACCEPTED", str "delivered"),
    (str "UNKNOWN", str "pending"), (str "REJECTED", str "failed"),
    (str "DELIVRD", str "delivered"), (str "REJECTD", str "failed"), (str "FAILED", str "failed"),
    (str "0", str "delivered")]

/-- The groups of a match with the text of each, or `none` for a group that took no part. -/
abbrev Groupdict : Type := List (Str × Option Str)

/-- `DeliveryReportProcesser`, by its configuration. -/
structure DeliveryReportProcesser where
  /-- `regex.match(content)` and the `groupdict` of the match, for the configured `regex`. -/
  regex : Str → Option Groupdict
  /-- `status_mapping`. -/
  status_mapping : List (Str × Str)

/-- The default configuration. -/
def DeliveryReportProcesser.default : DeliveryReportProcesser where
  regex content := (deliveryReportRegex.reMatch content).map deliveryReportRegex.groupdict
  status_mapping := deliveryReportStatusMapping

/-- `DeliveryStatus(value)`. -/
def deliveryStatus (value : Str) : Except PyExc DeliveryStatus :=
  if value = str "pending" then .ok .pending
  else if value = str "failed" then .ok .failed
  else if value = str "delivered" then .ok .delivered
  else .error .valueError

/-- `fields[name]`. -/
def field (fields : Groupdict) (name : String) : Except PyExc (Option Str) :=
  match fields.find? (fun f => f.1 = str name) with
  | some f => .ok f.2
  | none => .error .keyError

/-- `content.decode("latin1")`. -/
def decodeLatin1 (content : Option Bytes) : Except PyExc Str :=
  match content with
  | some bs => decoded (Codecs.latin1.decode bs)
  | none => .error .attributeError

namespace DeliveryReportProcesser

variable (self : DeliveryReportProcesser)

/-- `DeliveryStatus(self.config.status_mapping.get(smpp_status, "pending"))`. A status that is not a
text is in no mapping. -/
def mappedStatus (smpp_status : Option Str) : Except PyExc DeliveryStatus :=
  deliveryStatus
    (match smpp_status.bind fun s => self.status_mapping.find? (fun m => m.1 = s) with
      | some m => m.2
      | none => str "pending")

/-- `self.smpp_cache.get_smpp_message_id(smpp_message_id)`. An id that is not a text is in no
entry. -/
def lookUp (smpp_message_id : Option Str) : Py InMemorySmppCache (Option Str) :=
  match smpp_message_id with
  | some id => InMemorySmppCache.getSmppMessageId id
  | none =>
    InMemorySmppCache.onSmppMsgId do
      TimeoutDict.removeExpired
      TimeoutDict.removeExpired
      pure none

/-- `self.smpp_cache.delete_smpp_message_id(smpp_message_id)`. -/
def forget (smpp_message_id : Option Str) : Py InMemorySmppCache Unit :=
  match smpp_message_id with
  | some id => InMemorySmppCache.deleteSmppMessageId id
  | none =>
    InMemorySmppCache.onSmppMsgId do
      TimeoutDict.removeExpired
      TimeoutDict.removeExpired

/-- The mapping of an id is deleted at a report that the message was delivered or failed. -/
def forgetIfFinal (status : DeliveryStatus) (smpp_message_id : Option Str) :
    Py InMemorySmppCache Unit :=
  if status = .delivered ∨ status = .failed then forget smpp_message_id else pure ()

/-- `_create_event`. -/
def createEvent (smpp_message_id smpp_status : Option Str) :
    Py InMemorySmppCache (Option Event) := do
  let status ← ofExcept (self.mappedStatus smpp_status)
  let vumi_message_id ← lookUp smpp_message_id
  match vumi_message_id with
  | none => pure none
  | some vumi_message_id =>
    if vumi_message_id = [] then pure none
    else do
      forgetIfFinal status smpp_message_id
      let r ← read
      pure (some (Event.deliveryReport vumi_message_id status
        [(str "smpp_delivery_status", smpp_status.elim .null .string)] r))

/-- `_handle_deliver_sm_optional_params`. -/
def handleDeliverSmOptionalParams (pdu : DeliverSM) :
    Py InMemorySmppCache (Bool × Option Event) :=
  match pdu.receipted_message_id, pdu.message_state with
  | some receipted_message_id, some message_state => do
    let id ← ofExcept (decodeUtf8 receipted_message_id)
    let event ← self.createEvent (some id) (some message_state.name)
    pure (true, event)
  | _, _ => pure (false, none)

/-- `_handle_deliver_sm_body`. -/
def handleDeliverSmBody (pdu : DeliverSM) : Py InMemorySmppCache (Bool × Option Event) := do
  let content ← ofExcept (decodeLatin1 pdu.short_message)
  match self.regex content with
  | none => pure (false, none)
  | some fields => do
    let id ← ofExcept (field fields "id")
    let stat ← ofExcept (field fields "stat")
    let event ← self.createEvent id stat
    pure (true, event)

/-- `_handle_deliver_sm_esm_class`: what follows the check of the type is the same as in
`_handle_deliver_sm_body`, but for a warning. -/
def handleDeliverSmEsmClass (pdu : DeliverSM) : Py InMemorySmppCache (Bool × Option Event) :=
  if pdu.esm_class = .DEFAULT then pure (false, none)
  else self.handleDeliverSmBody pdu

/-- The loop of `handle_deliver_sm`: each way to read a report is tried, until one handles it. -/
def tryEach :
    List (Py InMemorySmppCache (Bool × Option Event)) → Py InMemorySmppCache (Bool × Option Event)
  | [] => pure (false, none)
  | func :: funcs => do
    let r ← func
    if r.1 then pure r else tryEach funcs

/-- `handle_deliver_sm`. -/
def handleDeliverSm (pdu : DeliverSM) : Py InMemorySmppCache (Bool × Option Event) :=
  tryEach
    [self.handleDeliverSmOptionalParams pdu, self.handleDeliverSmEsmClass pdu,
      self.handleDeliverSmBody pdu]

end DeliveryReportProcesser

end Vumi2.Smpp
