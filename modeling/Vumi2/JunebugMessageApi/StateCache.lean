import Vumi2.MessageCaches
import Vumi2.Wire

/-!
# The state cache of the Junebug HTTP message API

`MemoryJunebugStateCache` keeps the inbound messages as the dictionaries that they are serialised
to, and the URLs for the events of outbound messages.
-/

namespace Vumi2

open Effect Eff Text

/-- `EventHttpInfo`. -/
structure EventHttpInfo where
  url : Str
  auth_token : Option Str

/-- `MemoryJunebugStateCache`. -/
structure MemoryJunebugStateCache where
  /-- `MemoryJunebugStateCacheConfig.store_event_info`. -/
  store_event_info : Bool
  event_http_info : TimeoutDict EventHttpInfo
  inbound : TimeoutDict Json.Members

namespace MemoryJunebugStateCache

/-- `MemoryJunebugStateCache(config)`. -/
def new (timeout : ℚ) (store_event_info : Bool) : MemoryJunebugStateCache :=
  ⟨store_event_info, TimeoutDict.new timeout, TimeoutDict.new timeout⟩

/-- A computation on the URLs for events. -/
def onEventHttpInfo {α : Type} (m : Py (TimeoutDict EventHttpInfo) α) :
    Py MemoryJunebugStateCache α :=
  on event_http_info (fun c d => { c with event_http_info := d }) m

/-- A computation on the inbound messages. -/
def onInbound {α : Type} (m : Py (TimeoutDict Json.Members) α) : Py MemoryJunebugStateCache α :=
  on inbound (fun c d => { c with inbound := d }) m

/-- `store_event_http_info`. -/
def storeEventHttpInfo (message_id url : Str) (auth_token : Option Str) :
    Py MemoryJunebugStateCache Unit := do
  let c ← get
  if c.store_event_info = true then
    onEventHttpInfo (TimeoutDict.setitem message_id ⟨url, auth_token⟩)
  else pure ()

/-- `fetch_event_http_info`. -/
def fetchEventHttpInfo (message_id : Str) : Py MemoryJunebugStateCache (Option EventHttpInfo) :=
  onEventHttpInfo (TimeoutDict.getitem message_id)

/-- `store_inbound`. -/
def storeInbound (msg : Message) : Py MemoryJunebugStateCache Unit :=
  onInbound (TimeoutDict.setitem msg.message_id msg.serialise)

/-- What `fetch_inbound` makes of the value for the identifier; an empty dictionary is false. -/
def readInbound (py : Conversions) (r : Reading) :
    Option Json.Members → Except PyExc (Option Message)
  | none => .ok none
  | some [] => .ok none
  | some msg => ((Message.deserialise py r msg).map some).mapError fun _ => .classValidationError

/-- `fetch_inbound`. -/
def fetchInbound (py : Conversions) (message_id : Str) :
    Py MemoryJunebugStateCache (Option Message) := do
  let msg ← onInbound (TimeoutDict.getitem message_id)
  let r ← read
  ofExcept (readInbound py r msg)

/-- The cache after a look-up at the time `now`. -/
def expireInbound (c : MemoryJunebugStateCache) (now : ℚ) : MemoryJunebugStateCache :=
  { c with inbound := c.inbound.expire now }

/-- The dictionary that is stored for an inbound message, if it is not too old at the time `now`. -/
def stored (c : MemoryJunebugStateCache) (now : ℚ) (message_id : Str) : Option Json.Members :=
  ((c.inbound.expire now).data.get? message_id).map Prod.snd

/-- The clock is read for the look-up, and then for the defaults of the message. -/
theorem run_fetchInbound (py : Conversions) (message_id : Str) (env : ℕ → Reading)
    (c : MemoryJunebugStateCache) :
    (fetchInbound py message_id).run env c =
      ⟨readInbound py (env 1) (c.stored (env 0).time message_id), 2,
        c.expireInbound (env 0).time⟩ := by
  have hget : (onInbound (TimeoutDict.getitem message_id)).run env c =
      ⟨.ok (c.stored (env 0).time message_id), 1, c.expireInbound (env 0).time⟩ := by
    unfold onInbound
    rw [run_on, TimeoutDict.run_getitem]
    rfl
  rw [fetchInbound, run_bind_ok hget, run_read_bind, run_ofExcept]
  rfl

end MemoryJunebugStateCache

end Vumi2
