import Mathlib.Data.List.TakeWhile
import Mathlib.Tactic.Linarith
import Vumi2.Lib.Binary64
import Vumi2.Lib.Dict
import Vumi2.Messages

/-!
# The message caches

`TimeoutDict` keeps its entries in insertion order, with the time of each insertion, and drops the
expired ones at the front before every operation. Of the methods that it inherits from
`MutableMapping`, `get` and `pop` are `__getitem__` with a default for a `KeyError`, which
`__getitem__` never raises, and `values` looks every key up in turn while it iterates over the
dictionary.

`run_getitem` and its siblings say what each operation does in terms of `expire`; what expiry
leaves is `get?_expire_of_fresh`: an entry that is no older than the timeout. So every operation on
another key keeps an entry (`keeps_pop` and its siblings).
-/

namespace Vumi2

open Effect Eff Text

/-- `TimeoutDict`. -/
structure TimeoutDict (V : Type) where
  /-- How long an entry lasts. -/
  timeout : ℚ
  /-- The entries, with the time at which each was set. -/
  data : Dict Str (ℚ × V)

namespace TimeoutDict

variable {V : Type}

/-- `TimeoutDict(timeout)`. -/
def new (timeout : ℚ) : TimeoutDict V := ⟨timeout, Dict.empty⟩

/-- `now - timestamp`: the difference of two floats is rounded. -/
def age (now timestamp : ℚ) : ℚ := Binary64.round (now - timestamp)

/-- The keys that `_remove_expired` removes: of the entries at the front that are too old. -/
def toRemove (d : TimeoutDict V) (now : ℚ) : List Str :=
  (d.data.items.takeWhile fun e => d.timeout < age now e.2.1).map Prod.fst

/-- The dictionary after `_remove_expired` at the time `now`. -/
def expire (d : TimeoutDict V) (now : ℚ) : TimeoutDict V :=
  { d with data := (d.toRemove now).foldl Dict.erase d.data }

/-- `TimeoutDict._remove_expired`. -/
def removeExpired : Py (TimeoutDict V) Unit := do
  let now ← read
  modify fun d => d.expire now.time

/-- `TimeoutDict.__setitem__`. -/
def setitem (key : Str) (value : V) : Py (TimeoutDict V) Unit := do
  modify fun d => { d with data := d.data.erase key }
  removeExpired
  let now ← read
  modify fun d => { d with data := d.data.set key (now.time, value) }

/-- `TimeoutDict.__getitem__`. -/
def getitem (key : Str) : Py (TimeoutDict V) (Option V) := do
  removeExpired
  let d ← get
  pure ((d.data.get? key).map Prod.snd)

/-- `TimeoutDict.__delitem__`. -/
def delitem (key : Str) : Py (TimeoutDict V) Unit := do
  modify fun d => { d with data := d.data.erase key }
  removeExpired

/-- `list(iter(d))`, where nothing happens between the call of `TimeoutDict.__iter__` and the end of
the iteration. -/
def listKeys : Py (TimeoutDict V) (List Str) := do
  removeExpired
  let d ← get
  pure d.data.keys

/-- `TimeoutDict.__len__`. -/
def len : Py (TimeoutDict V) ℕ := do
  removeExpired
  let d ← get
  pure d.data.length

/-- `MutableMapping.pop`. -/
def pop (key : Str) : Py (TimeoutDict V) (Option V) := do
  let value ← getitem key
  delitem key
  pure value

/-- The iteration of `values` over the remaining keys. The iterator of a dictionary raises when the
size has changed since it was made. -/
def valuesFrom (size : ℕ) : List Str → Py (TimeoutDict V) (List (Option V))
  | [] => do
    let d ← get
    if d.data.length ≠ size then raise .runtimeError
    else pure []
  | key :: keys => do
    let d ← get
    if d.data.length ≠ size then raise .runtimeError
    else
      let value ← getitem key
      let values ← valuesFrom size keys
      pure (value :: values)

/-- `list(d.values())`. -/
def values : Py (TimeoutDict V) (List (Option V)) := do
  removeExpired
  let d ← get
  valuesFrom d.data.length d.data.keys

/-! ## The age of an entry -/

/-- An entry does not get younger, and is no older than one that was set before. -/
theorem age_mono {now now' t t' : ℚ} (hnow : now ≤ now') (ht : t' ≤ t) :
    age now t ≤ age now' t' := by
  apply Binary64.round_mono
  linarith

/-- An entry that is set now. -/
@[simp] theorem age_self (now : ℚ) : age now now = 0 := by
  unfold age
  rw [sub_self, Binary64.round_zero]

/-! ## What expiry leaves -/

/-- An entry that is no older than the timeout at the time `now`. -/
def Fresh (d : TimeoutDict V) (now : ℚ) (key : Str) (value : V) : Prop :=
  ∃ t, d.data.get? key = some (t, value) ∧ age now t ≤ d.timeout

/-- Erasing keys one by one leaves the entries of the others. -/
theorem get?_foldl_erase {keys : List Str} {data : Dict Str (ℚ × V)} {key : Str} {e : ℚ × V} :
    (keys.foldl Dict.erase data).get? key = some e ↔ key ∉ keys ∧ data.get? key = some e := by
  induction keys generalizing data with
  | nil => simp
  | cons k keys ih =>
    rw [List.foldl_cons, ih]
    by_cases hk : key = k
    · simp [hk]
    · rw [Dict.get?_erase_of_ne _ hk]
      simp [hk]

/-- Expiry removes the keys of `toRemove` and no others. -/
theorem get?_expire {d : TimeoutDict V} {now : ℚ} {key : Str} {e : ℚ × V} :
    (d.expire now).data.get? key = some e ↔
      key ∉ d.toRemove now ∧ d.data.get? key = some e :=
  get?_foldl_erase

/-- Expiring leaves the time-out. -/
@[simp] theorem timeout_expire (d : TimeoutDict V) (now : ℚ) : (d.expire now).timeout = d.timeout :=
  rfl

/-- A removed key had an entry that was too old. -/
theorem of_mem_toRemove {d : TimeoutDict V} {now : ℚ} {key : Str} (h : key ∈ d.toRemove now) :
    ∃ t v, d.data.get? key = some (t, v) ∧ d.timeout < age now t := by
  obtain ⟨⟨k, t, v⟩, he, rfl⟩ := List.mem_map.1 h
  have hold := List.mem_takeWhile_imp he
  exact ⟨t, v, Dict.get?_eq_some.2 (List.takeWhile_subset _ he), by simpa using hold⟩

/-- A fresh entry survives expiry. -/
theorem get?_expire_of_fresh {d : TimeoutDict V} {now : ℚ} {key : Str} {value : V}
    (h : d.Fresh now key value) : (d.expire now).data.get? key = d.data.get? key := by
  obtain ⟨t, hget, hle⟩ := h
  rw [hget, get?_expire]
  refine ⟨fun hmem => ?_, hget⟩
  obtain ⟨t', v', hget', hlt⟩ := of_mem_toRemove hmem
  rw [hget] at hget'
  cases hget'
  linarith

/-- What is left after expiry was there before. -/
theorem get?_of_expire {d : TimeoutDict V} {now : ℚ} {key : Str} {e : ℚ × V}
    (h : (d.expire now).data.get? key = some e) : d.data.get? key = some e := (get?_expire.1 h).2

/-- Expiring adds no entry. -/
theorem get?_expire_eq_none {d : TimeoutDict V} {now : ℚ} {key : Str}
    (h : d.data.get? key = none) : (d.expire now).data.get? key = none := by
  cases hget : (d.expire now).data.get? key with
  | none => rfl
  | some e =>
    have := get?_of_expire hget
    rw [h] at this
    cases this

/-! ## What each operation does -/

/-- `_remove_expired` reads the clock once, and expires what is too old by then. -/
@[simp] theorem run_removeExpired (env : ℕ → Reading) (d : TimeoutDict V) :
    removeExpired.run env d = ⟨.ok (), 1, d.expire (env 0).time⟩ := by
  simp [removeExpired]

/-- Reading a key finds what is not too old by then. -/
theorem run_getitem (key : Str) (env : ℕ → Reading) (d : TimeoutDict V) :
    (getitem key).run env d =
      ⟨.ok (((d.expire (env 0).time).data.get? key).map Prod.snd), 1, d.expire (env 0).time⟩ := by
  rw [getitem, run_bind_ok (run_removeExpired env d)]
  simp

/-- Setting a key reads the clock for expiring, and once more for its entry. -/
theorem run_setitem (key : Str) (value : V) (env : ℕ → Reading) (d : TimeoutDict V) :
    (setitem key value).run env d =
      ⟨.ok (), 2,
        { d with
          data := (({ d with data := d.data.erase key }).expire (env 0).time).data.set key
            ((env 1).time, value) }⟩ := by
  rw [setitem, run_modify_bind, run_bind_ok (run_removeExpired env _)]
  simp [expire, toRemove]

/-- Deleting a key is done after expiring; it is no matter whether the key is there. -/
theorem run_delitem (key : Str) (env : ℕ → Reading) (d : TimeoutDict V) :
    (delitem key).run env d =
      ⟨.ok (), 1, ({ d with data := d.data.erase key }).expire (env 0).time⟩ := by
  rw [delitem, run_modify_bind, run_removeExpired]

/-- The keys are those of what is not too old by then. -/
theorem run_listKeys (env : ℕ → Reading) (d : TimeoutDict V) :
    listKeys.run env d =
      ⟨.ok (d.expire (env 0).time).data.keys, 1, d.expire (env 0).time⟩ := by
  rw [listKeys, run_bind_ok (run_removeExpired env d)]
  simp

/-- The length is that of what is not too old by then. -/
theorem run_len (env : ℕ → Reading) (d : TimeoutDict V) :
    len.run env d = ⟨.ok (d.expire (env 0).time).data.length, 1, d.expire (env 0).time⟩ := by
  rw [len, run_bind_ok (run_removeExpired env d)]
  simp

/-- What is found under a key when the clock stands at `now`. -/
def lookedUp (d : TimeoutDict V) (now : ℚ) (key : Str) : Option V :=
  ((d.expire now).data.get? key).map Prod.snd

/-- `pop` returns what a lookup returns, and the key is gone afterwards. -/
theorem run_pop (key : Str) (env : ℕ → Reading) (d : TimeoutDict V) :
    (pop key).run env d =
      ⟨.ok (((d.expire (env 0).time).data.get? key).map Prod.snd), 2,
        ({ d.expire (env 0).time with
            data := (d.expire (env 0).time).data.erase key }).expire (env 1).time⟩ := by
  rw [pop, run_bind_ok (run_getitem key env d), run_bind_ok (run_delitem key _ _)]
  simp

/-! ## What each operation leaves alone -/

/-- The entry of a key, with the time at which it was set. -/
def Holds (key : Str) (t : ℚ) (value : V) (timeout : ℚ) (d : TimeoutDict V) : Prop :=
  d.timeout = timeout ∧ d.data.get? key = some (t, value)

/-- A reading at which an entry that was set at the time `t` is not too old. -/
def InTime (t timeout : ℚ) (r : Reading) : Prop := age r.time t ≤ timeout

variable {key : Str} {t timeout : ℚ} {value : V}

/-- Expiring in time leaves the entry of the key. -/
theorem keeps_removeExpired :
    Keeps (InTime t timeout) (Holds key t value timeout)
      (removeExpired : Py (TimeoutDict V) Unit) := by
  rintro env d hok ⟨rfl, hget⟩
  rw [run_removeExpired] at hok ⊢
  exact ⟨rfl, (get?_expire_of_fresh ⟨t, hget, hok 0 (by simp)⟩).trans hget⟩

/-- Reading any key in time leaves the entry. -/
theorem keeps_getitem (other : Str) :
    Keeps (InTime t timeout) (Holds key t value timeout) (getitem other) :=
  keeps_bind keeps_removeExpired fun _ => keeps_bind keeps_get fun _ => keeps_pure _

/-- Setting another key in time leaves the entry. -/
theorem keeps_setitem {other : Str} (h : key ≠ other) (v : V) :
    Keeps (InTime t timeout) (Holds key t value timeout) (setitem other v) := by
  refine keeps_bind (keeps_modify ?_) fun _ => keeps_bind keeps_removeExpired fun _ =>
    keeps_bind keeps_read fun _ => keeps_modify ?_
  · rintro d ⟨htimeout, hget⟩
    exact ⟨htimeout, (Dict.get?_erase_of_ne _ h).trans hget⟩
  · rintro d ⟨htimeout, hget⟩
    exact ⟨htimeout, (Dict.get?_set_of_ne _ _ h).trans hget⟩

/-- Deleting another key in time leaves the entry. -/
theorem keeps_delitem {other : Str} (h : key ≠ other) :
    Keeps (InTime t timeout) (Holds key t value timeout)
      (delitem other : Py (TimeoutDict V) Unit) := by
  refine keeps_bind (keeps_modify ?_) fun _ => keeps_removeExpired
  rintro d ⟨htimeout, hget⟩
  exact ⟨htimeout, (Dict.get?_erase_of_ne _ h).trans hget⟩

/-- Popping another key in time leaves the entry. -/
theorem keeps_pop {other : Str} (h : key ≠ other) :
    Keeps (InTime t timeout) (Holds key t value timeout)
      (pop other : Py (TimeoutDict V) (Option V)) :=
  keeps_bind (keeps_getitem other) fun _ => keeps_bind (keeps_delitem h) fun _ => keeps_pure _

/-- A popped key has no entry any more. -/
theorem get?_pop (env : ℕ → Reading) (d : TimeoutDict V) :
    ((pop key).run env d).state.data.get? key = none := by
  rw [run_pop]
  exact get?_expire_eq_none (Dict.get?_erase_self _ _)

/-- Nothing is in the way of a lookup of every value: the keys are looked up one after another, and
no entry expires meanwhile. -/
theorem run_valuesFrom_of_le {env : ℕ → Reading} (hclock : Clocked env) {last : ℕ} :
    ∀ (keys : List Str) (k : ℕ) (d : TimeoutDict V), k + keys.length ≤ last + 1 →
      (∀ now, now ≤ (env last).time → d.expire now = d) →
      (valuesFrom d.data.length keys).run (later env k) d =
        ⟨.ok (keys.map fun key => (d.data.get? key).map Prod.snd), keys.length, d⟩ := by
  intro keys
  induction keys with
  | nil =>
    intro k d _ _
    simp [valuesFrom]
  | cons key keys ih =>
    intro k d hle hkeep
    simp only [List.length_cons] at hle
    have hd : d.expire (later env k 0).time = d :=
      hkeep _ (hclock (by omega))
    have hget := run_getitem key (later env k) d
    rw [hd] at hget
    have hrest := ih (k + 1) d (by omega) hkeep
    rw [valuesFrom, run_get_bind, if_neg (by simp), run_bind_ok hget, later_later,
      run_bind_ok hrest]
    simp [Nat.add_comm]

end TimeoutDict

/-! ## The in-memory message cache -/

/-- `MemoryMessageCache`. -/
structure MemoryMessageCache where
  outbounds : TimeoutDict Message
  inbounds : TimeoutDict Message

namespace MemoryMessageCache

/-- `MemoryMessageCache(config)`. -/
def new (timeout : ℚ) : MemoryMessageCache := ⟨TimeoutDict.new timeout, TimeoutDict.new timeout⟩

/-- A computation on the outbound messages. -/
def onOutbounds {α : Type} (m : Py (TimeoutDict Message) α) : Py MemoryMessageCache α :=
  on outbounds (fun c d => { c with outbounds := d }) m

/-- A computation on the inbound messages. -/
def onInbounds {α : Type} (m : Py (TimeoutDict Message) α) : Py MemoryMessageCache α :=
  on inbounds (fun c d => { c with inbounds := d }) m

/-- `MemoryMessageCache.store_outbound`. -/
def storeOutbound (outbound : Message) : Py MemoryMessageCache Unit :=
  onOutbounds (TimeoutDict.setitem outbound.message_id outbound)

/-- `MemoryMessageCache.fetch_outbound`. A key that is not a string is in no entry. -/
def fetchOutbound (message_id : Option Str) : Py MemoryMessageCache (Option Message) :=
  onOutbounds
    (match message_id with
      | some id => TimeoutDict.getitem id
      | none => do
        TimeoutDict.removeExpired
        pure none)

/-- `MemoryMessageCache.store_inbound`. -/
def storeInbound (inbound : Message) : Py MemoryMessageCache Unit :=
  onInbounds (TimeoutDict.setitem inbound.message_id inbound)

/-- `MemoryMessageCache.fetch_inbound`. -/
def fetchInbound (message_id : Str) : Py MemoryMessageCache (Option Message) :=
  onInbounds (TimeoutDict.getitem message_id)

/-- `max(messages, key=lambda x: x.timestamp)`: the first of the latest messages. -/
def latest : List Message → Option Message
  | [] => none
  | m :: ms => some (ms.foldl (fun best x => if best.timestamp < x.timestamp then x else best) m)

/-- The messages of a list of looked-up values that come from an address, which may be any JSON
value: a value that is not a string equals no address. -/
def fromAddress (from_addr : Json) (values : List (Option Message)) : List Message :=
  values.filterMap fun v =>
    match v, from_addr with
    | some msg, .string addr => if msg.from_addr = addr then some msg else none
    | _, _ => none

/-- `MemoryMessageCache.fetch_last_inbound_by_from_address`. -/
def fetchLastInboundByFromAddress (from_addr : Json) :
    Py MemoryMessageCache (Option Message) := do
  let values ← onInbounds TimeoutDict.values
  pure (latest (fromAddress from_addr values))

end MemoryMessageCache

end Vumi2
