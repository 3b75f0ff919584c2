import Vumi2.ExpiringMap

/-!
# The last inbound message from an address, while time passes

`fetch_last_inbound_by_from_address` looks every key of the inbound messages up in turn, and each
look-up reads the clock and drops what is too old by then. When that changes the size of the
dictionary, the iteration raises. So the look-up is right exactly when nothing expires between its
first reading of the clock and its last (`looksUpRight_iff`).

What it should find is said of the history of the cache alone: `Held` are the messages that were
stored and not replaced, for as long as the timeout.
-/

namespace Vumi2

open Effect Eff Text

namespace MemoryMessageCache

variable (stores : List Message) (env : ℕ → Reading) (timeout : ℚ)

/-- The uses of the dictionary of inbound messages. -/
def inboundUses : List (DictUse Message) := stores.map fun m => .setitem m.message_id m

/-- How often the clock is read before the look-up. -/
def readingsBefore : ℕ := DictUse.allReadings (inboundUses stores)

/-- The cache after the messages were stored, one after another. -/
def stored : MemoryMessageCache :=
  ((CacheUse.history (stores.map .store_inbound)).run env (new timeout)).state

/-- A message was stored, no other one was stored since under its identifier, and at the time `now`
it is not too old. -/
def Held (now : ℚ) (m : Message) : Prop :=
  DictUse.Visible (inboundUses stores) env timeout now m.message_id m

/-- What the look-up comes to. -/
def lookUp (from_addr : Str) : Outcome PyExc MemoryMessageCache (Option Message) :=
  (fetchLastInboundByFromAddress (.string from_addr)).run (later env (readingsBefore stores))
    (stored stores env timeout)

/-- The clock when the look-up starts. -/
def startTime : ℚ := (env (readingsBefore stores)).time

/-- The clock at the last of the readings that the look-up takes. -/
def endTime (from_addr : Str) : ℚ :=
  (env (readingsBefore stores + ((lookUp stores env timeout from_addr).used - 1))).time

/-- The look-up does not raise. If a message from the address is still held when it ends, it returns
one that was held when it started, and no such message is later. If none was held when it started,
it returns `None`. -/
def LooksUpRight (from_addr : Str) : Prop :=
  ∃ result, (lookUp stores env timeout from_addr).result = .ok result ∧
    ((∃ m, Held stores env timeout (endTime stores env timeout from_addr) m ∧
        m.from_addr = from_addr) →
      ∃ m, result = some m ∧ m.from_addr = from_addr ∧
        Held stores env timeout (startTime stores env) m ∧
        ∀ m', Held stores env timeout (startTime stores env) m' → m'.from_addr = from_addr →
          m'.timestamp ≤ m.timestamp) ∧
    ((∀ m, Held stores env timeout (startTime stores env) m → m.from_addr ≠ from_addr) →
      result = none)

/-- Every message in the cache that is not too old at the first reading of the look-up is still not
too old at the last one that it would take: there is one reading at first, and then one for each of
these messages. -/
def NoneExpires : Prop :=
  (stored stores env timeout).inbounds.Steady (later env (readingsBefore stores))

/-! ## The cache after its history -/

variable {stores env timeout}

/-- Storing inbound messages is setting keys of their dictionary, and nothing else. -/
theorem run_history_store (c : MemoryMessageCache) (env : ℕ → Reading) :
    ((CacheUse.history (stores.map .store_inbound)).run env c).state =
      { c with
        inbounds := ((DictUse.history (inboundUses stores)).run env c.inbounds).state } := by
  induction stores generalizing c env with
  | nil => rfl
  | cons m stores ih =>
    -- Each step reads the clock twice, in the cache and in its dictionary.
    have hcache : (attempt (CacheUse.store_inbound m).perform).run env c =
        ⟨.ok (.ok ()), 2,
          { c with inbounds :=
            ((TimeoutDict.setitem m.message_id m).run env c.inbounds).state }⟩ := by
      unfold CacheUse.perform storeInbound onInbounds
      rw [run_attempt, run_on, TimeoutDict.run_setitem]
    have hdict : (DictUse.setitem m.message_id m).perform.run env c.inbounds =
        ⟨.ok PUnit.unit, 2, ((TimeoutDict.setitem m.message_id m).run env c.inbounds).state⟩ := by
      unfold DictUse.perform
      rw [TimeoutDict.run_setitem]
    have hhistory : DictUse.history (inboundUses (m :: stores)) =
        (DictUse.setitem m.message_id m).perform >>= fun _ =>
          DictUse.history (inboundUses stores) := List.forM_cons
    rw [List.map_cons, CacheUse.history, run_bind_ok hcache, hhistory, run_bind_ok hdict, ih]

/-- The inbound messages are those that the history has set. -/
theorem inbounds_stored : (stored stores env timeout).inbounds =
    ((DictUse.history (inboundUses stores)).run env (TimeoutDict.new timeout)).state := by
  unfold stored
  rw [run_history_store]
  rfl

/-- The dictionary after some stores reflects them. -/
theorem reflects_stored (hclock : Clocked env) (stores : List Message) (timeout : ℚ) :
    DictUse.Reflects (inboundUses stores) env timeout (stored stores env timeout).inbounds := by
  rw [inbounds_stored]
  exact DictUse.reflects_history hclock timeout _

/-- A key under which a message is visible is its identifier. -/
theorem message_id_of_visible {now : ℚ} {key : Str} {m : Message}
    (h : DictUse.Visible (inboundUses stores) env timeout now key m) : key = m.message_id := by
  obtain ⟨t, ⟨before, after, huses, -, -⟩, -⟩ := h
  have hmem : DictUse.setitem key m ∈ inboundUses stores := by
    rw [huses]
    exact List.mem_append_right _ List.mem_cons_self
  obtain ⟨m', -, heq⟩ := List.mem_map.1 hmem
  cases heq
  rfl

/-- The inbound messages that are not too old when the look-up starts are those that are held. -/
theorem hasInbound_iff_held (hclock : Clocked env) (m : Message) :
    (stored stores env timeout).HasInbound (startTime stores env) m ↔
      Held stores env timeout (startTime stores env) m := by
  have hreflects := reflects_stored hclock stores timeout
  have hitems := TimeoutDict.items_expire (startTime stores env) hreflects.dated
  constructor
  · rintro ⟨e, he, rfl⟩
    have hget : ((stored stores env timeout).inbounds.expire (startTime stores env)).data.get? e.1 =
        some e.2 := Dict.get?_eq_some.2 (hitems ▸ he)
    have hvisible := hreflects.get?_expire.1 ⟨e.2.1, hget⟩
    unfold Held
    rw [← message_id_of_visible hvisible]
    exact hvisible
  · intro h
    obtain ⟨t, hget⟩ := hreflects.get?_expire.2 h
    exact ⟨_, hitems ▸ Dict.get?_eq_some.1 hget, rfl⟩

/-- What is held later is held now. -/
theorem Held.mono {now later : ℚ} {m : Message} (h : Held stores env timeout later m)
    (hle : now ≤ later) : Held stores env timeout now m := by
  obtain ⟨t, hlast, hfresh⟩ := h
  exact ⟨t, hlast, (TimeoutDict.age_mono hle le_rfl).trans hfresh⟩

/-! ## The look-up -/

/-- When nothing expires meanwhile, the look-up finds the latest message that is held. -/
theorem looksUpRight_of_noneExpires (hclock : Clocked env) (h : NoneExpires stores env timeout)
    (from_addr : Str) : LooksUpRight stores env timeout from_addr := by
  have hreflects := reflects_stored hclock stores timeout
  have hrun := run_fetchLast (hclock.later (readingsBefore stores)) hreflects.dated h
    (.string from_addr)
  -- What the loop collects is what is held at its first reading.
  have hmem : ∀ m, m ∈ (stored stores env timeout).inboundsFrom (startTime stores env)
      (.string from_addr) ↔ Held stores env timeout (startTime stores env) m ∧
        m.from_addr = from_addr := by
    intro m
    rw [mem_inboundsFrom, hasInbound_iff_held hclock, Json.string.injEq, eq_comm (a := from_addr)]
  refine ⟨_, congrArg Outcome.result hrun, ?_, fun hnone => ?_⟩
  · -- A message from the address was there from the start, so the loop finds one at least as late.
    rintro ⟨m, hheld, haddr⟩
    have hstart : Held stores env timeout (startTime stores env) m :=
      hheld.mono (hclock (Nat.le_add_right _ _))
    have hm := (hmem m).2 ⟨hstart, haddr⟩
    cases hlatest : latest ((stored stores env timeout).inboundsFrom (startTime stores env)
        (.string from_addr)) with
    | none =>
      rw [latest_eq_none.1 hlatest] at hm
      cases hm
    | some best =>
      obtain ⟨hbest, hlate⟩ := latest_spec hlatest
      obtain ⟨hbestheld, hbestaddr⟩ := (hmem best).1 hbest
      exact ⟨best, hlatest, hbestaddr, hbestheld, fun m' hm' haddr' =>
        hlate m' ((hmem m').2 ⟨hm', haddr'⟩)⟩
  · -- Nothing from the address is held, so the loop collects nothing.
    rw [later_apply, Nat.add_zero]
    refine latest_eq_none.2 (List.eq_nil_iff_forall_not_mem.2 fun m hm => ?_)
    obtain ⟨hheld, haddr⟩ := (hmem m).1 hm
    exact hnone m hheld haddr

/-- When something expires meanwhile, the look-up raises. -/
theorem not_looksUpRight_of_expires (hclock : Clocked env)
    (h : ¬ NoneExpires stores env timeout) (from_addr : Str) :
    ¬ LooksUpRight stores env timeout from_addr := by
  rintro ⟨result, hresult, -⟩
  have hreflects := reflects_stored hclock stores timeout
  have hraises : (lookUp stores env timeout from_addr).result = .error .runtimeError :=
    fetchLast_raises hreflects.dated h (.string from_addr)
  rw [hraises] at hresult
  cases hresult

/-- The look-up is right exactly when no message in the cache expires while it goes on. -/
theorem looksUpRight_iff (hclock : Clocked env) (stores : List Message) (timeout : ℚ)
    (from_addr : Str) :
    LooksUpRight stores env timeout from_addr ↔ NoneExpires stores env timeout := by
  constructor
  · intro hright
    by_contra hexpires
    exact not_looksUpRight_of_expires hclock hexpires from_addr hright
  · intro h
    exact looksUpRight_of_noneExpires hclock h from_addr

/-- An inbound message. -/
def anInbound : Message :=
  { Message.create (str "12345") (str "+27820001001") (str "sms") .sms ⟨0, [], DateTime.min⟩ with
    message_id := str "m" }

instance : Decidable (NoneExpires stores env timeout) :=
  inferInstanceAs (Decidable (TimeoutDict.Steady _ _))

/-- `looksUpRight_iff` holds of a message that lasts. -/
theorem lasting_looksUpRight_iff :
    LooksUpRight [anInbound] DictUse.tickingClock 60 (str "+27820001001") ↔
      NoneExpires [anInbound] DictUse.tickingClock 60 :=
  looksUpRight_iff DictUse.clocked_tickingClock _ _ _

/-- A message that expires between the first reading of the look-up and the second. -/
theorem expiring_not_looksUpRight :
    ¬ LooksUpRight [anInbound] DictUse.tickingClock 1 (str "+27820001001") := by
  have hexpires : ¬ NoneExpires [anInbound] DictUse.tickingClock 1 := by decide +kernel
  exact not_looksUpRight_of_expires DictUse.clocked_tickingClock hexpires _

end MemoryMessageCache

end Vumi2
