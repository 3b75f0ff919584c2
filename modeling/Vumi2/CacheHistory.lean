import Mathlib.Data.List.Pairwise
import Vumi2.MessageCaches

/-!
# Message caches over time

A message cache is used by any number of handlers at once, but each use of it is one step: nothing
in it waits. So a history of a cache is a list of uses (`CacheUse`), in any order.

The entries of a `TimeoutDict` are in the order of the times at which they were set (`Dated`, kept
by every use). Hence what expiry removes is exactly what is too old (`items_expire`), although it
stops at the first entry that is not. `values` looks every key up in turn, and raises exactly if an
entry expires meanwhile (`run_values`, `values_raises`).
-/

namespace Vumi2

open Effect Eff Text

namespace TimeoutDict

variable {V : Type}

/-- The entries are in the order of their times, and none was set after `now`. -/
structure Dated (d : TimeoutDict V) (now : ℚ) : Prop where
  /-- Each entry was set no later than those behind it. -/
  sorted : d.data.items.Pairwise fun a b => a.2.1 ≤ b.2.1
  /-- No entry comes from the future. -/
  past : ∀ e ∈ d.data.items, e.2.1 ≤ now

/-- A new dictionary has no entry from the future. -/
theorem dated_new (timeout now : ℚ) : (new timeout : TimeoutDict V).Dated now :=
  ⟨List.Pairwise.nil, by simp [new]⟩

/-- What is not from the future now is not later. -/
theorem Dated.mono {d : TimeoutDict V} {now later : ℚ} (h : d.Dated now) (hle : now ≤ later) :
    d.Dated later :=
  ⟨h.sorted, fun e he => le_trans (h.past e he) hle⟩

/-- A part of the entries is as well dated as the whole. -/
theorem Dated.sublist {d e : TimeoutDict V} {now : ℚ} (h : d.Dated now)
    (hsub : e.data.items.Sublist d.data.items) : e.Dated now :=
  ⟨h.sorted.sublist hsub, fun x hx => h.past x (hsub.subset hx)⟩

/-! ## Expiry -/

/-- Where what satisfies `p` stands before what does not, the longest prefix in `p` is all of it. -/
theorem takeWhile_eq_filter {α : Type} {p : α → Bool} {l : List α}
    (h : l.Pairwise fun a b => p b = true → p a = true) : l.takeWhile p = l.filter p := by
  induction l with
  | nil => rfl
  | cons a l ih =>
    obtain ⟨hhead, htail⟩ := List.pairwise_cons.1 h
    cases hp : p a with
    | true => rw [List.takeWhile_cons_of_pos hp, List.filter_cons_of_pos hp, ih htail]
    | false =>
      have hnone : l.filter p = [] := by
        rw [List.filter_eq_nil_iff]
        intro b hb hpb
        rw [hhead b hb hpb] at hp
        cases hp
      have hneg : ¬ p a = true := by simp [hp]
      rw [List.takeWhile_cons_of_neg hneg, List.filter_cons_of_neg hneg, hnone]

/-- Erasing keys one by one takes out the entries of all of them. -/
theorem items_foldl_erase (keys : List Str) (data : Dict Str (ℚ × V)) :
    (keys.foldl Dict.erase data).items =
      data.items.filter fun e => keys.all fun k => e.1 ≠ k := by
  induction keys generalizing data with
  | nil => simp
  | cons k keys ih =>
    rw [List.foldl_cons, ih, Dict.items_erase, List.filter_filter]
    apply List.filter_congr
    intro e _
    by_cases hk : e.1 = k
    · simp [hk]
    · simp [hk]

/-- Expiry only removes entries. -/
theorem expire_sublist (d : TimeoutDict V) (now : ℚ) :
    (d.expire now).data.items.Sublist d.data.items := by
  unfold expire
  rw [items_foldl_erase]
  exact List.filter_sublist

/-- Among dated entries, expiry removes exactly those that are too old. -/
theorem items_expire {d : TimeoutDict V} {now : ℚ} (now' : ℚ) (h : d.Dated now) :
    (d.expire now').data.items = d.data.items.filter fun e => age now' e.2.1 ≤ d.timeout := by
  unfold expire
  rw [items_foldl_erase]
  apply List.filter_congr
  intro e he
  -- In this order, an entry before one that is too old is too old as well.
  have hsorted : d.data.items.Pairwise fun a b =>
      decide (d.timeout < age now' b.2.1) = true → decide (d.timeout < age now' a.2.1) = true := by
    refine h.sorted.imp fun {a b} hab hb => ?_
    have hold : d.timeout < age now' b.2.1 := of_decide_eq_true hb
    exact decide_eq_true (hold.trans_le (age_mono le_rfl hab))
  have hmem : e.1 ∈ d.toRemove now' ↔ d.timeout < age now' e.2.1 := by
    unfold toRemove
    rw [takeWhile_eq_filter hsorted, List.mem_map]
    constructor
    · rintro ⟨e', he', hkey⟩
      obtain ⟨hin, hold⟩ := List.mem_filter.1 he'
      -- No key occurs twice, so the entry removed under this key is this one.
      have heq : e' = e := List.inj_on_of_nodup_map d.data.nodup hin he hkey
      rw [← heq]
      exact of_decide_eq_true hold
    · intro hold
      exact ⟨e, List.mem_filter.2 ⟨he, decide_eq_true hold⟩, rfl⟩
  have hkeep : (d.toRemove now').all (fun k => e.1 ≠ k) = true ↔ age now' e.2.1 ≤ d.timeout := by
    rw [← not_lt, ← hmem, List.all_eq_true]
    constructor
    · intro hall hin
      exact of_decide_eq_true (hall _ hin) rfl
    · intro hnot k hk
      exact decide_eq_true fun heq => hnot (heq ▸ hk)
  rw [Bool.eq_iff_iff, hkeep, decide_eq_true_iff]

/-- Expiry leaves a key its entry exactly if that is not too old. -/
theorem get?_expire_dated {d : TimeoutDict V} {now : ℚ} (h : d.Dated now) {now' : ℚ} {key : Str}
    {e : ℚ × V} : (d.expire now').data.get? key = some e ↔
      d.data.get? key = some e ∧ age now' e.1 ≤ d.timeout := by
  rw [Dict.get?_eq_some, items_expire now' h, List.mem_filter, ← Dict.get?_eq_some,
    decide_eq_true_iff]

/-- Expiring leaves entries that were there before. -/
theorem Dated.expire {d : TimeoutDict V} {now : ℚ} (h : d.Dated now) (now' : ℚ) :
    (d.expire now').Dated now :=
  h.sublist (d.expire_sublist now')

/-- So does erasing a key. -/
theorem Dated.erase {d : TimeoutDict V} {now : ℚ} (h : d.Dated now) (key : Str) :
    ({ d with data := d.data.erase key }).Dated now :=
  h.sublist (by rw [Dict.items_erase]; exact List.filter_sublist)

/-- A key that is in no entry goes to the end, with the time of its setting. -/
theorem Dated.set {d : TimeoutDict V} {now : ℚ} (h : d.Dated now) {key : Str} (value : V)
    (hkey : d.data.get? key = none) :
    ({ d with data := d.data.set key (now, value) }).Dated now := by
  constructor
  · show (d.data.set key (now, value)).items.Pairwise _
    rw [Dict.items_set_of_not_mem _ hkey, List.pairwise_append]
    refine ⟨h.sorted, List.pairwise_singleton _ _, ?_⟩
    intro a ha b hb
    rw [List.mem_singleton.1 hb]
    exact h.past a ha
  · show ∀ e ∈ (d.data.set key (now, value)).items, _
    rw [Dict.items_set_of_not_mem _ hkey]
    intro e he
    rcases List.mem_append.1 he with he | he
    · exact h.past e he
    · rw [List.mem_singleton.1 he]

/-! ## What the operations keep -/

/-- Dated, by the clock of a reading. -/
def DatedAt (r : Reading) (d : TimeoutDict V) : Prop := d.Dated r.time

/-- `_remove_expired` leaves no entry from the future. -/
theorem datedAt_removeExpired :
    KeepsAt Clocked DatedAt (removeExpired : Py (TimeoutDict V) Unit) := by
  intro env d hclock hd
  rw [run_removeExpired]
  exact (Dated.expire hd _).mono (hclock (Nat.zero_le 1))

/-- Reading a key leaves no entry from the future. -/
theorem datedAt_getitem (key : Str) :
    KeepsAt Clocked DatedAt (getitem key : Py (TimeoutDict V) (Option V)) :=
  keepsAt_bind (fun _ k h => h.later k) datedAt_removeExpired fun _ =>
    keepsAt_bind (fun _ k h => h.later k) keepsAt_get fun _ => keepsAt_pure _

/-- Setting a key gives it the time of the clock, which does not go back. -/
theorem datedAt_setitem (key : Str) (value : V) :
    KeepsAt Clocked DatedAt (setitem key value : Py (TimeoutDict V) Unit) := by
  intro env d hclock hd
  rw [run_setitem]
  have h1 : (({ d with data := d.data.erase key }).expire (env 0).time).Dated (env 1).time :=
    ((Dated.erase hd key).expire _).mono (hclock (Nat.zero_le 1))
  have hkey : (({ d with data := d.data.erase key }).expire (env 0).time).data.get? key = none :=
    get?_expire_eq_none (Dict.get?_erase_self _ _)
  exact (h1.set value hkey).mono (hclock (Nat.le_succ 1))

/-- What is found after a key was set: its new value for as long as the timeout, and under any other
key what was found before. -/
theorem lookedUp_setitem {env : ℕ → Reading} (hclock : Clocked env) {d : TimeoutDict V}
    (hd : d.Dated (env 0).time) (key : Str) (value : V) {now : ℚ} (hnow : (env 1).time ≤ now)
    (other : Str) (w : V) :
    ((setitem key value).run env d).state.lookedUp now other = some w ↔
      if other = key then w = value ∧ age now (env 1).time ≤ d.timeout
      else d.lookedUp now other = some w := by
  have hfirst : (env 0).time ≤ now := le_trans (hclock (Nat.zero_le 1)) hnow
  have hset : ((setitem key value).run env d).state.Dated (env 2).time := by
    have := datedAt_setitem key value env d hclock hd
    rw [run_setitem] at this ⊢
    exact this
  have hsetTimeout : ((setitem key value).run env d).state.timeout = d.timeout := by
    rw [run_setitem]
  unfold lookedUp
  rw [Option.map_eq_some_iff, Option.map_eq_some_iff]
  simp only [get?_expire_dated hset, get?_expire_dated hd, hsetTimeout]
  rw [run_setitem]
  dsimp only
  by_cases hkey : other = key
  · rw [if_pos hkey, hkey, Dict.get?_set_self]
    constructor
    · rintro ⟨e, ⟨he, hfresh⟩, rfl⟩
      obtain rfl := Option.some.inj he
      exact ⟨rfl, hfresh⟩
    · rintro ⟨rfl, hfresh⟩
      exact ⟨_, ⟨rfl, hfresh⟩, rfl⟩
  · -- Another entry may have been dropped meanwhile, if it was too old already.
    rw [if_neg hkey, Dict.get?_set_of_ne _ _ hkey]
    simp only [get?_expire_dated (Dated.erase hd key), Dict.get?_erase_of_ne _ hkey]
    constructor
    · rintro ⟨e, ⟨⟨he, -⟩, hfresh⟩, rfl⟩
      exact ⟨e, ⟨he, hfresh⟩, rfl⟩
    · rintro ⟨e, ⟨he, hfresh⟩, rfl⟩
      exact ⟨e, ⟨⟨he, (age_mono hfirst le_rfl).trans hfresh⟩, hfresh⟩, rfl⟩

/-- What expires early was too old for a later look-up already. -/
theorem lookedUp_expire {d : TimeoutDict V} {now : ℚ} (hd : d.Dated now) {early late : ℚ}
    (hle : early ≤ late) (key : Str) :
    (d.expire early).lookedUp late key = d.lookedUp late key := by
  have hsame : ((d.expire early).expire late).data.get? key = (d.expire late).data.get? key := by
    apply Option.ext
    intro e
    rw [get?_expire_dated (hd.expire early), get?_expire_dated hd, get?_expire_dated hd,
      timeout_expire]
    constructor
    · rintro ⟨⟨he, -⟩, hfresh⟩
      exact ⟨he, hfresh⟩
    · rintro ⟨he, hfresh⟩
      exact ⟨⟨he, (age_mono hle le_rfl).trans hfresh⟩, hfresh⟩
  unfold lookedUp
  rw [hsame]

/-- An erased key is looked up as missing, and the others as before. -/
theorem lookedUp_erase {d : TimeoutDict V} {now : ℚ} (hd : d.Dated now) (key : Str) (late : ℚ)
    (other : Str) : ({ d with data := d.data.erase key }).lookedUp late other =
      if other = key then none else d.lookedUp late other := by
  unfold lookedUp
  split_ifs with hkey
  · rw [hkey, get?_expire_eq_none (Dict.get?_erase_self _ _)]
    rfl
  · congr 1
    apply Option.ext
    intro e
    rw [get?_expire_dated (hd.erase key), get?_expire_dated hd]
    dsimp only
    rw [Dict.get?_erase_of_ne _ hkey]

/-- What is found after a key was popped: nothing under it, and under any other key what was found
before. -/
theorem lookedUp_pop {env : ℕ → Reading} {d : TimeoutDict V} (hd : d.Dated (env 0).time)
    (hclock : Clocked env) (key : Str) {now : ℚ} (hnow : (env 1).time ≤ now) (other : Str) :
    ((pop key).run env d).state.lookedUp now other =
      if other = key then none else d.lookedUp now other := by
  have hfirst : (env 0).time ≤ now := le_trans (hclock (Nat.zero_le 1)) hnow
  have hexpired := hd.expire (env 0).time
  rw [run_pop]
  dsimp only
  rw [lookedUp_expire (hexpired.erase key) hnow, lookedUp_erase hexpired key,
    lookedUp_expire hd hfirst]

/-- Popping a key leaves no entry from the future. -/
theorem datedAt_pop (key : Str) :
    KeepsAt Clocked DatedAt (pop key : Py (TimeoutDict V) (Option V)) := by
  intro env d hclock hd
  rw [run_pop]
  exact (((Dated.expire hd _).erase key).expire _).mono (hclock (Nat.zero_le 2))

/-- Reading some keys leaves no entry from the future. -/
theorem datedAt_valuesFrom (size : ℕ) (keys : List Str) :
    KeepsAt Clocked DatedAt (valuesFrom size keys : Py (TimeoutDict V) (List (Option V))) := by
  induction keys with
  | nil =>
    intro env d _ hd
    unfold valuesFrom
    rw [run_get_bind]
    split_ifs
    · exact hd
    · exact hd
  | cons key keys ih =>
    intro env d hclock hd
    unfold valuesFrom
    rw [run_get_bind]
    split_ifs
    · exact hd
    · exact keepsAt_bind (fun _ k h => h.later k) (datedAt_getitem key)
        (fun _ => keepsAt_bind (fun _ k h => h.later k) ih fun _ => keepsAt_pure _) env d hclock hd

/-- Reading all values leaves no entry from the future. -/
theorem datedAt_values :
    KeepsAt Clocked DatedAt (values : Py (TimeoutDict V) (List (Option V))) := by
  refine keepsAt_bind (fun _ k h => h.later k) datedAt_removeExpired fun _ => ?_
  refine keepsAt_bind (fun _ k h => h.later k) keepsAt_get fun d => ?_
  exact datedAt_valuesFrom d.data.length d.data.keys

/-! ## Every value -/

/-- The entries that are not too old. -/
def unexpired (d : TimeoutDict V) (now : ℚ) : List (Str × ℚ × V) :=
  d.data.items.filter fun e => age now e.2.1 ≤ d.timeout

/-- No entry expires while the values are looked up: there is one reading of the clock at first, and
then one for each entry that is not too old. -/
def Steady (d : TimeoutDict V) (env : ℕ → Reading) : Prop :=
  ∀ e ∈ d.unexpired (env 0).time,
    age (env (d.unexpired (env 0).time).length).time e.2.1 ≤ d.timeout

instance (d : TimeoutDict V) (env : ℕ → Reading) : Decidable (d.Steady env) :=
  inferInstanceAs (Decidable (∀ e ∈ _, _))

/-- Expiry that removes no entry changes nothing. -/
theorem expire_eq_of_items {d : TimeoutDict V} {now : ℚ}
    (h : (d.expire now).data.items = d.data.items) : d.expire now = d := by
  have hdata : d.expire now = { d with data := (d.expire now).data } := rfl
  rw [hdata, Dict.ext h]

/-- Where nothing is too old, expiry changes nothing. -/
theorem expire_eq_self {d : TimeoutDict V} {now now' : ℚ} (h : d.Dated now)
    (hfresh : ∀ e ∈ d.data.items, age now' e.2.1 ≤ d.timeout) : d.expire now' = d := by
  have hitems : (d.expire now').data.items = d.data.items := by
    rw [items_expire now' h, List.filter_eq_self]
    exact fun e he => decide_eq_true (hfresh e he)
  exact expire_eq_of_items hitems

/-- The values of all keys are those of the entries. -/
theorem map_get?_keys (d : TimeoutDict V) :
    d.data.keys.map (fun key => (d.data.get? key).map Prod.snd) =
      d.data.items.map fun e => some e.2.2 := by
  unfold Dict.keys
  rw [List.map_map]
  apply List.map_congr_left
  intro e he
  show (d.data.get? e.1).map Prod.snd = some e.2.2
  rw [Dict.get?_eq_some.2 he]
  rfl

/-- When no entry expires meanwhile, `values` returns what is not too old. -/
theorem run_values {env : ℕ → Reading} (hclock : Clocked env) {d : TimeoutDict V}
    (hd : d.Dated (env 0).time) (hsteady : d.Steady env) :
    values.run env d =
      ⟨.ok ((d.unexpired (env 0).time).map fun e => some e.2.2),
        1 + (d.unexpired (env 0).time).length, d.expire (env 0).time⟩ := by
  have hitems : (d.expire (env 0).time).data.items = d.unexpired (env 0).time := items_expire _ hd
  unfold Steady at hsteady
  rw [← hitems] at hsteady ⊢
  generalize hd' : d.expire (env 0).time = d' at hsteady ⊢
  have hdated : d'.Dated (env 0).time := hd' ▸ hd.expire _
  have htimeout : d'.timeout = d.timeout := by rw [← hd', timeout_expire]
  have hlen : d'.data.keys.length = d'.data.items.length := List.length_map _
  -- Up to the last reading every entry stays.
  have hstay : ∀ now, now ≤ (later env 1 (d'.data.items.length - 1)).time → d'.expire now = d' := by
    intro now hnow
    refine expire_eq_self hdated fun e he => ?_
    have hpos := List.length_pos_of_mem he
    have hlast : later env 1 (d'.data.items.length - 1) = env d'.data.items.length := by
      rw [later_apply]
      congr 1
      omega
    rw [hlast] at hnow
    rw [htimeout]
    exact (age_mono hnow le_rfl).trans (hsteady e he)
  -- So every look-up finds its entry, and the size stays.
  have hrest := run_valuesFrom_of_le (hclock.later 1) d'.data.keys 0 d' (by rw [hlen]; omega) hstay
  unfold values
  rw [run_bind_ok (run_removeExpired env d), hd', run_get_bind]
  rw [later_zero] at hrest
  rw [hrest, map_get?_keys, hlen]

/-- The iteration raises where the size has changed. -/
theorem valuesFrom_raises_of_length {size : ℕ} {d : TimeoutDict V} (h : d.data.length ≠ size)
    (keys : List Str) (env : ℕ → Reading) :
    (valuesFrom size keys).run env d = ⟨.error .runtimeError, 0, d⟩ := by
  cases keys with
  | nil =>
    unfold valuesFrom
    rw [run_get_bind, if_pos h]
    rfl
  | cons key keys =>
    unfold valuesFrom
    rw [run_get_bind, if_pos h]
    rfl

/-- The iteration raises if an entry is too old at one of its readings. -/
theorem valuesFrom_raises {env : ℕ → Reading} {d : TimeoutDict V} {now : ℚ} (hd : d.Dated now)
    {keys : List Str} {e : Str × ℚ × V} (he : e ∈ d.data.items) {i : ℕ} (hi : i < keys.length)
    (hold : d.timeout < age (env i).time e.2.1) :
    ((valuesFrom d.data.length keys).run env d).result = .error .runtimeError := by
  induction keys generalizing env i with
  | nil => exact absurd hi (Nat.not_lt_zero i)
  | cons key keys ih =>
    have hget := run_getitem key env d
    have hsub := d.expire_sublist (env 0).time
    unfold valuesFrom
    rw [run_get_bind, if_neg (by simp), result_bind (by rw [hget]), hget]
    by_cases hsize : (d.expire (env 0).time).data.length = d.data.length
    · -- Nothing has expired yet, so the entry goes at a later reading.
      have hitems : (d.expire (env 0).time).data.items = d.data.items :=
        hsub.eq_of_length hsize
      have hsame : d.expire (env 0).time = d := expire_eq_of_items hitems
      have hfresh : age (env 0).time e.2.1 ≤ d.timeout := by
        rw [← hitems, items_expire _ hd] at he
        exact of_decide_eq_true (List.mem_filter.1 he).2
      obtain ⟨j, rfl⟩ : ∃ j, i = j + 1 := by
        refine Nat.exists_eq_succ_of_ne_zero ?_
        rintro rfl
        exact absurd hold (not_lt.2 hfresh)
      have hj : j < keys.length := by simpa using hi
      have hold' : d.timeout < age (later env 1 j).time e.2.1 := by
        rw [later_apply, Nat.add_comm]
        exact hold
      have hrest := ih hj hold'
      rw [hsame, run_bind, hrest]
    · -- The look-up has expired an entry, so the size has changed.
      rw [run_bind, valuesFrom_raises_of_length hsize]

/-- When an entry expires meanwhile, `values` raises. -/
theorem values_raises {env : ℕ → Reading} {d : TimeoutDict V} (hd : d.Dated (env 0).time)
    (hsteady : ¬ d.Steady env) : (values.run env d).result = .error .runtimeError := by
  have hitems : (d.expire (env 0).time).data.items = d.unexpired (env 0).time := items_expire _ hd
  unfold Steady at hsteady
  push Not at hsteady
  rw [← hitems] at hsteady
  obtain ⟨e, he, hold⟩ := hsteady
  have hpos := List.length_pos_of_mem he
  have hlen : (d.expire (env 0).time).data.keys.length =
      (d.expire (env 0).time).data.items.length :=
    List.length_map _
  unfold values
  rw [result_bind (by rw [run_removeExpired]), run_removeExpired, run_get_bind]
  -- The entry is too old at the last reading of the iteration.
  refine valuesFrom_raises (hd.expire _) he
    (i := (d.expire (env 0).time).data.items.length - 1) (by rw [hlen]; omega) ?_
  rw [later_apply, timeout_expire]
  have hlast : 1 + ((d.expire (env 0).time).data.items.length - 1) =
      (d.expire (env 0).time).data.items.length := by omega
  rw [hlast]
  exact hold

/-! ## An entry once it is set -/

section

variable {key : Str} {t timeout : ℚ} {p : V → Prop}

/-- The key was set at the time `t` or later, to a value with the property `p`. -/
def HoldsSince (key : Str) (t timeout : ℚ) (p : V → Prop) (d : TimeoutDict V) : Prop :=
  ∃ t' value, t ≤ t' ∧ p value ∧ Holds key t' value timeout d

/-- A reading after `t` at which an entry set at `t` is not too old. -/
def During (t timeout : ℚ) (r : Reading) : Prop := t ≤ r.time ∧ InTime t timeout r

/-- What keeps each entry of a key, keeps that it has one. -/
theorem keeps_holdsSince {α : Type} {m : Py (TimeoutDict V) α}
    (h : ∀ t' value, Keeps (InTime t' timeout) (Holds key t' value timeout) m) :
    Keeps (During t timeout) (HoldsSince key t timeout p) m := by
  rintro env d hok ⟨t', value, ht, hp, hd⟩
  refine ⟨t', value, ht, hp, h t' value env d (fun i hi => ?_) hd⟩
  have hin : age (env i).time t ≤ timeout := (hok i hi).2
  show age (env i).time t' ≤ timeout
  exact (age_mono le_rfl ht).trans hin

/-- Setting a key renews its own entry and keeps the others. -/
theorem keeps_holdsSince_setitem (other : Str) {v : V} (hv : other = key → p v) :
    Keeps (During t timeout) (HoldsSince key t timeout p) (setitem other v) := by
  by_cases h : key = other
  · -- The key itself gets a new entry, at a reading after `t`.
    rintro env d hok ⟨t', value, -, -, htimeout, -⟩
    rw [run_setitem] at hok ⊢
    have h1 : t ≤ (env 1).time := (hok 1 (by simp)).1
    refine ⟨(env 1).time, v, h1, hv h.symm, htimeout, ?_⟩
    rw [h]
    exact Dict.get?_set_self _ _ _
  · exact keeps_holdsSince fun _ _ => keeps_setitem h v

end

end TimeoutDict

/-! ## The latest message -/

namespace MemoryMessageCache

/-- What `latest` folds is one of the messages, and none of them is later. -/
theorem foldl_latest (ms : List Message) (m : Message) :
    ms.foldl (fun best x => if best.timestamp < x.timestamp then x else best) m ∈ m :: ms ∧
      ∀ x ∈ m :: ms, x.timestamp ≤
        (ms.foldl (fun best x =>
          if best.timestamp < x.timestamp then x else best) m).timestamp := by
  induction ms generalizing m with
  | nil => simp
  | cons a ms ih =>
    rw [List.foldl_cons]
    obtain ⟨hmem, hle⟩ := ih (if m.timestamp < a.timestamp then a else m)
    -- The better of the first two is as late as either.
    have hm : m.timestamp ≤ (if m.timestamp < a.timestamp then a else m).timestamp := by
      split_ifs with h
      · exact le_of_lt h
      · exact le_refl _
    have ha : a.timestamp ≤ (if m.timestamp < a.timestamp then a else m).timestamp := by
      split_ifs with h
      · exact le_refl _
      · exact not_lt.1 h
    constructor
    · rcases List.mem_cons.1 hmem with h | h
      · rw [h]
        split_ifs
        · simp
        · simp
      · exact List.mem_cons_of_mem _ (List.mem_cons_of_mem _ h)
    · have hbest := hle _ List.mem_cons_self
      intro x hx
      rcases List.mem_cons.1 hx with rfl | hx
      · exact le_trans hm hbest
      · rcases List.mem_cons.1 hx with rfl | hx
        · exact le_trans ha hbest
        · exact hle x (List.mem_cons_of_mem _ hx)

/-- There is no latest one among no messages, and only then. -/
theorem latest_eq_none {ms : List Message} : latest ms = none ↔ ms = [] := by
  cases ms with
  | nil => simp [latest]
  | cons m ms => simp [latest]

/-- The latest message is one of the messages, and none is later. -/
theorem latest_spec {ms : List Message} {m : Message} (h : latest ms = some m) :
    m ∈ ms ∧ ∀ x ∈ ms, x.timestamp ≤ m.timestamp := by
  cases ms with
  | nil => cases h
  | cons a ms =>
    obtain rfl := Option.some.inj h
    exact foldl_latest ms a

/-- The messages from an address are those of the values that have it. -/
theorem mem_fromAddress {from_addr : Json} {values : List (Option Message)} {m : Message} :
    m ∈ fromAddress from_addr values ↔ some m ∈ values ∧ from_addr = .string m.from_addr := by
  unfold fromAddress
  rw [List.mem_filterMap]
  constructor
  · rintro ⟨v, hv, hm⟩
    split at hm
    · split_ifs at hm with haddr
      obtain rfl := Option.some.inj hm
      exact ⟨hv, by rw [haddr]⟩
    · cases hm
  · rintro ⟨hv, rfl⟩
    exact ⟨some m, hv, by simp⟩

/-- An inbound message that is in the cache and not too old. -/
def HasInbound (c : MemoryMessageCache) (now : ℚ) (m : Message) : Prop :=
  ∃ e ∈ c.inbounds.unexpired now, e.2.2 = m

/-- The inbound messages from an address that are not too old, in the order of the cache. -/
def inboundsFrom (c : MemoryMessageCache) (now : ℚ) (from_addr : Json) : List Message :=
  fromAddress from_addr ((c.inbounds.unexpired now).map fun e => some e.2.2)

/-- The inbound messages from an address are those that the cache holds from there. -/
theorem mem_inboundsFrom {c : MemoryMessageCache} {now : ℚ} {from_addr : Json} {m : Message} :
    m ∈ c.inboundsFrom now from_addr ↔ c.HasInbound now m ∧ from_addr = .string m.from_addr := by
  unfold inboundsFrom HasInbound
  rw [mem_fromAddress, List.mem_map]
  simp only [Option.some.injEq]

/-- When no entry expires meanwhile, the look-up finds the latest message from the address. -/
theorem run_fetchLast {env : ℕ → Reading} (hclock : Clocked env) {c : MemoryMessageCache}
    (hd : c.inbounds.Dated (env 0).time) (hsteady : c.inbounds.Steady env) (from_addr : Json) :
    (fetchLastInboundByFromAddress from_addr).run env c =
      ⟨.ok (latest (c.inboundsFrom (env 0).time from_addr)),
        1 + (c.inbounds.unexpired (env 0).time).length,
        { c with inbounds := c.inbounds.expire (env 0).time }⟩ := by
  have hvalues : (onInbounds TimeoutDict.values).run env c =
      ⟨.ok ((c.inbounds.unexpired (env 0).time).map fun e => some e.2.2),
        1 + (c.inbounds.unexpired (env 0).time).length,
        { c with inbounds := c.inbounds.expire (env 0).time }⟩ := by
    unfold onInbounds
    rw [run_on, TimeoutDict.run_values hclock hd hsteady]
  unfold fetchLastInboundByFromAddress
  rw [run_bind_ok hvalues]
  rfl

/-- When an entry expires meanwhile, the look-up raises. -/
theorem fetchLast_raises {env : ℕ → Reading} {c : MemoryMessageCache}
    (hd : c.inbounds.Dated (env 0).time) (hsteady : ¬ c.inbounds.Steady env) (from_addr : Json) :
    ((fetchLastInboundByFromAddress from_addr).run env c).result = .error .runtimeError := by
  have hvalues : ((onInbounds TimeoutDict.values).run env c).result = .error .runtimeError :=
    TimeoutDict.values_raises hd hsteady
  unfold fetchLastInboundByFromAddress
  rw [run_bind, hvalues]

end MemoryMessageCache

/-! ## Histories -/

/-- A use of a message cache. -/
inductive CacheUse where
  | store_outbound (outbound : Message)
  | fetch_outbound (message_id : Option Str)
  | store_inbound (inbound : Message)
  | fetch_inbound (message_id : Str)
  | fetch_last_inbound_by_from_address (from_addr : Json)

namespace CacheUse

open MemoryMessageCache

/-- What a use does to the cache; what it returns or raises is its caller's. -/
def perform : CacheUse → Py MemoryMessageCache Unit
  | store_outbound outbound => storeOutbound outbound
  | fetch_outbound message_id => fetchOutbound message_id >>= fun _ => pure ()
  | store_inbound inbound => storeInbound inbound
  | fetch_inbound message_id => fetchInbound message_id >>= fun _ => pure ()
  | fetch_last_inbound_by_from_address from_addr =>
    fetchLastInboundByFromAddress from_addr >>= fun _ => pure ()

/-- One use after another. -/
def history : List CacheUse → Py MemoryMessageCache Unit
  | [] => pure ()
  | use :: uses => do
    let _ ← attempt use.perform
    history uses

/-- Both dictionaries are dated. -/
def DatedAt (r : Reading) (c : MemoryMessageCache) : Prop :=
  c.outbounds.DatedAt r ∧ c.inbounds.DatedAt r

/-- What is done to the cache of outbound messages leaves no entry from the future. -/
theorem datedAt_onOutbounds {α : Type} {m : Py (TimeoutDict Message) α}
    (hm : KeepsAt Clocked TimeoutDict.DatedAt m) : KeepsAt Clocked DatedAt (onOutbounds m) := by
  rintro env c hclock ⟨hout, hin⟩
  exact ⟨hm env c.outbounds hclock hout, TimeoutDict.Dated.mono hin (hclock (Nat.zero_le _))⟩

/-- What is done to the cache of inbound messages leaves no entry from the future. -/
theorem datedAt_onInbounds {α : Type} {m : Py (TimeoutDict Message) α}
    (hm : KeepsAt Clocked TimeoutDict.DatedAt m) : KeepsAt Clocked DatedAt (onInbounds m) := by
  rintro env c hclock ⟨hout, hin⟩
  exact ⟨TimeoutDict.Dated.mono hout (hclock (Nat.zero_le _)), hm env c.inbounds hclock hin⟩

/-- Every use keeps the entries in the order of their times. -/
theorem datedAt_perform (use : CacheUse) : KeepsAt Clocked DatedAt use.perform := by
  have hlater : ∀ env k, Clocked env → Clocked (later env k) := fun _ k h => h.later k
  cases use with
  | store_outbound outbound => exact datedAt_onOutbounds (TimeoutDict.datedAt_setitem _ _)
  | fetch_outbound message_id =>
    refine keepsAt_bind hlater (datedAt_onOutbounds ?_) fun _ => keepsAt_pure _
    cases message_id with
    | none =>
      exact keepsAt_bind hlater TimeoutDict.datedAt_removeExpired fun _ => keepsAt_pure _
    | some id => exact TimeoutDict.datedAt_getitem id
  | store_inbound inbound => exact datedAt_onInbounds (TimeoutDict.datedAt_setitem _ _)
  | fetch_inbound message_id =>
    exact keepsAt_bind hlater (datedAt_onInbounds (TimeoutDict.datedAt_getitem _)) fun _ =>
      keepsAt_pure _
  | fetch_last_inbound_by_from_address from_addr =>
    refine keepsAt_bind hlater ?_ fun _ => keepsAt_pure _
    exact keepsAt_bind hlater (datedAt_onInbounds TimeoutDict.datedAt_values) fun _ =>
      keepsAt_pure _

/-- So does every history. -/
theorem datedAt_history (uses : List CacheUse) : KeepsAt Clocked DatedAt (history uses) := by
  induction uses with
  | nil => exact keepsAt_pure _
  | cons use uses ih =>
    exact keepsAt_bind (fun _ k h => h.later k) (keepsAt_attempt (datedAt_perform use)) fun _ => ih

variable {id : Str} {t timeout : ℚ}

/-- There is an outbound message with an identifier, stored at the time `t` or later. -/
def HasOutbound (id : Str) (t timeout : ℚ) (c : MemoryMessageCache) : Prop :=
  TimeoutDict.HoldsSince id t timeout (fun m : Message => m.message_id = id) c.outbounds

/-- Until it expires, every use keeps it. -/
theorem keeps_hasOutbound_perform (use : CacheUse) :
    Keeps (TimeoutDict.During t timeout) (HasOutbound id t timeout) use.perform := by
  cases use with
  | store_outbound outbound =>
    exact keeps_on (fun _ _ => rfl) (TimeoutDict.keeps_holdsSince_setitem _ fun h => h)
  | fetch_outbound message_id =>
    refine keeps_bind (keeps_on (fun _ _ => rfl) ?_) fun _ => keeps_pure _
    cases message_id with
    | none =>
      exact TimeoutDict.keeps_holdsSince fun _ _ =>
        keeps_bind TimeoutDict.keeps_removeExpired fun _ => keeps_pure _
    | some id => exact TimeoutDict.keeps_holdsSince fun _ _ => TimeoutDict.keeps_getitem id
  | store_inbound inbound => exact keeps_on_frame fun _ _ h => h
  | fetch_inbound message_id =>
    exact keeps_bind (keeps_on_frame fun _ _ h => h) fun _ => keeps_pure _
  | fetch_last_inbound_by_from_address from_addr =>
    refine keeps_bind ?_ fun _ => keeps_pure _
    exact keeps_bind (keeps_on_frame fun _ _ h => h) fun _ => keeps_pure _

/-- So does every history. -/
theorem keeps_hasOutbound_history (uses : List CacheUse) :
    Keeps (TimeoutDict.During t timeout) (HasOutbound id t timeout) (history uses) := by
  induction uses with
  | nil => exact keeps_pure _
  | cons use uses ih =>
    exact keeps_bind (keeps_attempt (keeps_hasOutbound_perform use)) fun _ => ih

end CacheUse

end Vumi2
