import Mathlib.Data.List.Induction
import Vumi2.CacheHistory

/-!
# A `TimeoutDict` is a map with expiry

A history of a `TimeoutDict` is a list of operations (`DictUse`), with the readings of the clock
that they take. What a map with expiry should hold after it is said of the history alone: the value
that a key was last set to, and when, if it was not deleted since (`LastSet`), for as long as that
is no longer ago than the timeout (`Visible`).

The entries of the dictionary are exactly those of this map, apart from some that are too old
(`Reflects`); they are in the order of their times (`Dated`), so expiry takes away all that are too
old before a read. `timeoutDict_is_map` puts the two together.
-/

namespace Vumi2

open Effect Eff Text

/-- An operation on a `TimeoutDict`. -/
inductive DictUse (V : Type) where
  | setitem (key : Str) (value : V)
  | getitem (key : Str)
  | delitem (key : Str)
  | listKeys
  | len

namespace DictUse

variable {V : Type}

/-- What the operation does to the dictionary. -/
def perform : DictUse V → Py (TimeoutDict V) PUnit
  | setitem key value => TimeoutDict.setitem key value
  | getitem key => TimeoutDict.getitem key >>= fun _ => pure PUnit.unit
  | delitem key => TimeoutDict.delitem key
  | listKeys => TimeoutDict.listKeys >>= fun _ => pure PUnit.unit
  | len => TimeoutDict.len >>= fun _ => pure PUnit.unit

/-- How often the operation reads the clock. -/
def readings : DictUse V → ℕ
  | setitem _ _ => 2
  | _ => 1

/-- How often a history reads the clock. -/
def allReadings (uses : List (DictUse V)) : ℕ := (uses.map readings).foldr (· + ·) 0

/-- The operation sets or deletes the key. -/
def Touches (key : Str) : DictUse V → Prop
  | setitem other _ => other = key
  | delitem other => other = key
  | _ => False

/-- The key was last set to `value`, at the time `t`, and was not deleted since. -/
def LastSet (uses : List (DictUse V)) (env : ℕ → Reading) (key : Str) (t : ℚ) (value : V) : Prop :=
  ∃ before after, uses = before ++ setitem key value :: after ∧
    (∀ use ∈ after, ¬ use.Touches key) ∧ t = (env (allReadings before + 1)).time

/-- A read at the time `now` should see the key with this value. -/
def Visible (uses : List (DictUse V)) (env : ℕ → Reading) (timeout now : ℚ) (key : Str)
    (value : V) : Prop :=
  ∃ t, LastSet uses env key t value ∧ TimeoutDict.age now t ≤ timeout

/-! ## Histories -/

/-- A use more takes its readings after those before it. -/
theorem allReadings_append (uses : List (DictUse V)) (use : DictUse V) :
    allReadings (uses ++ [use]) = allReadings uses + use.readings := by
  induction uses with
  | nil => exact Nat.add_comm _ _
  | cons u uses ih =>
    show u.readings + allReadings (uses ++ [use]) = u.readings + allReadings uses + use.readings
    rw [ih, Nat.add_assoc]

/-- What was set last, after one more operation that has nothing to do with the key. -/
theorem lastSet_append_of_not_touches {uses : List (DictUse V)} {use : DictUse V}
    {env : ℕ → Reading} {key : Str} (h : ¬ use.Touches key) {t : ℚ} {value : V} :
    LastSet (uses ++ [use]) env key t value ↔ LastSet uses env key t value := by
  constructor
  · rintro ⟨before, after, huses, hafter, rfl⟩
    rcases List.eq_nil_or_concat after with rfl | ⟨after, last, rfl⟩
    · obtain ⟨-, rfl⟩ := List.append_singleton_inj.1 huses
      exact absurd rfl h
    · rw [List.concat_eq_append, ← List.cons_append, ← List.append_assoc] at huses
      obtain ⟨rfl, rfl⟩ := List.append_singleton_inj.1 huses
      refine ⟨before, after, rfl, fun u hu => hafter u ?_, rfl⟩
      rw [List.concat_eq_append]
      exact List.mem_append_left _ hu
  · rintro ⟨before, after, rfl, hafter, rfl⟩
    refine ⟨before, after ++ [use], by simp, fun u hu => ?_, rfl⟩
    rcases List.mem_append.1 hu with hu | hu
    · exact hafter u hu
    · rw [List.mem_singleton.1 hu]
      exact h

/-- What was set last, after one more operation that has to do with the key: that is a setting of
it, or it was deleted. -/
theorem lastSet_append_of_touches {uses : List (DictUse V)} {use : DictUse V} {env : ℕ → Reading}
    {key : Str} (h : use.Touches key) {t : ℚ} {value : V} :
    LastSet (uses ++ [use]) env key t value ↔
      use = setitem key value ∧ t = (env (allReadings uses + 1)).time := by
  constructor
  · rintro ⟨before, after, huses, hafter, rfl⟩
    rcases List.eq_nil_or_concat after with rfl | ⟨after, last, rfl⟩
    · obtain ⟨rfl, rfl⟩ := List.append_singleton_inj.1 huses
      exact ⟨rfl, rfl⟩
    · rw [List.concat_eq_append, ← List.cons_append, ← List.append_assoc] at huses
      obtain ⟨rfl, rfl⟩ := List.append_singleton_inj.1 huses
      refine absurd h (hafter use ?_)
      rw [List.concat_eq_append]
      exact List.mem_append_right _ (List.mem_singleton_self _)
  · rintro ⟨rfl, rfl⟩
    exact ⟨uses, [], rfl, fun u hu => absurd hu List.not_mem_nil, rfl⟩

/-- No operation returns early, or raises. -/
theorem run_perform (use : DictUse V) (env : ℕ → Reading) (d : TimeoutDict V) :
    (use.perform.run env d).result = .ok PUnit.unit ∧
      (use.perform.run env d).used = use.readings := by
  cases use with
  | setitem key value =>
    unfold perform
    rw [TimeoutDict.run_setitem]
    exact ⟨rfl, rfl⟩
  | getitem key =>
    unfold perform
    rw [run_bind_ok (TimeoutDict.run_getitem key env d)]
    exact ⟨rfl, rfl⟩
  | delitem key =>
    unfold perform
    rw [TimeoutDict.run_delitem]
    exact ⟨rfl, rfl⟩
  | listKeys =>
    unfold perform
    rw [run_bind_ok (TimeoutDict.run_listKeys env d)]
    exact ⟨rfl, rfl⟩
  | len =>
    unfold perform
    rw [run_bind_ok (TimeoutDict.run_len env d)]
    exact ⟨rfl, rfl⟩

/-- One operation after another. -/
def history (uses : List (DictUse V)) : Py (TimeoutDict V) PUnit := forM uses perform

/-- A history with one more operation. -/
theorem run_history_append {uses : List (DictUse V)} {env : ℕ → Reading} {d d' : TimeoutDict V}
    {used : ℕ} (h : (history uses).run env d = ⟨.ok PUnit.unit, used, d'⟩) (use : DictUse V) :
    (history (uses ++ [use])).run env d =
      ⟨.ok PUnit.unit, used + use.readings, (use.perform.run (later env used) d').state⟩ := by
  have hforM : history (uses ++ [use]) = history uses >>= fun _ => history [use] := List.forM_append
  have hone : history [use] = use.perform >>= fun _ => pure PUnit.unit := List.forM_cons
  obtain ⟨hresult, hused⟩ := use.run_perform (later env used) d'
  rw [hforM, run_bind_ok h, hone, run_bind, hresult, hused]
  rfl

/-- A history of uses ends, after as many readings as its uses take. -/
theorem run_history (uses : List (DictUse V)) (env : ℕ → Reading) (d : TimeoutDict V) :
    ∃ d', (history uses).run env d = ⟨.ok PUnit.unit, allReadings uses, d'⟩ := by
  induction uses using List.reverseRecOn with
  | nil => exact ⟨d, rfl⟩
  | append_singleton uses use ih =>
    obtain ⟨d', hd'⟩ := ih
    rw [run_history_append hd' use, allReadings_append]
    exact ⟨_, rfl⟩

/-! ## What the dictionary holds -/

/-- An operation leaves an entry of another key alone, until it is too old. -/
theorem keeps_perform {use : DictUse V} {key : Str} (h : ¬ use.Touches key) {t timeout : ℚ}
    {value : V} :
    Keeps (TimeoutDict.InTime t timeout) (TimeoutDict.Holds key t value timeout) use.perform := by
  cases use with
  | setitem other v => exact TimeoutDict.keeps_setitem (fun heq => h heq.symm) v
  | getitem other => exact keeps_bind (TimeoutDict.keeps_getitem other) fun _ => keeps_pure _
  | delitem other => exact TimeoutDict.keeps_delitem fun heq => h heq.symm
  | listKeys | len =>
    exact keeps_bind (keeps_bind TimeoutDict.keeps_removeExpired fun _ => keeps_bind keeps_get
      fun _ => keeps_pure _) fun _ => keeps_pure _

/-- Removing a key keeps the dates of the others. -/
theorem datedAt_delitem (key : Str) :
    KeepsAt Clocked TimeoutDict.DatedAt (TimeoutDict.delitem key : Py (TimeoutDict V) Unit) := by
  intro env d hclock hd
  rw [TimeoutDict.run_delitem]
  exact ((TimeoutDict.Dated.erase hd key).expire _).mono (hclock (Nat.zero_le 1))

/-- Every operation keeps the entries in the order of their times. -/
theorem datedAt_perform (use : DictUse V) :
    KeepsAt Clocked TimeoutDict.DatedAt use.perform := by
  have hlater : ∀ env k, Clocked env → Clocked (later env k) := fun _ k h => h.later k
  cases use with
  | setitem key value => exact TimeoutDict.datedAt_setitem key value
  | getitem key =>
    exact keepsAt_bind hlater (TimeoutDict.datedAt_getitem key) fun _ => keepsAt_pure _
  | delitem key => exact datedAt_delitem key
  | listKeys | len =>
    exact keepsAt_bind hlater (keepsAt_bind hlater TimeoutDict.datedAt_removeExpired fun _ =>
      keepsAt_bind hlater keepsAt_get fun _ => keepsAt_pure _) fun _ => keepsAt_pure _

/-- What a key is found to hold after an operation: it has just been set, or it was held before. -/
theorem get?_perform {use : DictUse V} {env : ℕ → Reading} {d : TimeoutDict V} {key : Str}
    {e : ℚ × V} (h : (use.perform.run env d).state.data.get? key = some e) :
    use = setitem key e.2 ∧ e.1 = (env 1).time ∨ ¬ use.Touches key ∧ d.data.get? key = some e := by
  cases use with
  | setitem other v =>
    unfold perform at h
    rw [TimeoutDict.run_setitem] at h
    rcases eq_or_ne key other with rfl | hne
    · -- The key that is set is held under its new value, at the second reading.
      left
      rw [Dict.get?_set_self] at h
      obtain rfl := Option.some.inj h
      exact ⟨rfl, rfl⟩
    · right
      -- An entry of another key was there before: expiry adds nothing.
      rw [Dict.get?_set_of_ne _ _ hne] at h
      have hget := TimeoutDict.get?_of_expire h
      rw [Dict.get?_erase_of_ne _ hne] at hget
      exact ⟨fun heq => hne heq.symm, hget⟩
  | getitem other =>
    unfold perform at h
    rw [run_bind_ok (TimeoutDict.run_getitem other env d)] at h
    exact .inr ⟨fun hf => hf, TimeoutDict.get?_of_expire h⟩
  | delitem other =>
    right
    unfold perform at h
    rw [TimeoutDict.run_delitem] at h
    have hget := TimeoutDict.get?_of_expire h
    rw [Dict.get?_erase] at hget
    split_ifs at hget with heq
    exact ⟨fun hother => heq hother.symm, hget⟩
  | listKeys =>
    unfold perform at h
    rw [run_bind_ok (TimeoutDict.run_listKeys env d)] at h
    exact .inr ⟨fun hf => hf, TimeoutDict.get?_of_expire h⟩
  | len =>
    unfold perform at h
    rw [run_bind_ok (TimeoutDict.run_len env d)] at h
    exact .inr ⟨fun hf => hf, TimeoutDict.get?_of_expire h⟩

/-- No use changes the lifetime. -/
theorem timeout_perform (use : DictUse V) (env : ℕ → Reading) (d : TimeoutDict V) :
    (use.perform.run env d).state.timeout = d.timeout := by
  cases use with
  | setitem key value =>
    unfold perform
    rw [TimeoutDict.run_setitem]
  | getitem key =>
    unfold perform
    rw [run_bind_ok (TimeoutDict.run_getitem key env d)]
    rfl
  | delitem key =>
    unfold perform
    rw [TimeoutDict.run_delitem]
    rfl
  | listKeys =>
    unfold perform
    rw [run_bind_ok (TimeoutDict.run_listKeys env d)]
    rfl
  | len =>
    unfold perform
    rw [run_bind_ok (TimeoutDict.run_len env d)]
    rfl

/-- The entries are those that the history has set, up to some that are too old by now. -/
structure Reflects (uses : List (DictUse V)) (env : ℕ → Reading) (timeout : ℚ)
    (d : TimeoutDict V) : Prop where
  lifetime : d.timeout = timeout
  dated : d.Dated (env (allReadings uses)).time
  sound : ∀ key t value, d.data.get? key = some (t, value) → LastSet uses env key t value
  complete : ∀ key t value, LastSet uses env key t value →
    TimeoutDict.age (env (allReadings uses)).time t ≤ timeout → d.data.get? key = some (t, value)

/-- A new dictionary reflects the empty history. -/
theorem reflects_new (env : ℕ → Reading) (timeout : ℚ) :
    Reflects [] env timeout (TimeoutDict.new timeout : TimeoutDict V) where
  lifetime := rfl
  dated := TimeoutDict.dated_new _ _
  sound := fun key t value h => by cases h
  complete := by
    rintro key t value ⟨before, after, huses, -⟩ -
    have hlen := congrArg List.length huses
    rw [List.length_append, List.length_cons, List.length_nil] at hlen
    omega

/-- Every operation keeps the entries so. -/
theorem Reflects.perform {uses : List (DictUse V)} {env : ℕ → Reading} (hclock : Clocked env)
    {timeout : ℚ} {d : TimeoutDict V} (h : Reflects uses env timeout d) (use : DictUse V) :
    Reflects (uses ++ [use]) env timeout
      (use.perform.run (later env (allReadings uses)) d).state := by
  obtain ⟨-, hused⟩ := use.run_perform (later env (allReadings uses)) d
  have hlater := hclock.later (allReadings uses)
  constructor
  · rw [timeout_perform]
    exact h.lifetime
  · -- Expiry and deletion keep the order, and a key that is set goes to the end.
    have hdated := datedAt_perform use (later env (allReadings uses)) d hlater h.dated
    rw [allReadings_append, ← hused]
    exact hdated
  · intro key t value hget
    rcases get?_perform hget with ⟨rfl, ht⟩ | ⟨hnot, hget⟩
    · have htouches : (setitem key value).Touches key := rfl
      exact (lastSet_append_of_touches htouches).2 ⟨rfl, ht⟩
    · exact (lastSet_append_of_not_touches hnot).2 (h.sound key t value hget)
  · intro key t value hlast hfresh
    rw [allReadings_append] at hfresh
    by_cases htouches : use.Touches key
    · -- The operation itself has set the key.
      obtain ⟨rfl, rfl⟩ := (lastSet_append_of_touches htouches).1 hlast
      unfold DictUse.perform
      rw [TimeoutDict.run_setitem]
      exact Dict.get?_set_self _ _ _
    · -- The entry is not too old at any of the readings that the operation takes.
      have hlast := (lastSet_append_of_not_touches htouches).1 hlast
      have hin : ∀ i ≤ use.readings,
          TimeoutDict.age (env (allReadings uses + i)).time t ≤ timeout := by
        intro i hi
        have hle : (env (allReadings uses + i)).time ≤
            (env (allReadings uses + use.readings)).time := hclock (by omega)
        exact (TimeoutDict.age_mono hle le_rfl).trans hfresh
      have hheld : TimeoutDict.Holds key t value timeout d :=
        ⟨h.lifetime, h.complete key t value hlast (hin 0 (Nat.zero_le _))⟩
      refine (keeps_perform htouches (later env (allReadings uses)) d (fun i hi => ?_) hheld).2
      rw [hused] at hi
      exact hin i (Nat.le_of_lt hi)

/-- So do all of a history. -/
theorem reflects_history {env : ℕ → Reading} (hclock : Clocked env) (timeout : ℚ)
    (uses : List (DictUse V)) :
    Reflects uses env timeout ((history uses).run env (TimeoutDict.new timeout)).state := by
  induction uses using List.reverseRecOn with
  | nil => exact reflects_new env timeout
  | append_singleton uses use ih =>
    obtain ⟨d', hd'⟩ := run_history uses env (TimeoutDict.new timeout)
    rw [run_history_append hd' use]
    rw [hd'] at ih
    exact ih.perform hclock use

/-- After expiry, a key has an entry exactly if it is visible. -/
theorem Reflects.get?_expire {uses : List (DictUse V)} {env : ℕ → Reading} {timeout : ℚ}
    {d : TimeoutDict V} (h : Reflects uses env timeout d) {key : Str} {value : V} :
    (∃ t, (d.expire (env (allReadings uses)).time).data.get? key = some (t, value)) ↔
      Visible uses env timeout (env (allReadings uses)).time key value := by
  have hmem : ∀ t, (d.expire (env (allReadings uses)).time).data.get? key = some (t, value) ↔
      d.data.get? key = some (t, value) ∧
        TimeoutDict.age (env (allReadings uses)).time t ≤ timeout := by
    intro t
    rw [TimeoutDict.get?_expire_dated h.dated, h.lifetime]
  constructor
  · rintro ⟨t, hget⟩
    obtain ⟨hget, hfresh⟩ := (hmem t).1 hget
    exact ⟨t, h.sound key t value hget, hfresh⟩
  · rintro ⟨t, hlast, hfresh⟩
    exact ⟨t, (hmem t).2 ⟨h.complete key t value hlast hfresh, hfresh⟩⟩

/-- A read of a key returns what is visible of it. -/
theorem Reflects.result_getitem {uses : List (DictUse V)} {env : ℕ → Reading} {timeout : ℚ}
    {d : TimeoutDict V} (h : Reflects uses env timeout d) (key : Str) :
    ∃ value, ((TimeoutDict.getitem key).run (later env (allReadings uses)) d).result = .ok value ∧
      ∀ v, value = some v ↔ Visible uses env timeout (env (allReadings uses)).time key v := by
  rw [TimeoutDict.run_getitem]
  refine ⟨_, rfl, fun v => ?_⟩
  rw [← h.get?_expire, Option.map_eq_some_iff]
  constructor
  · rintro ⟨e, he, rfl⟩
    exact ⟨e.1, he⟩
  · rintro ⟨t, ht⟩
    exact ⟨_, ht, rfl⟩

/-- The listing has the visible keys, once each, and the length counts them. -/
theorem Reflects.result_listKeys {uses : List (DictUse V)} {env : ℕ → Reading} {timeout : ℚ}
    {d : TimeoutDict V} (h : Reflects uses env timeout d) :
    ∃ keys : List Str, keys.Nodup ∧
      (∀ key, key ∈ keys ↔ ∃ v, Visible uses env timeout (env (allReadings uses)).time key v) ∧
      (TimeoutDict.listKeys.run (later env (allReadings uses)) d).result = .ok keys ∧
      (TimeoutDict.len.run (later env (allReadings uses)) d).result = .ok keys.length := by
  rw [TimeoutDict.run_listKeys, TimeoutDict.run_len]
  refine ⟨_, Dict.keys_nodup _, fun key => ?_, rfl, ?_⟩
  · rw [Dict.mem_keys]
    simp only [← h.get?_expire, Dict.get?_eq_some]
    constructor
    · rintro ⟨⟨t, v⟩, he⟩
      exact ⟨v, t, he⟩
    · rintro ⟨v, t, he⟩
      exact ⟨_, he⟩
  · unfold Dict.keys Dict.length
    rw [List.length_map]

/-- What is visible of a key does not depend on the operations on other keys. -/
theorem visible_append_of_not_touches {uses : List (DictUse V)} {use : DictUse V}
    {env : ℕ → Reading} {timeout now : ℚ} {key : Str} {v : V} (h : ¬ use.Touches key) :
    Visible (uses ++ [use]) env timeout now key v ↔ Visible uses env timeout now key v := by
  simp only [Visible, lastSet_append_of_not_touches h]

/-- Setting a key makes it visible for as long as the timeout, and deleting it hides it. -/
theorem visible_append_of_touches {uses : List (DictUse V)} {use : DictUse V}
    {env : ℕ → Reading} {timeout now : ℚ} {key : Str} {v : V} (h : use.Touches key) :
    Visible (uses ++ [use]) env timeout now key v ↔
      use = setitem key v ∧ TimeoutDict.age now (env (allReadings uses + 1)).time ≤ timeout := by
  simp only [Visible, lastSet_append_of_touches h]
  constructor
  · rintro ⟨t, ⟨rfl, rfl⟩, hle⟩
    exact ⟨rfl, hle⟩
  · rintro ⟨rfl, hle⟩
    exact ⟨_, ⟨rfl, rfl⟩, hle⟩

/-- A `TimeoutDict` is a map with expiry: after any history its entries are in the order of their
times, and a read sees exactly the visible keys, with the values that they were last set to. What is
visible of a key depends on the operations on that key alone: setting it makes it visible from then
on for as long as the timeout, and deleting it hides it. -/
theorem timeoutDict_is_map {env : ℕ → Reading} (hclock : Clocked env) (timeout : ℚ)
    (uses : List (DictUse V)) :
    ∃ d, (history uses).run env (TimeoutDict.new timeout) =
        ⟨.ok PUnit.unit, allReadings uses, d⟩ ∧
      (d.data.items.Pairwise fun a b => a.2.1 ≤ b.2.1) ∧
      (∀ key, ∃ value, ((TimeoutDict.getitem key).run (later env (allReadings uses)) d).result =
          .ok value ∧ ∀ v, value = some v ↔
            Visible uses env timeout (env (allReadings uses)).time key v) ∧
      (∃ keys : List Str, keys.Nodup ∧
        (∀ key, key ∈ keys ↔ ∃ v, Visible uses env timeout (env (allReadings uses)).time key v) ∧
        (TimeoutDict.listKeys.run (later env (allReadings uses)) d).result = .ok keys ∧
        (TimeoutDict.len.run (later env (allReadings uses)) d).result = .ok keys.length) ∧
      ∀ (use : DictUse V) (key : Str) (now : ℚ) (v : V),
        (¬ use.Touches key → (Visible (uses ++ [use]) env timeout now key v ↔
          Visible uses env timeout now key v)) ∧
        (use.Touches key → (Visible (uses ++ [use]) env timeout now key v ↔
          use = setitem key v ∧
            TimeoutDict.age now (env (allReadings uses + 1)).time ≤ timeout)) := by
  obtain ⟨d, hd⟩ := run_history uses env (TimeoutDict.new timeout)
  have h := reflects_history hclock timeout uses
  rw [hd] at h
  exact ⟨d, hd, h.dated.sorted, h.result_getitem, h.result_listKeys, fun use key now v =>
    ⟨visible_append_of_not_touches, visible_append_of_touches⟩⟩

/-- A clock that goes on by one with each reading. -/
def tickingClock (i : ℕ) : Reading := ⟨i, [], DateTime.min⟩

/-- The ticking clock runs forward. -/
theorem clocked_tickingClock : Clocked tickingClock := by
  intro i j hij
  show (i : ℚ) ≤ j
  exact_mod_cast hij

/-- `timeoutDict_is_map` holds of a key that is set twice. -/
theorem setTwice_visible :
    ∃ value, ((TimeoutDict.getitem (str "k")).run (later tickingClock 4)
        ((history [setitem (str "k") 1, setitem (str "k") 2]).run tickingClock
          (TimeoutDict.new 1)).state).result = .ok value ∧
      ∀ v, value = some v ↔
        Visible [setitem (str "k") 1, setitem (str "k") 2] tickingClock 1 4 (str "k") v := by
  obtain ⟨d, hd, -, hget, -⟩ := timeoutDict_is_map clocked_tickingClock 1
    [setitem (str "k") 1, setitem (str "k") (2 : ℕ)]
  rw [hd]
  exact hget (str "k")

end DictUse

end Vumi2
