import Vumi2.MessageCaches

/-!
# The methods that `TimeoutDict` inherits

`MutableMapping` implements `in`, `get`, `pop` and `setdefault` by calling `__getitem__` and
catching a `KeyError`. `TimeoutDict.__getitem__` raises none: for a key that it does not have it
returns `None`. So every key is `in` the dictionary, no default is ever returned, and `setdefault`
never sets anything (`obeysMapping_iff`).
-/

namespace Vumi2

open Effect Eff Text

namespace TimeoutDict

variable {V : Type}

/-- The `except KeyError` clause of the inherited methods. -/
def exceptKeyError {α : Type} (handler : Py (TimeoutDict V) α) : PyExc → Py (TimeoutDict V) α
  | .keyError => handler
  | e => raise e

/-- `Mapping.__contains__`. -/
def containsKey (key : Str) : Py (TimeoutDict V) Bool :=
  catching
    (do
      let _ ← getitem key
      pure true)
    (exceptKeyError (pure false))

/-- `Mapping.get`. -/
def getDefault (key : Str) (default : Option V) : Py (TimeoutDict V) (Option V) :=
  catching (getitem key) (exceptKeyError (pure default))

/-- `MutableMapping.pop` with a default. What follows the look-up is not in its `try`. -/
def popDefault (key : Str) (default : Option V) : Py (TimeoutDict V) (Option V) := do
  let value ← attempt (getitem key)
  match value with
  | .ok value => do
    delitem key
    pure value
  | .error e => exceptKeyError (pure default) e

/-- `MutableMapping.setdefault`. -/
def setdefault (key : Str) (default : V) : Py (TimeoutDict V) (Option V) :=
  catching (getitem key)
    (exceptKeyError do
      setitem key default
      pure (some default))

/-! ## What they do -/

/-- A key is listed exactly if something is found under it. -/
theorem mem_keys_iff {d : TimeoutDict V} {now : ℚ} {key : Str} :
    key ∈ (d.expire now).data.keys ↔ ∃ v, d.lookedUp now key = some v := by
  unfold lookedUp
  rw [← not_iff_not, ← Dict.get?_eq_none]
  cases (d.expire now).data.get? key with
  | none => simp
  | some e => simp

variable (key : Str) (env : ℕ → Reading) (d : TimeoutDict V)

/-- Every key is in the dictionary. -/
theorem run_containsKey :
    (containsKey key).run env d = ⟨.ok true, 1, d.expire (env 0).time⟩ := by
  have htry : ((getitem key : Py (TimeoutDict V) _) >>= fun _ => pure true).run env d =
      ⟨.ok true, 1, d.expire (env 0).time⟩ := by
    rw [run_bind_ok (run_getitem key env d)]
    rfl
  unfold containsKey
  rw [run_catching, htry]

/-- `get` returns what is found, or `None`. -/
theorem run_getDefault (default : Option V) :
    (getDefault key default).run env d =
      ⟨.ok (d.lookedUp (env 0).time key), 1, d.expire (env 0).time⟩ := by
  unfold getDefault
  rw [run_catching, run_getitem]
  rfl

/-- `pop` with a default is `pop` without one. -/
theorem run_popDefault (default : Option V) :
    (popDefault key default).run env d = (pop key).run env d := by
  have hattempt : (attempt (getitem key)).run env d =
      ⟨.ok (.ok (d.lookedUp (env 0).time key)), 1, d.expire (env 0).time⟩ := by
    rw [run_attempt, run_getitem]
    rfl
  unfold popDefault pop
  rw [run_bind_ok hattempt, run_bind_ok (run_getitem key env d)]
  rfl

/-- `setdefault` is `get`. -/
theorem run_setdefault (default : V) :
    (setdefault key default).run env d =
      ⟨.ok (d.lookedUp (env 0).time key), 1, d.expire (env 0).time⟩ := by
  unfold setdefault
  rw [run_catching, run_getitem]
  rfl

/-! ## The contract -/

/-- A method returns the value of a key that is listed, and the default for any other. -/
def ReturnsDefault (d : TimeoutDict V) (r : Reading) (keys : List Str) (key : Str)
    (default : Option V) (m : Py (TimeoutDict V) (Option V)) : Prop :=
  (key ∈ keys → (m.run (fun _ => r) d).result = .ok (d.lookedUp r.time key)) ∧
    (key ∉ keys → (m.run (fun _ => r) d).result = .ok default)

/-- The contract of the inherited methods, for a key, a default, and a value to set, while the clock
stands at a reading: `keys` are those that the iteration yields. -/
structure ObeysMapping (d : TimeoutDict V) (r : Reading) (keys : List Str) (key : Str)
    (default : Option V) (value : V) : Prop where
  containsKey : ((containsKey key).run (fun _ => r) d).result = .ok true ↔ key ∈ keys
  get : ReturnsDefault d r keys key default (getDefault key default)
  pop : ReturnsDefault d r keys key default (popDefault key default)
  /-- The value is set if the key is not listed, and nothing changes if it is. -/
  setdefault :
    (key ∉ keys → ((setdefault key value).run (fun _ => r) d).state.data.get? key =
      some (r.time, value)) ∧
    (key ∈ keys → ((setdefault key value).run (fun _ => r) d).state = d.expire r.time)

/-- A method that returns what is found keeps the contract for the keys that are listed, and for
the default `None`. -/
theorem returnsDefault_iff (default : Option V) {r : Reading} {keys : List Str}
    {m : Py (TimeoutDict V) (Option V)}
    (hkeys : key ∈ keys ↔ ∃ v, d.lookedUp r.time key = some v)
    (hm : (m.run (fun _ => r) d).result = .ok (d.lookedUp r.time key)) :
    ReturnsDefault d r keys key default m ↔ key ∈ keys ∨ default = none := by
  unfold ReturnsDefault
  rw [hm]
  by_cases hkey : key ∈ keys
  · simp [hkey]
  · have hnone : d.lookedUp r.time key = none := by
      rw [Option.eq_none_iff_forall_ne_some]
      exact fun v hv => hkey (hkeys.2 ⟨v, hv⟩)
    simp [hkey, hnone, eq_comm]

/-- The inherited methods keep their contract exactly for the keys that the iteration yields. For
the other keys, `in` is true and `setdefault` sets nothing; `get` and `pop` are right if the default
is `None`. -/
theorem obeysMapping_iff (r : Reading) (default : Option V) (value : V) :
    ∃ keys, (listKeys.run (fun _ => r) d).result = .ok keys ∧
      (ObeysMapping d r keys key default value ↔ key ∈ keys) ∧
      (ReturnsDefault d r keys key default (getDefault key default) ↔
        key ∈ keys ∨ default = none) ∧
      (ReturnsDefault d r keys key default (popDefault key default) ↔
        key ∈ keys ∨ default = none) := by
  have hkeys : key ∈ (d.expire r.time).data.keys ↔ ∃ v, d.lookedUp r.time key = some v :=
    mem_keys_iff
  have hget := returnsDefault_iff key d default hkeys
    (congrArg Outcome.result (run_getDefault key (fun _ => r) d default))
  have hpop := returnsDefault_iff key d default hkeys
    (m := popDefault key default) (by rw [run_popDefault, run_pop]; rfl)
  refine ⟨(d.expire r.time).data.keys, by rw [run_listKeys], ⟨?_, fun hkey => ?_⟩, hget, hpop⟩
  · intro h
    exact h.containsKey.1 (by rw [run_containsKey])
  · refine ⟨?_, hget.2 (.inl hkey), hpop.2 (.inl hkey), fun hnot => absurd hkey hnot, fun _ => ?_⟩
    · rw [run_containsKey]
      simp [hkey]
    · rw [run_setdefault]

/-- In an empty dictionary, a key is `in` it and no default is returned or set. -/
theorem empty_not_obeysMapping :
    (listKeys.run (fun _ => ⟨0, [], DateTime.min⟩) (new 60 : TimeoutDict Str)).result = .ok [] ∧
      ¬ ObeysMapping (new 60 : TimeoutDict Str) ⟨0, [], DateTime.min⟩ [] (str "k")
        (some (str "d")) (str "v") := by
  refine ⟨rfl, fun h => ?_⟩
  exact List.not_mem_nil (h.containsKey.1 (by rw [run_containsKey]))

end TimeoutDict

end Vumi2
