import Mathlib.Data.Nat.Notation
import Mathlib.Tactic.TypeStar

/-!
# Computations that read an environment, change a state, and may raise

`Eff ω ε σ α` is the shape of a method of an object: it takes readings of its environment (the
clock, fresh identifiers) in order, changes the state `σ`, and returns an `α` or raises an `ε`. As
in the programs modelled, what a computation changed before it raised stays changed.

The environment is a stream `env : ℕ → ω` of readings. An outcome carries the number of readings
that the computation took, and what runs next sees the stream without them. So a property that a
stream keeps when its first readings are dropped, such as being monotone, holds of every stream that
a part of a computation sees.

The `run_*` lemmas are the simp set: they push `run` through the operations, so that a proof never
unfolds `Eff`.
-/

namespace Effect

/-- What a computation did: the value that it returned or the exception that it raised, the number
of readings that it took, and the state that it left. -/
structure Outcome (ε σ α : Type) where
  /-- The returned value, or the raised exception. -/
  result : Except ε α
  /-- How many readings of the environment were taken. -/
  used : ℕ
  /-- The state left behind, also when an exception was raised. -/
  state : σ

/-- A computation over readings `ω`, exceptions `ε`, and a state `σ`. -/
def Eff (ω ε σ α : Type) : Type := (ℕ → ω) → σ → Outcome ε σ α

/-- A stream without its first `k` readings. -/
def later {ω : Type} (env : ℕ → ω) (k : ℕ) : ℕ → ω := fun i => env (k + i)

/-- What comes after `k` readings starts with the reading at `k`. -/
@[simp] theorem later_apply {ω : Type} (env : ℕ → ω) (k i : ℕ) : later env k i = env (k + i) := rfl

/-- After no readings the stream is what it was. -/
@[simp] theorem later_zero {ω : Type} (env : ℕ → ω) : later env 0 = env := by
  funext i; simp

/-- Two ways on in a stream are one way of both lengths. -/
@[simp] theorem later_later {ω : Type} (env : ℕ → ω) (k l : ℕ) :
    later (later env k) l = later env (k + l) := by
  funext i; simp [Nat.add_assoc]

namespace Eff

variable {ω ε σ τ α β : Type}

/-- Runs a computation. -/
def run (m : Eff ω ε σ α) (env : ℕ → ω) (s : σ) : Outcome ε σ α := m env s

/-- The computation that returns a value and does nothing else. -/
protected def pure (a : α) : Eff ω ε σ α := fun _ s => ⟨.ok a, 0, s⟩

/-- One computation after another. When the first one raises, the second one does not run. -/
protected def bind (m : Eff ω ε σ α) (f : α → Eff ω ε σ β) : Eff ω ε σ β := fun env s =>
  let o := m env s
  match o.result with
  | .ok a =>
    let o' := f a (later env o.used) o.state
    ⟨o'.result, o.used + o'.used, o'.state⟩
  | .error e => ⟨.error e, o.used, o.state⟩

instance : Monad (Eff ω ε σ) where
  pure := Eff.pure
  bind := Eff.bind

/-- Raises an exception. -/
def raise (e : ε) : Eff ω ε σ α := fun _ s => ⟨.error e, 0, s⟩

/-- The value of an `Except`, or its exception raised. -/
def ofExcept (x : Except ε α) : Eff ω ε σ α := fun _ s => ⟨x, 0, s⟩

/-- The value of an `Option`, or the exception `e` raised for `none`. -/
def ofOption (e : ε) (x : Option α) : Eff ω ε σ α := fun _ s =>
  ⟨match x with | some a => .ok a | none => .error e, 0, s⟩

/-- The state. -/
def get : Eff ω ε σ σ := fun _ s => ⟨.ok s, 0, s⟩

/-- Changes the state. -/
def modify (f : σ → σ) : Eff ω ε σ Unit := fun _ s => ⟨.ok (), 0, f s⟩

/-- Takes the next reading of the environment. -/
def read : Eff ω ε σ ω := fun env s => ⟨.ok (env 0), 1, s⟩

/-- Runs a computation on a part of the state. -/
def on (part : σ → τ) (put : σ → τ → σ) (m : Eff ω ε τ α) : Eff ω ε σ α := fun env s =>
  let o := m env (part s)
  ⟨o.result, o.used, put s o.state⟩

/-- Runs `h` on what `m` raises. -/
def catching (m : Eff ω ε σ α) (h : ε → Eff ω ε σ α) : Eff ω ε σ α := fun env s =>
  let o := m env s
  match o.result with
  | .ok a => ⟨.ok a, o.used, o.state⟩
  | .error e =>
    let o' := h e (later env o.used) o.state
    ⟨o'.result, o.used + o'.used, o'.state⟩

/-- Runs a computation for its result, whether it returns or raises. -/
def attempt (m : Eff ω ε σ α) : Eff ω ε σ (Except ε α) := fun env s =>
  let o := m env s
  ⟨.ok o.result, o.used, o.state⟩

/-- `pure` takes no reading and leaves the state. -/
@[simp] theorem run_pure (a : α) (env : ℕ → ω) (s : σ) :
    (Pure.pure a : Eff ω ε σ α).run env s = ⟨.ok a, 0, s⟩ := rfl

/-- A second computation runs if the first one returns, from the state and the readings that it
left. -/
theorem run_bind (m : Eff ω ε σ α) (f : α → Eff ω ε σ β) (env : ℕ → ω) (s : σ) :
    (m >>= f).run env s =
      match (m.run env s).result with
      | .ok a =>
        ⟨((f a).run (later env (m.run env s).used) (m.run env s).state).result,
          (m.run env s).used + ((f a).run (later env (m.run env s).used) (m.run env s).state).used,
          ((f a).run (later env (m.run env s).used) (m.run env s).state).state⟩
      | .error e => ⟨.error e, (m.run env s).used, (m.run env s).state⟩ := rfl

/-- `run_bind` when the first computation is known to return. -/
theorem run_bind_ok {m : Eff ω ε σ α} {f : α → Eff ω ε σ β} {env : ℕ → ω} {s s' : σ} {a : α}
    {k : ℕ} (h : m.run env s = ⟨.ok a, k, s'⟩) :
    (m >>= f).run env s =
      ⟨((f a).run (later env k) s').result, k + ((f a).run (later env k) s').used,
        ((f a).run (later env k) s').state⟩ := by
  simp only [run_bind, h]

/-- `run_bind` when the first computation is known to raise. -/
theorem run_bind_error {m : Eff ω ε σ α} {f : α → Eff ω ε σ β} {env : ℕ → ω} {s s' : σ} {e : ε}
    {k : ℕ} (h : m.run env s = ⟨.error e, k, s'⟩) :
    (m >>= f).run env s = ⟨.error e, k, s'⟩ := by
  simp only [run_bind, h]

/-- The result of a `bind` is that of the second computation, if the first one returns. -/
theorem result_bind {m : Eff ω ε σ α} {f : α → Eff ω ε σ β} {env : ℕ → ω} {s : σ} {a : α}
    (h : (m.run env s).result = .ok a) :
    ((m >>= f).run env s).result =
      ((f a).run (later env (m.run env s).used) (m.run env s).state).result := by
  simp only [run_bind, h]

/-- A `bind` takes the readings of its first computation at least. -/
theorem used_le_bind (m : Eff ω ε σ α) (f : α → Eff ω ε σ β) (env : ℕ → ω) (s : σ) :
    (m.run env s).used ≤ ((m >>= f).run env s).used := by
  rw [run_bind]
  cases (m.run env s).result with
  | error e => exact Nat.le_refl _
  | ok a => exact Nat.le_add_right _ _

/-- `pure` before a computation is nothing. -/
@[simp] theorem run_pure_bind (a : α) (f : α → Eff ω ε σ β) (env : ℕ → ω) (s : σ) :
    ((Pure.pure a : Eff ω ε σ α) >>= f).run env s = (f a).run env s := by
  rw [run_bind_ok (run_pure a env s)]
  simp

/-- `raise` takes no reading and leaves the state. -/
@[simp] theorem run_raise (e : ε) (env : ℕ → ω) (s : σ) :
    (raise e : Eff ω ε σ α).run env s = ⟨.error e, 0, s⟩ := rfl

/-- Nothing runs after a `raise`. -/
@[simp] theorem run_raise_bind (e : ε) (f : α → Eff ω ε σ β) (env : ℕ → ω) (s : σ) :
    ((raise e : Eff ω ε σ α) >>= f).run env s = ⟨.error e, 0, s⟩ := rfl

/-- `ofExcept` takes no reading and leaves the state. -/
@[simp] theorem run_ofExcept (x : Except ε α) (env : ℕ → ω) (s : σ) :
    (ofExcept x : Eff ω ε σ α).run env s = ⟨x, 0, s⟩ := rfl

/-- A value that is there goes on to the next computation. -/
@[simp] theorem run_ofExcept_ok_bind (a : α) (f : α → Eff ω ε σ β) (env : ℕ → ω) (s : σ) :
    ((ofExcept (.ok a) : Eff ω ε σ α) >>= f).run env s = (f a).run env s := run_pure_bind a f env s

/-- Nothing runs after an exception that is there. -/
@[simp] theorem run_ofExcept_error_bind (e : ε) (f : α → Eff ω ε σ β) (env : ℕ → ω) (s : σ) :
    ((ofExcept (.error e) : Eff ω ε σ α) >>= f).run env s = ⟨.error e, 0, s⟩ := rfl

/-- `ofOption` returns a value that is there. -/
@[simp] theorem run_ofOption_some (e : ε) (a : α) (env : ℕ → ω) (s : σ) :
    (ofOption e (some a) : Eff ω ε σ α).run env s = ⟨.ok a, 0, s⟩ := rfl

/-- `ofOption` raises where there is no value. -/
@[simp] theorem run_ofOption_none (e : ε) (env : ℕ → ω) (s : σ) :
    (ofOption e none : Eff ω ε σ α).run env s = ⟨.error e, 0, s⟩ := rfl

/-- An optional value that is there goes on to the next computation. -/
@[simp] theorem run_ofOption_some_bind (e : ε) (a : α) (f : α → Eff ω ε σ β) (env : ℕ → ω)
    (s : σ) : ((ofOption e (some a) : Eff ω ε σ α) >>= f).run env s = (f a).run env s :=
  run_pure_bind a f env s

/-- Nothing runs after an optional value that is not there. -/
@[simp] theorem run_ofOption_none_bind (e : ε) (f : α → Eff ω ε σ β) (env : ℕ → ω) (s : σ) :
    ((ofOption e none : Eff ω ε σ α) >>= f).run env s = ⟨.error e, 0, s⟩ := rfl

/-- `get` returns the state, and leaves it. -/
@[simp] theorem run_get (env : ℕ → ω) (s : σ) : (get : Eff ω ε σ σ).run env s = ⟨.ok s, 0, s⟩ := rfl

/-- What comes after `get` runs with the state. -/
@[simp] theorem run_get_bind (f : σ → Eff ω ε σ β) (env : ℕ → ω) (s : σ) :
    ((get : Eff ω ε σ σ) >>= f).run env s = (f s).run env s := by
  rw [run_bind_ok (run_get env s)]
  simp

/-- `modify` changes the state and takes no reading. -/
@[simp] theorem run_modify (f : σ → σ) (env : ℕ → ω) (s : σ) :
    (modify f : Eff ω ε σ Unit).run env s = ⟨.ok (), 0, f s⟩ := rfl

/-- What comes after `modify` runs from the changed state. -/
@[simp] theorem run_modify_bind (g : σ → σ) (f : Unit → Eff ω ε σ β) (env : ℕ → ω) (s : σ) :
    ((modify g : Eff ω ε σ Unit) >>= f).run env s = (f ()).run env (g s) := by
  rw [run_bind_ok (run_modify g env s)]
  simp

/-- `read` takes one reading. -/
@[simp] theorem run_read (env : ℕ → ω) (s : σ) :
    (read : Eff ω ε σ ω).run env s = ⟨.ok (env 0), 1, s⟩ := rfl

/-- What comes after `read` runs without the reading that was taken. -/
@[simp] theorem run_read_bind (f : ω → Eff ω ε σ β) (env : ℕ → ω) (s : σ) :
    ((read : Eff ω ε σ ω) >>= f).run env s =
      ⟨((f (env 0)).run (later env 1) s).result, 1 + ((f (env 0)).run (later env 1) s).used,
        ((f (env 0)).run (later env 1) s).state⟩ := run_bind_ok (run_read env s)

/-- The monad laws, so that a computation can be rearranged without running it. -/
instance : LawfulMonad (Eff ω ε σ) := LawfulMonad.mk' _
  (by
    intro α m
    funext env s
    show (m >>= fun a => Pure.pure a).run env s = m.run env s
    rw [run_bind]
    cases h : (m.run env s).result with
    | error e => simp only [← h]
    | ok a => simp [← h])
  (by
    intro α β a f
    funext env s
    exact run_pure_bind a f env s)
  (by
    intro α β γ m f g
    funext env s
    show ((m >>= f) >>= g).run env s = (m >>= fun a => f a >>= g).run env s
    -- Both sides run `f` on the same state, after the same number of readings.
    cases h : (m.run env s).result with
    | error e => simp only [run_bind, h]
    | ok a =>
      simp only [run_bind, h]
      cases h' : ((f a).run (later env (m.run env s).used) (m.run env s).state).result with
      | error e => rfl
      | ok b => simp [Nat.add_assoc])

/-- `Except.map` changes a value that is returned. -/
@[simp] theorem map_ok (f : α → β) (a : α) :
    Except.map f (.ok a : Except ε α) = .ok (f a) := rfl

/-- A map changes only what is returned. -/
@[simp] theorem run_map (f : α → β) (m : Eff ω ε σ α) (env : ℕ → ω) (s : σ) :
    (f <$> m).run env s =
      ⟨(m.run env s).result.map f, (m.run env s).used, (m.run env s).state⟩ := by
  show (m >>= fun a => Pure.pure (f a)).run env s = _
  rw [run_bind]
  cases (m.run env s).result with
  | error e => rfl
  | ok a => rfl

/-- What comes after a `raise` can be left out. -/
@[simp] theorem raise_bind (e : ε) (f : α → Eff ω ε σ β) :
    ((raise e : Eff ω ε σ α) >>= f) = raise e := rfl

/-- `ofExcept` of a value is `pure`. -/
@[simp] theorem ofExcept_ok (a : α) : (ofExcept (.ok a) : Eff ω ε σ α) = Pure.pure a := rfl

/-- `ofExcept` of an exception is `raise`. -/
@[simp] theorem ofExcept_error (e : ε) : (ofExcept (.error e) : Eff ω ε σ α) = raise e := rfl

/-- A computation on a part runs on this part, and its state is put back. -/
@[simp] theorem run_on (part : σ → τ) (put : σ → τ → σ) (m : Eff ω ε τ α) (env : ℕ → ω) (s : σ) :
    (on part put m).run env s =
      ⟨(m.run env (part s)).result, (m.run env (part s)).used,
        put s (m.run env (part s)).state⟩ := rfl

/-- `attempt` returns the result, whether that is a value or an exception. -/
@[simp] theorem run_attempt (m : Eff ω ε σ α) (env : ℕ → ω) (s : σ) :
    (attempt m).run env s =
      ⟨.ok (m.run env s).result, (m.run env s).used, (m.run env s).state⟩ := rfl

/-- `catching` runs the handler from what the computation left behind when it raised. -/
theorem run_catching (m : Eff ω ε σ α) (h : ε → Eff ω ε σ α) (env : ℕ → ω) (s : σ) :
    (catching m h).run env s =
      match (m.run env s).result with
      | .ok a => ⟨.ok a, (m.run env s).used, (m.run env s).state⟩
      | .error e =>
        ⟨((h e).run (later env (m.run env s).used) (m.run env s).state).result,
          (m.run env s).used + ((h e).run (later env (m.run env s).used) (m.run env s).state).used,
          ((h e).run (later env (m.run env s).used) (m.run env s).state).state⟩ := rfl

/-! ## Invariants -/

/-- A computation keeps `Inv` as long as the readings that it takes are `ok`, also when it
raises. -/
def Keeps (ok : ω → Prop) (Inv : σ → Prop) (m : Eff ω ε σ α) : Prop :=
  ∀ env s, (∀ i < (m.run env s).used, ok (env i)) → Inv s → Inv (m.run env s).state

variable {ok : ω → Prop} {Inv : σ → Prop}

/-- `pure` keeps any invariant. -/
theorem keeps_pure (a : α) : Keeps ok Inv (Pure.pure a : Eff ω ε σ α) := fun _ _ _ h => h

/-- `raise` keeps any invariant. -/
theorem keeps_raise (e : ε) : Keeps ok Inv (raise e : Eff ω ε σ α) := fun _ _ _ h => h

/-- `ofExcept` keeps any invariant. -/
theorem keeps_ofExcept (x : Except ε α) : Keeps ok Inv (ofExcept x : Eff ω ε σ α) :=
  fun _ _ _ h => h

/-- `get` keeps any invariant. -/
theorem keeps_get : Keeps ok Inv (get : Eff ω ε σ σ) := fun _ _ _ h => h

/-- `read` keeps any invariant. -/
theorem keeps_read : Keeps ok Inv (read : Eff ω ε σ ω) := fun _ _ _ h => h

/-- `modify` keeps an invariant that its function keeps. -/
theorem keeps_modify {f : σ → σ} (h : ∀ s, Inv s → Inv (f s)) :
    Keeps ok Inv (modify f : Eff ω ε σ Unit) := fun _ s _ hs => h s hs

/-- What both parts keep, the whole keeps. -/
theorem keeps_bind {m : Eff ω ε σ α} {f : α → Eff ω ε σ β} (hm : Keeps ok Inv m)
    (hf : ∀ a, Keeps ok Inv (f a)) : Keeps ok Inv (m >>= f) := by
  intro env s hok hs
  have hmid := hm env s
  rw [run_bind] at hok ⊢
  cases h : (m.run env s).result with
  | error e =>
    simp only [h] at hok ⊢
    exact hmid hok hs
  | ok a =>
    simp only [h] at hok ⊢
    apply hf a
    · intro i hi
      exact hok _ (Nat.add_lt_add_left hi _)
    · exact hmid (fun i hi => hok i (Nat.lt_of_lt_of_le hi (Nat.le_add_right _ _))) hs

/-- What the first part brings about and the second one keeps holds after the whole. -/
theorem holds_bind {m : Eff ω ε σ α} {f : α → Eff ω ε σ β}
    (hm : ∀ env s, Inv (m.run env s).state) (hf : ∀ a, Keeps (fun _ => True) Inv (f a))
    (env : ℕ → ω) (s : σ) : Inv ((m >>= f).run env s).state := by
  rw [run_bind]
  cases h : (m.run env s).result with
  | error e => exact hm env s
  | ok a => exact hf a _ _ (fun _ _ => trivial) (hm env s)

/-- What a computation keeps of a part of the state. -/
theorem keeps_on {part : σ → τ} {put : σ → τ → σ} {Inv : τ → Prop} {m : Eff ω ε τ α}
    (hput : ∀ s t, part (put s t) = t) (hm : Keeps ok Inv m) :
    Keeps ok (fun s => Inv (part s)) (on part put m) := by
  intro env s hok hs
  rw [run_on, hput]
  exact hm env (part s) hok hs

/-- What a computation on a part of the state leaves alone. -/
theorem keeps_on_frame {part : σ → τ} {put : σ → τ → σ} {m : Eff ω ε τ α}
    (hput : ∀ s t, Inv s → Inv (put s t)) : Keeps ok Inv (on part put m) :=
  fun _ s _ hs => hput s _ hs

/-- `attempt` keeps what the computation keeps. -/
theorem keeps_attempt {m : Eff ω ε σ α} (hm : Keeps ok Inv m) : Keeps ok Inv (attempt m) :=
  fun env s hok hs => hm env s hok hs

/-- A computation keeps a relation between the next reading and the state, as long as the readings
are `ok` from where it starts. -/
def KeepsAt (ok : (ℕ → ω) → Prop) (Inv : ω → σ → Prop) (m : Eff ω ε σ α) : Prop :=
  ∀ env s, ok env → Inv (env 0) s → Inv (env (m.run env s).used) (m.run env s).state

section

variable {ok : (ℕ → ω) → Prop} {Inv : ω → σ → Prop}

/-- `pure` keeps any invariant that depends on the readings to come. -/
theorem keepsAt_pure (a : α) : KeepsAt ok Inv (Pure.pure a : Eff ω ε σ α) := fun _ _ _ h => h

/-- `get` keeps any invariant that depends on the readings to come. -/
theorem keepsAt_get : KeepsAt ok Inv (get : Eff ω ε σ σ) := fun _ _ _ h => h

/-- What both parts keep, the whole keeps, since `ok` readings stay so when the first ones are
dropped. -/
theorem keepsAt_bind (hok : ∀ env k, ok env → ok (later env k)) {m : Eff ω ε σ α}
    {f : α → Eff ω ε σ β} (hm : KeepsAt ok Inv m) (hf : ∀ a, KeepsAt ok Inv (f a)) :
    KeepsAt ok Inv (m >>= f) := by
  intro env s henv hs
  have hmid := hm env s henv hs
  rw [run_bind]
  cases h : (m.run env s).result with
  | error e => exact hmid
  | ok a => exact hf a (later env (m.run env s).used) (m.run env s).state (hok env _ henv) hmid

/-- `attempt` keeps such an invariant if the computation does. -/
theorem keepsAt_attempt {m : Eff ω ε σ α} (hm : KeepsAt ok Inv m) : KeepsAt ok Inv (attempt m) :=
  fun env s henv hs => hm env s henv hs

end

/-! ## Results -/

/-- A computation that raises, whatever it reads and in every state. -/
def Raises (m : Eff ω ε σ α) : Prop := ∀ env s, ∃ e, (m.run env s).result = .error e

/-- A `bind` raises if its first computation does. -/
theorem raises_bind {m : Eff ω ε σ α} (h : Raises m) (f : α → Eff ω ε σ β) :
    Raises (m >>= f) := by
  intro env s
  obtain ⟨e, he⟩ := h env s
  exact ⟨e, by rw [run_bind, he]⟩

/-- A `bind` raises if its second computation does for every value. -/
theorem raises_bind_right {m : Eff ω ε σ α} {f : α → Eff ω ε σ β} (h : ∀ a, Raises (f a)) :
    Raises (m >>= f) := by
  intro env s
  cases hm : (m.run env s).result with
  | error e => exact ⟨e, by rw [run_bind, hm]⟩
  | ok a =>
    rw [result_bind hm]
    exact h a _ _

/-- A computation that returns a value with the property `p`, whatever it reads and in every
state. -/
def Returns (m : Eff ω ε σ α) (p : α → Prop) : Prop :=
  ∀ env s, ∃ a, (m.run env s).result = .ok a ∧ p a

/-- A `bind` returns if both its computations do. -/
theorem returns_bind {m : Eff ω ε σ α} {f : α → Eff ω ε σ β} {p : α → Prop} {q : β → Prop}
    (hm : Returns m p) (hf : ∀ a, p a → Returns (f a) q) : Returns (m >>= f) q := by
  intro env s
  obtain ⟨a, ha, hp⟩ := hm env s
  rw [result_bind ha]
  exact hf a hp _ _

/-- `pure` returns its value. -/
theorem returns_pure {a : α} {p : α → Prop} (h : p a) :
    Returns (Pure.pure a : Eff ω ε σ α) p := fun _ _ => ⟨a, rfl, h⟩

/-- A computation on a part returns what it returns on its own. -/
theorem returns_on {part : σ → τ} {put : σ → τ → σ} {m : Eff ω ε τ α} {p : α → Prop}
    (hm : Returns m p) : Returns (on part put m) p := fun env s => hm env (part s)

/-- Whatever a computation returns has the property `p`; it may raise. -/
def Gives (m : Eff ω ε σ α) (p : α → Prop) : Prop :=
  ∀ env s a, (m.run env s).result = .ok a → p a

/-- `pure` gives its value. -/
theorem gives_pure {a : α} {p : α → Prop} (h : p a) : Gives (Pure.pure a : Eff ω ε σ α) p := by
  intro env s b hb
  obtain rfl := Except.ok.inj hb
  exact h

/-- What a `bind` gives is what its second computation gives. -/
theorem gives_bind {m : Eff ω ε σ α} {f : α → Eff ω ε σ β} {p : α → Prop} {q : β → Prop}
    (hm : Gives m p) (hf : ∀ a, p a → Gives (f a) q) : Gives (m >>= f) q := by
  intro env s b hb
  rw [run_bind] at hb
  cases h : (m.run env s).result with
  | error e =>
    rw [h] at hb
    cases hb
  | ok a =>
    rw [h] at hb
    exact hf a (hm env s a h) _ _ b hb

/-- A computation of which nothing is asked. -/
theorem gives_any (m : Eff ω ε σ α) : Gives m fun _ => True := fun _ _ _ _ => trivial

/-- A computation on a part gives what it gives on its own. -/
theorem gives_on {part : σ → τ} {put : σ → τ → σ} {m : Eff ω ε τ α} {p : α → Prop}
    (hm : Gives m p) : Gives (on part put m) p := fun env s a ha => hm env (part s) a ha

/-- `keeps_bind`, where the second part may rely on what the first one returns. -/
theorem keeps_bind_of_gives {m : Eff ω ε σ α} {f : α → Eff ω ε σ β} {p : α → Prop}
    (hm : Keeps ok Inv m) (hp : Gives m p) (hf : ∀ a, p a → Keeps ok Inv (f a)) :
    Keeps ok Inv (m >>= f) := by
  intro env s hok hs
  have hmid := hm env s
  rw [run_bind] at hok ⊢
  cases h : (m.run env s).result with
  | error e =>
    simp only [h] at hok ⊢
    exact hmid hok hs
  | ok a =>
    simp only [h] at hok ⊢
    apply hf a (hp env s a h)
    · intro i hi
      exact hok _ (Nat.add_lt_add_left hi _)
    · exact hmid (fun i hi => hok i (Nat.lt_of_lt_of_le hi (Nat.le_add_right _ _))) hs

/-- A run that returns went through both of its parts. -/
theorem of_run_bind_ok {m : Eff ω ε σ α} {f : α → Eff ω ε σ β} {env : ℕ → ω} {s s' : σ} {b : β}
    {k : ℕ} (h : (m >>= f).run env s = ⟨.ok b, k, s'⟩) :
    ∃ a k₁ k₂ t, m.run env s = ⟨.ok a, k₁, t⟩ ∧ (f a).run (later env k₁) t = ⟨.ok b, k₂, s'⟩ ∧
      k₁ + k₂ = k := by
  rw [run_bind] at h
  rcases hm : m.run env s with ⟨r, k₁, t⟩
  rw [hm] at h
  cases r with
  | error e => cases congrArg Outcome.result h
  | ok a =>
    rcases hf : (f a).run (later env k₁) t with ⟨r, k₂, u⟩
    simp only [hf, Outcome.mk.injEq] at h
    obtain ⟨hr, hk, hu⟩ := h
    exact ⟨a, k₁, k₂, t, rfl, by rw [hf, hr, hu], hk⟩

/-- A run that returns, and does not raise. -/
def Succeeds (m : Eff ω ε σ α) (env : ℕ → ω) (s : σ) : Prop :=
  ∃ a, (m.run env s).result = .ok a

/-- What always returns succeeds in any state. -/
theorem succeeds_of_returns {m : Eff ω ε σ α} {p : α → Prop} (h : Returns m p) (env : ℕ → ω)
    (s : σ) : Succeeds m env s := by
  obtain ⟨a, ha, _⟩ := h env s
  exact ⟨a, ha⟩

/-- What raises does not succeed. -/
theorem not_succeeds_of_error {m : Eff ω ε σ α} {env : ℕ → ω} {s : σ} {e : ε}
    (h : (m.run env s).result = .error e) : ¬ Succeeds m env s := by
  rintro ⟨a, ha⟩
  rw [h] at ha
  cases ha

/-- What runs after a computation that always returns decides nothing. -/
theorem succeeds_bind {m : Eff ω ε σ α} {f : α → Eff ω ε σ β} {p : α → β → Prop}
    (hf : ∀ a, Returns (f a) (p a)) (env : ℕ → ω) (s : σ) :
    Succeeds (m >>= f) env s ↔ Succeeds m env s := by
  cases h : (m.run env s).result with
  | error e =>
    have hbind : ((m >>= f).run env s).result = .error e := by rw [run_bind, h]
    exact iff_of_false (not_succeeds_of_error hbind) (not_succeeds_of_error h)
  | ok a =>
    obtain ⟨b, hb, _⟩ := hf a (later env (m.run env s).used) (m.run env s).state
    exact iff_of_true ⟨b, by rw [result_bind h, hb]⟩ ⟨a, h⟩

end Eff

end Effect
