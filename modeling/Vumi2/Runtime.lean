import Mathlib.Algebra.Order.Ring.Rat
import Mathlib.Order.Basic
import Vumi2.Lib.Effect
import Vumi2.Lib.Text

/-!
# What the Python program runs on

A method of the program is an `Eff` over `Reading`s of its environment. The exceptions are those
that the modelled code raises or lets through; which one it is matters only where a handler
distinguishes them.
-/

namespace Vumi2

open Effect Text

/-- The exceptions. -/
inductive PyExc where
  | unicodeEncodeError
  | unicodeDecodeError
  | stopIteration
  | runtimeError
  | keyError
  | valueError
  | typeError
  | attributeError
  | jsonDecodeError (text : Str)
  | zeroDivisionError
  | unboundLocalError
  | vumiCodecException
  | esmeResponseStatusError
  /-- A `ClassValidationError` of cattrs. -/
  | classValidationError
  /-- A `ForbiddenExtraKeysError` of cattrs. -/
  | forbiddenExtraKeysError (extra_fields : List Str)
  /-- An `ApiError`: the class, and what it was raised with. -/
  | apiError (name : String) (args : List Str)
  /-- `trio.TooSlowError`. -/
  | tooSlowError
  /-- An exception of a library: the class, and what it was raised with. -/
  | external (name : String) (args : List Str)
deriving DecidableEq, Repr

/-- What leaves a coroutine: a `StopIteration` becomes a `RuntimeError`. -/
def fromCoroutine {α : Type} : Except PyExc α → Except PyExc α
  | .error .stopIteration => .error .runtimeError
  | result => result

/-- What a coroutine returns is returned. -/
@[simp] theorem fromCoroutine_ok {α : Type} (a : α) :
    fromCoroutine (.ok a : Except PyExc α) = .ok a := rfl

/-- A coroutine raises if its body does. -/
theorem fromCoroutine_error {α : Type} (e : PyExc) :
    ∃ e', fromCoroutine (.error e : Except PyExc α) = .error e' := by
  cases e with
  | stopIteration => exact ⟨.runtimeError, rfl⟩
  | _ => exact ⟨_, rfl⟩

/-- A coroutine returns what its body does. -/
theorem fromCoroutine_eq_ok {α : Type} {result : Except PyExc α} {a : α} :
    fromCoroutine result = .ok a ↔ result = .ok a := by
  cases result with
  | ok b => exact Iff.rfl
  | error e =>
    obtain ⟨e', he⟩ := fromCoroutine_error (α := α) e
    rw [he]
    exact iff_of_false nofun nofun

/-- The microseconds from `datetime.min` to `datetime.max`. -/
def maxMicros : ℕ := 315537897600000000

/-- A `datetime` in UTC, as the microseconds since the start of the year 1. -/
structure DateTime where
  micros : ℕ
  valid : micros < maxMicros
deriving DecidableEq

/-- `datetime.min`. -/
def DateTime.min : DateTime := ⟨0, by decide⟩

/-- The order of time. -/
instance : LinearOrder DateTime :=
  LinearOrder.lift' DateTime.micros fun a b h => by
    cases a; cases b; simpa using h

/-- `datetime.timestamp()`, in whole seconds since 1970, rounded towards zero. -/
def DateTime.timestamp (d : DateTime) : ℤ := ((d.micros : ℤ) - 62135596800000000).tdiv 1000000

/-- What the environment holds at one moment. -/
structure Reading where
  /-- `trio.current_time()`. -/
  time : ℚ
  /-- `uuid4().hex`. -/
  uuid : Str
  /-- `datetime.now(tz=UTC)`. -/
  utcnow : DateTime

/-- A method of an object with the state `σ`. -/
abbrev Py (σ α : Type) : Type := Eff Reading PyExc σ α

/-- What follows a value is run on it. -/
@[simp] theorem ok_bind {α β : Type} (a : α) (f : α → Except PyExc β) :
    ((.ok a : Except PyExc α) >>= f) = f a := rfl

/-- What follows an exception is not run. -/
@[simp] theorem error_bind {α β : Type} (e : PyExc) (f : α → Except PyExc β) :
    ((.error e : Except PyExc α) >>= f) = .error e := rfl

/-- A bind that returns is two steps that return. -/
theorem bind_eq_ok {ε α β : Type} {x : Except ε α} {f : α → Except ε β} {b : β} :
    (x >>= f) = .ok b ↔ ∃ a, x = .ok a ∧ f a = .ok b := by
  constructor
  · intro h
    cases x with
    | error e => cases h
    | ok a => exact ⟨a, rfl, h⟩
  · rintro ⟨a, rfl, h⟩
    exact h

/-- The clock never goes back. -/
def Clocked (env : ℕ → Reading) : Prop := Monotone fun i => (env i).time

/-- A clock that runs forward does so from any reading on. -/
theorem Clocked.later {env : ℕ → Reading} (h : Clocked env) (k : ℕ) :
    Clocked (Effect.later env k) := fun _ _ hij => h (Nat.add_le_add_left hij k)

end Vumi2
