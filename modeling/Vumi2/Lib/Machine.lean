import Mathlib.Data.Nat.Notation
import Mathlib.Data.Option.Basic
import Mathlib.Tactic.TypeStar

/-!
# Runs of a state machine

A machine is a function `step : σ → α → Option σ`: the state after an action, or `none` where the
action cannot be taken. A run is a list of actions; what several parties do in any order is a run of
one machine whose actions name the party.

`run_induction` is the induction rule: what holds at first, and is kept by every step whose action
meets the condition `ok` in the state in which it is taken, holds after every run whose actions all
meet it. The condition `fun _ _ => True` gives the rule for all runs (`run_invariant`).
-/

namespace Machine

variable {σ α : Type*} (step : σ → α → Option σ)

/-- The state after a list of actions, if each of them can be taken in its turn. -/
def run (s : σ) : List α → Option σ
  | [] => some s
  | a :: as => (step s a).bind fun s' => run s' as

/-- Every action of a run meets `ok` in the state in which it is taken. -/
def Meets (ok : σ → α → Prop) (s : σ) : List α → Prop
  | [] => True
  | a :: as => ok s a ∧ ∀ s', step s a = some s' → Meets ok s' as

instance decidableMeets {ok : σ → α → Prop} [∀ s a, Decidable (ok s a)] :
    ∀ (s : σ) (as : List α), Decidable (Meets step ok s as)
  | _, [] => .isTrue trivial
  | s, a :: as =>
    have : ∀ t, Decidable (Meets step ok t as) := fun t => decidableMeets t as
    inferInstanceAs (Decidable (ok s a ∧ ∀ t ∈ step s a, Meets step ok t as))

/-- A run of no actions stays where it is. -/
@[simp] theorem run_nil (s : σ) : run step s [] = some s := rfl

/-- A run takes its first action, and the others from there. -/
theorem run_cons {s s' : σ} {a : α} {as : List α} :
    run step s (a :: as) = some s' ↔ ∃ t, step s a = some t ∧ run step t as = some s' := by
  rw [run, Option.bind_eq_some_iff]

/-- A run of two parts passes through a state between them. -/
theorem run_append {s s' : σ} {as bs : List α} :
    run step s (as ++ bs) = some s' ↔ ∃ t, run step s as = some t ∧ run step t bs = some s' := by
  induction as generalizing s with
  | nil => simp
  | cons a as ih =>
    simp only [List.cons_append, run_cons, ih]
    constructor
    · rintro ⟨u, hu, t, ht, hs⟩
      exact ⟨t, ⟨u, hu, ht⟩, hs⟩
    · rintro ⟨t, ⟨u, hu, ht⟩, hs⟩
      exact ⟨u, hu, t, ht, hs⟩

/-- An action in order and the others in order after it are in order together. -/
theorem meets_cons {ok : σ → α → Prop} {s t : σ} {a : α} {as : List α} (ha : ok s a)
    (hstep : step s a = some t) (has : Meets step ok t as) : Meets step ok s (a :: as) := by
  refine ⟨ha, fun s' h => ?_⟩
  obtain rfl := Option.some.inj (hstep.symm.trans h)
  exact has

/-- A condition on the actions alone. -/
theorem meets_of_forall {ok : α → Prop} {s : σ} {as : List α} (h : ∀ a ∈ as, ok a) :
    Meets step (fun _ a => ok a) s as := by
  induction as generalizing s with
  | nil => trivial
  | cons a as ih =>
    obtain ⟨ha, has⟩ := List.forall_mem_cons.1 h
    exact ⟨ha, fun s' _ => ih has⟩

/-- What holds at first, and is kept by every step that meets `ok`, holds after a run that meets
it. -/
theorem run_induction {ok : σ → α → Prop} {Inv : σ → Prop}
    (hstep : ∀ s a s', Inv s → ok s a → step s a = some s' → Inv s') {s s' : σ} {as : List α}
    (h0 : Inv s) (hok : Meets step ok s as) (h : run step s as = some s') : Inv s' := by
  induction as generalizing s with
  | nil =>
    cases h
    exact h0
  | cons a as ih =>
    obtain ⟨t, ht, hrun⟩ := (run_cons step).1 h
    exact ih (hstep s a t h0 hok.1 ht) (hok.2 t ht) hrun

/-- What holds at first and is kept by every step holds after every run. -/
theorem run_invariant {Inv : σ → Prop} (hstep : ∀ s a s', Inv s → step s a = some s' → Inv s')
    {s s' : σ} {as : List α} (h0 : Inv s) (h : run step s as = some s') : Inv s' := by
  induction as generalizing s with
  | nil =>
    cases h
    exact h0
  | cons a as ih =>
    obtain ⟨t, ht, hrun⟩ := (run_cons step).1 h
    exact ih (hstep s a t h0 ht) hrun

/-- A run in which every step decreases `measure` is no longer than the measure at its start. -/
theorem run_length_le {measure : σ → ℕ} {Inv : σ → Prop} {ok : α → Prop}
    (hstep : ∀ s a s', Inv s → ok a → step s a = some s' → Inv s' ∧ measure s' < measure s)
    {s s' : σ} {as : List α} (h0 : Inv s) (hok : ∀ a ∈ as, ok a) (h : run step s as = some s') :
    as.length + measure s' ≤ measure s := by
  induction as generalizing s with
  | nil =>
    cases h
    simp
  | cons a as ih =>
    obtain ⟨t, ht, hrun⟩ := (run_cons step).1 h
    obtain ⟨hInv, hlt⟩ := hstep s a t h0 (hok a (by simp)) ht
    have := ih hInv (fun b hb => hok b (by simp [hb])) hrun
    simp only [List.length_cons]
    omega

end Machine
