import Vumi2.Lib.Effect

/-!
# Trying again

`tryEach attempt failed indices` makes one attempt for each index, until one returns. What an
attempt raises goes to `failed`: if that returns, the next index is tried, and if it raises, the
loop raises.

A run of such a loop is a number of failed attempts, and then what the next one comes to
(`run_tryEach_add`, `run_tryEach_ok`, `run_tryEach_raise`). The failed attempts are described by the
states before each of them (`FailsAt`).
-/

namespace Effect.Eff

variable {ω ε σ : Type}

/-- One attempt for each index until one returns, where `failed` gets what an attempt raises. -/
def tryEach (attempt : ℕ → Eff ω ε σ Unit) (failed : ℕ → ε → Eff ω ε σ Unit) :
    List ℕ → Eff ω ε σ Unit
  | [] => pure ()
  | i :: rest => do
    let outcome ← Eff.attempt (attempt i)
    match outcome with
    | .ok () => pure ()
    | .error e => do
      failed i e
      tryEach attempt failed rest

variable {attempt : ℕ → Eff ω ε σ Unit} {failed : ℕ → ε → Eff ω ε σ Unit} {env : ℕ → ω}

/-- Before the attempt `i`, `(before i).1` readings were taken and the state is `(before i).2`. The
attempt raises, `failed` returns, and the next attempt is made. -/
def FailsAt (attempt : ℕ → Eff ω ε σ Unit) (failed : ℕ → ε → Eff ω ε σ Unit) (env : ℕ → ω)
    (before : ℕ → ℕ × σ) (i : ℕ) : Prop :=
  ∃ e k l s, (attempt i).run (later env (before i).1) (before i).2 = ⟨.error e, k, s⟩ ∧
    (failed i e).run (later env ((before i).1 + k)) s = ⟨.ok (), l, (before (i + 1)).2⟩ ∧
    (before (i + 1)).1 = (before i).1 + (k + l)

/-- An attempt that returns ends the loop. -/
theorem run_tryEach_ok {i k : ℕ} {rest : List ℕ} {s s' : σ}
    (h : (attempt i).run env s = ⟨.ok (), k, s'⟩) :
    (tryEach attempt failed (i :: rest)).run env s = ⟨.ok (), k, s'⟩ := by
  have hattempt : (Eff.attempt (attempt i)).run env s = ⟨.ok (.ok ()), k, s'⟩ := by
    rw [run_attempt, h]
  rw [tryEach, run_bind_ok hattempt]
  rfl

/-- If `failed` raises, the loop raises. -/
theorem run_tryEach_raise {i k l : ℕ} {rest : List ℕ} {s s₁ s₂ : σ} {e e' : ε}
    (h : (attempt i).run env s = ⟨.error e, k, s₁⟩)
    (hfailed : (failed i e).run (later env k) s₁ = ⟨.error e', l, s₂⟩) :
    (tryEach attempt failed (i :: rest)).run env s = ⟨.error e', k + l, s₂⟩ := by
  have hattempt : (Eff.attempt (attempt i)).run env s = ⟨.ok (.error e), k, s₁⟩ := by
    rw [run_attempt, h]
  rw [tryEach, run_bind_ok hattempt]
  dsimp only
  rw [run_bind_error hfailed]

/-- A failed attempt, and the loop goes on with the other indices. -/
theorem run_tryEach_failsAt {before : ℕ → ℕ × σ} {i : ℕ} {rest : List ℕ}
    (h : FailsAt attempt failed env before i) :
    (tryEach attempt failed (i :: rest)).run (later env (before i).1) (before i).2 =
      ⟨((tryEach attempt failed rest).run (later env (before (i + 1)).1)
          (before (i + 1)).2).result,
        (before (i + 1)).1 - (before i).1 +
          ((tryEach attempt failed rest).run (later env (before (i + 1)).1)
            (before (i + 1)).2).used,
        ((tryEach attempt failed rest).run (later env (before (i + 1)).1)
          (before (i + 1)).2).state⟩ := by
  obtain ⟨e, k, l, s, hraise, hfailed, hreadings⟩ := h
  have hattempt : (Eff.attempt (attempt i)).run (later env (before i).1) (before i).2 =
      ⟨.ok (.error e), k, s⟩ := by
    rw [run_attempt, hraise]
  rw [← later_later] at hfailed
  have hnext : later (later (later env (before i).1) k) l = later env (before (i + 1)).1 := by
    rw [later_later, later_later, hreadings]
  have hused : (before (i + 1)).1 - (before i).1 = k + l := by omega
  rw [tryEach, run_bind_ok hattempt]
  dsimp only
  rw [run_bind_ok hfailed, hnext, hused, Nat.add_assoc]

/-- After `k` failed attempts the loop goes on with the attempts that are left. -/
theorem run_tryEach_add {before : ℕ → ℕ × σ} (k i n : ℕ)
    (h : ∀ j < k, FailsAt attempt failed env before (i + j)) :
    ∃ used, (tryEach attempt failed (List.range' i (k + n))).run (later env (before i).1)
        (before i).2 =
      ⟨((tryEach attempt failed (List.range' (i + k) n)).run (later env (before (i + k)).1)
          (before (i + k)).2).result,
        used,
        ((tryEach attempt failed (List.range' (i + k) n)).run (later env (before (i + k)).1)
          (before (i + k)).2).state⟩ := by
  -- The first attempt is taken off the range, and the hypothesis is moved by one.
  induction k generalizing i with
  | zero =>
    rw [Nat.zero_add, Nat.add_zero]
    exact ⟨_, rfl⟩
  | succ k ih =>
    have hrange : List.range' i (k + 1 + n) = i :: List.range' (i + 1) (k + n) := by
      rw [Nat.add_right_comm, List.range'_succ]
    have hshift : i + (k + 1) = i + 1 + k := by omega
    have hrest : ∀ j < k, FailsAt attempt failed env before (i + 1 + j) := by
      intro j hj
      have hindex : i + 1 + j = i + (j + 1) := by omega
      rw [hindex]
      exact h (j + 1) (by omega)
    have hfirst : FailsAt attempt failed env before i := h 0 (Nat.succ_pos k)
    obtain ⟨used, hused⟩ := ih (i + 1) hrest
    rw [hrange, hshift, run_tryEach_failsAt hfirst, hused]
    exact ⟨_, rfl⟩

end Effect.Eff
