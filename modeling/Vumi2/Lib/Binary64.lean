import Mathlib.Data.Int.Log
import Mathlib.Data.Rat.Floor
import Mathlib.Tactic.Linarith

/-!
# Rounding to binary64

`round` takes a number to the nearest float of 53 bits, and to the even one of two that are equally
near. The floats around a number are the multiples of its `quantum`, which grows with the number and
is `2^-1074` at least. Rounding keeps the order (`round_mono`). The range has no upper end here.
-/

namespace Binary64

/-- The nearest integer; of two, the even one. -/
def roundEven (x : ℚ) : ℤ :=
  if Int.fract x < 1 / 2 then ⌊x⌋
  else if 1 / 2 < Int.fract x then ⌊x⌋ + 1
  else ⌊x⌋ + ⌊x⌋ % 2

/-- The distance of the floats around a positive number. -/
def quantum (x : ℚ) : ℚ := 2 ^ max (Int.log 2 x - 52) (-1074)

/-- Rounding where there is no sign. -/
def roundAbs (x : ℚ) : ℚ := quantum x * roundEven (x / quantum x)

/-- The float that a number is rounded to. -/
def round (x : ℚ) : ℚ := if x < 0 then -roundAbs (-x) else roundAbs x

/-- The nearest integer is not below the next one below. -/
theorem floor_le_roundEven (x : ℚ) : ⌊x⌋ ≤ roundEven x := by
  unfold roundEven
  split_ifs <;> omega

/-- It is not above the next one above. -/
theorem roundEven_le_floor (x : ℚ) : roundEven x ≤ ⌊x⌋ + 1 := by
  unfold roundEven
  split_ifs <;> omega

/-- An integer is the nearest to itself. -/
theorem roundEven_intCast (n : ℤ) : roundEven (n : ℚ) = n := by
  unfold roundEven
  rw [Int.fract_intCast, if_pos (by norm_num), Int.floor_intCast]

/-- The nearest integers are in the order of the numbers. -/
theorem roundEven_mono {x y : ℚ} (h : x ≤ y) : roundEven x ≤ roundEven y := by
  have hfloor : ⌊x⌋ ≤ ⌊y⌋ := Int.floor_mono h
  obtain hlt | heq := lt_or_eq_of_le hfloor
  · calc roundEven x ≤ ⌊x⌋ + 1 := roundEven_le_floor x
      _ ≤ ⌊y⌋ := hlt
      _ ≤ roundEven y := floor_le_roundEven y
  · -- Between the same two integers the fraction decides.
    have hfract : Int.fract x ≤ Int.fract y := by
      rw [Int.fract, Int.fract, heq]
      linarith
    unfold roundEven
    rw [heq]
    split_ifs <;> first | omega | (exfalso; linarith)

/-- The floats have a distance. -/
theorem quantum_pos (x : ℚ) : 0 < quantum x := by
  unfold quantum
  exact zpow_pos two_pos _

/-- A multiple of the quantum is rounded down to, if it is not above. -/
theorem le_roundAbs {x : ℚ} {n : ℤ} (h : quantum x * n ≤ x) : quantum x * n ≤ roundAbs x := by
  have hpos := quantum_pos x
  have hdiv : (n : ℚ) ≤ x / quantum x := by
    rw [le_div_iff₀ hpos, mul_comm]
    exact h
  have hround : n ≤ roundEven (x / quantum x) := by
    rw [← roundEven_intCast n]
    exact roundEven_mono hdiv
  exact mul_le_mul_of_nonneg_left (Int.cast_le.2 hround) hpos.le

/-- A multiple of the quantum is rounded up to, if it is not below. -/
theorem roundAbs_le {x : ℚ} {n : ℤ} (h : x ≤ quantum x * n) : roundAbs x ≤ quantum x * n := by
  have hpos := quantum_pos x
  have hdiv : x / quantum x ≤ n := by
    rw [div_le_iff₀ hpos, mul_comm]
    exact h
  have hround : roundEven (x / quantum x) ≤ n := by
    rw [← roundEven_intCast n]
    exact roundEven_mono hdiv
  exact mul_le_mul_of_nonneg_left (Int.cast_le.2 hround) hpos.le

/-- A power of two that is no smaller than the quantum is a multiple of it. -/
theorem exists_quantum_mul {x : ℚ} {e : ℤ} (h : max (Int.log 2 x - 52) (-1074) ≤ e) :
    ∃ n : ℤ, quantum x * n = 2 ^ e := by
  obtain ⟨k, hk⟩ := Int.eq_ofNat_of_zero_le (sub_nonneg.2 h)
  refine ⟨2 ^ k, ?_⟩
  have he : e = max (Int.log 2 x - 52) (-1074) + k := by omega
  unfold quantum
  rw [he, zpow_add₀ two_ne_zero, zpow_natCast]
  push_cast
  rfl

/-- Rounding keeps the order of what is positive. -/
theorem roundAbs_mono {x y : ℚ} (hx : 0 < x) (h : x ≤ y) : roundAbs x ≤ roundAbs y := by
  have hy : 0 < y := hx.trans_le h
  have hlog : Int.log 2 x ≤ Int.log 2 y := Int.log_mono_right hx h
  by_cases hquantum : quantum x = quantum y
  · unfold roundAbs
    rw [hquantum]
    have hpos := quantum_pos y
    have hround := roundEven_mono (div_le_div_of_nonneg_right h hpos.le)
    exact mul_le_mul_of_nonneg_left (Int.cast_le.2 hround) hpos.le
  · -- There is a power of two between them, which is a float on either side.
    have hexponent : max (Int.log 2 x - 52) (-1074) ≠ max (Int.log 2 y - 52) (-1074) := by
      intro heq
      exact hquantum (by rw [quantum, quantum, heq])
    obtain ⟨m, hm⟩ := exists_quantum_mul (x := x) (e := Int.log 2 y) (by omega)
    obtain ⟨n, hn⟩ := exists_quantum_mul (x := y) (e := Int.log 2 y) (by omega)
    have hbelow : x ≤ 2 ^ Int.log 2 y := by
      have hlt : x < (2 : ℚ) ^ (Int.log 2 x + 1) := by
        exact_mod_cast Int.lt_zpow_succ_log_self (b := 2) one_lt_two x
      have hpow : (2 : ℚ) ^ (Int.log 2 x + 1) ≤ 2 ^ Int.log 2 y :=
        zpow_le_zpow_right₀ one_le_two (by omega)
      exact hlt.le.trans hpow
    have habove : (2 : ℚ) ^ Int.log 2 y ≤ y := by
      exact_mod_cast Int.zpow_log_le_self (b := 2) one_lt_two hy
    calc roundAbs x ≤ quantum x * m := roundAbs_le (by rw [hm]; exact hbelow)
      _ = quantum y * n := by rw [hm, hn]
      _ ≤ roundAbs y := le_roundAbs (by rw [hn]; exact habove)

/-- Zero is a float. -/
theorem roundAbs_zero : roundAbs 0 = 0 := by
  unfold roundAbs
  rw [zero_div, ← Int.cast_zero, roundEven_intCast, Int.cast_zero, mul_zero]

/-- What is positive is not rounded below zero. -/
theorem roundAbs_nonneg {x : ℚ} (h : 0 ≤ x) : 0 ≤ roundAbs x := by
  have hzero : quantum x * (0 : ℤ) = 0 := by rw [Int.cast_zero, mul_zero]
  calc (0 : ℚ) = quantum x * (0 : ℤ) := hzero.symm
    _ ≤ roundAbs x := le_roundAbs (by rw [hzero]; exact h)

/-- Zero is a float. -/
@[simp] theorem round_zero : round 0 = 0 := by
  unfold round
  rw [if_neg (lt_irrefl 0), roundAbs_zero]

/-- Rounding keeps the sign. -/
theorem round_nonneg {x : ℚ} (h : 0 ≤ x) : 0 ≤ round x := by
  unfold round
  rw [if_neg (not_lt.2 h)]
  exact roundAbs_nonneg h

/-- Rounding keeps the order. -/
theorem round_mono {x y : ℚ} (h : x ≤ y) : round x ≤ round y := by
  obtain hy | hy := lt_or_ge y 0
  · unfold round
    rw [if_pos hy, if_pos (h.trans_lt hy)]
    exact neg_le_neg (roundAbs_mono (neg_pos.2 hy) (neg_le_neg h))
  · obtain hx | hx := lt_or_ge x 0
    · have hround : round x ≤ 0 := by
        unfold round
        rw [if_pos hx]
        exact neg_nonpos.2 (roundAbs_nonneg (neg_nonneg.2 hx.le))
      exact hround.trans (round_nonneg hy)
    · obtain hlt | rfl := lt_or_eq_of_le hx
      · unfold round
        rw [if_neg (not_lt.2 hy), if_neg (not_lt.2 hx)]
        exact roundAbs_mono hlt h
      · rw [round_zero]
        exact round_nonneg hy

-- Between the floats at 0.1 and 1.1 there is a second, as far as a float can tell.
example : round (4953959590107546 / 2 ^ 52 - 7205759403792794 / 2 ^ 56) = 1 := by decide +kernel

end Binary64
