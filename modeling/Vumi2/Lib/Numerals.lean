import Mathlib.Algebra.Group.Nat.Defs
import Vumi2.Lib.Text

/-!
# Numerals

Decimal numerals as Python writes and reads them: as many digits as the number has (`decimal`), or a
fixed number of digits (`padded`); and the four hexadecimal digits of an escape (`hex4`).
-/

namespace Text

/-- `[0-9]`. -/
def isDigit (c : CodePoint) : Bool := decide (48 ≤ c.val) && decide (c.val ≤ 57)

/-- A digit, hexadecimal from 10 on. -/
def digit (d : ℕ) : CodePoint := ofChar (Nat.digitChar d)

/-- `str(n)`. -/
def decimal (n : ℕ) : Str := (Nat.toDigits 10 n).map ofChar

/-- The last `width` digits of a number. -/
def padded : ℕ → ℕ → Str
  | 0, _ => []
  | width + 1, n => padded width (n / 10) ++ [digit (n % 10)]

/-- `int(ds)`, for digits. -/
def natOf (ds : Str) : ℕ := ds.foldl (fun n c => 10 * n + (c.val - 48)) 0

/-- `f"{n:04x}"`. -/
def hex4 (n : ℕ) : Str := [digit (n / 4096 % 16), digit (n / 256 % 16), digit (n / 16 % 16),
  digit (n % 16)]

/-- The value of a hexadecimal digit. -/
def hexValue (c : CodePoint) : Option ℕ :=
  if 48 ≤ c.val ∧ c.val ≤ 57 then some (c.val - 48)
  else if 97 ≤ c.val ∧ c.val ≤ 102 then some (c.val - 87)
  else if 65 ≤ c.val ∧ c.val ≤ 70 then some (c.val - 55)
  else none

/-- The value of four hexadecimal digits. -/
def hexValue4 (a b c d : CodePoint) : Option ℕ := do
  let a ← hexValue a
  let b ← hexValue b
  let c ← hexValue c
  let d ← hexValue d
  some (4096 * a + 256 * b + 16 * c + d)

/-- A decimal digit has its number from `0` on. -/
theorem digit_val {d : ℕ} (h : d < 10) : (digit d).val = 48 + d := by
  have hall : ∀ d < 10, (digit d).val = 48 + d := by decide
  exact hall d h

/-- A decimal digit is a digit. -/
theorem isDigit_digit {d : ℕ} (h : d < 10) : isDigit (digit d) = true := by
  unfold isDigit
  rw [digit_val h]
  simp
  omega

/-- A hexadecimal digit is read as its value. -/
theorem hexValue_digit {d : ℕ} (h : d < 16) : hexValue (digit d) = some d := by
  have hall : ∀ d < 16, hexValue (digit d) = some d := by decide
  exact hall d h

/-- Four hexadecimal digits are read as their number. -/
theorem hexValue4_hex4 {n : ℕ} (h : n < 65536) :
    hexValue4 (digit (n / 4096 % 16)) (digit (n / 256 % 16)) (digit (n / 16 % 16))
      (digit (n % 16)) = some n := by
  have hlt : ∀ m : ℕ, m % 16 < 16 := fun m => Nat.mod_lt m (by omega)
  have hsum : 4096 * (n / 4096 % 16) + 256 * (n / 256 % 16) + 16 * (n / 16 % 16) + n % 16 = n := by
    omega
  unfold hexValue4
  rw [hexValue_digit (hlt _), hexValue_digit (hlt _), hexValue_digit (hlt _),
    hexValue_digit (hlt _)]
  exact congrArg some hsum

/-- One more digit counts for ten times what was before. -/
theorem natOf_concat (ds : Str) (c : CodePoint) :
    natOf (ds ++ [c]) = 10 * natOf ds + (c.val - 48) := by
  unfold natOf
  rw [List.foldl_append]
  rfl

/-- A number is what its numeral reads as. -/
theorem natOf_decimal (n : ℕ) : natOf (decimal n) = n := by
  have hchars : natOf (decimal n) = Nat.ofDigitChars 10 (Nat.toDigits 10 n) 0 := by
    unfold natOf decimal
    rw [List.foldl_map, Nat.ofDigitChars_eq_foldl]
    rfl
  rw [hchars, Nat.ofDigitChars_ten_toDigits]

/-- A decimal has digits only. -/
theorem isDigit_of_mem_decimal {n : ℕ} {c : CodePoint} (h : c ∈ decimal n) : isDigit c = true := by
  obtain ⟨d, hd, rfl⟩ := List.mem_map.1 h
  have hdigit := Nat.isDigit_of_mem_toDigits (by omega) (by omega) hd
  have hval : (ofChar d).val = d.val.toNat := rfl
  have hbounds : 48 ≤ d.val.toNat ∧ d.val.toNat ≤ 57 := by
    simpa [Char.isDigit, UInt32.le_iff_toNat_le] using hdigit
  unfold isDigit
  rw [hval, decide_eq_true hbounds.1, decide_eq_true hbounds.2]
  rfl

/-- A decimal is not empty. -/
theorem decimal_ne_nil (n : ℕ) : decimal n ≠ [] := by
  unfold decimal
  simp [Nat.toDigits_ne_nil]

/-- The numeral of a number above zero does not start with a zero. -/
theorem head_toDigits (n : ℕ) (hn : 0 < n) : (Nat.toDigits 10 n).head? ≠ some '0' := by
  induction n using Nat.strong_induction_on with
  | _ n ih =>
    by_cases hlt : n < 10
    · have hall : ∀ d < 10, 0 < d → Nat.digitChar d ≠ '0' := by decide
      rw [Nat.toDigits_of_lt_base hlt]
      intro h
      exact hall n hlt hn (Option.some.inj h)
    · rw [Nat.toDigits_of_base_le (by omega) (by omega)]
      cases hdigits : Nat.toDigits 10 (n / 10) with
      | nil => exact absurd hdigits Nat.toDigits_ne_nil
      | cons c cs =>
        have hhead := ih (n / 10) (by omega) (by omega)
        rw [hdigits] at hhead
        exact hhead

/-- A numeral starts with a zero only if it is one. -/
theorem decimal_head {n : ℕ} {c : CodePoint} {ds : Str} (h : decimal n = c :: ds) :
    c = digit 0 → ds = [] := by
  intro hzero
  rcases Nat.eq_zero_or_pos n with rfl | hn
  · exact (List.cons.inj h).2.symm
  · unfold decimal at h
    have hhead := head_toDigits n hn
    cases hdigits : Nat.toDigits 10 n with
    | nil => exact absurd hdigits Nat.toDigits_ne_nil
    | cons d es =>
      rw [hdigits] at h hhead
      obtain ⟨hd, -⟩ := List.cons.inj h
      have hval : d.toNat = '0'.toNat := congrArg (fun c : CodePoint => c.val) (hd.trans hzero)
      exact absurd (congrArg some (Char.toNat_inj.1 hval)) hhead

/-- A padded number has its width. -/
theorem padded_length (width n : ℕ) : (padded width n).length = width := by
  induction width generalizing n with
  | zero => rfl
  | succ width ih =>
    unfold padded
    rw [List.length_append, ih, List.length_singleton]

/-- A padded number has digits only. -/
theorem isDigit_of_mem_padded {width n : ℕ} {c : CodePoint} (h : c ∈ padded width n) :
    isDigit c = true := by
  induction width generalizing n with
  | zero => cases h
  | succ width ih =>
    unfold padded at h
    rcases List.mem_append.1 h with h | h
    · exact ih h
    · obtain rfl := List.mem_singleton.1 h
      exact isDigit_digit (Nat.mod_lt _ (by omega))

/-- A padded numeral reads as what the width leaves of its number. -/
theorem natOf_padded_mod (width n : ℕ) : natOf (padded width n) = n % 10 ^ width := by
  induction width generalizing n with
  | zero => exact (Nat.mod_one n).symm
  | succ width ih =>
    have hdigit : (digit (n % 10)).val - 48 = n % 10 := by
      rw [digit_val (Nat.mod_lt _ (by omega))]
      omega
    unfold padded
    rw [natOf_concat, ih, hdigit, Nat.pow_succ', Nat.mod_mul]
    omega

/-- A number with no more digits than the width is what its padded numeral reads as. -/
theorem natOf_padded {width n : ℕ} (h : n < 10 ^ width) : natOf (padded width n) = n := by
  rw [natOf_padded_mod, Nat.mod_eq_of_lt h]

/-- The last digits of a padded numeral are those of the number, the first those of the quotient. -/
theorem padded_add (width k n : ℕ) :
    padded (width + k) n = padded width (n / 10 ^ k) ++ padded k n := by
  induction k generalizing n with
  | zero =>
    rw [Nat.pow_zero, Nat.div_one]
    exact (List.append_nil _).symm
  | succ k ih =>
    have hquotient : n / 10 / 10 ^ k = n / 10 ^ (k + 1) := by
      rw [Nat.div_div_eq_div_mul, Nat.pow_succ']
    calc padded (width + (k + 1)) n = padded (width + k) (n / 10) ++ [digit (n % 10)] := rfl
      _ = padded width (n / 10 ^ (k + 1)) ++ (padded k (n / 10) ++ [digit (n % 10)]) := by
        rw [ih, hquotient, List.append_assoc]
      _ = padded width (n / 10 ^ (k + 1)) ++ padded (k + 1) n := rfl

/-- The last digits are zeros only if the number is a multiple. -/
theorem mod_of_padded_eq_zeros {k n : ℕ} (h : padded k n = List.replicate k (ofChar '0')) :
    n % 10 ^ k = 0 := by
  have hzeros : ∀ k, natOf (List.replicate k (ofChar '0')) = 0 := by
    intro k
    induction k with
    | zero => rfl
    | succ k ih =>
      rw [List.replicate_succ', natOf_concat, ih]
      rfl
  rw [← natOf_padded_mod, h, hzeros]

end Text
