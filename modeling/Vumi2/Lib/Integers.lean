import Vumi2.Lib.JsonText
import Vumi2.Lib.TimeFormat

/-!
# Integers in texts

`int(text)`: white space around a sign and decimal digits, which single underscores may separate.
`intOfText_intText` is that it reads what `str` writes of an integer, up to the limit that both have
for the number of digits.
-/

namespace Text

open TimeFormat Json

/-- `text.strip()`. -/
def strip (s : Str) : Str := ((s.dropWhile anySpace).reverse.dropWhile anySpace).reverse

/-- The digits of a numeral, after a digit or not. An underscore stands between two digits. -/
def numeralDigits : Bool → Str → Option Str
  | after, [] => if after then some [] else none
  | after, c :: s =>
    if anyDigit c = true then (numeralDigits true s).map fun digits => c :: digits
    else if c = ofChar '_' ∧ after = true then numeralDigits false s
    else none

/-- The number of a numeral without a sign. -/
def naturalOf (s : Str) : Option ℤ :=
  (numeralDigits false s).bind fun digits =>
    if digits.length ≤ maxStrDigits then some (number digits : ℤ) else none

/-- The number of a numeral, which may have a sign. -/
def signedOf : Str → Option ℤ
  | [] => none
  | c :: s =>
    if c = ofChar '-' then (naturalOf s).map fun n => -n
    else if c = ofChar '+' then naturalOf s
    else naturalOf (c :: s)

/-- `int(text)`, where `none` is a `ValueError`. -/
def intOfText (s : Str) : Option ℤ := signedOf (strip s)

/-- A text without white space is not stripped. -/
theorem strip_of_forall {s : Str} (h : ∀ c ∈ s, anySpace c = false) : strip s = s := by
  have hdrop : ∀ t : Str, (∀ c ∈ t, anySpace c = false) → t.dropWhile anySpace = t := by
    intro t ht
    cases t with
    | nil => rfl
    | cons c t => exact List.dropWhile_cons_of_neg (by simp [ht c List.mem_cons_self])
  unfold strip
  rw [hdrop s h, hdrop s.reverse fun c hc => h c (List.mem_reverse.1 hc), List.reverse_reverse]

/-- Plain digits are a numeral. -/
theorem numeralDigits_of_isDigit {s : Str} (h : ∀ c ∈ s, isDigit c = true) :
    numeralDigits true s = some s := by
  induction s with
  | nil => rfl
  | cons c s ih =>
    have hc := anyDigit_of_isDigit (h c List.mem_cons_self)
    rw [numeralDigits, if_pos hc, ih fun d hd => h d (List.mem_cons_of_mem c hd)]
    rfl

/-- A decimal is read back, up to the number of digits that may be read. -/
theorem naturalOf_decimal (n : ℕ) : naturalOf (decimal n) =
    if (decimal n).length ≤ maxStrDigits then some (n : ℤ) else none := by
  have hdigits : ∀ c ∈ decimal n, isDigit c = true := fun c hc => isDigit_of_mem_decimal hc
  have hnumber : number (decimal n) = n := by rw [number_eq_natOf hdigits, natOf_decimal]
  have hnumeral : numeralDigits false (decimal n) = some (decimal n) := by
    cases hchars : decimal n with
    | nil => exact absurd hchars (decimal_ne_nil n)
    | cons c s =>
      rw [hchars] at hdigits
      have hc := anyDigit_of_isDigit (hdigits c List.mem_cons_self)
      rw [numeralDigits, if_pos hc,
        numeralDigits_of_isDigit fun d hd => hdigits d (List.mem_cons_of_mem c hd)]
      rfl
  unfold naturalOf
  rw [hnumeral, Option.bind_some, hnumber]

/-- A digit is neither a blank nor a sign. -/
theorem plain_of_isDigit {c : CodePoint} (h : isDigit c = true) :
    anySpace c = false ∧ c ≠ ofChar '-' ∧ c ≠ ofChar '+' := by
  have hbounds : 48 ≤ c.val ∧ c.val ≤ 57 := by
    unfold isDigit at h
    simpa using h
  refine ⟨?_, ?_, ?_⟩
  · unfold anySpace
    simp only [List.any_cons, List.any_nil, Bool.or_false, Bool.or_eq_false_iff,
      decide_eq_false_iff_not]
    omega
  · rintro rfl
    exact absurd hbounds (by decide)
  · rintro rfl
    exact absurd hbounds (by decide)

/-- An integer is read back from its text, unless it has too many digits. -/
theorem intOfText_intText (n : ℤ) : intOfText (intText n) =
    if (decimal n.natAbs).length ≤ maxStrDigits then some n else none := by
  have hplain : ∀ c ∈ decimal n.natAbs, anySpace c = false ∧ c ≠ ofChar '-' ∧ c ≠ ofChar '+' :=
    fun c hc => plain_of_isDigit (isDigit_of_mem_decimal hc)
  have hdash : anySpace (ofChar '-') = false := by decide
  -- The text has neither blanks nor underscores around its digits.
  have hstrip : strip (intText n) = intText n := by
    refine strip_of_forall fun c hc => ?_
    unfold intText at hc
    split_ifs at hc
    · rcases List.mem_cons.1 hc with rfl | hc
      · exact hdash
      · exact (hplain c hc).1
    · exact (hplain c hc).1
  unfold intOfText
  rw [hstrip]
  unfold intText
  by_cases hneg : n < 0
  · have hvalue : -(n.natAbs : ℤ) = n := by omega
    rw [if_pos hneg, signedOf, if_pos rfl, naturalOf_decimal, apply_ite (Option.map _)]
    rw [Option.map_some, Option.map_none, hvalue]
  · -- Without a sign, the first digit is not taken for one.
    have hvalue : (n.natAbs : ℤ) = n := by omega
    have hsigned : signedOf (decimal n.natAbs) = naturalOf (decimal n.natAbs) := by
      cases hchars : decimal n.natAbs with
      | nil => exact absurd hchars (decimal_ne_nil _)
      | cons c s =>
        obtain ⟨-, hminus, hplus⟩ := hplain c (hchars ▸ List.mem_cons_self)
        rw [signedOf, if_neg hminus, if_neg hplus]
    rw [if_neg hneg, hsigned, naturalOf_decimal, hvalue]

end Text
