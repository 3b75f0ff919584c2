import Mathlib.Data.Nat.Notation
import Mathlib.Tactic.SplitIfs

/-!
# The proleptic Gregorian calendar

Dates and the days since 1 January of the year 1. A cycle of 400 years has 146097 days; in it, all
centuries but the last have 36524, and so on down to the year. `ofDate_toDate` is the round trip
from a day to its date and back.
-/

namespace Calendar

/-- A year of 366 days. -/
def isLeap (year : ℕ) : Bool :=
  decide (year % 4 = 0) && (decide (year % 100 ≠ 0) || decide (year % 400 = 0))

/-- The days before 1 January of a year. -/
def daysBeforeYear (year : ℕ) : ℕ :=
  (year - 1) * 365 + (year - 1) / 4 - (year - 1) / 100 + (year - 1) / 400

/-- The days of the months. -/
def monthLengths (leap : Bool) : List ℕ :=
  [31, if leap = true then 29 else 28, 31, 30, 31, 30, 31, 31, 30, 31, 30, 31]

/-- How many of some stretches are complete after a number of days, and the days of the next. -/
def locate : List ℕ → ℕ → ℕ × ℕ
  | [], n => (0, n)
  | l :: ls, n => if n < l then (0, n) else ((locate ls (n - l)).1 + 1, (locate ls (n - l)).2)

/-- The days of the first stretches. -/
def daysBefore : List ℕ → ℕ → ℕ
  | _, 0 => 0
  | [], _ + 1 => 0
  | l :: ls, k + 1 => l + daysBefore ls k

/-- A date. -/
structure Date where
  year : ℕ
  month : ℕ
  day : ℕ
deriving DecidableEq

/-- The year of a day, and the day of the year. The last day of a leap year is the fifth of its
four times 365 days, and the one of a cycle is in its fifth century. -/
def yearOf (n : ℕ) : ℕ × ℕ :=
  let year := 400 * (n / 146097) + 100 * (n % 146097 / 36524) +
    4 * (n % 146097 % 36524 / 1461) + n % 146097 % 36524 % 1461 / 365
  if n % 146097 / 36524 = 4 ∨ n % 146097 % 36524 % 1461 / 365 = 4 then (year, 365)
  else (year + 1, n % 146097 % 36524 % 1461 % 365)

/-- The date of a day. -/
def toDate (n : ℕ) : Date :=
  let p := yearOf n
  let q := locate (monthLengths (isLeap p.1)) p.2
  ⟨p.1, q.1 + 1, q.2 + 1⟩

/-- A month of a year, and a day of the month. -/
def Date.isValid (d : Date) : Bool :=
  decide (1 ≤ d.year) && decide (1 ≤ d.month) && decide (1 ≤ d.day) &&
    match (monthLengths (isLeap d.year))[d.month - 1]? with
    | some l => decide (d.day ≤ l)
    | none => false

/-- The day of a date. -/
def ofDate (d : Date) : ℕ :=
  daysBeforeYear d.year + daysBefore (monthLengths (isLeap d.year)) (d.month - 1) + (d.day - 1)

/-- What the parts of a day in its cycle are. -/
theorem yearOf_parts (n : ℕ) : ∃ a b c d e : ℕ,
    n = 146097 * a + 36524 * b + 1461 * c + 365 * d + e ∧
    b ≤ 4 ∧ c ≤ 24 ∧ d ≤ 4 ∧ e < 365 ∧ (b = 4 → c = 0 ∧ d = 0 ∧ e = 0) ∧
    (d = 4 → c < 24 ∧ e = 0) ∧
    yearOf n = if b = 4 ∨ d = 4 then (400 * a + 100 * b + 4 * c + d, 365)
      else (400 * a + 100 * b + 4 * c + d + 1, e) := by
  refine ⟨n / 146097, n % 146097 / 36524, n % 146097 % 36524 / 1461,
    n % 146097 % 36524 % 1461 / 365, n % 146097 % 36524 % 1461 % 365, ?_, ?_, ?_, ?_,
    ?_, ?_, ?_, rfl⟩
  all_goals omega

/-- The year starts as many days before, and is long enough. -/
theorem yearOf_spec (n : ℕ) : 1 ≤ (yearOf n).1 ∧ daysBeforeYear (yearOf n).1 + (yearOf n).2 = n ∧
    (yearOf n).2 < 365 + if isLeap (yearOf n).1 = true then 1 else 0 := by
  obtain ⟨a, b, c, d, e, hn, hb, hc, hd, he, hcentury, hyear, hyearOf⟩ := yearOf_parts n
  rw [hyearOf]
  split_ifs with hlast hleap hleap
  · refine ⟨by dsimp only; omega, ?_, by dsimp only; omega⟩
    unfold daysBeforeYear
    dsimp only
    omega
  · -- The last day of a year that has 366.
    exfalso
    apply hleap
    unfold isLeap
    simp
    omega
  · refine ⟨by dsimp only; omega, ?_, by dsimp only; omega⟩
    unfold daysBeforeYear
    dsimp only
    omega
  · refine ⟨by dsimp only; omega, ?_, by dsimp only; omega⟩
    unfold daysBeforeYear
    dsimp only
    omega

/-- What is located lies in one of the stretches. -/
theorem locate_spec (ls : List ℕ) (n : ℕ) (h : n < daysBefore ls ls.length) :
    daysBefore ls (locate ls n).1 + (locate ls n).2 = n ∧
      ∃ l, ls[(locate ls n).1]? = some l ∧ (locate ls n).2 < l := by
  induction ls generalizing n with
  | nil => cases h
  | cons l ls ih =>
    unfold locate
    split_ifs with hlt
    · exact ⟨by rw [daysBefore, Nat.zero_add], l, rfl, hlt⟩
    · rw [List.length_cons, daysBefore] at h
      obtain ⟨hsum, m, hm, hday⟩ := ih (n - l) (by omega)
      refine ⟨?_, m, hm, hday⟩
      dsimp only
      rw [daysBefore]
      omega

/-- The months of a year have all its days. -/
theorem daysBefore_monthLengths (leap : Bool) :
    daysBefore (monthLengths leap) (monthLengths leap).length =
      365 + if leap = true then 1 else 0 := by
  cases leap with
  | true => rfl
  | false => rfl

/-- The month and the day of a date stand for the day of the year. -/
theorem locate_month (n : ℕ) :
    daysBefore (monthLengths (isLeap (yearOf n).1)) ((toDate n).month - 1) + ((toDate n).day - 1) =
        (yearOf n).2 ∧
      ∃ l, (monthLengths (isLeap (yearOf n).1))[(toDate n).month - 1]? = some l ∧
        (toDate n).day ≤ l := by
  obtain ⟨-, -, hlt⟩ := yearOf_spec n
  rw [← daysBefore_monthLengths] at hlt
  exact locate_spec _ _ hlt

/-- A day has a date. -/
theorem isValid_toDate (n : ℕ) : (toDate n).isValid = true := by
  obtain ⟨hyear, -, -⟩ := yearOf_spec n
  obtain ⟨-, l, hl, hday⟩ := locate_month n
  have hmonth : 1 ≤ (toDate n).month := Nat.le_add_left _ _
  have hone : 1 ≤ (toDate n).day := Nat.le_add_left _ _
  have hfirst : 1 ≤ (toDate n).year := hyear
  have hlengths : (monthLengths (isLeap (toDate n).year))[(toDate n).month - 1]? = some l := hl
  unfold Date.isValid
  rw [hlengths]
  simp [hfirst, hmonth, hone, hday]

/-- The day of the date of a day is the day. -/
theorem ofDate_toDate (n : ℕ) : ofDate (toDate n) = n := by
  obtain ⟨-, hyear, -⟩ := yearOf_spec n
  obtain ⟨hmonth, -⟩ := locate_month n
  calc ofDate (toDate n)
      _ = daysBeforeYear (yearOf n).1 +
          (daysBefore (monthLengths (isLeap (yearOf n).1)) ((toDate n).month - 1) +
            ((toDate n).day - 1)) := Nat.add_assoc _ _ _
      _ = daysBeforeYear (yearOf n).1 + (yearOf n).2 := by rw [hmonth]
      _ = n := hyear

/-- The parts of a valid date. -/
theorem Date.le_of_isValid {d : Date} (h : d.isValid = true) :
    1 ≤ d.month ∧ d.month ≤ 12 ∧ 1 ≤ d.day ∧ d.day ≤ 31 := by
  have hlengths :
      ∀ (leap : Bool) (i : ℕ), i < 12 → (monthLengths leap)[i]?.all (fun l => l ≤ 31) := by
    decide
  unfold Date.isValid at h
  simp only [Bool.and_eq_true, decide_eq_true_eq] at h
  obtain ⟨⟨⟨-, hmonth⟩, hday⟩, hmatch⟩ := h
  cases hl : (monthLengths (isLeap d.year))[d.month - 1]? with
  | none =>
    rw [hl] at hmatch
    cases hmatch
  | some l =>
    rw [hl] at hmatch
    have hlt : d.month - 1 < 12 := (List.getElem?_eq_some_iff.1 hl).1
    have hle := hlengths (isLeap d.year) (d.month - 1) hlt
    rw [hl] at hle
    have hlast : d.day ≤ l := of_decide_eq_true hmatch
    have hmax : l ≤ 31 := of_decide_eq_true hle
    exact ⟨hmonth, by omega, hday, by omega⟩

/-- The days up to the end of the year 9999. -/
theorem year_lt {n : ℕ} (h : n < 3652059) : (toDate n).year < 10000 := by
  obtain ⟨hone, hyear, hlt⟩ := yearOf_spec n
  have heq : (toDate n).year = (yearOf n).1 := rfl
  rw [heq]
  unfold daysBeforeYear at hyear
  omega

end Calendar
