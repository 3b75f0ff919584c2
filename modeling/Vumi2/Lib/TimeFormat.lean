import Vumi2.Lib.Calendar
import Vumi2.Lib.Numerals

/-!
# Formats of times

`strftime` and `strptime` for the numeric directives, as Python's `time` documents them. `strptime`
reads a text by the regular expression of its format: each directive has its alternatives, which are
tried in order, and a directive is given up for its next alternative if the directives behind it do
not match. It takes any decimal digits where the expression has `\d`, and more texts than `strftime`
writes: a month of one digit, a fraction of less than six.

`matchFormat_strftime_append` is the round trip, from the year 1000 on: `strftime` does not pad a
year.
-/

open Text Calendar

namespace TimeFormat

/-- A broken-down time. -/
structure Fields where
  date : Date
  hour : ℕ
  minute : ℕ
  second : ℕ
  micro : ℕ
deriving DecidableEq

/-- What a format is made of. -/
inductive Directive where
  | year
  | month
  | day
  | hour
  | minute
  | second
  | micro
  | literal (c : CodePoint)
  | space

/-! ## Writing -/

/-- What a directive is replaced by. -/
def Directive.render (t : Fields) : Directive → Str
  | year => decimal t.date.year
  | month => padded 2 t.date.month
  | day => padded 2 t.date.day
  | hour => padded 2 t.hour
  | minute => padded 2 t.minute
  | second => padded 2 t.second
  | micro => padded 6 t.micro
  | literal c => [c]
  | space => [ofChar ' ']

/-- `t.strftime(format)`. -/
def strftime (format : List Directive) (t : Fields) : Str := format.flatMap (Directive.render t)

/-! ## Reading -/

/-- The zeros of the decimal digits of Unicode. -/
def zeros : List ℕ :=
  [0x30, 0x660, 0x6f0, 0x7c0, 0x966, 0x9e6, 0xa66, 0xae6, 0xb66, 0xbe6, 0xc66, 0xce6, 0xd66, 0xde6,
    0xe50, 0xed0, 0xf20, 0x1040, 0x1090, 0x17e0, 0x1810, 0x1946, 0x19d0, 0x1a80, 0x1a90, 0x1b50,
    0x1bb0, 0x1c40, 0x1c50, 0xa620, 0xa8d0, 0xa900, 0xa9d0, 0xa9f0, 0xaa50, 0xabf0, 0xff10, 0x104a0,
    0x10d30, 0x11066, 0x110f0, 0x11136, 0x111d0, 0x112f0, 0x11450, 0x114d0, 0x11650, 0x116c0,
    0x11730, 0x118e0, 0x11950, 0x11c50, 0x11d50, 0x11da0, 0x16a60, 0x16ac0, 0x16b50, 0x1d7ce,
    0x1d7d8, 0x1d7e2, 0x1d7ec, 0x1d7f6, 0x1e140, 0x1e2f0, 0x1e950, 0x1fbf0]

/-- The value of a decimal digit. -/
def digitValue (c : CodePoint) : Option ℕ :=
  (zeros.find? fun z => decide (z ≤ c.val) && decide (c.val < z + 10)).map fun z => c.val - z

/-- `\d`. -/
def anyDigit (c : CodePoint) : Bool := (digitValue c).isSome

/-- White space, as `\s`. -/
def anySpace (c : CodePoint) : Bool :=
  [0x9, 0xa, 0xb, 0xc, 0xd, 0x1c, 0x1d, 0x1e, 0x1f, 0x20, 0x85, 0xa0, 0x1680, 0x2000, 0x2001,
    0x2002, 0x2003, 0x2004, 0x2005, 0x2006, 0x2007, 0x2008, 0x2009, 0x200a, 0x2028, 0x2029, 0x202f,
    0x205f, 0x3000].any fun s => decide (c.val = s)

/-- `[a-b]`. -/
def range (a b : Char) (c : CodePoint) : Bool :=
  decide (a.toNat ≤ c.val) && decide (c.val ≤ b.toNat)

/-- `int(text)`. -/
def number (text : Str) : ℕ :=
  text.foldl (fun n c => match digitValue c with
    | some d => 10 * n + d
    | none => n) 0

/-- The start of a text has these classes of characters. -/
def fits : List (CodePoint → Bool) → Str → Bool
  | [], _ => true
  | _ :: _, [] => false
  | p :: ps, c :: s => p c && fits ps s

/-- The alternatives of the expression of a directive, in order. -/
def Directive.alternatives : Directive → Str → List (List (CodePoint → Bool))
  | year, _ => [List.replicate 4 anyDigit]
  | month, _ => [[range '1' '1', range '0' '2'], [range '0' '0', range '1' '9'], [range '1' '9']]
  | day, _ =>
    [[range '3' '3', range '0' '1'], [range '1' '2', anyDigit], [range '0' '0', range '1' '9'],
      [range '1' '9'], [range ' ' ' ', range '1' '9']]
  | hour, _ => [[range '2' '2', range '0' '3'], [range '0' '1', anyDigit], [anyDigit]]
  | minute, _ => [[range '0' '5', anyDigit], [anyDigit]]
  | second, _ => [[range '6' '6', range '0' '1'], [range '0' '5', anyDigit], [anyDigit]]
  | micro, _ => [6, 5, 4, 3, 2, 1].map fun n => List.replicate n (range '0' '9')
  | literal c, _ => [[fun d => decide (d = c)]]
  | space, s => (List.range s.length).reverse.map fun n => List.replicate (n + 1) anySpace

/-- How much of a text a directive can match, in the order in which it is tried. -/
def Directive.lengths (d : Directive) (s : Str) : List ℕ :=
  ((d.alternatives s).filter fun ps => fits ps s).map List.length

/-- Matches at the start of a text: what each directive has matched, and the rest. -/
def matchFormat : List Directive → Str → Option (List Str × Str)
  | [], s => some ([], s)
  | d :: format, s => (d.lengths s).findSome? fun n =>
      (matchFormat format (s.drop n)).map fun p => (s.take n :: p.1, p.2)

/-- What a directive says of a time. -/
def Directive.apply (text : Str) (t : Fields) : Directive → Fields
  | year => { t with date := { t.date with year := number text } }
  | month => { t with date := { t.date with month := number text } }
  | day => { t with date := { t.date with day := number text } }
  | hour => { t with hour := number text }
  | minute => { t with minute := number text }
  | second => { t with second := number text }
  | micro => { t with micro := number text * 10 ^ (6 - text.length) }
  | literal _ => t
  | space => t

/-- A time that `datetime` accepts. -/
def Fields.isValid (t : Fields) : Bool :=
  t.date.isValid && decide (t.date.year < 10000) &&
    decide (t.hour < 24) && decide (t.minute < 60) &&
    decide (t.second < 60) && decide (t.micro < 1000000)

/-- The time that the matched texts say, from 1 January 1900 where the format does not say. -/
def fieldsOf (format : List Directive) (texts : List Str) : Fields :=
  (format.zip texts).foldl (fun t p => p.1.apply p.2 t) ⟨⟨1900, 1, 1⟩, 0, 0, 0, 0⟩

/-- `datetime.strptime(s, format)`. -/
def strptime (format : List Directive) (s : Str) : Option Fields :=
  match matchFormat format s with
  | some (texts, []) =>
    if (fieldsOf format texts).isValid = true then some (fieldsOf format texts) else none
  | _ => none

/-! ## The round trip -/

/-- The value of a digit of ASCII is its distance from `0`. -/
theorem digitValue_of_isDigit {c : CodePoint} (h : isDigit c = true) :
    digitValue c = some (c.val - 48) := by
  have hbounds : 48 ≤ c.val ∧ c.val ≤ 57 := by
    unfold isDigit at h
    simpa using h
  have hzero : (decide (0x30 ≤ c.val) && decide (c.val < 0x30 + 10)) = true := by
    simp
    omega
  have hfind : zeros.find? (fun z => decide (z ≤ c.val) && decide (c.val < z + 10)) = some 0x30 :=
    List.find?_cons_of_pos hzero
  unfold digitValue
  rw [hfind]
  rfl

/-- A digit of ASCII is a digit. -/
theorem anyDigit_of_isDigit {c : CodePoint} (h : isDigit c = true) : anyDigit c = true := by
  unfold anyDigit
  rw [digitValue_of_isDigit h]
  rfl

/-- A numeral of plain digits is a number. -/
theorem number_eq_natOf {text : Str} (h : ∀ c ∈ text, isDigit c = true) :
    number text = natOf text := by
  have hfold : ∀ n : ℕ, text.foldl (fun n c => match digitValue c with
      | some d => 10 * n + d
      | none => n) n = text.foldl (fun n c => 10 * n + (c.val - 48)) n := by
    induction text with
    | nil => intro n; rfl
    | cons c text ih =>
      intro n
      rw [List.foldl_cons, List.foldl_cons, digitValue_of_isDigit (h c List.mem_cons_self)]
      exact ih (fun d hd => h d (List.mem_cons_of_mem c hd)) _
  exact hfold 0

/-- What fits a text is decided by its first characters. -/
theorem fits_append {ps : List (CodePoint → Bool)} {r : Str} (h : ps.length = r.length) (s : Str) :
    fits ps (r ++ s) = fits ps r := by
  induction ps generalizing r with
  | nil => cases r with
    | nil => rfl
    | cons c r => cases h
  | cons p ps ih =>
    cases r with
    | nil => cases h
    | cons c r =>
      rw [List.cons_append, fits, fits, ih (Nat.succ.inj h)]

/-- A text of a class fits as many characters of it. -/
theorem fits_replicate {p : CodePoint → Bool} {r : Str} (h : ∀ c ∈ r, p c = true) :
    fits (List.replicate r.length p) r = true := by
  induction r with
  | nil => rfl
  | cons c r ih =>
    rw [List.length_cons, List.replicate_succ, fits, h c List.mem_cons_self,
      ih fun d hd => h d (List.mem_cons_of_mem c hd)]
    rfl

/-- A directive matches a text first, if the first of its alternatives that fit have its length. -/
theorem head_lengths {d : Directive} {r s : Str} {first others : List (List (CodePoint → Bool))}
    (halts : d.alternatives (r ++ s) = first ++ others)
    (hlen : ∀ ps ∈ first, ps.length = r.length) (hfits : ∃ ps ∈ first, fits ps r = true) :
    (d.lengths (r ++ s)).head? = some r.length := by
  obtain ⟨ps, hps, hfit⟩ := hfits
  -- Some alternative among the first ones fits, so the first that fits is among them.
  have hmem : ps ∈ first.filter fun ps => fits ps (r ++ s) :=
    List.mem_filter.2 ⟨hps, by rw [fits_append (hlen ps hps)]; exact hfit⟩
  unfold Directive.lengths
  rw [halts, List.filter_append]
  cases hfilter : first.filter fun ps => fits ps (r ++ s) with
  | nil =>
    rw [hfilter] at hmem
    cases hmem
  | cons qs rest =>
    have hqs : qs ∈ first := by
      have hin : qs ∈ first.filter fun ps => fits ps (r ++ s) := by
        rw [hfilter]
        exact List.mem_cons_self
      exact (List.mem_filter.1 hin).1
    rw [List.cons_append, List.map_cons, List.head?_cons, hlen qs hqs]

/-- It is so if the first alternative of all fits. -/
theorem head_lengths_of_fits {d : Directive} {r s : Str} {ps : List (CodePoint → Bool)}
    {others : List (List (CodePoint → Bool))} (halts : d.alternatives (r ++ s) = ps :: others)
    (hlen : ps.length = r.length) (hfits : fits ps r = true) :
    (d.lengths (r ++ s)).head? = some r.length := by
  have hsplit : d.alternatives (r ++ s) = [ps] ++ others := halts
  refine head_lengths hsplit (fun qs hqs => ?_) ⟨ps, List.mem_singleton.2 rfl, hfits⟩
  rw [List.mem_singleton.1 hqs]
  exact hlen

/-- A directive takes the first of its lengths that leads on. -/
theorem matchFormat_cons {d : Directive} {format : List Directive} {r s t : Str} {texts : List Str}
    (hhead : (d.lengths (r ++ s)).head? = some r.length)
    (hrest : matchFormat format s = some (texts, t)) :
    matchFormat (d :: format) (r ++ s) = some (r :: texts, t) := by
  obtain ⟨ns, hns⟩ : ∃ ns, d.lengths (r ++ s) = r.length :: ns := by
    cases hlengths : d.lengths (r ++ s) with
    | nil =>
      rw [hlengths] at hhead
      cases hhead
    | cons n ns =>
      rw [hlengths] at hhead
      exact ⟨ns, by rw [Option.some.inj hhead]⟩
  rw [matchFormat, hns, List.findSome?_cons, List.drop_left, List.take_left, hrest]
  rfl

/-- The fields of a time that a format can write. -/
structure Writable (t : Fields) : Prop where
  valid : t.isValid = true
  year : 1000 ≤ t.date.year

/-- The fields of what can be written are in their ranges. -/
theorem Writable.bounds {t : Fields} (h : Writable t) :
    t.date.year < 10000 ∧
      (1 ≤ t.date.month ∧ t.date.month ≤ 12 ∧ 1 ≤ t.date.day ∧ t.date.day ≤ 31) ∧
      t.hour < 24 ∧ t.minute < 60 ∧ t.second < 60 ∧ t.micro < 1000000 := by
  have hvalid := h.valid
  unfold Fields.isValid at hvalid
  simp only [Bool.and_eq_true, decide_eq_true_eq] at hvalid
  obtain ⟨⟨⟨⟨⟨hdate, hyear⟩, hhour⟩, hminute⟩, hsecond⟩, hmicro⟩ := hvalid
  exact ⟨hyear, Date.le_of_isValid hdate, hhour, hminute, hsecond, hmicro⟩

/-- A year of four digits is written with four. -/
theorem length_decimal {n : ℕ} (hlow : 1000 ≤ n) (hhigh : n < 10000) : (decimal n).length = 4 := by
  have hle : (Nat.toDigits 10 n).length ≤ 4 :=
    (Nat.length_toDigits_le_iff (by omega) (by omega)).2 (by omega)
  have hgt : ¬(Nat.toDigits 10 n).length ≤ 3 := fun h =>
    absurd ((Nat.length_toDigits_le_iff (by omega) (by omega)).1 h) (by omega)
  unfold decimal
  rw [List.length_map]
  omega

/-- White space before something else is matched as far as it goes. -/
theorem lengths_space {s : Str} (hs : s.takeWhile anySpace = []) :
    Directive.space.lengths (ofChar ' ' :: s) = [1] := by
  -- Two characters of white space do not fit, since the second one is none.
  have hmore : ∀ n : ℕ, fits (List.replicate (n + 1 + 1) anySpace) (ofChar ' ' :: s) = false := by
    intro n
    cases s with
    | nil => rfl
    | cons c s =>
      have hc : anySpace c = false := by
        by_contra h
        rw [List.takeWhile_cons_of_pos (by simpa using h)] at hs
        cases hs
      rw [List.replicate_succ, List.replicate_succ, fits, fits, hc, Bool.false_and, Bool.and_false]
  have hnone : ((List.range s.length).map Nat.succ).filter
      (fun n => fits (List.replicate (n + 1) anySpace) (ofChar ' ' :: s)) = [] := by
    rw [List.filter_eq_nil_iff]
    intro n hn
    obtain ⟨m, -, rfl⟩ := List.mem_map.1 hn
    rw [Nat.succ_eq_add_one, hmore m]
    simp
  -- One character does.
  have hone : fits (List.replicate (0 + 1) anySpace) (ofChar ' ' :: s) = true := by
    have hspace : anySpace (ofChar ' ') = true := by decide
    rw [List.replicate_succ, fits, hspace]
    rfl
  have hfilter : (List.range (s.length + 1)).filter
      (fun n => fits (List.replicate (n + 1) anySpace) (ofChar ' ' :: s)) = [0] := by
    rw [List.range_succ_eq_map, List.filter_cons_of_pos (by exact hone), hnone]
  unfold Directive.lengths Directive.alternatives
  dsimp only
  rw [List.length_cons, List.filter_map, List.filter_reverse]
  show (((List.range (s.length + 1)).filter
    (fun n => fits (List.replicate (n + 1) anySpace) (ofChar ' ' :: s))).reverse.map
      fun n => List.replicate (n + 1) anySpace).map List.length = [1]
  rw [hfilter]
  rfl

/-- A number of two digits is matched, if some of the first alternatives fits it. -/
theorem head_lengths_padded_two {d : Directive} {n : ℕ} {s : Str}
    {first others : List (List (CodePoint → Bool))}
    (halts : d.alternatives (padded 2 n ++ s) = first ++ others)
    (hlen : (first.all fun ps => ps.length = 2) = true)
    (hfits : (first.any fun ps => fits ps (padded 2 n)) = true) :
    (d.lengths (padded 2 n ++ s)).head? = some (padded 2 n).length := by
  refine head_lengths halts (fun ps hps => ?_) (List.any_eq_true.1 hfits)
  rw [padded_length]
  exact of_decide_eq_true (List.all_eq_true.1 hlen ps hps)

/-- What a directive writes is what it matches first. -/
theorem head_lengths_render {t : Fields} (h : Writable t) (d : Directive) {s : Str}
    (hspace : d = .space → s.takeWhile anySpace = []) :
    (d.lengths (d.render t ++ s)).head? = some (d.render t).length := by
  obtain ⟨hyear, ⟨hmonth, hmonth', hday, hday'⟩, hhour, hminute, hsecond, hmicro⟩ := h.bounds
  -- For a field of two digits, which alternatives fit is a check of finitely many texts.
  cases d with
  | year =>
    have hlen : (decimal t.date.year).length = 4 := length_decimal h.year hyear
    have hfits : fits (List.replicate 4 anyDigit) (decimal t.date.year) = true := by
      rw [← hlen]
      exact fits_replicate fun c hc => anyDigit_of_isDigit (isDigit_of_mem_decimal hc)
    exact head_lengths_of_fits rfl hlen.symm hfits
  | month =>
    have hall : ∀ m < 13, 1 ≤ m → ([[range '1' '1', range '0' '2'],
        [range '0' '0', range '1' '9']].any fun ps => fits ps (padded 2 m)) = true := by decide
    exact head_lengths_padded_two rfl rfl (hall _ (by omega) hmonth)
  | day =>
    have hall : ∀ m < 32, 1 ≤ m → ([[range '3' '3', range '0' '1'], [range '1' '2', anyDigit],
        [range '0' '0', range '1' '9']].any fun ps => fits ps (padded 2 m)) = true := by decide
    exact head_lengths_padded_two rfl rfl (hall _ (by omega) hday)
  | hour =>
    have hall : ∀ m < 24, ([[range '2' '2', range '0' '3'], [range '0' '1', anyDigit]].any
        fun ps => fits ps (padded 2 m)) = true := by decide
    exact head_lengths_padded_two rfl rfl (hall _ hhour)
  | minute =>
    have hall : ∀ m < 60, ([[range '0' '5', anyDigit]].any
        fun ps => fits ps (padded 2 m)) = true := by decide
    exact head_lengths_padded_two rfl rfl (hall _ hminute)
  | second =>
    have hall : ∀ m < 60, ([[range '6' '6', range '0' '1'], [range '0' '5', anyDigit]].any
        fun ps => fits ps (padded 2 m)) = true := by decide
    exact head_lengths_padded_two rfl rfl (hall _ hsecond)
  | micro =>
    have hlen : (padded 6 t.micro).length = 6 := padded_length 6 _
    have hfits : fits (List.replicate 6 (range '0' '9')) (padded 6 t.micro) = true := by
      rw [← hlen]
      exact fits_replicate fun c hc => isDigit_of_mem_padded hc
    exact head_lengths_of_fits rfl hlen.symm hfits
  | literal c =>
    exact head_lengths_of_fits rfl rfl (by simp [fits, Directive.render])
  | space =>
    show (Directive.space.lengths (ofChar ' ' :: s)).head? = some 1
    rw [lengths_space (hspace rfl)]
    rfl

/-- What is written is matched, directive by directive, if no white space follows a space, and the
directives behind it match what stands behind it. -/
theorem matchFormat_strftime_append {t : Fields} (h : Writable t) {format rest : List Directive}
    {s r : Str} {texts : List Str} (hrest : matchFormat rest s = some (texts, r))
    (hspaces : ∀ behind, (Directive.space :: behind) <:+ format →
      (strftime behind t ++ s).takeWhile anySpace = []) :
    matchFormat (format ++ rest) (strftime format t ++ s) =
      some (format.map (Directive.render t) ++ texts, r) := by
  induction format with
  | nil => exact hrest
  | cons d format ih =>
    have hformat := ih fun behind hbehind =>
      hspaces behind (hbehind.trans (List.suffix_cons d format))
    have hspace : d = .space → (strftime format t ++ s).takeWhile anySpace = [] := by
      rintro rfl
      exact hspaces format List.suffix_rfl
    have htext : strftime (d :: format) t ++ s = d.render t ++ (strftime format t ++ s) := by
      unfold strftime
      rw [List.flatMap_cons, List.append_assoc]
    -- The first alternative goes through, so there is no backtracking.
    rw [htext]
    exact matchFormat_cons (head_lengths_render h d hspace) hformat

/-- As many digits fit as there are. -/
theorem fits_digits {r : Str} (h : ∀ c ∈ r, isDigit c = true) (n : ℕ) :
    fits (List.replicate n (range '0' '9')) r = decide (n ≤ r.length) := by
  induction n generalizing r with
  | zero => rfl
  | succ n ih =>
    cases r with
    | nil => rfl
    | cons c r =>
      have hrest := ih fun d hd => h d (List.mem_cons_of_mem c hd)
      have hc : range '0' '9' c = true := h c List.mem_cons_self
      rw [List.replicate_succ, fits, hc, hrest, List.length_cons, Bool.true_and]
      exact decide_eq_decide.2 Nat.succ_le_succ_iff.symm

/-- A fraction at the end of a text is matched to its last digit, however many it has. -/
theorem head_lengths_micro {r : Str} (hdigits : ∀ c ∈ r, isDigit c = true) (hpos : 1 ≤ r.length)
    (hle : r.length ≤ 6) : (Directive.micro.lengths r).head? = some r.length := by
  have hlengths : Directive.micro.lengths r = [6, 5, 4, 3, 2, 1].filter fun n => n ≤ r.length := by
    unfold Directive.lengths Directive.alternatives
    rw [List.filter_map, List.map_map]
    simp only [Function.comp_def, List.length_replicate, fits_digits hdigits, List.map_id']
  have hhead : ∀ k, 1 ≤ k → k ≤ 6 →
      ([6, 5, 4, 3, 2, 1].filter fun n => n ≤ k).head? = some k := by decide
  rw [hlengths]
  exact hhead r.length hpos hle

/-- The numbers that are read are those that were written. -/
theorem number_render {t : Fields} (h : Writable t) :
    number (Directive.year.render t) = t.date.year ∧
      number (Directive.month.render t) = t.date.month ∧
      number (Directive.day.render t) = t.date.day ∧ number (Directive.hour.render t) = t.hour ∧
      number (Directive.minute.render t) = t.minute ∧
      number (Directive.second.render t) = t.second ∧
      number (Directive.micro.render t) = t.micro := by
  obtain ⟨hyear, ⟨hmonth, hmonth', hday, hday'⟩, hhour, hminute, hsecond, hmicro⟩ := h.bounds
  have hpadded : ∀ {width n : ℕ}, n < 10 ^ width → number (padded width n) = n := by
    intro width n hn
    rw [number_eq_natOf fun c hc => isDigit_of_mem_padded hc, natOf_padded hn]
  refine ⟨?_, hpadded ?_, hpadded ?_, hpadded ?_, hpadded ?_, hpadded ?_, hpadded ?_⟩
  · -- Only the year is written without padding.
    unfold Directive.render
    rw [number_eq_natOf fun c hc => isDigit_of_mem_decimal hc, natOf_decimal]
  all_goals omega

/-- A digit is a character of ASCII. -/
theorem val_lt_of_isDigit {c : CodePoint} (h : isDigit c = true) : c.val < 128 := by
  unfold isDigit at h
  simp at h
  omega

/-- A format of ASCII literals is written in ASCII. -/
theorem strftime_ascii {format : List Directive}
    (hliterals : ∀ c, .literal c ∈ format → c.val < 128)
    (t : Fields) : ∀ c ∈ strftime format t, c.val < 128 := by
  intro c hc
  obtain ⟨d, hd, hc⟩ := List.mem_flatMap.1 hc
  cases d with
  | year => exact val_lt_of_isDigit (isDigit_of_mem_decimal hc)
  | literal e =>
    obtain rfl := List.mem_singleton.1 hc
    exact hliterals c hd
  | space =>
    obtain rfl := List.mem_singleton.1 hc
    decide
  | month => exact val_lt_of_isDigit (isDigit_of_mem_padded hc)
  | day => exact val_lt_of_isDigit (isDigit_of_mem_padded hc)
  | hour => exact val_lt_of_isDigit (isDigit_of_mem_padded hc)
  | minute => exact val_lt_of_isDigit (isDigit_of_mem_padded hc)
  | second => exact val_lt_of_isDigit (isDigit_of_mem_padded hc)
  | micro => exact val_lt_of_isDigit (isDigit_of_mem_padded hc)

end TimeFormat
