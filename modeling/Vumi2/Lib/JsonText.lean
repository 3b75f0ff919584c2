import Mathlib.Data.List.Chain
import Vumi2.Lib.Json
import Vumi2.Lib.Numerals

/-!
# JSON documents

`dumps` and `loads` as Python's `json` writes and reads a document: with the separators `", "` and
`": "`, and every character outside of ASCII as an escape. `loads` reads more than `dumps` writes:
white space, the other escapes, members of one name, of which the last counts.

A text is escaped by UTF-16 code units, and `loads` joins a high surrogate with a low one after it.
So a text comes back as it was if it has no such pair in it (`NoSurrogatePair`). A float is the text
that Python writes it as; `canon` is `repr(float(text))`, the text of the float that is read from a
text. Both refuse an integer of more digits than the interpreter's limit.

`loads_dumps` is the round trip.
-/

open Text

namespace Json

/-- The digits that `int` and `str` convert at most, by default. -/
def maxStrDigits : ℕ := 4300

/-! ## Writing -/

/-- The escape of a UTF-16 code unit. -/
def escapeUnit (n : ℕ) : Str := ofChar '\\' :: ofChar 'u' :: hex4 n

/-- How a character is written in a string. -/
def escape (c : CodePoint) : Str :=
  if c = ofChar '"' then [ofChar '\\', ofChar '"']
  else if c = ofChar '\\' then [ofChar '\\', ofChar '\\']
  else if c = ofChar '\n' then [ofChar '\\', ofChar 'n']
  else if c = ofChar '\r' then [ofChar '\\', ofChar 'r']
  else if c = ofChar '\t' then [ofChar '\\', ofChar 't']
  else if c = ofChar '\x0c' then [ofChar '\\', ofChar 'f']
  else if c = ofChar '\x08' then [ofChar '\\', ofChar 'b']
  else if 32 ≤ c.val ∧ c.val < 127 then [c]
  else if c.val < 65536 then escapeUnit c.val
  else
    escapeUnit (0xd800 + (c.val - 65536) / 1024) ++ escapeUnit (0xdc00 + (c.val - 65536) % 1024)

/-- A string in its quotes. -/
def dumpsString (s : Str) : Str := ofChar '"' :: (s.flatMap escape ++ [ofChar '"'])

/-- An integer. -/
def intText (n : ℤ) : Str :=
  if n < 0 then ofChar '-' :: decimal n.natAbs else decimal n.natAbs

/-- A float; the text of a float that is not finite is one of Python's own. -/
def floatText (repr : Str) : Str :=
  if repr = str "nan" then str "NaN"
  else if repr = str "inf" then str "Infinity"
  else if repr = str "-inf" then str "-Infinity"
  else repr

mutual

/-- `json.dumps(v)`. -/
def dumps : Json → Option Str
  | null => some (str "null")
  | bool true => some (str "true")
  | bool false => some (str "false")
  | int n => if (decimal n.natAbs).length ≤ maxStrDigits then some (intText n) else none
  | float repr => some (floatText repr)
  | string s => some (dumpsString s)
  | array l => (dumpsElements l).map fun ts =>
      ofChar '[' :: ((str ", ").intercalate ts ++ [ofChar ']'])
  | object ms => (dumpsMembers ms).map fun ts =>
      ofChar '\x7b' :: ((str ", ").intercalate ts ++ [ofChar '\x7d'])

/-- The texts of the elements of a list, if each has one. -/
def dumpsElements : List Json → Option (List Str)
  | [] => some []
  | v :: l => (dumps v).bind fun t => (dumpsElements l).map fun ts => t :: ts

/-- The texts of the members of a dictionary, each after its name. -/
def dumpsMembers : List (Str × Json) → Option (List Str)
  | [] => some []
  | (name, v) :: ms => (dumps v).bind fun t =>
      (dumpsMembers ms).map fun ts => (dumpsString name ++ str ": " ++ t) :: ts

end

/-! ## Reading -/

/-- White space. -/
def isSpace (c : CodePoint) : Bool :=
  decide (c.val = 32) || decide (c.val = 9) || decide (c.val = 10) || decide (c.val = 13)

/-- The text after its white space. -/
def skipSpace (s : Str) : Str := s.dropWhile isSpace

/-- The text after one that it starts with. -/
def strip : Str → Str → Option Str
  | [], s => some s
  | c :: cs, d :: s => if c = d then strip cs s else none
  | _ :: _, [] => none

/-- A high surrogate. -/
def isHigh (n : ℕ) : Bool := decide (0xd800 ≤ n) && decide (n < 0xdc00)

/-- A low surrogate. -/
def isLow (n : ℕ) : Bool := decide (0xdc00 ≤ n) && decide (n < 0xe000)

/-- A remainder is a code point. -/
theorem mod_lt_codePoints (n : ℕ) : n % 0x110000 < 0x110000 := Nat.mod_lt n (by decide)

/-- `chr(n)`. -/
def chr (n : ℕ) : CodePoint := ⟨n % 0x110000, mod_lt_codePoints n⟩

/-- The character of a surrogate pair. -/
def joined (high low : ℕ) : CodePoint := chr (65536 + (high - 0xd800) * 1024 + (low - 0xdc00))

/-- The character of an escape of one letter. -/
def unescape (c : CodePoint) : Option CodePoint :=
  if c = ofChar '"' ∨ c = ofChar '\\' ∨ c = ofChar '/' then some c
  else if c = ofChar 'b' then some (ofChar '\x08')
  else if c = ofChar 'f' then some (ofChar '\x0c')
  else if c = ofChar 'n' then some (ofChar '\n')
  else if c = ofChar 'r' then some (ofChar '\r')
  else if c = ofChar 't' then some (ofChar '\t')
  else none

/-- The low surrogate that six characters are the escape of. -/
def lowUnit (c₁ c₂ a b c d : CodePoint) : Option ℕ :=
  if c₁ = ofChar '\\' ∧ c₂ = ofChar 'u' then (hexValue4 a b c d).filter isLow else none

/-- A character, and what a string goes on with. -/
def consTo (c : CodePoint) (p : Str × Str) : Str × Str := (c :: p.1, p.2)

/-- A string from behind its opening quote, and the text behind it. -/
def scanString : Str → Option (Str × Str)
  | [] => none
  | c :: s =>
    if c = ofChar '"' then some ([], s)
    else if c = ofChar '\\' then
      match s with
      | [] => none
      | e :: s =>
        if e = ofChar 'u' then
          match s with
          | a :: b :: x :: d :: s =>
            match hexValue4 a b x d with
            | none => none
            | some n =>
              match s with
              | c₁ :: c₂ :: a' :: b' :: x' :: d' :: s' =>
                -- A high unit waits for a low one; if that does not follow, it stands for itself.
                match lowUnit c₁ c₂ a' b' x' d' with
                | some low =>
                  if isHigh n = true then (scanString s').map (consTo (joined n low))
                  else (scanString (c₁ :: c₂ :: a' :: b' :: x' :: d' :: s')).map (consTo (chr n))
                | none =>
                  (scanString (c₁ :: c₂ :: a' :: b' :: x' :: d' :: s')).map (consTo (chr n))
              | s => (scanString s).map (consTo (chr n))
          | _ => none
        else
          match unescape e with
          | some c => (scanString s).map (consTo c)
          | none => none
    else if c.val < 32 then none
    else (scanString s).map (consTo c)

/-- A number: `-?(?:0|[1-9][0-9]*)`. -/
def scanInt (s : Str) : Option (Str × Str) :=
  match s with
  | [] => none
  | c :: t =>
    if c = digit 0 then some ([c], t)
    else if isDigit c = true then some (c :: t.takeWhile isDigit, t.dropWhile isDigit)
    else none

/-- `-?`. -/
def scanSign (s : Str) : Str × Str :=
  match s with
  | [] => ([], [])
  | c :: t => if c = ofChar '-' then ([c], t) else ([], s)

/-- `(\.[0-9]+)?`. -/
def scanFrac (s : Str) : Str × Str :=
  match s with
  | [] => ([], [])
  | c :: t =>
    if c = ofChar '.' ∧ t.takeWhile isDigit ≠ [] then
      (c :: t.takeWhile isDigit, t.dropWhile isDigit)
    else ([], s)

/-- `[-+]?`. -/
def scanExpSign (s : Str) : Str × Str :=
  match s with
  | [] => ([], [])
  | c :: t => if c = ofChar '-' ∨ c = ofChar '+' then ([c], t) else ([], s)

/-- `([eE][-+]?[0-9]+)?`. -/
def scanExp (s : Str) : Str × Str :=
  match s with
  | [] => ([], [])
  | c :: t =>
    if (c = ofChar 'e' ∨ c = ofChar 'E') ∧ (scanExpSign t).2.takeWhile isDigit ≠ [] then
      (c :: ((scanExpSign t).1 ++ (scanExpSign t).2.takeWhile isDigit),
        (scanExpSign t).2.dropWhile isDigit)
    else ([], s)

/-- The integer of a sign and digits. -/
def intOf (sign digits : Str) : ℤ := if sign = [] then natOf digits else -natOf digits

/-- `dict(pairs)`. -/
def dictOf (pairs : Members) : Members := pairs.foldl (fun ms m => ms.set m.1 m.2) []

section

variable (canon : Str → Str)

/-- A number, as an integer if it has no fraction and no exponent. -/
def scanNumber (s : Str) : Option (Json × Str) := do
  let (sign, s) := scanSign s
  let (digits, s) ← scanInt s
  let (frac, s) := scanFrac s
  let (exp, s) := scanExp s
  if frac = [] ∧ exp = [] then
    if digits.length ≤ maxStrDigits then some (int (intOf sign digits), s) else none
  else some (float (canon (sign ++ digits ++ frac ++ exp)), s)

/-- A constant, or a number. -/
def scanAtom (s : Str) : Option (Json × Str) :=
  match strip (str "null") s with
  | some s => some (null, s)
  | none =>
  match strip (str "true") s with
  | some s => some (bool true, s)
  | none =>
  match strip (str "false") s with
  | some s => some (bool false, s)
  | none =>
  match strip (str "NaN") s with
  | some s => some (float (str "nan"), s)
  | none =>
  match strip (str "Infinity") s with
  | some s => some (float (str "inf"), s)
  | none =>
  match strip (str "-Infinity") s with
  | some s => some (float (str "-inf"), s)
  | none => scanNumber canon s

mutual

/-- A value, and the text behind it. -/
def scanOnce : ℕ → Str → Option (Json × Str)
  | 0, _ => none
  | n + 1, s =>
    match s with
    | [] => none
    | c :: t =>
      if c = ofChar '"' then (scanString t).map fun p => (string p.1, p.2)
      else if c = ofChar '[' then
        match strip (str "]") (skipSpace t) with
        | some t => some (array [], t)
        | none => (scanElements n (skipSpace t)).map fun p => (array p.1, p.2)
      else if c = ofChar '\x7b' then
        match strip [ofChar '\x7d'] (skipSpace t) with
        | some t => some (object [], t)
        | none => (scanMembers n (skipSpace t)).map fun p => (object (dictOf p.1), p.2)
      else scanAtom canon s

/-- The elements of an array, up to its closing bracket. -/
def scanElements : ℕ → Str → Option (List Json × Str)
  | 0, _ => none
  | n + 1, s => do
    let (v, s) ← scanOnce n s
    match skipSpace s with
    | [] => none
    | c :: t =>
      if c = ofChar ']' then some ([v], t)
      else if c = ofChar ',' then (scanElements n (skipSpace t)).map fun p => (v :: p.1, p.2)
      else none

/-- The members of an object, up to its closing brace. -/
def scanMembers : ℕ → Str → Option (Members × Str)
  | 0, _ => none
  | n + 1, s => do
    let s ← strip (str "\"") s
    let (name, s) ← scanString s
    let s ← strip (str ":") (skipSpace s)
    let (v, s) ← scanOnce n (skipSpace s)
    match skipSpace s with
    | [] => none
    | c :: t =>
      if c = ofChar '\x7d' then some ([(name, v)], t)
      else if c = ofChar ',' then
        (scanMembers n (skipSpace t)).map fun p => ((name, v) :: p.1, p.2)
      else none

end

/-- `json.loads(s)`. -/
def loads (s : Str) : Option Json := do
  let (v, t) ← scanOnce canon (2 * s.length + 2) (skipSpace s)
  if skipSpace t = [] then some v else none

end

/-! ## Strings -/

/-- A text in which no high surrogate has a low one behind it. -/
def NoSurrogatePair (s : Str) : Prop :=
  s.IsChain fun a b => isHigh a.val = true → isLow b.val = false

/-- ASCII has no surrogates. -/
theorem noSurrogatePair_of_ascii {s : Str} (h : ∀ c ∈ s, c.val < 128) : NoSurrogatePair s := by
  induction s with
  | nil => exact List.IsChain.nil
  | cons c s ih =>
    refine (ih fun d hd => h d (List.mem_cons_of_mem c hd)).cons fun d _ hhigh => ?_
    have hlt := h c List.mem_cons_self
    unfold isHigh at hhigh
    simp at hhigh
    omega

/-- A text that starts with the escape of a low surrogate. -/
def startsLow : Str → Bool
  | c₁ :: c₂ :: a :: b :: c :: d :: _ => (lowUnit c₁ c₂ a b c d).isSome
  | _ => false

/-- `chr` of the number of a character is the character. -/
theorem chr_val (c : CodePoint) : chr c.val = c := Fin.ext (Nat.mod_eq_of_lt c.isLt)

/-- A character that stands for itself. -/
theorem scanString_self {c : CodePoint} {s : Str} (hquote : c ≠ ofChar '"')
    (hslash : c ≠ ofChar '\\') (hspace : 32 ≤ c.val) :
    scanString (c :: s) = (scanString s).map (consTo c) := by
  rw [scanString.eq_def]
  dsimp only
  rw [if_neg hquote, if_neg hslash, if_neg (by omega)]

/-- An escape of one letter. -/
theorem scanString_short {c e : CodePoint} {s : Str} (he : e ≠ ofChar 'u')
    (hc : unescape e = some c) :
    scanString (ofChar '\\' :: e :: s) = (scanString s).map (consTo c) := by
  have hquote : ofChar '\\' ≠ ofChar '"' := by decide
  rw [scanString.eq_def]
  dsimp only
  rw [if_neg hquote, if_pos rfl]
  rw [if_neg he, hc]

/-- The escape of a code unit that is not the first one of a pair. -/
theorem scanString_unit {n : ℕ} {s : Str} (hn : n < 65536)
    (hpair : isHigh n = true → startsLow s = false) :
    scanString (escapeUnit n ++ s) = (scanString s).map (consTo (chr n)) := by
  have hquote : ofChar '\\' ≠ ofChar '"' := by decide
  unfold escapeUnit hex4
  simp only [List.cons_append, List.nil_append]
  rw [scanString.eq_def]
  dsimp only
  rw [if_neg hquote, if_pos rfl]
  rw [if_pos rfl, hexValue4_hex4 hn]
  dsimp only
  -- What follows is six characters at least, or too short for an escape.
  split
  · rename_i c₁ c₂ a b c d s
    split
    · rename_i low hlow
      split_ifs with hhigh
      · -- A high unit is not followed by an escaped low one.
        have hstarts : (lowUnit c₁ c₂ a b c d).isSome = false := hpair hhigh
        rw [hlow] at hstarts
        cases hstarts
      · rfl
    · rfl
  · rfl

/-- The escapes of a surrogate pair. -/
theorem scanString_pair {high low : ℕ} {s : Str} (hhigh : isHigh high = true)
    (hlow : isLow low = true) :
    scanString (escapeUnit high ++ (escapeUnit low ++ s)) =
      (scanString s).map (consTo (joined high low)) := by
  have hquote : ofChar '\\' ≠ ofChar '"' := by decide
  have hhlt : high < 65536 := by
    unfold isHigh at hhigh
    simp at hhigh
    omega
  have hllt : low < 65536 := by
    unfold isLow at hlow
    simp at hlow
    omega
  -- The second escape is read ahead, and is a low surrogate.
  have hunit : lowUnit (ofChar '\\') (ofChar 'u') (digit (low / 4096 % 16))
      (digit (low / 256 % 16)) (digit (low / 16 % 16)) (digit (low % 16)) = some low := by
    unfold lowUnit
    rw [if_pos ⟨rfl, rfl⟩, hexValue4_hex4 hllt]
    exact Option.filter_some_pos hlow
  unfold escapeUnit hex4
  simp only [List.cons_append, List.nil_append]
  rw [scanString.eq_def]
  dsimp only
  rw [if_neg hquote, if_pos rfl]
  rw [if_pos rfl, hexValue4_hex4 hhlt]
  dsimp only
  rw [hunit]
  dsimp only
  rw [if_pos hhigh]

/-- A character comes back from what it is written as. -/
theorem scanString_escape {c : CodePoint} {s : Str}
    (hpair : isHigh c.val = true → startsLow s = false) :
    scanString (escape c ++ s) = (scanString s).map (consTo c) := by
  unfold escape
  split_ifs with hq hb hn hr ht hf hbs hself hunit
  · rw [hq]
    exact scanString_short (by decide) (by decide)
  · rw [hb]
    exact scanString_short (by decide) (by decide)
  · rw [hn]
    exact scanString_short (by decide) (by decide)
  · rw [hr]
    exact scanString_short (by decide) (by decide)
  · rw [ht]
    exact scanString_short (by decide) (by decide)
  · rw [hf]
    exact scanString_short (by decide) (by decide)
  · rw [hbs]
    exact scanString_short (by decide) (by decide)
  · exact scanString_self hq hb hself.1
  · -- A character of the first plane is one unit, which joins none behind it.
    rw [scanString_unit hunit hpair, chr_val]
  · -- A character beyond the first plane is a pair of units, which are joined again.
    have hlt := c.isLt
    have hhigh : isHigh (0xd800 + (c.val - 65536) / 1024) = true := by
      unfold isHigh
      simp
      omega
    have hlow : isLow (0xdc00 + (c.val - 65536) % 1024) = true := by
      unfold isLow
      simp
      omega
    have hjoined :
        joined (0xd800 + (c.val - 65536) / 1024) (0xdc00 + (c.val - 65536) % 1024) = c := by
      have hval : 65536 + (0xd800 + (c.val - 65536) / 1024 - 0xd800) * 1024 +
          (0xdc00 + (c.val - 65536) % 1024 - 0xdc00) = c.val := by omega
      unfold joined
      rw [hval, chr_val]
    rw [List.append_assoc, scanString_pair hhigh hlow, hjoined]

/-- What a character is written as does not start with a low surrogate, unless it is one. -/
theorem startsLow_escape {c : CodePoint} {s : Str} (hlow : isLow c.val = false) :
    startsLow (escape c ++ s) = false := by
  -- A short escape is no `u` escape.
  have hshort : ∀ (e : CodePoint) (t : Str), e ≠ ofChar 'u' →
      startsLow (ofChar '\\' :: e :: t) = false := by
    intro e t he
    unfold startsLow
    split
    · rename_i heq
      obtain ⟨rfl, rfl, -⟩ : _ ∧ _ ∧ _ := by simpa using heq
      unfold lowUnit
      rw [if_neg fun h => he h.2]
      rfl
    · rfl
  -- The unit of a character is none, unless the character is one.
  have hunits : ∀ (n : ℕ) (t : Str), n < 65536 → isLow n = false →
      startsLow (escapeUnit n ++ t) = false := by
    intro n t hn hlow
    have hunit : lowUnit (ofChar '\\') (ofChar 'u') (digit (n / 4096 % 16))
        (digit (n / 256 % 16)) (digit (n / 16 % 16)) (digit (n % 16)) = none := by
      unfold lowUnit
      rw [if_pos ⟨rfl, rfl⟩, hexValue4_hex4 hn]
      exact Option.filter_some_neg (by simp [hlow])
    show (lowUnit _ _ _ _ _ _).isSome = false
    rw [hunit]
    rfl
  unfold escape
  split_ifs with hq hb hn hr ht hf hbs hself hunit
  · exact hshort _ s (by decide)
  · exact hshort _ s (by decide)
  · exact hshort _ s (by decide)
  · exact hshort _ s (by decide)
  · exact hshort _ s (by decide)
  · exact hshort _ s (by decide)
  · exact hshort _ s (by decide)
  · unfold startsLow
    split
    · rename_i heq
      obtain ⟨rfl, -⟩ : _ ∧ _ := by simpa using heq
      unfold lowUnit
      rw [if_neg fun h => hb h.1]
      rfl
    · rfl
  · exact hunits c.val s hunit hlow
  · -- A pair starts with its high surrogate.
    have hlt := c.isLt
    rw [List.append_assoc]
    refine hunits _ _ (by omega) ?_
    unfold isLow
    simp
    omega

/-- A string comes back from what it is written as. -/
theorem scanString_dumps {s : Str} (hs : NoSurrogatePair s) (rest : Str) :
    scanString (s.flatMap escape ++ ofChar '"' :: rest) = some (s, rest) := by
  induction s with
  | nil =>
    show scanString (ofChar '"' :: rest) = _
    rw [scanString.eq_def]
    exact if_pos rfl
  | cons c s ih =>
    -- What is behind a high surrogate is no low one: by hypothesis, or because it is the quote.
    have hnext : isHigh c.val = true →
        startsLow (s.flatMap escape ++ ofChar '"' :: rest) = false := by
      intro hhigh
      cases s with
      | nil =>
        show startsLow (ofChar '"' :: rest) = false
        unfold startsLow
        split
        · rename_i heq
          obtain ⟨rfl, -⟩ : _ ∧ _ := by simpa using heq
          unfold lowUnit
          rw [if_neg fun h => absurd h.1 (by decide)]
          rfl
        · rfl
      | cons d s =>
        have hlow : isLow d.val = false := (List.isChain_cons_cons.1 hs).1 hhigh
        rw [List.flatMap_cons, List.append_assoc]
        exact startsLow_escape hlow
    rw [List.flatMap_cons, List.append_assoc, scanString_escape hnext, ih hs.tail]
    rfl

/-! ## Numbers -/

/-- A text is empty, or starts with a character that satisfies `p`. -/
def Starts (p : CodePoint → Prop) (s : Str) : Prop := ∀ c t, s = c :: t → p c

/-- What a text starts with is what its first part that is not empty starts with. -/
theorem Starts.append {p : CodePoint → Prop} {s t : Str} (hs : Starts p s)
    (ht : s = [] → Starts p t) :
    Starts p (s ++ t) := by
  cases s with
  | nil => exact ht rfl
  | cons d s =>
    intro c u h
    obtain ⟨rfl, -⟩ := List.cons.inj h
    exact hs d s rfl

/-- A text starts with its first character. -/
theorem starts_cons {p : CodePoint → Prop} {c : CodePoint} {s : Str} (h : p c) :
    Starts p (c :: s) := by
  intro d t heq
  obtain ⟨rfl, -⟩ := List.cons.inj heq
  exact h

/-- No digit. -/
def NotDigit (c : CodePoint) : Prop := isDigit c = false

/-- What may follow a number: no digit, no fraction and no exponent. -/
def EndsNumber (c : CodePoint) : Prop :=
  isDigit c = false ∧ c ≠ ofChar '.' ∧ c ≠ ofChar 'e' ∧ c ≠ ofChar 'E'

/-- The digits at the start of a text are all of those before something else. -/
theorem span_digits {ds t : Str} (hds : ∀ d ∈ ds, isDigit d = true) (ht : Starts NotDigit t) :
    (ds ++ t).takeWhile isDigit = ds ∧ (ds ++ t).dropWhile isDigit = t := by
  rw [List.takeWhile_append_of_pos hds, List.dropWhile_append_of_pos hds]
  cases t with
  | nil => simp
  | cons c t =>
    have hc : isDigit c = false := ht c t rfl
    rw [List.takeWhile_cons_of_neg (by rw [hc]; simp),
      List.dropWhile_cons_of_neg (by rw [hc]; simp)]
    simp

/-- The parts of a number in a document. -/
structure IsNumber (sign digits frac exp : Str) : Prop where
  sign : sign = [] ∨ sign = [ofChar '-']
  digits : ∃ c ds, digits = c :: ds ∧ isDigit c = true ∧ (∀ d ∈ ds, isDigit d = true) ∧
    (c = digit 0 → ds = [])
  frac : frac = [] ∨ ∃ ds, frac = ofChar '.' :: ds ∧ ds ≠ [] ∧ ∀ d ∈ ds, isDigit d = true
  exp : exp = [] ∨ ∃ e sign ds, exp = e :: (sign ++ ds) ∧ (e = ofChar 'e' ∨ e = ofChar 'E') ∧
    (sign = [] ∨ sign = [ofChar '-'] ∨ sign = [ofChar '+']) ∧ ds ≠ [] ∧
    ∀ d ∈ ds, isDigit d = true

/-- The text of a float that is a number of a document, and that Python writes it as. -/
def IsFloat (canon : Str → Str) (repr : Str) : Prop :=
  canon repr = repr ∧ ∃ sign digits frac exp, IsNumber sign digits frac exp ∧
    repr = sign ++ digits ++ frac ++ exp ∧ (frac ≠ [] ∨ exp ≠ [])

/-- A digit is not a character that is no digit. -/
theorem ne_of_isDigit {c d : CodePoint} (hc : isDigit c = true)
    (hd : isDigit d = false) : c ≠ d := by
  rintro rfl
  rw [hc] at hd
  cases hd

section

variable {sign digits frac exp : Str}

/-- A sign is read before anything but another minus. -/
theorem scanSign_append {t : Str} (hsign : sign = [] ∨ sign = [ofChar '-'])
    (ht : Starts (fun c => c ≠ ofChar '-') t) : scanSign (sign ++ t) = (sign, t) := by
  rcases hsign with rfl | rfl
  · cases t with
    | nil => rfl
    | cons c t => exact if_neg (ht c t rfl)
  · simp [scanSign]

/-- The digits of an integer are read up to the first character that is no digit. -/
theorem scanInt_append (h : IsNumber sign digits frac exp) {t : Str} (ht : Starts NotDigit t) :
    scanInt (digits ++ t) = some (digits, t) := by
  obtain ⟨c, ds, rfl, hc, hds, hzero⟩ := h.digits
  unfold scanInt
  simp only [List.cons_append]
  split_ifs with h0
  · rw [hzero h0]
    rfl
  · obtain ⟨htake, hdrop⟩ := span_digits hds ht
    rw [htake, hdrop]

/-- A fraction is read up to the first character that is no digit. -/
theorem scanFrac_append (h : IsNumber sign digits frac exp) {t : Str} (ht : Starts NotDigit t)
    (hdot : frac = [] → Starts (fun c => c ≠ ofChar '.') t) : scanFrac (frac ++ t) = (frac, t) := by
  rcases h.frac with rfl | ⟨ds, rfl, hne, hds⟩
  · cases t with
    | nil => rfl
    | cons c t => exact if_neg fun h => hdot rfl c t rfl h.1
  · obtain ⟨htake, hdrop⟩ := span_digits hds ht
    unfold scanFrac
    rw [List.cons_append]
    dsimp only
    rw [htake, hdrop, if_pos ⟨rfl, hne⟩]

/-- An exponent is read up to the first character that is no digit. -/
theorem scanExp_append (h : IsNumber sign digits frac exp) {t : Str} (ht : Starts NotDigit t)
    (he : exp = [] → Starts (fun c => c ≠ ofChar 'e' ∧ c ≠ ofChar 'E') t) :
    scanExp (exp ++ t) = (exp, t) := by
  rcases h.exp with rfl | ⟨e, expSign, ds, rfl, hletter, hsign, hne, hds⟩
  · cases t with
    | nil => rfl
    | cons c t =>
      obtain ⟨hlower, hupper⟩ := he rfl c t rfl
      exact if_neg fun h => h.1.elim hlower hupper
  · -- The sign, if there is one, and then digits.
    have hscan : scanExpSign (expSign ++ (ds ++ t)) = (expSign, ds ++ t) := by
      rcases hsign with rfl | rfl | rfl
      · cases ds with
        | nil => exact absurd rfl hne
        | cons d ds =>
          have hd : isDigit d = true := hds d List.mem_cons_self
          exact if_neg fun h => h.elim (ne_of_isDigit hd (by decide)) (ne_of_isDigit hd (by decide))
      · simp [scanExpSign]
      · simp [scanExpSign]
    obtain ⟨htake, hdrop⟩ := span_digits hds ht
    unfold scanExp
    simp only [List.cons_append, List.append_assoc]
    rw [hscan, htake, hdrop, if_pos ⟨hletter, hne⟩]

/-- A number is scanned whole. -/
theorem scanNumber_append (canon : Str → Str) (h : IsNumber sign digits frac exp) {rest : Str}
    (hrest : Starts EndsNumber rest) :
    scanNumber canon (sign ++ (digits ++ (frac ++ (exp ++ rest)))) =
      if frac = [] ∧ exp = [] then
        if digits.length ≤ maxStrDigits then some (int (intOf sign digits), rest) else none
      else some (float (canon (sign ++ digits ++ frac ++ exp)), rest) := by
  have hend : Starts NotDigit rest := fun c t heq => (hrest c t heq).1
  -- What is behind each part does not go on with it.
  have hexp : Starts (fun c => isDigit c = false ∧ c ≠ ofChar '.') (exp ++ rest) := by
    refine Starts.append ?_ fun _ => fun c t heq => ⟨(hrest c t heq).1, (hrest c t heq).2.1⟩
    rcases h.exp with rfl | ⟨e, expSign, ds, rfl, hletter, -⟩
    · exact fun c t heq => by cases heq
    · refine starts_cons ?_
      rcases hletter with rfl | rfl
      · exact ⟨by decide, by decide⟩
      · exact ⟨by decide, by decide⟩
  have hfrac : Starts NotDigit (frac ++ (exp ++ rest)) := by
    refine Starts.append ?_ fun _ => fun c t heq => (hexp c t heq).1
    rcases h.frac with rfl | ⟨ds, rfl, -⟩
    · exact fun c t heq => by cases heq
    · exact starts_cons (by unfold NotDigit; decide)
  have hint : Starts (fun c => c ≠ ofChar '-') (digits ++ (frac ++ (exp ++ rest))) := by
    obtain ⟨c, ds, rfl, hc, -⟩ := h.digits
    exact starts_cons (ne_of_isDigit hc (by decide))
  unfold scanNumber
  simp only [scanSign_append h.sign hint, scanInt_append h hfrac, Option.bind_eq_bind,
    Option.bind_some]
  rw [scanFrac_append h (fun c t heq => (hexp c t heq).1) fun _ => fun c t heq => (hexp c t heq).2]
  dsimp only
  rw [scanExp_append h hend fun _ => fun c t heq => (hrest c t heq).2.2]

end

/-! ## The round trip -/

/-- A value that a document can hold, as it comes back: no surrogate pairs in a text, finite floats,
integers that can be converted, and members of distinct names. -/
inductive Valid (canon : Str → Str) : Json → Prop
  | null : Valid canon null
  | bool (b : Bool) : Valid canon (bool b)
  | int {n : ℤ} (h : (decimal n.natAbs).length ≤ maxStrDigits) : Valid canon (int n)
  | float {repr : Str} (h : IsFloat canon repr) : Valid canon (float repr)
  | string {s : Str} (h : NoSurrogatePair s) : Valid canon (string s)
  | array {l : List Json} (h : ∀ v ∈ l, Valid canon v) : Valid canon (array l)
  | object {ms : Members} (hnames : (ms.map Prod.fst).Nodup)
      (htexts : ∀ m ∈ ms, NoSurrogatePair m.1) (h : ∀ m ∈ ms, Valid canon m.2) :
      Valid canon (object ms)

section

variable {canon : Str → Str}

/-- What a value starts with: neither space nor the end of an array. -/
def StartsValue (c : CodePoint) : Prop := isSpace c = false ∧ c ≠ ofChar ']'

/-- A text that reads as a value, whatever comes behind it that does not go on with a number. -/
structure ReadsAs (canon : Str → Str) (text : Str) (v : Json) : Prop where
  starts : text ≠ [] ∧ Starts StartsValue text
  scan : ∀ (n : ℕ) (rest : Str), 2 * text.length ≤ n → Starts EndsNumber rest →
    scanOnce canon n (text ++ rest) = some (v, rest)

/-- No space is skipped before a value. -/
theorem skipSpace_of_starts {s : Str} (hne : s ≠ []) (h : Starts StartsValue s) (t : Str) :
    skipSpace (s ++ t) = s ++ t := by
  cases s with
  | nil => exact absurd rfl hne
  | cons c s =>
    have hspace : isSpace c = false := (h c s rfl).1
    exact List.dropWhile_cons_of_neg (by rw [hspace]; simp)

/-- Nothing is skipped before a character that is no space. -/
theorem skipSpace_cons {c : CodePoint} (h : isSpace c = false) (t : Str) :
    skipSpace (c :: t) = c :: t := List.dropWhile_cons_of_neg (by rw [h]; simp)

/-- A blank is skipped. -/
theorem skipSpace_blank (t : Str) : skipSpace (ofChar ' ' :: t) = skipSpace t :=
  List.dropWhile_cons_of_pos (by decide)

/-- A word does not start a text with another first character. -/
theorem strip_of_ne {c d : CodePoint} (h : c ≠ d) (cs s : Str) : strip (c :: cs) (d :: s) = none :=
  if_neg h

/-- A word is taken off a text that it starts. -/
theorem strip_append (s t : Str) : strip s (s ++ t) = some t := by
  induction s with
  | nil => rfl
  | cons c s ih =>
    rw [List.cons_append, strip, if_pos rfl]
    exact ih

/-- A value that does not start with a quote, a bracket or a brace is an atom. -/
theorem scanOnce_atom {c : CodePoint} {n : ℕ} {t : Str} (hquote : c ≠ ofChar '"')
    (hbracket : c ≠ ofChar '[') (hbrace : c ≠ ofChar '\x7b') :
    scanOnce canon (n + 1) (c :: t) = scanAtom canon (c :: t) := by
  rw [scanOnce, if_neg hquote, if_neg hbracket, if_neg hbrace]

/-- A text that starts like an atom is read by `scanAtom`. -/
theorem readsAs_atom {text : Str} {v : Json} {c : CodePoint} {t : Str} (htext : text = c :: t)
    (hquote : c ≠ ofChar '"') (hbracket : c ≠ ofChar '[') (hbrace : c ≠ ofChar '\x7b')
    (hstart : StartsValue c)
    (hscan : ∀ rest, Starts EndsNumber rest → scanAtom canon (text ++ rest) = some (v, rest)) :
    ReadsAs canon text v := by
  subst htext
  refine ⟨⟨List.cons_ne_nil c t, starts_cons hstart⟩, fun n rest hn hrest => ?_⟩
  obtain ⟨m, rfl⟩ : ∃ m, n = m + 1 := ⟨n - 1, by rw [List.length_cons] at hn; omega⟩
  rw [List.cons_append, scanOnce_atom hquote hbracket hbrace]
  exact hscan rest hrest

/-- `null` is read as `None`. -/
theorem readsAs_null : ReadsAs canon (str "null") null := by
  refine readsAs_atom rfl (by decide) (by decide) (by decide)
    ⟨by decide, by decide⟩ fun rest _ => ?_
  unfold scanAtom
  rw [strip_append]

/-- `true` is read as `True`. -/
theorem readsAs_true : ReadsAs canon (str "true") (bool true) := by
  refine readsAs_atom rfl (by decide) (by decide) (by decide)
    ⟨by decide, by decide⟩ fun rest _ => ?_
  have hnull : strip (str "null") (str "true" ++ rest) = none := strip_of_ne (by decide) _ _
  unfold scanAtom
  rw [hnull, strip_append]

/-- `false` is read as `False`. -/
theorem readsAs_false : ReadsAs canon (str "false") (bool false) := by
  refine readsAs_atom rfl (by decide) (by decide) (by decide)
    ⟨by decide, by decide⟩ fun rest _ => ?_
  have hnull : strip (str "null") (str "false" ++ rest) = none := strip_of_ne (by decide) _ _
  have htrue : strip (str "true") (str "false" ++ rest) = none := strip_of_ne (by decide) _ _
  unfold scanAtom
  rw [hnull, htrue, strip_append]

/-- A number is no constant. -/
theorem scanAtom_number {sign digits frac exp : Str} (h : IsNumber sign digits frac exp)
    (rest : Str) :
    scanAtom canon (sign ++ (digits ++ (frac ++ (exp ++ rest)))) =
      scanNumber canon (sign ++ (digits ++ (frac ++ (exp ++ rest)))) := by
  obtain ⟨d, ds, rfl, hd, -⟩ := h.digits
  have hletter :
      ∀ c : CodePoint, isDigit c = false → c ≠ d := fun c hc => (ne_of_isDigit hd hc).symm
  rcases h.sign with rfl | rfl
  · unfold scanAtom
    simp only [List.nil_append, List.cons_append]
    rw [show strip (str "null") _ = none from strip_of_ne (hletter _ (by decide)) _ _,
      show strip (str "true") _ = none from strip_of_ne (hletter _ (by decide)) _ _,
      show strip (str "false") _ = none from strip_of_ne (hletter _ (by decide)) _ _,
      show strip (str "NaN") _ = none from strip_of_ne (hletter _ (by decide)) _ _,
      show strip (str "Infinity") _ = none from strip_of_ne (hletter _ (by decide)) _ _,
      show strip (str "-Infinity") _ = none from strip_of_ne (hletter _ (by decide)) _ _]
  · -- Behind the sign, a digit and not an `I`.
    have hminus : strip (str "-Infinity")
        (ofChar '-' :: d :: (ds ++ (frac ++ (exp ++ rest)))) = none := by
      have hinf : strip (str "-Infinity") (ofChar '-' :: d :: (ds ++ (frac ++ (exp ++ rest)))) =
          strip (str "Infinity") (d :: (ds ++ (frac ++ (exp ++ rest)))) := if_pos rfl
      rw [hinf]
      exact strip_of_ne (hletter _ (by decide)) _ _
    unfold scanAtom
    simp only [List.nil_append, List.cons_append]
    rw [hminus, show strip (str "null") _ = none from strip_of_ne (by decide) _ _,
      show strip (str "true") _ = none from strip_of_ne (by decide) _ _,
      show strip (str "false") _ = none from strip_of_ne (by decide) _ _,
      show strip (str "NaN") _ = none from strip_of_ne (by decide) _ _,
      show strip (str "Infinity") _ = none from strip_of_ne (by decide) _ _]

/-- A number is read as what `scanNumber` makes of its parts. -/
theorem readsAs_number {sign digits frac exp : Str} {v : Json} (h : IsNumber sign digits frac exp)
    (hscan : ∀ rest, Starts EndsNumber rest →
      scanNumber canon (sign ++ (digits ++ (frac ++ (exp ++ rest)))) = some (v, rest)) :
    ReadsAs canon (sign ++ digits ++ frac ++ exp) v := by
  have hatom : ∀ rest, Starts EndsNumber rest →
      scanAtom canon (sign ++ digits ++ frac ++ exp ++ rest) = some (v, rest) := by
    intro rest hrest
    simp only [List.append_assoc]
    rw [scanAtom_number h]
    exact hscan rest hrest
  obtain ⟨d, ds, rfl, hd, -⟩ := h.digits
  rcases h.sign with rfl | rfl
  · -- It starts with a digit, or else with the sign.
    refine readsAs_atom (List.cons_append) (ne_of_isDigit hd (by decide))
      (ne_of_isDigit hd (by decide)) (ne_of_isDigit hd (by decide)) ⟨?_, ?_⟩ hatom
    · have hbounds : 48 ≤ d.val := by
        unfold isDigit at hd
        simp at hd
        exact hd.1
      unfold isSpace
      simp
      omega
    · exact ne_of_isDigit hd (by decide)
  · exact readsAs_atom rfl (by decide) (by decide) (by decide) ⟨by decide, by decide⟩ hatom

/-- A decimal is a number without a fraction and an exponent. -/
theorem isNumber_decimal (n : ℕ) {sign : Str} (hsign : sign = [] ∨ sign = [ofChar '-']) :
    IsNumber sign (decimal n) [] [] := by
  refine ⟨hsign, ?_, .inl rfl, .inl rfl⟩
  cases hdigits : decimal n with
  | nil => exact absurd hdigits (decimal_ne_nil n)
  | cons c ds =>
    have hall : ∀ d ∈ c :: ds, isDigit d = true := by
      rw [← hdigits]
      exact fun d hd => isDigit_of_mem_decimal hd
    exact ⟨c, ds, rfl, hall c List.mem_cons_self, fun d hd => hall d (List.mem_cons_of_mem c hd),
      decimal_head hdigits⟩

/-- An integer is read back if it does not have too many digits for `int`. -/
theorem readsAs_int {n : ℤ} (hlimit : (decimal n.natAbs).length ≤ maxStrDigits) :
    ReadsAs canon (intText n) (int n) := by
  have hscan : ∀ {sign : Str}, (sign = [] ∨ sign = [ofChar '-']) →
      intOf sign (decimal n.natAbs) = n →
      ReadsAs canon (sign ++ decimal n.natAbs ++ [] ++ []) (int n) := by
    intro sign hsign hint
    refine readsAs_number (isNumber_decimal n.natAbs hsign) fun rest hrest => ?_
    rw [scanNumber_append canon (isNumber_decimal n.natAbs hsign) hrest, if_pos ⟨rfl, rfl⟩,
      if_pos hlimit, hint]
  have hnat := natOf_decimal n.natAbs
  -- The sign is written apart from the digits.
  unfold intText
  split_ifs with hneg
  · have hint : intOf [ofChar '-'] (decimal n.natAbs) = n := by
      unfold intOf
      rw [if_neg (List.cons_ne_nil _ _), hnat]
      omega
    simpa using hscan (.inr rfl) hint
  · have hint : intOf [] (decimal n.natAbs) = n := by
      unfold intOf
      rw [if_pos rfl, hnat]
      omega
    simpa using hscan (.inl rfl) hint

/-- A finite float is written as itself. -/
theorem floatText_of_isFloat {repr : Str} (h : IsFloat canon repr) : floatText repr = repr := by
  obtain ⟨-, sign, digits, frac, exp, hnumber, rfl, -⟩ := h
  obtain ⟨d, ds, rfl, hd, -⟩ := hnumber.digits
  -- A number starts with a digit or a sign, and the constants do not.
  have hne : ∀ (c : CodePoint) (cs : Str), isDigit c = false → c ≠ ofChar '-' →
      sign ++ (d :: ds) ++ frac ++ exp ≠ c :: cs := by
    intro c cs hc hminus heq
    rcases hnumber.sign with rfl | rfl
    · exact ne_of_isDigit hd hc (List.cons.inj heq).1
    · exact hminus (List.cons.inj heq).1.symm
  have hinf : sign ++ (d :: ds) ++ frac ++ exp ≠ str "-inf" := by
    intro heq
    rcases hnumber.sign with rfl | rfl
    · exact ne_of_isDigit hd (by decide) (List.cons.inj heq).1
    · exact ne_of_isDigit hd (by decide) (List.cons.inj (List.cons.inj heq).2).1
  have hnan : sign ++ (d :: ds) ++ frac ++ exp ≠ str "nan" :=
    hne (ofChar 'n') _ (by decide) (by decide)
  have hpos : sign ++ (d :: ds) ++ frac ++ exp ≠ str "inf" :=
    hne (ofChar 'i') _ (by decide) (by decide)
  unfold floatText
  rw [if_neg hnan, if_neg hpos, if_neg hinf]

/-- A float is read back if its text is the one that `repr` gives. -/
theorem readsAs_float {repr : Str} (h : IsFloat canon repr) : ReadsAs canon repr (float repr) := by
  obtain ⟨hcanon, sign, digits, frac, exp, hnumber, rfl, hfloat⟩ := h
  refine readsAs_number hnumber fun rest hrest => ?_
  have hne : ¬(frac = [] ∧ exp = []) := by
    rintro ⟨hfrac, hexp⟩
    exact hfloat.elim (fun h => h hfrac) fun h => h hexp
  rw [scanNumber_append canon hnumber hrest, if_neg hne, hcanon]

/-- A string is read back if no surrogate pair is in it. -/
theorem readsAs_string {s : Str} (h : NoSurrogatePair s) :
    ReadsAs canon (dumpsString s) (string s) := by
  refine ⟨⟨List.cons_ne_nil _ _, starts_cons ⟨by decide, by decide⟩⟩, fun n rest hn _ => ?_⟩
  obtain ⟨m, rfl⟩ : ∃ m, n = m + 1 := ⟨n - 1, by unfold dumpsString at hn; simp at hn; omega⟩
  unfold dumpsString
  rw [List.cons_append, scanOnce, if_pos rfl, List.append_assoc, List.singleton_append,
    scanString_dumps h]
  rfl

/-! ### Arrays -/

/-- The elements of an array read one after the other, up to the bracket. -/
theorem scanElements_intercalate {l : List Json} {ts : List Str} (hne : l ≠ [])
    (h : List.Forall₂ (ReadsAs canon) ts l) :
    ((str ", ").intercalate ts ≠ [] ∧ Starts StartsValue ((str ", ").intercalate ts)) ∧
      ∀ (n : ℕ) (rest : Str), 2 * ((str ", ").intercalate ts).length + 1 ≤ n →
        scanElements canon n ((str ", ").intercalate ts ++ ofChar ']' :: rest) =
          some (l, rest) := by
  induction h with
  | nil => exact absurd rfl hne
  | @cons t v ts l hv hl ih =>
    have hbracket : ∀ (m : ℕ) (rest : Str), 2 * t.length ≤ m →
        scanOnce canon m (t ++ ofChar ']' :: rest) = some (v, ofChar ']' :: rest) :=
      fun m rest hm => hv.scan m _ hm (starts_cons ⟨by decide, by decide, by decide, by decide⟩)
    cases hl with
    | nil =>
      -- The last element, with the bracket behind it.
      rw [List.intercalate_singleton]
      refine ⟨hv.starts, fun n rest hn => ?_⟩
      obtain ⟨m, rfl⟩ : ∃ m, n = m + 1 := ⟨n - 1, by omega⟩
      rw [scanElements, hbracket m rest (by omega)]
      simp only [Option.bind_eq_bind, Option.bind_some]
      rw [skipSpace_cons (by decide)]
      dsimp only
      rw [if_pos rfl]
    | @cons t' v' ts l hv' hl =>
      obtain ⟨⟨hnext, hstart⟩, hscan⟩ := ih (List.cons_ne_nil _ _)
      rw [List.intercalate_cons_cons]
      refine ⟨⟨?_, ?_⟩, fun n rest hn => ?_⟩
      · simp [hv.starts.1]
      · rw [List.append_assoc]
        exact hv.starts.2.append fun hnil => absurd hnil hv.starts.1
      · -- An element, a comma and the others.
        set body := (str ", ").intercalate (t' :: ts) with hbody
        obtain ⟨m, rfl⟩ : ∃ m, n = m + 1 := ⟨n - 1, by omega⟩
        have hlen : (t ++ str ", " ++ body).length = t.length + 2 + body.length := by
          rw [List.length_append, List.length_append]
          rfl
        have hcomma : scanOnce canon m (t ++ str ", " ++ body ++ ofChar ']' :: rest) =
            some (v, ofChar ',' :: ofChar ' ' :: (body ++ ofChar ']' :: rest)) := by
          rw [List.append_assoc, List.append_assoc]
          exact hv.scan m _ (by omega) (starts_cons ⟨by decide, by decide, by decide, by decide⟩)
        rw [scanElements, hcomma]
        simp only [Option.bind_eq_bind, Option.bind_some]
        rw [skipSpace_cons (by decide)]
        dsimp only
        rw [if_neg (by decide), if_pos rfl, skipSpace_blank, skipSpace_of_starts hnext hstart,
          hscan m rest (by omega)]
        rfl

/-! ### Objects -/

/-- The text of a member. -/
def memberText (name text : Str) : Str := dumpsString name ++ str ": " ++ text

/-- The text of a member reads as its name and its value. -/
theorem scanMembers_member {name text : Str} {v : Json} (hname : NoSurrogatePair name)
    (hv : ReadsAs canon text v) {n : ℕ} {c : CodePoint} {t : Str} (hn : 2 * text.length ≤ n)
    (hc : EndsNumber c) (hspace : isSpace c = false) :
    scanMembers canon (n + 1) (memberText name text ++ c :: t) =
      if c = ofChar '\x7d' then some ([(name, v)], t)
      else if c = ofChar ',' then
        (scanMembers canon n (skipSpace t)).map fun p => ((name, v) :: p.1, p.2)
      else none := by
  -- The member begins with the quote of its name.
  have htext : memberText name text ++ c :: t =
      ofChar '"' :: (name.flatMap escape ++ ofChar '"' ::
        (ofChar ':' :: ofChar ' ' :: (text ++ c :: t))) := by
    unfold memberText dumpsString
    simp [str]
  have hquote : strip (str "\"") (memberText name text ++ c :: t) =
      some (name.flatMap escape ++ ofChar '"' ::
        (ofChar ':' :: ofChar ' ' :: (text ++ c :: t))) := by
    rw [htext]
    exact if_pos rfl
  have hcolon : strip (str ":") (ofChar ':' :: ofChar ' ' :: (text ++ c :: t)) =
      some (ofChar ' ' :: (text ++ c :: t)) := if_pos rfl
  rw [scanMembers, hquote]
  simp only [Option.bind_eq_bind, Option.bind_some]
  rw [scanString_dumps hname]
  simp only [Option.bind_some]
  rw [skipSpace_cons (by decide), hcolon]
  simp only [Option.bind_some]
  rw [skipSpace_blank, skipSpace_of_starts hv.starts.1 hv.starts.2,
    hv.scan n (c :: t) hn (starts_cons hc)]
  simp only [Option.bind_some]
  rw [skipSpace_cons hspace]

/-- The members of an object read one after the other, up to the brace. -/
theorem scanMembers_intercalate {ms : Members} {ts : List Str} (hne : ms ≠ [])
    (h : List.Forall₂ (fun t (m : Str × Json) => ∃ text, t = memberText m.1 text ∧
      NoSurrogatePair m.1 ∧ ReadsAs canon text m.2) ts ms) :
    (∃ t, (str ", ").intercalate ts = ofChar '"' :: t) ∧
      ∀ (n : ℕ) (rest : Str), 2 * ((str ", ").intercalate ts).length + 1 ≤ n →
        scanMembers canon n ((str ", ").intercalate ts ++ ofChar '\x7d' :: rest) =
          some (ms, rest) := by
  induction h with
  | nil => exact absurd rfl hne
  | @cons t m ts ms hm hms ih =>
    obtain ⟨text, rfl, hname, hv⟩ := hm
    have hlen : 2 * text.length ≤ 2 * (memberText m.1 text).length := by
      unfold memberText
      rw [List.length_append]
      omega
    cases hms with
    | nil =>
      -- The last member, with the brace behind it.
      rw [List.intercalate_singleton]
      refine ⟨⟨_, rfl⟩, fun n rest hn => ?_⟩
      obtain ⟨k, rfl⟩ : ∃ k, n = k + 1 := ⟨n - 1, by omega⟩
      rw [scanMembers_member hname hv (by omega) ⟨by decide, by decide, by decide, by decide⟩
        (by decide), if_pos rfl]
    | @cons t' m' ts ms hm' hms =>
      obtain ⟨⟨tail, htail⟩, hscan⟩ := ih (List.cons_ne_nil _ _)
      rw [List.intercalate_cons_cons]
      set body := (str ", ").intercalate (t' :: ts) with hbody
      refine ⟨⟨_, rfl⟩, fun n rest hn => ?_⟩
      obtain ⟨k, rfl⟩ : ∃ k, n = k + 1 := ⟨n - 1, by omega⟩
      have hlen' : (memberText m.1 text ++ str ", " ++ body).length =
          (memberText m.1 text).length + 2 + body.length := by
        rw [List.length_append, List.length_append]
        rfl
      have htexts : memberText m.1 text ++ str ", " ++ body ++ ofChar '\x7d' :: rest =
          memberText m.1 text ++ ofChar ',' ::
            (ofChar ' ' :: (body ++ ofChar '\x7d' :: rest)) := by
        simp [str]
      rw [htexts, scanMembers_member hname hv (by omega)
        ⟨by decide, by decide, by decide, by decide⟩ (by decide), if_neg (by decide), if_pos rfl,
        skipSpace_blank]
      -- Behind the comma and its blank the next member begins, with a quote.
      have hskip : skipSpace (body ++ ofChar '\x7d' :: rest) = body ++ ofChar '\x7d' :: rest := by
        rw [htail]
        exact skipSpace_cons (by decide) _
      rw [hskip, hscan k rest (by omega)]
      rfl

/-- The pairs of distinct names are the members of the dictionary. -/
theorem dictOf_of_nodup {ms : Members} (h : (ms.map Prod.fst).Nodup) : dictOf ms = ms := by
  have hfold : ∀ (ms acc : Members), ((acc ++ ms).map Prod.fst).Nodup →
      ms.foldl (fun ms m => ms.set m.1 m.2) acc = acc ++ ms := by
    intro ms
    induction ms with
    | nil => intro acc _; simp
    | cons m ms ih =>
      intro acc hnodup
      -- The name is new, so `set` appends the member.
      have hnew : acc.any (fun a => a.1 = m.1) = false := by
        rw [List.any_eq_false]
        intro a ha heq
        rw [List.map_append, List.nodup_append] at hnodup
        exact hnodup.2.2 a.1 (List.mem_map_of_mem ha) m.1 (by simp) (of_decide_eq_true heq)
      have hset : Members.set acc m.1 m.2 = acc ++ [m] := by
        unfold Members.set
        rw [if_neg (by rw [hnew]; simp)]
      have happend : acc ++ m :: ms = acc ++ [m] ++ ms := by simp
      rw [List.foldl_cons, hset, happend]
      exact ih (acc ++ [m]) (by rw [← happend]; exact hnodup)
  exact hfold ms [] h

/-! ### Values -/

/-- A list is read back if its elements are. -/
theorem readsAs_array {l : List Json} {ts : List Str} (h : List.Forall₂ (ReadsAs canon) ts l) :
    ReadsAs canon (ofChar '[' :: ((str ", ").intercalate ts ++ [ofChar ']'])) (array l) := by
  refine ⟨⟨List.cons_ne_nil _ _, starts_cons ⟨by decide, by decide⟩⟩, fun n rest hn _ => ?_⟩
  obtain ⟨m, rfl⟩ : ∃ m, n = m + 1 := ⟨n - 1, by rw [List.length_cons] at hn; omega⟩
  rw [List.cons_append, scanOnce, if_neg (by decide), if_pos rfl, List.append_assoc,
    List.singleton_append]
  cases l with
  | nil =>
    cases h
    have hclose : strip (str "]") (skipSpace (ofChar ']' :: rest)) = some rest := by
      rw [skipSpace_cons (by decide)]
      exact if_pos rfl
    rw [List.intercalate_nil, List.nil_append, hclose]
  | cons v l =>
    obtain ⟨⟨hne, hstart⟩, hscan⟩ := scanElements_intercalate (List.cons_ne_nil v l) h
    -- A value does not start with a bracket, so the array is not empty.
    have hopen : strip (str "]") ((str ", ").intercalate ts ++ ofChar ']' :: rest) = none := by
      cases hbody : (str ", ").intercalate ts with
      | nil => exact absurd hbody hne
      | cons c t => exact strip_of_ne (hstart c t hbody).2.symm _ _
    rw [skipSpace_of_starts hne hstart, hopen, hscan m rest]
    · rfl
    · rw [List.length_cons, List.length_append, List.length_singleton] at hn
      omega

/-- A dictionary is read back if its members are, and no name is there twice. -/
theorem readsAs_object {ms : Members} {ts : List Str} (hnames : (ms.map Prod.fst).Nodup)
    (h : List.Forall₂ (fun t (m : Str × Json) => ∃ text, t = memberText m.1 text ∧
      NoSurrogatePair m.1 ∧ ReadsAs canon text m.2) ts ms) :
    ReadsAs canon (ofChar '\x7b' :: ((str ", ").intercalate ts ++ [ofChar '\x7d']))
      (object ms) := by
  refine ⟨⟨List.cons_ne_nil _ _, starts_cons ⟨by decide, by decide⟩⟩, fun n rest hn _ => ?_⟩
  obtain ⟨m, rfl⟩ : ∃ m, n = m + 1 := ⟨n - 1, by rw [List.length_cons] at hn; omega⟩
  rw [List.cons_append, scanOnce, if_neg (by decide), if_neg (by decide), if_pos rfl,
    List.append_assoc, List.singleton_append]
  cases ms with
  | nil =>
    cases h
    have hclose : strip [ofChar '\x7d'] (skipSpace (ofChar '\x7d' :: rest)) = some rest := by
      rw [skipSpace_cons (by decide)]
      exact if_pos rfl
    rw [List.intercalate_nil, List.nil_append, hclose]
  | cons v ms =>
    obtain ⟨⟨t, ht⟩, hscan⟩ := scanMembers_intercalate (List.cons_ne_nil v ms) h
    have hskip : skipSpace ((str ", ").intercalate ts ++ ofChar '\x7d' :: rest) =
        (str ", ").intercalate ts ++ ofChar '\x7d' :: rest := by
      rw [ht]
      exact skipSpace_cons (by decide) _
    -- A member starts with a quote, so the object is not empty.
    have hopen : strip [ofChar '\x7d'] ((str ", ").intercalate ts ++ ofChar '\x7d' :: rest) =
        none := by
      rw [ht]
      exact strip_of_ne (by decide) _ _
    rw [hskip, hopen, hscan m rest]
    · rw [Option.map_some, dictOf_of_nodup hnames]
    · rw [List.length_cons, List.length_append, List.length_singleton] at hn
      omega

/-- The elements of a list are all written, and read back, if each is. -/
theorem dumpsElements_readsAs {l : List Json}
    (h : ∀ v ∈ l, ∃ text, dumps v = some text ∧ ReadsAs canon text v) :
    ∃ ts, dumpsElements l = some ts ∧ List.Forall₂ (ReadsAs canon) ts l := by
  induction l with
  | nil => exact ⟨[], by rw [dumpsElements], .nil⟩
  | cons v l ih =>
    obtain ⟨t, ht, hv⟩ := h v List.mem_cons_self
    obtain ⟨ts, hts, hl⟩ := ih fun v hv => h v (List.mem_cons_of_mem _ hv)
    refine ⟨t :: ts, ?_, .cons hv hl⟩
    rw [dumpsElements, ht, hts]
    rfl

/-- The members of a dictionary are all written, and read back, if each is. -/
theorem dumpsMembers_readsAs {ms : Members} (htexts : ∀ m ∈ ms, NoSurrogatePair m.1)
    (h : ∀ m ∈ ms, ∃ text, dumps m.2 = some text ∧ ReadsAs canon text m.2) :
    ∃ ts, dumpsMembers ms = some ts ∧
      List.Forall₂ (fun t (m : Str × Json) => ∃ text, t = memberText m.1 text ∧
        NoSurrogatePair m.1 ∧ ReadsAs canon text m.2) ts ms := by
  induction ms with
  | nil => exact ⟨[], by rw [dumpsMembers], .nil⟩
  | cons m ms ih =>
    obtain ⟨t, ht, hv⟩ := h m List.mem_cons_self
    obtain ⟨ts, hts, hms⟩ := ih (fun m hm => htexts m (List.mem_cons_of_mem _ hm))
      fun m hm => h m (List.mem_cons_of_mem _ hm)
    refine ⟨memberText m.1 t :: ts, ?_, .cons ⟨t, rfl, htexts m List.mem_cons_self, hv⟩ hms⟩
    rw [dumpsMembers, ht, hts]
    rfl

/-- A value is written as a text that reads as the value. -/
theorem dumps_readsAs {v : Json} (h : Valid canon v) :
    ∃ text, dumps v = some text ∧ ReadsAs canon text v := by
  induction h with
  | null => exact ⟨_, by rw [dumps], readsAs_null⟩
  | bool b =>
    cases b with
    | true => exact ⟨_, by rw [dumps], readsAs_true⟩
    | false => exact ⟨_, by rw [dumps], readsAs_false⟩
  | int hlimit => exact ⟨_, by rw [dumps, if_pos hlimit], readsAs_int hlimit⟩
  | @float repr hfloat =>
    refine ⟨repr, ?_, readsAs_float hfloat⟩
    rw [dumps, floatText_of_isFloat hfloat]
  | string hs => exact ⟨_, by rw [dumps], readsAs_string hs⟩
  | @array l _ ih =>
    obtain ⟨ts, hts, hl⟩ := dumpsElements_readsAs ih
    exact ⟨_, by rw [dumps, hts]; rfl, readsAs_array hl⟩
  | @object ms hnames htexts _ ih =>
    obtain ⟨ts, hts, hms⟩ := dumpsMembers_readsAs htexts ih
    exact ⟨_, by rw [dumps, hts]; rfl, readsAs_object hnames hms⟩

/-- A member that cannot be written. -/
theorem dumps_object_eq_none {ms : Members} (h : ∃ m ∈ ms, dumps m.2 = none) :
    dumps (object ms) = none := by
  have hmembers : dumpsMembers ms = none := by
    obtain ⟨m, hm, hnone⟩ := h
    induction ms with
    | nil => cases hm
    | cons n ms ih =>
      rw [dumpsMembers]
      rcases List.mem_cons.1 hm with rfl | hm
      · rw [hnone]
        rfl
      · rw [ih hm]
        exact Option.bind_fun_none _
  rw [dumps, hmembers]
  rfl

/-- An integer of too many digits cannot be written. -/
theorem dumps_int_eq_none {n : ℤ} (h : 10 ^ maxStrDigits ≤ n.natAbs) : dumps (int n) = none := by
  have hlong : ¬(decimal n.natAbs).length ≤ maxStrDigits := by
    intro hle
    unfold decimal at hle
    rw [List.length_map] at hle
    have hpos : 0 < maxStrDigits := by unfold maxStrDigits; omega
    exact absurd ((Nat.length_toDigits_le_iff (by omega) hpos).1 hle) (Nat.not_lt.2 h)
  rw [dumps, if_neg hlong]

/-- What is written is read back. -/
theorem loads_dumps {v : Json} (h : Valid canon v) : (dumps v).bind (loads canon) = some v := by
  obtain ⟨text, htext, hreads⟩ := dumps_readsAs h
  have hskip : skipSpace text = text := by
    simpa using skipSpace_of_starts hreads.starts.1 hreads.starts.2 []
  -- The fuel of `loads` is enough for the text.
  have hscan : scanOnce canon (2 * text.length + 2) text = some (v, []) := by
    have hnil : Starts EndsNumber [] := fun c t heq => by cases heq
    simpa using hreads.scan (2 * text.length + 2) [] (by omega) hnil
  rw [htext, Option.bind_some]
  unfold loads
  rw [hskip, hscan]
  simp only [Option.bind_eq_bind, Option.bind_some]
  exact if_pos rfl

end

end Json
