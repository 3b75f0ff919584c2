import Vumi2.Lib.Text
import Mathlib.Data.List.Basic

/-!
# Lower case

`str.lower`, over a table of the case of the characters. A character is replaced on its own, except
a capital sigma, whose lower case is another one at the end of a word. A character that `Bounds`
words, such as the underscore, is not changed, does not come from another character, and hides what
is on its one side from a sigma on the other. So texts that it joins are changed one by one
(`lowerStr_intercalate`), and the joined text stays as it is only if each of them does
(`lowerStr_intercalate_eq_iff`).
-/

namespace Text

/-- What the Unicode database says of the case of the characters. -/
structure CaseTable where
  /-- The lower case of a character, which may be several. -/
  lower : CodePoint → Str
  cased : CodePoint → Bool
  caseIgnorable : CodePoint → Bool

namespace CaseTable

/-- Whether the first character that is not case-ignorable is cased. -/
def leadsCased (T : CaseTable) (s : Str) : Bool :=
  (s.find? fun c => !T.caseIgnorable c).any T.cased

/-- The lower case of a capital sigma between two texts, the first of them reversed. -/
def lowerSigma (T : CaseTable) (before rest : Str) : CodePoint :=
  if T.leadsCased before && !T.leadsCased rest then ofChar 'ς' else ofChar 'σ'

/-- `str.lower` from a character on, after a text that is reversed. -/
def lowerFrom (T : CaseTable) : Str → Str → Str
  | _, [] => []
  | before, c :: rest =>
    -- A sigma at the end of a word has a form of its own.
    (if c = ofChar 'Σ' then [T.lowerSigma before rest] else T.lower c) ++
      T.lowerFrom (c :: before) rest

/-- `str.lower`. -/
def lowerStr (T : CaseTable) (s : Str) : Str := T.lowerFrom [] s

/-- An ASCII character that is its own lower case, and that of no other character. -/
structure Fixes (T : CaseTable) (d : CodePoint) : Prop where
  ascii : d.val < 128
  lower_self : T.lower d = [d]
  of_mem : ∀ c : CodePoint, d ∈ T.lower c → c = d

/-- Such a character that no word goes over. -/
structure Bounds (T : CaseTable) (d : CodePoint) : Prop extends T.Fixes d where
  not_cased : T.cased d = false
  not_ignorable : T.caseIgnorable d = false

variable {T : CaseTable} {d : CodePoint}

/-! ## The characters of a text -/

/-- A fixed character is not one from outside ASCII. -/
theorem Fixes.ne_of_le (h : T.Fixes d) {c : CodePoint} (hc : 128 ≤ c.val) : c ≠ d := by
  rintro rfl
  have hlt := h.ascii
  omega

/-- A fixed character is no sigma. -/
theorem Fixes.ne_sigma (h : T.Fixes d) : d ≠ ofChar 'Σ' := (h.ne_of_le (by decide)).symm

/-- A sigma does not become a fixed character. -/
theorem Fixes.lowerSigma_ne (h : T.Fixes d) (before rest : Str) : T.lowerSigma before rest ≠ d := by
  unfold lowerSigma
  split_ifs
  · exact h.ne_of_le (by decide)
  · exact h.ne_of_le (by decide)

/-- Such a character comes from itself alone. -/
theorem count_lowerFrom (h : T.Fixes d) (before s : Str) :
    (T.lowerFrom before s).count d = s.count d := by
  induction s generalizing before with
  | nil => rfl
  | cons c rest ih =>
    have hhead : (if c = ofChar 'Σ' then [T.lowerSigma before rest] else T.lower c).count d =
        [c].count d := by
      split_ifs with hsigma
      · rw [hsigma, List.count_singleton, List.count_singleton,
          if_neg (by simpa using h.lowerSigma_ne before rest),
          if_neg (by simpa using h.ne_sigma.symm)]
      · by_cases hc : c = d
        · rw [hc, h.lower_self]
        · have hnot : d ∉ T.lower c := fun hmem => hc (h.of_mem c hmem)
          rw [List.count_eq_zero.2 hnot, List.count_singleton, if_neg (by simpa using hc)]
    rw [lowerFrom, List.count_append, hhead, ih, ← List.count_append]
    rfl

/-- A fixed character stands as often in the lower case of a text. -/
theorem count_lowerStr (h : T.Fixes d) (s : Str) : (T.lowerStr s).count d = s.count d :=
  count_lowerFrom h [] s

/-- A fixed character is in the lower case of a text if it is in the text. -/
theorem mem_lowerStr (h : T.Fixes d) (s : Str) : d ∈ T.lowerStr s ↔ d ∈ s := by
  rw [← List.count_pos_iff, count_lowerStr h, List.count_pos_iff]

/-! ## Words -/

/-- What is beyond a boundary is not looked at. -/
theorem leadsCased_append (h : T.Bounds d) (a b : Str) :
    T.leadsCased (a ++ d :: b) = T.leadsCased a := by
  unfold leadsCased
  rw [List.find?_append]
  cases a.find? fun c => !T.caseIgnorable c with
  | some c => rfl
  | none =>
    have hfind : (d :: b).find? (fun c => !T.caseIgnorable c) = some d := by
      rw [List.find?_cons, h.not_ignorable]
      rfl
    rw [Option.none_or, hfind, Option.any_some, h.not_cased]
    rfl

/-- Nor is it behind a boundary. -/
theorem lowerFrom_of_bounds (h : T.Bounds d) (before y s : Str) :
    T.lowerFrom (before ++ d :: y) s = T.lowerFrom before s := by
  induction s generalizing before with
  | nil => rfl
  | cons c rest ih =>
    have hsigma : T.lowerSigma (before ++ d :: y) rest = T.lowerSigma before rest := by
      unfold lowerSigma
      rw [leadsCased_append h]
    rw [lowerFrom, lowerFrom, hsigma, ← List.cons_append, ih]

/-- A boundary splits the lower case of a text as it splits the text. -/
theorem lowerFrom_append (h : T.Bounds d) (before a b : Str) :
    T.lowerFrom before (a ++ d :: b) = T.lowerFrom before a ++ d :: T.lowerStr b := by
  induction a generalizing before with
  | nil =>
    have hbehind := lowerFrom_of_bounds h [] before b
    rw [List.nil_append, lowerFrom, lowerFrom, if_neg h.ne_sigma, h.lower_self]
    exact congrArg (d :: ·) hbehind
  | cons c a ih =>
    have hsigma : T.lowerSigma before (a ++ d :: b) = T.lowerSigma before a := by
      unfold lowerSigma
      rw [leadsCased_append h]
    rw [List.cons_append, lowerFrom, hsigma, ih, lowerFrom, List.append_assoc]

/-- The texts on the two sides of a boundary are changed on their own. -/
theorem lowerStr_append (h : T.Bounds d) (a b : Str) :
    T.lowerStr (a ++ d :: b) = T.lowerStr a ++ d :: T.lowerStr b := lowerFrom_append h [] a b

/-- So are all the texts that it joins. -/
theorem lowerStr_intercalate (h : T.Bounds d) (parts : List Str) :
    T.lowerStr ([d].intercalate parts) = [d].intercalate (parts.map T.lowerStr) := by
  induction parts with
  | nil => rfl
  | cons s parts ih =>
    cases parts with
    | nil => simp
    | cons s' parts =>
      rw [List.intercalate_cons_cons, List.append_assoc, List.singleton_append, lowerStr_append h,
        ih, List.map_cons, List.map_cons, List.map_cons, List.intercalate_cons_cons,
        List.append_assoc, List.singleton_append]

/-- Two texts that are cut at the same boundary are equal part by part. -/
theorem append_cons_inj {a a' b b' : Str} (hcount : a.count d = a'.count d)
    (h : a ++ d :: b = a' ++ d :: b') : a = a' ∧ b = b' := by
  induction a generalizing a' with
  | nil =>
    cases a' with
    | nil => exact ⟨rfl, (List.cons.inj h).2⟩
    | cons c a' =>
      -- The second text would have the boundary once more.
      have hc : d = c := (List.cons.inj h).1
      rw [← hc, List.count_cons_self] at hcount
      exact absurd hcount (by simp)
  | cons c a ih =>
    cases a' with
    | nil =>
      have hc : c = d := (List.cons.inj h).1
      rw [hc, List.count_cons_self] at hcount
      exact absurd hcount (by simp)
    | cons c' a' =>
      obtain ⟨hc, hrest⟩ := List.cons.inj h
      rw [hc, List.count_cons, List.count_cons] at hcount
      obtain ⟨ha, hb⟩ := ih (Nat.add_right_cancel hcount) hrest
      exact ⟨by rw [hc, ha], hb⟩

/-- Joined texts are in lower case exactly if each of them is. -/
theorem lowerStr_intercalate_eq_iff (h : T.Bounds d) (parts : List Str) :
    T.lowerStr ([d].intercalate parts) = [d].intercalate parts ↔
      ∀ s ∈ parts, T.lowerStr s = s := by
  rw [lowerStr_intercalate h]
  induction parts with
  | nil => simp
  | cons s parts ih =>
    cases parts with
    | nil => simp
    | cons s' parts =>
      rw [List.map_cons, List.map_cons, List.intercalate_cons_cons, List.intercalate_cons_cons,
        List.append_assoc, List.append_assoc, List.singleton_append, List.singleton_append,
        List.forall_mem_cons, ← ih, List.map_cons]
      constructor
      · exact append_cons_inj (count_lowerStr h.toFixes s)
      · rintro ⟨hs, hparts⟩
        rw [hs, hparts]

end CaseTable

end Text
