import Vumi2.Lib.StreamDecoder
import Vumi2.Lib.Jisx0208

/-!
# The codec `iso2022_jp`, and which texts survive being cut

ISO-2022-JP has three character sets, ASCII, the Roman set of JIS X 0201, and a set of two-octet
characters. An escape sequence designates the set of what follows, and a text starts and ends in
ASCII. The decoder is the one of Python's standard library: it also takes the designations of the
sets that it ignores, it knows escape sequences of up to 15 octets, and an escape that starts none
of them is put out as it is, with all that follows it up to the next final octet.

`restarting_iff` says which texts survive being cut after every `size` octets. `Whole` is the
condition: it walks through the text with the position in the chunk and the set in force, and asks
of each character that the cuts around it do no harm.
-/

namespace Iso2022jp

open Text Decoder

/-- A set of two-octet characters. -/
structure DoubleByte where
  /-- The character of two octets. -/
  dec : UInt8 → UInt8 → Option CodePoint
  /-- The octets of a character. -/
  enc : CodePoint → Option (UInt8 × UInt8)
  /-- The set has no ASCII character. -/
  le_of_dec : ∀ a b c, dec a b = some c → 0x80 ≤ c.val
  /-- The octets of a character stand for it, and the first one is graphic. -/
  enc_some : ∀ c a b, enc c = some (a, b) → dec a b = some c ∧ 0x21 ≤ a.toNat ∧ a.toNat < 0x7F

/-- The kanji set of `iso2022_jp`. -/
def kanji : DoubleByte where
  dec := Jisx0208.decode
  enc := Jisx0208.encode
  le_of_dec _ _ _ := Jisx0208.le_of_decode
  enc_some _ _ _ := Jisx0208.encode_some

/-- The character sets. -/
inductive Charset where
  | ascii
  | roman
  | double
deriving DecidableEq, Repr

/-- `ESC`. -/
def escape : CodePoint := 0x1B

/-- The octets that start an escape sequence after `ESC`: `$`, `&`, `(`, `)` and `.`. -/
def introducers : List ℕ := [0x24, 0x26, 0x28, 0x29, 0x2E]

/-- The octets that end an escape sequence: `@` and `A` to `Z`. -/
def IsFinal (n : ℕ) : Prop := 0x40 ≤ n ∧ n ≤ 0x5A

instance (n : ℕ) : Decidable (IsFinal n) := inferInstanceAs (Decidable (_ ∧ _))

/-- The octets of an escape sequence, without the `ESC`, that designates a set. -/
def designator : Charset → Bytes
  | .ascii => [0x28, 0x42]
  | .roman => [0x28, 0x4A]
  | .double => [0x24, 0x42]

/-- The set in force after an escape sequence, or `none` for an unknown one. The designations of a
second set change nothing. -/
def designate (g : Charset) (sequence : Bytes) : Option Charset :=
  match sequence with
  | [0x28, 0x42] => some .ascii
  | [0x28, 0x4A] => some .roman
  | [0x29, 0x42] | [0x29, 0x4A] => some g
  | [0x24, 0x40] | [0x24, 0x42] | [0x24, 0x28, 0x40] | [0x24, 0x28, 0x42] => some .double
  | [0x24, 0x29, 0x40] | [0x24, 0x29, 0x42] => some g
  | [_, _, 0x1B, 0x24, 0x42] => some .double
  | _ => none

/-- A designator designates its set, whatever was designated before. -/
theorem designate_designator (g g' : Charset) : designate g (designator g') = some g' := by
  cases g' with
  | ascii => rfl
  | roman => rfl
  | double => rfl

/-! ## The encoder -/

section

variable (T : DoubleByte)

/-- The set of a character and its octets there. -/
def word (c : CodePoint) : Option (Charset × Bytes) :=
  if c.val < 0x80 then some (.ascii, [toByte c])
  else
    match T.enc c with
    | some (a, b) => some (.double, [a, b])
    | none =>
      if c.val = 0xA5 then some (.roman, [0x5C])
      else if c.val = 0x203E then some (.roman, [0x7E])
      else none

/-- What changes the set in force from `g` to `g'`. -/
def shift (g g' : Charset) : Bytes := if g' = g then [] else 0x1B :: designator g'

/-- Encodes a text when the set `g` is in force. -/
def encodeFrom : Charset → Str → Option Bytes
  | g, [] => some (shift g .ascii)
  | g, c :: cs =>
    match word T c with
    | none => none
    | some (g', w) => (encodeFrom g' cs).map (shift g g' ++ w ++ ·)

/-- Encodes a text. -/
def encode (s : Str) : Option Bytes := encodeFrom T .ascii s

end

/-! ## The decoder -/

/-- Where the decoder stands, with the set in force. -/
inductive State where
  /-- Between characters. -/
  | text (g : Charset)
  /-- After an `ESC`. -/
  | escape (g : Charset)
  /-- In an escape sequence, of which `sequence` was read: whether one more octet belongs to it in
  any case, and whether an `&` was read last. -/
  | sequence (g : Charset) (sequence : Bytes) (skip : Bool) (ampersand : Bool)
  /-- After an escape that starts no sequence, up to the next final octet. -/
  | through (g : Charset)
  /-- After the first octet of a two-octet character. -/
  | lead (a : UInt8)
deriving DecidableEq, Repr

/-- The character of an octet of the Roman set. -/
def romanChar (b : UInt8) : CodePoint :=
  if b.toNat = 0x5C then 0xA5 else if b.toNat = 0x7E then 0x203E else ofByte b

/-- Takes an octet into an escape sequence that goes on. -/
def extend (g : Charset) (sequence : Bytes) (skip ampersand : Bool) : Option (State × Str) :=
  if sequence.length < 15 then some (.sequence g sequence skip ampersand, []) else none

/-- The state after an octet that is put out as it is. -/
def passed (g : Charset) (n : ℕ) : State := if IsFinal n then .text g else .through g

/-- `iso2022_jp`, over a set of two-octet characters. -/
def decoder (T : DoubleByte) : Decoder State UInt8 CodePoint where
  init := .text .ascii
  step
    | .text g, b =>
      if b.toNat = 0x1B then some (.escape g, [])
      else if b.toNat < 0x20 then some (.text g, [ofByte b])
      else if 0x80 ≤ b.toNat then none
      else
        match g with
        | .ascii => some (.text g, [ofByte b])
        | .roman => some (.text g, [romanChar b])
        | .double => some (.lead b, [])
    | .escape g, b =>
      if b.toNat ∈ introducers then some (.sequence g [b] false (b.toNat = 0x26), [])
      else some (passed g b.toNat, [Iso2022jp.escape, ofByte b])
    | .sequence g s skip ampersand, b =>
      if skip then extend g (s ++ [b]) false false
      else if ampersand ∧ b.toNat = 0x40 then extend g (s ++ [b]) true false
      else if IsFinal b.toNat then (designate g (s ++ [b])).map fun g' => (.text g', [])
      else extend g (s ++ [b]) false (b.toNat = 0x26)
    | .through g, b => some (passed g b.toNat, [ofByte b])
    | .lead a, b => (T.dec a b).map fun c => (.text .double, [c])
  done
    | .text _ => true
    | .through _ => true
    | _ => false

/-! ## Texts that survive being cut -/

/-- Where an encoded text stands between characters. -/
inductive Phase where
  /-- No escape is open. -/
  | text
  /-- After an `ESC` of the text. -/
  | escape
  /-- After an `ESC` of the text that started no sequence, before the next final octet. -/
  | through
deriving DecidableEq, Repr

/-- The phase after an ASCII character that is put out as it is, at the position `k` of a chunk. -/
def Phase.passed (size k n : ℕ) : Phase := if IsFinal n ∨ k = size then .text else .through

/-- The rest of a text survives being cut, when `k` octets of its chunk came before it and the set
`g` is in force. No cut may fall inside a designation or a character, none may separate a character
of a shifted set from its designation, and an `ESC` must be followed in its chunk by an ASCII
character that starts no sequence with it, and by no character of a shifted set before the next
final octet in the chunk. -/
def Whole (T : DoubleByte) (size : ℕ) : Phase → ℕ → Charset → Str → Prop
  | phase, k, g, [] => phase ≠ .escape ∧ offset size k + (shift g .ascii).length ≤ size
  | .text, k, g, c :: cs =>
    match word T c with
    | none => False
    | some (g', w) =>
      let shifted := offset size k + (shift g g').length
      let start := offset size shifted
      shifted ≤ size ∧
        if g' = .ascii then
          Whole T size (if c = escape then .escape else .text) (start + 1) g' cs
        else
          0 < start ∧ start + w.length ≤ size ∧ Whole T size .text (start + w.length) g' cs
  | .escape, k, g, c :: cs =>
    k < size ∧ c.val < 0x80 ∧ c.val ∉ introducers ∧
      Whole T size (.passed size (k + 1) c.val) (k + 1) g cs
  | .through, k, g, c :: cs =>
    c.val < 0x80 ∧ Whole T size (.passed size (k + 1) c.val) (k + 1) g cs

/-- Whether a text survives being cut can be computed. -/
instance decidableWhole (T : DoubleByte) (size : ℕ) :
    ∀ phase k g s, Decidable (Whole T size phase k g s)
  | phase, k, g, [] =>
    decidable_of_iff (phase ≠ .escape ∧ offset size k + (shift g .ascii).length ≤ size)
      (by rw [Whole])
  | .text, k, g, c :: cs =>
    have := fun phase k g => decidableWhole T size phase k g cs
    match h : word T c with
    | none => .isFalse (by simp [Whole, h])
    | some (g', w) =>
      let shifted := offset size k + (shift g g').length
      let start := offset size shifted
      decidable_of_iff
        (shifted ≤ size ∧
          if g' = .ascii then
            Whole T size (if c = escape then .escape else .text) (start + 1) g' cs
          else
            0 < start ∧ start + w.length ≤ size ∧ Whole T size .text (start + w.length) g' cs)
        (by simp only [Whole, h]; rfl)
  | .escape, k, g, c :: cs =>
    have := decidableWhole T size (.passed size (k + 1) c.val) (k + 1) g cs
    decidable_of_iff
      (k < size ∧ c.val < 0x80 ∧ c.val ∉ introducers ∧
        Whole T size (.passed size (k + 1) c.val) (k + 1) g cs) (by rw [Whole])
  | .through, k, g, c :: cs =>
    have := decidableWhole T size (.passed size (k + 1) c.val) (k + 1) g cs
    decidable_of_iff
      (c.val < 0x80 ∧ Whole T size (.passed size (k + 1) c.val) (k + 1) g cs) (by rw [Whole])

/-- A character of ASCII is written as one octet. -/
theorem word_ascii (T : DoubleByte) {c : CodePoint} (h : c.val < 0x80) :
    word T c = some (.ascii, [toByte c]) := if_pos h

/-- The octet of a character of ASCII has its number. -/
theorem toNat_toByte_ascii {c : CodePoint} (h : c.val < 0x80) : (toByte c).toNat = c.val :=
  toNat_toByte (by omega)

/-- Only the ASCII characters are encoded in ASCII. -/
theorem word_eq_ascii {T : DoubleByte} {c : CodePoint} {w : Bytes}
    (h : word T c = some (.ascii, w)) : c.val < 0x80 ∧ w = [toByte c] := by
  by_cases hc : c.val < 0x80
  · rw [word_ascii T hc] at h
    simp only [Option.some.injEq, Prod.mk.injEq, true_and] at h
    exact ⟨hc, h.symm⟩
  · rw [word, if_neg hc] at h
    split at h
    · simp at h
    · split_ifs at h
      · simp at h
      · simp at h

/-- A character of a shifted set is not ASCII, and its first octet is a graphic one. -/
theorem word_shifted {T : DoubleByte} {c : CodePoint} {g : Charset} {w : Bytes}
    (h : word T c = some (g, w)) (hg : g ≠ .ascii) :
    0x80 ≤ c.val ∧ ((g = .roman ∧ ∃ b : UInt8, w = [b] ∧ romanChar b = c ∧ 0x21 ≤ b.toNat ∧
        b.toNat < 0x7F) ∨
      (g = .double ∧ ∃ a b : UInt8, w = [a, b] ∧ T.dec a b = some c ∧ 0x21 ≤ a.toNat ∧
        a.toNat < 0x7F)) := by
  by_cases hc : c.val < 0x80
  · rw [word_ascii T hc] at h
    simp only [Option.some.injEq, Prod.mk.injEq] at h
    exact absurd h.1.symm hg
  · refine ⟨by omega, ?_⟩
    rw [word, if_neg hc] at h
    -- Two octets, if the table has the character, and else one of JIS X 0201.
    cases henc : T.enc c with
    | some r =>
      obtain ⟨a, b⟩ := r
      simp only [henc, Option.some.injEq, Prod.mk.injEq] at h
      obtain ⟨rfl, rfl⟩ := h
      exact .inr ⟨rfl, a, b, rfl, T.enc_some c a b henc⟩
    | none =>
      simp only [henc] at h
      split_ifs at h with h1 h2
      · simp only [Option.some.injEq, Prod.mk.injEq] at h
        obtain ⟨rfl, rfl⟩ := h
        exact .inl ⟨rfl, 0x5C, rfl, Fin.ext h1.symm, by decide, by decide⟩
      · simp only [Option.some.injEq, Prod.mk.injEq] at h
        obtain ⟨rfl, rfl⟩ := h
        exact .inl ⟨rfl, 0x7E, rfl, Fin.ext h2.symm, by decide, by decide⟩

section

variable {T : DoubleByte} {size : ℕ}

/-- An ASCII octet that is not `ESC` is put out. -/
theorem step_ascii {b : UInt8} (h : b.toNat < 0x80) (hesc : b.toNat ≠ 0x1B) :
    (decoder T).step (.text .ascii) b = some (.text .ascii, [ofByte b]) := by
  simp only [decoder, if_neg hesc]
  by_cases h20 : b.toNat < 0x20
  · rw [if_pos h20]
  · rw [if_neg h20, if_neg (by omega)]

/-- `ESC` opens an escape, whatever the set in force. -/
theorem step_escape (g : Charset) : (decoder T).step (.text g) 0x1B = some (.escape g, []) := rfl

/-- An octet after an `ESC` that starts no sequence is put out with it. -/
theorem step_escape_passed {g : Charset} {b : UInt8} (h : b.toNat ∉ introducers) :
    (decoder T).step (.escape g) b = some (passed g b.toNat, [escape, ofByte b]) := by
  simp only [decoder, if_neg h]

/-- A designation sets the set in force, if no cut falls inside it. -/
theorem decodeFrom_designator (hs : 0 < size) {j : ℕ} (hj : j < size) (g g' : Charset)
    (bs : Bytes) :
    ((decoder T).restarting size).decodeFrom (j, .text g) (0x1B :: designator g' ++ bs) =
      if j + 3 ≤ size then ((decoder T).restarting size).decodeFrom (j + 3, .text g') bs
      else none := by
  obtain ⟨x, y, hxy, hx, hamp, hy⟩ : ∃ x y : UInt8, designator g' = [x, y] ∧
      x.toNat ∈ introducers ∧ x.toNat ≠ 0x26 ∧ IsFinal y.toNat ∧ y.toNat ≠ 0x40 := by
    cases g' with
    | ascii => exact ⟨0x28, 0x42, rfl, by decide, by decide, by decide, by decide⟩
    | roman => exact ⟨0x28, 0x4A, rfl, by decide, by decide, by decide, by decide⟩
    | double => exact ⟨0x24, 0x42, rfl, by decide, by decide, by decide, by decide⟩
  have hstep₁ : (decoder T).step (.escape g) x = some (.sequence g [x] false false, []) := by
    simp only [decoder, if_pos hx, hamp, decide_false]
  have hstep₂ : (decoder T).step (.sequence g [x] false false) y = some (.text g', []) := by
    have := designate_designator g g'
    rw [hxy] at this
    simp [decoder, hy.1, this]
  rw [hxy, List.cons_append, decodeFrom_restarting_lt _ hj (step_escape g), List.cons_append]
  -- The cut falls after the designation, before its last octet, or after its `ESC`.
  by_cases h1 : j + 1 < size
  · rw [decodeFrom_restarting_lt _ h1 hstep₁, List.cons_append]
    by_cases h2 : j + 1 + 1 < size
    · rw [decodeFrom_restarting_lt _ h2 hstep₂, if_pos (by omega)]
      simp
    · rw [show j + 1 + 1 = size by omega, decodeFrom_restarting_at _ hs (by simp),
        if_neg (by simp [decoder]), if_neg (by omega)]
      rfl
  · rw [show j + 1 = size by omega, decodeFrom_restarting_at _ hs (by simp),
      if_neg (by simp [decoder]), if_neg (by omega)]
    rfl

/-- The states of the decoder, at a position of its chunk, that a phase of the text stands for. At
the end of a chunk it does not matter which set was in force. -/
inductive Follows (T : DoubleByte) (size : ℕ) : Phase → ℕ → Charset → State → Prop
  | text {k g} : k ≤ size → (k = 0 → g = .ascii) → Follows T size .text k g (.text g)
  | full {g q} : (decoder T).done q = true → Follows T size .text size g q
  | escape {k} : k ≤ size → Follows T size .escape k .ascii (.escape .ascii)
  | through {k} : k < size → Follows T size .through k .ascii (.through .ascii)

/-- Inside a chunk the set of the text is in force. -/
theorem Follows.of_lt {k : ℕ} {g : Charset} {q : State} (h : Follows T size .text k g q)
    (hlt : k < size) : q = .text g ∧ (k = 0 → g = .ascii) := by
  cases h with
  | text hle hzero => exact ⟨rfl, hzero⟩
  | full hdone => exact absurd hlt (lt_irrefl _)

/-- At the end of a chunk the decoder may stop. -/
theorem Follows.of_not_lt {k : ℕ} {g : Charset} {q : State} (h : Follows T size .text k g q)
    (hlt : ¬ k < size) : k = size ∧ (decoder T).done q = true := by
  cases h with
  | text hle hzero => exact ⟨le_antisymm hle (Nat.not_lt.1 hlt), rfl⟩
  | full hdone => exact ⟨rfl, hdone⟩

/-- In a text whose set in force is ASCII, and at the start of a chunk, the decoder reads ASCII. -/
theorem Follows.decodeFrom_ascii (hs : 0 < size) {k : ℕ} {g : Charset} {q : State}
    (h : Follows T size .text k g q) (hk : g = .ascii ∨ k = size) {bs : Bytes} (hne : bs ≠ []) :
    ((decoder T).restarting size).decodeFrom (k, q) bs =
      ((decoder T).restarting size).decodeFrom (offset size k, .text .ascii) bs := by
  by_cases hlt : k < size
  · obtain ⟨rfl, -⟩ := h.of_lt hlt
    rw [hk.resolve_right (by omega), offset, if_pos hlt]
  · obtain ⟨hsize, hdone⟩ := h.of_not_lt hlt
    rw [hsize, decodeFrom_restarting_at _ hs hne, if_pos hdone, offset, if_neg (by omega)]
    rfl

/-- An offset is inside a chunk. -/
theorem offset_lt (hs : 0 < size) (k : ℕ) : offset size k < size := by
  rw [offset]
  split_ifs with h
  · exact h
  · exact hs

/-- The offset of an offset is itself. -/
theorem offset_offset (k : ℕ) : offset size (offset size k) = offset size k := by
  by_cases h : k < size
  · rw [offset, if_pos (by rwa [offset, if_pos h])]
  · rw [offset, offset, if_neg h]
    split_ifs
    · rfl
    · rfl

/-- `Follows` after an octet that is put out as it is. -/
theorem follows_passed {k : ℕ} (hk : k ≤ size) (n : ℕ) (h0 : k ≠ 0) :
    Follows T size (.passed size k n) k .ascii (passed .ascii n) := by
  by_cases hf : IsFinal n
  · rw [Phase.passed, passed, if_pos (Or.inl hf), if_pos hf]
    exact .text hk (fun h => absurd h h0)
  · by_cases hsize : k = size
    · rw [Phase.passed, passed, if_pos (Or.inr hsize), if_neg hf, hsize]
      exact .full rfl
    · rw [Phase.passed, passed, if_neg (by tauto), if_neg hf]
      exact .through (by omega)

/-- A character of a shifted set is read in its chunk, after its designation and without a cut, or
not at all. -/
theorem decodeFrom_shifted (hs : 0 < size) {k : ℕ} {g : Charset} {q : State} {c : CodePoint}
    {w : Bytes} (h : Follows T size .text k g q) (hw : word T c = some (g, w)) (hg : g ≠ .ascii)
    (bs : Bytes) (t : Str) :
    ((decoder T).restarting size).decodeFrom (k, q) (w ++ bs) = some (c :: t) ↔
      0 < offset size k ∧ offset size k + w.length ≤ size ∧
        ((decoder T).restarting size).decodeFrom (offset size k + w.length, .text g) bs =
          some t := by
  obtain ⟨hc, hset⟩ := word_shifted hw hg
  by_cases hlt : k < size
  · -- In the chunk of its designation.
    have hoff : offset size k = k := if_pos hlt
    obtain ⟨rfl, hzero⟩ := h.of_lt hlt
    have hpos : 0 < k := Nat.pos_of_ne_zero fun h0 => hg (hzero h0)
    rw [hoff]
    rcases hset with ⟨rfl, b, rfl, hb, h1, h2⟩ | ⟨rfl, a, b, rfl, hab, h1, h2⟩
    · -- One octet: the cut falls before it or after it.
      have hstep : (decoder T).step (.text .roman) b = some (.text .roman, [c]) := by
        simp only [decoder, if_neg (show b.toNat ≠ 0x1B by omega),
          if_neg (show ¬ b.toNat < 0x20 by omega), if_neg (show ¬ 0x80 ≤ b.toNat by omega), hb]
      have hle : k + 1 ≤ size := hlt
      rw [List.singleton_append, decodeFrom_restarting_lt _ hlt hstep]
      simp [hpos, hle]
    · -- Two octets, between which a cut leaves the first one alone.
      have hstep : (decoder T).step (.text .double) a = some (.lead a, []) := by
        simp only [decoder, if_neg (show a.toNat ≠ 0x1B by omega),
          if_neg (show ¬ a.toNat < 0x20 by omega), if_neg (show ¬ 0x80 ≤ a.toNat by omega)]
      have hstep' : (decoder T).step (.lead a) b = some (.text .double, [c]) := by
        simp only [decoder, hab, Option.map_some]
      rw [List.cons_append, decodeFrom_restarting_lt _ hlt hstep, List.singleton_append]
      by_cases hlt' : k + 1 < size
      · have hle : k + 2 ≤ size := hlt'
        rw [decodeFrom_restarting_lt _ hlt' hstep']
        simp [hpos, hle]
      · have hle : ¬ k + 2 ≤ size := by omega
        rw [show k + 1 = size by omega, decodeFrom_restarting_at _ hs (by simp),
          if_neg (by simp [decoder])]
        simp [hle]
  · -- At the start of a chunk its first octet is read as an ASCII character.
    have hoff : offset size k = 0 := if_neg hlt
    obtain ⟨hk, -⟩ := h.of_not_lt hlt
    obtain ⟨a, rest, rfl, h1, h2⟩ : ∃ (a : UInt8) (rest : Bytes), w = a :: rest ∧
        0x21 ≤ a.toNat ∧ a.toNat < 0x7F := by
      rcases hset with ⟨_, b, rfl, _, h1, h2⟩ | ⟨_, a, b, rfl, _, h1, h2⟩
      · exact ⟨b, [], rfl, h1, h2⟩
      · exact ⟨a, [b], rfl, h1, h2⟩
    rw [h.decodeFrom_ascii hs (.inr hk) (by simp), hoff, List.cons_append,
      decodeFrom_restarting_lt _ hs (step_ascii (by omega) (by omega))]
    simp only [lt_irrefl, false_and, iff_false]
    intro heq
    obtain ⟨u, _, hu⟩ := Option.map_eq_some_iff.1 heq
    have hac : ofByte a = c := (List.cons.inj hu).1
    have := congrArg Fin.val hac
    rw [ofByte_val] at this
    omega

/-- A change of the set in force, if no cut falls inside it. -/
theorem Follows.decodeFrom_shift (hs : 0 < size) {k : ℕ} {g g' : Charset} {q : State}
    (h : Follows T size .text k g q) (hg : g' ≠ g) (bs : Bytes) :
    ((decoder T).restarting size).decodeFrom (k, q) (shift g g' ++ bs) =
      if offset size k + (shift g g').length ≤ size then
        ((decoder T).restarting size).decodeFrom
          (offset size k + (shift g g').length, .text g') bs
      else none := by
  have hlen : (shift g g').length = 3 := by
    rw [shift, if_neg hg]
    cases g' with
    | ascii => rfl
    | roman => rfl
    | double => rfl
  rw [hlen, shift, if_neg hg]
  by_cases hlt : k < size
  · -- The designation starts in this chunk.
    rw [(h.of_lt hlt).1, decodeFrom_designator hs hlt, offset, if_pos hlt]
  · obtain ⟨hk, -⟩ := h.of_not_lt hlt
    rw [h.decodeFrom_ascii hs (.inr hk) (by simp), decodeFrom_designator hs (offset_lt hs k)]

/-- An octet that is no escape is read as no escape. -/
theorem ofByte_ne_escape {b : UInt8} (h : b.toNat ≠ 0x1B) : ofByte b ≠ escape := by
  intro heq
  apply h
  rw [← ofByte_val, heq]
  rfl

/-- What a step puts out, except after an escape that started no sequence: nothing, a character
other than `ESC`, or an `ESC` with an octet that starts no sequence. -/
theorem step_out {q q' : State} {b : UInt8} {out : Str} (hq : ∀ g, q ≠ .through g)
    (h : (decoder T).step q b = some (q', out)) :
    (out = [] ∧ ∀ g, q' ≠ .through g) ∨ (∃ d, out = [d] ∧ d ≠ escape) ∨
      ∃ d, out = [escape, d] ∧ d.val ∉ introducers := by
  cases q with
  | text g =>
    -- The set in force puts out a character, or waits for a second octet.
    simp only [decoder] at h
    split_ifs at h with h1 h2 h3
    · cases h
      exact .inl ⟨rfl, by simp⟩
    · cases h
      exact .inr (.inl ⟨_, rfl, ofByte_ne_escape h1⟩)
    · cases g with
      | ascii =>
        cases h
        exact .inr (.inl ⟨_, rfl, ofByte_ne_escape h1⟩)
      | roman =>
        cases h
        refine .inr (.inl ⟨_, rfl, ?_⟩)
        rw [romanChar]
        split_ifs
        · decide
        · decide
        · exact ofByte_ne_escape h1
      | double =>
        cases h
        exact .inl ⟨rfl, by simp⟩
  | escape g =>
    -- An `ESC` waits for its sequence, or is put out with what follows.
    simp only [decoder] at h
    split_ifs at h with h1
    · cases h
      exact .inl ⟨rfl, by simp⟩
    · cases h
      exact .inr (.inr ⟨_, rfl, h1⟩)
  | sequence g s skip ampersand =>
    -- A sequence puts out nothing.
    simp only [decoder, extend] at h
    split_ifs at h with h1 h2 h3 h4 h5 h6
    · cases h
      exact .inl ⟨rfl, by simp⟩
    · cases h
      exact .inl ⟨rfl, by simp⟩
    · obtain ⟨g', _, heq⟩ := Option.map_eq_some_iff.1 h
      cases heq
      exact .inl ⟨rfl, by simp⟩
    · cases h
      exact .inl ⟨rfl, by simp⟩
  | through g => exact absurd rfl (hq g)
  | lead a =>
    -- What the table has is not ASCII.
    obtain ⟨c, hc, heq⟩ := Option.map_eq_some_iff.1 h
    cases heq
    refine .inr (.inl ⟨c, rfl, ?_⟩)
    have := T.le_of_dec a b c hc
    rintro rfl
    exact absurd this (by decide)

/-- Except after an escape that started no sequence, the decoder never puts out an `ESC` with a
character that starts a sequence. -/
theorem ne_escape_introducer (hs : 0 < size) {bs : Bytes} :
    ∀ {k : ℕ} {q : State} {c : CodePoint} {t : Str}, k ≤ size → (∀ g, q ≠ .through g) →
      ((decoder T).restarting size).decodeFrom (k, q) bs = some (escape :: c :: t) →
      c.val ∉ introducers := by
  induction bs with
  | nil =>
    intro k q c t _ _ h
    rw [decodeFrom_nil] at h
    split_ifs at h
    simp at h
  | cons b bs ih =>
    -- One step from a position before the end of a chunk.
    have hlt : ∀ {k : ℕ} {q : State} {c : CodePoint} {t : Str}, k < size →
        (∀ g, q ≠ .through g) →
        ((decoder T).restarting size).decodeFrom (k, q) (b :: bs) = some (escape :: c :: t) →
        c.val ∉ introducers := by
      intro k q c t hk hq h
      cases hstep : (decoder T).step q b with
      | none =>
        rw [decodeFrom_restarting_lt_none _ hk hstep] at h
        cases h
      | some r =>
        obtain ⟨q', out⟩ := r
        rw [decodeFrom_restarting_lt _ hk hstep] at h
        obtain ⟨u, hu, heq⟩ := Option.map_eq_some_iff.1 h
        rcases step_out hq hstep with ⟨rfl, hq'⟩ | ⟨d, rfl, hd⟩ | ⟨d, rfl, hd⟩
        · rw [List.nil_append] at heq
          subst heq
          exact ih (by omega) hq' hu
        · exact absurd (List.cons.inj heq).1 hd
        · have : d = c := (List.cons.inj (List.cons.inj heq).2).1
          rwa [← this]
    intro k q c t hk hq h
    by_cases hfull : k < size
    · exact hlt hfull hq h
    · -- At the end of a chunk the decoder starts again, which is no escape either.
      rw [show k = size by omega, decodeFrom_restarting_at _ hs (by simp)] at h
      split_ifs at h
      exact hlt hs (by simp [decoder]) h

/-- What the decoder has read of the text but not yet put out. -/
def Phase.owed : Phase → Str
  | .escape => [Iso2022jp.escape]
  | _ => []

/-- Taking a character off the front of a result leaves the rest. -/
theorem some_cons_iff {x : Option Str} {c : CodePoint} {t : Str} :
    x.map ([c] ++ ·) = some (c :: t) ↔ x = some t := by
  cases x with
  | none => simp
  | some u => simp

/-- An ASCII character of the text, when ASCII is in force. -/
theorem Follows.decodeFrom_char (hs : 0 < size) {k : ℕ} {q : State} {c : CodePoint}
    (h : Follows T size .text k .ascii q) (hc : c.val < 0x80) (bs : Bytes) (t : Str) :
    ((decoder T).restarting size).decodeFrom (k, q) (toByte c :: bs) = some (c :: t) ↔
      if c = Iso2022jp.escape then
        ((decoder T).restarting size).decodeFrom (offset size k + 1, .escape .ascii) bs =
          some (c :: t)
      else
        ((decoder T).restarting size).decodeFrom (offset size k + 1, .text .ascii) bs =
          some t := by
  have hoff := offset_lt hs k
  rw [h.decodeFrom_ascii hs (.inl rfl) (by simp)]
  split_ifs with hesc
  · -- An escape is held back until the next octet tells what it is.
    have hstep : (decoder T).step (.text .ascii) (toByte c) = some (.escape .ascii, []) := by
      rw [hesc]
      rfl
    rw [decodeFrom_restarting_lt _ hoff hstep]
    simp
  · have hval : (toByte c).toNat ≠ 0x1B := by
      rw [toNat_toByte_ascii hc]
      exact fun heq => hesc (Fin.ext heq)
    rw [decodeFrom_restarting_lt _ hoff (step_ascii (by rwa [toNat_toByte_ascii hc]) hval),
      ofByte_toByte (by omega), some_cons_iff]

/-- A character that is not ASCII is encoded behind an `ESC` when ASCII is in force. -/
theorem shift_ascii {g : Charset} (h : g ≠ .ascii) : shift .ascii g = 0x1B :: designator g :=
  if_neg h

/-- The rest of a text comes out, after what is owed, exactly when it is `Whole`. -/
def Faithful (T : DoubleByte) (size : ℕ) (s : Str) : Prop :=
  ∀ {phase : Phase} {k : ℕ} {g : Charset} {q : State} {bs : Bytes},
    Follows T size phase k g q → encodeFrom T g s = some bs →
    (((decoder T).restarting size).decodeFrom (k, q) bs = some (phase.owed ++ s) ↔
      Whole T size phase k g s)

/-- At the end of a text only the return to ASCII is left. -/
theorem Follows.decodeFrom_end (hs : 0 < size) {k : ℕ} {g : Charset} {q : State}
    (hF : Follows T size .text k g q) :
    ((decoder T).restarting size).decodeFrom (k, q) (shift g .ascii) = some [] ↔
      offset size k + (shift g .ascii).length ≤ size := by
  have hdone : (decoder T).done q = true := by
    cases hF with
    | text hk hzero => rfl
    | full hdone => exact hdone
  by_cases hg : Charset.ascii = g
  · subst hg
    have := (offset_lt hs k).le
    simpa [shift, decodeFrom_nil, restarting, hdone] using this
  · rw [← List.append_nil (shift g _), hF.decodeFrom_shift hs hg, List.append_nil]
    split_ifs with hle
    · simpa [decodeFrom_nil, decoder, restarting] using hle
    · simpa using hle

/-- An empty text comes out. -/
theorem faithful_nil (hs : 0 < size) : Faithful T size [] := by
  intro phase k g q bs hF henc
  simp only [encodeFrom, Option.some.injEq] at henc
  subst henc
  rw [Whole]
  cases phase with
  | text => simpa [Phase.owed] using hF.decodeFrom_end hs
  | escape =>
    cases hF with
    | escape hk => simp [shift, decodeFrom_nil, decoder, restarting]
  | through =>
    cases hF with
    | through hk =>
      have := (offset_lt hs k).le
      simpa [shift, decodeFrom_nil, decoder, restarting, Phase.owed] using this

/-- The octets of a text are those of its first character, and the octets of the others. -/
theorem encodeFrom_cons {g : Charset} {c : CodePoint} {cs : Str} {bs : Bytes}
    (h : encodeFrom T g (c :: cs) = some bs) :
    ∃ g' w rest, word T c = some (g', w) ∧ encodeFrom T g' cs = some rest ∧
      bs = shift g g' ++ (w ++ rest) := by
  rw [encodeFrom] at h
  cases hw : word T c with
  | none => simp [hw] at h
  | some r =>
    simp only [hw] at h
    obtain ⟨rest, hrest, rfl⟩ := Option.map_eq_some_iff.1 h
    exact ⟨r.1, r.2, rest, rfl, hrest, List.append_assoc _ _ _⟩

/-- A character and the rest of the text, once the set of the character is in force. -/
theorem Follows.decodeFrom_word (hs : 0 < size) {k : ℕ} {g : Charset} {q : State} {c : CodePoint}
    {cs : Str} {w rest : Bytes} (ih : Faithful T size cs) (hF : Follows T size .text k g q)
    (hw : word T c = some (g, w)) (hrest : encodeFrom T g cs = some rest) :
    ((decoder T).restarting size).decodeFrom (k, q) (w ++ rest) = some (c :: cs) ↔
      if g = .ascii then
        Whole T size (if c = Iso2022jp.escape then .escape else .text) (offset size k + 1) g cs
      else
        0 < offset size k ∧ offset size k + w.length ≤ size ∧
          Whole T size .text (offset size k + w.length) g cs := by
  have hoff := offset_lt hs k
  -- A word of ASCII may be cut behind it, a double octet may not be cut inside.
  by_cases hg : g = .ascii
  · subst hg
    obtain ⟨hc, rfl⟩ := word_eq_ascii hw
    rw [if_pos rfl, List.singleton_append, hF.decodeFrom_char hs hc]
    split_ifs with hesc
    · rw [← ih (.escape hoff) hrest, hesc]
      rfl
    · rw [← ih (.text hoff (by omega)) hrest]
      rfl
  · rw [if_neg hg, decodeFrom_shifted hs hF hw hg]
    refine and_congr_right fun hpos => and_congr_right fun hle => ?_
    rw [← ih (.text hle (by omega)) hrest]
    rfl

/-- A text comes out behind a decoder with no escape open, if the rest of it does. -/
theorem faithful_text (hs : 0 < size) {k : ℕ} {g : Charset} {q : State} {c : CodePoint} {cs : Str}
    {bs : Bytes} (ih : Faithful T size cs) (hF : Follows T size .text k g q)
    (henc : encodeFrom T g (c :: cs) = some bs) :
    ((decoder T).restarting size).decodeFrom (k, q) bs = some (c :: cs) ↔
      Whole T size .text k g (c :: cs) := by
  obtain ⟨g', w, rest, hw, hrest, rfl⟩ := encodeFrom_cons henc
  rw [Whole]
  simp only [hw]
  -- If the set changes, its sequence comes first, and a cut inside it loses the text.
  by_cases hg : g' = g
  · subst hg
    have hoff := (offset_lt hs k).le
    simp only [shift, if_true, List.nil_append, List.length_nil, Nat.add_zero, hoff, true_and,
      offset_offset]
    exact hF.decodeFrom_word hs ih hw hrest
  · rw [hF.decodeFrom_shift hs hg]
    have hpos : 0 < (shift g g').length := by simp [shift, hg]
    by_cases hle : offset size k + (shift g g').length ≤ size
    · have hF' : Follows T size .text (offset size k + (shift g g').length) g' (.text g') :=
        .text hle (by omega)
      rw [if_pos hle, hF'.decodeFrom_word hs ih hw hrest]
      simp only [hle, true_and]
    · rw [if_neg hle]
      simp [hle]

/-- The next octet after a text in ASCII is that of an ASCII character, or an `ESC`. -/
theorem encodeFrom_ascii {c : CodePoint} {cs : Str} {bs : Bytes}
    (h : encodeFrom T .ascii (c :: cs) = some bs) :
    (c.val < 0x80 ∧ ∃ rest, encodeFrom T .ascii cs = some rest ∧ bs = toByte c :: rest) ∨
      (¬ c.val < 0x80 ∧ ∃ rest, bs = 0x1B :: rest) := by
  obtain ⟨g', w, rest, hw, hrest, rfl⟩ := encodeFrom_cons h
  by_cases hc : c.val < 0x80
  · rw [word_ascii T hc] at hw
    simp only [Option.some.injEq, Prod.mk.injEq] at hw
    obtain ⟨rfl, rfl⟩ := hw
    exact .inl ⟨hc, rest, hrest, rfl⟩
  · have hg : g' ≠ .ascii := fun hg => hc (word_eq_ascii (hg ▸ hw)).1
    exact .inr ⟨hc, _, by rw [shift_ascii hg]; rfl⟩

/-- After a character that was put out nothing is owed. -/
theorem owed_passed (k n : ℕ) : (Phase.passed size k n).owed = [] := by
  rw [Phase.passed]
  split_ifs
  · rfl
  · rfl

/-- A text comes out behind an escape of the text, if the rest of it does. -/
theorem faithful_escape (hs : 0 < size) {k : ℕ} {c : CodePoint} {cs : Str} {bs : Bytes}
    (ih : Faithful T size cs) (hk : k ≤ size) (henc : encodeFrom T .ascii (c :: cs) = some bs) :
    ((decoder T).restarting size).decodeFrom (k, .escape .ascii) bs =
        some (Iso2022jp.escape :: c :: cs) ↔
      Whole T size .escape k .ascii (c :: cs) := by
  rw [Whole]
  by_cases hlt : k < size
  · rcases encodeFrom_ascii henc with ⟨hc, rest, hrest, rfl⟩ | ⟨hc, rest, rfl⟩
    · have hval := toNat_toByte_ascii hc
      by_cases hintro : c.val ∈ introducers
      · simp only [hintro, not_true_eq_false, false_and, and_false, iff_false]
        intro heq
        exact ne_escape_introducer hs hk (by simp) heq hintro
      · have hstep : (decoder T).step (.escape .ascii) (toByte c) =
            some (passed .ascii c.val, [Iso2022jp.escape, c]) := by
          rw [step_escape_passed (by rwa [hval]), hval, ofByte_toByte (by omega)]
        have hF : Follows T size (.passed size (k + 1) c.val) (k + 1) .ascii
            (passed .ascii c.val) := follows_passed hlt _ (Nat.succ_ne_zero k)
        rw [decodeFrom_restarting_lt _ hlt hstep, ← ih hF hrest, owed_passed, List.nil_append]
        simp only [hlt, hc, hintro, not_false_iff, true_and]
        cases ((decoder T).restarting size).decodeFrom (k + 1, passed .ascii c.val) rest with
        | none => simp
        | some u => simp
    · -- The designation of the next character starts with a second `ESC`.
      have hstep : (decoder T).step (.escape .ascii) 0x1B =
          some (.through .ascii, [Iso2022jp.escape, Iso2022jp.escape]) := rfl
      simp only [hc, false_and, and_false, iff_false]
      rw [decodeFrom_restarting_lt _ hlt hstep]
      intro heq
      obtain ⟨u, _, hu⟩ := Option.map_eq_some_iff.1 heq
      have hec : Iso2022jp.escape = c := (List.cons.inj (List.cons.inj hu).2).1
      exact hc (hec ▸ by decide)
  · have hne : bs ≠ [] := by
      rcases encodeFrom_ascii henc with ⟨_, rest, _, rfl⟩ | ⟨_, rest, rfl⟩
      · exact List.cons_ne_nil _ _
      · exact List.cons_ne_nil _ _
    simp only [hlt, false_and, iff_false]
    rw [show k = size by omega, decodeFrom_restarting_at _ hs hne, if_neg (by simp [decoder])]
    simp

/-- A text comes out behind an escape that started no sequence, if the rest of it does. -/
theorem faithful_through {k : ℕ} {c : CodePoint} {cs : Str} {bs : Bytes}
    (ih : Faithful T size cs) (hlt : k < size) (henc : encodeFrom T .ascii (c :: cs) = some bs) :
    ((decoder T).restarting size).decodeFrom (k, .through .ascii) bs = some (c :: cs) ↔
      Whole T size .through k .ascii (c :: cs) := by
  rw [Whole]
  -- An octet of ASCII passes the escape; any other octet would start a sequence.
  rcases encodeFrom_ascii henc with ⟨hc, rest, hrest, rfl⟩ | ⟨hc, rest, rfl⟩
  · have hval := toNat_toByte_ascii hc
    have hstep : (decoder T).step (.through .ascii) (toByte c) =
        some (passed .ascii c.val, [c]) := by
      simp only [decoder, hval, ofByte_toByte (show c.val < 256 by omega)]
    have hF : Follows T size (.passed size (k + 1) c.val) (k + 1) .ascii
        (passed .ascii c.val) := follows_passed hlt _ (Nat.succ_ne_zero k)
    rw [decodeFrom_restarting_lt _ hlt hstep, ← ih hF hrest, owed_passed]
    simp only [hc, true_and, List.nil_append, some_cons_iff]
  · have hstep : (decoder T).step (.through .ascii) 0x1B =
        some (.through .ascii, [Iso2022jp.escape]) := rfl
    simp only [hc, false_and, iff_false]
    rw [decodeFrom_restarting_lt _ hlt hstep]
    intro heq
    obtain ⟨u, _, hu⟩ := Option.map_eq_some_iff.1 heq
    have hec : Iso2022jp.escape = c := (List.cons.inj hu).1
    exact hc (hec ▸ by decide)

/-- Every text comes out exactly when it is whole. -/
theorem faithful (hs : 0 < size) (s : Str) : Faithful T size s := by
  induction s with
  | nil => exact faithful_nil hs
  | cons c cs ih =>
    intro phase k g q bs hF henc
    cases phase with
    | text => exact faithful_text hs ih hF henc
    | escape =>
      cases hF with
      | escape hk => exact faithful_escape hs ih hk henc
    | through =>
      cases hF with
      | through hlt => exact faithful_through ih hlt henc

/-- A text that was encoded survives being cut after every `size` octets exactly when it is
`Whole`. -/
theorem restarting_iff (hs : 0 < size) {s : Str} {bs : Bytes} (h : encode T s = some bs) :
    ((decoder T).restarting size).decode bs = some s ↔ Whole T size .text 0 .ascii s :=
  faithful hs s (.text (Nat.zero_le _) fun _ => rfl) h

end

end Iso2022jp
