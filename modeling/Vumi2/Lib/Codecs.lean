import Vumi2.Lib.StreamDecoder
import Vumi2.Lib.Text

/-!
# The codecs of Python's standard library, in strict mode

A codec here is a pair of functions that answer `none` where Python raises a `UnicodeError`. The
single-octet codecs are `Charmap`s, which carry the proof that decoding an encoded character gives
it back. UTF-8 and UTF-16 (big-endian) are decoders in the sense of `StreamDecoder.lean`; UTF-16 is
also a `Units` code, whose words have two or four octets.
-/

namespace Codecs

open Text Chunks

/-- A codec that stands every character for one octet. -/
structure Charmap where
  /-- The character of an octet. -/
  dec : UInt8 → Option CodePoint
  /-- The octet of a character. -/
  enc : CodePoint → Option UInt8
  /-- Encoding chooses an octet that stands for the character. -/
  dec_enc : ∀ c b, enc c = some b → dec b = some c

namespace Charmap

variable (C : Charmap)

/-- Encodes a text. -/
def encode (s : Str) : Option Bytes := s.mapM C.enc

/-- Decodes octets. -/
def decode (bs : Bytes) : Option Str := bs.mapM C.dec

/-- What a codec encodes it decodes to the same text. -/
theorem decode_encode {s : Str} {bs : Bytes} (h : C.encode s = some bs) : C.decode bs = some s := by
  induction s generalizing bs with
  | nil =>
    simp only [encode, List.mapM_nil, Option.pure_def, Option.some.injEq] at h
    subst h
    rfl
  | cons c s ih =>
    simp only [encode, List.mapM_cons, Option.bind_eq_bind, Option.bind_eq_some_iff,
      Option.pure_def, Option.some.injEq] at h
    obtain ⟨b, hb, bs', hbs, rfl⟩ := h
    simp only [decode, List.mapM_cons, C.dec_enc c b hb, Option.bind_eq_bind, Option.bind_some]
    have := ih hbs
    rw [decode] at this
    rw [this]
    rfl

/-- Octets put together decode to what the parts decode to. -/
theorem decode_append (bs cs : Bytes) :
    C.decode (bs ++ cs) = (C.decode bs).bind fun s => (C.decode cs).map (s ++ ·) := by
  rw [decode, List.mapM_append]
  cases hb : bs.mapM C.dec with
  | none => simp [decode, hb]
  | some s =>
    cases hc : cs.mapM C.dec with
    | none => simp [decode, hb, hc]
    | some t => simp [decode, hb, hc]

/-- Octets that a charmap decodes may be cut anywhere. -/
theorem decode_chunks {size : ℕ} (hs : 0 < size) {bs : Bytes} {s : Str}
    (h : C.decode bs = some s) :
    ∃ ts, (chunks size bs).mapM C.decode = some ts ∧ ts.flatten = s := by
  induction bs using chunks_induction hs generalizing s with
  | nil =>
    simp only [decode, List.mapM_nil, Option.pure_def, Option.some.injEq] at h
    subst h
    exact ⟨[], by simp [hs]⟩
  | last l hne hle =>
    refine ⟨[s], ?_, by simp⟩
    rw [chunks_of_le hne hle, List.mapM_cons, h]
    rfl
  | more l hlt ih =>
    rw [← List.take_append_drop size l, decode_append, Option.bind_eq_some_iff] at h
    obtain ⟨t, ht, h⟩ := h
    obtain ⟨u, hu, rfl⟩ := Option.map_eq_some_iff.1 h
    obtain ⟨us, hus, rfl⟩ := ih hu
    refine ⟨t :: us, ?_, by simp⟩
    rw [chunks_of_lt hs hlt, List.mapM_cons, ht]
    simp [hus]

end Charmap

/-! ## The single-octet codecs -/

/-- The code point of a number, if it is one. -/
def codePoint? (n : ℕ) : Option CodePoint := if h : n < 0x110000 then some ⟨n, h⟩ else none

/-- The codec whose octets stand for the same code points, below a bound. -/
def identity (bound : ℕ) (hb : bound ≤ 256) : Charmap where
  dec b := if b.toNat < bound then some (ofByte b) else none
  enc c := if c.val < bound then some (toByte c) else none
  dec_enc c b h := by
    split_ifs at h with hc
    simp only [Option.some.injEq] at h
    subst h
    rw [toNat_toByte (by omega), if_pos hc, ofByte_toByte (by omega)]

/-- `ascii`. -/
def ascii : Charmap := identity 128 (by decide)

/-- `latin1`. -/
def latin1 : Charmap := identity 256 le_rfl

/-- The codec of a table of code points: a character is encoded as the first octet for it. -/
def ofTable (table : ℕ → Option ℕ) : Charmap where
  dec b := (table b.toNat).bind codePoint?
  enc c := ((List.range 256).find? fun n => table n = some c.val).map UInt8.ofNat
  dec_enc c b h := by
    obtain ⟨n, hn, rfl⟩ := Option.map_eq_some_iff.1 h
    have hlt : n < 256 := List.mem_range.1 (List.mem_of_find?_eq_some hn)
    have htable : table n = some c.val := by simpa using List.find?_some hn
    rw [UInt8.toNat_ofNat', Nat.mod_eq_of_lt hlt, htable]
    simp [codePoint?]

/-- `iso8859_5`: Latin and Cyrillic. -/
def iso8859_5 : Charmap := ofTable fun n =>
  if n ≤ 0xA0 ∨ n = 0xAD then some n
  else if n = 0xF0 then some 0x2116
  else if n = 0xFD then some 0xA7
  else some (n + 0x360)

/-- `iso8859_8`: Latin and Hebrew, with gaps. -/
def iso8859_8 : Charmap := ofTable fun n =>
  if n = 0xAA then some 0xD7
  else if n = 0xBA then some 0xF7
  else if n ≤ 0xBE ∧ n ≠ 0xA1 then some n
  else if n = 0xDF then some 0x2017
  else if 0xE0 ≤ n ∧ n ≤ 0xFA then some (n + 0x4F0)
  else if n = 0xFD ∨ n = 0xFE then some (n + 0x1F11)
  else none

/-! ## UTF-8 -/

/-- Where the UTF-8 decoder stands inside a character: how many octets are owed, the bits so far,
and the bounds of the next octet. -/
structure Utf8State where
  owed : ℕ
  bits : ℕ
  low : ℕ
  high : ℕ
deriving DecidableEq, Repr

/-- `utf-8`: no overlong form, no surrogate, nothing above U+10FFFF. -/
def utf8 : Decoder (Option Utf8State) UInt8 CodePoint where
  init := none
  step
    | none, b =>
      let n := b.toNat
      if n < 0x80 then some (none, [ofByte b])
      else if 0xC2 ≤ n ∧ n ≤ 0xDF then some (some ⟨1, n % 32, 0x80, 0xBF⟩, [])
      else if n = 0xE0 then some (some ⟨2, 0, 0xA0, 0xBF⟩, [])
      else if n = 0xED then some (some ⟨2, 13, 0x80, 0x9F⟩, [])
      else if 0xE1 ≤ n ∧ n ≤ 0xEF then some (some ⟨2, n % 16, 0x80, 0xBF⟩, [])
      else if n = 0xF0 then some (some ⟨3, 0, 0x90, 0xBF⟩, [])
      else if 0xF1 ≤ n ∧ n ≤ 0xF3 then some (some ⟨3, n % 8, 0x80, 0xBF⟩, [])
      else if n = 0xF4 then some (some ⟨3, 4, 0x80, 0x8F⟩, [])
      else none
    | some q, b =>
      let n := b.toNat
      if q.low ≤ n ∧ n ≤ q.high then
        let bits := 64 * q.bits + n % 64
        if q.owed = 1 then (codePoint? bits).map fun c => (none, [c])
        else some (some ⟨q.owed - 1, bits, 0x80, 0xBF⟩, [])
      else none
  done q := q.isNone

/-- Octets of ASCII are read one by one, with nothing held back. -/
theorem feed_utf8_ascii {bs : Bytes} (h : ∀ b ∈ bs, b.toNat < 0x80) :
    utf8.feed none bs = some (none, bs.map ofByte) := by
  induction bs with
  | nil => rfl
  | cons b bs ih =>
    have hb : utf8.step none b = some (none, [ofByte b]) := if_pos (h b List.mem_cons_self)
    rw [Decoder.feed, hb]
    dsimp only
    rw [ih fun b hb => h b (List.mem_cons_of_mem _ hb)]
    rfl

/-- ASCII octets stand for themselves. -/
theorem utf8_decode_ascii {bs : Bytes} (h : ∀ b ∈ bs, b.toNat < 0x80) :
    utf8.decode bs = some (bs.map ofByte) := by
  have hfeed : utf8.feed utf8.init bs = some (none, bs.map ofByte) := feed_utf8_ascii h
  rw [Decoder.decode, Decoder.decodeFrom, hfeed]
  rfl

/-- The UTF-8 octets of a character; a lone surrogate has none. -/
def utf8Enc (c : CodePoint) : Option Bytes :=
  let n := c.val
  if n < 0x80 then some [UInt8.ofNat n]
  else if n < 0x800 then some [UInt8.ofNat (0xC0 + n / 64), UInt8.ofNat (0x80 + n % 64)]
  else if 0xD800 ≤ n ∧ n < 0xE000 then none
  else if n < 0x10000 then
    some [UInt8.ofNat (0xE0 + n / 4096), UInt8.ofNat (0x80 + n / 64 % 64),
      UInt8.ofNat (0x80 + n % 64)]
  else
    some [UInt8.ofNat (0xF0 + n / 262144), UInt8.ofNat (0x80 + n / 4096 % 64),
      UInt8.ofNat (0x80 + n / 64 % 64), UInt8.ofNat (0x80 + n % 64)]

/-- `s.encode()`. -/
def utf8Encode (s : Str) : Option Bytes := (s.mapM utf8Enc).map List.flatten

/-- A number below 256 keeps its value as an octet. -/
theorem toNat_ofNat_of_lt {n : ℕ} (h : n < 256) : (UInt8.ofNat n).toNat = n := by
  rw [UInt8.toNat_ofNat']
  exact Nat.mod_eq_of_lt h

/-- An octet within a character. -/
theorem utf8_step_bits {q : Utf8State} {n : ℕ} (hn : n < 256) (hlow : q.low ≤ n)
    (hhigh : n ≤ q.high) (howed : q.owed ≠ 1) : utf8.step (some q) (UInt8.ofNat n) =
      some (some ⟨q.owed - 1, 64 * q.bits + n % 64, 0x80, 0xBF⟩, []) := by
  simp only [utf8, toNat_ofNat_of_lt hn, hlow, hhigh, and_self, if_true, howed, if_false]

/-- The last octet of a character. -/
theorem utf8_step_last {q : Utf8State} {n : ℕ} {c : CodePoint} (hn : n < 256) (hlow : q.low ≤ n)
    (hhigh : n ≤ q.high) (howed : q.owed = 1) (hbits : 64 * q.bits + n % 64 = c.val) :
    utf8.step (some q) (UInt8.ofNat n) = some (none, [c]) := by
  have hc : codePoint? c.val = some c := by simp [codePoint?]
  simp only [utf8, toNat_ofNat_of_lt hn, hlow, hhigh, and_self, if_true, howed, hbits, hc,
    Option.map_some]

/-- The octets of a character are read as this character. -/
theorem feed_utf8Enc {c : CodePoint} {bs : Bytes} (h : utf8Enc c = some bs) :
    utf8.feed none bs = some (none, [c]) := by
  have hlt := c.isLt
  unfold utf8Enc at h
  dsimp only at h
  split_ifs at h with h1 h2 h3 h4
  · -- One octet.
    obtain rfl := Option.some.inj h
    have hlead : utf8.step none (UInt8.ofNat c.val) = some (none, [c]) := by
      have hn := toNat_ofNat_of_lt (n := c.val) (by omega)
      have hc : ofByte (UInt8.ofNat c.val) = c := Fin.ext (by rw [ofByte_val, hn])
      simp only [utf8, hn, if_pos h1, hc]
    exact Decoder.feed_cons hlead rfl
  · -- Two octets: the first holds the upper five bits.
    obtain rfl := Option.some.inj h
    have hlead : utf8.step none (UInt8.ofNat (0xC0 + c.val / 64)) =
        some (some ⟨1, c.val / 64, 0x80, 0xBF⟩, []) := by
      have hn := toNat_ofNat_of_lt (n := 0xC0 + c.val / 64) (by omega)
      simp only [utf8, hn]
      rw [if_neg (by omega), if_pos (by omega), show (0xC0 + c.val / 64) % 32 = c.val / 64 by omega]
    exact Decoder.feed_cons hlead (Decoder.feed_cons
      (utf8_step_last (by omega) (by dsimp only; omega) (by dsimp only; omega) rfl
        (by dsimp only; omega)) rfl)
  · -- Three octets: `E0` and `ED` narrow the second one.
    obtain rfl := Option.some.inj h
    have hlead : ∃ low high, utf8.step none (UInt8.ofNat (0xE0 + c.val / 4096)) =
        some (some ⟨2, c.val / 4096, low, high⟩, []) ∧ low ≤ 0x80 + c.val / 64 % 64 ∧
          0x80 + c.val / 64 % 64 ≤ high := by
      have hn := toNat_ofNat_of_lt (n := 0xE0 + c.val / 4096) (by omega)
      simp only [utf8, hn]
      rw [if_neg (by omega), if_neg (by omega)]
      -- The bounds exclude overlong forms and surrogates, which an encoded character is not.
      by_cases hE0 : 0xE0 + c.val / 4096 = 0xE0
      · rw [if_pos hE0, show c.val / 4096 = 0 by omega]
        exact ⟨0xA0, 0xBF, rfl, by omega, by omega⟩
      · rw [if_neg hE0]
        by_cases hED : 0xE0 + c.val / 4096 = 0xED
        · rw [if_pos hED, show c.val / 4096 = 13 by omega]
          exact ⟨0x80, 0x9F, rfl, by omega, by omega⟩
        · rw [if_neg hED, if_pos (by omega),
            show (0xE0 + c.val / 4096) % 16 = c.val / 4096 by omega]
          exact ⟨0x80, 0xBF, rfl, by omega, by omega⟩
    obtain ⟨low, high, hlead, hlow, hhigh⟩ := hlead
    refine Decoder.feed_cons hlead (Decoder.feed_cons
      (utf8_step_bits (by omega) hlow hhigh (by dsimp only; omega)) (Decoder.feed_cons
        (utf8_step_last (by omega) (by dsimp only; omega) (by dsimp only; omega) rfl ?_) rfl))
    dsimp only
    omega
  · -- Four octets: `F0` and `F4` narrow the second one.
    obtain rfl := Option.some.inj h
    have hlead : ∃ low high, utf8.step none (UInt8.ofNat (0xF0 + c.val / 262144)) =
        some (some ⟨3, c.val / 262144, low, high⟩, []) ∧ low ≤ 0x80 + c.val / 4096 % 64 ∧
          0x80 + c.val / 4096 % 64 ≤ high := by
      have hn := toNat_ofNat_of_lt (n := 0xF0 + c.val / 262144) (by omega)
      simp only [utf8, hn]
      rw [if_neg (by omega), if_neg (by omega), if_neg (by omega), if_neg (by omega),
        if_neg (by omega)]
      by_cases hF0 : 0xF0 + c.val / 262144 = 0xF0
      · rw [if_pos hF0, show c.val / 262144 = 0 by omega]
        exact ⟨0x90, 0xBF, rfl, by omega, by omega⟩
      · rw [if_neg hF0]
        by_cases hF3 : 0xF1 ≤ 0xF0 + c.val / 262144 ∧ 0xF0 + c.val / 262144 ≤ 0xF3
        · rw [if_pos hF3, show (0xF0 + c.val / 262144) % 8 = c.val / 262144 by omega]
          exact ⟨0x80, 0xBF, rfl, by omega, by omega⟩
        · rw [if_neg hF3, if_pos (by omega), show c.val / 262144 = 4 by omega]
          exact ⟨0x80, 0x8F, rfl, by omega, by omega⟩
    obtain ⟨low, high, hlead, hlow, hhigh⟩ := hlead
    refine Decoder.feed_cons hlead (Decoder.feed_cons
      (utf8_step_bits (by omega) hlow hhigh (by dsimp only; omega)) (Decoder.feed_cons
        (utf8_step_bits (by omega) (by dsimp only; omega) (by dsimp only; omega)
          (by dsimp only; omega)) (Decoder.feed_cons
        (utf8_step_last (by omega) (by dsimp only; omega) (by dsimp only; omega) rfl ?_) rfl)))
    dsimp only
    omega

/-- A text in UTF-8 is read as this text. -/
theorem utf8_decode_encode {s : Str} {bs : Bytes} (h : utf8Encode s = some bs) :
    utf8.decode bs = some s := by
  obtain ⟨words, hwords, rfl⟩ := Option.map_eq_some_iff.1 h
  have hfeed : utf8.feed utf8.init words.flatten = some (none, s) := by
    clear h
    induction s generalizing words with
    | nil =>
      obtain rfl := Option.some.inj hwords
      rfl
    | cons c s ih =>
      rw [List.mapM_cons] at hwords
      obtain ⟨word, hword, hwords⟩ := Option.bind_eq_some_iff.1 hwords
      obtain ⟨words, hrest, hwords⟩ := Option.bind_eq_some_iff.1 hwords
      obtain rfl := Option.some.inj hwords
      rw [List.flatten_cons]
      exact Decoder.feed_trans (feed_utf8Enc hword) (ih words hrest)
  rw [Decoder.decode, Decoder.decodeFrom, hfeed]
  rfl

/-! ## UTF-16, big-endian -/

/-- Where the UTF-16 decoder stands. -/
inductive Utf16State where
  /-- Between characters. -/
  | start
  /-- After the high octet of a code unit. -/
  | high (a : UInt8)
  /-- After a leading surrogate. -/
  | lead (u : ℕ)
  /-- After a leading surrogate and the high octet of a code unit. -/
  | leadHigh (u : ℕ) (a : UInt8)
deriving DecidableEq, Repr

/-- `utf_16_be`. -/
def utf16be : Decoder Utf16State UInt8 CodePoint where
  init := .start
  step
    | .start, a => some (.high a, [])
    | .high a, b =>
      let u := 256 * a.toNat + b.toNat
      if 0xD800 ≤ u ∧ u < 0xDC00 then some (.lead u, [])
      else if 0xDC00 ≤ u ∧ u < 0xE000 then none
      else (codePoint? u).map fun c => (.start, [c])
    | .lead u, a => some (.leadHigh u a, [])
    | .leadHigh u a, b =>
      let v := 256 * a.toNat + b.toNat
      if 0xDC00 ≤ v ∧ v < 0xE000 then
        (codePoint? (0x10000 + 0x400 * (u - 0xD800) + (v - 0xDC00))).map fun c => (.start, [c])
      else none
  done q := q = .start

/-- The two octets of a code unit. -/
def unit16 (u : ℕ) : Bytes := [UInt8.ofNat (u / 256), UInt8.ofNat (u % 256)]

/-- The code units of a character that is not a surrogate: one, or a surrogate pair. -/
def utf16Word (c : CodePoint) : Bytes :=
  if c.val < 0x10000 then unit16 c.val
  else unit16 (0xD800 + (c.val - 0x10000) / 0x400) ++ unit16 (0xDC00 + (c.val - 0x10000) % 0x400)

/-- A character that is not a surrogate. -/
def IsScalar (c : CodePoint) : Prop := ¬ (0xD800 ≤ c.val ∧ c.val < 0xE000)

instance (c : CodePoint) : Decidable (IsScalar c) := inferInstanceAs (Decidable (¬ _))

/-- Encodes a text; a lone surrogate has no encoding. -/
def utf16Encode (s : Str) : Option Bytes :=
  if ∀ c ∈ s, IsScalar c then some (s.flatMap utf16Word) else none

/-- The high octet of a unit. -/
theorem toNat_unit16_high {u : ℕ} (h : u < 0x10000) : (UInt8.ofNat (u / 256)).toNat = u / 256 := by
  rw [UInt8.toNat_ofNat']
  exact Nat.mod_eq_of_lt (by omega)

/-- The low octet of a unit. -/
theorem toNat_unit16_low (u : ℕ) : (UInt8.ofNat (u % 256)).toNat = u % 256 := by
  rw [UInt8.toNat_ofNat']
  exact Nat.mod_eq_of_lt (Nat.mod_lt _ (by decide))

/-- The number of a character is the number of that character. -/
theorem codePoint?_val (c : CodePoint) : codePoint? c.val = some c := by
  simp [codePoint?]

/-- A code unit that is not a surrogate is a character. -/
theorem feed_unit16 {c : CodePoint} (hc : IsScalar c) (hlt : c.val < 0x10000) :
    utf16be.feed .start (unit16 c.val) = some (.start, [c]) := by
  have hu : 256 * (c.val / 256) + c.val % 256 = c.val := Nat.div_add_mod _ _
  have h1 : ¬ (0xD800 ≤ c.val ∧ c.val < 0xDC00) := fun h => hc ⟨h.1, by omega⟩
  have h2 : ¬ (0xDC00 ≤ c.val ∧ c.val < 0xE000) := fun h => hc ⟨by omega, h.2⟩
  simp only [unit16, Decoder.feed, utf16be, toNat_unit16_high hlt, toNat_unit16_low, hu, h1, h2,
    if_false, codePoint?_val, Option.map_some]
  rfl

/-- A leading surrogate waits for its partner. -/
theorem feed_lead {u : ℕ} (h1 : 0xD800 ≤ u) (h2 : u < 0xDC00) :
    utf16be.feed .start (unit16 u) = some (.lead u, []) := by
  have hu : 256 * (u / 256) + u % 256 = u := Nat.div_add_mod _ _
  simp only [unit16, Decoder.feed, utf16be, toNat_unit16_high (show u < 0x10000 by omega),
    toNat_unit16_low, hu, h1, h2, and_self, if_true]
  rfl

/-- A trailing surrogate completes a character. -/
theorem feed_trail {c : CodePoint} {u v : ℕ} (h1 : 0xDC00 ≤ v) (h2 : v < 0xE000)
    (hc : 0x10000 + 0x400 * (u - 0xD800) + (v - 0xDC00) = c.val) :
    utf16be.feed (.lead u) (unit16 v) = some (.start, [c]) := by
  have hv : 256 * (v / 256) + v % 256 = v := Nat.div_add_mod _ _
  simp only [unit16, Decoder.feed, utf16be, toNat_unit16_high (show v < 0x10000 by omega),
    toNat_unit16_low, hv, h1, h2, and_self, if_true, hc, codePoint?_val, Option.map_some]
  rfl

/-- A surrogate pair is a character. -/
theorem feed_pair {c : CodePoint} {u v : ℕ} (h1 : 0xD800 ≤ u) (h2 : u < 0xDC00) (h3 : 0xDC00 ≤ v)
    (h4 : v < 0xE000) (hc : 0x10000 + 0x400 * (u - 0xD800) + (v - 0xDC00) = c.val) :
    utf16be.feed .start (unit16 u ++ unit16 v) = some (.start, [c]) := by
  simp only [Decoder.feed_append, feed_lead h1 h2, feed_trail h3 h4 hc, List.nil_append]

/-- The words of UTF-16 are a code: two or four octets each, with no end inside one. -/
theorem utf16be_units : utf16be.Units utf16Word IsScalar where
  done_init := rfl
  whole c hc := by
    rw [utf16Word]
    split_ifs with hlt
    · exact feed_unit16 hc hlt
    · -- Two code units, the first with the upper ten bits.
      have hbound := c.isLt
      have hdiv := Nat.div_add_mod (c.val - 0x10000) 0x400
      have hmod : (c.val - 0x10000) % 0x400 < 0x400 := Nat.mod_lt _ (by decide)
      generalize hu : 0xD800 + (c.val - 0x10000) / 0x400 = u
      generalize hv : 0xDC00 + (c.val - 0x10000) % 0x400 = v
      exact feed_pair (by omega) (by omega) (by omega) (by omega) (by omega)
  inside c _ p s hps hp hs := by
    rw [utf16Word] at hps
    split_ifs at hps with hlt
    · -- One octet of a code unit.
      obtain ⟨a, p, rfl⟩ := List.exists_cons_of_ne_nil hp
      simp only [unit16, List.cons_append, List.cons.injEq] at hps
      obtain ⟨rfl, hrest⟩ := hps
      have hpnil : p = [] := by
        rcases List.append_eq_singleton_iff.1 hrest.symm with ⟨h, -⟩ | ⟨-, h⟩
        · exact h
        · exact absurd h hs
      subst hpnil
      exact ⟨.high _, rfl, rfl⟩
    · -- One to three octets of a surrogate pair.
      have hbound := c.isLt
      have hlead := feed_lead (u := 0xD800 + (c.val - 0x10000) / 0x400) (by omega) (by omega)
      generalize hu : 0xD800 + (c.val - 0x10000) / 0x400 = u at hps hlead
      generalize 0xDC00 + (c.val - 0x10000) % 0x400 = v at hps
      obtain ⟨a, p, rfl⟩ := List.exists_cons_of_ne_nil hp
      simp only [unit16, List.cons_append, List.nil_append, List.cons.injEq] at hps hlead
      obtain ⟨rfl, hrest⟩ := hps
      match p, hrest with
      | [], _ => exact ⟨.high _, rfl, rfl⟩
      | [b], hrest =>
        simp only [List.cons_append, List.nil_append, List.cons.injEq] at hrest
        obtain ⟨rfl, -⟩ := hrest
        exact ⟨.lead u, hlead, rfl⟩
      | [b, a'], hrest =>
        simp only [List.cons_append, List.nil_append, List.cons.injEq] at hrest
        obtain ⟨rfl, rfl, -⟩ := hrest
        refine ⟨.leadHigh u (UInt8.ofNat (v / 256)), ?_, rfl⟩
        have happ := Decoder.feed_append utf16be .start
          [UInt8.ofNat (u / 256), UInt8.ofNat (u % 256)] [UInt8.ofNat (v / 256)]
        simp only [hlead] at happ
        exact happ
      | b :: a' :: b' :: p, hrest =>
        simp only [List.cons_append, List.cons.injEq] at hrest
        have := congrArg List.length hrest.2.2.2
        simp only [List.length_nil, List.length_append] at this
        exact absurd (List.eq_nil_of_length_eq_zero (by omega)) hs

/-- A text in UTF-16 survives being cut exactly when no cut falls inside a character. -/
theorem utf16be_restarting {size : ℕ} (hs : 0 < size) {s : Str} {bs : Bytes}
    (h : utf16Encode s = some bs) :
    (utf16be.restarting size).decode bs =
      if Decoder.NoneCut size utf16Word 0 s then some s else none := by
  rw [utf16Encode] at h
  split_ifs at h with hall
  simp only [Option.some.injEq] at h
  subst h
  exact utf16be_units.decodeFrom_units hs hall

end Codecs
