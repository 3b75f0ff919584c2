import Mathlib.Data.Fin.Basic
import Mathlib.Data.Nat.Notation

/-!
# Text and bytes

`Str` is Python's `str`: a sequence of code points. Unlike a Lean `String` it may hold lone
surrogates, which a JSON document can put into a message and which no codec of the program can
encode. `Bytes` is Python's `bytes`.
-/

namespace Text

/-- A code point, surrogates included. -/
abbrev CodePoint : Type := Fin 0x110000

/-- A sequence of code points. -/
abbrev Str : Type := List CodePoint

/-- A sequence of octets. -/
abbrev Bytes : Type := List UInt8

/-- A character of Lean is below the last code point. -/
theorem char_toNat_lt (c : Char) : c.toNat < 0x110000 := by
  rcases c.valid with h | h
  · simp only [Char.toNat]
    omega
  · simp only [Char.toNat]
    omega

/-- The code point of a Lean character. -/
def ofChar (c : Char) : CodePoint := ⟨c.toNat, char_toNat_lt c⟩

/-- The text of a Lean literal. -/
def str (s : String) : Str := s.toList.map ofChar

/-- The code point of an octet, as in ISO-8859-1. -/
def ofByte (b : UInt8) : CodePoint := ⟨b.toNat, Nat.lt_of_lt_of_le b.toNat_lt (by decide)⟩

/-- The number of the character of an octet is the octet's. -/
@[simp] theorem ofByte_val (b : UInt8) : (ofByte b).val = b.toNat := rfl

/-- The octet of a code point below 256, else of its low eight bits. -/
def toByte (c : CodePoint) : UInt8 := UInt8.ofNat c.val

/-- A character below 256 keeps its number as an octet. -/
theorem toNat_toByte {c : CodePoint} (h : c.val < 256) : (toByte c).toNat = c.val := by
  rw [toByte, UInt8.toNat_ofNat']
  exact Nat.mod_eq_of_lt h

/-- A character below 256 comes back from its octet. -/
theorem ofByte_toByte {c : CodePoint} (h : c.val < 256) : ofByte (toByte c) = c :=
  Fin.ext (by rw [ofByte_val, toNat_toByte h])

/-- `int.from_bytes(bs, "big")`. -/
def fromBytesBig (bs : Bytes) : ℕ := bs.foldl (fun n b => 256 * n + b.toNat) 0

/-- One octet is its own number. -/
@[simp] theorem fromBytesBig_singleton (b : UInt8) : fromBytesBig [b] = b.toNat := by
  simp [fromBytesBig]

end Text
