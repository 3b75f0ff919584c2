import Vumi2.Lib.Codecs
import Vumi2.Lib.Iso2022jp
import Vumi2.Runtime
import Vumi2.Smpp.Pdu

/-!
# The codecs of the SMPP transport

The GSM 03.38 codec of `codecs.py`, with its two tables and its treatment of errors, and the codecs
that `DataCodingCodecs` names.
-/

namespace Vumi2.Smpp

open Effect Text Codecs

/-- A codec: `str.encode` and `bytes.decode` by its name, in strict mode. -/
structure Codec where
  encode : Str → Except PyExc Bytes
  decode : Bytes → Except PyExc Str

/-- An answer, or the `UnicodeEncodeError` for none. -/
def encoded (bs : Option Bytes) : Except PyExc Bytes :=
  match bs with
  | some bs => .ok bs
  | none => .error .unicodeEncodeError

/-- An answer, or the `UnicodeDecodeError` for none. -/
def decoded (s : Option Str) : Except PyExc Str :=
  match s with
  | some s => .ok s
  | none => .error .unicodeDecodeError

/-! ## GSM 03.38 -/

/-- `GSM0338_CHARSET`. -/
def gsm0338Charset : Str :=
  str "@£$¥èéùìòÇ\nØø\rÅåΔ_ΦΓΛΩΠΨΣΘΞ\x1bÆæßÉ !\"#¤%&'()*+,-./0123456789:;<=>?" ++
    str "¡ABCDEFGHIJKLMNOPQRSTUVWXYZÄÖÑÜ§¿abcdefghijklmnopqrstuvwxyzäöñüà"

/-- `GSM0338_CHARSET_EXTENSION`. -/
def gsm0338CharsetExtension : Str :=
  str "````````````````````^```````````````````\x7b\x7d`````\\````````````[~]`" ++
    str "|````````````````````````````````````€``````````````````````````"

/-- The last position of a character, as in `{c: i for i, c in enumerate(table)}`. -/
def charsetMap (table : Str) (c : CodePoint) : Option ℕ :=
  (List.range table.length).reverse.find? fun i => table[i]? = some c

/-- `GSM0338_CHARSET_MAP`. -/
def gsm0338CharsetMap (c : CodePoint) : Option ℕ := charsetMap gsm0338Charset c

/-- `GSM0338_CHARSET_EXTENSION_MAP`. -/
def gsm0338CharsetExtensionMap (c : CodePoint) : Option ℕ := charsetMap gsm0338CharsetExtension c

/-- `GSM0338_CHARSET_EXTENSION_ESCAPE`. -/
def gsm0338CharsetExtensionEscape : ℕ := 27

/-- What `Gsm0338Codec.encode` appends for a character with these positions in the two tables. -/
def gsm0338Octets (errors : Str) : Option ℕ → Option ℕ → Except PyExc Bytes
  | some idx, _ => .ok [UInt8.ofNat idx]
  | none, some idx => .ok [UInt8.ofNat gsm0338CharsetExtensionEscape, UInt8.ofNat idx]
  | none, none =>
    if errors = str "strict" then .error .unicodeEncodeError
    else if errors = str "ignore" then .ok []
    else if errors = str "replace" then
      .ok ((gsm0338CharsetMap (ofChar '?')).toList.map UInt8.ofNat)
    else .error .vumiCodecException

/-- `Gsm0338Codec.encode`. -/
def gsm0338Encode (errors : Str) : Str → Except PyExc Bytes
  | [] => .ok []
  | char :: input => do
    let octets ←
      gsm0338Octets errors (gsm0338CharsetMap char) (gsm0338CharsetExtensionMap char)
    let result ← gsm0338Encode errors input
    .ok (octets ++ result)

/-- What `Gsm0338Codec.decode` appends for what it found in a table, if it found something. -/
def gsm0338Shown (errors : Str) : Option CodePoint → Except PyExc Str
  | some c => .ok [c]
  | none =>
    -- An `IndexError`.
    if errors = str "strict" then .error .unicodeDecodeError
    else if errors = str "ignore" then .ok []
    else if errors = str "replace" then .ok [ofChar '\uFFFD']
    else .error .vumiCodecException

/-- `Gsm0338Codec.decode`. The octet after an escape is taken with `next`, which raises
`StopIteration` at the end of the input. -/
def gsm0338Decode (errors : Str) : Bytes → Except PyExc Str
  | [] => .ok []
  | char :: res =>
    if char.toNat = gsm0338CharsetExtensionEscape then
      match res with
      | [] => .error .stopIteration
      | char :: res => do
        let shown ← gsm0338Shown errors gsm0338CharsetExtension[char.toNat]?
        let result ← gsm0338Decode errors res
        .ok (shown ++ result)
    else do
      let shown ← gsm0338Shown errors gsm0338Charset[char.toNat]?
      let result ← gsm0338Decode errors res
      .ok (shown ++ result)

/-- In strict mode a character in neither table is refused. -/
theorem gsm0338Encode_unknown {errors : Str} {char : CodePoint} (input : Str)
    (herrors : errors = str "strict") (hbase : gsm0338CharsetMap char = none)
    (hextension : gsm0338CharsetExtensionMap char = none) :
    gsm0338Encode errors (char :: input) = .error .unicodeEncodeError := by
  rw [gsm0338Encode, hbase, hextension, gsm0338Octets, if_pos herrors]
  rfl

/-- `"gsm0338"`. -/
def gsm0338 : Codec where
  encode := gsm0338Encode (str "strict")
  decode := gsm0338Decode (str "strict")

/-! ## The codecs of the standard library -/

/-- A codec of single octets. -/
def charmapCodec (C : Charmap) : Codec where
  encode s := encoded (C.encode s)
  decode bs := decoded (C.decode bs)

/-- `"iso2022_jp"`. -/
def iso2022jpCodec : Codec where
  encode s := encoded (Iso2022jp.encode Iso2022jp.kanji s)
  decode bs := decoded ((Iso2022jp.decoder Iso2022jp.kanji).decode bs)

/-- `"utf_16_be"`. -/
def utf16beCodec : Codec where
  encode s := encoded (utf16Encode s)
  decode bs := decoded (utf16be.decode bs)

/-- The codec `utf_16_be` encodes as UTF-16 in big-endian order. -/
theorem encode_utf16beCodec (s : Str) : utf16beCodec.encode s = encoded (utf16Encode s) := by
  simp only [utf16beCodec]

/-- `bs.decode()`. -/
def decodeUtf8 (bs : Bytes) : Except PyExc Str := decoded (utf8.decode bs)

/-- `DataCodingCodecs`: a `KeyError` for a data coding that it does not name. -/
def dataCodingCodecs : DataCodingDefault → Except PyExc Codec
  | .SMSC_DEFAULT_ALPHABET => .ok gsm0338
  | .IA5_ASCII => .ok (charmapCodec ascii)
  | .LATIN_1 => .ok (charmapCodec latin1)
  | .JIS => .ok iso2022jpCodec
  | .CYRILLIC => .ok (charmapCodec iso8859_5)
  | .ISO_8859_8 => .ok (charmapCodec iso8859_8)
  | .UCS2 => .ok utf16beCodec
  | _ => .error .keyError

end Vumi2.Smpp
