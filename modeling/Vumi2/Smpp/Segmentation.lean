import Vumi2.Lib.Chunks
import Vumi2.Smpp.Gsm0338

/-!
# Which texts survive being split

A long message is split after its text is encoded, and each segment is decoded on its own. So the
text comes out again only if every cut falls where the codec could have stopped and started afresh
(`CutsCleanly`): never inside the octets of a character, and for ISO-2022-JP only in ASCII.
-/

namespace Vumi2.Smpp

open Text Chunks Codecs

/-! ## Decoding the segments -/

/-- Each slice of the octets can be decoded, and together they give the text. -/
def SurvivesCutting (codec : Codec) (size : ℕ) (text : Str) (octets : Bytes) : Prop :=
  ∃ texts, (chunks size octets).mapM codec.decode = .ok texts ∧ texts.flatten = text

/-- Decoding is successful if the codec gives a text. -/
theorem decoded_eq_ok_iff {x : Option Str} {s : Str} : decoded x = .ok s ↔ x = some s := by
  cases x with
  | none => simp [decoded]
  | some t => simp [decoded]

/-- Encoding is successful if the codec gives octets. -/
theorem encoded_eq_ok_iff {x : Option Bytes} {bs : Bytes} : encoded x = .ok bs ↔ x = some bs := by
  cases x with
  | none => simp [encoded]
  | some t => simp [encoded]

/-- Two decoders that agree on every segment agree on all of them. -/
theorem mapM_eq_ok_iff {f : Bytes → Except PyExc Str} {g : Bytes → Option Str}
    (h : ∀ bs s, f bs = .ok s ↔ g bs = some s) (l : List Bytes) (texts : List Str) :
    l.mapM f = .ok texts ↔ l.mapM g = some texts := by
  induction l generalizing texts with
  | nil =>
    rw [List.mapM_nil, List.mapM_nil]
    show Except.ok [] = Except.ok texts ↔ some [] = some texts
    simp
  | cons bs l ih =>
    -- Both read the first segment and then the others, so the texts are alike at each bind.
    rw [List.mapM_cons, List.mapM_cons, bind_eq_ok, Option.bind_eq_bind, Option.bind_eq_some_iff]
    refine exists_congr fun s => and_congr (h bs s) ?_
    rw [bind_eq_ok, Option.bind_eq_bind, Option.bind_eq_some_iff]
    refine exists_congr fun ts => and_congr (ih ts) ?_
    show Except.ok (s :: ts) = Except.ok texts ↔ some (s :: ts) = some texts
    rw [Except.ok.injEq, Option.some.injEq]

/-- What each segment becomes when all of them can be decoded. -/
theorem getElem?_of_mapM {f : Bytes → Except PyExc Str} {l : List Bytes} {texts : List Str}
    (h : l.mapM f = .ok texts) :
    texts.length = l.length ∧
      ∀ (k : ℕ) bs, l[k]? = some bs → ∃ t, texts[k]? = some t ∧ f bs = .ok t := by
  induction l generalizing texts with
  | nil =>
    cases h
    exact ⟨rfl, fun k bs hk => by simp at hk⟩
  | cons b l ih =>
    rw [List.mapM_cons] at h
    obtain ⟨t, hb, h⟩ := bind_eq_ok.1 h
    obtain ⟨ts, hl, h⟩ := bind_eq_ok.1 h
    cases h
    obtain ⟨hlength, hget⟩ := ih hl
    refine ⟨by rw [List.length_cons, List.length_cons, hlength], fun k bs hk => ?_⟩
    cases k with
    | zero =>
      obtain rfl : b = bs := by simpa using hk
      exact ⟨t, rfl, hb⟩
    | succ k => exact hget k bs (by simpa using hk)

/-- Whether a text survives is one run of the decoder with restarts. -/
theorem survivesCutting_iff {codec : Codec} {σ : Type} {D : Decoder σ UInt8 CodePoint}
    (h : ∀ bs s, codec.decode bs = .ok s ↔ D.decode bs = some s) (hinit : D.done D.init = true)
    {size : ℕ} (hs : 0 < size) (text : Str) (octets : Bytes) :
    SurvivesCutting codec size text octets ↔ (D.restarting size).decode octets = some text := by
  rw [← D.decode_chunks hs hinit, Option.map_eq_some_iff, SurvivesCutting]
  simp only [mapM_eq_ok_iff h]

/-- A text in a codec of single octets survives every cut. -/
theorem survivesCutting_charmap {C : Charmap} {size : ℕ} (hs : 0 < size) {text : Str}
    {octets : Bytes} (h : (charmapCodec C).encode text = .ok octets) :
    SurvivesCutting (charmapCodec C) size text octets := by
  obtain ⟨texts, hchunks, hflatten⟩ :=
    C.decode_chunks hs (C.decode_encode (encoded_eq_ok_iff.1 h))
  refine ⟨texts, ?_, hflatten⟩
  exact (mapM_eq_ok_iff (fun bs s => decoded_eq_ok_iff) _ _).2 hchunks

/-- No cut, after every `size` octets, falls where the codec of the data coding could not have
stopped and started afresh. -/
def CutsCleanly (data_coding : DataCodingDefault) (size : ℕ) (text : Str) : Prop :=
  match data_coding with
  | .SMSC_DEFAULT_ALPHABET => escapeChar ∉ text ∧ Decoder.NoneCut size gsm0338Word 0 text
  | .UCS2 => Decoder.NoneCut size utf16Word 0 text
  | .JIS => Iso2022jp.Whole Iso2022jp.kanji size .text 0 .ascii text
  | _ => True

/-- An encoded text survives being cut exactly when it is cut cleanly. -/
theorem survivesCutting_iff_cutsCleanly {data_coding : DataCodingDefault} {codec : Codec}
    (hcodec : dataCodingCodecs data_coding = .ok codec) {size : ℕ} (hs : 0 < size) {text : Str}
    {octets : Bytes} (hencode : codec.encode text = .ok octets) :
    SurvivesCutting codec size text octets ↔ CutsCleanly data_coding size text := by
  cases data_coding with
  | SMSC_DEFAULT_ALPHABET =>
    -- A decoder with a state: the parts are read well if it could restart at each cut.
    obtain rfl : gsm0338 = codec := Except.ok.inj hcodec
    rw [survivesCutting_iff gsm0338Decode_eq_ok_iff rfl hs]
    exact gsm0338_restarting_iff hs hencode
  | UCS2 =>
    obtain rfl : utf16beCodec = codec := Except.ok.inj hcodec
    rw [encode_utf16beCodec, encoded_eq_ok_iff] at hencode
    have hdecode : ∀ bs s, utf16beCodec.decode bs = .ok s ↔ utf16be.decode bs = some s :=
      fun bs s => decoded_eq_ok_iff
    rw [survivesCutting_iff hdecode rfl hs, utf16be_restarting hs hencode]
    simp [CutsCleanly]
  | JIS =>
    obtain rfl : iso2022jpCodec = codec := Except.ok.inj hcodec
    have hencoded : encoded (Iso2022jp.encode Iso2022jp.kanji text) = .ok octets := hencode
    rw [encoded_eq_ok_iff] at hencoded
    have hdecode : ∀ bs s, iso2022jpCodec.decode bs = .ok s ↔
        (Iso2022jp.decoder Iso2022jp.kanji).decode bs = some s := fun bs s => decoded_eq_ok_iff
    rw [survivesCutting_iff hdecode rfl hs]
    exact Iso2022jp.restarting_iff hs hencoded
  | IA5_ASCII =>
    -- One octet for each character: every cut is clean.
    obtain rfl : charmapCodec ascii = codec := Except.ok.inj hcodec
    exact iff_of_true (survivesCutting_charmap hs hencode) trivial
  | LATIN_1 =>
    obtain rfl : charmapCodec latin1 = codec := Except.ok.inj hcodec
    exact iff_of_true (survivesCutting_charmap hs hencode) trivial
  | CYRILLIC =>
    obtain rfl : charmapCodec iso8859_5 = codec := Except.ok.inj hcodec
    exact iff_of_true (survivesCutting_charmap hs hencode) trivial
  | ISO_8859_8 =>
    obtain rfl : charmapCodec iso8859_8 = codec := Except.ok.inj hcodec
    exact iff_of_true (survivesCutting_charmap hs hencode) trivial
  | _ => cases hcodec

end Vumi2.Smpp
